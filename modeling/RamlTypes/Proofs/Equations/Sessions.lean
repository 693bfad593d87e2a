import RamlTypes.Proofs.Equations.Solutions
import RamlTypes.Proofs.Preservation.Evaluations

/-!
# The equations hold at the end of a session

What an evaluation has written stays when the calls return in which it was made (`Call.Makes.keeps`),
and when the request ends (`Request.Starts.keeps`). So at the end of a session each evaluation of any
of its requests has left a shape that satisfies the equation of its declaration, and each shape that is
declared by what has to be resolved either waits or has been evaluated
(`Session.solves_of_evaluates`).
-/

namespace RamlTypes

open Relation (ReflTransGen)
open Store

/-! ## What calls leave -/

/-- The store in which a call ends. -/
def Call.result (c : Call) : Store := (Load.resolveWithin c.depth c.id c.store).2

/-- A store keeps what it has. -/
theorem Store.Keeps.refl (s : Store) : s.Keeps s := fun _ a ha _ => ⟨a, ha, .refl a⟩

/-- What an evaluation has written is left to the call that has made it. -/
theorem Evaluation.grows_result (e : Evaluation) :
    (written e).Grows (Call.result ⟨e.depth + 1, e.id, e.start⟩) := by
  have hgrows := Load.grows_bind (Load.resolving e.id (Load.evaluateWithin e.depth))
    (Load.resolveIdle (Load.resolveWithin e.depth)) e.start
  rw [Load.resolving_apply, e.claimed] at hgrows
  dsimp only at hgrows
  rw [e.evaluated] at hgrows
  exact hgrows

namespace Resolution

variable {resolve : ShapeId → Load Unit} {a : Shape} {p : Pending} {s t : Store} {j : ShapeId}

/-- By induction on the shapes before, the store of one of them grows to that after all of them. -/
theorem grows_each {before after : List ShapeId} : ∀ {s : Store},
    each resolve before s = (.ok (), t) →
    (resolve j t).2.Grows (each resolve (before ++ j :: after) s).2 := by
  induction before with
  | nil =>
    intro s h
    cases h
    exact Load.grows_bind (resolve j) (fun _ => each resolve after) t
  | cons i rest ih =>
    intro s h
    obtain ⟨_, u, hu, hrest⟩ := Load.bind_eq_ok.1 h
    rw [List.cons_append, each, Load.bind_of_ok hu]
    exact ih hrest

/-- A resolution that a declaration asks for is followed by the rest of its evaluation. -/
theorem Asks.grows (h : Asks resolve a p s j t) :
    (resolve j t).2.Grows (ofPending resolve a.owner a p s).2 := by
  cases h with
  | @reference text library name _ declared parsed denoted =>
    have hlookup : lookup a.owner library name s = (.ok j, s) := by
      rw [lookup, Load.ask_bind, denoted]
      rfl
    rw [ofPending, declared]
    dsimp only
    rw [parsed]
    dsimp only
    rw [ofExpr, Load.bind_of_ok hlookup]
    exact Load.grows_bind (resolve j) _ s
  | link declared linked loaded =>
    rw [ofPending, declared]
    dsimp only
    unfold ofLink
    rw [linked]
    dsimp only
    rw [Load.bind_of_ok loaded]
    exact Load.grows_bind (resolve _) _ t
  | @parent before after _ _ declared parents resolved =>
    rw [ofPending, declared]
    dsimp only
    rw [ofParents, parents]
    exact (grows_each resolved).trans (Load.grows_bind _ _ s)

end Resolution

/-- So for the shapes that nothing is in progress for. -/
theorem Load.grows_resolveIdle {resolve : ShapeId → Load Unit} {before after : List ShapeId}
    {t : Store} {j : ShapeId} (hidle : t.isInProgress j = false) : ∀ {s : Store},
    resolveIdle resolve before s = (.ok (), t) →
    (resolve j t).2.Grows (resolveIdle resolve (before ++ j :: after) s).2 := by
  induction before with
  | nil =>
    intro s h
    cases h
    have hcall : unlessResolving j (resolve j) t = resolve j t := by
      rw [unlessResolving, ask_bind, hidle]
      rfl
    have hgrows := grows_bind (unlessResolving j (resolve j)) (fun _ => resolveIdle resolve after) t
    rwa [hcall] at hgrows
  | cons i rest ih =>
    intro s h
    obtain ⟨_, u, hu, hrest⟩ := bind_eq_ok.1 h
    rw [List.cons_append, resolveIdle, bind_of_ok hu]
    exact ih hrest

namespace Call

variable {c d : Call}

/-- What a call has resolved is left to the call that has made it. -/
theorem Makes.keeps (h : c.Makes d) : d.result.Keeps c.result := by
  cases h with
  | @dependency n i j s t a p claimed asks =>
    have hgrows := asks.grows
    have hrest := Load.grows_bind (Load.resolving i (Load.evaluateWithin n))
      (Load.resolveIdle (Load.resolveWithin n)) s
    rw [Load.resolving_apply, claimed] at hrest
    dsimp only at hrest
    rcases heval : Load.evaluateWithin n a p (s.beginResolution i) with ⟨f | r, u⟩
    · rw [heval] at hrest
      have hgrows' : (Load.resolveWithin n j t).2.Grows u := by rwa [heval] at hgrows
      have hfailed : u.Keeps ((u.endResolution i).markFailed i) := fun k b hb _ => ⟨b, hb, .refl b⟩
      exact (hgrows'.keeps.trans hfailed).trans hrest.keeps
    · rw [heval] at hrest
      have hgrows' : (Load.resolveWithin n j t).2.Grows u := by rwa [heval] at hgrows
      exact (hgrows'.keeps.trans (keeps_written ⟨i, n, s, a, p, r, u, claimed, heval⟩)).trans hrest.keeps
  | @nested n i j s t u before after evaluated resolved idle =>
    have hresult : Call.result ⟨n + 1, i, s⟩ =
        (Load.resolveIdle (Load.resolveWithin n) (before ++ j :: after) t).2 :=
      congrArg Prod.snd (Load.bind_of_ok evaluated _)
    rw [hresult]
    exact (Load.grows_resolveIdle idle resolved).keeps

/-- What a call has resolved is kept by the calls that have made it. -/
theorem keeps_of_makes (h : ReflTransGen Makes c d) : d.result.Keeps c.result := by
  induction h with
  | refl => exact .refl _
  | tail _ hm ih => exact hm.keeps.trans ih

/-- What a call for a shape of the work list has resolved is left to the others. -/
theorem StartsDrain.grows {depth n : Nat} {s : Store} (h : StartsDrain depth n s c) :
    c.result.Grows (Load.drain depth n s).2 := by
  induction h with
  | @first n s i rest queue notFailed =>
    have hcall : Load.unlessFailed i (Load.resolveWithin depth i) s.popUnresolved =
        Load.resolveWithin depth i s.popUnresolved := by
      rw [Load.unlessFailed, Load.ask_bind, notFailed]
      rfl
    have hgrows := Load.grows_bind (Load.unlessFailed i (Load.resolveWithin depth i))
      (fun _ => Load.drain depth n) s.popUnresolved
    rw [hcall] at hgrows
    rw [Load.drain, Load.ask_bind, queue]
    exact hgrows
  | @later n s t i rest c queue resolved _ ih =>
    rw [Load.drain, Load.ask_bind, queue]
    dsimp only
    rw [Load.change_bind, Load.bind_of_ok resolved]
    exact ih

/-- And by the request that has made those. -/
theorem StartsDrainAll.grows {s : Store} (h : StartsDrainAll s c) :
    c.result.Grows (Load.resolveAll s).2 :=
  (StartsDrain.grows h).trans (Load.grows_bind Load.drainAll (fun _ => Load.bindAnnotations) s)

end Call

/-- An eager load leaves the shapes that resolving all leaves after the fragment is loaded. -/
theorem Session.shapes_load {s m : Store} {p : Path} {f : Fragment}
    (loaded : Load.fragment p s = (.ok f, m)) (eager : m.settings.eagerResolution) :
    (step s (.load p)).2.shapes = (Load.resolveAll m).2.shapes := by
  have heager : Load.resolveIfEager m = Load.resolveAll m := by
    rw [Load.resolveIfEager, Load.ask_bind, eager]
    rfl
  rw [step, perform_snd, Load.load, Load.orRollback, Load.bind_of_ok loaded, Load.bind_apply, heager]
  rcases Load.resolveAll m with ⟨_ | _, u⟩ <;> rfl

/-- What a call of a request has resolved is left when the request ends. -/
theorem Request.Starts.keeps {s : Store} {r : Request} {c : Call} (h : r.Starts s c) :
    c.result.Keeps (Session.step s r).2 := by
  cases h with
  | resolve i =>
    rw [Session.step, Session.perform_snd]
    exact .refl _
  | @resolveNamed p name i named =>
    have hresult : Load.resolveNamed p name s = (do Load.resolve i; return i : Load ShapeId) s := by
      rw [Load.resolveNamed, Load.ask_bind, Load.ask_bind, named]
    rw [Session.step, Session.perform_snd, hresult]
    exact (Load.grows_bind (Load.resolve i) _ s).keeps
  | resolveAll starts =>
    rw [Session.step, Session.perform_snd]
    exact (Call.StartsDrainAll.grows starts).keeps
  | @load p f t c loaded eager starts =>
    have hsame : (Load.resolveAll t).2.Keeps (Session.step s (.load p)).2 := fun i a ha _ =>
      ⟨a, Session.shapes_load loaded eager ▸ ha, .refl a⟩
    exact (Call.StartsDrainAll.grows starts).keeps.trans hsame

namespace Session

/-- What an evaluation for one of the requests has written is left at the end of the session. -/
theorem Evaluates.exists_wrote {s : Store} {rs : List Request} {e : Evaluation}
    (h : Evaluates s rs e) (hs : s.Coherent) : e.start.Sound e.id ∧
      ∃ c, (run s rs).shapes[e.id]? = some c ∧ Wrote e e.shape c (run s rs) := by
  obtain ⟨before, r, after, c, rfl, hstarts, hbelow⟩ := h
  have hbefore := (coherent_run before hs).1
  have hsound : e.start.Sound e.id :=
    ⟨_, SoundFrom.below (hstarts.sound hbefore hbelow.id_lt) hbelow⟩
  refine ⟨hsound, ?_⟩
  have hrun : run s (before ++ r :: after) = run (step (run s before) r).2 after :=
    run_append s before (r :: after)
  have hafter : (step (run s before) r).2.Keeps (run s (before ++ r :: after)) :=
    hrun ▸ (accounts_run after (keeps_step hbefore r).coherent).keeps
  -- From the evaluation to its call, to the end of the request, and to the end of the session.
  have hkeeps : (written e).Keeps (run s (before ++ r :: after)) :=
    ((e.grows_result.keeps.trans (Call.keeps_of_makes hbelow)).trans hstarts.keeps).trans hafter
  obtain ⟨-, -, -, -, -, -, -, -, -, hk⟩ := hsound.evaluation
  obtain ⟨c, hc, hw⟩ := wrote_written e hk
  obtain ⟨d, hd, hcd⟩ := hkeeps e.id c hc hw.concrete
  exact ⟨d, hd, hw.later hkeeps hcd⟩

/-- Whatever the requests of a session are: each shape whose declaration has been evaluated for one of
them is resolved and satisfies the equation of the declaration, with respect to the moment at which its
resolution began. Each shape that is declared by what has to be resolved has been evaluated, or it
waits, and no other shape waits. A shape that waits between two requests and is resolved at the end has
been evaluated for one of those in between. -/
theorem solves_of_evaluates (settings : LoadSettings) (files : Files) (rs : List Request) :
    let s := Store.empty settings files
    let t := run s rs
    (∀ e, Evaluates s rs e → ∃ c, t.HasResolved e.id c ∧ e.shape.Grows c ∧
      e.start.Solves t e.id e.shape e.pending c) ∧
    (∀ i c, t.shapes[i]? = some c →
      (c.isUnknown → c.IsDerived) ∧
      (c.IsDerived → c.isUnknown ∨ ∃ e, Evaluates s rs e ∧ e.id = i)) ∧
    ∀ before after, rs = before ++ after → ∀ i a p, (run s before).shapes[i]? = some a →
      a.body = .unknown p → ∀ c, t.HasResolved i c →
      ∃ e, e.id = i ∧ e.pending = p ∧ Evaluates (run s before) after e ∧ e.start.Solves t i a p c := by
  intro s t
  have hempty := coherent_empty settings files
  refine ⟨fun e he => ?_, fun i c hc => ?_, ?_⟩
  · obtain ⟨hsound, c, hc, hw⟩ := he.exists_wrote hempty
    exact ⟨c, ⟨hc, hw.concrete⟩, hw.grows, solves_of_wrote hsound hw⟩
  · refine ((accounts_run rs hempty).new i c hc (Nat.zero_le i)).imp_right fun hall hderived => ?_
    refine (hall hderived).imp_right ?_
    rintro ⟨e, ⟨-, he⟩, heq⟩
    exact ⟨e, he, heq⟩
  · rintro before after rfl i a p ha hp c ⟨hc, hr⟩
    -- The shape still waits before the later requests, so one of them has evaluated it.
    have hcoherent := (coherent_run before hempty).1
    have hrun : t = run (run s before) after := run_append s before after
    obtain ⟨c', hc', hkept | ⟨e, ⟨hsound, he⟩, rfl, hw⟩⟩ := (accounts_run after hcoherent).old i a ha
    · cases (hrun ▸ hc).symm.trans hc'
      rw [hkept.kept.isUnknown, Shape.isUnknown, hp] at hr
      cases hr
    · cases (hrun ▸ hc).symm.trans hc'
      obtain ⟨-, hpending, -⟩ := waits_of_claim e.claimed
      rw [hw.stays.kept.body, hp] at hpending
      cases hpending
      exact ⟨e, rfl, rfl, he, hrun ▸ (solves_of_wrote hsound hw).of_stays hw.stays⟩

/-- An eager load that stores the property `short` while it resolves `Ext`, and then resolves it too. -/
theorem solves_of_evaluates_eager :
    let p : Path := ⟨"/lib.raml"⟩
    let text := "#%RAML 1.0 Library\ntypes:\n  Name: string\n  Base: object\n  Ext:\n    type: Base\n    properties:\n      short: Name\n"
    let s : Store := .empty ⟨⟨"/"⟩, false, true⟩ (.memory [(p, text)])
    let t := run s [.load p]
    ∃ e c, Evaluates s [.load p] e ∧ e.id = 3 ∧ t.HasResolved 3 c ∧ c.name = "short" ∧
      c.inherits = [0] ∧ e.start.Solves t 3 e.shape e.pending c := by
  intro p text s t
  have hfacts : t.shapes[3]?.any fun c => !c.isUnknown && c.declaration == some "Name" &&
      c.name == "short" && c.inherits == [0] := by decide +kernel
  obtain ⟨c, hc, hall⟩ := (Option.any_eq_true _ _).1 hfacts
  simp only [Bool.and_eq_true, beq_iff_eq, Bool.not_eq_true'] at hall
  obtain ⟨⟨⟨hresolved, hdeclaration⟩, hname⟩, hinherits⟩ := hall
  have hderived : c.IsDerived := .inr ⟨"Name", hdeclaration, by decide, by decide⟩
  obtain ⟨hsolves, hevaluated, -⟩ :=
    solves_of_evaluates ⟨⟨"/"⟩, false, true⟩ (.memory [(p, text)]) [.load p]
  obtain hu | ⟨e, he, heq⟩ := (hevaluated 3 c hc).2 hderived
  · rw [hresolved] at hu
    cases hu
  · obtain ⟨d, hd, -, hd'⟩ := hsolves e he
    rw [heq] at hd hd'
    cases hc.symm.trans hd.1
    exact ⟨e, c, he, heq, hd, hname, hinherits, hd'⟩

end Session

end RamlTypes
