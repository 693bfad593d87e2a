import RamlTypes.Proofs.Equations.Calls

/-!
# What the requests of a session change

Each request begins some calls of the resolution (`Request.Starts`), and accounts for what it changes
with the evaluations below them (`Session.accounts_step`). So whatever the requests of a session were,
a shape that was unresolved and is resolved now has been written by an evaluation of one of them
(`Session.accounts_run`).
-/

namespace RamlTypes

open Store

/-! ## The calls of a request -/

/-- The calls for the shapes of the work list, of which `n` at most are taken from it. -/
inductive Call.StartsDrain (depth : Nat) : Nat → Store → Call → Prop
  | first {n : Nat} {s : Store} {i : ShapeId} {rest : List ShapeId}
      (queue : s.unresolved = i :: rest) (notFailed : s.popUnresolved.isFailed i = false) :
      StartsDrain depth (n + 1) s ⟨depth, i, s.popUnresolved⟩
  | later {n : Nat} {s t : Store} {i : ShapeId} {rest : List ShapeId} {c : Call}
      (queue : s.unresolved = i :: rest)
      (resolved : Load.unlessFailed i (Load.resolveWithin depth i) s.popUnresolved = (.ok (), t))
      (starts : StartsDrain depth n t c) : StartsDrain depth (n + 1) s c

/-- The calls for the whole work list. -/
abbrev Call.StartsDrainAll (s : Store) : Call → Prop :=
  StartsDrain (s.potential + 1) (s.unresolved.length + s.potential + 1) s

/-- The calls that a request of the store `s` begins. -/
inductive Request.Starts (s : Store) : Request → Call → Prop
  | resolve (i : ShapeId) : Starts s (.resolve i) ⟨s.potential + 1, i, s⟩
  | resolveNamed {p : Path} {name : String} {i : ShapeId}
      (named : s.lookup? (s.normalize p) name = some i) :
      Starts s (.resolveNamed p name) ⟨s.potential + 1, i, s⟩
  | resolveAll {c : Call} (starts : Call.StartsDrainAll s c) : Starts s .resolveAll c
  | load {p : Path} {f : Fragment} {t : Store} {c : Call} (loaded : Load.fragment p s = (.ok f, t))
      (eager : t.settings.eagerResolution) (starts : Call.StartsDrainAll t c) : Starts s (.load p) c

/-- The evaluation is made below one of the calls, while a request is underway. -/
structure Evaluation.Of (e : Evaluation) (starts : Call → Prop) : Prop where
  sound : e.start.Sound e.id
  below : ∃ c, starts c ∧ e.Below c

theorem Evaluation.Of.imp {e : Evaluation} {P Q : Call → Prop} (h : e.Of P)
    (hPQ : ∀ c, P c → Q c) : e.Of Q where
  sound := h.sound
  below := by
    obtain ⟨c, hc, he⟩ := h.below
    exact ⟨c, hPQ c hc, he⟩

namespace Store

variable {b s : Store} {known : PathKey → Prop} {w : Extent b} {starts : Call → Prop}
  {T : Evaluation → Prop}

/-- A call that is made accounts for what it changes. -/
theorem accounts_call {n : Nat} {i : ShapeId} (hs : s.Sound i) (hc : starts ⟨n, i, s⟩) :
    Accounts (·.Of starts) s (Load.resolveWithin n i s).2 :=
  (accounts_resolveWithin n i s hs).mono fun _ he => ⟨Sound.below (c := ⟨n, i, s⟩) hs he, _, hc, he⟩

/-- Resolving the work list accounts for what it changes. -/
theorem accounts_drain (depth n : Nat) : ∀ {w : Extent b} {s : Store},
    b.Underway known .declaring w s → s.inProgress = [] →
    Accounts (·.Of (Call.StartsDrain (depth + 1) n s)) s (Load.drain (depth + 1) n s).2 := by
  induction n with
  | zero => exact fun _ _ => .refl _
  | succ n ih =>
    intro w s h hidle
    refine .ask ?_
    split
    · exact .refl s
    · next i rest hq =>
      have hsound : s.popUnresolved.Sound i :=
        ⟨b, known, .resolving i, w, nofun, h.popUnresolved hq, h.queue i (hq ▸ List.mem_cons_self)⟩
      have hfirst : Accounts (·.Of (Call.StartsDrain (depth + 1) (n + 1) s)) s.popUnresolved
          (Load.unlessFailed i (Load.resolveWithin (depth + 1) i) s.popUnresolved).2 := by
        refine .ask ?_
        cases hf : s.popUnresolved.isFailed i with
        | true => exact .refl _
        | false => exact accounts_call hsound (.first hq hf)
      have hpop : Accounts (·.Of (Call.StartsDrain (depth + 1) (n + 1) s)) s s.popUnresolved :=
        (Accounts.refl s).of_shapes_eq rfl rfl
      refine .bind hpop fun _ t ht => ?_
      cases ht
      refine .bind hfirst fun _ t ht => ?_
      obtain ⟨⟨w', -, hw'⟩, hidle'⟩ := (h.resolveFirst hidle hq depth).of_ok ht
      exact (ih hw' hidle').mono fun e he => he.imp fun c hc => .later hq ht hc

/-- So does resolving all, which binds annotations at last. -/
theorem accounts_resolveAll (h : b.Underway known .declaring w s) (hidle : s.inProgress = []) :
    Accounts (·.Of (Call.StartsDrainAll s)) s (Load.resolveAll s).2 := by
  refine .bind ?_ fun _ t _ => ?_
  · exact .ask (.ask (accounts_drain _ _ h hidle))
  · have hbind := (keptByLoading_unwritten t).bindAnnotations (fun _ hs => hs) (.refl t)
    exact hbind.holds.accounts

/-- So does resolving a shape. -/
theorem accounts_resolve (h : s.Coherent) {i : ShapeId} (hc : starts ⟨s.potential + 1, i, s⟩) :
    Accounts (·.Of starts) s (Load.resolve i s).2 := by
  rcases Nat.lt_or_ge i s.shapes.size with hi | hi
  · refine .ask (accounts_call ?_ hc)
    exact ⟨s, _, .declaring, .start s, nofun, h.underway s.mentions_true, hi⟩
  · rw [resolve_of_size_le hi]
    exact .refl s

/-- Giving up a load changes no shape. -/
theorem accounts_orRollback {α : Type} {x : Load α} (h : Accounts T s (x s).2) :
    Accounts T s (Load.orRollback x s).2 := by
  rw [Load.orRollback]
  generalize x s = r at h ⊢
  rcases r with ⟨_ | a, t⟩
  · exact h.of_shapes_eq rfl rfl
  · exact h

end Store

namespace Session

variable {s : Store}

theorem run_append (s : Store) (before after : List Request) :
    run s (before ++ after) = run (run s before) after := List.foldl_append

/-- The evaluation is made for one of the requests. -/
def Evaluates (s : Store) (rs : List Request) (e : Evaluation) : Prop :=
  ∃ before r after c, rs = before ++ r :: after ∧ r.Starts (run s before) c ∧ e.Below c

/-- A request accounts for what it changes. -/
theorem accounts_step (h : s.Coherent) (r : Request) :
    Accounts (·.Of (r.Starts s)) s (step s r).2 := by
  have hlaws := (keptByLoading_unwritten s).loads
  have unwritten {α : Type} {x : Load α} {Q : Unit → α → α → Prop}
      (hx : (withInvariant s.Unwritten).Agree () x x Q) : Accounts (·.Of (r.Starts s)) s (x s).2 :=
    (unwritten_of_agree s hx).accounts
  have performed {α : Type} {x : Store → Except Stop α × Store} {answer : α → Answer}
      (hr : step s r = perform x answer s) (hx : Accounts (·.Of (r.Starts s)) s (x s).2) :
      Accounts (·.Of (r.Starts s)) s (step s r).2 := by
    rwa [hr, perform_snd]
  cases r with
  | load p =>
    refine performed rfl (accounts_orRollback (.bind (unwritten (hlaws.fragment () p)) ?_))
    intro f t ht
    refine .bind (.ask ?_) fun _ u _ => .refl u
    cases he : t.settings.eagerResolution with
    | false => exact .refl t
    | true =>
      have hloads : (s.since (fun _ => True) .declaring).Loads _ := since_loads nofun
      have hends := (h.underway s.mentions_true).endsIn (hloads.fragment (.start s) p)
      obtain ⟨w, -, hw, -⟩ := hends.of_ok ht
      have hidle : t.inProgress = [] := (Load.grows_of_apply ht).inProgress.trans h.inProgress
      exact (accounts_resolveAll hw hidle).mono fun e hin => hin.imp fun c hc => .load ht he hc
  | parse p => exact performed rfl (accounts_orRollback (unwritten (hlaws.fragment () p)))
  | library p =>
    have hlibrary := hlaws.withLoaders () fun _ hl => hlaws.libraryWith hl () p
    exact performed rfl (unwritten hlibrary)
  | dataType p => exact performed rfl (unwritten (hlaws.dataType () p))
  | resolve i => exact performed rfl (accounts_resolve h (.resolve i))
  | resolveNamed p name =>
    refine performed rfl (.ask (.ask ?_))
    split
    · exact .refl s
    · next i hi => exact .bind (accounts_resolve h (.resolveNamed hi)) fun _ u _ => .refl u
  | resolveAll =>
    refine performed rfl ((accounts_resolveAll (h.underway s.mentions_true) h.inProgress).mono ?_)
    exact fun e he => he.imp fun c hc => .resolveAll hc
  | declare p name node =>
    have hd := (keptByLoading_unwritten s).declares p
    exact performed rfl (unwritten (hlaws.declare hd () trivial name node))
  | write p text => exact (Accounts.refl s).of_shapes_eq rfl rfl

/-- The requests of a session account for what they change. -/
theorem accounts_run (rs : List Request) : ∀ {s : Store}, s.Coherent →
    Accounts (fun e => e.start.Sound e.id ∧ Evaluates s rs e) s (run s rs) := by
  induction rs with
  | nil => exact fun _ => .refl _
  | cons r rest ih =>
    intro s h
    have hfirst : Accounts (fun e => e.start.Sound e.id ∧ Evaluates s (r :: rest) e) s
        (step s r).2 := by
      refine (accounts_step h r).mono ?_
      rintro e ⟨hsound, c, hc, he⟩
      exact ⟨hsound, [], r, rest, c, rfl, hc, he⟩
    refine hfirst.trans ((ih (keeps_step h r).coherent).mono ?_)
    rintro e ⟨hsound, before, r', after, c, rfl, hc, he⟩
    exact ⟨hsound, r :: before, r', after, c, rfl, hc, he⟩

end Session

end RamlTypes
