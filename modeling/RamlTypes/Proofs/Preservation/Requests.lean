import RamlTypes.Proofs.Preservation.Basic

/-!
# What requests keep

What the actions of resolving a shape keep, the resolution keeps
(`Store.KeptByResolving.resolveWithin`), and what resolutions and loads keep, the request keeps
(`Store.KeptByRequests.work`). A request is a load whose effect on the store may be taken back when it
stops (`Session.outcome_step`), so it is enough to know in addition what taking back keeps.
-/

namespace RamlTypes

open Store

namespace Store

variable {J E : Store → Prop}

/-! ## The resolution of a shape -/

namespace KeptByResolving

variable (h : KeptByResolving J E)
include h

section
variable {s : Store} {i : ShapeId} {n : Nat}
  (ih : ∀ j u, u.Sound j → J u → (Load.resolveWithin n j).EndsIn u (fun _ => J) E)
include ih

/-- Around one level of resolution, the claim and the writing of the result keep the invariant. -/
theorem resolving (hs : s.Sound i) (hJ : J s) :
    (Load.resolving i (Load.evaluateWithin n)).EndsIn s (fun _ => J) E := by
  have hrun := Load.resolving_apply i (Load.evaluateWithin n) s
  rcases hclaim : s.claim i with f | (_ | ⟨a, p⟩)
  all_goals rw [hclaim] at hrun
  · exact .of_run_error hrun (h.weaken s hJ)
  · exact .of_run_ok hrun hJ
  · have heval : (Load.evaluateWithin n a p).EndsIn (s.beginResolution i) (fun _ => J) E := by
      refine Resolution.endsIn_ofPending (h.evaluates a.owner) (fun j u hasks hu => ?_)
        (h.beginResolution i hJ)
      exact ih j u (Sound.makes (c := ⟨n + 1, i, s⟩) hs (.dependency hclaim hasks)) hu
    have hgrows := (Load.evaluateWithin n a p).grows (s.beginResolution i)
    dsimp only at hrun
    rcases hr : Load.evaluateWithin n a p (s.beginResolution i) with ⟨f | r, t⟩
    all_goals rw [hr] at hrun hgrows
    · exact .of_run_error hrun (h.markFailed hclaim hJ hgrows (heval.of_error hr))
    · exact .of_run_ok hrun <| h.written ⟨i, n, s, a, p, r, t, hclaim, hr⟩ hs hJ (heval.of_ok hr)

omit h in
/-- Some of the types inside an expression are resolved, after others and before others. -/
theorem resolveIdle (hs : s.Sound i) {m : Store} (ids after : List ShapeId) :
    ∀ (before : List ShapeId) {t : Store},
    Load.resolving i (Load.evaluateWithin n) s = (.ok (before ++ (ids ++ after)), m) →
    Load.resolveIdle (Load.resolveWithin n) before m = (.ok (), t) → J t →
    (Load.resolveIdle (Load.resolveWithin n) ids).EndsIn t (fun _ => J) E := by
  induction ids with
  | nil => exact fun _ _ _ _ ht => .pure ht
  | cons j rest ihrest =>
    intro before t heval hbefore ht
    have hidle : (Load.unlessResolving j (Load.resolveWithin n j)).EndsIn t (fun _ => J) E := by
      refine .ask ?_
      cases hidle : t.isInProgress j with
      | true => exact .pure ht
      | false =>
        have hm : Call.Makes ⟨n + 1, i, s⟩ ⟨n, j, t⟩ := .nested heval hbefore hidle
        exact ih j t (hs.makes hm) ht
    refine hidle.bind_run fun _ u hu hJ => ?_
    exact ihrest _ (by rwa [List.append_assoc]) (resolveIdle_concat hbefore hu) hJ

end

/-- By induction on the bound, so does a resolution of any depth. -/
theorem resolveWithin (n : Nat) : ∀ (i : ShapeId) (s : Store), s.Sound i → J s →
    (Load.resolveWithin n i).EndsIn s (fun _ => J) E := by
  induction n with
  | zero => exact fun _ s _ hJ => .stop (h.weaken s hJ)
  | succ n ih =>
    intro i s hs hJ
    refine (h.resolving ih hs hJ).bind_run fun ns t ht hJt => ?_
    have hall : Load.resolving i (Load.evaluateWithin n) s = (.ok ([] ++ (ns ++ [])), t) := by
      rwa [List.append_nil]
    exact resolveIdle ih hs ns [] [] hall rfl hJt

end KeptByResolving

/-- Resolutions keep the property `J`, and leave a store with the property `E` where they stop. -/
structure KeptByCalls (J E : Store → Prop) : Prop where
  weaken (s : Store) : J s → E s
  resolveWithin (n : Nat) (i : ShapeId) (s : Store) : s.Sound i → J s →
    (Load.resolveWithin n i).EndsIn s (fun _ => J) E
  popUnresolved {s : Store} : J s → J s.popUnresolved

/-- Loads, resolutions and the binding of annotations keep the property `J`, and leave a store with the
property `E` where they stop. -/
structure KeptByRequests (J E : Store → Prop) : Prop
    extends KeptByCalls J E, KeptByLoads J E where
  bindAnnotations {s : Store} : J s → Load.bindAnnotations.EndsIn s (fun _ => J) E

/-- What the actions of resolving a shape keep, resolutions keep. -/
theorem KeptByResolving.calls (h : KeptByResolving J E)
    (popUnresolved : ∀ {s : Store}, J s → J s.popUnresolved) : KeptByCalls J E where
  weaken := h.weaken
  resolveWithin n i s := h.resolveWithin n i s
  popUnresolved := popUnresolved

/-- What the actions of requests keep, their loads and resolutions keep. -/
theorem KeptByRuns.requests (h : KeptByRuns J E) : KeptByRequests J E where
  toKeptByCalls := h.toKeptByResolving.calls h.popUnresolved
  toKeptByLoads := h.toKeptByLoads
  bindAnnotations := h.bindAnnotations

/-! ## The work list -/

namespace KeptByCalls

variable (h : KeptByCalls J E)
include h

variable {b s : Store} {known : PathKey → Prop} {w : Extent b}

/-- The first shape of the work list is taken from it, and resolved unless it has failed. -/
theorem resolveFirst (hs : b.Underway known .declaring w s) {i : ShapeId} {rest : List ShapeId}
    (hq : s.unresolved = i :: rest) (depth : Nat) (hJ : J s) :
    (Load.unlessFailed i (Load.resolveWithin (depth + 1) i)).EndsIn s.popUnresolved
      (fun _ => J) E := by
  have hsound : s.popUnresolved.Sound i :=
    ⟨b, known, .resolving i, w, nofun, hs.popUnresolved hq, hs.queue i (hq ▸ List.mem_cons_self)⟩
  refine .ask ?_
  cases s.popUnresolved.isFailed i with
  | true => exact .pure (h.popUnresolved hJ)
  | false => exact h.resolveWithin (depth + 1) i _ hsound (h.popUnresolved hJ)

/-- By induction on the rounds, so does the work on all that waits. -/
theorem drain (depth n : Nat) : ∀ {w : Extent b} {s : Store}, b.Underway known .declaring w s →
    s.inProgress = [] → J s → (Load.drain (depth + 1) n).EndsIn s (fun _ => J) E := by
  induction n with
  | zero => exact fun {_ s} _ _ hJ => .stop (h.weaken s hJ)
  | succ n ih =>
    intro w s hs hidle hJ
    refine .ask ?_
    split
    · exact .pure hJ
    · next i rest hq =>
      refine .change ((h.resolveFirst hs hq depth hJ).bind_run fun _ t ht hJt => ?_)
      obtain ⟨⟨w', -, hw'⟩, hidle'⟩ := (hs.resolveFirst hidle hq depth).of_ok ht
      exact ih hw' hidle' hJt

/-- So for as many rounds as there are shapes. -/
theorem drainAll (hs : b.Underway known .declaring w s) (hidle : s.inProgress = []) (hJ : J s) :
    Load.drainAll.EndsIn s (fun _ => J) E :=
  .ask (.ask (h.drain _ _ hs hidle hJ))

/-- A single request to resolve keeps the invariant. -/
theorem resolve (hs : s.Coherent) (i : ShapeId) (hJ : J s) :
    (Load.resolve i).EndsIn s (fun _ => J) E := by
  rcases Nat.lt_or_ge i s.shapes.size with hi | hi
  · refine .ask (h.resolveWithin _ i s ?_ hJ)
    exact ⟨s, _, .declaring, .start s, nofun, hs.underway s.mentions_true, hi⟩
  · exact .of_run_ok (resolve_of_size_le hi) hJ

end KeptByCalls

/-- What loads and resolutions keep is kept when a fragment is loaded and all that waits is resolved. -/
theorem KeptByCalls.drainFragment (h : KeptByCalls J E) (hloads : KeptByLoads J E) {s : Store}
    (hs : s.Coherent) (hJ : J s) (p : Path) : (Load.fragment p).EndsIn s
      (fun _ t => J t ∧ Load.drainAll.EndsIn t (fun _ => J) E) E := by
  have hsince : (s.since (fun _ => True) .declaring).Loads _ := since_loads nofun
  have hends := (hs.underway s.mentions_true).endsIn (hsince.fragment (.start s) p)
  refine ⟨fun hr => ?_, (hloads.fragment p hJ).of_error⟩
  have ht := (hloads.fragment p hJ).of_ok hr
  obtain ⟨w, -, hw, -⟩ := hends.of_ok hr
  exact ⟨ht, h.drainAll hw ((Load.grows_of_apply hr).inProgress.trans hs.inProgress) ht⟩

/-- So does a request to resolve all that waits. -/
theorem KeptByRequests.resolveAll (h : KeptByRequests J E) {b s : Store} {known : PathKey → Prop}
    {w : Extent b} (hs : b.Underway known .declaring w s) (hidle : s.inProgress = []) (hJ : J s) :
    Load.resolveAll.EndsIn s (fun _ => J) E :=
  (h.drainAll hs hidle hJ).bind fun _ _ ht => h.bindAnnotations ht

end Store

/-! ## Requests -/

/-- What a request does to the store, but for the writing of a file. -/
def Request.work : Request → Load Unit
  | .load p => do
    let _ ← Load.fragment p
    Load.resolveIfEager
  | .parse p => do let _ ← Load.fragment p
  | .library p => do let _ ← Load.library p
  | .dataType p => do let _ ← Load.dataType p
  | .resolve i => Load.resolve i
  | .resolveNamed p name => do let _ ← Load.resolveNamed p name
  | .resolveAll => Load.resolveAll
  | .declare p name node => do let _ ← Load.declare p name node
  | .write .. => pure ()

/-- The request reads a fragment and leaves none behind where it fails, or it writes a file. -/
def Request.IsUndone : Request → Prop
  | .load _ | .parse _ | .write .. => True
  | _ => False

/-- The request loads a fragment, or it writes a file. -/
def Request.IsLoad : Request → Prop
  | .load _ | .write .. => True
  | _ => False

namespace Session

variable {s : Store}

/-- How a request of the store `s` can end: with an answer and with a store. -/
inductive Outcome (s : Store) : Request → Answer → Store → Prop
  | written (p : Path) (text : String) :
      Outcome s (.write p text) .done { s with files := s.files.write p text }
  | served {r : Request} {a : Answer} {t : Store} (work : r.work s = (.ok (), t))
      (served : a.IsServed) : Outcome s r a t
  | stopped {r : Request} {a : Answer} {e : Stop} {t : Store} (work : r.work s = (.error e, t))
      (refused : ¬ a.IsServed) : Outcome s r a t
  | undone {r : Request} {a : Answer} {e : Stop} {t : Store} (work : r.work s = (.error e, t))
      (refused : ¬ a.IsServed) : Outcome s r a (t.rollback s)

/-- A request that is stopped is not served. -/
theorem not_isServed_of_stop (e : Stop) :
    ¬ ((e.fault?.map .fault).getD .exhausted : Answer).IsServed := by
  cases e <;> exact id

/-- An action that leaves what it has done. -/
theorem outcome_of_perform {α : Type} {r : Request} {x : Load α} {answer : α → Answer}
    (hr : step s r = perform x.run answer s) (hwork : r.work s = (x >>= fun _ => pure ()) s)
    (served : ∀ a, (answer a).IsServed) : Outcome s r (step s r).1 (step s r).2 := by
  rw [hr, perform]
  rcases hx : x s with ⟨e | a, t⟩
  · exact .stopped (hwork.trans (Load.bind_of_error hx _)) (not_isServed_of_stop e)
  · exact .served (hwork.trans (Load.bind_of_ok hx _)) (served a)

/-- An action whose effect is taken back where it stops. -/
theorem outcome_of_orRollback {α : Type} {r : Request} {x : Load α} {answer : α → Answer}
    (hr : step s r = perform (Load.orRollback x) answer s)
    (hwork : r.work s = (x >>= fun _ => pure ()) s) (served : ∀ a, (answer a).IsServed) :
    Outcome s r (step s r).1 (step s r).2 := by
  rw [hr, perform, Load.orRollback]
  rcases hx : x s with ⟨e | a, t⟩
  · exact .undone (hwork.trans (Load.bind_of_error hx _)) (not_isServed_of_stop e)
  · exact .served (hwork.trans (Load.bind_of_ok hx _)) (served a)

/-- Each request ends in one of these ways. -/
theorem outcome_step (s : Store) (r : Request) : Outcome s r (step s r).1 (step s r).2 := by
  cases r with
  | load p =>
    refine outcome_of_orRollback rfl ?_ fun _ => trivial
    rw [Request.work]
    simp only [bind_assoc, pure_bind, bind_pure_unit]
  | parse p => exact outcome_of_orRollback rfl rfl fun _ => trivial
  | library p => exact outcome_of_perform rfl rfl fun _ => trivial
  | dataType p => exact outcome_of_perform rfl rfl fun _ => trivial
  | resolve i => exact outcome_of_perform rfl (by rw [bind_pure_unit]; rfl) fun _ => trivial
  | resolveNamed p name => exact outcome_of_perform rfl rfl fun _ => trivial
  | resolveAll => exact outcome_of_perform rfl (by rw [bind_pure_unit]; rfl) fun _ => trivial
  | declare p name node => exact outcome_of_perform rfl rfl fun _ => trivial
  | write p text => exact .written p text

end Session

/-- The work of a request keeps what its loads and resolutions keep. -/
theorem Store.KeptByRequests.work {J E : Store → Prop} (h : KeptByRequests J E) {s : Store}
    (hs : s.Coherent) (hJ : J s) (r : Request) : r.work.EndsIn s (fun _ => J) E := by
  have forget {α : Type} {x : Load α} (hx : x.EndsIn s (fun _ => J) E) :
      (do let _ ← x : Load Unit).EndsIn s (fun _ => J) E := hx.bind fun _ _ ht => .pure ht
  cases r with
  | load p =>
    refine (h.drainFragment h.toKeptByLoads hs hJ p).bind fun _ t ht => .ask ?_
    cases t.settings.eagerResolution with
    | false => exact .pure ht.1
    | true => exact ht.2.bind fun _ _ hu => h.bindAnnotations hu
  | parse p => exact forget (h.fragment p hJ)
  | library p => exact forget (h.library p hJ)
  | dataType p => exact forget (h.dataType p hJ)
  | resolve i => exact h.resolve hs i hJ
  | resolveNamed p name =>
    refine forget (.ask (.ask ?_))
    split
    · exact .stop (h.weaken s hJ)
    · next i _ => exact (h.resolve hs i hJ).bind fun _ _ ht => .pure ht
  | resolveAll => exact h.resolveAll (hs.underway s.mentions_true) hs.inProgress hJ
  | declare p name node => exact forget (h.declare p name node hJ)
  | write p text => exact .pure hJ

namespace Session

/-- A property that runs keep is kept by a request if it outlasts the taking back of its work and the
writing of files. -/
theorem holds_step {I : Store → Prop} (h : KeptByRuns I I) {s : Store} (hs : s.Coherent) (hI : I s)
    (rollback : ∀ t, s.Grows t → I t → I (t.rollback s))
    (write : ∀ files, I { s with files := files }) (r : Request) : I (step s r).2 := by
  have hwork := h.requests.work hs hI r
  have houtcome := outcome_step s r
  generalize (step s r).1 = a at houtcome
  generalize (step s r).2 = t at houtcome ⊢
  cases houtcome with
  | written p text => exact write _
  | served hw _ => exact hwork.of_ok hw
  | stopped hw _ => exact hwork.of_error hw
  | undone hw _ => exact rollback _ (Load.grows_of_apply hw) (hwork.of_error hw)

/-- An action that is taken back where it stops keeps what it keeps where it ends. -/
theorem holds_orRollback {α : Type} {x : Load α} {J E : Store → Prop} {s : Store}
    (hx : x.EndsIn s (fun _ => J) E) (rollback : ∀ t, s.Grows t → E t → J (t.rollback s)) :
    J (Load.orRollback x s).2 := by
  rw [Load.orRollback]
  rcases hr : x s with ⟨e | a, t⟩
  · exact rollback t (Load.grows_of_apply hr) (hx.of_error hr)
  · exact hx.of_ok hr

/-- What loads and resolutions keep is kept by a request that leaves nothing behind where it fails, if
it outlasts the taking back of its work and the writing of files. -/
theorem undone_step {J E : Store → Prop} (h : KeptByRequests J E) {s : Store} (hs : s.Coherent)
    (hJ : J s) (rollback : ∀ t, s.Grows t → E t → J (t.rollback s))
    (write : ∀ files, J { s with files := files }) {r : Request} (hr : r.IsUndone) :
    J (step s r).2 := by
  cases r with
  | load p =>
    have hwork := h.work hs hJ (.load p)
    have hload : ((do let f ← Load.fragment p; Load.resolveIfEager; return f) >>= fun _ => pure ()) =
        (Request.load p).work := by
      simp only [Request.work, bind_assoc, pure_bind, bind_pure_unit]
    rw [step, perform_snd]
    refine holds_orRollback ⟨fun hr => ?_, fun hr => ?_⟩ rollback
    · exact hwork.of_ok (hload ▸ Load.bind_of_ok hr _)
    · exact hwork.of_error (hload ▸ Load.bind_of_error hr _)
  | parse p =>
    rw [step, perform_snd]
    exact holds_orRollback (h.fragment p hJ) rollback
  | write p text => exact write _
  | _ => exact hr.elim

end Session

end RamlTypes
