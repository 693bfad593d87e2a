import RamlTypes.Proofs.Lifecycle.Lists

/-!
# The states of a shape

A shape waits, is resolved, or has failed while it was waiting. It changes from the first state to
one of the others at most once in a session, and in these it stays as it is
(`Session.exists_settled`).
-/

namespace RamlTypes

/-- What has become of a shape. -/
inductive ShapeState where
  | waiting
  | resolved
  /-- It failed before it was resolved. -/
  | failed
  deriving DecidableEq, Repr

namespace Store

/-- The state of a shape, if there is one under this number. -/
def stateOf? (s : Store) (i : ShapeId) : Option ShapeState :=
  s.shapes[i]?.map fun a =>
    if a.isUnknown then if s.isFailed i then .failed else .waiting else .resolved

variable {b s t u : Store} {i : ShapeId}

/-- The state of a shape shows in its body and in the list of the failed ones. -/
theorem stateOf?_of_shape {a : Shape} (ha : s.shapes[i]? = some a) : s.stateOf? i =
    some (if a.isUnknown then if i ∈ s.failed then .failed else .waiting else .resolved) := by
  simp [stateOf?, ha, isFailed]

/-- No shape of `b` that is resolved has failed since. -/
def Spares (b s : Store) : Prop :=
  ∀ (i : ShapeId) (a : Shape), b.shapes[i]? = some a → i ∉ b.failed →
    ∃ c, s.shapes[i]? = some c ∧ (c.isUnknown ∨ i ∉ s.failed)

/-- A change of a shape that leaves it resolved, or waiting, spares the others. -/
theorem Spares.mapShape (h : b.Spares s) (i : ShapeId) {f : Shape → Shape}
    (hf : ∀ a : Shape, (f a).isUnknown = a.isUnknown) : b.Spares (s.mapShape i f) := by
  intro j a ha hj
  obtain ⟨c, hc, hcj⟩ := h j a ha hj
  rw [getElem?_mapShape]
  split
  · exact ⟨f c, by rw [hc]; rfl, hf c ▸ hcj⟩
  · exact ⟨c, hc, hcj⟩

/-- Loads let no shape fail. -/
theorem keptByLoading_spares (b : Store) : KeptByLoading b.Spares := by
  refine .of_shapes (fun _ h => h) (fun {s} a _ h j d hd hj => ?_)
    fun i _ hf h => h.mapShape i fun a => (hf a).kept.isUnknown
  obtain ⟨c, hc, hcj⟩ := h j d hd hj
  exact ⟨c, getElem?_addShape_of_some hc, hcj⟩

/-- The shape that is written has not failed. -/
theorem Spares.written {e : Evaluation} (hsound : e.start.Sound e.id) (h : b.Spares e.stop) :
    b.Spares (written e) := by
  intro j a ha hj
  obtain ⟨c, hc, hcj⟩ := h j a ha hj
  by_cases hi : e.id = j
  · subst hi
    obtain ⟨c', hc', -⟩ := hsound.exists_written
    exact ⟨c', hc', .inr hsound.not_failed⟩
  · refine ⟨c, ?_, hcj⟩
    rw [Store.written, writeResolution, getElem?_mapShape, if_neg hi]
    exact hc

/-- The shape that fails is not resolved. -/
theorem Spares.markFailed {a : Shape} {p : Pending} (hc : s.claim i = .ok (some (a, p)))
    (hg : (s.beginResolution i).Grows t) (h : b.Spares t) :
    b.Spares ((t.endResolution i).markFailed i) := by
  obtain ⟨c, hc, hu⟩ := exists_claimed hc hg
  intro j a ha hj
  by_cases hi : j = i
  · exact ⟨c, hi ▸ hc, .inl hu⟩
  · obtain ⟨d, hd, hdj⟩ := h j a ha hj
    refine ⟨d, hd, hdj.imp_right fun hnot hf => ?_⟩
    exact (mem_markFailed.1 hf).elim hi hnot

/-- Runs spare the shapes that are resolved: the one that fails was waiting. -/
theorem keptByRuns_spares (b : Store) : KeptByRuns b.Spares b.Spares :=
  (keptByLoading_spares b).keptByRuns (fun _ _ h => h) (fun _ hs _ h => h.written hs)
    (fun hc _ hg h => h.markFailed hc hg) fun h => h

/-- What becomes of the shapes of `s` up to a later store `t`. -/
structure Follows (s t : Store) : Prop where
  shapes : ∀ (i : ShapeId) (a : Shape), s.shapes[i]? = some a → ∃ c, t.shapes[i]? = some c ∧
    (a.Kept c ∨ a.isUnknown ∧ i ∉ s.failed)
  failed : s.failed ⊆ t.failed
  spares : s.Spares t

/-- A store follows itself. -/
theorem Follows.refl (s : Store) : s.Follows s where
  shapes _ a ha := ⟨a, ha, .inl (.refl a)⟩
  failed := List.Subset.refl _
  spares _ a ha hi := ⟨a, ha, .inr hi⟩

/-- What follows a following store follows. -/
theorem Follows.trans (h : s.Follows t) (h' : t.Follows u) : s.Follows u where
  shapes i a ha := by
    obtain ⟨c, hc, hac⟩ := h.shapes i a ha
    obtain ⟨d, hd, hcd⟩ := h'.shapes i c hc
    refine ⟨d, hd, ?_⟩
    rcases hac with hac | hwait
    · refine hcd.imp hac.trans fun hwait => ⟨hac.isUnknown ▸ hwait.1, fun hf => ?_⟩
      exact hwait.2 (h.failed hf)
    · exact .inr hwait
  failed := List.Subset.trans h.failed h'.failed
  spares i a ha hi := by
    obtain ⟨c, hc, hci⟩ := h.spares i a ha hi
    by_cases hf : i ∈ t.failed
    · obtain ⟨d, hd, hcd⟩ := h'.shapes i c hc
      have hkept := hcd.resolve_right fun hwait => hwait.2 hf
      exact ⟨d, hd, .inl (hkept.isUnknown.trans (hci.resolve_right fun hnot => hnot hf))⟩
    · exact h'.spares i c hc hf

/-- A store that grows and spares what is resolved. -/
theorem Grows.follows (h : s.Grows t) (hs : s.Spares t) : s.Follows t where
  shapes i a ha := by
    obtain ⟨c, hc, -, hac⟩ := h.shapes i a ha
    exact ⟨c, hc, hac.imp_right fun hwait => ⟨hwait.isUnknown, hwait.notFailed⟩⟩
  failed := h.failed
  spares := hs

/-- Taking back a load that began in `s` lets no shape of `s` fail. -/
theorem Spares.rollback (h : s.Spares t) : s.Spares (t.rollback s) := by
  intro i a ha hi
  obtain ⟨c, hc, hci⟩ := h i a ha hi
  refine ⟨c, hc, hci.imp_right fun hnot hf => ?_⟩
  rcases mem_failed_rollback.1 hf with hf | ⟨hle, -⟩
  · exact hnot hf
  · exact absurd (Array.getElem?_eq_some_iff.1 ha).1 (Nat.not_lt_of_le hle)

/-- A shape of a later store is in the same state as before, unless it waited before. -/
theorem Follows.stateOf?_eq (h : s.Follows t) {x : ShapeState} (hx : s.stateOf? i = some x)
    (hwait : x ≠ .waiting) : t.stateOf? i = some x := by
  obtain ⟨a, ha, rfl⟩ := Option.map_eq_some_iff.1 hx
  obtain ⟨c, hc, hac⟩ := h.shapes i a ha
  rw [stateOf?_of_shape ha] at hx
  rw [← hx, stateOf?_of_shape hc]
  have hsame : c.isUnknown = a.isUnknown := by
    rcases hac with hac | ⟨hu, hf⟩
    · exact hac.isUnknown
    · simp [hu, isFailed, hf] at hwait
  rw [hsame]
  by_cases hu : a.isUnknown
  · have hf : i ∈ s.failed := by simpa [hu, isFailed] using hwait
    rw [if_pos hu, if_pos hu, if_pos hf, if_pos (h.failed hf)]
  · rw [if_neg hu, if_neg hu]

/-- A shape that failed cannot be resolved. -/
theorem resolve_of_failed {c : Shape} (hc : s.shapes[i]? = some c) (hu : c.isUnknown)
    (hf : i ∈ s.failed) : ∃ e, Load.resolve i s = (.error e, s) := by
  obtain ⟨p, hp⟩ := Shape.exists_pending hu
  have hclaim : s.claim i = .error (.fault (.unresolvable c.name ⟨c.location, c.mark⟩)) := by
    rw [claim_of_shape hc, hp]
    exact if_pos (List.contains_iff_mem.2 hf)
  refine ⟨.fault (.unresolvable c.name ⟨c.location, c.mark⟩), ?_⟩
  rw [Load.resolve, Load.ask_bind, Load.resolveWithin, Load.bind_apply, Load.resolving_apply, hclaim]

/-- A shape whose resolution succeeds is resolved. -/
theorem Coherent.resolved_of_resolve (h : s.Coherent) (hi : i < s.shapes.size)
    (hr : Load.resolve i s = (.ok (), t)) : ∃ d, t.HasResolved i d := by
  have hsound : s.Sound i := ⟨s, _, .declaring, .start s, nofun, h.underway s.mentions_true, hi⟩
  rw [Load.resolve, Load.ask_bind] at hr
  exact hsound.resolved_of_ok hr

end Store

namespace Session

open Store

variable {s : Store}

/-- What a request does to the shapes. -/
theorem follows_step (h : s.Coherent) (r : Request) : s.Follows (step s r).2 := by
  have hspares : s.Spares (step s r).2 :=
    holds_step (keptByRuns_spares s) h (Follows.refl s).spares (fun _ _ ht => ht.rollback)
      (fun _ => (Follows.refl s).spares) r
  have houtcome := outcome_step s r
  generalize (step s r).1 = a at houtcome
  generalize (step s r).2 = t at houtcome hspares ⊢
  cases houtcome with
  | written p text => exact { Follows.refl s with }
  | served hw _ => exact (Load.grows_of_apply hw).follows hspares
  | stopped hw _ => exact (Load.grows_of_apply hw).follows hspares
  | @undone _ _ _ t hw _ =>
    have hgrows := Load.grows_of_apply hw
    exact
    { shapes := fun i a ha => by
        obtain ⟨c, hc, -, hac⟩ := hgrows.shapes i a ha
        exact ⟨c, hc, hac.imp_right fun hwait => ⟨hwait.isUnknown, hwait.notFailed⟩⟩
      failed := fun i hf => mem_failed_rollback.2 (.inl (hgrows.failed hf))
      spares := hspares }

/-- What a list of requests does to the shapes. -/
theorem follows_run (rs : List Request) : ∀ {s : Store}, s.Coherent → s.Follows (run s rs) := by
  induction rs with
  | nil => exact fun {s} _ => .refl s
  | cons r rest ih => exact fun h => (follows_step h r).trans (ih (keeps_step h r).coherent)

/-- The state of the shape before the request with the number `k` is another one than after it. -/
def ChangesAt (s : Store) (rs : List Request) (i : ShapeId) (k : Nat) : Prop :=
  ∃ x y, (run s (rs.take k)).stateOf? i = some x ∧ (run s (rs.take (k + 1))).stateOf? i = some y ∧
    x ≠ y

/-- A state that is reached by a change is not left again. -/
theorem ChangesAt.not_lt (hs : s.Coherent) {rs : List Request} {i : ShapeId} {j k : Nat}
    (hj : ChangesAt s rs i j) (hk : ChangesAt s rs i k) : ¬ j < k := by
  intro hlt
  have later {m n : Nat} (hmn : m ≤ n) : (run s (rs.take m)).Follows (run s (rs.take n)) := by
    have hsplit : rs.take n = rs.take m ++ (rs.take n).drop m := by
      conv_lhs => rw [← List.take_append_drop m (rs.take n), List.take_take, Nat.min_eq_left hmn]
    rw [hsplit, run_append]
    exact follows_run _ (coherent_run _ hs).1
  obtain ⟨x, y, hx, hy, hxy⟩ := hj
  obtain ⟨x', y', hx', hy', hxy'⟩ := hk
  have hwait : x = .waiting := by
    by_contra hne
    exact hxy (Option.some.inj (((later (Nat.le_succ j)).stateOf?_eq hx hne).symm.trans hy))
  have hnot : y ≠ .waiting := fun hyw => hxy (hwait.trans hyw.symm)
  have hxk := (later hlt).stateOf?_eq hy hnot
  have hyk := (later (Nat.le_succ_of_le hlt)).stateOf?_eq hy hnot
  exact hxy' (Option.some.inj (((hxk.symm.trans hx').symm).trans (hyk.symm.trans hy')))

/-- What becomes of the shape `a`, which has the number `i` in the store `s`, when more requests are
made. The shape is `c` then. -/
structure Settles (s : Store) (after : List Request) (i : ShapeId) (a c : Shape) : Prop where
  /-- A resolved shape stays as it is. -/
  resolved : a.isUnknown = false → a.Kept c
  /-- A shape that failed stays as it is, and every attempt to resolve it fails and changes nothing. -/
  failed : a.isUnknown → i ∈ s.failed → a.Kept c ∧ i ∈ (run s after).failed ∧
    ∃ e, Load.resolve i (run s after) = (.error e, run s after)
  /-- A shape that waits stays as it is, or it is resolved and has not failed. -/
  waiting : a.isUnknown → i ∉ s.failed →
    a.Kept c ∨ c.isUnknown = false ∧ i ∉ (run s after).failed
  /-- An attempt to resolve the shape that succeeds leaves it resolved. -/
  resolve : ∀ t, Load.resolve i (run s after) = (.ok (), t) → ∃ d, t.HasResolved i d
  /-- At most one request changes the state of the shape. -/
  once : ∀ j k, ChangesAt s after i j → ChangesAt s after i k → j = k

/-- A shape is resolved at most once in a session, and then stays as it is. -/
theorem exists_settled (settings : LoadSettings) (files : Files) (before after : List Request)
    (i : ShapeId) (a : Shape) :
    let s := run (.empty settings files) before
    s.shapes[i]? = some a → ∃ c, (run s after).shapes[i]? = some c ∧ Settles s after i a c := by
  intro s ha
  have hs : s.Coherent := (coherent_run before (coherent_empty settings files)).1
  have ht : (run s after).Coherent := (coherent_run after hs).1
  have hfollows := follows_run after hs
  obtain ⟨c, hc, hac⟩ := hfollows.shapes i a ha
  have hkept (h : ¬ (a.isUnknown ∧ i ∉ s.failed)) : a.Kept c := hac.resolve_right h
  refine ⟨c, hc, ?_⟩
  exact
  { resolved := fun hr => hkept fun hwait => by
      rw [hr] at hwait
      cases hwait.1
    failed := fun hu hf => by
      have hsame := hkept fun hwait => hwait.2 hf
      have hft := hfollows.failed hf
      exact ⟨hsame, hft, resolve_of_failed hc (hsame.isUnknown.trans hu) hft⟩
    waiting := fun hu hf => by
      obtain ⟨d, hd, hstays | ⟨e, -, -, hw⟩⟩ := (accounts_run after hs).old i a ha
      · cases hc.symm.trans hd
        exact .inl hstays.kept
      · cases hc.symm.trans hd
        obtain ⟨d, hd, hdi⟩ := hfollows.spares i a ha hf
        cases hc.symm.trans hd
        exact .inr ⟨hw.concrete, hdi.resolve_left (by simp [hw.concrete])⟩
    resolve := fun t hr => ht.resolved_of_resolve (Array.getElem?_eq_some_iff.1 hc).1 hr
    once := fun j k hj hk =>
      Nat.le_antisymm (Nat.le_of_not_lt (hk.not_lt hs hj)) (Nat.le_of_not_lt (hj.not_lt hs hk)) }

/-- A type whose resolution has failed, and two that wait. -/
theorem exists_settled_of_failed :
    let p : Path := ⟨"/lib.raml"⟩
    let text := "#%RAML 1.0 Library\ntypes:\n  Lost: Missing\n  Short: Name\n  Name: string\n"
    let before : List Request := [.parse p, .resolveNamed p "Lost"]
    let s := run (.empty ⟨⟨"/"⟩, false, false⟩ (.memory [(p, text)])) before
    s.stateOf? 0 = some .failed ∧ s.stateOf? 1 = some .waiting ∧ s.stateOf? 2 = some .resolved ∧
      ∀ i < 3, ∃ a c, s.shapes[i]? = some a ∧ (run s [.resolveAll]).shapes[i]? = some c ∧
        Settles s [.resolveAll] i a c := by
  intro p text before s
  have hstates : s.stateOf? 0 = some .failed ∧ s.stateOf? 1 = some .waiting ∧
      s.stateOf? 2 = some .resolved ∧ ∀ i < 3, (s.stateOf? i).isSome := by decide +kernel
  refine ⟨hstates.1, hstates.2.1, hstates.2.2.1, fun i hi => ?_⟩
  obtain ⟨x, hx⟩ := Option.isSome_iff_exists.1 (hstates.2.2.2 i hi)
  obtain ⟨a, ha, -⟩ := Option.map_eq_some_iff.1 hx
  obtain ⟨c, hc, hsettles⟩ := exists_settled _ _ before [.resolveAll] i a ha
  exact ⟨a, c, ha, hc, hsettles⟩

end Session

end RamlTypes
