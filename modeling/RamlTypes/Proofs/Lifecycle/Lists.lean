import RamlTypes.Proofs.Equations.Solutions
import RamlTypes.Proofs.Preservation.Requests

/-!
# The lists of a store

Between the requests of a session the lists of the store are in order: the work list is strictly
increasing and holds every shape that waits, and what is listed as resolved is resolved, listed once,
and has not failed (`Session.orderly_run`).
-/

namespace RamlTypes

namespace Store

/-- The lists of the store at any time. -/
structure Ordered (s : Store) : Prop where
  queue : s.unresolved.Pairwise (· < ·)
  queue_lt : ∀ i ∈ s.unresolved, i < s.shapes.size
  nodup : s.resolved.Nodup
  resolved : ∀ i ∈ s.resolved, ∃ d, s.HasResolved i d
  disjoint : ∀ i ∈ s.resolved, i ∉ s.failed
  failed_lt : ∀ i ∈ s.failed, i < s.shapes.size

variable {s t : Store} {i : ShapeId}

/-- A resolved shape stays resolved as the store grows. -/
theorem HasResolved.grows {d : Shape} (h : s.HasResolved i d) (hg : s.Grows t) :
    ∃ d', t.HasResolved i d' := by
  obtain ⟨d', hd', -⟩ := hg.keeps.hasResolved h
  exact ⟨d', hd'⟩

/-- An unresolved shape is not listed as resolved. -/
theorem Ordered.not_mem_resolved (h : s.Ordered) {a : Shape} (ha : s.shapes[i]? = some a)
    (hu : a.isUnknown) : i ∉ s.resolved := by
  intro hi
  obtain ⟨d, hd, hr⟩ := h.resolved i hi
  cases ha.symm.trans hd
  rw [hu] at hr
  cases hr

/-- A store that grows without a change of its lists. -/
theorem Ordered.grows (h : s.Ordered) (hg : s.Grows t) (hq : t.unresolved = s.unresolved)
    (hr : t.resolved = s.resolved) (hf : t.failed = s.failed) : t.Ordered where
  queue := hq ▸ h.queue
  queue_lt i hi := Nat.lt_of_lt_of_le (h.queue_lt i (hq ▸ hi)) hg.size_le
  nodup := hr ▸ h.nodup
  resolved i hi := by
    obtain ⟨d, hd⟩ := h.resolved i (hr ▸ hi)
    exact hd.grows hg
  disjoint i hi := hf ▸ h.disjoint i (hr ▸ hi)
  failed_lt i hi := Nat.lt_of_lt_of_le (h.failed_lt i (hf ▸ hi)) hg.size_le

/-- A new shape has the greatest number, so it is the last one to wait. -/
theorem Ordered.addShape (h : s.Ordered) (a : Shape) : (s.addShape a).Ordered := by
  have hg := s.grows_addShape a
  have hsize : (s.addShape a).shapes.size = s.shapes.size + 1 := Array.size_push ..
  have hold := h.grows (t := { s.addShape a with unresolved := s.unresolved }) { hg with } rfl rfl rfl
  cases hu : a.isUnknown with
  | false =>
    have heq : s.addShape a = { s.addShape a with unresolved := s.unresolved } := by
      simp [Store.addShape, hu]
    exact heq ▸ hold
  | true =>
    have hqueue : (s.addShape a).unresolved = s.unresolved ++ [s.shapes.size] := by
      simp [Store.addShape, hu]
    refine { hold with queue := ?_, queue_lt := ?_ }
    · rw [hqueue, List.pairwise_append]
      refine ⟨h.queue, List.pairwise_singleton _ _, fun i hi j hj => ?_⟩
      exact List.mem_singleton.1 hj ▸ h.queue_lt i hi
    · intro i hi
      rw [hqueue, List.mem_append, List.mem_singleton] at hi
      rcases hi with hi | rfl
      · exact hold.queue_lt i hi
      · exact hsize ▸ Nat.lt_succ_self _

/-- A shape is changed in what resolution does not write. -/
theorem Ordered.mapShape (h : s.Ordered) (i : ShapeId) {f : Shape → Shape}
    (hf : ∀ a : Shape, a.Stays (f a)) : (s.mapShape i f).Ordered :=
  h.grows (grows_mapShape_of_stays i hf) rfl rfl rfl

/-- Loads leave the lists. -/
theorem keptByLoading_ordered : KeptByLoading Ordered :=
  .of_shapes (fun _ h => { h with }) (fun a _ h => h.addShape a) fun i _ hf h => h.mapShape i hf

/-- While its declaration is evaluated, a shape waits. -/
theorem exists_claimed {a : Shape} {p : Pending} (hc : s.claim i = .ok (some (a, p)))
    (hg : (s.beginResolution i).Grows t) : ∃ c, t.shapes[i]? = some c ∧ c.isUnknown := by
  obtain ⟨ha, -, hw⟩ := waits_of_claim hc
  obtain ⟨c, hc, -, hkeep⟩ := hg.shapes i a ha
  have hkept := hkeep.resolve_right fun hwait => hwait.notInProgress List.mem_cons_self
  exact ⟨c, hc, hkept.isUnknown.trans hw.isUnknown⟩

/-- No shape fails while an evaluation goes on, so the one that is written has not failed. -/
theorem Sound.not_failed {e : Evaluation} (h : e.start.Sound e.id) : e.id ∉ e.stop.failed := by
  obtain ⟨b, known, phase, w, w', -, hstart, hstop, -⟩ := h.evaluation
  obtain ⟨-, -, hwait⟩ := waits_of_claim e.claimed
  rw [hstop.failed, ← hstart.failed]
  exact hwait.notFailed

/-- A sound evaluation writes its shape. -/
theorem Sound.exists_written {e : Evaluation} (h : e.start.Sound e.id) :
    ∃ c, (written e).shapes[e.id]? = some c ∧ Wrote e e.shape c (written e) := by
  obtain ⟨-, -, -, -, -, -, -, -, -, hk⟩ := h.evaluation
  exact wrote_written e hk

/-- The shape that is written joins the resolved ones. -/
theorem Ordered.written {e : Evaluation} (hsound : e.start.Sound e.id) (h : e.stop.Ordered) :
    (written e).Ordered := by
  have hlist : (Store.written e).resolved = e.stop.resolved ++ [e.id] := rfl
  have hsize : (Store.written e).shapes.size = e.stop.shapes.size := size_mapShape _ _ _
  obtain ⟨c, hc, hw⟩ := hsound.exists_written
  obtain ⟨d, hd, hu⟩ := exists_claimed e.claimed (Load.grows_of_apply e.evaluated)
  exact
  { queue := h.queue
    queue_lt := hsize ▸ h.queue_lt
    nodup := by
      rw [hlist]
      refine List.nodup_append.2 ⟨h.nodup, List.pairwise_singleton _ _, fun i hi j hj hij => ?_⟩
      rw [hij, List.mem_singleton.1 hj] at hi
      exact h.not_mem_resolved hd hu hi
    resolved := fun i hi => by
      rw [hlist, List.mem_append, List.mem_singleton] at hi
      rcases hi with hi | rfl
      · obtain ⟨d, hd⟩ := h.resolved i hi
        obtain ⟨d', hd', -⟩ := (keeps_written e).hasResolved hd
        exact ⟨d', hd'⟩
      · exact ⟨c, hc, hw.concrete⟩
    disjoint := fun i hi => by
      rw [hlist, List.mem_append, List.mem_singleton] at hi
      rcases hi with hi | rfl
      · exact h.disjoint i hi
      · exact hsound.not_failed
    failed_lt := hsize ▸ h.failed_lt }

/-- A mark is added to those of the failed shapes. -/
theorem mem_markFailed {j : ShapeId} : j ∈ (s.markFailed i).failed ↔ j = i ∨ j ∈ s.failed := by
  rw [markFailed]
  dsimp only
  split
  · next hi =>
    refine ⟨.inr, fun hj => hj.elim ?_ id⟩
    rintro rfl
    exact List.contains_iff_mem.1 hi
  · exact List.mem_cons

/-- The shape that fails has been claimed, so it was neither resolved nor failed. -/
theorem Ordered.markFailed {a : Shape} {p : Pending} (hc : s.claim i = .ok (some (a, p)))
    (hg : (s.beginResolution i).Grows t) (h : t.Ordered) :
    ((t.endResolution i).markFailed i).Ordered := by
  obtain ⟨c, hc, hu⟩ := exists_claimed hc hg
  exact
  { h with
    disjoint := fun j hj hf => by
      rcases mem_markFailed.1 hf with rfl | hf
      · exact h.not_mem_resolved hc hu hj
      · exact h.disjoint j hj hf
    failed_lt := fun j hf => by
      rcases mem_markFailed.1 hf with rfl | hf
      · exact (Array.getElem?_eq_some_iff.1 hc).1
      · exact h.failed_lt j hf }

/-- Runs keep the order of the lists, also those that end with an error. -/
theorem keptByRuns_ordered : KeptByRuns Ordered Ordered :=
  keptByLoading_ordered.keptByRuns (fun _ _ h => { h with }) (fun _ hs _ h => h.written hs)
    (fun hc _ hg h => h.markFailed hc hg) fun h =>
      { h with
        queue := h.queue.tail
        queue_lt := fun i hi => h.queue_lt i (List.mem_of_mem_tail hi) }

/-- Taking back a load shortens the lists, and lets only shapes fail that are not listed any more. -/
theorem Ordered.rollback (h : t.Ordered) (s : Store) : (t.rollback s).Ordered where
  queue := h.queue.filter _
  queue_lt i hi := h.queue_lt i (List.mem_of_mem_filter hi)
  nodup := h.nodup.filter _
  resolved i hi := h.resolved i (List.mem_of_mem_filter hi)
  disjoint i hi hf := by
    obtain ⟨hmem, hlt⟩ := List.mem_filter.1 hi
    rcases mem_failed_rollback.1 hf with hf | ⟨hle, -⟩
    · exact h.disjoint i hmem hf
    · exact absurd (of_decide_eq_true hlt) (Nat.not_lt_of_le hle)
  failed_lt i hf := by
    rcases mem_failed_rollback.1 hf with hf | ⟨-, hlt⟩
    · exact h.failed_lt i hf
    · exact hlt

/-- The lists of the empty store are empty. -/
theorem ordered_empty (settings : LoadSettings) (files : Files) :
    (empty settings files).Ordered where
  queue := .nil
  queue_lt _ h := nomatch h
  nodup := .nil
  resolved _ h := nomatch h
  disjoint _ h := nomatch h
  failed_lt _ h := nomatch h

/-- What a user of the store can rely on between two requests. -/
structure Orderly (s : Store) : Prop where
  ids : ∀ (i : ShapeId) (a : Shape), s.shapes[i]? = some a → a.id = i
  shapes : ∀ (i : ShapeId) (a : Shape), s.shapes[i]? = some a → ∀ j ∈ a.handles, j < s.shapes.size
  fragments : ∀ k f, Dict.find? k s.fragments = some f → ∀ j ∈ f.handles, j < s.shapes.size
  named : ∀ k d, Dict.find? k s.named = some d → ∀ j ∈ d.map (·.2), j < s.shapes.size
  annotationTypes : ∀ k d, Dict.find? k s.annotationTypes = some d →
    ∀ j ∈ d.map (·.2), j < s.shapes.size
  unresolved_lt : ∀ i ∈ s.unresolved, i < s.shapes.size
  resolved_lt : ∀ i ∈ s.resolved, i < s.shapes.size
  failed_lt : ∀ i ∈ s.failed, i < s.shapes.size
  unresolved : s.unresolved.Pairwise (· < ·)
  waiting : ∀ (i : ShapeId) (a : Shape), s.shapes[i]? = some a → a.kind = .unknown → i ∉ s.failed →
    i ∈ s.unresolved
  nodup : s.resolved.Nodup
  resolved : ∀ i ∈ s.resolved, ∃ a, s.shapes[i]? = some a ∧ a.kind ≠ .unknown
  disjoint : ∀ i ∈ s.resolved, i ∉ s.failed
  loading : s.loading = []
  inProgress : s.inProgress = []

/-- Between requests the lists are as the claims of the resolver ask. -/
theorem Coherent.orderly (h : s.Coherent) (ho : s.Ordered) : s.Orderly where
  ids := h.ids
  shapes i a ha _ hj := ((h.shapes i a ha).mem_handles hj).2
  fragments k f hf _ hj := ((h.fragments k f hf).mem_handles hj).2
  named k d hd _ hj := ((h.named k d hd).mem_values hj).2
  annotationTypes k d hd _ hj := ((h.annotationTypes k d hd).mem_values hj).2
  unresolved_lt := ho.queue_lt
  resolved_lt := h.resolved
  failed_lt := ho.failed_lt
  unresolved := ho.queue
  waiting i a ha hk hf := by
    refine (h.waiting i a ha ?_).resolve_left hf
    exact Bool.not_eq_false _ ▸ fun hr => Shape.isUnknown_eq_false_iff.1 hr hk
  nodup := ho.nodup
  resolved i hi := by
    obtain ⟨d, hd, hr⟩ := ho.resolved i hi
    exact ⟨d, hd, Shape.isUnknown_eq_false_iff.1 hr⟩
  disjoint := ho.disjoint
  loading := h.loading
  inProgress := h.inProgress

end Store

namespace Session

open Store

/-- A request leaves the lists of the store in order. -/
theorem ordered_step {s : Store} (hs : s.Coherent) (h : s.Ordered) (r : Request) :
    (step s r).2.Ordered :=
  holds_step keptByRuns_ordered hs h (fun _ _ ht => ht.rollback s) (fun _ => { h with }) r

/-- The run lemma, by induction on the requests. -/
theorem ordered_run (rs : List Request) : ∀ {s : Store}, s.Coherent → s.Ordered →
    (run s rs).Ordered := by
  induction rs with
  | nil => exact fun _ h => h
  | cons r rest ih => exact fun hs h => ih (keeps_step hs r).coherent (ordered_step hs h r)

/-- Whatever the requests of a session are, and whether or not they are served, its store is in
order. -/
theorem orderly_run (settings : LoadSettings) (files : Files) (rs : List Request) :
    (run (.empty settings files) rs).Orderly := by
  have hempty := coherent_empty settings files
  exact (coherent_run rs hempty).1.orderly (ordered_run rs hempty (ordered_empty settings files))

end Session

end RamlTypes
