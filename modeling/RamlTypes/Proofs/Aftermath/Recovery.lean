import RamlTypes.Proofs.Aftermath.Annotations
import RamlTypes.Proofs.Aftermath.Beginnings
import RamlTypes.Proofs.Aftermath.Rounds
import RamlTypes.Proofs.Confluence.Sessions

/-!
# What can be resolved after a load has failed

If all that waits in a store can be resolved, it can still be resolved after a load of other files has
failed. The load fails while fragments are read, so nothing is resolved (`Store.mends_of_fragment`). Or
it fails when all that waited before is resolved (`Store.mends_of_resolveAll`), since the work list is
resolved from its beginning.
-/

namespace RamlTypes

namespace Store

variable {s t m f : Store} {p : Path} {e : Stop}

/-- The work list of `s` can be resolved, which leads to `m`, and the annotations can be bound then. -/
structure Resolves (s m : Store) : Prop where
  drained : Load.drainAll s = (.ok (), m)
  bound : ∃ u, Load.bindAnnotations m = (.ok (), u)

theorem exists_resolves (h : Load.resolveAll s = (.ok (), t)) : ∃ m, s.Resolves m ∧ m.Grows t := by
  obtain ⟨_, m, hm, hbind⟩ := Load.bind_eq_ok.1 h
  exact ⟨m, ⟨hm, t, hbind⟩, Load.grows_of_apply hbind⟩

theorem Resolves.resolveAll (h : s.Resolves m) : ∃ u, Load.resolveAll s = (.ok (), u) := by
  obtain ⟨u, hu⟩ := h.bound
  exact ⟨u, (Load.bind_of_ok h.drained _).trans hu⟩

/-- What holds in the store `t` after a load of `s` has failed: all that waits can be resolved, and the
shapes of `s` that have failed meanwhile are resolved. -/
structure Mends (s t : Store) : Prop where
  resolves : ∃ m, t.Resolves m
  resolved : ∀ i < s.shapes.size, i ∈ t.failed → i ∉ s.failed → t.IsResolved i

/-- The files that the load has cached in `f` are not among those that are cached in `m`. -/
def Independent (s f m : Store) : Prop :=
  ∀ u k, f.isCached u k ∧ ¬ s.isCached u k → ¬ m.isCached u k

/-! ## Resolving without the load -/

section
variable (hs : s.Tidy) (hroot : s.settings.root.isAbsolute) (h : s.Resolves m)
include hs hroot h

theorem Resolves.rounds : Relation.ReflTransGen (Round (s.potential + 1)) s m ∧ m.unresolved = [] ∧
    s.Draining s.potential m := by
  have hdrain : Load.drain (s.potential + 1) (s.unresolved.length + s.potential + 1) s =
      (.ok (), m) := h.drained
  obtain ⟨hrounds, hdone⟩ := rounds_of_drain _ hdrain
  exact ⟨hrounds, hdone, (hs.draining hroot).rounds hrounds⟩

omit hroot in
theorem Resolves.sameAnnotations : s.SameAnnotations m :=
  ((keptByCalls_sameAnnotations s).drainAll (hs.underway s.mentions_true) hs.inProgress
    (.refl s)).of_ok h.drained

/-- The libraries of the annotations are known that are not bound. -/
theorem Resolves.isAliased {i : ShapeId} {a : Shape} (ha : s.shapes[i]? = some a)
    (hi : s.annotationsBound ≤ i) (hnot : i ∉ s.failed) : a.IsAliased s := by
  obtain ⟨-, -, hdraining⟩ := h.rounds hs hroot
  obtain ⟨w, hw⟩ := hdraining.underway
  have hsame := h.sameAnnotations hs
  obtain ⟨c, hc, -⟩ := hsame.shapes i a ha
  have huses := hw.same.uses _ ((hs.mentions.locations i a ha).resolve_left hnot)
  refine (hsame.isAliased_iff ha hc huses).1 ((Load.bindAnnotations_isOk_iff m).1 h.bound c ?_)
  rw [mem_unbound, hsame.bound, hw.failed]
  exact ⟨i, hi, hc, (hw.ids i c hc).symm ▸ hnot⟩

end

/-! ## A load that fails while fragments are read -/

section
variable (hs : s.Tidy) (ho : s.Ordered) (hmarked : s.Marked) (hroot : s.settings.root.isAbsolute)
  (h : s.Resolves m)
include hs ho hmarked hroot h

/-- Beside the shapes of such a load, all that waited is resolved as it is without it. -/
theorem mends_of_fragment (hf : Load.fragment p s = (.error e, f)) (he : e ≠ .exhausted)
    (hindependent : s.Independent (f.rollback s) m) : s.Mends (f.rollback s) := by
  have hcontinues := hs.continues_rollback ho hf he
  have hcoherent := (hs.parse p).1.toCoherent
  rw [Load.parse, Load.orRollback, hf] at hcoherent
  have hdraining := hcoherent.draining (hcontinues.settings ▸ hroot)
  obtain ⟨hrounds, hdone, -⟩ := h.rounds hs hroot
  obtain ⟨w, v, t', hv, hdespite, hend⟩ := Despite.rounds (r := residue [] s (f.rollback s)) hrounds
    hindependent (hcontinues.despite hs ho hroot) hdraining
  obtain rfl : t' = m := hend.resolve_right fun hw => hw.1 rfl
  have hvdone : v.unresolved = [] := by
    obtain ⟨old, new, ht, hv, -, -⟩ := hdespite.queue
    rw [hdone] at ht
    obtain ⟨rfl, rfl⟩ := List.append_eq_nil_iff.1 ht.symm
    exact hv
  obtain ⟨wv, hwv⟩ := (hdraining.rounds hv).underway
  refine ⟨⟨v, hdraining.drainAll_of_rounds hv hvdone, ?_⟩, fun i hi hf hnot => ?_⟩
  · refine hdespite.bindAnnotations ?_ (fun i hle hlt => ?_) hwv.ids h.bound
    · exact (h.sameAnnotations hs).bound.trans_le hmarked
    · refine (grows_of_rounds hv).failed (mem_failed_rollback.2 (.inr ⟨hle, ?_⟩))
      have hlt : i < s.shapes.size + ((f.rollback s).shapes.size - s.shapes.size) := hlt
      rwa [Nat.add_sub_cancel' hcontinues.size_le] at hlt
  · exact absurd ((hcontinues.failed i hi).1 hf) hnot

end

/-! ## A load that fails while shapes are resolved -/

/-- Of the shapes of `s` none waits in `v`, and no shape has failed since. -/
structure Overtakes (s v : Store) : Prop where
  coherent : v.Coherent
  size_le : s.shapes.size ≤ v.shapes.size
  failed : v.failed = s.failed
  late : ∀ i ∈ v.unresolved, s.shapes.size ≤ i

/-- So all of them are resolved that had not failed before. -/
theorem Overtakes.isResolved {v : Store} (h : s.Overtakes v) {i : ShapeId} (hi : i < s.shapes.size)
    (hnot : i ∉ s.failed) : v.IsResolved i := by
  intro a ha
  refine Bool.eq_false_iff.2 fun hu => ?_
  rcases h.coherent.waiting i a ha hu with hf | hq
  · exact hnot (h.failed ▸ hf)
  · exact Nat.not_lt_of_le (h.late i hq) hi

section
variable (hs : s.Tidy) (hroot : s.settings.root.isAbsolute) {g : Fragment}
  (hf : Load.fragment p s = (.ok g, f))
include hs hroot hf

/-- Resolving the work list after a load comes to a point where all that had waited is resolved. -/
theorem exists_overtakes (ho : s.Ordered) (h : s.Resolves m) (hindependent : s.Independent f m) :
    ∃ v, Relation.ReflTransGen (Round (f.potential + 1)) f v ∧ s.Overtakes v := by
  obtain ⟨waiting, hcontinues⟩ := hs.continues ho hf
  have hdraining := hs.toCoherent.draining_of_fragment hroot hf
  obtain ⟨hrounds, hdone, -⟩ := h.rounds hs hroot
  obtain ⟨w, v, t', hv, hdespite, hend⟩ := Despite.rounds (r := residue waiting s f) hrounds
    hindependent (hcontinues.despite hs ho hroot) hdraining
  have hdraining' := hdraining.rounds hv
  obtain ⟨wv, hwv⟩ := hdraining'.underway
  refine ⟨v, hv, hwv.coherent hdraining'.loading hdraining'.inProgress, ?_, hwv.failed, ?_⟩
  · exact Nat.le_trans hcontinues.size_le (grows_of_rounds hv).size_le
  · obtain ⟨old, new, ht, hqueue, hold, hnew⟩ := hdespite.queue
    have hnone : old = [] := by
      rcases hend with rfl | ⟨-, hlate⟩
      · rw [hdone] at ht
        exact (List.append_eq_nil_iff.1 ht.symm).1
      · refine List.eq_nil_iff_forall_not_mem.2 fun j hj => ?_
        exact Nat.not_lt_of_le (hlate j (ht ▸ List.mem_append_left _ hj)) (hold j hj)
    rw [hqueue, hnone, List.nil_append]
    refine List.forall_mem_append.2 ⟨hcontinues.waiting, List.forall_mem_map.2 fun j hj => ?_⟩
    rw [displace_of_le (hnew j hj).1]
    exact Nat.le_add_right_of_le (hnew j hj).1

variable (hr : Load.resolveAll f = (.error e, t))
include hr

/-- It stops while the work list is resolved, or when the annotations are bound after that. -/
theorem cases_of_resolveAll : Load.drainAll f = (.error e, t) ∨
    ∃ m, Load.drainAll f = (.ok (), m) ∧ m.unresolved = [] ∧ m.Grows t ∧ m.Rebinds t := by
  rcases Load.bind_eq_error.1 hr with hstop | ⟨_, m, hdrain, hbind⟩
  · exact .inl hstop
  · have hdrain' : Load.drain (f.potential + 1) (f.unresolved.length + f.potential + 1) f =
        (.ok (), m) := hdrain
    obtain ⟨hrounds, hdone⟩ := rounds_of_drain _ hdrain'
    obtain ⟨w, hw⟩ := ((hs.toCoherent.draining_of_fragment hroot hf).rounds hrounds).underway
    exact .inr ⟨m, hdrain, hdone, Load.grows_of_apply hbind,
      Load.rebinds_of_bindAnnotations hw.ids hbind⟩

/-- Where it stops after all is resolved that had waited, none of these shapes waits. -/
theorem Overtakes.late_of_resolveAll {v : Store} (h : s.Overtakes v)
    (hv : Relation.ReflTransGen (Round (f.potential + 1)) f v) :
    v.Grows t ∧ ∀ i ∈ t.unresolved, s.shapes.size ≤ i := by
  obtain ⟨n, -, hn⟩ := (hs.toCoherent.draining_of_fragment hroot hf).exists_drainAll hv
  rcases cases_of_resolveAll hs hroot hf hr with hstop | ⟨m, hdrain, hdone, hgrows, hrebinds⟩
  · rw [hn] at hstop
    have hunderway := h.coherent.underway v.mentions_true
    obtain ⟨w, hw⟩ := (hunderway.drain _ _ h.coherent.inProgress).of_error hstop
    refine ⟨Load.grows_of_apply hstop, fun i hi => Nat.le_of_not_lt fun hlt => ?_⟩
    have hlt' := Nat.lt_of_lt_of_le hlt h.size_le
    have hold := hw.suffix.subset (List.mem_filter.2 ⟨hi, decide_eq_true hlt'⟩)
    exact Nat.not_lt_of_le (h.late i hold) hlt
  · rw [hn] at hdrain
    refine ⟨(Load.grows_of_apply hdrain).trans hgrows, ?_⟩
    rw [hrebinds.unresolved, hdone]
    exact List.forall_mem_nil _

/-- Whatever was bound until it stops, the libraries that were known are known. -/
theorem aliased_of_resolveAll : t.annotationsBound = s.annotationsBound ∧
    ∀ (i : ShapeId) (a c : Shape), s.shapes[i]? = some a → t.shapes[i]? = some c →
      Dict.find? a.location.key t.uses = Dict.find? a.location.key s.uses →
      a.IsAliased s → c.IsAliased t := by
  have hloads := (keptByFetching_sameAnnotations s).keptByLoads
  have hends := (keptByCalls_sameAnnotations s).drainFragment hloads hs.toCoherent (.refl s) p
  have hdrains := (hends.of_ok hf).2
  rcases cases_of_resolveAll hs hroot hf hr with hstop | ⟨m, hdrain, -, -, hrebinds⟩
  · have hsame := hdrains.of_error hstop
    exact ⟨hsame.bound, fun i a c ha hc huses => (hsame.isAliased_iff ha hc huses).2⟩
  · have hsame := hdrains.of_ok hdrain
    refine ⟨hrebinds.bound.trans hsame.bound, fun i a c ha hc huses haliased => ?_⟩
    obtain ⟨d, hd, -⟩ := hsame.shapes i a ha
    obtain ⟨c', hc', -, hkept⟩ := hrebinds.shapes i d hd
    cases hc.symm.trans hc'
    rw [hrebinds.uses] at huses
    refine (c.isAliased_congr (congrArg _ hrebinds.uses)).2 (hkept ?_)
    exact (hsame.isAliased_iff ha hd huses).2 haliased

/-- So the annotations can be bound that are left when the load is taken back. -/
theorem Resolves.isAliased_rollback (h : s.Resolves m) {c : Shape} (hc : c ∈ (t.rollback s).unbound) :
    c.IsAliased (t.rollback s) := by
  obtain ⟨hbound, haliased⟩ := aliased_of_resolveAll hs hroot hf hr
  have hdraining := hs.toCoherent.draining_of_fragment hroot hf
  obtain ⟨w, hw⟩ := hdraining.underway
  obtain ⟨w', hw'⟩ := (hw.resolveAll hdraining.inProgress).of_error hr
  have hgrows : s.Grows t := (Load.grows_of_apply hf).trans (Load.grows_of_apply hr)
  obtain ⟨i, hi, hc, hnot⟩ := mem_unbound.1 hc
  have hc : t.shapes[i]? = some c := hc
  rw [hw'.ids i c hc, mem_failed_rollback, not_or] at hnot
  have hlt : i < s.shapes.size := Nat.lt_of_not_le fun hle =>
    hnot.2 ⟨hle, (Array.getElem?_eq_some_iff.1 hc).1⟩
  have hnot' : i ∉ s.failed := fun hf => hnot.1 (hgrows.failed hf)
  -- The shape was stored before the load, in a file that is cached.
  have ha := Array.getElem?_eq_getElem hlt
  obtain ⟨c', hc', hac, -⟩ := hgrows.shapes i _ ha
  cases hc.symm.trans hc'
  have hknown := (hs.mentions.locations i _ ha).resolve_left hnot'
  have huses := hw'.same.uses _ hknown
  have hle : s.annotationsBound ≤ i := hbound ▸ hi
  refine (c.isAliased_congr ?_).2 (haliased i _ c ha hc huses (h.isAliased hs hroot ha hle hnot'))
  rw [hac.location_eq]
  exact (hw'.same.rollback.uses _ hknown).trans huses.symm

/-- All that waits after such a load can be resolved, which is nothing. -/
theorem mends_of_resolveAll (ho : s.Ordered) (h : s.Resolves m) (hindependent : s.Independent f m) :
    s.Mends (t.rollback s) := by
  obtain ⟨v, hv, hovertakes⟩ := exists_overtakes hs hroot hf ho h hindependent
  obtain ⟨hgrows, hlate⟩ := hovertakes.late_of_resolveAll hs hroot hf hr hv
  have hdone : (t.rollback s).unresolved = [] :=
    List.filter_eq_nil_iff.2 fun i hi => by simpa using hlate i hi
  have hdrain : Load.drainAll (t.rollback s) = (.ok (), t.rollback s) := by
    rw [Load.drainAll, Load.ask_bind, Load.ask_bind, Load.drain, Load.ask_bind, hdone]
    rfl
  refine ⟨⟨t.rollback s, hdrain, (Load.bindAnnotations_isOk_iff _).2 fun c => ?_⟩, ?_⟩
  · exact h.isAliased_rollback hs hroot hf hr
  · intro i hi _ hnot a ha
    have hlt := Nat.lt_of_lt_of_le hi hovertakes.size_le
    exact (hovertakes.isResolved hi hnot).grows hlt hgrows a ha

end

end Store

end RamlTypes
