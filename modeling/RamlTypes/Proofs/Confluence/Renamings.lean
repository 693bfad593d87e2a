import Mathlib.Data.Finset.Card
import Mathlib.Logic.Equiv.Defs
import RamlTypes.Proofs.Confluence.Matching
import RamlTypes.Proofs.Relation.Renaming

/-!
# Two runs that settle all that waits differ in the numbers of shapes

When both runs have settled all that waits, each shape of the one stands for exactly one of the
other. So there is a renaming that turns the one store into the other
(`Store.Settlings.exists_perm`).
-/

namespace RamlTypes

open Store

variable {settings : LoadSettings} (hroot : settings.root.isAbsolute) {s t t' : Store}
  {es es' : List (Settling settings)} (hs : s.Ready settings) (h : s.Settlings es t)
  (h' : s.Settlings es' t')

namespace Store.Settlings

include hroot h in
theorem lt_of_twin {i j : ShapeId} (hij : Twin s es es' i j) : i < t.shapes.size := by
  rcases hij.cases_left with hi | ⟨e, he, k, hi⟩
  · exact Nat.lt_of_lt_of_le hi (h.later hroot).size_le
  · have hlt := Settling.lt_of_mem_stored hi
    rw [← e.size_after] at hlt
    exact Nat.lt_of_lt_of_le hlt (h.later_start hroot he).2.size_le

section
variable (hall' : ∀ i, t'.IsResolved i)
include hroot hs h h' hall'

/-- Each shape of the first run stands for a shape of the second run. -/
theorem exists_map : ∃ f : ShapeId → ShapeId, ∀ i < t.shapes.size, Twin s es es' i (f i) := by
  have htotal := (h.matched hroot h' hall' hs h (List.Subset.refl _)).total
  choose! f hf using htotal
  exact ⟨f, hf⟩

theorem size_le : t.shapes.size ≤ t'.shapes.size := by
  obtain ⟨f, hf⟩ := h.exists_map hroot hs h' hall'
  have hcard := Finset.card_le_card_of_injOn (s := Finset.range t.shapes.size)
    (t := Finset.range t'.shapes.size) f (fun i hi => ?_) fun i hi j hj hij => ?_
  · rwa [Finset.card_range, Finset.card_range] at hcard
  · have htwin := hf i (Finset.mem_range.1 hi)
    exact Finset.mem_coe.2 (Finset.mem_range.2 (h'.lt_of_twin hroot htwin.swap))
  · have htwin := hf i (Finset.mem_range.1 hi)
    have htwin' := hf j (Finset.mem_range.1 hj)
    exact h'.twin_unique hroot h htwin.swap (hij ▸ htwin').swap

end

variable (hall : ∀ i, t.IsResolved i) (hall' : ∀ i, t'.IsResolved i)
include hroot hs h h' hall hall'

/-- The renaming of the shapes of the first run. -/
theorem exists_perm : ∃ f : Equiv.Perm ShapeId, (∀ i < s.shapes.size, f i = i) ∧
    (∀ i < t.shapes.size, Twin s es es' i (f i)) ∧
      ∀ i, t.shapes.size ≤ i → t'.shapes.size ≤ f i := by
  obtain ⟨f, hf⟩ := h.exists_map hroot hs h' hall'
  obtain ⟨g, hg⟩ := h'.exists_map hroot hs h hall
  have hsize : t'.shapes.size = t.shapes.size :=
    Nat.le_antisymm (h'.size_le hroot hs h hall) (h.size_le hroot hs h' hall')
  have hgf (i : ShapeId) (hi : i < t.shapes.size) : f i < t.shapes.size ∧ g (f i) = i := by
    have hlt : f i < t'.shapes.size := h'.lt_of_twin hroot (hf i hi).swap
    exact ⟨hsize ▸ hlt, h'.twin_unique hroot h (hg _ hlt) (hf i hi).swap⟩
  have hfg (j : ShapeId) (hj : j < t.shapes.size) : g j < t.shapes.size ∧ f (g j) = j := by
    have hlt := h.lt_of_twin hroot (hg j (hsize ▸ hj)).swap
    exact ⟨hlt, h.twin_unique hroot h' (hf _ hlt) (hg j (hsize ▸ hj)).swap⟩
  let p : Equiv.Perm ShapeId :=
    { toFun := fun i => if i < t.shapes.size then f i else i
      invFun := fun j => if j < t.shapes.size then g j else j
      left_inv := fun i => by
        by_cases hi : i < t.shapes.size
        · simp only [if_pos hi, if_pos (hgf i hi).1, (hgf i hi).2]
        · simp only [if_neg hi]
      right_inv := fun j => by
        by_cases hj : j < t.shapes.size
        · simp only [if_pos hj, if_pos (hfg j hj).1, (hfg j hj).2]
        · simp only [if_neg hj] }
  have hp (i : ShapeId) (hi : i < t.shapes.size) : p i = f i := if_pos hi
  refine ⟨p, fun i hi => ?_, fun i hi => hp i hi ▸ hf i hi, fun i hi => ?_⟩
  · have hlt := Nat.lt_of_lt_of_le hi (h.later hroot).size_le
    rw [hp i hlt]
    exact h.twin_unique hroot h' (hf i hlt) (.old hi)
  · have hpi : p i = i := if_neg (Nat.not_lt_of_le hi)
    rw [hpi, hsize]
    exact hi

/-- The same shapes have been settled, up to the renaming. -/
theorem perm_ids {f : ShapeId → ShapeId} (hf : ∀ i < t.shapes.size, Twin s es es' i (f i))
    (hinj : Function.Injective f) : ((es.map (·.id)).map f).Perm (es'.map (·.id)) := by
  refine (List.perm_ext_iff_of_nodup ((h.nodup_ids hroot).map hinj) (h'.nodup_ids hroot)).2
    fun j => ?_
  constructor
  · intro hj
    obtain ⟨i, hi, rfl⟩ := List.mem_map.1 hj
    obtain ⟨e, he, rfl⟩ := List.mem_map.1 hi
    obtain ⟨e', he', hid⟩ := h.exists_of_twin hroot h' hall' hs he (hf e.id (h.id_lt hroot he))
    exact List.mem_map.2 ⟨e', he', hid⟩
  · intro hj
    obtain ⟨e', he', rfl⟩ := List.mem_map.1 hj
    obtain ⟨j, hj⟩ := (h'.matched hroot h hall hs h' (List.Subset.refl _)).total e'.id
      (h'.id_lt hroot he')
    obtain ⟨e, he, rfl⟩ := h'.exists_of_twin hroot h hall hs he' hj
    refine List.mem_map.2 ⟨e.id, List.mem_map_of_mem he, ?_⟩
    exact h.twin_unique hroot h' (hf e.id (h.id_lt hroot he)) hj.swap

end Store.Settlings

end RamlTypes
