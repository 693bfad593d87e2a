import RamlTypes.Proofs.Aftermath.Basic
import RamlTypes.Proofs.Annotations.Aliased
import RamlTypes.Proofs.Preservation.Requests

/-!
# Annotations beside a residue

When nothing waits any more, the annotations that are left can be bound beside a residue if they can be
bound without it, since the shapes of the residue have failed (`Store.Despite.bindAnnotations`). Neither
loads nor resolutions change the annotations of shapes (`Store.keptByCalls_sameAnnotations`).
-/

namespace RamlTypes

section
variable {R : ShapeId → ShapeId → Prop} {s t : Store}

/-- The same annotation has its library on both sides if the file has the same aliases. -/
theorem AnnotationUse.Rel.isAliased {a c : AnnotationUse} (h : a.Rel R c) {path : Path}
    (huses : Dict.find? path.key t.uses = Dict.find? path.key s.uses) (hc : c.IsAliased t path) :
    a.IsAliased s path := by
  intro hd f
  have hdefined := h.definedBy
  rw [← target_congr huses h]
  refine hc ?_ f
  rw [hd] at hdefined
  generalize c.definedBy = o at hdefined
  cases hdefined
  rfl

theorem Shape.Rel.allAnnotations {a c : Shape} (h : a.Rel R c) :
    Dict.Rel (AnnotationUse.Rel R) a.allAnnotations c.allAnnotations :=
  List.rel_append h.annotations (List.rel_flatMap h.examples fun _ _ he => he.annotations)

/-- So do the annotations of related shapes. -/
theorem Shape.Rel.isAliased {a c : Shape} (h : a.Rel R c)
    (huses : Dict.find? c.location.key t.uses = Dict.find? c.location.key s.uses)
    (hc : c.IsAliased t) : a.IsAliased s := by
  rw [IsAliased, h.location] at hc
  rw [h.location] at huses
  rw [IsAliased]
  have hall := h.allAnnotations
  generalize a.allAnnotations = d at hall ⊢
  generalize c.allAnnotations = e at hall hc
  induction hall with
  | nil => exact List.forall_mem_nil _
  | cons hxy _ ih =>
    rw [List.forall_mem_cons] at hc ⊢
    exact ⟨hxy.2.isAliased huses hc.1, ih hc.2⟩

end

namespace Store

/-! ## Binding annotations -/

/-- The numbers of a residue are those that stand for no shape of the other store. -/
theorem exists_displace {n k i : Nat} (h : ¬ (n ≤ i ∧ i < n + k)) : ∃ j, displace n k j = i := by
  rcases Nat.lt_or_ge i n with hlt | hge
  · exact ⟨i, displace_of_lt hlt k⟩
  · refine ⟨i - k, ?_⟩
    rw [displace_of_le (by omega)]
    omega

/-- If annotations can be bound without a residue whose shapes have failed, they can be bound beside
it. -/
theorem Despite.bindAnnotations {r : Residue} {w : Progress} {s t : Store} (h : Despite r w s t)
    (hmark : t.annotationsBound ≤ r.mark)
    (hfailed : ∀ i, r.mark ≤ i → i < r.mark + r.size → i ∈ s.failed)
    (ids : ∀ (i : ShapeId) (a : Shape), s.shapes[i]? = some a → a.id = i)
    (ht : ∃ u, Load.bindAnnotations t = (.ok (), u)) :
    ∃ u, Load.bindAnnotations s = (.ok (), u) := by
  rw [Load.bindAnnotations_isOk_iff] at ht ⊢
  intro a ha
  obtain ⟨i, hle, hi, hnot⟩ := mem_unbound.1 ha
  rw [ids i a hi] at hnot
  obtain ⟨j, rfl⟩ := exists_displace fun hin => hnot (hfailed i hin.1 hin.2)
  have hj : j < t.shapes.size := by
    have hlt := (Array.getElem?_eq_some_iff.1 hi).1
    have hmark := h.mark_le
    rw [displace, h.size, h.size'] at hlt
    rw [h.size']
    split at hlt <;> omega
  have hc := Array.getElem?_eq_getElem hj
  obtain ⟨a', ha', hac⟩ := h.shapes j _ hc
  cases hi.symm.trans ha'
  have hfailed' : j ∉ t.failed := fun hf => hnot ((h.failed j).2 hf)
  have hspares := (h.located j _ hc).resolve_left hfailed'
  refine hac.rel.isAliased (h.uses _ hspares) (ht _ (mem_unbound.2 ⟨j, ?_, hc, hac.id'.symm ▸ hfailed'⟩))
  rw [h.bound] at hle
  rw [displace] at hle
  split at hle
  · exact hle
  · omega

/-! ## Annotations that stay -/

/-- The shapes of `b` have the same annotations in `s`, and none was bound since. -/
structure SameAnnotations (b s : Store) : Prop where
  bound : s.annotationsBound = b.annotationsBound
  shapes : ∀ (i : ShapeId) (a : Shape), b.shapes[i]? = some a → ∃ c, s.shapes[i]? = some c ∧
    c.location = a.location ∧ c.allAnnotations = a.allAnnotations

namespace SameAnnotations

variable {b s : Store}

theorem refl (b : Store) : b.SameAnnotations b where
  bound := rfl
  shapes _ a ha := ⟨a, ha, rfl, rfl⟩

/-- Shapes are changed, but for their files, their annotations and those of their examples. -/
theorem mapShape (h : b.SameAnnotations s) (i : ShapeId) {f : Shape → Shape}
    (hf : ∀ a : Shape, (f a).location = a.location ∧ (f a).allAnnotations = a.allAnnotations) :
    b.SameAnnotations (s.mapShape i f) where
  bound := h.bound
  shapes j a ha := by
    obtain ⟨c, hc, hlocation, hall⟩ := h.shapes j a ha
    rw [getElem?_mapShape]
    split
    · exact ⟨f c, by rw [hc]; rfl, (hf c).1.trans hlocation, (hf c).2.trans hall⟩
    · exact ⟨c, hc, hlocation, hall⟩

theorem written {e : Evaluation} (h : b.SameAnnotations e.stop) : b.SameAnnotations (written e) := by
  have hended : b.SameAnnotations (e.stop.endResolution e.id) := { h with }
  refine ⟨h.bound, (hended.mapShape e.id ?_).shapes⟩
  exact fun _ => ⟨rfl, rfl⟩

/-- So their libraries are known in `s` if they are in `b`. -/
theorem isAliased_iff (h : b.SameAnnotations s) {i : ShapeId} {a c : Shape}
    (ha : b.shapes[i]? = some a) (hc : s.shapes[i]? = some c)
    (huses : Dict.find? a.location.key s.uses = Dict.find? a.location.key b.uses) :
    c.IsAliased s ↔ a.IsAliased b := by
  obtain ⟨c', hc', hlocation, hall⟩ := h.shapes i a ha
  cases hc.symm.trans hc'
  rw [Shape.IsAliased, hlocation, hall]
  exact a.isAliased_congr huses

end SameAnnotations

/-- Loads leave the annotations of shapes as they are. -/
theorem keptByFetching_sameAnnotations (b : Store) : KeptByFetching b.SameAnnotations where
  report _ _ h := { h with }
  reportUnbound _ _ h := { h with }
  addShape a _ h :=
    { h with
      shapes := fun i c hc => by
        obtain ⟨d, hd, hcd⟩ := h.shapes i c hc
        exact ⟨d, getElem?_addShape_of_some hd, hcd⟩ }
  makeOptional i h := h.mapShape i fun _ => ⟨rfl, rfl⟩
  declareUse _ _ _ h := { h with }
  declareType _ _ _ h := { h with }
  declareAnnotationType _ _ _ h := { h with }
  countRead _ _ h := { h with }
  cacheExample _ _ h := { h with }
  beginLoading _ h := { h with }
  endLoading _ h := { h with }
  cacheFragment _ h := { h with }

/-- So do resolutions. -/
theorem keptByCalls_sameAnnotations (b : Store) : KeptByCalls b.SameAnnotations b.SameAnnotations := by
  have hresolving : KeptByResolving b.SameAnnotations b.SameAnnotations :=
    { weaken := fun _ h => h
      evaluates := (keptByFetching_sameAnnotations b).evaluates
      beginResolution := fun _ _ h => { h with }
      written := fun _ _ _ h => h.written
      markFailed := fun _ _ _ h => { h with } }
  exact hresolving.calls fun h => { h with }

end Store

end RamlTypes
