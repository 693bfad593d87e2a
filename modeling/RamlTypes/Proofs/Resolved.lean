import RamlTypes.Proofs.Yields

/-!
# Shapes that are resolved

A shape that is resolved stays as it is: nothing that a load does changes its body, what it inherits
or its custom facets (`Store.Grows.kept`).
-/

namespace RamlTypes

/-- The shape is resolved, if it exists. -/
def Store.IsResolved (s : Store) (i : ShapeId) : Prop :=
  ∀ a, s.shapes[i]? = some a → a.isUnknown = false

theorem Shape.isUnknown_eq_false_iff {a : Shape} : a.isUnknown = false ↔ a.body.kind ≠ .unknown := by
  rw [Shape.isUnknown, ← Body.pending_eq_none_iff]
  cases a.body.pending? <;> simp

namespace Store

variable {s s' : Store} {i : ShapeId}

/-- A shape stays as it was resolved. -/
theorem Grows.kept (h : s.Grows s') {a : Shape} (ha : s.shapes[i]? = some a)
    (hr : a.isUnknown = false) : ∃ b, s'.shapes[i]? = some b ∧ a.Grows b ∧ a.Kept b := by
  obtain ⟨b, hb, hab, hkeep⟩ := h.shapes i a ha
  refine ⟨b, hb, hab, hkeep.resolve_right fun hw => ?_⟩
  rw [hw.isUnknown] at hr
  cases hr

/-- A shape that is resolved stays resolved. -/
theorem IsResolved.grows (hr : s.IsResolved i) (hi : i < s.shapes.size) (h : s.Grows s') :
    s'.IsResolved i := by
  intro b hb
  have ha := Array.getElem?_eq_getElem hi
  obtain ⟨c, hc, -, hkept⟩ := h.kept ha (hr _ ha)
  cases hb.symm.trans hc
  exact hkept.isUnknown.trans (hr _ ha)

/-- A shape whose resolution has nothing to do is resolved. -/
theorem isResolved_of_claim (h : s.claim i = .ok none) : s.IsResolved i := by
  intro a ha
  rw [claim, ha] at h
  rw [Shape.isUnknown]
  rcases hp : a.body.pending? with _ | p
  · rfl
  · dsimp only at h
    rw [hp] at h
    dsimp only at h
    split at h <;> try split at h
    all_goals cases h

/-- The body of a shape that is resolved has a kind of its own. -/
theorem IsResolved.kind (hr : s.IsResolved i) : (s.bodyOf i).kind ≠ .unknown := by
  rw [bodyOf]
  rcases ha : s.shapes[i]? with _ | a
  · exact nofun
  · exact Shape.isUnknown_eq_false_iff.1 (hr a ha)

end Store

namespace Body

theorem empty_kind {k : Kind} {b : Body} (h : empty? k = some b) : b.kind = k := by
  cases k <;> cases h <;> rfl

theorem blank_kind (b : Body) : b.blank.kind = b.kind := by
  rw [blank]
  rcases h : empty? b.kind with _ | c
  · rfl
  · exact empty_kind h

/-- Each built-in kind has a body without facets. -/
theorem exists_empty {k : Kind} (h : k ∈ Kind.builtins) : ∃ b, empty? k = some b := by
  cases k
  case json => simp [Kind.builtins] at h
  case unknown => simp [Kind.builtins] at h
  all_goals exact ⟨_, rfl⟩

theorem emptyD_kind (k : Kind) : ((empty? k).getD .any).kind ≠ .unknown := by
  cases k <;> decide

end Body

end RamlTypes
