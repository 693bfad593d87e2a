import RamlTypes.Fragment.Load

/-!
# How many shapes may still have to be resolved

Every resolution of a shape uses up one unresolved shape. New ones come only from the raw facets of
the shape that is resolved, or from a file that is read meanwhile, which happens once at most.
`Store.potential` bounds their number, and thereby the depth and the length of every resolution. A
node counts twice: once for the resolution of the shape that it may declare, and once for the place
of that shape in the work list.
-/

namespace RamlTypes

section
variable {α β : Type}

/-- The weights of a list's elements added up. -/
def totalWeight (weight : α → Nat) (l : List α) : Nat :=
  l.foldr (fun a total => weight a + total) 0

theorem totalWeight_append (weight : α → Nat) (l l' : List α) :
    totalWeight weight (l ++ l') = totalWeight weight l + totalWeight weight l' := by
  induction l with
  | nil => exact (Nat.zero_add _).symm
  | cons a l ih => exact (congrArg (weight a + ·) ih).trans (Nat.add_assoc ..).symm

theorem totalWeight_eq_zero {weight : α → Nat} {l : List α} (h : ∀ a ∈ l, weight a = 0) :
    totalWeight weight l = 0 := by
  induction l with
  | nil => rfl
  | cons a l ih =>
    rw [List.forall_mem_cons] at h
    rw [totalWeight, List.foldr_cons, h.1, Nat.zero_add]
    exact ih h.2

end

/-- A bound on the unresolved shapes that may come from a list of facets. -/
def facetsWeight (facets : List (String × Node)) : Nat :=
  totalWeight (fun f => 2 * f.2.size) facets

/-- A bound on the unresolved shapes that may come from a shape, itself included. -/
def Shape.weight (s : Shape) : Nat :=
  match s.body.pending? with
  | some p => 1 + facetsWeight p.facets
  | none => 0

/-- A bound on the unresolved shapes that may come from the text of a file. -/
def textWeight (text : String) : Nat :=
  match Node.ofYaml? text with
  | some node => 2 * node.size
  | none => 0

/-- A bound on the unresolved shapes that may come from a file. -/
def fileWeight : Except ReadFailure String → Nat
  | .ok text => textWeight text
  | .error _ => 0

/-- A bound on the unresolved shapes that may come from a shape of the store. One that failed is not
resolved any more. -/
def Store.shapeWeight (s : Store) (shape : Shape) : Nat :=
  if s.isFailed shape.id then 0 else shape.weight

/-- A bound on the number of resolutions that are still possible. -/
def Store.potential (s : Store) : Nat :=
  totalWeight s.shapeWeight s.shapes.toList +
    totalWeight (fun entry => fileWeight entry.2) s.files.known

end RamlTypes
