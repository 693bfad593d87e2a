import RamlTypes.Proofs.Relation.Values

/-!
# Renaming the numbers of shapes

A renaming gives every shape another number. Values whose numbers are related by the graph of a
renaming are equal up to it (`Shape.Rel.eq_rename`, `Fragment.Rel.eq_rename`).
-/

namespace RamlTypes

/-- Changes every value of a dictionary. -/
def Dict.mapValues {κ α β : Type} (f : α → β) (d : Dict κ α) : Dict κ β :=
  d.map fun e => (e.1, f e.2)

section
variable (f : ShapeId → ShapeId)

/-- A use of an annotation whose type has another number. -/
def AnnotationUse.rename (a : AnnotationUse) : AnnotationUse :=
  { a with definedBy := a.definedBy.map f }

/-- An example whose annotations have types with other numbers. -/
def Example.rename (e : Example) : Example :=
  { e with annotations := Dict.mapValues (·.rename f) e.annotations }

/-- A body whose properties, items and members have other numbers. -/
def Body.rename : Body → Body
  | .object o => .object { o with properties := Dict.mapValues f o.properties }
  | .array a => .array { a with items := a.items.map f }
  | .union members => .union (members.map f)
  | b => b

/-- A shape under another number, with all that it refers to. -/
def Shape.rename (a : Shape) : Shape :=
  { a with
    id := f a.id
    inherits := a.inherits.map f
    examples := a.examples.map (·.rename f)
    facetDefinitions := Dict.mapValues f a.facetDefinitions
    annotations := Dict.mapValues (·.rename f) a.annotations
    body := a.body.rename f }

/-- A library whose types, annotation types and annotations have other numbers. -/
def Library.rename (l : Library) : Library :=
  { l with
    types := Dict.mapValues f l.types
    annotationTypes := Dict.mapValues f l.annotationTypes
    annotations := Dict.mapValues (·.rename f) l.annotations }

/-- A fragment with other numbers for its shapes. -/
def Fragment.rename : Fragment → Fragment
  | .library l => .library (l.rename f)
  | .dataType d => .dataType { d with shape := f d.shape }

end

/-- The values of a list are those of another one under a function. -/
theorem eq_map_of_forall₂ {α β : Type} {S : α → β → Prop} {g : β → α} {l : List α} {m : List β}
    (h : List.Forall₂ S l m) (hS : ∀ a b, S a b → a = g b) : l = m.map g := by
  induction h with
  | nil => rfl
  | cons hab _ ih => rw [List.map_cons, ← hS _ _ hab, ← ih]

/-- An optional value is that of another one under a function. -/
theorem eq_map_of_optionRel {α β : Type} {S : α → β → Prop} {g : β → α} {o : Option α}
    {p : Option β} (h : Option.Rel S o p) (hS : ∀ a b, S a b → a = g b) : o = p.map g := by
  cases h with
  | none => rfl
  | some hab => rw [Option.map_some, hS _ _ hab]

/-- The values of a dictionary are those of another one under a function. -/
theorem Dict.Rel.eq_mapValues {κ α β : Type} {S : α → β → Prop} {g : β → α} {d : Dict κ α}
    {e : Dict κ β} (h : Dict.Rel S d e) (hS : ∀ a b, S a b → a = g b) : d = Dict.mapValues g e :=
  eq_map_of_forall₂ h fun _ _ hab => Prod.ext hab.1 (hS _ _ hab.2)

section
variable {R : ShapeId → ShapeId → Prop} {f : ShapeId → ShapeId} (hR : ∀ i j, R i j → i = f j)
include hR

/-- Related uses of an annotation differ by the renaming. -/
theorem AnnotationUse.Rel.eq_rename {a b : AnnotationUse} (h : a.Rel R b) : a = b.rename f := by
  rw [rename, h.rest, ← eq_map_of_optionRel h.definedBy hR]

/-- Related examples differ by the renaming. -/
theorem Example.Rel.eq_rename {a b : Example} (h : a.Rel R b) : a = b.rename f := by
  have ha := h.annotations.eq_mapValues fun _ _ => AnnotationUse.Rel.eq_rename hR
  rw [rename, h.rest, ← ha]

/-- Related bodies differ by the renaming: only those of objects, arrays and unions have numbers. -/
theorem Body.Rel.eq_rename {a b : Body} (h : a.Rel R b) : a = b.rename f := by
  cases h with
  | object o properties => rw [rename, ← properties.eq_mapValues hR]
  | array o items => rw [rename, ← eq_map_of_optionRel items hR]
  | union members => rw [rename, ← eq_map_of_forall₂ members hR]
  | _ => rfl

/-- Related shapes differ by the renaming if their own numbers do: `Shape.Rel` says nothing of
these. -/
theorem Shape.Rel.eq_rename {a b : Shape} (h : a.Rel R b) (id : a.id = f b.id) : a = b.rename f := by
  have hi := eq_map_of_forall₂ h.inherits hR
  have he := eq_map_of_forall₂ h.examples fun _ _ => Example.Rel.eq_rename hR
  have hd := h.facetDefinitions.eq_mapValues hR
  have ha := h.annotations.eq_mapValues fun _ _ => AnnotationUse.Rel.eq_rename hR
  rw [rename, ← id, ← hi, ← he, ← hd, ← ha, ← h.body.eq_rename hR, h.rest]

/-- Related fragments differ by the renaming. -/
theorem Fragment.Rel.eq_rename {a b : Fragment} (h : a.Rel R (AnnotationUse.Rel R) b) :
    a = b.rename f := by
  cases h with
  | library h =>
    have hl := h.types.eq_mapValues hR
    have hm := h.annotationTypes.eq_mapValues hR
    have ha := h.annotations.eq_mapValues fun _ _ => AnnotationUse.Rel.eq_rename hR
    rw [rename, Library.rename, ← hl, ← hm, ← ha, h.rest]
  | dataType h => rw [rename, ← hR _ _ h.shape, h.rest]

end

end RamlTypes
