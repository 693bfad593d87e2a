import RamlTypes.Resolution.Resolve

/-!
# What a load can yield

`Load.Yields` states a property of every result of a load, whatever the store. Applying facets
yields a body of the kind of the first one (`Facets.apply_kind`).
-/

namespace RamlTypes

variable {α β : Type}

/-- A sequence of two checks has a result only if both have. -/
theorem exists_ok_of_bind {ε : Type} {x : Except ε α} {f : α → Except ε β} {b : β}
    (h : x >>= f = .ok b) : ∃ a, x = .ok a ∧ f a = .ok b := by
  cases x with
  | error _ => cases h
  | ok a => exact ⟨a, rfl, h⟩

/-- Every result of a load has the property `P`. -/
def Load.Yields (x : Load α) (P : α → Prop) : Prop :=
  ∀ s a s', x s = (.ok a, s') → P a

namespace Load.Yields

variable {x : Load α} {P : α → Prop} {Q : β → Prop}

/-- Any run that is served gives something. -/
theorem any : x.Yields fun _ => True := fun _ _ _ _ => trivial

/-- A result that is there is given. -/
theorem pure {a : α} (h : P a) : Load.Yields (pure a) P := by
  intro s b s' hb
  cases hb
  exact h

/-- What follows gives its result for each that the first run can give. -/
theorem bind {f : α → Load β} (hx : x.Yields P) (hf : ∀ a, P a → (f a).Yields Q) :
    (x >>= f).Yields Q := by
  intro s b s' hb
  obtain ⟨a, t, ha, hb⟩ := Load.bind_eq_ok.1 hb
  exact hf a (hx s a t ha) t b s' hb

/-- The results of what follows an action, whatever its result. -/
theorem next {f : α → Load β} (hf : ∀ a, (f a).Yields Q) : (x >>= f).Yields Q :=
  bind any fun a _ => hf a

/-- A run that fails gives nothing. -/
theorem fail (f : PlainFault) : Load.Yields (Load.fail f) P := by
  intro s a s' h
  cases h

end Load.Yields

namespace Facets

open Load (Yields)

variable (declare : Declare) (path : Path) (owner key : String) (value : Node)

/-- A facet that belongs to a body leaves its kind. -/
abbrev KeepsKind (body : Body) (o : Option Body) : Prop := ∀ b ∈ o, b.kind = body.kind

/-- No new body at all keeps the kind. -/
theorem keepsKind_none (body : Body) : KeepsKind body none := fun _ h => nomatch h

/-- A body of the same kind keeps it. -/
theorem keepsKind_some {body b : Body} (h : b.kind = body.kind) : KeepsKind body (some b) :=
  fun _ hb => Option.some.inj hb ▸ h

/-- One facet leaves a string a string. -/
theorem string_kind (f : StringFacets) :
    (string path owner f key value).Yields (KeepsKind (.string f)) := by
  unfold string
  split
  case h_5 => exact .pure (keepsKind_none _)
  all_goals exact .next fun _ => .pure (keepsKind_some rfl)

/-- It leaves an array an array. -/
theorem array_kind (f : ArrayFacets) :
    (array declare path owner f key value).Yields (KeepsKind (.array f)) := by
  unfold array
  split
  case h_5 => exact .pure (keepsKind_none _)
  all_goals exact .next fun _ => .pure (keepsKind_some rfl)

/-- It leaves an object an object. -/
theorem object_kind (f : ObjectFacets) :
    (object declare path f key value).Yields (KeepsKind (.object f)) := by
  unfold object
  split
  case h_1 => exact .next fun _ => .next fun _ => .pure (keepsKind_some rfl)
  case h_6 => exact .pure (keepsKind_some rfl)
  case h_7 => exact .pure (keepsKind_none _)
  all_goals exact .next fun _ => .pure (keepsKind_some rfl)

/-- So one facet keeps the kind of any body. -/
theorem applyOne_kind (body : Body) :
    (applyOne declare path owner body key value).Yields (KeepsKind body) := by
  have map {α : Type} {x : Load (Option α)} {f : α → Body} (hf : ∀ a, (f a).kind = body.kind) :
      (x >>= fun o => Pure.pure (o.map f)).Yields (KeepsKind body) := by
    refine .next fun o => .pure ?_
    cases o with
    | none => exact keepsKind_none _
    | some a => exact keepsKind_some (hf a)
  cases body with
  | string f => exact string_kind path owner key value f
  | array f => exact array_kind declare path owner key value f
  | object f => exact object_kind declare path key value f
  | integer f => exact map fun _ => rfl
  | number f => exact map fun _ => rfl
  | file f => exact map fun _ => rfl
  | boolean values =>
    unfold applyOne
    dsimp only
    split
    · exact .next fun _ => .pure (keepsKind_some rfl)
    · exact .pure (keepsKind_none _)
  | datetime format =>
    unfold applyOne
    dsimp only
    split
    · exact .next fun _ => .pure (keepsKind_some rfl)
    · exact .pure (keepsKind_none _)
  | union ms =>
    unfold applyOne
    dsimp only
    split
    · exact .next fun _ => .next fun _ => .pure (keepsKind_some rfl)
    · exact .pure (keepsKind_none _)
  | _ => exact .pure (keepsKind_none _)

/-- Applying facets leaves the kind of a body. -/
theorem apply_kind (body : Body) (facets : List (String × Node)) :
    (apply declare path owner body facets).Yields fun r => r.1.kind = body.kind := by
  have from' : ∀ (facets : List (String × Node)) (body : Body) (left : Dict String Node),
      (applyFrom declare path owner body left facets).Yields fun r => r.1.kind = body.kind := by
    intro facets
    induction facets with
    | nil => exact fun _ _ => .pure rfl
    | cons entry rest ih =>
      intro body left
      refine .bind (applyOne_kind declare path owner entry.1 entry.2 body) fun o ho => ?_
      cases o with
      | none => exact ih body _
      | some b => exact ho b rfl ▸ ih b left
  exact from' facets body []

end Facets

/-- A body is resolved or not as its kind says. -/
theorem Body.pending_eq_none_iff {b : Body} : b.pending? = none ↔ b.kind ≠ .unknown := by
  cases b <;> simp [Body.pending?, Body.kind]

end RamlTypes
