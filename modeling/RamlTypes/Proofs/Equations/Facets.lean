import RamlTypes.Proofs.Yields

/-!
# What the facets of a declaration leave of a body

A facet that is applied to a body changes what it names and nothing else. So a body and the one that
it becomes agree up to the named facets (`Resolution.overlay_forget`).
-/

namespace RamlTypes

namespace Body

/-- The facet of a given name, unless the name is among `keys`. -/
def unlessNamed {α : Type} (keys : List String) (key : String) (absent facet : α) : α :=
  if key ∈ keys then absent else facet

section
variable (keys : List String)

/-- The facets of a string but for those that are named. -/
def forgetString (f : StringFacets) : StringFacets where
  minLength := unlessNamed keys "minLength" none f.minLength
  maxLength := unlessNamed keys "maxLength" none f.maxLength
  pattern := unlessNamed keys "pattern" none f.pattern
  values := unlessNamed keys "enum" none f.values

/-- The facets of a number but for those that are named. -/
def forgetNumber (f : NumberFacets) : NumberFacets where
  minimum := unlessNamed keys "minimum" none f.minimum
  maximum := unlessNamed keys "maximum" none f.maximum
  multipleOf := unlessNamed keys "multipleOf" none f.multipleOf
  format := unlessNamed keys "format" none f.format
  values := unlessNamed keys "enum" none f.values

/-- The facets of a file but for those that are named. -/
def forgetFile (f : FileFacets) : FileFacets where
  minLength := unlessNamed keys "minLength" none f.minLength
  maxLength := unlessNamed keys "maxLength" none f.maxLength
  fileTypes := unlessNamed keys "fileTypes" [] f.fileTypes

/-- The facets of an array but for those that are named. -/
def forgetArray (f : ArrayFacets) : ArrayFacets where
  items := unlessNamed keys "items" none f.items
  minItems := unlessNamed keys "minItems" none f.minItems
  maxItems := unlessNamed keys "maxItems" none f.maxItems
  uniqueItems := unlessNamed keys "uniqueItems" none f.uniqueItems

/-- The facets of an object but for those that are named. -/
def forgetObject (f : ObjectFacets) : ObjectFacets where
  properties := unlessNamed keys "properties" [] f.properties
  additionalProperties := unlessNamed keys "additionalProperties" none f.additionalProperties
  minProperties := unlessNamed keys "minProperties" none f.minProperties
  maxProperties := unlessNamed keys "maxProperties" none f.maxProperties
  discriminator := unlessNamed keys "discriminator" none f.discriminator
  discriminatorValue := unlessNamed keys "discriminatorValue" none f.discriminatorValue

/-- The body without the facets that are named. Two bodies of which this is the same have one kind
and agree in every facet that is not named. -/
def forget : Body → Body
  | string f => .string (forgetString keys f)
  | integer f => .integer (forgetNumber keys f)
  | number f => .number (forgetNumber keys f)
  | file f => .file (forgetFile keys f)
  | array f => .array (forgetArray keys f)
  | object f => .object (forgetObject keys f)
  | boolean values => .boolean (unlessNamed keys "enum" none values)
  | datetime format => .datetime (unlessNamed keys "format" none format)
  | union members => .union (unlessNamed keys "anyOf" [] members)
  | b => b

/-- A body keeps its kind when facets are forgotten. -/
theorem forget_kind (b : Body) : (b.forget keys).kind = b.kind := by
  cases b <;> rfl

/-- Bodies of which the same is left have one kind. -/
theorem kind_of_forget {b c : Body} (h : b.forget keys = c.forget keys) : b.kind = c.kind := by
  rw [← forget_kind keys b, h, forget_kind]

end

end Body

namespace Facets

open Load (Yields)

variable (declare : Declare) (path : Path) (owner key : String) (value : Node) {keys : List String}

/-- A facet that belongs to a body leaves all that is not named. -/
abbrev KeepsRest (keys : List String) (body : Body) (o : Option Body) : Prop :=
  ∀ b ∈ o, b.forget keys = body.forget keys

/-- No new body leaves the other facets. -/
theorem keepsRest_none (body : Body) : KeepsRest keys body none := fun _ h => nomatch h

/-- A body that differs in the keys only keeps the rest. -/
theorem keepsRest_some {body b : Body} (h : b.forget keys = body.forget keys) :
    KeepsRest keys body (some b) :=
  fun _ hb => Option.some.inj hb ▸ h

section
variable (hkey : key ∈ keys)
include hkey

/-- One facet of a string leaves the other ones. -/
theorem string_rest (f : StringFacets) :
    (string path owner f key value).Yields (KeepsRest keys (.string f)) := by
  unfold string
  split
  case h_5 => exact .pure (keepsRest_none _)
  all_goals
    refine .next fun _ => .pure (keepsRest_some ?_)
    simp [Body.forget, Body.forgetString, Body.unlessNamed, hkey]

/-- So does one of a number or an integer. -/
theorem number_rest (isInteger : Bool) (f : NumberFacets) {g : NumberFacets}
    (h : number path isInteger f key value = .ok (some g)) :
    Body.forgetNumber keys g = Body.forgetNumber keys f := by
  unfold number at h
  split at h
  case h_3 =>
    split at h
    · cases h
    · obtain ⟨x, -, h⟩ := exists_ok_of_bind h
      cases h
      simp [Body.forgetNumber, Body.unlessNamed, hkey]
  case h_6 => cases h
  all_goals
    obtain ⟨x, -, h⟩ := exists_ok_of_bind h
    cases h
    simp [Body.forgetNumber, Body.unlessNamed, hkey]

/-- So does one of a file. -/
theorem file_rest (f : FileFacets) {g : FileFacets} (h : file path f key value = .ok (some g)) :
    Body.forgetFile keys g = Body.forgetFile keys f := by
  unfold file at h
  split at h
  case h_4 => cases h
  all_goals
    obtain ⟨x, -, h⟩ := exists_ok_of_bind h
    cases h
    simp [Body.forgetFile, Body.unlessNamed, hkey]

/-- So does one of an array. -/
theorem array_rest (f : ArrayFacets) :
    (array declare path owner f key value).Yields (KeepsRest keys (.array f)) := by
  unfold array
  split
  case h_5 => exact .pure (keepsRest_none _)
  all_goals
    refine .next fun _ => .pure (keepsRest_some ?_)
    simp [Body.forget, Body.forgetArray, Body.unlessNamed, hkey]

/-- So does one of an object. -/
theorem object_rest (f : ObjectFacets) :
    (object declare path f key value).Yields (KeepsRest keys (.object f)) := by
  unfold object
  split
  case h_1 =>
    refine .next fun _ => .next fun _ => .pure (keepsRest_some ?_)
    simp [Body.forget, Body.forgetObject, Body.unlessNamed, hkey]
  case h_6 =>
    refine .pure (keepsRest_some ?_)
    simp [Body.forget, Body.forgetObject, Body.unlessNamed, hkey]
  case h_7 => exact .pure (keepsRest_none _)
  all_goals
    refine .next fun _ => .pure (keepsRest_some ?_)
    simp [Body.forget, Body.forgetObject, Body.unlessNamed, hkey]

/-- So one facet changes only what its key stands for, in any body. -/
theorem applyOne_rest (body : Body) :
    (applyOne declare path owner body key value).Yields (KeepsRest keys body) := by
  have map {α : Type} {e : Except PlainFault (Option α)} {f : α → Body}
      (hf : ∀ a, e = .ok (some a) → (f a).forget keys = body.forget keys) :
      (Load.ofExcept e >>= fun o => Pure.pure (o.map f)).Yields (KeepsRest keys body) := by
    rcases e with fault | _ | a
    · exact .fail fault
    · exact .pure (keepsRest_none _)
    · exact .pure (keepsRest_some (hf a rfl))
  have guarded {name : String} {x : Load (Option Body)}
      (hx : key = name → x.Yields (KeepsRest keys body)) :
      (if key = name then x else Pure.pure none : Load (Option Body)).Yields (KeepsRest keys body) := by
    split
    · next heq => exact hx heq
    · exact .pure (keepsRest_none _)
  cases body with
  | string f => exact string_rest path owner key value hkey f
  | array f => exact array_rest declare path owner key value hkey f
  | object f => exact object_rest declare path key value hkey f
  | integer f => exact map fun g h => congrArg Body.integer (number_rest path key value hkey true f h)
  | number f => exact map fun g h => congrArg Body.number (number_rest path key value hkey false f h)
  | file f => exact map fun g h => congrArg Body.file (file_rest path key value hkey f h)
  | boolean values =>
    refine guarded fun heq => .next fun _ => .pure (keepsRest_some ?_)
    simp [Body.forget, Body.unlessNamed, heq ▸ hkey]
  | datetime format =>
    refine guarded fun heq => .next fun _ => .pure (keepsRest_some ?_)
    simp [Body.forget, Body.unlessNamed, heq ▸ hkey]
  | union ms =>
    refine guarded fun heq => .next fun _ => .next fun _ => .pure (keepsRest_some ?_)
    simp [Body.forget, Body.unlessNamed, heq ▸ hkey]
  | _ => exact .pure (keepsRest_none _)

end

/-- Applying facets leaves all of a body that they do not name. -/
theorem applyFrom_rest (facets : List (String × Node)) (h : ∀ f ∈ facets, f.1 ∈ keys) :
    ∀ (body : Body) (left : Dict String Node), (applyFrom declare path owner body left facets).Yields
      fun r => r.1.forget keys = body.forget keys := by
  induction facets with
  | nil => exact fun _ _ => .pure rfl
  | cons entry rest ih =>
    intro body left
    have hrest := ih fun f hf => h f (List.mem_cons_of_mem _ hf)
    refine .bind (applyOne_rest declare path owner entry.1 entry.2 (h _ List.mem_cons_self) body)
      fun o ho => ?_
    cases o with
    | none => exact hrest body _
    | some b => exact ho b rfl ▸ hrest b left

end Facets

/-- The names of the raw facets. -/
def Pending.keys (p : Pending) : List String := p.facets.map (·.1)

/-- The raw facets of a declaration leave the kind of a body, and all that they do not name. -/
theorem Resolution.overlay_forget (o : Owner) (body : Body) (p : Pending) :
    (overlay o body p.facets).Yields fun r => r.1.forget p.keys = body.forget p.keys := by
  unfold overlay
  split
  · exact .pure rfl
  · exact Facets.applyFrom_rest _ _ _ _ (fun f hf => List.mem_map_of_mem hf) body []

end RamlTypes
