import RamlTypes.Proofs.Displacement
import RamlTypes.Proofs.Facets.Values
import RamlTypes.Proofs.Merging

/-!
# What applying facets means

Every kind owns some facets. Most of them have one value, of which the last one in the declaration
counts. The properties of an object and the members of a union add up, and what a kind does not own
is left over. `Facets.Applied` says how the body and the left-over facets before and after an
application are related, for any list of facets.
-/

namespace RamlTypes

/-! ## The facets of a kind -/

namespace Kind

/-- The facets of a kind that have one value. -/
def singleFacets : Kind → List String
  | string => ["minLength", "maxLength", "pattern", "enum"]
  | integer => ["minimum", "maximum", "format", "enum"]
  | number => ["minimum", "maximum", "multipleOf", "format", "enum"]
  | boolean => ["enum"]
  | datetime => ["format"]
  | file => ["minLength", "maxLength", "fileTypes"]
  | array => ["items", "minItems", "maxItems", "uniqueItems"]
  | object =>
    ["additionalProperties", "minProperties", "maxProperties", "discriminator",
      "discriminatorValue"]
  | any | nil | datetimeOnly | dateOnly | timeOnly | union | json | unknown => []

/-- The facets of a kind of which every occurrence adds something. -/
def addedFacets : Kind → List String
  | object => ["properties"]
  | union => ["anyOf"]
  | _ => []

/-- The facets that a kind owns. -/
def ownFacets (k : Kind) : List String := k.singleFacets ++ k.addedFacets

/-- A facet with a single value is one that the kind owns. -/
theorem mem_ownFacets_of_single {k : Kind} {key : String} (h : key ∈ k.singleFacets) :
    key ∈ k.ownFacets :=
  List.mem_append_left _ h

/-- Properties are no single value. -/
theorem properties_not_single (k : Kind) : "properties" ∉ k.singleFacets := by
  cases k <;> decide

/-- Nor are the members of a union. -/
theorem anyOf_not_single (k : Kind) : "anyOf" ∉ k.singleFacets := by
  cases k <;> decide

end Kind

/-- The value of a facet that has one value. -/
inductive FacetValue where
  | count (n : Nat)
  | flag (b : Bool)
  | double (x : Binary64)
  | text (t : String)
  | texts (ts : List String)
  | node (n : Node)
  | nodes (ns : List Node)
  | shape (i : ShapeId)

section
variable (key : String)

/-- The single values of a string. -/
def StringFacets.single? (f : StringFacets) : Option FacetValue :=
  match key with
  | "minLength" => f.minLength.map .count
  | "maxLength" => f.maxLength.map .count
  | "pattern" => f.pattern.map .text
  | "enum" => f.values.map .nodes
  | _ => none

/-- The single values of a number or an integer. -/
def NumberFacets.single? (f : NumberFacets) : Option FacetValue :=
  match key with
  | "minimum" => f.minimum.map .double
  | "maximum" => f.maximum.map .double
  | "multipleOf" => f.multipleOf.map .double
  | "format" => f.format.map .text
  | "enum" => f.values.map .nodes
  | _ => none

/-- The single values of a file. -/
def FileFacets.single? (f : FileFacets) : Option FacetValue :=
  match key with
  | "minLength" => f.minLength.map .count
  | "maxLength" => f.maxLength.map .count
  | "fileTypes" => some (.texts f.fileTypes)
  | _ => none

/-- The single values of an array. -/
def ArrayFacets.single? (f : ArrayFacets) : Option FacetValue :=
  match key with
  | "items" => f.items.map .shape
  | "minItems" => f.minItems.map .count
  | "maxItems" => f.maxItems.map .count
  | "uniqueItems" => f.uniqueItems.map .flag
  | _ => none

/-- The single values of an object. -/
def ObjectFacets.single? (f : ObjectFacets) : Option FacetValue :=
  match key with
  | "additionalProperties" => f.additionalProperties.map .flag
  | "minProperties" => f.minProperties.map .count
  | "maxProperties" => f.maxProperties.map .count
  | "discriminator" => f.discriminator.map .text
  | "discriminatorValue" => f.discriminatorValue.map .node
  | _ => none

/-- The value that a body has for a facet. -/
def Body.single? (b : Body) : Option FacetValue :=
  match b with
  | .string f => f.single? key
  | .integer f | .number f => f.single? key
  | .file f => f.single? key
  | .array f => f.single? key
  | .object f => f.single? key
  | .boolean values => if key = "enum" then values.map .nodes else none
  | .datetime format => if key = "format" then format.map .text else none
  | _ => none

end

/-- A body of the kind `k` has no facets. A file has no file types. -/
structure Body.Bare (k : Kind) (b : Body) : Prop where
  kind : b.kind = k
  single : ∀ key, b.single? key = none ∨ b.single? key = some (.texts [])
  properties : b.properties = []
  members : b.members = []

/-- The body that a kind has without any facet has none. -/
theorem Body.bare_of_empty? {k : Kind} {b : Body} (h : empty? k = some b) : b.Bare k := by
  have hsingle (key : String) : b.single? key = none ∨ b.single? key = some (.texts []) := by
    cases k with
    | any | nil | datetimeOnly | dateOnly | timeOnly | union =>
      cases h
      exact .inl rfl
    | json | unknown => cases h
    | string | integer | number | boolean | datetime | file | array | object =>
      cases h
      simp only [single?, arrayOf, StringFacets.single?, NumberFacets.single?, FileFacets.single?,
        ArrayFacets.single?, ObjectFacets.single?]
      split <;> simp
  cases k <;> cases h <;> exact ⟨rfl, hsingle, rfl, rfl⟩

/-- Without its facets, a body that is no unresolved declaration has none. -/
theorem Body.bare_blank {b : Body} (h : b.kind ≠ .unknown) : b.blank.Bare b.kind := by
  cases b with
  | json schema => exact ⟨rfl, fun _ => .inl rfl, rfl, rfl⟩
  | unknown p => exact absurd rfl h
  | _ => exact bare_of_empty? rfl

/-- A JSON schema stays. -/
theorem Body.blank_of_json {b : Body} (h : b.kind = .json) : b.blank = b := by
  rw [blank, h]
  rfl

/-- An object without properties and other facets is the empty one. -/
theorem Body.empty?_of_object {b : Body} (hkind : b.kind = .object) (hproperties : b.properties = [])
    (hsingle : ∀ key ∈ Kind.object.singleFacets, b.single? key = none) :
    Body.empty? .object = some b := by
  cases b with
  | object f =>
    obtain ⟨properties, additional, least, most, discriminator, value⟩ := f
    have hadditional := Option.map_eq_none_iff.1 (hsingle "additionalProperties" (by decide))
    have hleast := Option.map_eq_none_iff.1 (hsingle "minProperties" (by decide))
    have hmost := Option.map_eq_none_iff.1 (hsingle "maxProperties" (by decide))
    have hdiscriminator := Option.map_eq_none_iff.1 (hsingle "discriminator" (by decide))
    have hvalue := Option.map_eq_none_iff.1 (hsingle "discriminatorValue" (by decide))
    cases hproperties
    cases hadditional
    cases hleast
    cases hmost
    cases hdiscriminator
    cases hvalue
    rfl
  | _ => cases hkind

/-- An optional property is required just if it says so. -/
theorem Shape.optional_eq (a : Shape) :
    a.optional = { a with required := some (a.required.getD false) } := by
  rw [optional, ← Option.or_some]

namespace Facets

/-! ## Shapes that are stored meanwhile -/

/-- A reader of declarations stores the shape of a declaration in a new place, and leaves alone the
shapes that are there. -/
structure Stores (declare : Declare) : Prop where
  extended {name node s i t} : declare name node s = (.ok i, t) → s.Extends t
  fresh {name node s i t} : declare name node s = (.ok i, t) →
    s.shapes.size ≤ i ∧ i < t.shapes.size

section
variable (declare : Declare) (owner : String)

/-- Between the stores `s` and `t` the declaration `node` of `name` has been read, and its shape has
got the number `i`. In `t` it is what `change` makes of it. -/
def Stored (change : Shape → Shape) (s t : Store) (name : String) (node : Node) (i : ShapeId) :
    Prop :=
  s.shapes.size ≤ i ∧ ∃ m m' a, s.Extends m ∧ declare name node m = (.ok i, m') ∧
    m'.shapes[i]? = some a ∧ m'.Grows t ∧ t.shapes[i]? = some (change a)

/-- Between the stores `s` and `t` the value of a facet has been read. It is what the node holds, or the
shape that the node declares. -/
inductive Reads (s t : Store) : String → Node → FacetValue → Prop
  | count {key : String} {value : Node} {n : Nat}
      (hkey : key ∈ ["minLength", "maxLength", "minItems", "maxItems", "minProperties",
        "maxProperties"])
      (h : value.HasCount n) : Reads s t key value (.count n)
  | flag {key : String} {value : Node} {b : Bool}
      (hkey : key ∈ ["uniqueItems", "additionalProperties"])
      (h : value.HasFlag b) : Reads s t key value (.flag b)
  | double {key : String} {value : Node} {x : Binary64}
      (hkey : key ∈ ["minimum", "maximum", "multipleOf"])
      (h : value.double? = some x) : Reads s t key value (.double x)
  | text {key : String} {value : Node} {text : String}
      (hkey : key ∈ ["pattern", "format", "discriminator"])
      (h : value.HasText text) : Reads s t key value (.text text)
  | texts {value : Node} {texts : List String} (h : value.HasTexts texts) :
      Reads s t "fileTypes" value (.texts texts)
  | node (value : Node) : Reads s t "discriminatorValue" value (.node value)
  | nodes {value : Node} {nodes : List Node} (h : value.HasItems nodes) :
      Reads s t "enum" value (.nodes nodes)
  | shape {value : Node} {i : ShapeId} (h : Stored declare id s t owner value i) :
      Reads s t "items" value (.shape i)

/-- Between the stores `s` and `t` a property has been declared. If a question mark follows its name it
is not required, unless it says itself whether it is. Otherwise it is as it says. -/
def Declares (s t : Store) (entry : String × Node) (property : String × ShapeId) : Prop :=
  (entry.1 = property.1 ++ "?" ∧
    Stored declare (fun a => { a with required := some (a.required.getD false) }) s t property.1
      entry.2 property.2) ∨
  ((∀ name, entry.1 ≠ name ++ "?") ∧ entry.1 = property.1 ∧
    Stored declare id s t property.1 entry.2 property.2)

/-- The application of `facets` to a body, beside facets that were left over before: it starts with
`start` in the store `s`, and ends with `result` in the store `t`. -/
structure Applied (s : Store) (start : Body × Dict String Node) (facets : List (String × Node))
    (result : Body × Dict String Node) (t : Store) : Prop where
  extended : s.Extends t
  kind : result.1.kind = start.1.kind
  /-- The last occurrence of a facet with one value counts. -/
  single : ∀ key ∈ start.1.kind.singleFacets, ∀ value ∈ (Dict.valuesOf key facets).getLast?,
    ∃ v, Reads declare owner s t key value v ∧ result.1.single? key = some v
  /-- A facet without any occurrence has the value that it had. -/
  unchanged : ∀ key, (key ∈ start.1.kind.singleFacets → Dict.valuesOf key facets = []) →
    result.1.single? key = start.1.single? key
  /-- The properties are merged with those that there were. -/
  properties : start.1.kind = .object → ∃ sections declared,
    List.Forall₂ Node.HasEntries (Dict.valuesOf "properties" facets) sections ∧
    List.Forall₂ (Declares declare s t) sections.flatten declared ∧
    Dict.Merges start.1.properties declared result.1.properties
  /-- The members follow those that there were. -/
  members : start.1.kind = .union → ∃ lists ids,
    List.Forall₂ Node.HasItems (Dict.valuesOf "anyOf" facets) lists ∧
    List.Forall₂ (Stored declare id s t owner) lists.flatten ids ∧
    result.1.members = start.1.members ++ ids
  /-- A kind without facets keeps its body. -/
  same : start.1.kind.ownFacets = [] → result.1 = start.1
  /-- What the kind does not own is left over. -/
  left : Dict.Merges start.2 (facets.filter (·.1 ∉ start.1.kind.ownFacets)) result.2

end

end Facets

end RamlTypes
