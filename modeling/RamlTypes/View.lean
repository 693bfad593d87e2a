import RamlTypes.Json.Basic
import RamlTypes.Shape.Basic

/-!
# Views of shapes

A view is the tree of a shape and all that it contains: items, properties and members. A shape that
is already being expanded higher up is only referred to by its number, so the tree is finite.
-/

namespace RamlTypes

inductive View where
  /-- A shape that is expanded higher up. -/
  | reference (id : ShapeId)
  | expanded (id : ShapeId) (shape : Shape) (items : Option View) (properties : List (String × View))
      (members : List View)

namespace View

/-- An action that keeps the set of the shapes that are being expanded. -/
abbrev Expanding (α : Type) := StateM (List ShapeId) α

/-- The view of a shape that another one contains: a shape that is being expanded is only referred
to. -/
def nested (expand : ShapeId → Expanding View) (id : ShapeId) : Expanding View := do
  if id ∈ (← get) then return .reference id else expand id

/-- The view of a shape, expanded to at most `n` levels. The shape belongs to those that are being
expanded for as long as its parts are. -/
def expand (shapes : Array Shape) : Nat → ShapeId → Expanding View
  | 0, id => return .reference id
  | n + 1, id =>
    match shapes[id]? with
    | none => return .reference id
    | some shape => do
      modify (List.insert id)
      let items ← shape.body.items?.mapM (nested (expand shapes n))
      let properties ← shape.body.properties.mapM fun p =>
        return (p.1, ← nested (expand shapes n) p.2)
      let members ← shape.body.members.mapM (nested (expand shapes n))
      modify (List.erase · id)
      return .expanded id shape items properties members

/-- The view of a shape. No path of the tree expands a shape twice, so it has no more levels than
there are shapes. -/
def ofShape (shapes : Array Shape) (id : ShapeId) : View :=
  ((expand shapes (shapes.size + 1) id).run []).1

/-- An example in a view: its name and its media type, if it has them, and its value. -/
def exampleJson (e : Example) : Json :=
  .sorted (Json.field? "name" .str e.name ++ Json.field? "mime" .str e.mime?
    ++ [("value", (e.effectiveValue?.map Node.toJson).getD .null)])

/-- An entry for a dictionary, left out when the dictionary is empty. -/
def dictField {α : Type} (key : String) (encode : α → Json) (d : Dict String α) :
    List (String × Json) :=
  if d.isEmpty then [] else [(key, .obj (d.map fun entry => (entry.1, encode entry.2)))]

/-- An entry for the facets, left out when there are none. -/
def facetsField (b : Body) : List (String × Json) :=
  match b.facetsJson with
  | .obj [] => []
  | facets => [("facets", facets)]

/-- The fields of a shape before those that are views. -/
def fieldsBefore (id : ShapeId) (s : Shape) : List (String × Json) :=
  [("id", .int id), ("name", .str s.name), ("kind", .str s.kind.name)]
    ++ Json.field? "typeDeclaration" .str s.declaration
    ++ Json.field? "displayName" .str s.displayName
    ++ Json.field? "description" .str s.description
    ++ Json.field? "required" .bool s.required
    ++ Json.field? "default" Node.toJson s.default
    ++ Json.listField "inherits" (fun id : ShapeId => .int id) s.inherits
    ++ facetsField s.body

/-- The fields of a shape after those that are views. -/
def fieldsAfter (s : Shape) : List (String × Json) :=
  dictField "customFacets" Node.toJson s.customFacets
    ++ dictField "annotations" (fun a : AnnotationUse => a.value.toJson) s.annotations
    ++ Json.listField "examples" exampleJson s.examples

mutual

/-- A view as JSON. The fields have a fixed order, and empty ones are left out. -/
def toJson : View → Json
  | .reference id => .obj [("$ref", .int id)]
  | .expanded id shape items properties members =>
    .obj (fieldsBefore id shape
      ++ itemsJson items
      ++ (if properties.isEmpty then [] else [("properties", .obj (propertiesJson properties))])
      ++ (if members.isEmpty then [] else [("anyOf", .arr (membersJson members))])
      ++ fieldsAfter shape)

/-- The field for the items of an array. -/
def itemsJson : Option View → List (String × Json)
  | none => []
  | some v => [("items", toJson v)]

/-- The properties of an object as JSON. -/
def propertiesJson : List (String × View) → List (String × Json)
  | [] => []
  | (name, v) :: rest => (name, toJson v) :: propertiesJson rest

/-- The members of a union as JSON. -/
def membersJson : List View → List Json
  | [] => []
  | v :: rest => toJson v :: membersJson rest

end

end View

end RamlTypes
