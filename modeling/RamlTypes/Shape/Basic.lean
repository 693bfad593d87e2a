import RamlTypes.Kind
import RamlTypes.Node.Basic
import RamlTypes.Path

/-!
# Shapes

A shape is one declared data type: an envelope that all types have, and a body that carries the
facets of its kind. Shapes refer to each other by number, so that resolving a shape changes what
all its users see.
-/

namespace RamlTypes

/-- The number of a shape in the store. -/
abbrev ShapeId := Nat

/-- The facets of a string. -/
structure StringFacets where
  minLength : Option Nat
  maxLength : Option Nat
  pattern : Option String
  values : Option (List Node)

/-- The facets of integers and numbers; integers have no `multipleOf`. -/
structure NumberFacets where
  minimum : Option Binary64
  maximum : Option Binary64
  multipleOf : Option Binary64
  format : Option String
  values : Option (List Node)

/-- The facets of a file. -/
structure FileFacets where
  minLength : Option Nat
  maxLength : Option Nat
  fileTypes : List String

/-- The facets of an array. -/
structure ArrayFacets where
  items : Option ShapeId
  minItems : Option Nat
  maxItems : Option Nat
  uniqueItems : Option Bool

/-- The facets of an object. -/
structure ObjectFacets where
  properties : Dict String ShapeId
  additionalProperties : Option Bool
  minProperties : Option Nat
  maxProperties : Option Nat
  discriminator : Option String
  discriminatorValue : Option Node

/-- How an unresolved shape is declared. -/
inductive Declared where
  /-- By a type expression. -/
  | expression (text : String)
  /-- By a list of parents, which the shape inherits. -/
  | parents
  /-- By an include; the shape has the link. -/
  | link

/-- A declaration that is not resolved yet, with its facets in document order. -/
structure Pending where
  declared : Declared
  facets : List (String × Node)

/-- What a shape holds beside its envelope. -/
inductive Body where
  | any
  | nil
  | object (facets : ObjectFacets)
  | array (facets : ArrayFacets)
  | string (facets : StringFacets)
  | integer (facets : NumberFacets)
  | number (facets : NumberFacets)
  | boolean (values : Option (List Node))
  | datetime (format : Option String)
  | datetimeOnly
  | dateOnly
  | timeOnly
  | file (facets : FileFacets)
  | union (members : List ShapeId)
  | json (schema : String)
  | unknown (pending : Pending)

namespace Body

/-- The kind of a body, without its facets. -/
def kind : Body → Kind
  | any => .any
  | nil => .nil
  | object _ => .object
  | array _ => .array
  | string _ => .string
  | integer _ => .integer
  | number _ => .number
  | boolean _ => .boolean
  | datetime _ => .datetime
  | datetimeOnly => .datetimeOnly
  | dateOnly => .dateOnly
  | timeOnly => .timeOnly
  | file _ => .file
  | union _ => .union
  | json _ => .json
  | unknown _ => .unknown

/-- An array of given items. -/
def arrayOf (items : Option ShapeId) : Body :=
  .array ⟨items, none, none, none⟩

/-- The body of a kind without any facet. A JSON schema and an unresolved declaration have none. -/
def empty? : Kind → Option Body
  | .any => some .any
  | .nil => some .nil
  | .object => some (.object ⟨[], none, none, none, none, none⟩)
  | .array => some (arrayOf none)
  | .string => some (.string ⟨none, none, none, none⟩)
  | .integer => some (.integer ⟨none, none, none, none, none⟩)
  | .number => some (.number ⟨none, none, none, none, none⟩)
  | .boolean => some (.boolean none)
  | .datetime => some (.datetime none)
  | .datetimeOnly => some .datetimeOnly
  | .dateOnly => some .dateOnly
  | .timeOnly => some .timeOnly
  | .file => some (.file ⟨none, none, []⟩)
  | .union => some (.union [])
  | .json | .unknown => none

/-- The body without its facets; a JSON schema and an unresolved declaration stay. -/
def blank (b : Body) : Body :=
  (empty? b.kind).getD b

/-- What a body waits with that is not resolved yet. -/
def pending? : Body → Option Pending
  | .unknown p => some p
  | _ => none

/-- The items of an array. -/
def items? : Body → Option ShapeId
  | .array f => f.items
  | _ => none

/-- The properties of an object. -/
def properties : Body → Dict String ShapeId
  | .object f => f.properties
  | _ => []

/-- The members of a union. -/
def members : Body → List ShapeId
  | .union ms => ms
  | _ => []

/-- A list of nodes as JSON. -/
def nodesJson (nodes : List Node) : Json :=
  .arr (Node.itemsJson nodes)

/-- A count, as it is printed. -/
def countJson (n : Nat) : Json := .int n

/-- The facets as JSON, without those that are shapes. Absent facets are left out. -/
def facetsJson : Body → Json
  | .object f => .sorted
    (Json.field? "additionalProperties" .bool f.additionalProperties
      ++ Json.field? "minProperties" countJson f.minProperties
      ++ Json.field? "maxProperties" countJson f.maxProperties
      ++ Json.field? "discriminator" .str f.discriminator
      ++ Json.field? "discriminatorValue" Node.toJson f.discriminatorValue)
  | .array f => .sorted
    (Json.field? "minItems" countJson f.minItems
      ++ Json.field? "maxItems" countJson f.maxItems
      ++ Json.field? "uniqueItems" .bool f.uniqueItems)
  | .string f => .sorted
    (Json.field? "minLength" countJson f.minLength
      ++ Json.field? "maxLength" countJson f.maxLength
      ++ Json.field? "pattern" .str f.pattern
      ++ Json.field? "enum" nodesJson f.values)
  | .integer f | .number f => .sorted
    (Json.field? "minimum" Json.ofDouble f.minimum
      ++ Json.field? "maximum" Json.ofDouble f.maximum
      ++ Json.field? "multipleOf" Json.ofDouble f.multipleOf
      ++ Json.field? "format" .str f.format
      ++ Json.field? "enum" nodesJson f.values)
  | .boolean values => .sorted (Json.field? "enum" nodesJson values)
  | .datetime format => .sorted (Json.field? "format" .str format)
  | .file f => .sorted
    (Json.field? "minLength" countJson f.minLength
      ++ Json.field? "maxLength" countJson f.maxLength
      ++ Json.listField "fileTypes" .str f.fileTypes)
  | .json schema => .sorted [("schema", .str schema)]
  | _ => .obj []

end Body

/-- An annotation on a type, an example or a library. -/
structure AnnotationUse where
  name : String
  value : Node
  /-- The shape of the annotation type, once the annotation is bound. -/
  definedBy : Option ShapeId
  location : Path
  mark : Mark

/-- An example that is a whole file. -/
structure ExampleFile where
  path : Path
  mime : String
  value : Node

/-- An example of a type. -/
structure Example where
  id : String
  name : Option String
  displayName : Option String
  description : Option String
  strict : Option Bool
  value : Option Node
  location : Path
  annotations : Dict String AnnotationUse
  /-- The file of an example that is included. -/
  link : Option ExampleFile

namespace Example

/-- The media type of an example that has been read from a file. -/
def mime? (e : Example) : Option String :=
  e.link.map (·.mime)

/-- The value, or that of the included file. -/
def effectiveValue? (e : Example) : Option Node :=
  e.value.or (e.link.map (·.value))

end Example

/-- The JSON of a node that is a collection. -/
def Node.structured? (n : Node) : Option Json :=
  if n.isCollection then some n.toJson else none

/-- A type: where it is declared, what is declared of it, and what it turned out to be. -/
structure Shape where
  id : ShapeId
  name : String
  location : Path
  mark : Mark
  displayName : Option String
  description : Option String
  /-- The type as it was declared. -/
  declaration : Option String
  inherits : List ShapeId
  default : Option Node
  required : Option Bool
  examples : List Example
  customFacets : Dict String Node
  facetDefinitions : Dict String ShapeId
  annotations : Dict String AnnotationUse
  /-- The file of a type that is declared by an include. -/
  link : Option Path
  body : Body

namespace Shape

/-- A shape with nothing but a name, a place and a body. -/
def plain (name : String) (location : Path) (mark : Mark) (body : Body) : Shape where
  id := 0
  name := name
  location := location
  mark := mark
  displayName := none
  description := none
  declaration := none
  inherits := []
  default := none
  required := none
  examples := []
  customFacets := []
  facetDefinitions := []
  annotations := []
  link := none
  body := body

/-- The kind of the body of a shape. -/
def kind (s : Shape) : Kind := s.body.kind

/-- The shape of an optional property, which may say itself that it is required. -/
def optional (s : Shape) : Shape := { s with required := s.required.or (some false) }

/-- Whether a shape is not resolved yet. -/
def isUnknown (s : Shape) : Bool := s.body.pending?.isSome

end Shape

end RamlTypes
