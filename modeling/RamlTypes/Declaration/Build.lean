import RamlTypes.Declaration.Example
import RamlTypes.Declaration.Facets
import RamlTypes.Shape.Sniff

/-!
# Declarations

`Declaration.build` reads a declaration and stores its shape. Some keys belong to the envelope of a
shape; the others are raw facets. Where the type is a built-in kind, or is missing, the facets are
applied at once. Where it is an expression, a list of parents or an include, they wait in the body
until the shape is resolved.
-/

namespace RamlTypes.Declaration

/-- What the reading of a declaration depends on. -/
structure Context where
  /-- The file that holds the declaration. -/
  path : Path
  /-- Loads the data type of an include. -/
  loadType : Path → Load Unit
  /-- Reads a declaration inside the declaration. -/
  declare : Facets.Declare

/-- What is read of a mapping. -/
structure Draft where
  shape : Shape
  raw : List (String × Node)
  type : Option Node

/-- How a declaration is to be completed. -/
inductive Plan where
  /-- There is no type: the kind follows from the facets. -/
  | sniff
  | concrete (body : Body)
  | json (schema : String)
  | pending (declared : Declared)

variable (c : Context)

/-- Declares the types of custom facets. -/
def facetDefinitions : Dict String ShapeId → List (String × Node) → Load (Dict String ShapeId)
  | known, [] => return known
  | known, (name, value) :: rest => do
    let id ← c.declare name value
    facetDefinitions (Dict.put name id known) rest

/-- Reads named examples. -/
def examples (owner : String) : List Example → List (String × Node) → Load (List Example)
  | known, [] => return known
  | known, (name, value) :: rest => do
    let e ← Example.read c.path owner (some name) value
    examples owner (known ++ [e]) rest

/-- Reads an entry that is no annotation. -/
def addKnown (name : String) (d : Draft) (key : String) (value : Node) : Load Draft := do
  let s := d.shape
  match key with
  | "type" | "schema" => return { d with type := some value }
  | "displayName" =>
    let t ← Load.ofExcept (Entry.text c.path key value)
    return { d with shape := { s with displayName := t } }
  | "description" =>
    let t ← Load.ofExcept (Entry.text c.path key value)
    return { d with shape := { s with description := t } }
  | "required" =>
    let b ← Load.ofExcept (Entry.boolean c.path key value)
    return { d with shape := { s with required := b } }
  | "default" => return { d with shape := { s with default := value } }
  | "facets" =>
    let entries ← Load.ofExcept (Entry.named c.path key value)
    let definitions ← facetDefinitions c s.facetDefinitions entries
    return { d with shape := { s with facetDefinitions := definitions } }
  | "example" =>
    let e ← Example.read c.path name none value
    return { d with shape := { s with examples := s.examples ++ [e] } }
  | "examples" =>
    let entries ← Load.ofExcept (Entry.named c.path key value)
    let all ← examples c name s.examples entries
    return { d with shape := { s with examples := all } }
  | "allowedTargets" => return d
  | _ => return { d with raw := d.raw ++ [(key, value)] }

/-- Reads the entries of a declaration in their order. -/
def addEntries (name : String) : Draft → List (Node × Node) → Load Draft
  | d, [] => return d
  | d, (keyNode, value) :: rest => do
    let key ← Load.ofExcept (Entry.keyText c.path keyNode)
    match annotationName? key with
    | some a =>
      let a ← Load.ofExcept (readAnnotationUse c.path a value)
      let annotations := Dict.put a.name a d.shape.annotations
      addEntries name { d with shape := { d.shape with annotations := annotations } } rest
    | none => addEntries name (← addKnown c name d key value) rest

/-- Reads a declaration up to its type. A scalar or a sequence is a type itself. -/
def draft (name : String) (node : Node) : Load Draft :=
  let shape := Shape.plain name c.path node.mark .any
  match node.pairs? with
  | some pairs => addEntries c name ⟨shape, [], none⟩ pairs
  | none => return ⟨shape, [], some node⟩

/-- Declares the parents of a list; returns their numbers and names. -/
def parents : List Node → Load (List ShapeId × List String)
  | [] => return ([], [])
  | item :: rest => do
    match item.text?, item.scalarType? with
    | some name, some .string =>
      let id ← c.declare name item
      let (ids, names) ← parents rest
      return (id :: ids, name :: names)
    | _, _ => Load.fail (Entry.flawed c.path item (.parentNotName item.sort))

/-- How a text declares a type: a JSON schema starts with a brace, a built-in kind is named, and
everything else is an expression. -/
def planText (raw trimmed : String) : Plan :=
  if Text.startsWith "\x7b" trimmed then .json raw
  else
    match (Kind.ofName? trimmed).bind Body.empty? with
    | some body => .concrete body
    | none => .pending (.expression trimmed)

/-- Reads the type of a declaration. -/
def classify (shape : Shape) (type : Node) : Load (Shape × Plan) := do
  match type with
  | .scalar text scalarType _ isInclude =>
    if isInclude then
      let target ← Load.ask (·.follow c.path text)
      Load.unlessLoading target (c.loadType target)
      return ({ shape with declaration := some text, link := some target }, .pending .link)
    else if scalarType = .string ∨ scalarType = .null then
      let trimmed := Text.trim text
      if trimmed = "" then return (shape, .sniff)
      else return ({ shape with declaration := some trimmed }, planText text trimmed)
    else Load.fail (Entry.flawed c.path type (.typeNotName type.sort))
  | .sequence items .. =>
    if items.isEmpty then Load.fail (Entry.flawed c.path type .noParents)
    else
      let (ids, names) ← parents c items
      let declaration := "[" ++ ", ".intercalate names ++ "]"
      return ({ shape with declaration := some declaration, inherits := ids }, .pending .parents)
  | .mapping .. => Load.fail (Entry.flawed c.path type (.typeNotName type.sort))

/-- Applies the raw facets to a body and gives the shape both. -/
def withFacets (name : String) (shape : Shape) (body : Body) (raw : List (String × Node)) :
    Load Shape := do
  let (body, left) ← Facets.apply c.declare c.path name body raw
  return { shape with body := body, customFacets := Dict.putAll shape.customFacets left }

/-- Completes a declaration as planned. -/
def complete (name : String) (shape : Shape) (raw : List (String × Node)) : Plan → Load Shape
  | .sniff =>
    let body := (Body.empty? (Kind.sniff (raw.map (·.1)))).getD .any
    withFacets c name shape body raw
  | .concrete body => withFacets c name shape body raw
  | .json schema =>
    return { shape with body := .json schema, customFacets := Dict.putAll shape.customFacets raw }
  | .pending declared => return { shape with body := .unknown ⟨declared, raw⟩ }

/-- How a declaration is to be completed; one without a type follows its facets. -/
def plan (shape : Shape) : Option Node → Load (Shape × Plan)
  | some type => classify c shape type
  | none => return (shape, .sniff)

/-- Reads a declaration and stores its shape. -/
def decode (name : String) (node : Node) : Load ShapeId := do
  let d ← draft c name node
  let (shape, plan) ← plan c d.shape d.type
  Load.addShape (← complete c name shape d.raw plan)

/-- Reads a declaration of at most `n` levels and stores its shape. A fault is wrapped in one that
names the declaration. -/
def buildLevels (loadType : Path → Load Unit) (path : Path) : Nat → String → Node → Load ShapeId
  | 0, _, _ => Load.exhaust
  | n + 1, name, node =>
    Load.mapFault (PlainFault.declaration name ⟨path, node.mark⟩)
      (decode ⟨path, loadType, buildLevels loadType path n⟩ name node)

/-- Reads a declaration and stores its shape. -/
def build (loadType : Path → Load Unit) (path : Path) (name : String) (node : Node) :
    Load ShapeId :=
  buildLevels loadType path node.height name node

end RamlTypes.Declaration
