import RamlTypes.Declaration.Entries
import RamlTypes.Pattern
import RamlTypes.Store.Load
import RamlTypes.Text.Blank

/-!
# Applying facets

`Facets.apply` applies the raw facets of a declaration to a body, in document order. A facet that
the body's kind does not own is left over. Facets that hold declarations are read by `declare`,
which stores a shape.
-/

namespace RamlTypes.Facets

/-- Reads a declaration and stores its shape. -/
abbrev Declare := String → Node → Load ShapeId

/-- Reports a pattern that cannot be compiled. -/
def checkPattern (path : Path) (owner text : String) : Load Unit :=
  match Pattern.flaw? text with
  | some flaw => Load.report (.unsupportedPattern (path.text ++ "#" ++ owner) text flaw.message)
  | none => return

/-- The pattern of a string. One that cannot be compiled is kept and reported. -/
def pattern (path : Path) (owner : String) (value : Node) : Load String := do
  let text ← Load.ofExcept (Entry.text path "pattern" value)
  checkPattern path owner text
  return text

/-- A facet of a string. -/
def string (path : Path) (owner : String) (f : StringFacets) (key : String) (value : Node) :
    Load (Option Body) := do
  match key with
  | "minLength" =>
    return some (.string { f with minLength := ← Load.ofExcept (Entry.unsigned path key value) })
  | "maxLength" =>
    return some (.string { f with maxLength := ← Load.ofExcept (Entry.unsigned path key value) })
  | "pattern" => return some (.string { f with pattern := ← pattern path owner value })
  | "enum" =>
    return some (.string { f with values := ← Load.ofExcept (Entry.items path key value) })
  | _ => return none

/-- A facet of a number; integers do not own `multipleOf`. -/
def number (path : Path) (isInteger : Bool) (f : NumberFacets) (key : String) (value : Node) :
    Except PlainFault (Option NumberFacets) := do
  match key with
  | "minimum" => return some { f with minimum := ← Entry.double path key value }
  | "maximum" => return some { f with maximum := ← Entry.double path key value }
  | "multipleOf" =>
    if isInteger then return none
    else return some { f with multipleOf := ← Entry.double path key value }
  | "format" => return some { f with format := ← Entry.text path key value }
  | "enum" => return some { f with values := ← Entry.items path key value }
  | _ => return none

/-- A facet of a file. -/
def file (path : Path) (f : FileFacets) (key : String) (value : Node) :
    Except PlainFault (Option FileFacets) := do
  match key with
  | "minLength" => return some { f with minLength := ← Entry.unsigned path key value }
  | "maxLength" => return some { f with maxLength := ← Entry.unsigned path key value }
  | "fileTypes" => return some { f with fileTypes := ← Entry.texts path key value }
  | _ => return none

/-- A facet of an array. -/
def array (declare : Declare) (path : Path) (owner : String) (f : ArrayFacets) (key : String)
    (value : Node) : Load (Option Body) := do
  match key with
  | "items" => return some (.array { f with items := ← declare owner value })
  | "minItems" =>
    return some (.array { f with minItems := ← Load.ofExcept (Entry.unsigned path key value) })
  | "maxItems" =>
    return some (.array { f with maxItems := ← Load.ofExcept (Entry.unsigned path key value) })
  | "uniqueItems" =>
    return some (.array { f with uniqueItems := ← Load.ofExcept (Entry.boolean path key value) })
  | _ => return none

/-- The name of a property without the mark of an optional one, and whether it has the mark. -/
def propertyName (key : String) : String × Bool :=
  match Text.beforeLast? '?' key with
  | some name => (name, true)
  | none => (key, false)

/-- Makes a property optional that does not say itself whether it is required. -/
def makeOptional (id : ShapeId) : Load Unit :=
  Load.change (·.mapShape id Shape.optional) fun s =>
    s.grows_mapShape id _ (fun _ => ⟨rfl, List.prefix_rfl⟩) fun _ => .inl ⟨rfl, rfl, rfl⟩

/-- Declares a property. An optional one is not required unless it says itself whether it is. -/
def property (declare : Declare) (name : String) (optional : Bool) (value : Node) :
    Load ShapeId := do
  let id ← declare name value
  if optional then
    makeOptional id
    return id
  else return id

/-- Declares properties. -/
def properties (declare : Declare) :
    Dict String ShapeId → List (String × Node) → Load (Dict String ShapeId)
  | known, [] => return known
  | known, (key, value) :: rest => do
    let (name, optional) := propertyName key
    let id ← property declare name optional value
    properties declare (Dict.put name id known) rest

/-- A facet of an object. -/
def object (declare : Declare) (path : Path) (f : ObjectFacets) (key : String) (value : Node) :
    Load (Option Body) := do
  match key with
  | "properties" =>
    let entries ← Load.ofExcept (Entry.named path key value)
    return some (.object { f with properties := ← properties declare f.properties entries })
  | "additionalProperties" =>
    let b ← Load.ofExcept (Entry.boolean path key value)
    return some (.object { f with additionalProperties := b })
  | "minProperties" =>
    let n ← Load.ofExcept (Entry.unsigned path key value)
    return some (.object { f with minProperties := n })
  | "maxProperties" =>
    let n ← Load.ofExcept (Entry.unsigned path key value)
    return some (.object { f with maxProperties := n })
  | "discriminator" =>
    return some (.object { f with discriminator := ← Load.ofExcept (Entry.text path key value) })
  | "discriminatorValue" => return some (.object { f with discriminatorValue := value })
  | _ => return none

/-- Declares the members of a union after those it has. -/
def members (declare : Declare) (owner : String) : List ShapeId → List Node → Load (List ShapeId)
  | known, [] => return known
  | known, value :: rest => do
    let id ← declare owner value
    members declare owner (known ++ [id]) rest

/-- Applies one facet; `none` when the kind of the body does not own it. -/
def applyOne (declare : Declare) (path : Path) (owner : String) (body : Body) (key : String)
    (value : Node) : Load (Option Body) :=
  match body with
  | .string f => string path owner f key value
  | .integer f => return (← Load.ofExcept (number path true f key value)).map .integer
  | .number f => return (← Load.ofExcept (number path false f key value)).map .number
  | .file f => return (← Load.ofExcept (file path f key value)).map .file
  | .boolean _ => do
    if key = "enum" then
      return some (.boolean (some (← Load.ofExcept (Entry.items path key value))))
    else return none
  | .datetime _ => do
    if key = "format" then
      return some (.datetime (some (← Load.ofExcept (Entry.text path key value))))
    else return none
  | .array f => array declare path owner f key value
  | .object f => object declare path f key value
  | .union ms => do
    if key = "anyOf" then
      let nodes ← Load.ofExcept (Entry.items path key value)
      return some (.union (← members declare owner ms nodes))
    else return none
  | .any | .nil | .datetimeOnly | .dateOnly | .timeOnly | .json _ | .unknown _ => return none

/-- Applies facets one after the other; `left` are the facets left over so far. -/
def applyFrom (declare : Declare) (path : Path) (owner : String) :
    Body → Dict String Node → List (String × Node) → Load (Body × Dict String Node)
  | body, left, [] => return (body, left)
  | body, left, (key, value) :: rest => do
    match ← applyOne declare path owner body key value with
    | some body => applyFrom declare path owner body left rest
    | none => applyFrom declare path owner body (Dict.put key value left) rest

/-- Applies facets to a body; returns the new body and the facets left over. -/
def apply (declare : Declare) (path : Path) (owner : String) (body : Body)
    (facets : List (String × Node)) : Load (Body × Dict String Node) :=
  applyFrom declare path owner body [] facets

end RamlTypes.Facets
