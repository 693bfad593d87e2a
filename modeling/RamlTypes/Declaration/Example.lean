import RamlTypes.Declaration.Entries
import RamlTypes.Node.OfEvents
import RamlTypes.Store.Load
import RamlTypes.Text.Case

/-!
# Annotations and examples
-/

namespace RamlTypes

/-- The name of an annotation: the trimmed text of a key between parentheses. -/
def annotationName? (key : String) : Option String :=
  match Text.afterStart? "(" key with
  | some rest => (Text.beforeLast? ')' rest).map Text.trim
  | none => none

/-- Reads an annotation. -/
def readAnnotationUse (path : Path) (name : String) (value : Node) : Except PlainFault AnnotationUse :=
  if name = "" then .error (Entry.flawed path value .emptyAnnotationName)
  else .ok ⟨name, value, none, path, value.mark⟩

namespace ExampleFile

/-- The media type of an example file, and whether it is read as a document, from its extension. -/
def mediaType (p : Path) : String × Bool :=
  match Text.lowerAscii (p.extension?.getD "") with
  | "json" => ("application/json", true)
  | "yaml" | "yml" | "raml" => ("application/yaml", true)
  | "xml" => ("application/xml", false)
  | _ => ("text/plain", false)

/-- Reads an example file. A file that is no document is one string. -/
def read (p : Path) (text : String) : Except PlainFault ExampleFile :=
  let (mime, isDocument) := mediaType p
  if isDocument then
    match Node.ofYaml? text with
    | some value => .ok ⟨p, mime, value⟩
    | none => .error (.yaml p)
  else .ok ⟨p, mime, .scalar text .string .unknown false⟩

end ExampleFile

/-- The example of a file, which is read once. -/
def loadExample (p : Path) : Load ExampleFile := do
  match ← Load.ask fun s => Dict.find? p.key s.examples with
  | some e => return e
  | none =>
    let text ← Load.readFile .exampleFile p
    let e ← Load.ofExcept (ExampleFile.read p text)
    Load.change (·.cacheExample p e) (·.grows_cacheExample p e)
    return e

namespace Example

/-- An example without any content. -/
def blank (path : Path) (owner : String) (name : Option String) : Example where
  id := path.text ++ "#" ++ owner ++ "/examples/" ++ name.getD "example"
  name := name
  displayName := none
  description := none
  strict := none
  value := none
  location := path
  annotations := []
  link := none

/-- Reads one entry of an example that wraps its value. -/
def addEntry (path : Path) (e : Example) (keyNode value : Node) : Except PlainFault Example := do
  let key ← Entry.keyText path keyNode
  match annotationName? key with
  | some name =>
    let a ← readAnnotationUse path name value
    return { e with annotations := Dict.put a.name a e.annotations }
  | none =>
    match key with
    | "displayName" => return { e with displayName := ← Entry.text path key value }
    | "description" => return { e with description := ← Entry.text path key value }
    | "strict" => return { e with strict := ← Entry.boolean path key value }
    | _ => return e

/-- Reads the entries of an example that wraps its value. -/
def addEntries (path : Path) : Example → List (Node × Node) → Except PlainFault Example
  | e, [] => .ok e
  | e, (key, value) :: rest => do
    addEntries path (← addEntry path e key value) rest

/-- Reads an example. A mapping with an entry `value` wraps its value; every other node is the value
itself. -/
def read (path : Path) (owner : String) (name : Option String) (node : Node) : Load Example := do
  let e := blank path owner name
  if node.isInclude then
    match node.text? with
    | none => Load.fail (Entry.flawed path node .includeWithoutFile)
    | some target =>
      let file ← loadExample (← Load.ask (·.follow path target))
      return { e with link := some file }
  else
    match node.pairs?, node.get? "value" with
    | some pairs, some value =>
      let e ← Load.ofExcept (addEntries path e pairs)
      return { e with value := some value }
    | _, _ => return { e with value := some node }

end Example

end RamlTypes
