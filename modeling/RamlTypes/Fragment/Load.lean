import RamlTypes.Declaration.Build
import RamlTypes.Json.Syntax

/-!
# Loading fragments

A fragment is read once and then cached under the normal form of its path. Reading it loads the
libraries it uses and the data types its declarations include, unless their own loading has already
begun. So loading goes at most as deep as there are files, and `loadDepth` bounds the recursion.
-/

namespace RamlTypes

/-- How the fragments that a fragment depends on are loaded. -/
structure Loaders where
  library : Path → Load Unit
  dataType : Path → Load Unit

/-- Whether a path is the shorthand for a data type that is a JSON schema. -/
def Store.isJsonShorthand (s : Store) (p : Path) : Bool :=
  s.settings.jsonShorthand && p.extension? == some "json"

namespace Fragment

/-- The document of a fragment; an empty one is an empty mapping. -/
def body (path : Path) (text : String) : Except PlainFault Node :=
  match Node.ofYaml? text with
  | none => .error (.yaml path)
  | some node => .ok (if node.isNull then .mapping [] .unknown false else node)

/-- Notes an alias. -/
def declareUse (path : Path) (name : String) (library : Path) : Load Unit :=
  Load.change (·.declareUse path name library) (·.grows_declareUse path name library)

/-- Notes the name of a type. -/
def declareType (path : Path) (name : String) (id : ShapeId) : Load Unit :=
  Load.change (·.declareType path name id) (·.grows_declareType path name id)

/-- Notes the name of an annotation type. -/
def declareAnnotationType (path : Path) (name : String) (id : ShapeId) : Load Unit :=
  Load.change (·.declareAnnotationType path name id) (·.grows_declareAnnotationType path name id)

/-- Loads the libraries that a file uses and notes their aliases. A library whose loading has begun
is taken to become one. -/
def loadUses (loaders : Loaders) (path : Path) :
    Dict String Path → List (String × Node) → Load (Dict String Path)
  | known, [] => return known
  | known, (name, value) :: rest => do
    let target ← Load.ofExcept (Entry.text path name value)
    let library ← Load.ask (·.follow path target)
    Load.unlessLoading library (loaders.library library)
    declareUse path name library
    loadUses loaders path (Dict.put name library known) rest

/-- Loads the libraries of an entry `uses`, if there is one. -/
def loadUsesOf (loaders : Loaders) (path : Path) (body : Node) : Load (Dict String Path) := do
  match body.get? "uses" with
  | some node => loadUses loaders path [] (← Load.ofExcept (Entry.section? path "uses" node))
  | none => return []

/-- Declares the types of a section and notes their names with `declare`. -/
def types (loaders : Loaders) (path : Path) (note : String → ShapeId → Load Unit) :
    Dict String ShapeId → List (String × Node) → Load (Dict String ShapeId)
  | known, [] => return known
  | known, (name, value) :: rest => do
    let id ← Declaration.build loaders.dataType path name value
    note name id
    types loaders path note (Dict.put name id known) rest

/-- Reads one section of a library that is no annotation. -/
def addSection (loaders : Loaders) (path : Path) (l : Library) (key : String) (value : Node) :
    Load Library := do
  match key with
  | "uses" => return l
  | "usage" => return { l with usage := ← Load.ofExcept (Entry.text path key value) }
  | "types" | "schemas" =>
    let entries ← Load.ofExcept (Entry.section? path key value)
    return { l with types := ← types loaders path (declareType path) l.types entries }
  | "annotationTypes" =>
    let entries ← Load.ofExcept (Entry.section? path key value)
    let declared ← types loaders path (declareAnnotationType path) l.annotationTypes entries
    return { l with annotationTypes := declared }
  | _ =>
    Load.report (.ignoredSection path.text key)
    return l

/-- Reads the sections of a library in their order. -/
def addSections (loaders : Loaders) (path : Path) : Library → List (String × Node) → Load Library
  | l, [] => return l
  | l, (key, value) :: rest => do
    match annotationName? key with
    | some name =>
      let a ← Load.ofExcept (readAnnotationUse path name value)
      addSections loaders path { l with annotations := Dict.put a.name a l.annotations } rest
    | none => addSections loaders path (← addSection loaders path l key value) rest

end Fragment

namespace AnnotationUse

/-- The library of an annotation type, seen from a file, and the name it has there. -/
def target (location : Path) (a : AnnotationUse) (s : Store) : Except PlainFault (Path × String) :=
  match Text.cutAt? '.' a.name with
  | some (library, name) =>
    match (s.usesOf? location).bind (Dict.find? library) with
    | some path => .ok (path, name)
    | none => .error (.libraryNotFound library ⟨a.location, a.mark⟩)
  | none => .ok (location, a.name)

/-- The annotation type of an annotation as seen from a file, if there is one. -/
def type? (location : Path) (a : AnnotationUse) (s : Store) : Except PlainFault (Option ShapeId) := do
  let (library, name) ← a.target location s
  return (s.annotationTypesIn? library).bind (Dict.find? name)

/-- Binds an annotation to its type as seen from a file. One without a type is reported. -/
def bind (location : Path) (a : AnnotationUse) : Load (Except PlainFault AnnotationUse) := do
  if a.definedBy.isSome then return .ok a
  else
    match ← Load.ask (a.type? location) with
    | .error fault => return .error fault
    | .ok (some id) => return .ok { a with definedBy := some id }
    | .ok none =>
      Load.report (.annotationUnbound location.text a.name)
      return .ok a

/-- Binds annotations up to the first fault, which is returned beside them. -/
def bindAll (location : Path) :
    Dict String AnnotationUse → Load (Dict String AnnotationUse × Option PlainFault)
  | [] => return ([], none)
  | (key, a) :: rest => do
    match ← a.bind location with
    | .ok a =>
      let (rest, fault) ← bindAll location rest
      return ((key, a) :: rest, fault)
    | .error fault => return ((key, a) :: rest, some fault)

end AnnotationUse

namespace Fragment

/-- Reads a library. -/
def readLibrary (loaders : Loaders) (path : Path) (text : String) : Load Library := do
  let body ← Load.ofExcept (body path text)
  let uses ← loadUsesOf loaders path body
  let sections ← Load.ofExcept (Entry.section? path "library body" body)
  let l ← addSections loaders path ⟨path, none, [], [], uses, [], Sha256.ofText text⟩ sections
  let (annotations, fault) ← AnnotationUse.bindAll path l.annotations
  match fault with
  | some fault => Load.fail fault
  | none => return { l with annotations := annotations }

/-- Splits the body of a data type into its usage and the entries of its declaration. -/
def cutUsage (path : Path) :
    List (Node × Node) → Except PlainFault (Option String × List (Node × Node))
  | [] => .ok (none, [])
  | (key, value) :: rest => do
    match key.text? with
    | some "uses" => cutUsage path rest
    | some "usage" =>
      let text ← Entry.text path "usage" value
      let (later, entries) ← cutUsage path rest
      return (later.or (some text), entries)
    | _ =>
      let (usage, entries) ← cutUsage path rest
      return (usage, (key, value) :: entries)

/-- Reads a data type. Its declaration is the body without its usage and its uses; a body that is no
mapping declares nothing. -/
def readDataType (loaders : Loaders) (path : Path) (text : String) : Load DataType := do
  let body ← Load.ofExcept (body path text)
  let uses ← loadUsesOf loaders path body
  let (usage, entries) ← Load.ofExcept (cutUsage path (body.pairs?.getD []))
  let node := Node.mapping entries body.mark false
  let shape ← Declaration.build loaders.dataType path path.stem node
  return ⟨path, usage, uses, shape, Sha256.ofText text⟩

/-- Reads a JSON schema that stands for a data type. -/
def readJson (path : Path) (text : String) : Load DataType := do
  if Json.isDocument text then
    let shape ← Load.addShape (Shape.plain path.stem path .unknown (.json text))
    return ⟨path, none, [], shape, Sha256.ofText text⟩
  else Load.fail (.decode (.file path) .invalidJson)

/-- Reads a file and caches its fragment. -/
def reading {α : Type} (path : Path) (read : Load α) (fragment : α → Fragment) :
    Load Fragment := do
  let a ← Load.whileLoading path read
  Load.cacheFragment (fragment a)

/-- The library that a fragment must be. -/
def expectLibrary (path : Path) : Fragment → Load Library
  | .library l => return l
  | .dataType _ => Load.fail (FragmentKind.mismatch path .library .dataType)

/-- The data type that a fragment must be. -/
def expectDataType (path : Path) : Fragment → Load DataType
  | .dataType d => return d
  | .library _ => Load.fail (FragmentKind.mismatch path .dataType .library)

/-- Reads and caches a library. -/
def parseLibrary (loaders : Loaders) (path : Path) (text : String) : Load Library := do
  Load.ofExcept (FragmentKind.library.checkHeader path text)
  expectLibrary path (← reading path (readLibrary loaders path text) .library)

/-- Reads the text of a data type, which can be a JSON schema. -/
def readDataTypeOrJson (loaders : Loaders) (path : Path) (text : String) (isJson : Bool) :
    Load DataType :=
  if isJson then readJson path text else readDataType loaders path text

/-- Reads and caches a data type. -/
def parseDataType (loaders : Loaders) (path : Path) (text : String) : Load DataType := do
  let isJson ← Load.ask (·.isJsonShorthand path)
  Load.ofExcept (if isJson then .ok () else FragmentKind.dataType.checkHeader path text)
  expectDataType path (← reading path (readDataTypeOrJson loaders path text isJson) .dataType)

/-- Takes a fragment from the cache, or else goes on with its path. -/
def fromCache {α : Type} (p : Path) (hit : Path → Fragment → Load α) (miss : Path → Load α) :
    Load α := do
  let path ← Load.ask (·.normalize p)
  match ← Load.ask fun s => Dict.find? path.key s.fragments with
  | some f => hit path f
  | none => miss path

/-- The library of a path, from the cache or from its file. -/
def libraryWith (loaders : Loaders) (p : Path) : Load Library :=
  fromCache p expectLibrary fun path => do parseLibrary loaders path (← Load.readFile .fragment path)

/-- The data type of a path, from the cache or from its file. -/
def dataTypeWith (loaders : Loaders) (p : Path) : Load DataType :=
  fromCache p expectDataType fun path => do parseDataType loaders path (← Load.readFile .fragment path)

/-- Loaders for files that depend on each other at most `n` deep. -/
def loaders : Nat → Loaders
  | 0 => ⟨fun _ => Load.exhaust, fun _ => Load.exhaust⟩
  | n + 1 =>
    ⟨fun p => do let _ ← libraryWith (loaders n) p,
      fun p => do let _ ← dataTypeWith (loaders n) p⟩

/-- The fragment in a text, of the kind that its first line announces. -/
def parseText (loaders : Loaders) (path : Path) (text : String) : Load Fragment := do
  match FragmentKind.detect? text with
  | some .library => return .library (← parseLibrary loaders path text)
  | some .dataType => return .dataType (← parseDataType loaders path text)
  | none =>
    let expected := FragmentKind.library.header ++ " | " ++ FragmentKind.dataType.header
    Load.fail (.headerMismatch path expected (Text.firstLine text))

/-- Reads the fragment of a path as the kind that its first line announces, or as a JSON schema. -/
def readFragment (loaders : Loaders) (path : Path) : Load Fragment := do
  if ← Load.ask (·.isJsonShorthand path) then return .dataType (← dataTypeWith loaders path)
  else parseText loaders path (← Load.readFile .fragment path)

/-- The fragment of a path, from the cache or from its file. -/
def fragmentWith (loaders : Loaders) (p : Path) : Load Fragment :=
  fromCache p (fun _ f => return f) (readFragment loaders)

end Fragment

/-- How deep loads can nest: every file is loaded inside of its own load at most once. -/
def Store.loadDepth (s : Store) : Nat := s.files.known.length + 1

namespace Load

/-- Runs an action that loads fragments. -/
def withLoaders {α : Type} (f : Loaders → Load α) : Load α := do
  f (Fragment.loaders (← ask (·.loadDepth)))

/-- The library of a path. -/
def library (p : Path) : Load Library :=
  withLoaders fun ls => Fragment.libraryWith ls p

/-- The data type of a path. -/
def dataType (p : Path) : Load DataType :=
  withLoaders fun ls => Fragment.dataTypeWith ls p

/-- The fragment of a path. -/
def fragment (p : Path) : Load Fragment :=
  withLoaders fun ls => Fragment.fragmentWith ls p

/-- Reads a declaration and stores its shape. -/
def declare (path : Path) (name : String) (node : Node) : Load ShapeId :=
  withLoaders fun ls => Declaration.build ls.dataType path name node

end Load

end RamlTypes
