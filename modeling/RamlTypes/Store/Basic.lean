import RamlTypes.Diagnostic
import RamlTypes.Fragment.Basic

/-!
# The store of a loader

The store holds all that loading and resolution work on: the files, the shapes, the fragments
loaded so far, the names they declare, and the work lists.
-/

namespace RamlTypes

/-- What two spellings of a path that differ in separators only have in common. -/
abbrev PathKey := List Component

/-- Two spellings of a path that have the same components have the same key. -/
def Path.key (p : Path) : PathKey := p.components

/-- The files that a loader can read. -/
structure Files where
  /-- The texts of files, and the paths that are known to be unreadable. -/
  known : Dict PathKey (Except ReadFailure String)
  /-- Whether the paths form a directory tree; otherwise they are just names. -/
  isTree : Bool

namespace Files

/-- Named texts. -/
def memory (texts : List (Path × String)) : Files :=
  ⟨texts.foldl (fun d entry => Dict.put entry.1.key (.ok entry.2) d) [], false⟩

/-- Why a path that is not known cannot be read. -/
def failure (fs : Files) (key : PathKey) : ReadFailure :=
  if !fs.isTree then .unknownPath
  else if fs.known.any fun entry => key.isPrefixOf entry.1 then .isDirectory
  else if fs.known.any fun entry => entry.2.isOk && entry.1.isPrefixOf key then .notDirectory
  else .noSuchFile

/-- The text of a file. -/
def read (fs : Files) (p : Path) : Except ReadFailure String :=
  match Dict.find? p.key fs.known with
  | some found => found
  | none => .error (fs.failure p.key)

/-- Adds or replaces a file. -/
def write (fs : Files) (p : Path) (text : String) : Files :=
  { fs with known := Dict.put p.key (.ok text) fs.known }

end Files

/-- What a file is read for. -/
inductive Purpose where
  | fragment
  | exampleFile
  deriving DecidableEq, Repr

/-- How often a path was asked for, as the file of a fragment and as that of an example. -/
structure ReadCount where
  fragment : Nat
  exampleFile : Nat

namespace ReadCount

/-- No read yet. -/
def zero : ReadCount := ⟨0, 0⟩

/-- Counts one more request. -/
def add (c : ReadCount) : Purpose → ReadCount
  | .fragment => { c with fragment := c.fragment + 1 }
  | .exampleFile => { c with exampleFile := c.exampleFile + 1 }

/-- The reads for one purpose. -/
def of (c : ReadCount) : Purpose → Nat
  | .fragment => c.fragment
  | .exampleFile => c.exampleFile

/-- The reads for both purposes. -/
def total (c : ReadCount) : Nat := c.fragment + c.exampleFile

end ReadCount

/-- How files are found and how deep a session looks into them. -/
structure LoadSettings where
  /-- The directory that relative paths are taken against. -/
  root : Path
  /-- Whether a file with the extension `json` can stand for a data type. -/
  jsonShorthand : Bool
  /-- Whether a load resolves all that it declares. -/
  eagerResolution : Bool

/-- All that a session has read, and what it has made of it. -/
structure Store where
  settings : LoadSettings
  files : Files
  /-- How often each path was asked for, and for what. -/
  reads : Dict PathKey ReadCount
  shapes : Array Shape
  fragments : Dict PathKey Fragment
  /-- The types and annotation types that each file declares. -/
  named : Dict PathKey (Dict String ShapeId)
  annotationTypes : Dict PathKey (Dict String ShapeId)
  uses : Dict PathKey (Dict String Path)
  /-- The files whose loading has begun and not ended. -/
  loading : List PathKey
  examples : Dict PathKey ExampleFile
  /-- The shapes that wait for their resolution, in the order in which they were declared. -/
  unresolved : List ShapeId
  /-- The shapes in the order in which they were resolved. -/
  resolved : List ShapeId
  /-- The shapes whose resolution has begun and not ended. -/
  inProgress : List ShapeId
  /-- The shapes that failed to resolve or belong to a load that failed. -/
  failed : List ShapeId
  /-- The annotations of all shapes below this number are bound. -/
  annotationsBound : Nat
  diagnostics : Diagnostics

namespace Store

/-- A store in which nothing is loaded. -/
def empty (settings : LoadSettings) (files : Files) : Store where
  settings := settings
  files := files
  reads := []
  shapes := #[]
  fragments := []
  named := []
  annotationTypes := []
  uses := []
  loading := []
  examples := []
  unresolved := []
  resolved := []
  inProgress := []
  failed := []
  annotationsBound := 0
  diagnostics := []

/-- The absolute normal form of a path. -/
def normalize (s : Store) (p : Path) : Path :=
  Path.normalizeIn s.settings.root p

/-- The place that `target` names inside the file `source`. -/
def follow (s : Store) (source : Path) (target : String) : Path :=
  Path.follow s.settings.root source target

/-- The cached fragment of a path. -/
def fragment? (s : Store) (p : Path) : Option Fragment :=
  Dict.find? (s.normalize p).key s.fragments

/-- The file is being read. -/
def isLoading (s : Store) (p : Path) : Bool :=
  s.loading.contains p.key

/-- The resolution of the shape has failed before. -/
def isFailed (s : Store) (id : ShapeId) : Bool :=
  s.failed.contains id

/-- The shape is being resolved. -/
def isInProgress (s : Store) (id : ShapeId) : Bool :=
  s.inProgress.contains id

/-- The aliases that a file declares; its path is taken as it is. -/
def usesOf? (s : Store) (p : Path) : Option (Dict String Path) :=
  Dict.find? p.key s.uses

/-- The names that a file declares. -/
def namedIn? (s : Store) (p : Path) : Option (Dict String ShapeId) :=
  Dict.find? (s.normalize p).key s.named

/-- The annotation types that a file declares; its path is taken as it is. -/
def annotationTypesIn? (s : Store) (p : Path) : Option (Dict String ShapeId) :=
  Dict.find? p.key s.annotationTypes

/-- The name of a shape; a number without a shape has no name. -/
def nameOf? (s : Store) (id : ShapeId) : Option String :=
  s.shapes[id]?.map (·.name)

/-- The shape that a file declares under a name. A data type has the name of its shape. -/
def lookup? (s : Store) (p : Path) (name : String) : Option ShapeId :=
  let key := (s.normalize p).key
  match (Dict.find? key s.named).bind (Dict.find? name) with
  | some id => some id
  | none =>
    match Dict.find? key s.fragments with
    | some (.dataType d) => if s.nameOf? d.shape = some name then some d.shape else none
    | _ => none

/-- Notes the name of a type. -/
def declareType (s : Store) (p : Path) (name : String) (id : ShapeId) : Store :=
  { s with named := Dict.adjust p.key [] (Dict.put name id) s.named }

/-- Notes the name of an annotation type, which counts as the name of a type as well. -/
def declareAnnotationType (s : Store) (p : Path) (name : String) (id : ShapeId) : Store :=
  let s := s.declareType p name id
  { s with annotationTypes := Dict.adjust p.key [] (Dict.put name id) s.annotationTypes }

/-- Notes an alias. -/
def declareUse (s : Store) (p : Path) (name : String) (library : Path) : Store :=
  { s with uses := Dict.adjust p.key [] (Dict.put name library) s.uses }

/-- Adds a diagnostic. -/
def report (s : Store) (d : Diagnostic) : Store :=
  { s with diagnostics := s.diagnostics ++ [d] }

/-- Adds a shape under the next number; an unresolved one joins the work list. -/
def addShape (s : Store) (shape : Shape) : Store :=
  let id := s.shapes.size
  { s with
    shapes := s.shapes.push { shape with id := id }
    unresolved := if shape.isUnknown then s.unresolved ++ [id] else s.unresolved }

/-- Changes a shape. -/
def mapShape (s : Store) (id : ShapeId) (f : Shape → Shape) : Store :=
  { s with shapes := s.shapes.modify id f }

/-- Counts a request for a path. -/
def countRead (s : Store) (purpose : Purpose) (p : Path) : Store :=
  { s with reads := Dict.adjust p.key .zero (·.add purpose) s.reads }

/-- Caches a fragment, unless its path has one already. -/
def cacheFragment (s : Store) (f : Fragment) : Store :=
  { s with fragments := Dict.putNew f.location.key f s.fragments }

/-- Caches the example of a file, unless the file has one already. -/
def cacheExample (s : Store) (p : Path) (e : ExampleFile) : Store :=
  { s with examples := Dict.putNew p.key e s.examples }

/-- Notes that the loading of a file begins. -/
def beginLoading (s : Store) (p : Path) : Store :=
  { s with loading := p.key :: s.loading }

/-- Notes that the loading of a file ends. -/
def endLoading (s : Store) (p : Path) : Store :=
  { s with loading := s.loading.filter (· ≠ p.key) }

/-- The files that were being read before the loading of a file began are so after it has ended. -/
theorem loading_endLoading {s : Store} {p : Path} {opened : List PathKey}
    (h : s.loading = p.key :: opened) (hp : p.key ∉ opened) : (s.endLoading p).loading = opened := by
  have hrest : ∀ k ∈ opened, k ≠ p.key := fun k hk heq => hp (heq ▸ hk)
  rw [endLoading, h, List.filter_cons_of_neg (by simp)]
  exact List.filter_eq_self.2 fun k hk => decide_eq_true (hrest k hk)

/-- How often a path was asked for. -/
def readCount (s : Store) (p : Path) : Nat :=
  ((Dict.find? p.key s.reads).getD .zero).total

end Store

end RamlTypes
