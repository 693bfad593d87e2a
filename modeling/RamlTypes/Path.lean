import RamlTypes.Text.Blank

/-!
# Paths and their normal forms

A path is read as a list of components. Its normal form has no `.` and no `..`: a `..` removes the
component before it, and at the root it removes nothing. The normal form of an absolute path is the
key under which the loader caches a file, so that all spellings of one place share an entry.
-/

namespace RamlTypes

/-- One component of a path. -/
inductive Component where
  /-- The leading `/` of an absolute path. -/
  | root
  /-- A leading `.`; a `.` anywhere else is no component. -/
  | here
  /-- `..` -/
  | up
  | name (text : String)
  deriving DecidableEq, Repr

/-- The text of a component inside a path. -/
def Component.text : Component → String
  | .root => ""
  | .here => "."
  | .up => ".."
  | .name n => n

/-- A path as it was written. -/
structure Path where
  text : String
  deriving DecidableEq, Repr

namespace Path

/-- The component that a piece between two separators stands for, if any. -/
def component? (piece : List Char) : Option Component :=
  if piece = [] ∨ piece = ['.'] then none
  else if piece = ['.', '.'] then some .up
  else some (.name (String.ofList piece))

/-- Whether a path starts at the root. -/
def isAbsolute (p : Path) : Bool :=
  p.text.toList.head? == some '/'

/-- The components of a path. Empty pieces and inner `.` pieces are skipped. -/
def components (p : Path) : List Component :=
  let pieces := Text.splitAt '/' p.text.toList
  let inner := pieces.filterMap component?
  match pieces with
  | ['.'] :: _ => .here :: inner
  | _ => if p.isAbsolute then .root :: inner else inner

/-- The plain spelling of a list of components. -/
def ofComponents : List Component → Path
  | [.root] => ⟨"/"⟩
  | cs => ⟨"/".intercalate (cs.map Component.text)⟩

/-- Adds one component to a normal form: `.` adds nothing, and `..` removes the last name. -/
def foldComponent (done : List Component) : Component → List Component
  | .here => done
  | .up => match done with
    | [.root] => [.root]
    | _ => done.dropLast
  | .root => [.root]
  | c => done ++ [c]

/-- The components of the normal form. -/
def normalComponents (cs : List Component) : List Component :=
  cs.foldl foldComponent []

/-- The normal form of a path. -/
def normalize (p : Path) : Path :=
  ofComponents (normalComponents p.components)

/-- `target` as seen from the directory `base`; an absolute target stands alone. -/
def join (base : Path) (target : String) : Path :=
  if (Path.mk target).isAbsolute ∨ base.text = "" then ⟨target⟩
  else if base.text.toList.getLast? = some '/' then ⟨base.text ++ target⟩
  else ⟨base.text ++ "/" ++ target⟩

/-- The components of the directory that holds a path; the root holds itself. -/
def parentComponents (p : Path) : List Component :=
  match p.components with
  | [] | [.root] => [.root]
  | cs => cs.dropLast

/-- The directory that holds a path. -/
def parent (p : Path) : Path :=
  ofComponents p.parentComponents

/-- The absolute normal form of a path, taken against `root` when it is relative. -/
def normalizeIn (root p : Path) : Path :=
  if p.isAbsolute then p.normalize else (root.join p.text).normalize

/-- The place that `target` names inside the file `source`. -/
def follow (root source : Path) (target : String) : Path :=
  normalizeIn root (source.parent.join (Text.trim target))

/-- The last name of a path. -/
def fileName? (p : Path) : Option String :=
  match p.components.getLast? with
  | some (.name n) => some n
  | _ => none

/-- A file name cut at its last dot. A name whose only dot is its first character has no
extension. -/
def cutName (name : String) : String × Option String :=
  let reversed := name.toList.reverse
  let tail := reversed.takeWhile (· ≠ '.')
  match reversed.dropWhile (· ≠ '.') with
  | [] | [_] => (name, none)
  | _ :: stem => (String.ofList stem.reverse, some (String.ofList tail.reverse))

/-- The file name without its extension; empty when the path names no file. -/
def stem (p : Path) : String :=
  match p.fileName? with
  | some n => (cutName n).1
  | none => ""

/-- The extension of the file name. -/
def extension? (p : Path) : Option String :=
  p.fileName?.bind fun n => (cutName n).2

end Path

end RamlTypes
