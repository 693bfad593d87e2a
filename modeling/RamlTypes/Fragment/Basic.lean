import RamlTypes.Fault
import RamlTypes.Sha256
import RamlTypes.Shape.Basic
import RamlTypes.Text.Blank

/-!
# Fragments

A fragment is a file that declares types: a library with named types, or a single data type. The
first line of the file tells which. A file with the extension `json` can stand for a data type as
well; it holds a JSON schema and has no such line.
-/

namespace RamlTypes

/-- What a file can be. -/
inductive FragmentKind where
  | library
  | dataType
  deriving DecidableEq, Repr

namespace FragmentKind

/-- The name of the kind, as it stands in the header. -/
def name : FragmentKind → String
  | library => "Library"
  | dataType => "DataType"

/-- The first line of a file of this kind. -/
def header (k : FragmentKind) : String :=
  "#%RAML 1.0 " ++ k.name

/-- The kind that the first line of a text announces. -/
def detect? (text : String) : Option FragmentKind :=
  [library, dataType].find? fun k => k.header == Text.firstLine text

/-- Refuses a text whose first line does not announce this kind. -/
def checkHeader (path : Path) (text : String) (k : FragmentKind) : Except PlainFault Unit :=
  let found := Text.firstLine text
  if found = k.header then .ok () else .error (.headerMismatch path k.header found)

end FragmentKind

/-- What a library declares, and which libraries it uses. -/
structure Library where
  location : Path
  usage : Option String
  types : Dict String ShapeId
  annotationTypes : Dict String ShapeId
  /-- The libraries that the aliases stand for. -/
  uses : Dict String Path
  annotations : Dict String AnnotationUse
  checksum : String

/-- A file that is one type. -/
structure DataType where
  location : Path
  usage : Option String
  uses : Dict String Path
  shape : ShapeId
  checksum : String

/-- A file that has been read. -/
inductive Fragment where
  | library (l : Library)
  | dataType (d : DataType)

namespace Fragment

/-- What the file is. -/
def kind : Fragment → FragmentKind
  | library _ => .library
  | dataType _ => .dataType

/-- Where the file lies. -/
def location : Fragment → Path
  | library l => l.location
  | dataType d => d.location

/-- The libraries that the file uses, under their names. -/
def uses : Fragment → Dict String Path
  | library l => l.uses
  | dataType d => d.uses

/-- The shapes that a fragment declares. -/
def declared : Fragment → List ShapeId
  | library l => l.types.map (·.2) ++ l.annotationTypes.map (·.2)
  | dataType d => [d.shape]

end Fragment

/-- The mismatch of a file that is cached as another kind of fragment. -/
def FragmentKind.mismatch (path : Path) (expected found : FragmentKind) : PlainFault :=
  .headerMismatch path expected.header found.header

end RamlTypes
