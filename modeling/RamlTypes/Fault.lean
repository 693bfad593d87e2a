import RamlTypes.Mark
import RamlTypes.Path

/-!
# Faults

A fault is the reason why a load or a resolution stops. A declaration that cannot be read wraps the
fault inside it, so a fault is a chain that ends in its root cause.
-/

namespace RamlTypes

/-- A file, and a position in it when one is known. -/
structure Location where
  path : Path
  mark : Mark
  deriving DecidableEq, Repr

namespace Location

/-- A whole file. -/
def file (p : Path) : Location := ⟨p, .unknown⟩

/-- The place as it stands in the text of an error. -/
def text (l : Location) : String :=
  if l.mark.isKnown then l.path.text ++ ":" ++ l.mark.text else l.path.text

end Location

/-- What an entry of a declaration must hold. -/
inductive Expected where
  | scalar
  | boolean
  | unsigned
  | number
  | sequence
  | namedEntries
  deriving DecidableEq, Repr

/-- What was expected, in words. -/
def Expected.text : Expected → String
  | .scalar => "a scalar"
  | .boolean => "a boolean"
  | .unsigned => "a non-negative integer"
  | .number => "a number"
  | .sequence => "a sequence"
  | .namedEntries => "a mapping of named entries"

/-- What is wrong with a document that is read as a declaration or as a fragment. The texts called
`found` name the sort of node that stands in the wrong place. -/
inductive Flaw where
  /-- A list of parents is empty. -/
  | noParents
  | parentNotName (found : String)
  | typeNotName (found : String)
  /-- The path of an include is not a scalar. -/
  | includeWithoutFile
  | emptyAnnotationName
  | keyNotScalar (found : String)
  /-- The entry `key` holds something else than it must. -/
  | wrongEntry (key : String) (expected : Expected) (found : String)
  /-- The section `what` of a fragment is no mapping. -/
  | sectionNotMapping (what found : String)
  | sectionKeyNotScalar (what : String)
  /-- A `.json` file is not JSON. -/
  | invalidJson
  /-- A type that is declared by an include has no file. -/
  | noLink
  deriving DecidableEq, Repr

/-- What is wrong with a declaration, in words. -/
def Flaw.text : Flaw → String
  | .noParents => "multiple inheritance needs at least one parent"
  | .parentNotName found => "parent types must be type names, found " ++ found
  | .typeNotName found => "type must be a type name or a list of type names, found " ++ found
  | .includeWithoutFile => "!include must name a file"
  | .emptyAnnotationName => "annotation name must not be empty"
  | .keyNotScalar found => "mapping keys must be scalars, found " ++ found
  | .wrongEntry key expected found =>
    "'" ++ key ++ "' must be " ++ expected.text ++ ", found " ++ found
  | .sectionNotMapping what found => what ++ " must be a mapping, found " ++ found
  | .sectionKeyNotScalar what => what ++ " keys must be scalars"
  | .invalidJson => "invalid JSON schema: "
  | .noLink => "included type has no linked fragment"

/-- Why a file could not be read. -/
inductive ReadFailure where
  /-- A set of files in memory has no such path. -/
  | unknownPath
  /-- A directory tree has no such file. -/
  | noSuchFile
  /-- The path leads through a file as if it were a directory. -/
  | notDirectory
  /-- The path is a directory. -/
  | isDirectory
  /-- Another reason, in the system's words. -/
  | system (reason : String)
  deriving DecidableEq, Repr

/-- Why a file cannot be read, in words. -/
def ReadFailure.text (p : Path) : ReadFailure → String
  | .unknownPath => p.text ++ " not found"
  | .noSuchFile => "No such file or directory (os error 2)"
  | .notDirectory => "Not a directory (os error 20)"
  | .isDirectory => "Is a directory (os error 21)"
  | .system reason => reason

/-- What can be wrong with a file or with a type. -/
inductive Fault where
  /-- A document does not have the form that its place asks for. -/
  | decode (place : Location) (flaw : Flaw)
  /-- The declaration of `name` is invalid because of another fault. -/
  | declaration (name : String) (place : Location) (cause : Fault)
  /-- A type expression cannot be read beyond a byte offset. -/
  | expressionSyntax (expression : String) (offset : Nat) (place : Location)
  /-- A type that is referred to is not declared. -/
  | referenceNotFound (name : String) (place : Location)
  /-- An alias that is used is not in the uses of its file. -/
  | libraryNotFound (library : String) (place : Location)
  /-- A type depends on its own resolution. -/
  | cyclicType (name : String) (place : Location)
  /-- A type failed to resolve before. -/
  | unresolvable (name : String) (place : Location)
  /-- A file does not have the header that its use asks for. -/
  | headerMismatch (path : Path) (expected found : String)
  | unreadable (path : Path) (failure : ReadFailure)
  /-- A file is not YAML. -/
  | yaml (path : Path)
  deriving DecidableEq, Repr

namespace Fault

/-- Where a fault lies, for the faults that point into a document. -/
def location? : Fault → Option Location
  | .decode l _ | .declaration _ l _ | .expressionSyntax _ _ l | .referenceNotFound _ l
  | .libraryNotFound _ l | .cyclicType _ l | .unresolvable _ l => some l
  | .headerMismatch .. | .unreadable .. | .yaml _ => none

/-- The text of a fault without its causes. -/
def message : Fault → String
  | .decode l flaw => l.text ++ ": " ++ flaw.text
  | .declaration name l _ => l.text ++ ": invalid declaration of '" ++ name ++ "'"
  | .expressionSyntax expression offset l =>
    l.text ++ ": invalid type expression '" ++ expression ++ "' at offset " ++ toString offset
      ++ ": "
  | .referenceNotFound name l => l.text ++ ": type '" ++ name ++ "' is not defined"
  | .libraryNotFound library l =>
    l.text ++ ": library alias '" ++ library ++ "' is not declared in uses"
  | .cyclicType name l => l.text ++ ": type '" ++ name ++ "' depends on itself"
  | .unresolvable name l =>
    l.text ++ ": type '" ++ name ++ "' failed to resolve earlier in this load"
  | .headerMismatch path expected found =>
    path.text ++ ": expected fragment header '" ++ expected ++ "', found '" ++ found ++ "'"
  | .unreadable path failure => "failed to read " ++ path.text ++ ": " ++ failure.text path
  | .yaml path => "YAML error in " ++ path.text ++ ": "

/-- The innermost fault of a chain of declarations. -/
def rootCause : Fault → Fault
  | .declaration _ _ cause => cause.rootCause
  | f => f

/-- The lines for the causes of a fault, outermost first. -/
def causeTexts : Fault → List String
  | .declaration _ _ cause => ("  caused by: " ++ cause.message) :: cause.causeTexts
  | _ => []

/-- The texts of a fault and of what caused it, outermost first, down to the system's reason. -/
def reasons (f : Fault) : List String :=
  match f with
  | .declaration _ _ cause => f.message :: cause.reasons
  | .unreadable path failure => [f.message, failure.text path]
  | _ => [f.message]

/-- The whole chain, one line for each fault. -/
def trace (f : Fault) : String :=
  "\n".intercalate (f.message :: f.causeTexts)

/-- Whether the fault is a type that depends on itself. -/
def isCycle : Fault → Bool
  | .cyclicType .. => true
  | _ => false

end Fault

/-- A fault other than a type that depends on itself. Files and their declarations have no other
faults; that a type depends on itself is found when it is resolved. -/
structure PlainFault where
  fault : Fault
  plain : fault.isCycle = false

namespace PlainFault

instance : Coe PlainFault Fault := ⟨fault⟩

/-- The fault of a document that does not have its form. -/
def decode (place : Location) (flaw : Flaw) : PlainFault := ⟨.decode place flaw, rfl⟩

/-- The fault of an invalid declaration. -/
def declaration (name : String) (place : Location) (cause : PlainFault) : PlainFault :=
  ⟨.declaration name place cause.fault, rfl⟩

/-- The fault of a type expression that cannot be read. -/
def expressionSyntax (expression : String) (offset : Nat) (place : Location) : PlainFault :=
  ⟨.expressionSyntax expression offset place, rfl⟩

/-- The fault of a reference to a type that is not declared. -/
def referenceNotFound (name : String) (place : Location) : PlainFault :=
  ⟨.referenceNotFound name place, rfl⟩

/-- The fault of a reference to a library that is not used. -/
def libraryNotFound (library : String) (place : Location) : PlainFault :=
  ⟨.libraryNotFound library place, rfl⟩

/-- The fault of a type that has failed before. -/
def unresolvable (name : String) (place : Location) : PlainFault := ⟨.unresolvable name place, rfl⟩

/-- The fault of a file of another kind. -/
def headerMismatch (path : Path) (expected found : String) : PlainFault :=
  ⟨.headerMismatch path expected found, rfl⟩

/-- The fault of a file that cannot be read. -/
def unreadable (path : Path) (failure : ReadFailure) : PlainFault := ⟨.unreadable path failure, rfl⟩

/-- The fault of a file that is no document. -/
def yaml (path : Path) : PlainFault := ⟨.yaml path, rfl⟩

end PlainFault

end RamlTypes
