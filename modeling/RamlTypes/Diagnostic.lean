import RamlTypes.Json.Basic

/-!
# Diagnostics

Findings that do not stop a load. Each has a code, which fixes its severity, and is about a subject:
a path, or a path and a type name joined by `#`.
-/

namespace RamlTypes

/-- What a diagnostic reports. -/
inductive Finding where
  /-- The parents of a type have different kinds. -/
  | divergentParentKinds
  /-- The regular expression engine does not accept a `pattern`. -/
  | unsupportedPattern
  /-- A library section outside the data type model. -/
  | ignoredSection
  /-- An annotation without a matching annotation type. -/
  | annotationUnbound
  deriving DecidableEq, Repr

/-- How grave a finding is. -/
inductive Severity where
  | info
  | warning
  deriving DecidableEq, Repr

namespace Finding

/-- All findings, in the order of their declaration. -/
def all : List Finding :=
  [divergentParentKinds, unsupportedPattern, ignoredSection, annotationUnbound]

/-- The short code in reports. -/
def code : Finding → String
  | divergentParentKinds => "W001"
  | unsupportedPattern => "W002"
  | ignoredSection => "I001"
  | annotationUnbound => "I002"

/-- The name in serialized diagnostics. -/
def name : Finding → String
  | divergentParentKinds => "DivergentParentKinds"
  | unsupportedPattern => "UnsupportedPattern"
  | ignoredSection => "IgnoredSection"
  | annotationUnbound => "UnboundAnnotation"

/-- Each kind of finding has its own severity. -/
def severity : Finding → Severity
  | divergentParentKinds | unsupportedPattern => .warning
  | ignoredSection | annotationUnbound => .info

/-- The finding of a given name. -/
def ofName? (n : String) : Option Finding :=
  all.find? fun f => f.name == n

end Finding

/-- The name of the severity, as it is printed. -/
def Severity.text : Severity → String
  | .info => "info"
  | .warning => "warning"

/-- A finding at a place, which the load goes on after. -/
structure Diagnostic where
  subject : String
  finding : Finding
  message : String
  context : List String
  deriving DecidableEq, Repr

namespace Diagnostic

/-- The parents of a type have different kinds: one context line for each parent and its kind. -/
def divergentParents (subject : String) (kinds : List (String × String)) : Diagnostic :=
  ⟨subject, .divergentParentKinds,
    "parents resolve to different kinds; the first parent's kind is used",
    kinds.map fun p => p.1 ++ ": " ++ p.2⟩

/-- A pattern that the regular expression engine does not accept, and why. -/
def unsupportedPattern (subject pattern reason : String) : Diagnostic :=
  ⟨subject, .unsupportedPattern, "pattern '" ++ pattern ++ "' cannot be compiled", [reason]⟩

/-- A library section that the data type model does not have. -/
def ignoredSection (subject name : String) : Diagnostic :=
  ⟨subject, .ignoredSection, "section '" ++ name ++ "' is not part of the data type model", []⟩

/-- An annotation for which no annotation type is declared. -/
def annotationUnbound (subject name : String) : Diagnostic :=
  ⟨subject, .annotationUnbound, "annotation '(" ++ name ++ ")' has no annotation type", []⟩

/-- The severity is that of the finding. -/
def severity (d : Diagnostic) : Severity :=
  d.finding.severity

/-- One line, followed by an indented line for each context text. -/
def text (d : Diagnostic) : String :=
  "[" ++ d.finding.code ++ "] " ++ d.severity.text ++ ": " ++ d.message ++ " (" ++ d.subject ++ ")"
    ++ String.join (d.context.map fun c => "\n  - " ++ c)

/-- The serialized form; an empty context is left out. -/
def toJson (d : Diagnostic) : Json :=
  .obj ([("subject", .str d.subject), ("code", .str d.finding.name), ("message", .str d.message)]
    ++ Json.listField "context" .str d.context)

/-- A text, if the value is one. -/
def string? : Json → Option String
  | .str s => some s
  | _ => none

/-- The texts of a list, if it has no other values. -/
def strings? : Json → Option (List String)
  | .arr items => items.mapM string?
  | _ => none

/-- A finding by its name, alone or as the only key of an object with value `null`. -/
def finding? : Json → Option Finding
  | .str n => Finding.ofName? n
  | .obj [(n, .null)] => Finding.ofName? n
  | _ => none

/-- Reads the serialized form: an object, or an array with the fields in order. The context may be
missing, unknown fields are skipped, and everything else must be there. -/
def ofJson? : Json → Option Diagnostic
  | .arr [subject, finding, message] => do
    return ⟨← string? subject, ← finding? finding, ← string? message, []⟩
  | .arr [subject, finding, message, context] => do
    return ⟨← string? subject, ← finding? finding, ← string? message, ← strings? context⟩
  | .obj entries => do
    let subject ← Dict.find? "subject" entries >>= string?
    let finding ← Dict.find? "code" entries >>= finding?
    let message ← Dict.find? "message" entries >>= string?
    let context ← match Dict.find? "context" entries with
      | some c => strings? c
      | none => some []
    return ⟨subject, finding, message, context⟩
  | _ => none

end Diagnostic

/-- Diagnostics in the order in which they were found. -/
abbrev Diagnostics := List Diagnostic

namespace Diagnostics

/-- How many diagnostics are warnings. -/
def warningCount (ds : Diagnostics) : Nat :=
  ds.countP fun d => d.severity = .warning

/-- How many diagnostics report a given finding. -/
def count (f : Finding) (ds : Diagnostics) : Nat :=
  ds.countP fun d => d.finding = f

/-- All diagnostics and a line of totals; nothing at all when there are none. -/
def report (ds : Diagnostics) : String :=
  if ds.isEmpty then ""
  else
    let warnings := warningCount ds
    let notes := ds.length - warnings
    String.join (ds.map fun d => d.text ++ "\n")
      ++ "\n" ++ toString warnings ++ " warning(s), " ++ toString notes ++ " note(s)\n"

/-- The diagnostics as they are printed, in the order in which they were found. -/
def toJson (ds : Diagnostics) : Json :=
  .obj [("items", .arr (ds.map Diagnostic.toJson))]

end Diagnostics

end RamlTypes
