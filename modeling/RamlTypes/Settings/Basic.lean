import RamlTypes.Path
import RamlTypes.Settings.Value
import RamlTypes.Store.Basic
import RamlTypes.Toml.Quoted

/-!
# Settings

The settings of the command line, their defaults, what settings a layered value spells, and their
spelling as a TOML document.
-/

namespace RamlTypes

structure Settings where
  /-- The directory that relative paths are taken against; without it, the working directory. -/
  root : Option String
  /-- Whether a file with the extension `json` can stand for a data type. -/
  jsonShorthand : Bool
  /-- Whether a load resolves all that it declares. -/
  eagerResolution : Bool
  /-- The extensions of the files that a scan loads. -/
  libraryExtensions : List String
  /-- Which events are logged. -/
  logFilter : String
  deriving DecidableEq, Repr

namespace Settings

/-- What holds where nothing is set. -/
def default : Settings := ⟨none, true, true, ["raml"], "warn"⟩

/-- The decoded value of a field, or its default when it is not set. -/
def decode {α : Type} (field : Option Setting) (read : Setting → Option α) (absent : α) :
    Option α :=
  match field with
  | some v => read v
  | none => some absent

/-- A section, where a section that is not set has no fields. -/
def sectionOf? (root : Setting) (name : String) (names : List String) :
    Option (String → Option Setting) :=
  Setting.field? names ((Dict.find? name root.entries).getD (.group []))

/-- Reads settings, if every value that is set has the right form. Unknown keys mean nothing. -/
def ofSetting? (root : Setting) : Option Settings := do
  let loader ← sectionOf? root "loader"
    ["root", "json_shorthand", "eager_resolution", "library_extensions"]
  let logging ← sectionOf? root "logging" ["filter"]
  let readRoot : Setting → Option (Option String)
    | .missing => some none
    | v => v.text?.map some
  return {
    root := ← decode (loader "root") readRoot default.root
    jsonShorthand := ← decode (loader "json_shorthand") Setting.bool? default.jsonShorthand
    eagerResolution := ← decode (loader "eager_resolution") Setting.bool? default.eagerResolution
    libraryExtensions :=
      ← decode (loader "library_extensions") Setting.texts? default.libraryExtensions
    logFilter := ← decode (logging "filter") Setting.text? default.logFilter }

/-- The settings as a TOML document. -/
def toToml (s : Settings) : String :=
  let flag (b : Bool) : String := if b then "true" else "false"
  let root := match s.root with
    | some r => "root = " ++ Toml.quoted r ++ "\n"
    | none => ""
  "[loader]\n" ++ root
    ++ "json_shorthand = " ++ flag s.jsonShorthand ++ "\n"
    ++ "eager_resolution = " ++ flag s.eagerResolution ++ "\n"
    ++ "library_extensions = " ++ Toml.quotedList s.libraryExtensions ++ "\n"
    ++ "\n[logging]\nfilter = " ++ Toml.quoted s.logFilter ++ "\n"

/-- The absolute directory that relative paths are taken against. -/
def rootIn (s : Settings) (workingDir : Path) : Path :=
  match s.root with
  | some r => workingDir.join r
  | none => workingDir

/-- What a loader needs to know. -/
def load (s : Settings) (workingDir : Path) : LoadSettings :=
  ⟨s.rootIn workingDir, s.jsonShorthand, s.eagerResolution⟩

/-- Whether a scan loads a file, which its extension decides. -/
def isFragmentFile (s : Settings) (p : Path) : Bool :=
  p.extension?.any s.libraryExtensions.contains

end Settings

end RamlTypes
