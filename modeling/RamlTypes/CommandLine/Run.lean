import RamlTypes.CommandLine.Help
import RamlTypes.CommandLine.Surroundings
import RamlTypes.Json.Printer
import RamlTypes.Resolution.Load
import RamlTypes.View

/-!
# Running commands

`CommandLine.run` gives what a run prints and its exit code. It does not read or write anything: the
files it can see are part of its surroundings.
-/

namespace RamlTypes.CommandLine

/-- What a run prints, and how it ends. -/
structure Outcome where
  code : Nat
  out : String
  err : String
  /-- The store at the end, when fragments were loaded. -/
  store : Option Store

/-- The lines that sum up a loaded fragment. -/
def summaryLines (s : Store) (f : Fragment) : List String :=
  let kindOf (id : ShapeId) : String := match s.shapes[id]? with
    | some shape => shape.kind.name
    | none => ""
  let nameOf (id : ShapeId) : String := match s.shapes[id]? with
    | some shape => shape.name
    | none => ""
  let heading := "✅ " ++ f.location.text ++ " (" ++ f.kind.name ++ ") - "
  match f with
  | .library l =>
    [heading ++ toString l.types.length ++ " type(s), "
        ++ toString l.annotationTypes.length ++ " annotation type(s)"]
      ++ l.uses.map (fun (name, p) => "   uses " ++ name ++ ": " ++ p.text)
      ++ l.types.map (fun (name, id) => "   " ++ name ++ " : " ++ kindOf id)
      ++ ["   sha256 " ++ l.checksum]
  | .dataType d =>
    [heading ++ nameOf d.shape ++ " : " ++ kindOf d.shape, "   sha256 " ++ d.checksum]

/-- Lines as text. -/
def unlines (lines : List String) : String :=
  String.join (lines.map (· ++ "\n"))

/-- The text of what stopped an action. -/
def stopText (faultText : Fault → String) (e : Stop) : String :=
  (e.fault?.map faultText).getD "the depth of the recursion is exhausted"

/-- A run that failed after printing something. -/
def failed (out : String) (reason : String) (s : Option Store) : Outcome :=
  ⟨1, out, "Error: " ++ reason ++ "\n", s⟩

/-- Loads files in order and prints a summary of each, up to the first that cannot be loaded. -/
def load (diagnostics : Bool) : List String → String → Store → Outcome
  | [], out, s =>
    let totals := toString s.fragments.length ++ " fragment(s), " ++ toString s.shapes.size
      ++ " shape(s), " ++ toString s.resolved.length ++ " resolved"
    let report :=
      if diagnostics && !s.diagnostics.isEmpty then "\n" ++ s.diagnostics.report else ""
    ⟨0, out ++ unlines ["", totals] ++ report, "", some s⟩
  | file :: rest, out, s =>
    match Load.load ⟨file⟩ s with
    | (.ok f, s) => load diagnostics rest (out ++ unlines (summaryLines s f)) s
    | (.error stop, s) => failed out ("loading " ++ file ++ ": " ++ stopText Fault.trace stop) s

/-- Prints one type. -/
def view (file name : String) (compact : Bool) (s : Store) : Outcome :=
  match Load.load ⟨file⟩ s with
  | (.error stop, s) => failed "" ("loading " ++ file ++ ": " ++ stopText Fault.trace stop) s
  | (.ok _, s) =>
    match Load.resolveNamed ⟨file⟩ name s with
    | (.error stop, s) =>
      let reason := stopText (fun f => ": ".intercalate f.reasons) stop
      failed "" ("resolving " ++ name ++ ": " ++ reason) s
    | (.ok id, s) =>
      let json := (View.ofShape s.shapes id).toJson
      ⟨0, (if compact then json.compact else json.pretty) ++ "\n", "", some s⟩

/-- Loads files in order and prints a summary of each or why it cannot be loaded; `failures` counts
those that cannot. -/
def scanFiles : List Path → String → Nat → Store → String × Nat × Store
  | [], out, failures, s => (out, failures, s)
  | file :: rest, out, failures, s =>
    match Load.load file s with
    | (.ok f, s) => scanFiles rest (out ++ unlines (summaryLines s f)) failures s
    | (.error stop, s) =>
      let reasons := (Text.lines (stopText Fault.trace stop)).map ("   " ++ ·)
      scanFiles rest (out ++ unlines (("❌ " ++ file.text) :: reasons)) (failures + 1) s

/-- Loads every fragment under a directory. -/
def scan (surroundings : Surroundings) (settings : Settings) (directory : String) (s : Store) :
    Outcome :=
  match surroundings.filesBelow ⟨directory⟩ with
  | none => failed "" (directory ++ " is not a directory") none
  | some below =>
    let paths := below.map fun names => names.foldl Path.join ⟨directory⟩
    let files := paths.filter settings.isFragmentFile
    let (out, failures, s) := scanFiles files "" 0 s
    let totals := toString files.length ++ " file(s) scanned, " ++ toString failures
      ++ " failed, " ++ toString s.diagnostics.warningCount ++ " warning(s)"
    ⟨if failures = 0 then 0 else 1, out ++ unlines ["", totals], "", some s⟩

/-- Runs a command with its settings. -/
def runCommand (surroundings : Surroundings) (settings : Settings) : Command → Outcome
  | .load files diagnostics => load diagnostics files "" start
  | .view file name compact => view file name compact start
  | .scan directory => scan surroundings settings directory start
  | .config => ⟨0, settings.toToml, "", none⟩
where
  /-- The store before anything is loaded. -/
  start : Store := Store.empty (settings.load surroundings.workingDir) surroundings.files

/-- What is printed before the reason for which settings cannot be had. -/
def settingsFailure : String := "invalid configuration: "

/-- Runs the program. Wrong arguments end it with code 2. -/
def run (surroundings : Surroundings) (arguments : List String) : Outcome :=
  match Invocation.ofArguments arguments with
  | .error (.help verb) => ⟨0, helpText verb, "", none⟩
  | .error refusal => ⟨2, "", "error: " ++ refusal.text ++ "\n", none⟩
  | .ok invocation =>
    match settings surroundings invocation.settingsFile with
    | .error fault => failed "" (settingsFailure ++ fault.text) none
    | .ok settings => runCommand surroundings settings invocation.command

end RamlTypes.CommandLine
