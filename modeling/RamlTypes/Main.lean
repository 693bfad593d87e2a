import RamlTypes.CommandLine.Run

/-!
# The program

Reads what a run can see, runs it, and prints what it yields. A run tells which files it asked for,
so it is repeated until it asks for no file that has not been read.
-/

namespace RamlTypes.Program

/-- The variables that settings and their files can depend on. -/
def variableNames : List String :=
  ["RAML__LOADER__ROOT", "RAML__LOADER__JSON_SHORTHAND", "RAML__LOADER__EAGER_RESOLUTION",
    "RAML__LOADER__LIBRARY_EXTENSIONS", "RAML__LOGGING__FILTER", "XDG_CONFIG_HOME", "HOME"]

/-- The text of a file, or why it cannot be read. -/
def readText (p : Path) : IO (Except ReadFailure String) := do
  try
    return .ok (← IO.FS.readFile p.text)
  catch
    | .inappropriateType none .. => return .error .isDirectory
    | .inappropriateType (some _) .. => return .error .notDirectory
    | .noFileOrDirectory .. => return .error .noSuchFile
    | .permissionDenied .. => return .error (.system "Permission denied (os error 13)")
    | e => return .error (.system (toString e))

/-- The files below a directory as names under it, in the order of a walk. -/
partial def walk (directory : Path) : IO (List (List String)) := do
  let entries ← (← IO.FS.realPath directory.text).readDir
  let names := (entries.toList.map (·.fileName)).mergeSort (· ≤ ·)
  let nested ← names.mapM fun name => do
    let p := directory.join name
    if ← (← IO.FS.realPath p.text).isDir then
      return (← walk p).map (name :: ·)
    else return [[name]]
  return nested.flatten

/-- The files below a directory, if it is one. -/
def filesBelow (directory : Path) : IO (Option (List (List String))) := do
  try
    return some (← walk directory)
  catch _ => return none

/-- The files of settings that a run may read, with their texts. -/
def settingsTexts (s : CommandLine.Surroundings) (given : Option String) :
    IO (List (String × String)) := do
  let named := CommandLine.usualDocuments s ++ given.toList.map Path.mk
  let candidates := named.flatMap fun p => [p, ⟨p.text ++ ".toml"⟩]
  let found ← candidates.mapM fun p => do
    match ← readText p with
    | .ok text => return [(p.text, text)]
    | .error _ => return []
  return found.flatten

/-- Runs until all files that the run asks for have been read. -/
partial def runWith (s : CommandLine.Surroundings) (arguments : List String) :
    IO CommandLine.Outcome := do
  let outcome := CommandLine.run s arguments
  let asked := match outcome.store with
    | some store => (Dict.keys store.reads).filter fun key => !Dict.has key s.files.known
    | none => []
  if asked = [] then return outcome
  let found ← asked.mapM fun key => do return (key, ← readText (Path.ofComponents key))
  runWith { s with files := { s.files with known := s.files.known ++ found } } arguments

/-- What a run can see when it starts. -/
def surroundings (arguments : List String) : IO CommandLine.Surroundings := do
  let environment ← variableNames.filterMapM fun name => do
    return (← IO.getEnv name).map fun value => (name, value)
  let bare : CommandLine.Surroundings :=
    { workingDir := ⟨(← IO.currentDir).toString⟩
      environment := environment
      settingsText := fun _ => none
      filesBelow := fun _ => none
      files := ⟨[], true⟩ }
  match CommandLine.Invocation.ofArguments arguments with
  | .error _ => return bare
  | .ok invocation =>
    let texts ← settingsTexts bare invocation.settingsFile
    let below ← match invocation.command with
      | .scan directory => filesBelow ⟨directory⟩
      | _ => pure none
    return { bare with
      settingsText := fun p => texts.lookup p.text
      filesBelow := fun _ => below }

end RamlTypes.Program

open RamlTypes in
/-- The program `raml-shapes`. -/
def main (arguments : List String) : IO UInt32 := do
  let outcome ← Program.runWith (← Program.surroundings arguments) arguments
  IO.print outcome.out
  IO.eprint outcome.err
  return UInt32.ofNat outcome.code
