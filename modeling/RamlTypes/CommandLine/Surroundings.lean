import RamlTypes.Settings.Layers

/-!
# What the command line sees

A run depends on the working directory, on the variables of the environment and on the files that
can be read. `Surroundings.ofTree` takes the files from a directory tree in memory.
-/

namespace RamlTypes.CommandLine

/-- What a run depends on besides its arguments. -/
structure Surroundings where
  workingDir : Path
  /-- The variables of the environment. -/
  environment : List (String × String)
  /-- The text of a file of settings, if there is such a file. -/
  settingsText : Path → Option String
  /-- The files below a directory as names under it, in the order of a walk, if it is one. -/
  filesBelow : Path → Option (List (List String))
  /-- The files that fragments and examples are read from. -/
  files : Files

namespace Surroundings

/-- Whether a place of a tree is a directory. -/
def isDirectoryAt (fs : Files) (key : PathKey) : Bool :=
  key = [.root] || fs.known.any fun entry =>
    match entry.2 with
    | .ok _ => key.isPrefixOf entry.1 && key ≠ entry.1
    | .error _ => key.isPrefixOf entry.1

/-- The place that an absolute path leads to. Each step but the last has to lead to a directory. -/
def place? (fs : Files) (p : Path) : Option PathKey :=
  p.components.foldlM (fun key c => match c with
    | .root => some [.root]
    | .here => some key
    | c =>
      if !isDirectoryAt fs key then none
      else if c = .up then some (if key = [.root] then key else key.dropLast)
      else some (key ++ [c])) [.root]

/-- Whether a list of names comes before another in a walk. -/
def before : List String → List String → Bool
  | [], _ => true
  | _, [] => false
  | a :: as, b :: bs => if a = b then before as bs else a < b

/-- The names under a directory of the files below it, in the order of a walk: the entries of each
directory in the order of their names, and what is in a directory at its place. -/
def walk (fs : Files) (key : PathKey) : List (List String) :=
  let names (entry : PathKey × Except ReadFailure String) : Option (List String) :=
    if entry.2.isOk && key.isPrefixOf entry.1 then
      some ((entry.1.drop key.length).map Component.text)
    else none
  (fs.known.filterMap names).mergeSort before

/-- The surroundings in a directory tree that holds the given files. -/
def ofTree (workingDir : Path) (environment : List (String × String))
    (texts : List (Path × String)) : Surroundings :=
  let known : Dict PathKey (Except ReadFailure String) := [(workingDir.key, .error .isDirectory)]
  let fs : Files := ⟨texts.foldl (fun d entry => Dict.put entry.1.key (.ok entry.2) d) known, true⟩
  { workingDir := workingDir
    environment := environment
    settingsText := fun p => do
      let key ← place? fs (workingDir.join p.text)
      let .ok text ← Dict.find? key fs.known | none
      return text
    filesBelow := fun p => do
      let key ← place? fs (workingDir.join p.text)
      if isDirectoryAt fs key then some (walk fs key) else none
    files := fs }

/-- The value of a variable. -/
def valueOf? (s : Surroundings) (name : String) : Option String :=
  s.environment.lookup name

/-- The user's directory for settings. -/
def userDir? (s : Surroundings) : Option Path :=
  let configured := (s.valueOf? "XDG_CONFIG_HOME").filter fun d => (Path.mk d).isAbsolute
  match configured with
  | some d => some ⟨d⟩
  | none => ((s.valueOf? "HOME").filter (· ≠ "")).map fun home => (Path.mk home).join ".config"

end Surroundings

/-- Why settings cannot be had. -/
inductive SettingsFault where
  | notFound (p : Path)
  /-- The name of a file does not say that it is TOML. -/
  | unknownFormat (p : Path)
  /-- A file is not TOML, or a value has the wrong form. -/
  | invalid
  deriving DecidableEq, Repr

/-- The wording of a fault of settings. -/
def SettingsFault.text : SettingsFault → String
  | notFound p => "configuration file \"" ++ p.text ++ "\" not found"
  | unknownFormat p => "configuration file \"" ++ p.text ++ "\" is not of a registered file format"
  | invalid => "the settings do not have the expected form"

/-- The document of settings that a path names: a TOML file, or one whose extension `toml` is left
out. -/
def document (s : Surroundings) (p : Path) : Except SettingsFault String :=
  match s.settingsText p, s.settingsText ⟨p.text ++ ".toml"⟩ with
  | some text, _ => if p.extension? = some "toml" then .ok text else .error (.unknownFormat p)
  | none, some text => .ok text
  | none, none => .error (.notFound p)

/-- The documents of settings that are read without being asked for, later ones winning. -/
def usualDocuments (s : Surroundings) : List Path :=
  let user := match s.userDir? with
    | some d => [(d.join "raml-shapes").join "raml.toml"]
    | none => []
  [⟨"raml.toml"⟩, ⟨".raml.toml"⟩, ⟨"config/raml.toml"⟩] ++ user

/-- The settings of a run. -/
def settings (s : Surroundings) (file : Option String) : Except SettingsFault Settings := do
  let usual := (usualDocuments s).filterMap fun p => (document s p).toOption
  let given ← match file with
    | some f => (document s ⟨f⟩).map fun text => [text]
    | none => pure []
  match Settings.ofLayers? (usual ++ given) s.environment with
  | some settings => return settings
  | none => throw .invalid

end RamlTypes.CommandLine
