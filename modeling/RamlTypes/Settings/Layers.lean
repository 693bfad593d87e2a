import RamlTypes.Settings.Basic
import RamlTypes.Toml.Reader

/-!
# Layers of settings

Settings are read from documents, later ones first, and from variables of the environment, which
come last and so win. A variable such as `RAML__LOADER__ROOT` names a path of keys.
-/

namespace RamlTypes.Settings

/-- How the names of the variables that count start, in lower case. -/
def variableStart : List Char := ['r', 'a', 'm', 'l', '_', '_']

/-- The list among the settings, which a variable holds with commas between its items. -/
def listKey : String := "loader.library_extensions"

/-- Two underscores in a row separate keys. -/
def dotted : List Char → List Char
  | '_' :: '_' :: rest => '.' :: dotted rest
  | c :: rest => c :: dotted rest
  | [] => []

/-- The path of keys that a variable names, if it counts. -/
def variableKey? (name : String) : Option String :=
  let cs := (Text.lowerAscii name).toList
  if variableStart.isPrefixOf cs then
    some (String.ofList (dotted (cs.drop variableStart.length)))
  else none

/-- The double that a text denotes, with the words for infinity and no number in any case. -/
def double? (s : String) : Option Binary64 :=
  let (negative, unsigned) := Numeral.cutSign (Text.lowerAscii s).toList
  if ["inf", "infinity"].contains (String.ofList unsigned) then some (.infinite negative)
  else if unsigned = ['n', 'a', 'n'] then some .nan
  else (Numeral.parts? s.toList).map Numeral.Parts.value

/-- The value of a variable: a truth value, a number within its range, a list or a text. -/
def variableValue (key value : String) : Setting :=
  match Text.lowerAscii value with
  | "true" => .bool true
  | "false" => .bool false
  | _ =>
    let whole := (Numeral.integer? value.toList).filter fun i =>
      -9223372036854775808 ≤ i ∧ i ≤ 9223372036854775807
    match whole, double? value with
    | some i, _ => .int i
    | none, some d => .float d
    | none, none =>
      if key = listKey then
        .list ((Text.splitAt ',' value.toList).map fun item => .text (String.ofList item))
      else .text value

/-- The layer of the environment. -/
def environment (env : List (String × String)) : List (String × Setting) :=
  env.filterMap fun (name, value) =>
    (variableKey? name).map fun key => (key, variableValue key value)

/-- The layer of a document, if it is TOML. -/
def document? (text : String) : Option (List (String × Setting)) :=
  (Toml.read? text).map Setting.ofEntries

/-- The settings of documents and of the environment, later ones winning. -/
def ofLayers? (documents : List String) (env : List (String × String)) :
    Option Settings := do
  let layers ← documents.mapM document?
  ofSetting? ((layers ++ [environment env]).foldl Setting.layer (.group []))

end RamlTypes.Settings
