import RamlTypes.CommandLine.Arguments

/-!
# Help texts

What the command line prints when help is asked for.
-/

namespace RamlTypes.CommandLine

namespace Verb

/-- What a command does. -/
def summary : Verb → String
  | load => "Load fragments and print a summary of each"
  | view => "Print one resolved type as JSON"
  | scan => "Load every fragment under a directory into one registry"
  | config => "Print the active configuration as TOML"
  | help => "Print this message or the help of the given subcommand(s)"

/-- What follows the name of a command in its usage line. -/
def usage : Verb → String
  | load => "[OPTIONS] <FILES>..."
  | view => "[OPTIONS] <FILE> <NAME>"
  | scan => "[OPTIONS] [DIR]"
  | config => "[OPTIONS]"
  | help => "[COMMAND]..."

/-- The operands of a command and what they mean. -/
def operandLines : Verb → List String
  | load => ["  <FILES>...  Library or DataType files"]
  | view => ["  <FILE>  Fragment declaring the type", "  <NAME>  Declared type name"]
  | scan => ["  [DIR]  Directory to walk [default: .]"]
  | config => []
  | help => ["  [COMMAND]...  Print help for the subcommand(s)"]

/-- The option of a command that is on or off. -/
def switchLines : Verb → List String
  | load => ["  -d, --diagnostics      Print diagnostics after loading"]
  | view => ["      --compact          Compact output"]
  | _ => []

end Verb

/-- The options of every command. -/
def optionLines : List String :=
  ["  -c, --config <CONFIG>  Configuration file (layered over raml.toml and RAML_* variables)",
    "  -h, --help             Print help"]

/-- A headed part of a help text; a part without lines is left out. -/
def helpPart (heading : String) (lines : List String) : List String :=
  if lines = [] then [] else "" :: (heading ++ ":") :: lines

/-- The help on one command, or on the program. -/
def helpText (verb : Option Verb) : String :=
  let lines : List String := match verb with
    | some v =>
      [v.summary, "", "Usage: raml-shapes " ++ v.name ++ " " ++ v.usage]
        ++ helpPart "Arguments" v.operandLines
        ++ helpPart "Options" (if v = .help then [] else v.switchLines ++ optionLines)
    | none =>
      ["Load RAML 1.0 libraries and data types into a typed shape graph", "",
          "Usage: raml-shapes [OPTIONS] <COMMAND>"]
        ++ helpPart "Commands" (Verb.all.map fun v =>
          "  " ++ v.name ++ String.ofList (List.replicate (8 - v.name.length) ' ') ++ v.summary)
        ++ helpPart "Options" optionLines
  String.join (lines.map (· ++ "\n"))

end RamlTypes.CommandLine
