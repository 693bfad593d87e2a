/-!
# Arguments of the command line

`Invocation.ofArguments` reads the arguments: options, the name of a command and what the command
takes. Reading ends with an invocation, with a request for help, or with a refusal.
-/

namespace RamlTypes.CommandLine

/-- What is to be done. -/
inductive Command where
  /-- Load fragments and print a summary of each. -/
  | load (files : List String) (diagnostics : Bool)
  /-- Print one resolved type as JSON. -/
  | view (file name : String) (compact : Bool)
  /-- Load every fragment under a directory. -/
  | scan (directory : String)
  /-- Print the settings as TOML. -/
  | config
  deriving DecidableEq, Repr

/-- A command and the file of settings that it is given. -/
structure Invocation where
  settingsFile : Option String
  command : Command
  deriving DecidableEq, Repr

/-- The commands by name. -/
inductive Verb where
  | load
  | view
  | scan
  | config
  | help
  deriving DecidableEq, Repr

namespace Verb

def name : Verb → String
  | load => "load"
  | view => "show"
  | scan => "scan"
  | config => "config"
  | help => "help"

def all : List Verb := [load, view, scan, config, help]

def ofName? (n : String) : Option Verb :=
  all.find? fun v => v.name == n

/-- The long name of the option that is on or off, if the command has one. -/
def switch? : Verb → Option String
  | load => some "diagnostics"
  | view => some "compact"
  | _ => none

/-- The short name of that option, if it has one. -/
def shortSwitch? : Verb → Option Char
  | load => some 'd'
  | _ => none

/-- How many operands a command takes at most; some have no bound. -/
def mostOperands : Verb → Option Nat
  | load => none
  | view => some 2
  | scan => some 1
  | config | help => some 0

end Verb

/-- Why arguments do not lead to an invocation. -/
inductive Refusal where
  /-- Help is asked for, on a command or on all of them. -/
  | help (verb : Option Verb)
  | unknownOption (text : String)
  | missingValue (option : String)
  | unexpectedValue (option : String)
  | repeatedOption (option : String)
  | unexpectedOperand (text : String)
  | missingOperand (verb : Verb)
  | unknownCommand (name : String)
  | missingCommand
  deriving DecidableEq, Repr

/-- The wording of a refusal. -/
def Refusal.text : Refusal → String
  | help _ => ""
  | unknownOption t => "unexpected argument '" ++ t ++ "' found"
  | missingValue o => "a value is required for '" ++ o ++ "' but none was supplied"
  | unexpectedValue o => "unexpected value for '" ++ o ++ "' found; no more were expected"
  | repeatedOption o => "the argument '" ++ o ++ "' cannot be used multiple times"
  | unexpectedOperand t => "unexpected argument '" ++ t ++ "' found"
  | missingOperand v => "the arguments of '" ++ v.name ++ "' were not provided"
  | unknownCommand n => "unrecognized subcommand '" ++ n ++ "'"
  | missingCommand => "a subcommand is required but one was not provided"

/-- What is read of the arguments of one command, or of those before the command. -/
structure Arguments where
  settingsFile : Option String
  switched : Bool
  operands : List String

namespace Arguments

/-- Nothing is read. -/
def none : Arguments := ⟨Option.none, false, []⟩

/-- Gives the file of settings, which is given once and has a name. -/
def setFile (a : Arguments) (value : String) : Except Refusal Arguments :=
  if value = "" then .error (.missingValue "--config <CONFIG>")
  else if a.settingsFile.isSome then .error (.repeatedOption "--config <CONFIG>")
  else .ok { a with settingsFile := some value }

/-- Turns the switch of a command on, once. -/
def switchOn (a : Arguments) (verb : Verb) : Except Refusal Arguments :=
  if a.switched then .error (.repeatedOption ("--" ++ verb.switch?.getD ""))
  else .ok { a with switched := true }

/-- Adds an operand. Only the second operand of `show`, a name, may be empty. -/
def addOperand (a : Arguments) (verb : Verb) (text : String) : Except Refusal Arguments :=
  if verb.mostOperands.any (· ≤ a.operands.length) then .error (.unexpectedOperand text)
  else if text = "" ∧ ¬ (verb = .view ∧ a.operands.length = 1) then
    .error (.missingValue verb.name)
  else .ok { a with operands := a.operands ++ [text] }

/-- Whether an argument can be the value of an option before it: it does not look like an option. -/
def isValue (text : String) : Bool :=
  text = "-" || text.toList.head? != some '-'

/-- Gives the file of settings from the argument after the option. -/
def setFileFrom (a : Arguments) : List String → Except Refusal (Arguments × List String)
  | value :: rest =>
    if isValue value then (a.setFile value).map fun a => (a, rest)
    else .error (.missingValue "--config <CONFIG>")
  | [] => .error (.missingValue "--config <CONFIG>")

/-- Reads a long option whose hyphens are cut off, and its value if that is the next argument. -/
def longOption (verb : Option Verb) (a : Arguments) (text : List Char) (rest : List String) :
    Except Refusal (Arguments × List String) :=
  let name := String.ofList (text.takeWhile (· ≠ '='))
  let value : Option String :=
    if text.contains '=' then some (String.ofList ((text.dropWhile (· ≠ '=')).drop 1)) else .none
  match name, value with
  | "config", some value => (a.setFile value).map fun a => (a, rest)
  | "config", .none => a.setFileFrom rest
  | "help", .none => .error (.help verb)
  | "help", some _ => .error (.unexpectedValue "--help")
  | _, _ =>
    match verb.filter fun v => v.switch? = some name with
    | .none => .error (.unknownOption ("--" ++ name))
    | some v =>
      if value.isSome then .error (.unexpectedValue ("--" ++ name))
      else (a.switchOn v).map fun a => (a, rest)

/-- Reads a cluster of short options whose hyphen is cut off. -/
def shortOptions (verb : Option Verb) (a : Arguments) (rest : List String) :
    List Char → Except Refusal (Arguments × List String)
  | [] => .ok (a, rest)
  | 'c' :: value =>
    match value with
    | [] => a.setFileFrom rest
    | '=' :: value => (a.setFile (String.ofList value)).map fun a => (a, rest)
    | value => (a.setFile (String.ofList value)).map fun a => (a, rest)
  | 'h' :: _ => .error (.help verb)
  | c :: more =>
    match verb.filter fun v => v.shortSwitch? = some c with
    | .none => .error (.unknownOption (String.ofList ['-', c]))
    | some v => do shortOptions verb (← a.switchOn v) rest more

/-- Reads the arguments of a command. Each step takes one at least, so `fuel` is their count. -/
def read (verb : Verb) : Nat → Arguments → List String → Except Refusal Arguments
  | 0, a, _ => .ok a
  | _, a, [] => .ok a
  | fuel + 1, a, text :: rest => do
    match text.toList with
    | ['-', '-'] => rest.foldlM (fun a operand => a.addOperand verb operand) a
    | '-' :: '-' :: option =>
      let (a, rest) ← longOption (some verb) a option rest
      read verb fuel a rest
    | '-' :: c :: cluster =>
      let (a, rest) ← shortOptions (some verb) a rest (c :: cluster)
      read verb fuel a rest
    | _ => read verb fuel (← a.addOperand verb text) rest

/-- Reads the options before the command, the name of the command and what follows it. -/
def readVerb : Nat → Arguments → List String → Except Refusal (Arguments × Verb × List String)
  | 0, _, _ => .error .missingCommand
  | _, _, [] => .error .missingCommand
  | fuel + 1, a, text :: rest => do
    match text.toList with
    | ['-', '-'] => throw (match rest with
      | operand :: _ => .unexpectedOperand operand
      | [] => .missingCommand)
    | '-' :: '-' :: option =>
      let (a, rest) ← longOption .none a option rest
      readVerb fuel a rest
    | '-' :: c :: cluster =>
      let (a, rest) ← shortOptions .none a rest (c :: cluster)
      readVerb fuel a rest
    | _ =>
      match Verb.ofName? text with
      | some verb => return (a, verb, rest)
      | .none => throw (.unknownCommand text)

/-- The command that the arguments spell. -/
def command (a : Arguments) (verb : Verb) : Except Refusal Command :=
  match verb, a.operands with
  | .load, [] => .error (.missingOperand .load)
  | .load, files => .ok (.load files a.switched)
  | .view, [file, name] => .ok (.view file name a.switched)
  | .scan, [] => .ok (.scan ".")
  | .scan, [directory] => .ok (.scan directory)
  | .config, [] => .ok .config
  | verb, _ => .error (.missingOperand verb)

end Arguments

/-- The refusal that answers the command `help`, which takes the name of a command. -/
def helpOn : List String → Refusal
  | [] => .help none
  | [name] => match Verb.ofName? name with
    | some verb => .help (some verb)
    | none => .unknownCommand name
  | name :: other :: _ => .unknownCommand (if (Verb.ofName? name).isSome then other else name)

/-- Reads the arguments of the program. A file of settings that is given after the command wins over
one before it. -/
def Invocation.ofArguments (arguments : List String) : Except Refusal Invocation := do
  let (before, verb, rest) ← Arguments.readVerb arguments.length .none arguments
  if verb = .help then throw (helpOn rest)
  let after ← Arguments.read verb rest.length .none rest
  return ⟨after.settingsFile.or before.settingsFile, ← after.command verb⟩

end RamlTypes.CommandLine
