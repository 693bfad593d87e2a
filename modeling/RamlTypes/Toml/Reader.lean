import RamlTypes.Toml.Assembly
import RamlTypes.Toml.Moment
import RamlTypes.Toml.Number
import RamlTypes.Toml.Text

/-!
# Reading TOML documents

`Toml.read?` reads the statements of a document line by line and puts them together. Each reader
takes at least one character per call, so the count of characters bounds the recursion.
-/

namespace RamlTypes.Toml

/-- How deep arrays and inline tables may be nested, and how many parts a dotted key may have. -/
def depthLimit : Nat := 79

/-- What follows a comment, which ends before the end of its line. -/
def dropComment (cs : List Char) : List Char :=
  match cs with
  | '#' :: rest => rest.dropWhile isPrintable
  | _ => cs

/-- Characters without the blanks, comments and line ends at the front. -/
def dropLines : Nat → List Char → List Char
  | 0, cs => cs
  | fuel + 1, cs =>
    let rest := dropComment (dropBlanks cs)
    match newline? rest with
    | some rest => dropLines fuel rest
    | none => rest

/-- Whether a character may stand in a key without quotes. -/
def isKeyChar (c : Char) : Bool :=
  c.isAlphanum || c = '_' || c = '-'

/-- One part of a key. -/
def keyPart? (cs : List Char) : Option (String × List Char) :=
  match cs with
  | '"' :: _ | '\'' :: _ => line? cs
  | _ =>
    match cs.takeWhile isKeyChar with
    | [] => none
    | part => some (String.ofList part, cs.drop part.length)

/-- The parts of a key with dots between them and blanks around them. -/
def keyParts? : Nat → List Char → Option (List String × List Char)
  | 0, _ => none
  | fuel + 1, cs => do
    let (part, rest) ← keyPart? (dropBlanks cs)
    match dropBlanks rest with
    | '.' :: rest => (keyParts? fuel rest).map fun p => (part :: p.1, p.2)
    | rest => some ([part], rest)

/-- A key: its parts but the last, and the last. -/
def key? (cs : List Char) : Option (List String × String × List Char) := do
  let (parts, rest) ← keyParts? depthLimit cs
  return (parts.dropLast, ← parts.getLast?, rest)

mutual

/-- Reads a value. `room` is how much deeper it may be nested. -/
def value? : Nat → Nat → List Char → Option (Toml × List Char)
  | 0, _, _ => none
  | fuel + 1, room, cs =>
    match cs with
    | '"' :: _ | '\'' :: _ => (text? cs).map fun p => (.text p.1, p.2)
    | '[' :: rest =>
      match room with
      | 0 => none
      | room + 1 => (items? fuel room rest).map fun p => (.array p.1, p.2)
    | '\x7b' :: rest =>
      match room with
      | 0 => none
      | room + 1 =>
        match dropBlanks rest with
        | '\x7d' :: rest => some (.table [], rest)
        | rest => do
          let (entries, rest) ← entries? fuel room rest
          return (← inline? entries, rest)
    | 't' :: 'r' :: 'u' :: 'e' :: rest => some (.bool true, rest)
    | 'f' :: 'a' :: 'l' :: 's' :: 'e' :: rest => some (.bool false, rest)
    | _ =>
      if Moment.startsDate cs || Moment.startsTime cs then
        (Moment.read? cs).map fun p => (.moment p.1, p.2)
      else Number.read? cs

/-- Reads the items of an array up to its closing bracket. -/
def items? : Nat → Nat → List Char → Option (List Toml × List Char)
  | 0, _, _ => none
  | fuel + 1, room, cs =>
    match dropLines cs.length cs with
    | ']' :: rest => some ([], rest)
    | rest => do
      let (v, rest) ← value? fuel room rest
      match dropLines rest.length rest with
      | ']' :: rest => some ([v], rest)
      | ',' :: rest => (items? fuel room rest).map fun p => (v :: p.1, p.2)
      | _ => none

/-- Reads the entries of an inline table up to its closing brace. -/
def entries? : Nat → Nat → List Char → Option (List (List String × String × Toml) × List Char)
  | 0, _, _ => none
  | fuel + 1, room, cs => do
    let (path, key, rest) ← key? cs
    let '=' :: rest := rest | none
    let (v, rest) ← value? fuel room (dropBlanks rest)
    match dropBlanks rest with
    | '\x7d' :: rest => some ([(path, key, v)], rest)
    | ',' :: rest => (entries? fuel room rest).map fun p => ((path, key, v) :: p.1, p.2)
    | _ => none

end

/-- What follows the end of a statement: blanks, perhaps a comment, and the end of the line or of
the document. -/
def lineEnd? (cs : List Char) : Option (List Char) :=
  match dropComment (dropBlanks cs) with
  | [] => some []
  | rest => newline? rest

/-- Reads one statement. -/
def statement? (cs : List Char) : Option (Statement × List Char) :=
  match cs with
  | '[' :: '[' :: rest => do
    let (path, key, rest) ← key? rest
    let ']' :: ']' :: rest := rest | none
    return (.openElement path key, rest)
  | '[' :: rest => do
    let (path, key, rest) ← key? rest
    let ']' :: rest := rest | none
    return (.openTable path key, rest)
  | _ => do
    let (path, key, rest) ← key? cs
    let '=' :: rest := rest | none
    let (v, rest) ← value? (rest.length + 1) depthLimit (dropBlanks rest)
    return (.assign path key v, rest)

/-- Reads the statements of a document. -/
def statements? : Nat → List Char → Option (List Statement)
  | 0, _ => none
  | fuel + 1, cs =>
    match dropLines cs.length cs with
    | [] => some []
    | rest => do
      let (s, rest) ← statement? rest
      let rest ← lineEnd? rest
      return s :: (← statements? fuel rest)

/-- The entries of a document. A byte order mark at its start means nothing. -/
def read? (text : String) : Option (List (String × Toml)) := do
  let cs := match text.toList with
    | '\ufeff' :: rest => rest
    | cs => cs
  let statements ← statements? (cs.length + 1) cs
  return Draft.finishEntries (← assemble? [] [] statements)

end RamlTypes.Toml
