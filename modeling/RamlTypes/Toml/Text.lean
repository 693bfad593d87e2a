import RamlTypes.Number.Numeral
import RamlTypes.Text.Blank

/-!
# TOML texts

Readers of the four kinds of quoted text: basic texts with escape sequences, literal texts without
them, and both over several lines. Each reader starts after the opening quotes and returns the text
and what follows the closing quotes.
-/

namespace RamlTypes.Toml

/-- Blanks inside a line. -/
def isBlankChar (c : Char) : Bool :=
  c = ' ' || c = '\t'

/-- Characters without the blanks at the front. -/
def dropBlanks (cs : List Char) : List Char :=
  cs.dropWhile isBlankChar

/-- What follows the end of a line, which is a line feed or a carriage return with one. -/
def newline? : List Char → Option (List Char)
  | '\n' :: rest => some rest
  | '\r' :: '\n' :: rest => some rest
  | _ => none

/-- Whether a character may stand in a text or a comment: no control character but the tab. -/
def isPrintable (c : Char) : Bool :=
  c = '\t' || (0x20 ≤ c.toNat && c.toNat ≠ 0x7f)

/-- A character given by `count` hexadecimal digits. -/
def codePoint? (count : Nat) (cs : List Char) : Option (Char × List Char) := do
  let digits := cs.take count
  if digits.length < count then none
  let n ← Numeral.natural? 16 digits
  if h : n.isValidChar then some (Char.ofNatAux n h, cs.drop count) else none

/-- The character of an escape sequence after its backslash. -/
def escape? : List Char → Option (Char × List Char)
  | 'u' :: rest => codePoint? 4 rest
  | 'U' :: rest => codePoint? 8 rest
  | c :: rest =>
    ([('b', '\x08'), ('t', '\t'), ('n', '\n'), ('f', '\x0c'), ('r', '\r'), ('"', '"'),
      ('\\', '\\')].lookup c).map fun d => (d, rest)
  | [] => none

/-- Reads a basic text on one line. -/
def basic? : Nat → List Char → Option (List Char × List Char)
  | 0, _ => none
  | fuel + 1, cs =>
    match cs with
    | '"' :: rest => some ([], rest)
    | '\\' :: rest => do
      let (c, rest) ← escape? rest
      let (more, rest) ← basic? fuel rest
      return (c :: more, rest)
    | c :: rest =>
      if isPrintable c then (basic? fuel rest).map fun p => (c :: p.1, p.2) else none
    | [] => none

/-- Reads a literal text on one line. -/
def literal? (cs : List Char) : Option (List Char × List Char) :=
  let own := cs.takeWhile fun c => c ≠ '\'' && isPrintable c
  match cs.drop own.length with
  | '\'' :: rest => some (own, rest)
  | _ => none

/-- Reads a run of quotes inside a text over several lines: the quotes that belong to the text,
whether the text ends, and what follows. Three quotes end it; up to two may stand before them. -/
def quotes (quote : Char) (cs : List Char) : List Char × Bool × List Char :=
  let run := min 5 (cs.takeWhile (· = quote)).length
  let closing := 3 ≤ run
  (List.replicate (if closing then run - 3 else run) quote, closing, cs.drop run)

/-- What follows a backslash at the end of a line: blanks and line ends are skipped up to the next
other character. -/
def joinLines? (cs : List Char) : Option (List Char) := do
  let rest ← newline? (dropBlanks cs)
  return skip false rest
where
  /-- Skips blanks and line ends; `pending` says that a carriage return is read. -/
  skip : Bool → List Char → List Char
    | true, '\n' :: rest => skip false rest
    | true, rest => '\r' :: rest
    | false, '\r' :: rest => skip true rest
    | false, c :: rest => if isBlankChar c || c = '\n' then skip false rest else c :: rest
    | false, [] => []

/-- Reads a text over several lines that ends with three quotes; `escapes` says whether a backslash
starts an escape sequence. Line ends are read as line feeds. -/
def multiline? (quote : Char) (escapes : Bool) : Nat → List Char → Option (List Char × List Char)
  | 0, _ => none
  | fuel + 1, cs =>
    match newline? cs with
    | some rest => (multiline? quote escapes fuel rest).map fun p => ('\n' :: p.1, p.2)
    | none =>
      match cs with
      | [] => none
      | c :: rest =>
        if c = quote then
          let (own, closing, rest) := quotes quote cs
          if closing then some (own, rest)
          else (multiline? quote escapes fuel rest).map fun p => (own ++ p.1, p.2)
        else if escapes && c = '\\' then
          match joinLines? rest with
          | some rest => multiline? quote escapes fuel rest
          | none => do
            let (d, rest) ← escape? rest
            let (more, rest) ← multiline? quote escapes fuel rest
            return (d :: more, rest)
        else if isPrintable c then
          (multiline? quote escapes fuel rest).map fun p => (c :: p.1, p.2)
        else none

/-- Characters without a line end that comes first. -/
def dropNewline (cs : List Char) : List Char :=
  (newline? cs).getD cs

/-- Reads a text on one line with its opening quote. -/
def line? (cs : List Char) : Option (String × List Char) :=
  match cs with
  | '"' :: rest => (basic? (rest.length + 1) rest).map fun p => (String.ofList p.1, p.2)
  | '\'' :: rest => (literal? rest).map fun p => (String.ofList p.1, p.2)
  | _ => none

/-- Reads a text with its opening quotes. -/
def text? (cs : List Char) : Option (String × List Char) :=
  match cs with
  | '"' :: '"' :: '"' :: rest =>
    (multiline? '"' true (rest.length + 1) (dropNewline rest)).map fun p =>
      (String.ofList p.1, p.2)
  | '\'' :: '\'' :: '\'' :: rest =>
    (multiline? '\'' false (rest.length + 1) (dropNewline rest)).map fun p =>
      (String.ofList p.1, p.2)
  | _ => line? cs

end RamlTypes.Toml
