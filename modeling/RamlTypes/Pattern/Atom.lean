import RamlTypes.Pattern.Flaw
import RamlTypes.Pattern.Property
import RamlTypes.Text.Blank

/-!
# Atoms of patterns

A character, a set of characters or an assertion, as an escape sequence or a plain character spells
it. What an escape sequence may be hangs on the mode in which the pattern is read.
-/

namespace RamlTypes.Pattern

/-- How the characters of a pattern are read. -/
structure Mode where
  /-- Blank characters, and comments from `#` to the end of the line, separate parts and mean
  nothing. -/
  skipsBlank : Bool
  /-- The pattern matches characters and not bytes. -/
  unicode : Bool

/-- Characters without the blanks and comments at the front, inside a comment or not. -/
def skipComments : Bool → List Char → List Char
  | _, [] => []
  | true, c :: rest => skipComments (c != '\n') rest
  | false, c :: rest =>
    if Text.isBlank c then skipComments false rest
    else if c = '#' then skipComments true rest
    else c :: rest

theorem skipComments_length_le (inside : Bool) (cs : List Char) :
    (skipComments inside cs).length ≤ cs.length := by
  fun_induction skipComments inside cs with grind

/-- The next characters that mean something. -/
def Mode.skip (m : Mode) (cs : List Char) : List Char :=
  if m.skipsBlank then skipComments false cs else cs

theorem Mode.skip_length_le (m : Mode) (cs : List Char) : (m.skip cs).length ≤ cs.length := by
  unfold Mode.skip
  split
  · exact skipComments_length_le false cs
  · exact Nat.le_refl _

/-- What matches at most one character. -/
inductive Atom where
  | char (c : Char)
  | anyChar
  | assertion
  /-- A set of characters and the bytes that its automaton takes. -/
  | set (weight : Nat)

/-- The bytes that one state of an automaton takes. -/
def stateBytes : Nat := 32

/-- The bytes of the automaton for all characters but a few. -/
def fullWeight : Nat := 1000

/-- The bytes of the automaton of an atom. Nothing is taken by what matches the empty text. -/
def Atom.weight : Atom → Nat
  | char c => stateBytes * c.utf8Size
  | anyChar => fullWeight
  | assertion => 0
  | set weight => weight

/-- The characters up to a closing brace and what follows it. -/
def braced? (m : Mode) (cs : List Char) : Option (List Char × List Char) :=
  match _h : m.skip cs with
  | [] => none
  | '}' :: rest => some ([], rest)
  | c :: rest => (braced? m rest).map fun p => (c :: p.1, p.2)
termination_by cs.length
decreasing_by
  have := m.skip_length_le cs
  grind

/-- Whether a character is a hexadecimal digit. -/
def isHex (c : Char) : Bool :=
  c.isDigit || ('a' ≤ c && c ≤ 'f') || ('A' ≤ c && c ≤ 'F')

/-- The number that hexadecimal digits spell. -/
def hexNumber (ds : List Char) : Nat :=
  ds.foldl (fun n d => 16 * n +
    (if d.isDigit then d.toNat - '0'.toNat else d.toLower.toNat - 'a'.toNat + 10)) 0

/-- The character with a number in hexadecimal digits. -/
def hexChar (ds : List Char) : Except Flaw Atom :=
  let n := hexNumber ds
  if h : n.isValidChar then .ok (.char (Char.ofNatAux n h)) else .error .hexValue

/-- A fixed count of hexadecimal digits. -/
def hexDigits (m : Mode) : Nat → List Char → Except Flaw (List Char × List Char)
  | 0, cs => .ok ([], cs)
  | _ + 1, [] => .error .openEscape
  | n + 1, c :: rest => do
    if !isHex c then throw .hexDigit
    let (ds, rest) ← hexDigits m n (m.skip rest)
    return (c :: ds, rest)

/-- The character of an escape sequence with `count` hexadecimal digits, or with any number of them
in braces. Two digits spell a byte, which in a pattern of bytes has to be a whole character. -/
def hexEscape (m : Mode) (count : Nat) (cs : List Char) : Except Flaw (Atom × List Char) :=
  match m.skip cs with
  | [] => throw .openEscape
  | '{' :: rest => do
    let some (ds, rest) := braced? m rest | throw .openEscape
    if !ds.all isHex then throw .hexDigit
    if ds = [] then throw .emptyHex
    return (← hexChar ds, rest)
  | rest => do
    let (ds, rest) ← hexDigits m count rest
    if count = 2 ∧ 128 ≤ hexNumber ds ∧ !m.unicode then throw .splitsCharacters
    return (← hexChar ds, rest)

/-- The set of the characters with a property. -/
def propertyEscape (m : Mode) (cs : List Char) : Except Flaw (Atom × List Char) := do
  let (name, rest) ← match m.skip cs with
    | [] => throw .openEscape
    | '{' :: rest => match braced? m rest with
      | some found => pure found
      | none => throw .openEscape
    | '\\' :: _ => throw .propertyName
    | c :: rest => pure ([c], rest)
  if !m.unicode then throw .notBytes
  match Property.lookup? name with
  | some weight => return (.set weight, rest)
  | none => throw .unknownProperty

/-- The sets with a letter of their own. In a pattern of bytes their complements hold parts of
characters. -/
def letterEscape (m : Mode) (c : Char) : Except Flaw Atom :=
  if m.unicode then
    .ok (.set (if c.toLower = 'd' then 5184 else if c.toLower = 's' then 680 else 50316))
  else if c.isUpper then .error .splitsCharacters
  else .ok (.set 96)

/-- A word boundary. Braces after it that start with a letter or a hyphen name a special one; other
braces are a counted repetition of the boundary. -/
def boundaryEscape (m : Mode) (cs : List Char) : Except Flaw (Atom × List Char) := do
  let '{' :: rest := cs | return (.assertion, cs)
  let isNamePart (c : Char) : Bool := c.isAlpha || c == '-'
  match m.skip rest with
  | [] => throw .openBoundary
  | c :: _ =>
    if !isNamePart c then return (.assertion, cs)
    let some (name, rest) := braced? m rest | throw .openBoundary
    if !name.all isNamePart then throw .openBoundary
    if ["start", "end", "start-half", "end-half"].contains (String.ofList name) then
      return (.assertion, rest)
    throw .unknownBoundary

/-- The atom that follows a backslash. ASCII characters that are neither letters nor digits stand
for themselves. -/
def escape (m : Mode) : List Char → Except Flaw (Atom × List Char)
  | [] => .error .openEscape
  | 'x' :: rest => hexEscape m 2 rest
  | 'u' :: rest => hexEscape m 4 rest
  | 'U' :: rest => hexEscape m 8 rest
  | 'p' :: rest | 'P' :: rest => propertyEscape m rest
  | 'b' :: rest => boundaryEscape m rest
  | c :: rest =>
    if c.isDigit then .error .backReference
    else if ['d', 's', 'w', 'D', 'S', 'W'].contains c then
      (letterEscape m c).map fun a => (a, rest)
    else if ['A', 'z', 'B', '<', '>'].contains c then .ok (.assertion, rest)
    else match [('a', '\x07'), ('f', '\x0c'), ('t', '\t'), ('n', '\n'), ('r', '\r'),
        ('v', '\x0b')].lookup c with
      | some d => .ok (.char d, rest)
      | none => if c.toNat < 128 && !c.isAlpha then .ok (.char c, rest) else .error .unknownEscape

end RamlTypes.Pattern
