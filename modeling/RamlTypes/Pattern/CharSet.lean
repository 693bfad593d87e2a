import RamlTypes.Pattern.Piece

/-!
# Bracketed sets of characters

Sets hold characters, ranges, escape sequences, named ASCII classes and other sets. The operators
`&&`, `--` and `~~` combine what stands before them with what stands after them.
-/

namespace RamlTypes.Pattern

/-- The names of the ASCII classes. -/
def asciiClasses : List String :=
  ["alnum", "alpha", "ascii", "blank", "cntrl", "digit", "graph", "lower", "print", "punct",
    "space", "upper", "word", "xdigit"]

/-- Reads an ASCII class whose bracket is open: whether it is negated, and what follows it. What
has another form is a set. -/
def asciiClass? (cs : List Char) : Option (Bool × List Char) := do
  let ':' :: rest := cs | none
  let (negated, rest) := match rest with
    | '^' :: rest => (true, rest)
    | rest => (false, rest)
  let name := rest.takeWhile (· ≠ ':')
  let ':' :: ']' :: rest := rest.dropWhile (· ≠ ':') | none
  if asciiClasses.contains (String.ofList name) then some (negated, rest) else none

/-- A bracketed set of which some members are read. -/
structure CharSet where
  negated : Bool
  /-- What stands before the last operator. -/
  left : Option Piece
  members : Pieces

namespace CharSet

/-- One more member. -/
def add (s : CharSet) (p : Piece) : CharSet :=
  { s with members := s.members.add p }

/-- The members and what they are combined with. -/
def content (s : CharSet) : Piece :=
  match s.left with
  | none => s.members.piece
  | some l => ⟨max l.depth s.members.piece.depth + 1, l.weight + s.members.weight⟩

/-- Goes on after an operator. -/
def operator (s : CharSet) : CharSet :=
  { s with left := some s.content, members := .none }

/-- The set after its closing bracket. The complement of a set of bytes holds parts of
characters. -/
def close (m : Mode) (s : CharSet) : Except Flaw Piece :=
  if s.negated && !m.unicode then .error .splitsCharacters
  else .ok ⟨s.content.depth + 1, s.content.weight + if s.negated then fullWeight else 0⟩

/-- Hyphens at the start of a set, which are members. -/
def hyphens (m : Mode) (cs : List Char) : Nat × List Char :=
  match _h : m.skip cs with
  | '-' :: rest => ((hyphens m rest).1 + 1, (hyphens m rest).2)
  | rest => (0, rest)
termination_by cs.length
decreasing_by
  all_goals
    have := m.skip_length_le cs
    grind

/-- Starts a set after its bracket. A closing bracket that comes first is a member. -/
def start (m : Mode) (cs : List Char) : CharSet × List Char :=
  let (negated, rest) := match m.skip cs with
    | '^' :: rest => (true, rest)
    | rest => (false, rest)
  let (count, rest) := hyphens m rest
  let member : Piece := (Atom.char '-').piece
  let s : CharSet := ⟨negated, none, (List.replicate count member).foldl Pieces.add .none⟩
  match count, rest with
  | 0, ']' :: rest => (s.add member, rest)
  | _, rest => (s, rest)

/-- One end of a range, or a member alone. A set of bytes has no other characters than ASCII. -/
def single (m : Mode) (cs : List Char) : Except Flaw (Atom × List Char) := do
  let (a, rest) ← match cs with
    | '\\' :: rest => escape m rest
    | c :: rest => pure (.char c, rest)
    | [] => throw .openSet
  match a with
  | .char c => if 128 ≤ c.toNat && !m.unicode then throw .notBytes else return (a, rest)
  | _ => return (a, rest)

/-- The character after a hyphen that decides whether the hyphen forms a range. Blanks and one
number sign before it are passed over where blanks mean nothing. -/
def afterHyphen (m : Mode) (cs : List Char) : Option Char :=
  if m.skipsBlank then
    match Text.dropBlank cs with
    | '#' :: rest => (Text.dropBlank rest).head?
    | rest => rest.head?
  else cs.head?

/-- A member that is a range, a character or an escape sequence. -/
def member (m : Mode) (cs : List Char) : Except Flaw (Piece × List Char) := do
  let (low, rest) ← single m cs
  let alone : Except Flaw (Piece × List Char) :=
    match low with
    | .assertion => .error .setEscape
    | _ => .ok (low.piece, rest)
  match m.skip rest with
  | '-' :: after =>
    if [some ']', some '-'].contains (afterHyphen m after) then alone
    else
      let (high, rest) ← single m (m.skip after)
      match low, high with
      | .char a, .char b =>
        if a ≤ b then return (⟨0, high.weight + stateBytes⟩, rest) else throw .reversedRange
      | _, _ => throw .rangeEnd
  | _ => alone

/-- Reads members up to the bracket that closes the outermost set. `outer` holds the sets around
the current one, innermost first; each step takes a character, so `fuel` is the count of
characters. -/
def read (m : Mode) : Nat → List CharSet → CharSet → List Char → Except Flaw (Piece × List Char)
  | 0, _, _, _ => .error .openSet
  | fuel + 1, outer, s, cs =>
    match m.skip cs with
    | [] => .error .openSet
    | '[' :: rest =>
      match asciiClass? rest with
      | some (negated, rest) =>
        if negated && !m.unicode then .error .splitsCharacters
        else read m fuel outer (s.add ⟨0, 96⟩) rest
      | none =>
        let (inner, rest) := start m rest
        read m fuel (s :: outer) inner rest
    | ']' :: rest => do
      let piece ← s.close m
      match outer with
      | [] => return (piece, rest)
      | parent :: outer => read m fuel outer (parent.add piece) rest
    | '&' :: '&' :: rest | '-' :: '-' :: rest | '~' :: '~' :: rest =>
      read m fuel outer s.operator rest
    | rest => do
      let (piece, rest) ← member m rest
      read m fuel outer (s.add piece) rest

/-- Reads a bracketed set after its first bracket. -/
def ofChars (m : Mode) (cs : List Char) : Except Flaw (Piece × List Char) :=
  let (s, rest) := start m cs
  read m (rest.length + 1) [] s rest

end CharSet

end RamlTypes.Pattern
