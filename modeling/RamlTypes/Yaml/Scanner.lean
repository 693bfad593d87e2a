import RamlTypes.Yaml.Token

/-!
# The state of a YAML scanner

A scanner goes through a text once. It keeps the tokens that are found but not handed out yet,
because a `:` can turn out to make the token before it a key; the places where such a key may
start; and the indentation of the open block collections. `Scan` is the type of its actions, which
fail on text that is not YAML.
-/

namespace RamlTypes.Yaml

/-- A place in the text: the number of characters before it, its line counted from one, and its
column counted from zero. -/
structure Place where
  index : Nat
  line : Nat
  column : Nat
  deriving DecidableEq, Repr

/-- The place as it is reported: columns are counted from one. -/
def Place.mark (p : Place) : Mark := ⟨p.line, p.column + 1⟩

/-- A token that may turn out to be a key. -/
structure KeyCandidate where
  possible : Bool
  /-- The token stands where the block mapping needs a key. -/
  required : Bool
  /-- The number of tokens before it in the whole text. -/
  number : Nat
  place : Place
  deriving DecidableEq, Repr

/-- The indentation around an open level, and whether the level is a block collection, which an
end token closes. -/
structure Level where
  indent : Int
  isBlock : Bool
  deriving DecidableEq, Repr

/-- What is left of the text, and what the scanner remembers of it. -/
structure Scanner where
  rest : List Char
  place : Place
  /-- Tokens found but not handed out, first one first. -/
  tokens : List Token
  /-- The number of tokens handed out. -/
  handedOut : Nat
  /-- Only white space stands before the place in its line. -/
  atLineStart : Bool
  /-- A key may start here. -/
  keyAllowed : Bool
  /-- The candidate of each flow level, innermost first. -/
  candidates : List KeyCandidate
  /-- The current indentation; `-1` outside of all blocks. -/
  indent : Int
  /-- The open levels, innermost first. -/
  levels : List Level
  /-- The number of open flow collections. -/
  flowDepth : Nat
  /-- Where a `:` may follow a key without a blank after it. -/
  adjacentValueAt : Nat
  /-- A flow mapping is open whose entries need no brace of their own. -/
  inFlowMapping : Bool
  /-- For each open flow sequence, whether an unbraced pair is open in it. -/
  pairs : List Bool
  started : Bool

/-- Actions of a scanner; `none` is a fault of the text. -/
abbrev Scan := StateT Scanner Option

namespace Scanner

/-- A scanner before the first character of a text. -/
def ofText (text : String) : Scanner where
  rest := text.toList
  place := ⟨0, 1, 0⟩
  tokens := []
  handedOut := 0
  atLineStart := true
  keyAllowed := true
  candidates := []
  indent := -1
  levels := []
  flowDepth := 0
  adjacentValueAt := 0
  inFlowMapping := false
  pairs := []
  started := false

/-- The character `n` places ahead. -/
def ahead (s : Scanner) (n : Nat) : Char :=
  s.rest.getD n endChar

/-- The next character. -/
def next (s : Scanner) : Char :=
  s.rest.headD endChar

/-- The column in which the scanner stands. -/
def column (s : Scanner) : Int := s.place.column

/-- Inside of a flow collection. -/
def inFlow (s : Scanner) : Bool := 0 < s.flowDepth

/-- Passes `n` characters of the line; content ends the white space at the line's start. -/
def advance (s : Scanner) (n : Nat) (content : Bool) : Scanner :=
  { s with
    rest := s.rest.drop n
    place := ⟨s.place.index + n, s.place.line, s.place.column + n⟩
    atLineStart := s.atLineStart && !(content && 0 < n) }

/-- Passes `n` characters and starts a new line. -/
def passLine (s : Scanner) (n : Nat) : Scanner :=
  { s with
    rest := s.rest.drop n
    place := ⟨s.place.index + n, s.place.line + 1, 0⟩
    atLineStart := true }

/-- Passes a line break, if one follows. A carriage return and a line feed are one break. -/
def passBreak (s : Scanner) : Scanner :=
  match s.rest with
  | '\r' :: '\n' :: _ => s.passLine 2
  | '\n' :: _ | '\r' :: _ => s.passLine 1
  | _ => s

/-- Whether the line starts with three marker characters that stand alone. -/
def atMarker (s : Scanner) (c : Char) : Bool :=
  s.place.column = 0 && s.ahead 0 = c && s.ahead 1 = c && s.ahead 2 = c && isSpaceOrEnd (s.ahead 3)

/-- Whether a document marker, `---` or `...`, follows. -/
def atDocumentMarker (s : Scanner) : Bool :=
  s.atMarker '-' || s.atMarker '.'

/-- Adds a token at the end of the queue. -/
def push (s : Scanner) (kind : TokenKind) (place : Place) : Scanner :=
  { s with tokens := s.tokens ++ [⟨kind, place.mark⟩] }

/-- Adds a token in front of the token with a given number. -/
def insert (s : Scanner) (number : Nat) (kind : TokenKind) (place : Place) : Scanner :=
  let n := number - s.handedOut
  { s with tokens := s.tokens.take n ++ ⟨kind, place.mark⟩ :: s.tokens.drop n }

/-- Drops the open levels that are no block collections. -/
def dropSoftLevels (s : Scanner) : Scanner :=
  let soft := s.levels.takeWhile fun l => !l.isBlock
  match soft.getLast? with
  | some l => { s with indent := l.indent, levels := s.levels.drop soft.length }
  | none => s

/-- Moves the indentation one column on inside of a block collection, so that what follows has to be
indented more than it. -/
def addSoftLevel (s : Scanner) : Scanner :=
  match s.levels with
  | l :: _ =>
    if !s.inFlow && l.isBlock then
      { s with levels := ⟨s.indent, false⟩ :: s.levels, indent := s.indent + 1 }
    else s
  | [] => s

/-- Opens a block collection at a column if the column is deeper than the current indentation. Its
start token goes in front of the token with a given number, or to the end of the queue. -/
def openBlock (s : Scanner) (column : Nat) (number : Option Nat) (kind : TokenKind)
    (place : Place) : Scanner :=
  if s.inFlow then s
  else
    let s := match s.levels with
      | l :: levels =>
        if s.indent ≤ (column : Int) ∧ !l.isBlock then
          { s with indent := l.indent, levels := levels }
        else s
      | [] => s
    if s.indent < (column : Int) then
      let s := { s with levels := ⟨s.indent, true⟩ :: s.levels, indent := column }
      match number with
      | some n => s.insert n kind place
      | none => s.push kind place
    else s

/-- The levels that are left when those deeper than a column are closed, the indentation then, and
the number of block collections closed. -/
def levelsDownTo (column : Int) : List Level → Int → List Level × Int × Nat
  | [], indent => ([], indent, 0)
  | l :: levels, indent =>
    if indent > column then
      let (left, final, closed) := levelsDownTo column levels l.indent
      (left, final, closed + if l.isBlock then 1 else 0)
    else (l :: levels, indent, 0)

/-- Closes the block collections that are indented deeper than a column. -/
def closeBlocks (s : Scanner) (column : Int) : Scanner :=
  if s.inFlow then s
  else
    let (levels, indent, closed) := levelsDownTo column s.levels s.indent
    { s with
      levels := levels
      indent := indent
      tokens := s.tokens ++ List.replicate closed ⟨.blockEnd, s.place.mark⟩ }

/-- Changes the innermost key candidate. -/
def mapCandidate (s : Scanner) (f : KeyCandidate → KeyCandidate) : Scanner :=
  match s.candidates with
  | c :: cs => { s with candidates := f c :: cs }
  | [] => s

/-- Notes that the token found next may be a key. -/
def saveCandidate (s : Scanner) : Scanner :=
  if s.keyAllowed then
    let required := !s.inFlow && s.indent == s.column &&
      match s.levels with
      | l :: _ => l.isBlock
      | [] => false
    s.mapCandidate fun _ => ⟨true, required, s.handedOut + s.tokens.length, s.place⟩
  else s

end Scanner

namespace Scan

/-- The next character. -/
def peek : Scan Char := return (← get).next

/-- Fails unless a condition holds. -/
def require (condition : Bool) : Scan Unit :=
  if condition then pure () else failure

/-- Passes `n` characters of content. -/
def pass (n : Nat) : Scan Unit := modify (·.advance n true)

/-- Reads the characters of the line up to the first one that fails a test. -/
def readWhile (content : Bool) (test : Char → Bool) : Scan (List Char) := do
  let run := (← get).rest.takeWhile test
  modify (·.advance run.length content)
  return run

/-- Passes the rest of the line. -/
def passLineRest : Scan Unit := do
  let _ ← readWhile true fun c => !isBreakOrEnd c

/-- Passes spaces, tabs if they are allowed, and a comment, which needs a blank before it. Returns
whether there were tabs and whether there were spaces. -/
def passSpaces (tabs : Bool) : Scan (Bool × Bool) := do
  let run ← readWhile false fun c => c = ' ' || (tabs && c = '\t')
  if (← peek) = '#' then
    require !run.isEmpty
    passLineRest
  return (run.contains '\t', run.contains ' ')

/-- Gives up the innermost key candidate, which must not be a required key. -/
def removeCandidate : Scan Unit := do
  match (← get).candidates with
  | c :: _ => require !(c.possible && c.required)
  | [] => pure ()
  modify (·.mapCandidate fun c => { c with possible := false })

/-- A key may begin here. -/
def allowKey : Scan Unit := modify ({ · with keyAllowed := true })

/-- No key may begin here. -/
def forbidKey : Scan Unit := modify ({ · with keyAllowed := false })

/-- Adds a token at the end of the queue. -/
def emit (kind : TokenKind) (place : Place) : Scan Unit := modify (·.push kind place)

end Scan

end RamlTypes.Yaml
