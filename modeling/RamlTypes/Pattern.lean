import RamlTypes.Pattern.CharSet
import RamlTypes.Pattern.Count
import RamlTypes.Pattern.Group

/-!
# Regular expressions

`Pattern.check` reads a regular expression and finds out whether it can be compiled. The syntax has
no look-around and no back references, so that a match takes linear time. A pattern can also be
nested too deep, or need too large an automaton.
-/

namespace RamlTypes.Pattern

/-- A group, or the whole pattern, of which some parts are read. -/
structure Level where
  mode : Mode
  /-- The alternatives before the last bar. -/
  alternatives : Pieces
  /-- The parts of the current alternative but the last. -/
  parts : Pieces
  /-- The last part, which a repetition takes. -/
  last : Option Piece

namespace Level

/-- Nothing of a group is read. -/
def start (m : Mode) : Level := ⟨m, .none, .none, none⟩

/-- The parts of the current alternative. -/
def sequence (l : Level) : Pieces :=
  match l.last with
  | some p => l.parts.add p
  | none => l.parts

/-- One more part. -/
def add (l : Level) (p : Piece) : Level :=
  { l with parts := l.sequence, last := some p }

/-- Flags for the rest of the group. They cannot be repeated. -/
def setMode (l : Level) (m : Mode) : Level :=
  { l with mode := m, parts := l.sequence.add ⟨0, 0⟩, last := none }

/-- Goes on after a bar. -/
def bar (l : Level) : Level :=
  ⟨l.mode, l.alternatives.add l.sequence.piece, .none, none⟩

/-- All that is read, as one piece. -/
def piece (l : Level) : Piece :=
  if l.alternatives.count = 0 then l.sequence.piece
  else (l.alternatives.add l.sequence.piece).piece

/-- Repeats the last part. -/
def repeatLast (l : Level) (least : Nat) (most : Option Nat) : Except Flaw Level :=
  match l.last with
  | some p => .ok { l with last := some (p.repeated least most) }
  | none => .error .nothingToRepeat

end Level

/-- A pattern of which some characters are read. -/
structure State where
  /-- The groups around the current one, innermost first. -/
  outer : List Level
  level : Level
  /-- The names of groups. -/
  names : List String

namespace State

/-- The state with another current group. -/
def withLevel (s : State) (l : Level) : State := { s with level := l }

/-- Takes the opening of a group or a flag setting. -/
def openGroup (s : State) : Opening → Except Flaw State
  | .flags m => .ok (s.withLevel (s.level.setMode m))
  | .group m name =>
    if name.any s.names.contains then .error .repeatedGroupName
    else .ok ⟨s.level :: s.outer, .start m, name.toList ++ s.names⟩

/-- Closes the current group. The group around it goes on in its own mode. -/
def closeGroup (s : State) : Except Flaw State :=
  match s.outer with
  | [] => .error .strayClose
  | parent :: outer => .ok ⟨outer, parent.add s.level.piece.group, s.names⟩

/-- Takes the next part, operator or parenthesis. -/
def step (s : State) (cs : List Char) : Except Flaw (State × List Char) := do
  let l := s.level
  match cs with
  | [] => return (s, [])
  | '(' :: rest =>
    let (opening, rest) ← Opening.ofChars l.mode rest
    return (← s.openGroup opening, rest)
  | ')' :: rest => return (← s.closeGroup, rest)
  | '|' :: rest => return (s.withLevel l.bar, rest)
  | '[' :: rest =>
    let (p, rest) ← CharSet.ofChars l.mode rest
    return (s.withLevel (l.add p), rest)
  | '?' :: rest => return (s.withLevel (← l.repeatLast 0 (some 1)), Count.dropLazy rest)
  | '*' :: rest => return (s.withLevel (← l.repeatLast 0 none), Count.dropLazy rest)
  | '+' :: rest => return (s.withLevel (← l.repeatLast 1 none), Count.dropLazy rest)
  | '{' :: rest =>
    if l.last.isNone then throw .nothingToRepeat
    let (count, rest) ← Count.ofChars l.mode rest
    return (s.withLevel (← l.repeatLast count.least count.most), rest)
  | '\\' :: rest =>
    let (a, rest) ← escape l.mode rest
    return (s.withLevel (l.add a.piece), rest)
  | '.' :: rest =>
    if !l.mode.unicode then throw .splitsCharacters
    return (s.withLevel (l.add Atom.anyChar.piece), rest)
  | '^' :: rest | '$' :: rest => return (s.withLevel (l.add Atom.assertion.piece), rest)
  | c :: rest => return (s.withLevel (l.add (Atom.char c).piece), rest)

/-- Takes all characters. Each step takes one at least, so `fuel` is their count. -/
def run (s : State) : Nat → List Char → Except Flaw State
  | 0, _ => .ok s
  | fuel + 1, cs =>
    match s.level.mode.skip cs with
    | [] => .ok s
    | rest => do
      let (s, rest) ← s.step rest
      s.run fuel rest

end State

/-- Reads a pattern: its piece, or why it cannot be compiled. -/
def check (pattern : String) : Except Flaw Piece := do
  let cs := pattern.toList
  let s ← (State.mk [] (.start ⟨false, true⟩) []).run cs.length cs
  if s.outer ≠ [] then throw .openGroup
  let p := s.level.piece
  if depthLimit < p.depth then throw .tooDeep
  if weightLimit < p.weight then throw .tooLarge
  return p

/-- Why a pattern cannot be compiled, if it cannot. -/
def flaw? (pattern : String) : Option Flaw :=
  match check pattern with
  | .ok _ => none
  | .error flaw => some flaw

end RamlTypes.Pattern
