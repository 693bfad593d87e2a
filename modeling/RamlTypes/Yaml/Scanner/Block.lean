import RamlTypes.Yaml.Scanner

/-!
# Scanning block scalars

A block scalar starts with `|` or `>`. Its lines are indented by a number of columns that is given
in its header or else follows from its first line. In a folded scalar, after `>`, one break between
two lines that start without a blank is a space.
-/

namespace RamlTypes.Yaml

/-- What happens to the line breaks at the end of a block scalar. -/
inductive Chomping where
  | strip
  | clip
  | keep
  deriving DecidableEq, Repr

namespace Scan

/-- Reads a chomping indicator, if there is one. -/
def chomping? : Scan (Option Chomping) := do
  match ← peek with
  | '+' =>
    pass 1
    return some .keep
  | '-' =>
    pass 1
    return some .strip
  | _ => return none

/-- Reads an indentation indicator; without one the indentation is `0`. -/
def increment : Scan Nat := do
  let c ← peek
  if c.isDigit then
    require (c ≠ '0')
    pass 1
    return c.toNat - '0'.toNat
  else return 0

/-- Reads the chomping and the indentation indicator, in either order. -/
def blockHeader : Scan (Chomping × Nat) := do
  match ← chomping? with
  | some c => return (c, ← increment)
  | none =>
    let n ← increment
    if n = 0 then return (.clip, 0)
    else return ((← chomping?).getD .clip, n)

/-- Passes up to `indent` spaces and any empty lines; returns the number of breaks passed after
`breaks` others. -/
def blockIndent (indent : Nat) : Nat → Nat → Scan Nat
  | 0, breaks => return breaks
  | n + 1, breaks => do
    let s ← get
    let spaces := ((s.rest.take (indent - s.place.column)).takeWhile (· = ' ')).length
    let s := s.advance spaces false
    set s
    if isBreak s.next then
      set s.passBreak
      blockIndent indent n (breaks + 1)
    else return breaks

/-- Passes all spaces and any empty lines; returns the deepest column reached and the number of
breaks. -/
def firstBlockIndent : Nat → Nat → Nat → Scan (Nat × Nat)
  | 0, deepest, breaks => return (deepest, breaks)
  | n + 1, deepest, breaks => do
    let _ ← readWhile false (· = ' ')
    let s ← get
    let deepest := max deepest s.place.column
    if isBreak s.next then
      set s.passBreak
      firstBlockIndent n deepest (breaks + 1)
    else return (deepest, breaks)

/-- The lines of a block scalar while they are read: the text, whether a break follows it, the
number of breaks of empty lines after that, and whether the last line starts with a blank. -/
structure BlockText where
  text : List Char
  break_ : Bool
  emptyLines : Nat
  startsBlank : Bool

/-- The breaks after the text as they are. -/
def BlockText.breaks (b : BlockText) : List Char :=
  List.replicate ((if b.break_ then 1 else 0) + b.emptyLines) '\n'

/-- Reads the lines of a block scalar. -/
def blockLines (literal : Bool) (indent : Nat) : Nat → BlockText → Scan BlockText
  | 0, b => return b
  | n + 1, b => do
    let s ← get
    if s.place.column ≠ indent || isEnd s.next || (indent = 0 && s.atMarker '.') then return b
    else
      let blank := isSpace s.next
      let between :=
        if !literal && b.break_ && !b.startsBlank && !blank then
          if b.emptyLines = 0 then [' '] else List.replicate b.emptyLines '\n'
        else b.breaks
      let line ← readWhile false fun c => !isBreakOrEnd c
      let text := b.text ++ between ++ line
      let s ← get
      if isEnd s.next then return ⟨text, false, 0, blank⟩
      else
        set s.passBreak
        let emptyLines ← blockIndent indent (s.rest.length + 1) 0
        blockLines literal indent n ⟨text, true, emptyLines, blank⟩

/-- The text of a block scalar without any content line, from the numbers of breaks after the
header and after that. -/
def emptyBlock (chomping : Chomping) (sameLine : Bool) (headerBreak : Bool) (emptyLines : Nat) :
    List Char :=
  match chomping with
  | .strip => []
  | .clip => if !sameLine && headerBreak then ['\n'] else []
  | .keep =>
    if sameLine then []
    else if emptyLines = 0 then (if headerBreak then ['\n'] else [])
    else List.replicate emptyLines '\n'

/-- Reads a block scalar. -/
def block (literal : Bool) : Scan Token := do
  let start := (← get).place
  pass 1
  modify (·.dropSoftLevels)
  let (chomping, increment) ← blockHeader
  let _ ← passSpaces true
  let s ← get
  require (isBreakOrEnd s.next)
  set s.passBreak
  require ((← peek) ≠ '\t')
  let fuel := s.rest.length + 1
  let (indent, emptyLines) ←
    if increment = 0 then do
      let (deepest, breaks) ← firstBlockIndent fuel 0 0
      let least := (s.indent + 1).toNat
      pure (max (max deepest least) (if s.indent > 0 then 1 else 0), breaks)
    else do
      let indent := if s.indent ≥ 0 then s.indent.toNat + increment else increment
      pure (indent, ← blockIndent indent fuel 0)
  let first ← get
  if isEnd first.next then
    let text := emptyBlock chomping (first.place.line = start.line) (isBreak s.next) emptyLines
    return ⟨.scalar .block (String.ofList text), start.mark⟩
  else
    require !(first.place.column < indent && first.column > first.indent)
    let b ← blockLines literal indent fuel ⟨[], false, emptyLines, false⟩
    let last ← get
    let tail :=
      match chomping with
      | .strip => []
      | _ =>
        (if b.break_ then ['\n'] else [])
          ++ (if isEnd last.next && max indent 1 ≤ last.place.column then ['\n'] else [])
          ++ (if chomping = .keep then List.replicate b.emptyLines '\n' else [])
    return ⟨.scalar .block (String.ofList (b.text ++ tail)), first.place.mark⟩

end Scan

end RamlTypes.Yaml
