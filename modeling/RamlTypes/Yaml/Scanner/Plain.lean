import RamlTypes.Yaml.Scanner

/-!
# Scanning plain scalars

A plain scalar has no quotes. It may go on over several lines, which are folded: one break is a
space, and of more breaks all but the first stay.
-/

namespace RamlTypes.Yaml

/-- The text that line breaks between two pieces of a scalar fold to: whether a first break was
read, and how many more after it. -/
def foldBreaks (first : Bool) (more : Nat) : List Char :=
  if first && more = 0 then [' '] else List.replicate more '\n'

/-- Whether a character, which is no blank, may stand inside a plain scalar before another one. -/
def continuesPlain (inFlow : Bool) (c next : Char) : Bool :=
  if c = ':' then !(isSpaceOrEnd next || (inFlow && isFlow next))
  else !(inFlow && isFlow c)

/-- The characters of a plain scalar up to a blank or to a character that ends it. -/
def plainRun (inFlow : Bool) : List Char → List Char
  | [] => []
  | c :: rest =>
    if !isSpaceOrEnd c && continuesPlain inFlow c (rest.headD endChar) then
      c :: plainRun inFlow rest
    else []

/-- What is read of a plain scalar, and the white space behind it. -/
structure PlainText where
  text : List Char
  spaces : List Char
  firstBreak : Bool
  moreBreaks : Nat

namespace Scan

/-- Reads the white space inside of a plain scalar. -/
def plainSpace (indent : Int) : Nat → PlainText → Scan PlainText
  | 0, _ => failure
  | n + 1, p => do
    let s ← get
    let c := s.next
    if isSpace c then
      if !s.atLineStart then
        set (s.advance 1 false)
        plainSpace indent n { p with spaces := p.spaces ++ [c] }
      else if s.column < indent ∧ c = '\t' then
        let _ ← passSpaces true
        require (isBreakOrEnd (← peek))
        plainSpace indent n p
      else
        set (s.advance 1 false)
        plainSpace indent n p
    else if isBreak c then
      set s.passBreak
      if s.atLineStart then plainSpace indent n { p with moreBreaks := p.moreBreaks + 1 }
      else plainSpace indent n { p with spaces := [], firstBreak := true }
    else return p

/-- Reads the runs of a plain scalar and the white space between them. -/
def plainRuns (indent : Int) : Nat → PlainText → Scan PlainText
  | 0, _ => failure
  | n + 1, p => do
    let s ← get
    if s.atDocumentMarker || s.next = '#' then return p
    else
      require !(s.inFlow && s.next = '-' && isFlow (s.ahead 1))
      let run := plainRun s.inFlow s.rest
      let p : PlainText :=
        if run.isEmpty then p
        else if s.atLineStart then
          ⟨p.text ++ foldBreaks p.firstBreak p.moreBreaks ++ run, p.spaces, false, 0⟩
        else ⟨p.text ++ p.spaces ++ run, [], p.firstBreak, p.moreBreaks⟩
      set (s.advance run.length true)
      let c ← peek
      if isSpace c || isBreak c then
        let p ← plainSpace indent ((← get).rest.length + 1) p
        let s ← get
        if !s.inFlow && s.column < indent then return p
        else plainRuns indent n p
      else return p

/-- Reads a plain scalar. Inside of a flow collection it has to be indented more than the block
around. -/
def plain : Scan Token := do
  modify (·.dropSoftLevels)
  let s ← get
  let indent := s.indent + 1
  require (!s.inFlow || indent ≤ s.column)
  let p ← plainRuns indent (s.rest.length + 1) ⟨[], [], false, 0⟩
  if (← get).atLineStart then allowKey
  return ⟨.scalar .plain (String.ofList p.text), s.place.mark⟩

end Scan

end RamlTypes.Yaml
