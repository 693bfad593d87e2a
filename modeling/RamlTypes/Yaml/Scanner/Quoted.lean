import RamlTypes.Yaml.Scanner.Plain

/-!
# Scanning quoted scalars

Line breaks fold as in plain scalars. Two single quotes stand for one inside of single quotes, and
a backslash starts an escape inside of double quotes.
-/

namespace RamlTypes.Yaml

/-- The character of a number, if the number is a Unicode scalar value. -/
def char? (n : Nat) : Option Char :=
  if n.isValidChar then some (Char.ofNat n) else none

/-- The value of hexadecimal digits. -/
def hexValue (cs : List Char) : Nat :=
  cs.foldl (fun n c =>
    16 * n + (if c.isDigit then c.toNat - '0'.toNat else c.toLower.toNat - 'a'.toNat + 10)) 0

/-- The character of a one letter escape. -/
def simpleEscape? (c : Char) : Option Char :=
  match c with
  | '0' => some '\x00'
  | 'a' => some '\x07'
  | 'b' => some '\x08'
  | 't' | '\t' => some '\t'
  | 'n' => some '\n'
  | 'v' => some '\x0b'
  | 'f' => some '\x0c'
  | 'r' => some '\r'
  | 'e' => some '\x1b'
  | ' ' => some ' '
  | '"' => some '"'
  | '/' => some '/'
  | '\\' => some '\\'
  | 'N' => some '\u0085'
  | '_' => some '\u00a0'
  | 'L' => some '\u2028'
  | 'P' => some '\u2029'
  | _ => none

/-- The number of digits of a numeric escape. -/
def escapeWidth? (c : Char) : Option Nat :=
  match c with
  | 'x' => some 2
  | 'u' => some 4
  | 'U' => some 8
  | _ => none

namespace Scan

/-- Reads an escape and returns its character. -/
def escape : Scan Char := do
  let c := (← get).ahead 1
  match simpleEscape? c, escapeWidth? c with
  | some e, _ =>
    pass 2
    return e
  | none, some width =>
    pass 2
    let digits := (← get).rest.take width
    require (digits.length = width && digits.all isHexDigit)
    match char? (hexValue digits) with
    | some e =>
      pass width
      return e
    | none => failure
  | none, none => failure

/-- Reads characters up to a blank, the end or the closing quote. The flag tells whether an escaped
line break stopped the reading. -/
def quotedRun (single : Bool) : Nat → List Char → Scan (List Char × Bool)
  | 0, _ => failure
  | n + 1, text => do
    let s ← get
    let c := s.next
    if isSpaceOrEnd c then return (text, false)
    else if single then
      if c = '\'' then
        if s.ahead 1 = '\'' then
          pass 2
          quotedRun single n ('\'' :: text)
        else return (text, false)
      else
        pass 1
        quotedRun single n (c :: text)
    else if c = '"' then return (text, false)
    else if c = '\\' then
      if isBreak (s.ahead 1) then
        set (s.advance 1 true).passBreak
        return (text, true)
      else
        let e ← escape
        quotedRun single n (e :: text)
    else
      pass 1
      quotedRun single n (c :: text)

/-- Reads the white space inside of a quoted scalar. The flags tell whether a line was left, and
whether the first break was not escaped. -/
def quotedSpace : Nat → Bool → PlainText → Scan (Bool × PlainText)
  | 0, _, _ => failure
  | n + 1, left, p => do
    let s ← get
    let c := s.next
    if isSpace c then
      if left then
        require !(c = '\t' && s.column < s.indent)
        set (s.advance 1 false)
        quotedSpace n left p
      else
        set (s.advance 1 false)
        quotedSpace n left { p with spaces := p.spaces ++ [c] }
    else if isBreak c then
      set s.passBreak
      if left then quotedSpace n left { p with moreBreaks := p.moreBreaks + 1 }
      else quotedSpace n true { p with spaces := [], firstBreak := true }
    else return (left, p)

/-- Reads the content of a quoted scalar up to the closing quote. -/
def quotedRuns (single : Bool) : Nat → List Char → Scan (List Char)
  | 0, _ => failure
  | n + 1, text => do
    let s ← get
    require !(s.atDocumentMarker || isEnd s.next || s.column < s.indent)
    let (reversed, escaped) ← quotedRun single (s.rest.length + 1) []
    let text := text ++ reversed.reverse
    let c ← peek
    if c = (if single then '\'' else '"') then return text
    else
      let (left, p) ← quotedSpace ((← get).rest.length + 1) escaped ⟨[], [], false, 0⟩
      quotedRuns single n
        (text ++ if left then foldBreaks p.firstBreak p.moreBreaks else p.spaces)

/-- Reads a quoted scalar. After it only a `:`, the end of the line or, inside of a flow collection,
an indicator of the collection may follow. -/
def quoted (single : Bool) : Scan Token := do
  let start ← get
  pass 1
  let text ← quotedRuns single (start.rest.length + 1) []
  pass 1
  let _ ← passSpaces true
  let s ← get
  let c := s.next
  require (isBreakOrEnd c
    || (s.inFlow && (c = ',' || c = '}' || c = ']' || c = ':'))
    || (!s.inFlow && c = ':' && start.place.line = s.place.line))
  return ⟨.scalar .quoted (String.ofList text), start.place.mark⟩

end Scan

end RamlTypes.Yaml
