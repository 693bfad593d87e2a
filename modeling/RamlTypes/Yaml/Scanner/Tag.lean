import RamlTypes.Yaml.Scanner

/-!
# Scanning anchors, tags and directives
-/

namespace RamlTypes.Yaml

/-- The value of a hexadecimal digit. -/
def hexDigitValue (c : Char) : Nat :=
  if c.isDigit then c.toNat - '0'.toNat else c.toLower.toNat - 'a'.toNat + 10

/-- The number of bytes of a character whose encoding starts with a given byte. -/
def byteWidth? (byte : Nat) : Option Nat :=
  if byte < 0x80 then some 1
  else if 0xC0 ≤ byte ∧ byte < 0xE0 then some 2
  else if 0xE0 ≤ byte ∧ byte < 0xF0 then some 3
  else if 0xF0 ≤ byte ∧ byte < 0xF8 then some 4
  else none

namespace Scan

/-- Reads an anchor or a reference to one. -/
def anchor (isReference : Bool) : Scan Token := do
  let start := (← get).place
  pass 1
  let name ← readWhile true isAnchorChar
  require !name.isEmpty
  let name := String.ofList name
  return ⟨if isReference then .reference name else .anchor name, start.mark⟩

/-- Reads one byte written as a percent escape. -/
def escapedByte : Scan Nat := do
  match (← get).rest with
  | '%' :: h :: l :: _ =>
    require (isHexDigit h && isHexDigit l)
    pass 3
    return 16 * hexDigitValue h + hexDigitValue l
  | _ => failure

/-- Reads `n` bytes that continue a code; the bytes are joined whole. -/
def escapedRest : Nat → Nat → Scan Nat
  | 0, code => return code
  | n + 1, code => do
    let byte ← escapedByte
    require (0x80 ≤ byte && byte < 0xC0)
    escapedRest n (256 * code + byte)

/-- Reads a character written as percent escapes. The joined bytes are taken for its number, so only
ASCII characters come out as themselves. -/
def uriEscape : Scan Char := do
  let byte ← escapedByte
  match byteWidth? byte with
  | some width =>
    let code ← escapedRest (width - 1) byte
    if code.isValidChar then return Char.ofNat code else failure
  | none => failure

/-- Reads the characters that pass a test, with percent escapes. -/
def uriText (test : Char → Bool) : Nat → List Char → Scan (List Char)
  | 0, _ => failure
  | n + 1, text => do
    let c ← peek
    if !test c then return text.reverse
    else if c = '%' then
      let e ← uriEscape
      uriText test n (e :: text)
    else
      pass 1
      uriText test n (c :: text)

/-- Reads the handle of a tag: `!`, or a word between two `!`. -/
def tagHandle (directive : Bool) : Scan (List Char) := do
  require ((← peek) = '!')
  pass 1
  let word ← readWhile true isWordChar
  if (← peek) = '!' then
    pass 1
    return '!' :: word ++ ['!']
  else
    require !(directive && !word.isEmpty)
    return '!' :: word

/-- Whether a handle is enclosed in two `!`. -/
def isEnclosed (handle : List Char) : Bool :=
  2 ≤ handle.length && handle.head? = some '!' && handle.getLast? = some '!'

/-- Reads the handle and the suffix of a tag. -/
def tagParts : Scan (List Char × List Char) := do
  let s ← get
  let fuel := s.rest.length + 1
  if s.ahead 1 = '<' then
    pass 2
    let suffix ← uriText isUriChar fuel []
    require ((← peek) = '>')
    pass 1
    return ([], suffix)
  else
    let handle ← tagHandle false
    let suffix ← uriText isTagChar fuel []
    if isEnclosed handle then
      require !suffix.isEmpty
      return (handle, suffix)
    else
      let suffix := handle.drop 1 ++ suffix
      return if suffix.isEmpty then ([], ['!']) else (['!'], suffix)

/-- Reads a tag. -/
def tag : Scan Token := do
  let start := (← get).place
  let (handle, suffix) ← tagParts
  let s ← get
  require (isSpaceOrEnd s.next || (s.inFlow && isFlow s.next))
  return ⟨.tag (String.ofList handle) (String.ofList suffix), start.mark⟩

/-- Reads the digits of one part of a version. -/
def versionNumber : Scan Unit := do
  let digits ← readWhile true Char.isDigit
  require (0 < digits.length && digits.length ≤ 9)

/-- Reads what a tag handle stands for. -/
def tagStart : Scan (List Char) := do
  let c ← peek
  let fuel := (← get).rest.length + 1
  if c = '!' then
    pass 1
    uriText isUriChar fuel ['!']
  else
    require (isTagChar c)
    uriText isUriChar fuel []

/-- Reads what follows the name of a directive. Of an unknown directive nothing is kept. -/
def directiveValue (name : String) : Scan TokenKind := do
  if name = "YAML" then
    let _ ← readWhile false isSpace
    versionNumber
    require ((← peek) = '.')
    pass 1
    versionNumber
    return .versionDirective
  else if name = "TAG" then
    let _ ← readWhile false isSpace
    let handle ← tagHandle true
    let _ ← readWhile false isSpace
    let start ← tagStart
    require (isSpaceOrEnd (← peek))
    return .tagDirective (String.ofList handle) (String.ofList start)
  else
    passLineRest
    return .tagDirective "" ""

/-- Reads a directive and the end of its line. -/
def directive : Scan Token := do
  let start := (← get).place
  pass 1
  let name ← readWhile true isWordChar
  require (!name.isEmpty && isSpaceOrEnd (← peek))
  let kind ← directiveValue (String.ofList name)
  let _ ← passSpaces true
  require (isBreakOrEnd (← peek))
  modify (·.passBreak)
  return ⟨kind, start.mark⟩

end Scan

end RamlTypes.Yaml
