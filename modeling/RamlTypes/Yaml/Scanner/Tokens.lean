import RamlTypes.Yaml.Scanner.Block
import RamlTypes.Yaml.Scanner.Quoted
import RamlTypes.Yaml.Scanner.Tag

/-!
# The tokens of a text

`Yaml.tokens` cuts a text into tokens up to the end of the text or to the first fault. A token is
handed out as soon as no later `:` can turn it into a key; so the tokens before a fault are those
that can be handed out without reading as far as the fault.
-/

namespace RamlTypes.Yaml

namespace Scan

/-- Gives up the key candidates that lie too far behind: in an earlier line or more than 1024
characters back. Inside of a flow collection they stay. -/
def dropStale : Scan Unit := do
  let s ← get
  let stale (c : KeyCandidate) : Bool :=
    c.possible && !s.inFlow && (c.place.line < s.place.line || c.place.index + 1024 < s.place.index)
  require !(s.candidates.any fun c => stale c && c.required)
  set { s with
    candidates := s.candidates.map fun c => if stale c then { c with possible := false } else c }

/-- Passes white space, line breaks and comments. -/
def passToToken : Nat → Scan Unit
  | 0 => failure
  | n + 1 => do
    let s ← get
    match s.next with
    | ' ' =>
      set (s.advance 1 false)
      passToToken n
    | '\t' =>
      if !s.levels.isEmpty && s.atLineStart && s.column < s.indent then
        let _ ← passSpaces true
        require (isBreakOrEnd (← peek))
      else set (s.advance 1 false)
      passToToken n
    | '\n' | '\r' =>
      set s.passBreak
      if !s.inFlow then allowKey
      passToToken n
    | '#' =>
      passLineRest
      passToToken n
    | _ => return

/-- Passes the blanks after `?`: there must be some, and a tab is none. -/
def passKeySpace : Nat → Bool → Scan Unit
  | 0, _ => failure
  | n + 1, found => do
    let s ← get
    match s.next with
    | ' ' =>
      set (s.advance 1 false)
      passKeySpace n true
    | '\n' | '\r' =>
      set s.passBreak
      if !s.inFlow then allowKey
      passKeySpace n true
    | '#' =>
      passLineRest
      passKeySpace n found
    | c => require (found && c ≠ '\t')

/-- Closes all blocks and forbids a key to start. -/
def leaveBlocks : Scan Unit := do
  modify (·.closeBlocks (-1))
  removeCandidate
  forbidKey

/-- The end of the text counts as the start of a new line. -/
def finishStream : Scan Unit := do
  let s ← get
  require !(s.candidates.any fun c => c.required && c.possible)
  let place := s.place
  set { s with
    place := if place.column = 0 then place else ⟨place.index, place.line + 1, 0⟩
    candidates := s.candidates.map fun (c : KeyCandidate) => { c with possible := false } }
  leaveBlocks
  emit .streamEnd (← get).place

/-- A line that starts with `---` or `...`. -/
def documentMarker (kind : TokenKind) : Scan Unit := do
  leaveBlocks
  let place := (← get).place
  pass 3
  emit kind place

/-- Ends the pair that stands in a flow sequence without braces. -/
def endPair : Scan Unit := do
  let s ← get
  match s.pairs with
  | true :: pairs =>
    set { s with inFlowMapping := false, pairs := false :: pairs }
    emit .flowMappingEnd s.place
  | _ => return

/-- `[` or `{`. -/
def flowStart (kind : TokenKind) : Scan Unit := do
  modify fun s => s.saveCandidate.addSoftLevel
  let s ← get
  require (s.flowDepth < 255)
  let isMapping := kind == .flowMappingStart
  set { s with
    candidates := ⟨false, false, 0, ⟨0, 0, 0⟩⟩ :: s.candidates
    flowDepth := s.flowDepth + 1
    keyAllowed := true
    inFlowMapping := s.inFlowMapping || isMapping
    pairs := if isMapping then s.pairs else false :: s.pairs }
  pass 1
  let _ ← passSpaces true
  emit kind s.place

/-- `]` or `}`. -/
def flowEnd (kind : TokenKind) : Scan Unit := do
  removeCandidate
  modify fun s =>
    if s.inFlow then { s with flowDepth := s.flowDepth - 1, candidates := s.candidates.tail } else s
  forbidKey
  if kind == .flowSequenceEnd then
    endPair
    modify fun s => { s with pairs := s.pairs.tail }
  let place := (← get).place
  pass 1
  let _ ← passSpaces true
  modify fun s => if s.inFlow then { s with adjacentValueAt := s.place.index } else s
  emit kind place

/-- `,` -/
def flowEntry : Scan Unit := do
  removeCandidate
  allowKey
  endPair
  let place := (← get).place
  pass 1
  let _ ← passSpaces true
  emit .flowEntry place

/-- `-` before a blank. -/
def blockEntry : Scan Unit := do
  let s ← get
  require (!s.inFlow && s.keyAllowed)
  match s.tokens.getLast? with
  | some ⟨.anchor _, mark⟩ | some ⟨.tag _ _, mark⟩ =>
    require !(s.place.column = 0 && mark.column = 1 && -1 < s.indent)
  | _ => pure ()
  let place := s.place
  pass 1
  modify (·.openBlock place.column none .blockSequenceStart place)
  let (foundTabs, _) ← passSpaces true
  let s ← get
  require !(foundTabs && s.next = '-' && isSpaceOrEnd (s.ahead 1))
  if isBreak s.next || isFlow s.next then modify (·.addSoftLevel)
  removeCandidate
  allowKey
  emit .blockEntry (← get).place

/-- `?` before a blank. -/
def explicitKey : Scan Unit := do
  let s ← get
  let place := s.place
  if s.inFlow then set { s with inFlowMapping := true }
  else
    require s.keyAllowed
    set (s.openBlock place.column none .blockMappingStart place)
  removeCandidate
  modify fun s => { s with keyAllowed := !s.inFlow }
  pass 1
  passKeySpace ((← get).rest.length + 1) false
  emit .key place

/-- Passes the `:` of a value. After a tab and no space neither `-` nor a word may follow. -/
def passColon : Scan Unit := do
  pass 1
  if (← peek) = '\t' then
    let (_, foundSpaces) ← passSpaces true
    let c ← peek
    require (foundSpaces || !(c = '-' || isWordChar c))

/-- `:`. When the innermost candidate is possible, it becomes the key of the value; its token, the
start of an unbraced pair and the start of a block mapping go in front of it. -/
def value : Scan Unit := do
  let s ← get
  let candidate := s.candidates.headD ⟨false, false, 0, ⟨0, 0, 0⟩⟩
  let place := s.place
  let startsPair := !s.pairs.isEmpty && !s.inFlowMapping
  if startsPair then set { s with pairs := true :: s.pairs.tail }
  passColon
  let after := (← get).place
  if candidate.possible then
    modify (·.insert candidate.number .key candidate.place)
    if startsPair then
      require (place.line ≤ candidate.place.line)
      modify (·.insert candidate.number .flowMappingStart after)
    modify fun s =>
      ((s.openBlock candidate.place.column (some candidate.number) .blockMappingStart place)
        |>.addSoftLevel).mapCandidate fun c => { c with possible := false }
    forbidKey
  else
    if startsPair then emit .flowMappingStart after
    let s ← get
    if !s.inFlow then
      require s.keyAllowed
      set (s.openBlock place.column none .blockMappingStart place)
    modify (·.addSoftLevel)
    modify fun s => { s with keyAllowed := !s.inFlow }
  emit .value place

/-- A token that may be a key, found by `scan`; whether another key may start directly after it. -/
def content (keyAfter : Bool) (scan : Scan Token) : Scan Unit := do
  modify (·.saveCandidate)
  modify ({ · with keyAllowed := keyAfter })
  let token ← scan
  modify fun s => { s with tokens := s.tokens ++ [token] }

/-- A quoted scalar. Inside of a flow collection its value may follow without a blank. -/
def quotedContent (single : Bool) : Scan Unit := do
  modify (·.saveCandidate)
  forbidKey
  let token ← quoted single
  passToToken ((← get).rest.length + 1)
  modify fun s => { s with adjacentValueAt := s.place.index, tokens := s.tokens ++ [token] }

/-- Whether a `:` that stands before `after` separates a key from its value. -/
def isValueIndicator (s : Scanner) (after : Char) : Bool :=
  isSpaceOrEnd after || (s.inFlow && (isFlow after || s.place.index = s.adjacentValueAt))

/-- Finds the token that starts with a character. -/
def tokenAt (s : Scanner) (c after : Char) : Scan Unit :=
  match c with
  | '[' => flowStart .flowSequenceStart
  | '{' => flowStart .flowMappingStart
  | ']' => flowEnd .flowSequenceEnd
  | '}' => flowEnd .flowMappingEnd
  | ',' => flowEntry
  | '-' => if isSpaceOrEnd after then blockEntry else content false plain
  | '?' => if isSpaceOrEnd after then explicitKey else content false plain
  | ':' => if isValueIndicator s after then value else content false plain
  | '*' => content false (anchor true)
  | '&' => content false (anchor false)
  | '!' => content false tag
  | '|' => if s.inFlow then content false plain else content true (block true)
  | '>' => if s.inFlow then content false plain else content true (block false)
  | '\'' => quotedContent true
  | '"' => quotedContent false
  | '%' | '@' | '\x60' => failure
  | _ => content false plain

/-- Finds more tokens: at least one, or the end of a block, or the end of the text. -/
def fetch : Scan Unit := do
  let s ← get
  if !s.started then
    set { s with
      started := true
      candidates := [⟨false, false, 0, ⟨0, 0, 0⟩⟩] }
    emit .streamStart s.place
  else
    passToToken (s.rest.length + 1)
    dropStale
    modify fun s => s.closeBlocks s.column
    let s ← get
    let c := s.next
    if isEnd c then finishStream
    else if s.place.column = 0 && c = '%' then
      leaveBlocks
      let token ← directive
      modify fun s => { s with tokens := s.tokens ++ [token] }
    else if s.atMarker '-' then documentMarker .documentStart
    else if s.atMarker '.' then
      documentMarker .documentEnd
      let _ ← passSpaces true
      require (isBreakOrEnd (← peek))
    else
      require (s.indent ≤ s.column)
      tokenAt s c (s.ahead 1)

/-- Finds tokens until the first one in the queue can be no key any more. -/
def fetchMore : Nat → Scan Unit
  | 0 => failure
  | n + 1 => do
    let s ← get
    if s.tokens.isEmpty then
      fetch
      fetchMore n
    else
      dropStale
      let s ← get
      if s.candidates.any fun c => c.possible && c.number = s.handedOut then
        fetch
        fetchMore n
      else return

/-- Hands out the next token. -/
def nextToken : Scan Token := do
  fetchMore ((← get).rest.length + 4)
  let s ← get
  match s.tokens with
  | t :: tokens =>
    set { s with tokens := tokens, handedOut := s.handedOut + 1 }
    return t
  | [] => failure

end Scan

/-- Hands out tokens up to the end of the text or to the first fault, at most `n` of them. -/
def tokensFrom : Nat → Scanner → List Token
  | 0, _ => []
  | n + 1, s =>
    match Scan.nextToken s with
    | none => []
    | some (t, s) => if t.kind = .streamEnd then [t] else t :: tokensFrom n s

/-- The tokens of a text. They end with `streamEnd` exactly when the whole text can be scanned. -/
def tokens (text : String) : List Token :=
  tokensFrom (8 * text.length + 16) (Scanner.ofText text)

end RamlTypes.Yaml
