import RamlTypes.Dict
import RamlTypes.Yaml.Event
import RamlTypes.Yaml.Scanner.Tokens

/-!
# The events of a document

`Yaml.documentEvents?` reads the first document of a text by recursive descent over its tokens. What
stands behind that document is not looked at, apart from the one token that ends it.
-/

namespace RamlTypes.Yaml

/-- What the reader of events keeps. -/
structure DocumentReader where
  tokens : List Token
  /-- The number of the latest anchor of each name. -/
  anchors : Dict String Nat
  /-- The number of the next anchor. -/
  nextAnchor : Nat
  /-- What the tag handles stand for. -/
  handles : Dict String String
  /-- The events found, last one first. -/
  found : List Event

/-- Actions of the reader; `none` is a fault of the text. -/
abbrev Read := StateT DocumentReader Option

namespace Read

/-- The next token; a fault when the text cannot be scanned that far. -/
def peek : Read Token := do
  match (← get).tokens with
  | t :: _ => return t
  | [] => failure

/-- Passes one token. -/
def skip : Read Unit := modify fun s => { s with tokens := s.tokens.tail }

/-- Notes an event. -/
def note (kind : EventKind) (mark : Mark) : Read Unit :=
  modify fun s => { s with found := ⟨kind, mark⟩ :: s.found }

/-- Notes a scalar that is not written. -/
def noteEmpty (mark : Mark) : Read Unit :=
  note (.scalar "~" .plain 0 none) mark

/-- Numbers an anchor. A later anchor of the same name takes its place. -/
def newAnchor (name : String) : Read Nat := do
  let s ← get
  set { s with anchors := Dict.put name s.nextAnchor s.anchors, nextAnchor := s.nextAnchor + 1 }
  return s.nextAnchor

/-- The tag that a handle and a suffix stand for. A handle between two `!` has to be declared. -/
def resolveTag (handle suffix : String) : Read Tag := do
  let declared := Dict.find? handle (← get).handles
  if handle = "!!" then return ⟨declared.getD "tag:yaml.org,2002:", suffix⟩
  else
    match declared with
    | some start => return ⟨start, suffix⟩
    | none => if Scan.isEnclosed handle.toList then failure else return ⟨handle, suffix⟩

/-- Reads an anchor and a tag, in either order; each may be missing. -/
def properties : Read (Nat × Option Tag) := do
  match (← peek).kind with
  | .anchor name =>
    skip
    let n ← newAnchor name
    match (← peek).kind with
    | .tag handle suffix =>
      skip
      return (n, some (← resolveTag handle suffix))
    | _ => return (n, none)
  | .tag handle suffix =>
    skip
    let tag ← resolveTag handle suffix
    match (← peek).kind with
    | .anchor name =>
      skip
      return (← newAnchor name, some tag)
    | _ => return (0, some tag)
  | _ => return (0, none)

/-- Whether a token ends the place of a block value. -/
def endsBlockValue : TokenKind → Bool
  | .key | .value | .blockEnd => true
  | _ => false

/-- Whether a token ends the place of an entry of a sequence at its parent's indentation. -/
def endsLooseEntry : TokenKind → Bool
  | .blockEntry => true
  | k => endsBlockValue k

mutual

/-- Reads a node. In block context it may be a block collection, and a sequence at the indentation
of its parent key needs `loose`. -/
def node (fuel : Nat) (block loose : Bool) : Read Unit :=
  match fuel with
  | 0 => failure
  | n + 1 => do
    let t ← peek
    match t.kind with
    | .reference name =>
      skip
      match Dict.find? name (← get).anchors with
      | some anchor => note (.reference anchor) t.mark
      | none => failure
    | _ =>
      let (anchor, tag) ← properties
      content n block loose anchor tag

/-- Reads a node after its anchor and its tag. -/
def content (fuel : Nat) (block loose : Bool) (anchor : Nat) (tag : Option Tag) : Read Unit :=
  match fuel with
  | 0 => failure
  | n + 1 => do
    let t ← peek
    match t.kind with
    | .scalar style text =>
      skip
      note (.scalar text style anchor tag) t.mark
    | .flowSequenceStart =>
      skip
      note (.sequenceStart anchor tag) t.mark
      flowSequence n true
    | .flowMappingStart =>
      skip
      note (.mappingStart anchor tag) t.mark
      flowMapping n true
    | kind =>
      if loose && kind = .blockEntry then
        note (.sequenceStart anchor tag) t.mark
        looseSequence n
      else if block && kind = .blockSequenceStart then
        skip
        note (.sequenceStart anchor tag) t.mark
        blockSequence n
      else if block && kind = .blockMappingStart then
        skip
        note (.mappingStart anchor tag) t.mark
        blockMapping n
      else if tag.isSome || 0 < anchor then note (.scalar "" .plain anchor tag) t.mark
      else failure

/-- Reads the entries of a block sequence. -/
def blockSequence (fuel : Nat) : Read Unit :=
  match fuel with
  | 0 => failure
  | n + 1 => do
    let t ← peek
    match t.kind with
    | .blockEnd =>
      skip
      note .sequenceEnd t.mark
    | .blockEntry =>
      skip
      let t ← peek
      match t.kind with
      | .blockEntry | .blockEnd => noteEmpty t.mark
      | _ => node n true false
      blockSequence n
    | _ => failure

/-- Reads the entries of a sequence at the indentation of its parent key. -/
def looseSequence (fuel : Nat) : Read Unit :=
  match fuel with
  | 0 => failure
  | n + 1 => do
    let t ← peek
    match t.kind with
    | .blockEntry =>
      skip
      let t ← peek
      if endsLooseEntry t.kind then noteEmpty t.mark else node n true false
      looseSequence n
    | _ => note .sequenceEnd t.mark

/-- Reads the pairs of a block mapping. -/
def blockMapping (fuel : Nat) : Read Unit :=
  match fuel with
  | 0 => failure
  | n + 1 => do
    let t ← peek
    match t.kind with
    | .blockEnd =>
      skip
      note .mappingEnd t.mark
    | .key =>
      skip
      let t ← peek
      if endsBlockValue t.kind then noteEmpty t.mark else node n true true
      blockValue n
      blockMapping n
    | .value =>
      noteEmpty t.mark
      blockValue n
      blockMapping n
    | _ => failure

/-- Reads the value of a pair of a block mapping. -/
def blockValue (fuel : Nat) : Read Unit :=
  match fuel with
  | 0 => failure
  | n + 1 => do
    let t ← peek
    match t.kind with
    | .value =>
      skip
      let t ← peek
      if endsBlockValue t.kind then noteEmpty t.mark else node n true true
    | _ => noteEmpty t.mark

/-- Reads the items of a flow sequence, the first one or one after a comma. -/
def flowSequence (fuel : Nat) (first : Bool) : Read Unit :=
  match fuel with
  | 0 => failure
  | n + 1 => do
    let t ← peek
    if t.kind = .flowSequenceEnd then
      skip
      note .sequenceEnd t.mark
    else
      if !first then
        if t.kind = .flowEntry then skip else failure
      let t ← peek
      match t.kind with
      | .flowSequenceEnd =>
        skip
        note .sequenceEnd t.mark
      | .key =>
        skip
        note (.mappingStart 0 none) t.mark
        flowPair n
        flowSequence n false
      | _ =>
        node n false false
        flowSequence n false

/-- Reads a single pair that is an item of a flow sequence. -/
def flowPair (fuel : Nat) : Read Unit :=
  match fuel with
  | 0 => failure
  | n + 1 => do
    let t ← peek
    match t.kind with
    | .value | .flowEntry | .flowSequenceEnd =>
      skip
      noteEmpty t.mark
    | _ => node n false false
    let t ← peek
    match t.kind with
    | .value =>
      skip
      let t ← peek
      match t.kind with
      | .flowEntry | .flowSequenceEnd => noteEmpty t.mark
      | _ => node n false false
    | _ => noteEmpty t.mark
    note .mappingEnd t.mark

/-- Reads the pairs of a flow mapping, the first one or one after a comma. -/
def flowMapping (fuel : Nat) (first : Bool) : Read Unit :=
  match fuel with
  | 0 => failure
  | n + 1 => do
    let t ← peek
    if t.kind = .flowMappingEnd then
      skip
      note .mappingEnd t.mark
    else
      if !first then
        if t.kind = .flowEntry then skip else failure
      let t ← peek
      match t.kind with
      | .key =>
        skip
        let t ← peek
        match t.kind with
        | .value | .flowEntry | .flowMappingEnd => noteEmpty t.mark
        | _ => node n false false
        flowValue n
        flowMapping n false
      | .value =>
        noteEmpty t.mark
        flowValue n
        flowMapping n false
      | .flowMappingEnd =>
        skip
        note .mappingEnd t.mark
      | _ =>
        node n false false
        noteEmpty (← peek).mark
        flowMapping n false

/-- Reads the value of a pair of a flow mapping. -/
def flowValue (fuel : Nat) : Read Unit :=
  match fuel with
  | 0 => failure
  | n + 1 => do
    let t ← peek
    match t.kind with
    | .value =>
      skip
      match (← peek).kind with
      | .flowEntry | .flowMappingEnd => noteEmpty t.mark
      | _ => node n false false
    | _ => noteEmpty t.mark

end

/-- Passes tokens that mark the end of a document. -/
def skipDocumentEnds : Nat → Read Unit
  | 0 => return
  | n + 1 => do
    if (← peek).kind = .documentEnd then
      skip
      skipDocumentEnds n

/-- Reads directives. Each one replaces the handles that those before it declared. -/
def directives : Nat → Bool → Read Unit
  | 0, _ => failure
  | n + 1, hasVersion => do
    match (← peek).kind with
    | .versionDirective =>
      if hasVersion then failure
      modify fun s => { s with handles := [] }
      skip
      directives n true
    | .tagDirective handle start =>
      modify fun s => { s with handles := [(handle, start)] }
      skip
      directives n hasVersion
    | _ => return

/-- Whether a token stands after an explicit start of a document that has no content. -/
def endsDocument : TokenKind → Bool
  | .versionDirective | .tagDirective .. | .documentStart | .documentEnd | .streamEnd => true
  | _ => false

/-- Reads the first document, if there is one, and looks at the token behind it. -/
def document : Read Unit := do
  skip
  let fuel := 4 * (← get).tokens.length + 8
  skipDocumentEnds fuel
  let t ← peek
  match t.kind with
  | .streamEnd => return
  | .versionDirective | .tagDirective .. | .documentStart =>
    directives fuel false
    if (← peek).kind ≠ .documentStart then failure
    skip
    let t ← peek
    if endsDocument t.kind then noteEmpty t.mark else node fuel true false
  | _ => node fuel true false
  match (← peek).kind with
  | .documentEnd => return
  | .versionDirective | .tagDirective .. => failure
  | _ => return

end Read

/-- The events of the first document of a text; none when the text has no document. -/
def documentEvents? (text : String) : Option (List Event) := do
  let ((), s) ← Read.document ⟨tokens text, [], 1, [], []⟩
  return s.found.reverse

end RamlTypes.Yaml
