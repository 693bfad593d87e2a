import RamlTypes.Node.CoreSchema
import RamlTypes.Yaml.Event.Document

/-!
# Document trees from events

`Node.ofEvents?` builds the tree that a sequence of events spells. It keeps the collections that
are still open, and the finished nodes that have an anchor, of which a reference is a copy.
-/

namespace RamlTypes

namespace Node

/-- A collection that is still open. -/
inductive Open where
  | sequence (items : List Node)
  /-- The finished pairs, and a key that waits for its value. -/
  | mapping (pairs : List (Node × Node)) (key : Option Node)

/-- An open collection and what is known of its node. -/
structure Frame where
  content : Open
  mark : Mark
  isInclude : Bool
  anchor : Nat

structure Builder where
  /-- The open collections, innermost first. -/
  frames : List Frame
  /-- The nodes of the anchors. -/
  anchors : Dict Nat Node
  /-- The first complete tree. -/
  root : Option Node

/-- Whether a tag makes a node an include: its suffix is `include`, and it is no global tag. -/
def isIncludeTag : Option Yaml.Tag → Bool
  | some tag => tag.suffix = "include" && !Text.startsWith "tag:" tag.handle
  | none => false

/-- The type and the stored text of a scalar: a tag with the suffix `str` makes it a string, and
otherwise only a plain one is anything else. -/
def scalarOf (text : String) (style : Yaml.Style) (tag : Option Yaml.Tag) : String × ScalarType :=
  if tag.any fun t => t.suffix = "str" then (text, .string)
  else if style = .plain then ScalarType.ofPlain text
  else (text, .string)

namespace Open

/-- Adds a finished node. -/
def add (node : Node) : Open → Open
  | .sequence items => .sequence (items ++ [node])
  | .mapping pairs (some key) => .mapping (pairs ++ [(key, node)]) none
  | .mapping pairs none => .mapping pairs (some node)

end Open

/-- The node of a collection that is closed. A key without a value is dropped. -/
def Frame.close (f : Frame) : Node :=
  match f.content with
  | .sequence items => .sequence items f.mark f.isInclude
  | .mapping pairs _ => .mapping pairs f.mark f.isInclude

namespace Builder

def start : Builder := ⟨[], [], none⟩

/-- Adds a finished node to the innermost open collection, or makes it the root. -/
def add (b : Builder) (node : Node) (anchor : Nat) : Builder :=
  let anchors := if 0 < anchor then Dict.put anchor node b.anchors else b.anchors
  match b.frames with
  | f :: frames => ⟨{ f with content := f.content.add node } :: frames, anchors, b.root⟩
  | [] => ⟨[], anchors, b.root.or (some node)⟩

/-- Opens a collection. -/
def push (b : Builder) (content : Open) (mark : Mark) (anchor : Nat) (tag : Option Yaml.Tag) :
    Builder :=
  { b with frames := ⟨content, mark, isIncludeTag tag, anchor⟩ :: b.frames }

/-- Closes the innermost collection. -/
def close (b : Builder) : Builder :=
  match b.frames with
  | f :: frames => add { b with frames := frames } f.close f.anchor
  | [] => b

/-- Takes one event. A reference to an anchor without a finished node is a null. -/
def step (b : Builder) (e : Yaml.Event) : Builder :=
  match e.kind with
  | .scalar text style anchor tag =>
    let (stored, type) := scalarOf text style tag
    b.add (.scalar stored type e.mark (isIncludeTag tag)) anchor
  | .sequenceStart anchor tag => b.push (.sequence []) e.mark anchor tag
  | .mappingStart anchor tag => b.push (.mapping [] none) e.mark anchor tag
  | .sequenceEnd | .mappingEnd => b.close
  | .reference anchor => b.add ((Dict.find? anchor b.anchors).getD .null) 0

end Builder

/-- The first complete tree that a sequence of events spells. -/
def ofEvents? (events : List Yaml.Event) : Option Node :=
  (events.foldl Builder.step Builder.start).root

/-- The tree of the first document of a YAML text; a text without a document is a null. -/
def ofYaml? (text : String) : Option Node :=
  (Yaml.documentEvents? text).map fun events => (ofEvents? events).getD .null

end Node

end RamlTypes
