import RamlTypes.Yaml.Token

/-!
# YAML events

The content of a document as a flat sequence: scalars, references, and the starts and ends of
collections. Anchors are numbered from one in their order; zero is no anchor.
-/

namespace RamlTypes.Yaml

/-- A tag: what its handle stands for, and its suffix. -/
structure Tag where
  handle : String
  suffix : String
  deriving DecidableEq, Repr

inductive EventKind where
  | scalar (text : String) (style : Style) (anchor : Nat) (tag : Option Tag)
  /-- A copy of the node with the given anchor. -/
  | reference (anchor : Nat)
  | sequenceStart (anchor : Nat) (tag : Option Tag)
  | sequenceEnd
  | mappingStart (anchor : Nat) (tag : Option Tag)
  | mappingEnd
  deriving DecidableEq, Repr

structure Event where
  kind : EventKind
  mark : Mark
  deriving DecidableEq, Repr

end RamlTypes.Yaml
