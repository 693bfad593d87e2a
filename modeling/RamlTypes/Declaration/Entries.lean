import RamlTypes.Fault
import RamlTypes.Node.Basic

/-!
# Reading the entries of declarations

Each reader takes the node under a key and gives its value, or the fault that names the key and what
it must hold. A null is no value, except that it stands for an empty list of named entries.
-/

namespace RamlTypes.Entry

variable {α : Type}

/-- A flaw of a node. -/
def flawed (path : Path) (node : Node) (flaw : Flaw) : PlainFault :=
  .decode ⟨path, node.mark⟩ flaw

/-- The value of an entry, if it has the expected form. -/
def expect (path : Path) (key : String) (node : Node) (expected : Expected) :
    Option α → Except PlainFault α
  | some a => .ok a
  | none => .error (flawed path node (.wrongEntry key expected node.sort))

/-- The text of a key. -/
def keyText (path : Path) (key : Node) : Except PlainFault String :=
  match key.text? with
  | some t => .ok t
  | none => .error (flawed path key (.keyNotScalar key.sort))

/-- The text of a scalar that is not null. -/
def text (path : Path) (key : String) (node : Node) : Except PlainFault String :=
  expect path key node .scalar (if node.isNull then none else node.text?)

def boolean (path : Path) (key : String) (node : Node) : Except PlainFault Bool :=
  expect path key node .boolean node.bool?

def unsigned (path : Path) (key : String) (node : Node) : Except PlainFault Nat :=
  expect path key node .unsigned node.unsigned?

def double (path : Path) (key : String) (node : Node) : Except PlainFault Binary64 :=
  expect path key node .number node.double?

def items (path : Path) (key : String) (node : Node) : Except PlainFault (List Node) :=
  expect path key node .sequence node.items?

/-- A text or a sequence of texts. -/
def texts (path : Path) (key : String) (node : Node) : Except PlainFault (List String) :=
  match node.items? with
  | some nodes => nodes.mapM (text path key)
  | none => (text path key node).map fun t => [t]

/-- The pairs of a mapping under the texts of their keys. -/
def named (path : Path) (key : String) (node : Node) : Except PlainFault (List (String × Node)) :=
  if node.isNull then .ok []
  else do
    let pairs ← expect path key node .namedEntries node.pairs?
    pairs.mapM fun p => do return (← keyText path p.1, p.2)

/-- The pairs of the section `what` of a fragment. -/
def section? (path : Path) (what : String) (node : Node) : Except PlainFault (List (String × Node)) :=
  if node.isNull then .ok []
  else
    match node.pairs? with
    | none => .error (flawed path node (.sectionNotMapping what node.sort))
    | some pairs => pairs.mapM fun p =>
      match p.1.text? with
      | some t => .ok (t, p.2)
      | none => .error (flawed path p.1 (.sectionKeyNotScalar what))

end RamlTypes.Entry
