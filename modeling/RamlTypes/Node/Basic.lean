import RamlTypes.Json.Basic
import RamlTypes.Mark
import RamlTypes.Number.Numeral

/-!
# Document trees

A document is a tree of scalars, sequences and mappings. A mapping is a list of pairs, whose keys
may be any nodes and may repeat. Each node knows where it stands and whether it carries the
include tag.
-/

namespace RamlTypes

/-- The type of a scalar. -/
inductive ScalarType where
  | string
  | int
  | float
  | bool
  | null
  deriving DecidableEq, Repr

inductive Node where
  | scalar (text : String) (type : ScalarType) (mark : Mark) (isInclude : Bool)
  | sequence (items : List Node) (mark : Mark) (isInclude : Bool)
  | mapping (pairs : List (Node × Node)) (mark : Mark) (isInclude : Bool)

namespace Node

/-- A null that stands nowhere. -/
def null : Node := .scalar "" .null .unknown false

instance : Inhabited Node := ⟨null⟩

/-- Where the node begins. -/
def mark : Node → Mark
  | .scalar _ _ m _ | .sequence _ m _ | .mapping _ m _ => m

/-- The node is tagged as the name of a file to be read. -/
def isInclude : Node → Bool
  | .scalar _ _ _ i | .sequence _ _ i | .mapping _ _ i => i

/-- The node is a scalar. -/
def isScalar : Node → Bool
  | .scalar .. => true
  | _ => false

/-- The node is a sequence or a mapping. -/
def isCollection (n : Node) : Bool := !n.isScalar

/-- The text of a scalar of any type. -/
def text? : Node → Option String
  | .scalar t .. => some t
  | _ => none

/-- The type of a scalar. -/
def scalarType? : Node → Option ScalarType
  | .scalar _ t .. => some t
  | _ => none

/-- The node is a scalar of the type null. -/
def isNull (n : Node) : Bool :=
  n.scalarType? == some .null

/-- The items of a sequence. -/
def items? : Node → Option (List Node)
  | .sequence xs .. => some xs
  | _ => none

/-- The pairs of a mapping. -/
def pairs? : Node → Option (List (Node × Node))
  | .mapping ps .. => some ps
  | _ => none

/-- The value of the first pair whose key is a scalar with the given text. -/
def get? (key : String) (n : Node) : Option Node :=
  (n.pairs?.getD []).findSome? fun p => if p.1.text? = some key then some p.2 else none

/-- The value of a boolean. -/
def bool? : Node → Option Bool
  | .scalar "true" .bool .. => some true
  | .scalar "false" .bool .. => some false
  | _ => none

/-- The least number that does not fit into 64 bits. -/
def wordLimit : Nat := 18446744073709551616

/-- The value of an integer without a minus sign that fits into 64 bits. -/
def unsigned? : Node → Option Nat
  | .scalar t .int .. => (Numeral.unsigned? 10 t.toList).filter (· < wordLimit)
  | _ => none

/-- The double nearest to a number. -/
def double? : Node → Option Binary64
  | .scalar t .int .. | .scalar t .float .. => Numeral.double? t
  | _ => none

/-- The sort of a node, as faults name it. -/
def sort : Node → String
  | .scalar _ .string .. => "string"
  | .scalar _ .int .. => "integer"
  | .scalar _ .float .. => "number"
  | .scalar _ .bool .. => "boolean"
  | .scalar _ .null .. => "null"
  | .sequence .. => "sequence"
  | .mapping .. => "mapping"

/-- Whether an integer fits into 64 bits, with a sign or without one. -/
def fitsWord (n : Int) : Bool :=
  -9223372036854775808 ≤ n && n < wordLimit

/-- A scalar as JSON. Numbers that JSON cannot hold are written as strings. -/
def scalarJson (text : String) : ScalarType → Json
  | .null => .null
  | .bool => if text = "true" then .bool true else if text = "false" then .bool false else .null
  | .int => ((Numeral.integer? text.toList).filter fitsWord).elim (.str text) .int
  | .float => ((Numeral.double? text).bind Json.ofDouble?).getD (.str text)
  | .string => .str text

mutual

/-- A node as JSON. The keys of a mapping are the texts of its keys, collections counting as empty
texts; of equal keys the last one counts. -/
def toJson : Node → Json
  | .scalar t type .. => scalarJson t type
  | .sequence items .. => .arr (itemsJson items)
  | .mapping pairs .. => Json.sorted (pairsJson pairs)

/-- The items of a sequence as JSON. -/
def itemsJson : List Node → List Json
  | [] => []
  | n :: rest => toJson n :: itemsJson rest

/-- The pairs of a mapping as JSON, in their order. -/
def pairsJson : List (Node × Node) → List (String × Json)
  | [] => []
  | (k, v) :: rest => (k.text?.getD "", toJson v) :: pairsJson rest

end

mutual

/-- The number of nodes in a tree. -/
def size : Node → Nat
  | .scalar .. => 1
  | .sequence items .. => 1 + sizeItems items
  | .mapping pairs .. => 1 + sizePairs pairs

/-- The number of nodes in a list of trees. -/
def sizeItems : List Node → Nat
  | [] => 0
  | n :: rest => size n + sizeItems rest

/-- The number of nodes in a list of pairs. -/
def sizePairs : List (Node × Node) → Nat
  | [] => 0
  | (k, v) :: rest => size k + size v + sizePairs rest

end

mutual

/-- The number of levels of a tree. -/
def height : Node → Nat
  | .scalar .. => 1
  | .sequence items .. => 1 + heightItems items
  | .mapping pairs .. => 1 + heightPairs pairs

/-- The greatest number of levels in a list of trees. -/
def heightItems : List Node → Nat
  | [] => 0
  | n :: rest => max (height n) (heightItems rest)

/-- The greatest number of levels of a value in a list of pairs. -/
def heightPairs : List (Node × Node) → Nat
  | [] => 0
  | (_, v) :: rest => max (height v) (heightPairs rest)

end

end Node

end RamlTypes
