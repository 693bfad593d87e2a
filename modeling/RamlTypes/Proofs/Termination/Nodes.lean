import RamlTypes.Proofs.Facets.Values
import RamlTypes.Proofs.Termination.Work

/-!
# The weights of nodes

What is read of a node are different nodes inside of it (`Node.Holds`): they weigh less together
than the node does, and each of them has fewer levels.
-/

namespace RamlTypes

/-- The weights of nodes that may declare shapes. -/
def nodesWeight (nodes : List Node) : Nat := totalWeight (fun v => 2 * v.size) nodes

/-- The keys of facets weigh nothing. -/
theorem facetsWeight_eq (facets : List (String × Node)) :
    facetsWeight facets = nodesWeight (facets.map (·.2)) := by
  rw [nodesWeight, totalWeight_map]
  rfl

/-- The weight of facets, one by one. -/
theorem facetsWeight_cons (entry : String × Node) (facets : List (String × Node)) :
    facetsWeight (entry :: facets) = 2 * entry.2.size + facetsWeight facets := rfl

/-- The weight of nodes, one by one. -/
theorem nodesWeight_cons (node : Node) (nodes : List Node) :
    nodesWeight (node :: nodes) = 2 * node.size + nodesWeight nodes := rfl

namespace Node

/-- A node weighs something. -/
theorem one_le_size (node : Node) : 1 ≤ node.size := by
  cases node <;> rw [size]
  all_goals omega

/-- A node has a level. -/
theorem height_pos (node : Node) : 0 < node.height := by
  cases node <;> rw [height]
  all_goals omega

/-- A mapping weighs more than its pairs. -/
theorem sizePairs_lt (node : Node) : sizePairs (node.pairs?.getD []) < node.size := by
  cases node with
  | mapping pairs mark isInclude =>
    show sizePairs pairs < _
    rw [size]
    omega
  | _ =>
    show sizePairs [] < _
    rw [sizePairs, size]
    omega

/-- The items of a sequence weigh twice their size. -/
theorem nodesWeight_eq (nodes : List Node) : nodesWeight nodes = 2 * sizeItems nodes := by
  induction nodes with
  | nil => rfl
  | cons node rest ih =>
    rw [nodesWeight_cons, ih, sizeItems]
    omega

/-- The values of a mapping weigh no more than the pairs. -/
theorem nodesWeight_pairs_le (pairs : List (Node × Node)) :
    nodesWeight (pairs.map (·.2)) ≤ 2 * sizePairs pairs := by
  induction pairs with
  | nil => exact Nat.le_refl _
  | cons pair rest ih =>
    rw [List.map_cons, nodesWeight_cons, sizePairs]
    omega

/-- An item has no more levels than the items have together. -/
theorem height_le_heightItems {nodes : List Node} {node : Node} (h : node ∈ nodes) :
    node.height ≤ heightItems nodes := by
  induction nodes with
  | nil => cases h
  | cons first rest ih =>
    rw [heightItems]
    rcases List.mem_cons.1 h with rfl | h
    · exact Nat.le_max_left _ _
    · exact Nat.le_trans (ih h) (Nat.le_max_right _ _)

/-- A value has no more levels than the pairs have together. -/
theorem height_le_heightPairs {pairs : List (Node × Node)} {node : Node}
    (h : node ∈ pairs.map (·.2)) : node.height ≤ heightPairs pairs := by
  induction pairs with
  | nil => cases h
  | cons first rest ih =>
    rw [heightPairs]
    rcases List.mem_cons.1 h with rfl | h
    · exact Nat.le_max_left _ _
    · exact Nat.le_trans (ih h) (Nat.le_max_right _ _)

/-- Different nodes inside of a node. -/
structure Holds (node : Node) (parts : List Node) : Prop where
  size : nodesWeight parts + 2 ≤ 2 * node.size
  height : ∀ part ∈ parts, part.height < node.height

/-- A node of which nothing is read. -/
theorem holds_nil (node : Node) : node.Holds [] where
  size := Nat.mul_le_mul_left 2 node.one_le_size
  height := List.forall_mem_nil _

/-- A sequence holds its items. -/
theorem holds_items {node : Node} {items : List Node} (h : node.items? = some items) :
    node.Holds items := by
  cases node <;> cases h
  constructor
  · rw [nodesWeight_eq, size]
    omega
  · intro part hpart
    rw [height, Nat.add_comm]
    exact Nat.lt_succ_of_le (height_le_heightItems hpart)

/-- A mapping holds its values. -/
theorem holds_pairs {node : Node} {pairs : List (Node × Node)} (h : node.pairs? = some pairs) :
    node.Holds (pairs.map (·.2)) := by
  cases node <;> cases h
  constructor
  · have hpairs := nodesWeight_pairs_le pairs
    rw [size]
    omega
  · intro part hpart
    rw [height, Nat.add_comm]
    exact Nat.lt_succ_of_le (height_le_heightPairs hpart)

/-- A section holds the values of its entries. -/
theorem HasEntries.holds {node : Node} {entries : List (String × Node)} (h : node.HasEntries entries) :
    node.Holds (entries.map (·.2)) := by
  cases h with
  | null text mark isInclude => exact holds_nil _
  | mapping mark isInclude hkeyed =>
    rw [hkeyed.map_snd]
    exact holds_pairs rfl

end Node

/-- The items that are read of an entry are different nodes inside of its value. -/
theorem Entry.holds_of_items {path : Path} {key : String} {node : Node} {nodes : List Node}
    (h : items path key node = .ok nodes) : node.Holds nodes := by
  cases hasItems_of_items h
  exact Node.holds_items rfl

end RamlTypes
