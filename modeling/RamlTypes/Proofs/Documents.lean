import RamlTypes.Node.OfEvents

/-!
# Documents and the events that spell them

`Yaml.Tree` is a document as it is written: its nodes may have anchors, and references to anchors stand
for nodes. `Tree.events` spells it, and `Tree.read` is the node that it stands for. The builder, which
sees nothing but the events and keeps the open collections on a stack, finds this node
(`Yaml.ofEvents?_events`). It is enough to follow the events of a tree above any open collections
(`Yaml.foldl_events`): they add one node to the innermost collection.

What a tag says of its node is spelled out here: `Tag.MarksInclude` and `Tag.MarksString`. The types of
plain scalars without a tag that makes them strings are those of `ScalarType.ofPlain`.
-/

namespace RamlTypes.Yaml

/-! ## Tags -/

/-- The tag of a node that is to be included: its suffix is `include`, and its handle does not stand
for a global tag. -/
def Tag.MarksInclude (tag : Tag) : Prop :=
  tag.suffix = "include" ∧ ¬ "tag:".toList <+: tag.handle.toList

/-- The tag of a scalar that is a string whatever its text is. -/
def Tag.MarksString (tag : Tag) : Prop := tag.suffix = "str"

instance : DecidablePred Tag.MarksInclude := fun _ => inferInstanceAs (Decidable (_ ∧ _))

instance : DecidablePred Tag.MarksString := fun _ => inferInstanceAs (Decidable (_ = _))

/-- A document as it is written. A collection has a mark for its start and one for its end. -/
inductive Tree where
  | scalar (text : String) (style : Style) (anchor : Nat) (tag : Option Tag) (mark : Mark)
  /-- A copy of the node with the given anchor. -/
  | reference (anchor : Nat) (mark : Mark)
  | sequence (anchor : Nat) (tag : Option Tag) (mark : Mark) (items : List Tree) (stop : Mark)
  | mapping (anchor : Nat) (tag : Option Tag) (mark : Mark) (pairs : List (Tree × Tree)) (stop : Mark)

namespace Tree

/-! ## The spelling of a document -/

mutual

/-- The events that spell a document. -/
def events : Tree → List Event
  | .scalar text style anchor tag mark => [⟨.scalar text style anchor tag, mark⟩]
  | .reference anchor mark => [⟨.reference anchor, mark⟩]
  | .sequence anchor tag mark items stop =>
    ⟨.sequenceStart anchor tag, mark⟩ :: (itemsEvents items ++ [⟨.sequenceEnd, stop⟩])
  | .mapping anchor tag mark pairs stop =>
    ⟨.mappingStart anchor tag, mark⟩ :: (pairsEvents pairs ++ [⟨.mappingEnd, stop⟩])

/-- The events of documents, one after the other. -/
def itemsEvents : List Tree → List Event
  | [] => []
  | t :: rest => events t ++ itemsEvents rest

/-- The events of keys and values in turn. -/
def pairsEvents : List (Tree × Tree) → List Event
  | [] => []
  | (k, v) :: rest => events k ++ events v ++ pairsEvents rest

end

/-! ## The node of a document -/

/-- Whether a node with a tag, or with none, is to be included. -/
def included : Option Tag → Bool
  | some tag => tag.MarksInclude
  | none => false

/-- The text and the type of a scalar. One that is not plain is a string with the text that is
written, and so is one whose tag makes it a string. -/
def typed (text : String) : Style → Option Tag → String × ScalarType
  | .plain, none => ScalarType.ofPlain text
  | .plain, some tag => if tag.MarksString then (text, .string) else ScalarType.ofPlain text
  | .quoted, _ | .block, _ => (text, .string)

/-- The completed nodes with one more, if it has an anchor. -/
def record (anchor : Nat) (node : Node) (completed : Dict Nat Node) : Dict Nat Node :=
  if 0 < anchor then Dict.put anchor node completed else completed

mutual

/-- The node of a document, and the nodes that are completed behind it, by their anchors. A collection
is completed when all its parts are. A reference is a copy of the completed node, or a null that stands
nowhere if its node is not completed. -/
def read (completed : Dict Nat Node) : Tree → Node × Dict Nat Node
  | .scalar text style anchor tag mark =>
    let node := .scalar (typed text style tag).1 (typed text style tag).2 mark (included tag)
    (node, record anchor node completed)
  | .reference anchor _ => ((Dict.find? anchor completed).getD .null, completed)
  | .sequence anchor tag mark items _ =>
    let (nodes, completed) := readItems completed items
    let node := .sequence nodes mark (included tag)
    (node, record anchor node completed)
  | .mapping anchor tag mark pairs _ =>
    let (nodes, completed) := readPairs completed pairs
    let node := .mapping nodes mark (included tag)
    (node, record anchor node completed)

/-- The nodes of documents that follow each other. -/
def readItems (completed : Dict Nat Node) : List Tree → List Node × Dict Nat Node
  | [] => ([], completed)
  | t :: rest =>
    let (node, completed) := read completed t
    let (nodes, completed) := readItems completed rest
    (node :: nodes, completed)

/-- The nodes of keys and values that follow each other. -/
def readPairs (completed : Dict Nat Node) : List (Tree × Tree) → List (Node × Node) × Dict Nat Node
  | [] => ([], completed)
  | (k, v) :: rest =>
    let (key, completed) := read completed k
    let (value, completed) := read completed v
    let (nodes, completed) := readPairs completed rest
    ((key, value) :: nodes, completed)

end

/-- The items behind one are read with the nodes that it completes. -/
theorem readItems_cons (completed : Dict Nat Node) (t : Tree) (rest : List Tree) :
    readItems completed (t :: rest) = ((t.read completed).1 :: (readItems (t.read completed).2 rest).1,
      (readItems (t.read completed).2 rest).2) :=
  rfl

/-- A value is read with the nodes that its key completes, and the pairs behind them with those of
both. -/
theorem readPairs_cons (completed : Dict Nat Node) (k v : Tree) (rest : List (Tree × Tree)) :
    readPairs completed ((k, v) :: rest) =
      (((k.read completed).1, (v.read (k.read completed).2).1)
        :: (readPairs (v.read (k.read completed).2).2 rest).1,
        (readPairs (v.read (k.read completed).2).2 rest).2) :=
  rfl

/-- The node of a whole document. -/
def node (t : Tree) : Node := (t.read []).1

end Tree

open Node Yaml.Tree

/-! ## The builder on the events of a document -/

/-- The builder includes the nodes that are to be included. -/
theorem isIncludeTag_eq (tag : Option Tag) : isIncludeTag tag = included tag := by
  cases tag with
  | none => rfl
  | some tag =>
    have hmarks : isIncludeTag (some tag) ↔ tag.MarksInclude := by
      rw [isIncludeTag, Bool.and_eq_true, decide_eq_true_eq, Bool.not_eq_true', ← Bool.not_eq_true,
        Text.startsWith_iff]
      rfl
    exact Bool.eq_iff_iff.2 (hmarks.trans decide_eq_true_iff.symm)

/-- The builder gives a scalar its text and its type. -/
theorem scalarOf_eq (text : String) (style : Style) (tag : Option Tag) :
    scalarOf text style tag = typed text style tag := by
  cases style with
  | plain =>
    cases tag with
    | none => rfl
    | some tag =>
      rw [scalarOf, typed, if_pos rfl]
      exact ite_congr (propext decide_eq_true_iff) (fun _ => rfl) fun _ => rfl
  | quoted => exact ite_self _
  | block => exact ite_self _

/-- A node with an anchor is recorded and added. -/
theorem add_eq (b : Builder) (node : Node) (anchor : Nat) :
    b.add node anchor = ({ b with anchors := record anchor node b.anchors }).add node 0 := by
  rw [Builder.add, Builder.add]
  cases b.frames <;> rfl

mutual

/-- The events of a document add its node to the innermost open collection. -/
theorem foldl_events (t : Tree) (b : Builder) : t.events.foldl Builder.step b =
    ({ b with anchors := (t.read b.anchors).2 }).add (t.read b.anchors).1 0 := by
  cases t with
  | scalar text style anchor tag mark =>
    have hstep : Builder.step b ⟨.scalar text style anchor tag, mark⟩ = b.add (.scalar
        (typed text style tag).1 (typed text style tag).2 mark (included tag)) anchor := by
      rw [← scalarOf_eq, ← isIncludeTag_eq]
      rfl
    exact hstep.trans (add_eq ..)
  | reference anchor mark => rfl
  | sequence anchor tag mark items stop =>
    have hopen : Builder.step b ⟨.sequenceStart anchor tag, mark⟩ =
        ⟨⟨.sequence [], mark, included tag, anchor⟩ :: b.frames, b.anchors, b.root⟩ := by
      rw [← isIncludeTag_eq]
      rfl
    rw [events, List.foldl_cons, List.foldl_append, hopen, foldl_itemsEvents items]
    exact add_eq ⟨b.frames, (readItems b.anchors items).2, b.root⟩ _ anchor
  | mapping anchor tag mark pairs stop =>
    have hopen : Builder.step b ⟨.mappingStart anchor tag, mark⟩ =
        ⟨⟨.mapping [] none, mark, included tag, anchor⟩ :: b.frames, b.anchors, b.root⟩ := by
      rw [← isIncludeTag_eq]
      rfl
    rw [events, List.foldl_cons, List.foldl_append, hopen, foldl_pairsEvents pairs]
    exact add_eq ⟨b.frames, (readPairs b.anchors pairs).2, b.root⟩ _ anchor

/-- The events of the items of a sequence add their nodes to it. -/
theorem foldl_itemsEvents (items : List Tree) (frames : List Frame) (mark : Mark) (isInclude : Bool)
    (anchor : Nat) (before : List Node) (completed : Dict Nat Node) (root : Option Node) :
    (itemsEvents items).foldl Builder.step
        ⟨⟨.sequence before, mark, isInclude, anchor⟩ :: frames, completed, root⟩ =
      ⟨⟨.sequence (before ++ (readItems completed items).1), mark, isInclude, anchor⟩ :: frames,
        (readItems completed items).2, root⟩ := by
  cases items with
  | nil =>
    rw [readItems, List.append_nil]
    rfl
  | cons t rest =>
    rw [itemsEvents, List.foldl_append, foldl_events t]
    refine (foldl_itemsEvents rest frames mark isInclude anchor (before ++ [(t.read completed).1])
      (t.read completed).2 root).trans ?_
    rw [List.append_assoc]
    rfl

/-- The events of the keys and values of a mapping add their pairs to it. -/
theorem foldl_pairsEvents (pairs : List (Tree × Tree)) (frames : List Frame) (mark : Mark)
    (isInclude : Bool) (anchor : Nat) (before : List (Node × Node)) (completed : Dict Nat Node)
    (root : Option Node) :
    (pairsEvents pairs).foldl Builder.step
        ⟨⟨.mapping before none, mark, isInclude, anchor⟩ :: frames, completed, root⟩ =
      ⟨⟨.mapping (before ++ (readPairs completed pairs).1) none, mark, isInclude, anchor⟩ :: frames,
        (readPairs completed pairs).2, root⟩ := by
  cases pairs with
  | nil =>
    rw [readPairs, List.append_nil]
    rfl
  | cons pair rest =>
    obtain ⟨k, v⟩ := pair
    rw [pairsEvents, List.foldl_append, List.foldl_append, foldl_events k, foldl_events v]
    -- the key waits for its value, and the two are a pair then
    refine (foldl_pairsEvents rest frames mark isInclude anchor
      (before ++ [((k.read completed).1, (v.read (k.read completed).2).1)])
      (v.read (k.read completed).2).2 root).trans ?_
    rw [List.append_assoc]
    rfl

end

/-! ## The events behind a document -/

/-- The first complete root stays. -/
theorem root_add {node : Node} {b : Builder} (h : b.root = some node) (n : Node) (anchor : Nat) :
    (b.add n anchor).root = some node := by
  rw [Builder.add]
  cases b.frames with
  | nil => rw [h]; rfl
  | cons => exact h

/-- Closing a collection leaves the first complete root. -/
theorem root_close {node : Node} {b : Builder} (h : b.root = some node) :
    b.close.root = some node := by
  rw [Builder.close]
  split
  · next f frames _ => exact root_add (b := { b with frames := frames }) h _ _
  · exact h

/-- An event leaves the first complete root. -/
theorem root_step {node : Node} {b : Builder} (e : Event) (h : b.root = some node) :
    (b.step e).root = some node := by
  rw [Builder.step]
  split
  · exact root_add h _ _
  · exact h
  · exact h
  · exact root_close h
  · exact root_close h
  · exact root_add h _ _

/-- All events leave the first complete root. -/
theorem root_foldl_step {node : Node} (events : List Event) {b : Builder} (h : b.root = some node) :
    (events.foldl Builder.step b).root = some node := by
  induction events generalizing b with
  | nil => exact h
  | cons e rest ih => exact ih (root_step e h)

/-- The node of a document is the first root, whatever events follow. -/
theorem ofEvents?_append (t : Tree) (more : List Event) :
    ofEvents? (t.events ++ more) = some t.node := by
  rw [ofEvents?, List.foldl_append]
  refine root_foldl_step more ?_
  rw [foldl_events]
  rfl

/-! ## References to open collections -/

namespace Tree

mutual

/-- The anchors in a document. -/
def anchors : Tree → List Nat
  | .scalar _ _ anchor _ _ => [anchor].filter (0 < ·)
  | .reference .. => []
  | .sequence anchor _ _ items _ => [anchor].filter (0 < ·) ++ itemsAnchors items
  | .mapping anchor _ _ pairs _ => [anchor].filter (0 < ·) ++ pairsAnchors pairs

/-- The anchors in the items of a sequence. -/
def itemsAnchors : List Tree → List Nat
  | [] => []
  | t :: rest => anchors t ++ itemsAnchors rest

/-- The anchors in the keys and values of a mapping. -/
def pairsAnchors : List (Tree × Tree) → List Nat
  | [] => []
  | (k, v) :: rest => anchors k ++ anchors v ++ pairsAnchors rest

end

mutual

/-- The document in which a reference to a collection that is still open, one of the given ones or one
inside the document, refers to nothing. Zero is no anchor. -/
def cut (opened : List Nat) : Tree → Tree
  | .scalar text style anchor tag mark => .scalar text style anchor tag mark
  | .reference anchor mark => .reference (if anchor ∈ opened then 0 else anchor) mark
  | .sequence anchor tag mark items stop =>
    .sequence anchor tag mark (cutItems (anchor :: opened) items) stop
  | .mapping anchor tag mark pairs stop =>
    .mapping anchor tag mark (cutPairs (anchor :: opened) pairs) stop

/-- The items without references to open collections. -/
def cutItems (opened : List Nat) : List Tree → List Tree
  | [] => []
  | t :: rest => cut opened t :: cutItems opened rest

/-- The keys and values without references to open collections. -/
def cutPairs (opened : List Nat) : List (Tree × Tree) → List (Tree × Tree)
  | [] => []
  | (k, v) :: rest => (cut opened k, cut opened v) :: cutPairs opened rest

end

end Tree

/-- A node is recorded for its own anchor only, and zero is none. -/
theorem find?_record_of_ne {a anchor : Nat} (h : a ∉ [anchor].filter (0 < ·)) (node : Node)
    (completed : Dict Nat Node) :
    Dict.find? a (record anchor node completed) = Dict.find? a completed := by
  rw [record]
  split
  · next hpos =>
    rw [Dict.find?_put, if_neg]
    rintro rfl
    exact h (List.mem_filter.2 ⟨List.mem_singleton_self _, decide_eq_true hpos⟩)
  · rfl

mutual

/-- A document completes nodes for no other anchors than its own. -/
theorem find?_read {a : Nat} (t : Tree) (completed : Dict Nat Node) (h : a ∉ t.anchors) :
    Dict.find? a (t.read completed).2 = Dict.find? a completed := by
  cases t with
  | scalar => exact find?_record_of_ne h _ _
  | reference => rfl
  | sequence anchor tag mark items stop =>
    rw [Tree.anchors, List.mem_append, not_or] at h
    exact (find?_record_of_ne h.1 _ _).trans (find?_readItems items completed h.2)
  | mapping anchor tag mark pairs stop =>
    rw [Tree.anchors, List.mem_append, not_or] at h
    exact (find?_record_of_ne h.1 _ _).trans (find?_readPairs pairs completed h.2)

/-- Items complete nodes for no other anchors than theirs. -/
theorem find?_readItems {a : Nat} (items : List Tree) (completed : Dict Nat Node)
    (h : a ∉ itemsAnchors items) :
    Dict.find? a (readItems completed items).2 = Dict.find? a completed := by
  cases items with
  | nil => rfl
  | cons t rest =>
    rw [itemsAnchors, List.mem_append, not_or] at h
    exact (find?_readItems rest _ h.2).trans (find?_read t completed h.1)

/-- Keys and values complete nodes for no other anchors than theirs. -/
theorem find?_readPairs {a : Nat} (pairs : List (Tree × Tree)) (completed : Dict Nat Node)
    (h : a ∉ pairsAnchors pairs) :
    Dict.find? a (readPairs completed pairs).2 = Dict.find? a completed := by
  cases pairs with
  | nil => rfl
  | cons pair rest =>
    obtain ⟨k, v⟩ := pair
    rw [pairsAnchors, List.mem_append, List.mem_append, not_or, not_or] at h
    exact (find?_readPairs rest _ h.2).trans
      ((find?_read v _ h.1.2).trans (find?_read k completed h.1.1))

end

/-- No node is completed for the open collections and for the anchors to come, each of which is used
once. -/
structure Ahead (opened anchors : List Nat) (completed : Dict Nat Node) : Prop where
  nodup : anchors.Nodup
  disjoint : ∀ a ∈ opened, a ∉ anchors
  zero : 0 ∉ anchors
  find?_opened : ∀ a ∈ 0 :: opened, Dict.find? a completed = none
  find?_anchors : ∀ a ∈ anchors, Dict.find? a completed = none

namespace Ahead

variable {opened anchors anchors' : List Nat} {completed completed' : Dict Nat Node}

/-- The first anchors are still to come. -/
theorem left (h : Ahead opened (anchors ++ anchors') completed) : Ahead opened anchors completed where
  nodup := (List.nodup_append.1 h.nodup).1
  disjoint a ha hm := h.disjoint a ha (List.mem_append_left _ hm)
  zero hm := h.zero (List.mem_append_left _ hm)
  find?_opened := h.find?_opened
  find?_anchors a ha := h.find?_anchors a (List.mem_append_left _ ha)

/-- Nodes of the first anchors are completed. -/
theorem right (h : Ahead opened (anchors ++ anchors') completed)
    (hfind : ∀ a, a ∉ anchors → Dict.find? a completed' = Dict.find? a completed) :
    Ahead opened anchors' completed' where
  nodup := (List.nodup_append.1 h.nodup).2.1
  disjoint a ha hm := h.disjoint a ha (List.mem_append_right _ hm)
  zero hm := h.zero (List.mem_append_right _ hm)
  find?_opened a ha := by
    rw [hfind a, h.find?_opened a ha]
    rcases List.mem_cons.1 ha with rfl | ha
    · exact fun hm => h.zero (List.mem_append_left _ hm)
    · exact fun hm => h.disjoint a ha (List.mem_append_left _ hm)
  find?_anchors a ha := by
    rw [hfind a, h.find?_anchors a (List.mem_append_right _ ha)]
    exact fun hm => (List.nodup_append.1 h.nodup).2.2 a hm a ha rfl

/-- A collection is opened. -/
theorem enter {anchor : Nat} (h : Ahead opened ([anchor].filter (0 < ·) ++ anchors) completed) :
    Ahead (anchor :: opened) anchors completed := by
  have hright : Ahead opened anchors completed := h.right fun _ _ => rfl
  rcases Nat.eq_zero_or_pos anchor with rfl | hpos
  · refine { hright with disjoint := fun a ha => ?_, find?_opened := fun a ha => ?_ }
    · rcases List.mem_cons.1 ha with rfl | ha
      · exact hright.zero
      · exact hright.disjoint a ha
    · exact h.find?_opened a ((List.mem_cons.1 ha).elim (fun he => he ▸ List.mem_cons_self) id)
  · have hmem : anchor ∈ [anchor].filter (0 < ·) :=
      List.mem_filter.2 ⟨List.mem_singleton_self _, decide_eq_true hpos⟩
    refine { hright with disjoint := fun a ha => ?_, find?_opened := fun a ha => ?_ }
    · rcases List.mem_cons.1 ha with rfl | ha
      · exact fun hm => (List.nodup_append.1 h.nodup).2.2 a hmem a hm rfl
      · exact hright.disjoint a ha
    · rcases List.mem_cons.1 ha with rfl | ha
      · exact h.find?_opened 0 List.mem_cons_self
      · rcases List.mem_cons.1 ha with rfl | ha
        · exact h.find?_anchors a (List.mem_append_left _ hmem)
        · exact h.find?_opened a (List.mem_cons_of_mem _ ha)

end Ahead

mutual

/-- References to open collections are nulls, as are references to nothing. -/
theorem read_cut {opened : List Nat} (t : Tree) {completed : Dict Nat Node}
    (h : Ahead opened t.anchors completed) : (t.cut opened).read completed = t.read completed := by
  cases t with
  | scalar => rfl
  | reference anchor mark =>
    rw [cut]
    split
    · next hm =>
      have hzero := h.find?_opened 0 List.mem_cons_self
      have hanchor := h.find?_opened anchor (List.mem_cons_of_mem _ hm)
      rw [Tree.read, Tree.read, hzero, hanchor]
    · rfl
  | sequence anchor tag mark items stop =>
    rw [Tree.anchors] at h
    rw [cut, Tree.read, Tree.read, readItems_cut items h.enter]
  | mapping anchor tag mark pairs stop =>
    rw [Tree.anchors] at h
    rw [cut, Tree.read, Tree.read, readPairs_cut pairs h.enter]

/-- References to open collections are nulls among items, too. -/
theorem readItems_cut {opened : List Nat} (items : List Tree) {completed : Dict Nat Node}
    (h : Ahead opened (itemsAnchors items) completed) :
    readItems completed (cutItems opened items) = readItems completed items := by
  cases items with
  | nil => rfl
  | cons t rest =>
    rw [itemsAnchors] at h
    have hrest := h.right fun a ha => find?_read t completed ha
    rw [cutItems, readItems_cons, readItems_cons, read_cut t h.left, readItems_cut rest hrest]

/-- References to open collections are nulls among keys and values, too. -/
theorem readPairs_cut {opened : List Nat} (pairs : List (Tree × Tree)) {completed : Dict Nat Node}
    (h : Ahead opened (pairsAnchors pairs) completed) :
    readPairs completed (cutPairs opened pairs) = readPairs completed pairs := by
  cases pairs with
  | nil => rfl
  | cons pair rest =>
    obtain ⟨k, v⟩ := pair
    rw [pairsAnchors, List.append_assoc] at h
    have hvalue := h.right fun a ha => find?_read k completed ha
    have hrest := hvalue.right fun a ha => find?_read v _ ha
    rw [cutPairs, readPairs_cons, readPairs_cons, read_cut k h.left, read_cut v hvalue.left,
      readPairs_cut rest hrest]

end

mutual

/-- Zero is no anchor of a document. -/
theorem zero_notMem_anchors (t : Tree) : 0 ∉ t.anchors := by
  cases t with
  | scalar => simp [Tree.anchors]
  | reference => simp [Tree.anchors]
  | sequence _ _ _ items _ => simp [Tree.anchors, zero_notMem_itemsAnchors items]
  | mapping _ _ _ pairs _ => simp [Tree.anchors, zero_notMem_pairsAnchors pairs]

/-- Zero is no anchor of an item. -/
theorem zero_notMem_itemsAnchors (items : List Tree) : 0 ∉ itemsAnchors items := by
  cases items with
  | nil => exact List.not_mem_nil
  | cons t rest => simp [itemsAnchors, zero_notMem_anchors t, zero_notMem_itemsAnchors rest]

/-- Zero is no anchor of a key or a value. -/
theorem zero_notMem_pairsAnchors (pairs : List (Tree × Tree)) : 0 ∉ pairsAnchors pairs := by
  cases pairs with
  | nil => exact List.not_mem_nil
  | cons pair rest =>
    obtain ⟨k, v⟩ := pair
    simp [pairsAnchors, zero_notMem_anchors k, zero_notMem_anchors v, zero_notMem_pairsAnchors rest]

end

/-- If no anchor is used twice, references to collections that are still open are references to
nothing. -/
theorem node_cut {t : Tree} (h : t.anchors.Nodup) : (t.cut []).node = t.node := by
  have hahead : Ahead [] t.anchors [] :=
    ⟨h, List.forall_mem_nil _, zero_notMem_anchors t, fun _ _ => rfl, fun _ _ => rfl⟩
  rw [node, node, read_cut t hahead]

/-! ## The document is found again -/

/-- From the events of a document, whatever follows them, its node is built. If no anchor is used
twice, a reference to a collection that is still open refers to nothing, so that it is a null. -/
theorem ofEvents?_events (t : Tree) (more : List Event) :
    ofEvents? (t.events ++ more) = some t.node ∧ (t.anchors.Nodup → (t.cut []).node = t.node) :=
  ⟨ofEvents?_append t more, node_cut⟩

/-- A mapping with a sequence as a key, which is repeated as a value, and with itself as a value. -/
theorem ofEvents?_events_of_circle :
    let text (t : String) (anchor : Nat) (mark : Mark) := Tree.scalar t .quoted anchor none mark
    let key := Tree.sequence 2 none ⟨1, 5⟩ [text "a" 3 ⟨1, 9⟩, .reference 3 ⟨1, 13⟩] ⟨1, 15⟩
    let t := Tree.mapping 1 none ⟨1, 4⟩
      [(key, .reference 2 ⟨1, 18⟩), (text "self" 0 ⟨2, 1⟩, .reference 1 ⟨2, 9⟩)] ⟨3, 1⟩
    let more : List Event := [⟨.sequenceEnd, ⟨4, 1⟩⟩, ⟨.reference 2, ⟨5, 1⟩⟩]
    let string (t : String) (mark : Mark) := Node.scalar t .string mark false
    let keyNode := Node.sequence [string "a" ⟨1, 9⟩, string "a" ⟨1, 9⟩] ⟨1, 5⟩ false
    t.anchors.Nodup ∧ ofEvents? (t.events ++ more) = some t.node ∧ (t.cut []).node = t.node ∧
      t.node = .mapping [(keyNode, keyNode), (string "self" ⟨2, 1⟩, .null)] ⟨1, 4⟩ false := by
  intro text key t more string keyNode
  have hnodup : t.anchors.Nodup := by decide
  have h := ofEvents?_events t more
  exact ⟨hnodup, h.1, h.2 hnodup, rfl⟩

end RamlTypes.Yaml
