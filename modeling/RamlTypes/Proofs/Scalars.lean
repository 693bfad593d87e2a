import Mathlib.Algebra.Ring.Int.Defs
import RamlTypes.Node.OfEvents
import RamlTypes.Proofs.CoreSchema

/-!
# What is read of the scalars of a document

The type of a scalar is decided when its document is read. Its value is read of the stored text later,
by readers that take other texts than the ones which decide the type. `Node.ReadsAsTyped` says that the
two agree: each reader finds a value, and the right one, where the type promises it, and nothing
elsewhere.

What the readers need is that a text is one of those that are stored for its type
(`CoreSchema.StoredAs`, `Node.readsAsTyped_scalar`). The builder of trees stores no others, and it
copies what it has for a reference, so that all trees that it holds are well typed after every event
(`Node.Builder.WellTyped.step`). `Node.readsAsTyped_of_ofYaml?` is the statement for the documents of
YAML texts.
-/

namespace RamlTypes

namespace CoreSchema

open ScalarType Numeral

variable {cs ds : List Char} {text : String}

/-! ## Stored texts -/

/-- `-?[0-9]+` -/
def integral : Language Char := perhaps (oneOf "-") * repeated digit

/-- The texts that are stored for scalars of a type. -/
inductive StoredAs : String → ScalarType → Prop
  | null : StoredAs "" .null
  | bool (b : Bool) : StoredAs (toString b) .bool
  | int {text : String} (h : text.toList ∈ integral) : StoredAs text .int
  /-- The numbers that have no numeral. -/
  | special {text : String} (h : text ∈ ["inf", "-inf", "NaN"]) : StoredAs text .float
  | float {text : String} (h : text.toList ∈ fractional) : StoredAs text .float
  | string (text : String) : StoredAs text .string

/-- The text of a word is stored for the type of the word. -/
theorem storedAs_of_mem {w : Word} (hw : w ∈ words) : StoredAs w.stored w.type := by
  simp only [words, List.mem_cons, List.not_mem_nil, or_false] at hw
  obtain rfl | rfl | rfl | rfl | rfl | rfl := hw
  · exact .null
  · exact .bool true
  · exact .bool false
  · exact .special (by decide)
  · exact .special (by decide)
  · exact .special (by decide)

/-- An integer starts with a minus sign or has none. -/
theorem mem_integral :
    cs ∈ integral ↔ cs ∈ repeated digit ∨ ∃ ds ∈ repeated digit, cs = '-' :: ds := by
  rw [integral, perhaps_mul, Language.mem_add]
  refine or_congr_right ?_
  cases cs with
  | nil => exact iff_of_false nil_notMem_oneOf_mul nofun
  | cons c rest =>
    rw [cons_mem_oneOf_mul]
    simp [and_comm]

/-- Without its plus sign an integer has the stored form. -/
theorem withoutPlus_mem_integral (h : cs ∈ decimal) : withoutPlus cs ∈ integral := by
  rw [mem_decimal] at h
  rw [mem_integral]
  unfold unsignedPart at h
  unfold withoutPlus
  split at h
  · exact .inr ⟨_, h, rfl⟩
  · exact .inl h
  · next hplus =>
    split
    · exact absurd rfl (hplus _)
    · exact .inl h

/-- A plain scalar gets a text that is stored for its type. -/
theorem storedAs_ofPlain (text : String) : StoredAs (ofPlain text).1 (ofPlain text).2 := by
  unfold ofPlain
  split
  · next hfound =>
    obtain ⟨w, hw, -, hstored, htype⟩ := special?_iff.1 hfound
    exact hstored ▸ htype ▸ storedAs_of_mem hw
  · dsimp only
    split
    · split
      · next n _ =>
        refine .int (mem_integral.2 (.inl (mem_repeated_digit.2 ?_)))
        rw [Nat.toString_eq_ofList_toDigits, String.toList_ofList]
        exact ⟨Nat.toDigits_ne_nil, fun c => Nat.isDigit_of_mem_toDigits (by decide) (by decide)⟩
      · exact .string text
    · split_ifs with hinteger hnumber
      · refine .int ?_
        rw [String.toList_ofList]
        exact withoutPlus_mem_integral (isInteger_iff.1 hinteger)
      · exact .float (isNumber_iff.1 hnumber)
      · exact .string text

/-! ## Readers of numerals -/

/-- The reader of digits finds the value of decimal digits. -/
theorem natural?_of_digits (h : ds ∈ repeated digit) : natural? 10 ds = some (value 10 ds) :=
  (natural?_iff List.mem_cons_self).2 ⟨h, rfl⟩

/-- The reader of numbers without a sign finds the value of decimal digits. -/
theorem unsigned?_of_digits (h : ds ∈ repeated digit) : unsigned? 10 ds = some (value 10 ds) := by
  unfold unsigned?
  split
  · next rest => exact absurd ((mem_repeated_digit.1 h).2 '+' List.mem_cons_self) (by decide)
  · exact natural?_of_digits h

/-- The reader of numbers without a sign takes no minus sign. -/
theorem unsigned?_minus (ds : List Char) : unsigned? 10 ('-' :: ds) = none := rfl

/-- The reader of integers finds the value of each text that is stored for an integer. -/
theorem integer?_of_mem (h : cs ∈ integral) : integer? cs = some (signedValue cs) := by
  rcases mem_integral.1 h with h | ⟨ds, hds, rfl⟩
  · rw [(decimal_of_digits h).2]
    unfold integer?
    split
    · next rest => exact absurd ((mem_repeated_digit.1 h).2 '-' List.mem_cons_self) (by decide)
    · rw [unsigned?_of_digits h]
      rfl
  · rw [integer?, natural?_of_digits hds]
    rfl

/-- The reader of decimal numbers takes integers, too. -/
theorem parts?_isSome_of_integral (h : cs ∈ integral) : (parts? cs).isSome := by
  have hnil (l : Language Char) : [] ∈ perhaps l := mem_perhaps.2 (.inl rfl)
  have hdigits : unsignedPart cs ∈ repeated digit := by
    rcases mem_integral.1 h with h | ⟨ds, hds, rfl⟩
    · rwa [unsignedPart_digits h]
    · exact hds
  have hmantissa : unsignedPart cs ∈ mantissa :=
    .inr ⟨_, hdigits, [], hnil _, List.append_nil _⟩
  exact parts?_isSome_iff.2 ⟨_, hmantissa, [], hnil _, List.append_nil _⟩

/-- The reader of decimal numbers takes what is typed as one. -/
theorem parts?_isSome_of_fractional (h : cs ∈ fractional) : (parts? cs).isSome := by
  have hnumber := isNumber_iff.2 h
  rw [isNumber, Bool.and_eq_true] at hnumber
  exact hnumber.2

/-- A text with the parts of a decimal number denotes a double. -/
theorem double?_isSome (h : (parts? text.toList).isSome) : (double? text).isSome := by
  unfold double?
  split
  · rfl
  · rfl
  · rfl
  · rfl
  · rwa [Option.isSome_map]

end CoreSchema

namespace Node

open CoreSchema

variable {n root : Node} {text : String} {type : ScalarType} {mark : Mark} {isInclude : Bool}

/-! ## Readers of scalars -/

/-- The readings of an integer with the given text. -/
structure ReadsAsInteger (n : Node) (text : String) : Prop where
  numeral : text.toList ∈ integral
  /-- The value is found if there is no minus sign and it fits into 64 bits. -/
  unsigned : ∀ m : Nat, n.unsigned? = some m ↔
    text.toList.head? ≠ some '-' ∧ signedValue text.toList = m ∧ m < 2 ^ 64
  double : n.double?.isSome
  /-- Digits that fit into no word are kept. -/
  json : n.toJson = if -2 ^ 63 ≤ signedValue text.toList ∧ signedValue text.toList < 2 ^ 64
    then .int (signedValue text.toList) else .str text

/-- What is read of a node is what its type promises. -/
structure ReadsAsTyped (n : Node) : Prop where
  bool : n.scalarType? = some .bool → ∃ b, n.bool? = some b ∧ n.toJson = .bool b
  int : n.scalarType? = some .int → ∃ text, n.text? = some text ∧ n.ReadsAsInteger text
  /-- A number is one of JSON if it is finite; otherwise JSON has its text. -/
  float : n.scalarType? = some .float → ∃ text d, n.text? = some text ∧ n.double? = some d ∧
    n.toJson = if d.isFinite then .double d else .str text
  null : n.scalarType? = some .null → n.text? = some ""
  bool?_isSome : n.bool?.isSome → n.scalarType? = some .bool
  unsigned?_isSome : n.unsigned?.isSome → n.scalarType? = some .int
  double?_isSome : n.double?.isSome → n.scalarType? = some .int ∨ n.scalarType? = some .float
  null_of_json : n.toJson = .null → n.scalarType? = some .null

/-- Only booleans are read as booleans. -/
theorem scalarType?_of_bool? (h : n.bool?.isSome) : n.scalarType? = some .bool := by
  unfold bool? at h
  split at h
  · rfl
  · rfl
  · cases h

/-- Only integers are read as numbers without a sign. -/
theorem scalarType?_of_unsigned? (h : n.unsigned?.isSome) : n.scalarType? = some .int := by
  unfold unsigned? at h
  split at h
  · rfl
  · cases h

/-- Only numbers are read as doubles. -/
theorem scalarType?_of_double? (h : n.double?.isSome) :
    n.scalarType? = some .int ∨ n.scalarType? = some .float := by
  unfold double? at h
  split at h
  · exact .inl rfl
  · exact .inr rfl
  · cases h

/-- The integers that JSON numbers hold, from the least with a sign to the greatest without one. -/
theorem fitsWord_iff {i : Int} : fitsWord i ↔ -2 ^ 63 ≤ i ∧ i < 2 ^ 64 := by
  rw [fitsWord, Bool.and_eq_true, decide_eq_true_eq, decide_eq_true_eq]
  rfl

/-- The readers of an integer agree on the text that is stored for it. -/
theorem readsAsInteger_scalar (h : text.toList ∈ integral) :
    (scalar text .int mark isInclude).ReadsAsInteger text where
  numeral := h
  unsigned m := by
    rw [unsigned?, Option.filter_eq_some_iff, decide_eq_true_eq]
    show _ ∧ m < 2 ^ 64 ↔ _
    rcases mem_integral.1 h with hdigits | ⟨ds, -, hminus⟩
    · have hhead : text.toList.head? ≠ some '-' := fun hc =>
        absurd ((mem_repeated_digit.1 hdigits).2 '-' (List.mem_of_mem_head? hc)) (by decide)
      rw [unsigned?_of_digits hdigits, (decimal_of_digits hdigits).2, and_iff_right hhead,
        Option.some_inj, Int.natCast_inj]
    · rw [hminus, unsigned?_minus]
      simp
  double := double?_isSome (parts?_isSome_of_integral h)
  json := by
    rw [toJson, scalarJson, integer?_of_mem h]
    simp only [Option.filter_some, fitsWord_iff]
    split_ifs <;> rfl

-- the sign is in the text, not in the value
example : (scalar "-0" .int .unknown false).unsigned? = none := by decide

example : (scalar "-0" .int .unknown false).toJson = .int 0 := rfl

/-- A text with a double is written as a number if that is finite. -/
theorem toJson_of_double? {d : Binary64} (h : (scalar text .float mark isInclude).double? = some d) :
    (scalar text .float mark isInclude).toJson = if d.isFinite then .double d else .str text := by
  rw [double?] at h
  rw [toJson, scalarJson, h, Option.bind_some, Json.ofDouble?]
  split_ifs <;> rfl

/-- What is stored for a float denotes a double. -/
theorem double?_isSome_of_float (h : StoredAs text .float) :
    (scalar text .float mark isInclude).double?.isSome := by
  have hspecial : ∀ text ∈ ["inf", "-inf", "NaN"], (Numeral.double? text).isSome := by decide
  cases h with
  | special h => exact hspecial text h
  | float h => exact double?_isSome (parts?_isSome_of_fractional h)

/-- The readers of a scalar agree with its type if its text is stored for that type. -/
theorem readsAsTyped_scalar (h : StoredAs text type) :
    (scalar text type mark isInclude).ReadsAsTyped where
  bool htype := by
    cases htype
    cases h with
    | bool b => exact ⟨b, by cases b <;> rfl, by cases b <;> rfl⟩
  int htype := by
    cases htype
    cases h with
    | int h => exact ⟨text, rfl, readsAsInteger_scalar h⟩
  float htype := by
    cases htype
    obtain ⟨d, hd⟩ := Option.isSome_iff_exists.1 (double?_isSome_of_float h)
    exact ⟨text, d, rfl, hd, toJson_of_double? hd⟩
  null htype := by
    cases htype
    cases h with
    | null => rfl
  bool?_isSome := scalarType?_of_bool?
  unsigned?_isSome := scalarType?_of_unsigned?
  double?_isSome := scalarType?_of_double?
  null_of_json hjson := by
    cases type with
    | null => rfl
    | bool =>
      cases h with
      | bool b => cases b <;> cases hjson
    | int =>
      cases h with
      | int h =>
        rw [(readsAsInteger_scalar h).json] at hjson
        split_ifs at hjson
    | float =>
      obtain ⟨d, hd⟩ := Option.isSome_iff_exists.1 (double?_isSome_of_float h)
      rw [toJson_of_double? hd] at hjson
      split_ifs at hjson
    | string => cases hjson

/-- A collection has no type, and nothing is read of it as of a scalar. -/
theorem readsAsTyped_of_scalarType? (h : n.scalarType? = none) (hjson : n.toJson ≠ .null) :
    n.ReadsAsTyped where
  bool htype := nomatch h.symm.trans htype
  int htype := nomatch h.symm.trans htype
  float htype := nomatch h.symm.trans htype
  null htype := nomatch h.symm.trans htype
  bool?_isSome := scalarType?_of_bool?
  unsigned?_isSome := scalarType?_of_unsigned?
  double?_isSome := scalarType?_of_double?
  null_of_json hnull := absurd hnull hjson

/-! ## The scalars of a tree -/

/-- A node is the tree or one inside of it: an item, a key or a value, at any depth. -/
inductive OccursIn (n : Node) : Node → Prop
  | here : n.OccursIn n
  | item {m : Node} {items : List Node} {mark : Mark} {isInclude : Bool} (hm : m ∈ items)
      (h : n.OccursIn m) : n.OccursIn (.sequence items mark isInclude)
  | key {p : Node × Node} {pairs : List (Node × Node)} {mark : Mark} {isInclude : Bool}
      (hp : p ∈ pairs) (h : n.OccursIn p.1) : n.OccursIn (.mapping pairs mark isInclude)
  | value {p : Node × Node} {pairs : List (Node × Node)} {mark : Mark} {isInclude : Bool}
      (hp : p ∈ pairs) (h : n.OccursIn p.2) : n.OccursIn (.mapping pairs mark isInclude)

/-- The texts of all scalars of a tree are stored for their types. -/
inductive WellTyped : Node → Prop
  | scalar {text : String} {type : ScalarType} {mark : Mark} {isInclude : Bool}
      (h : StoredAs text type) : WellTyped (.scalar text type mark isInclude)
  | sequence {items : List Node} {mark : Mark} {isInclude : Bool} (h : ∀ m ∈ items, m.WellTyped) :
      WellTyped (.sequence items mark isInclude)
  | mapping {pairs : List (Node × Node)} {mark : Mark} {isInclude : Bool}
      (hkeys : ∀ p ∈ pairs, p.1.WellTyped) (hvalues : ∀ p ∈ pairs, p.2.WellTyped) :
      WellTyped (.mapping pairs mark isInclude)

/-- The null that stands nowhere is well typed. -/
theorem wellTyped_null : null.WellTyped := .scalar .null

/-- Each node inside of a well typed tree is well typed. -/
theorem WellTyped.of_occursIn (h : root.WellTyped) (hn : n.OccursIn root) : n.WellTyped := by
  induction hn with
  | here => exact h
  | item hm _ ih =>
    cases h with
    | sequence hitems => exact ih (hitems _ hm)
  | key hp _ ih =>
    cases h with
    | mapping hkeys _ => exact ih (hkeys _ hp)
  | value hp _ ih =>
    cases h with
    | mapping _ hvalues => exact ih (hvalues _ hp)

/-- The readers of a well typed tree agree with the types. -/
theorem WellTyped.readsAsTyped (h : n.WellTyped) : n.ReadsAsTyped := by
  cases h with
  | scalar h => exact readsAsTyped_scalar h
  | sequence => exact readsAsTyped_of_scalarType? rfl nofun
  | mapping => exact readsAsTyped_of_scalarType? rfl nofun

/-! ## The builder of trees -/

/-- Quotes and tags make strings of texts, and the other scalars are plain. -/
theorem storedAs_scalarOf (text : String) (style : Yaml.Style) (tag : Option Yaml.Tag) :
    StoredAs (scalarOf text style tag).1 (scalarOf text style tag).2 := by
  unfold scalarOf
  split_ifs
  · exact .string text
  · exact storedAs_ofPlain text
  · exact .string text

/-- The trees in an open collection are well typed, a key that waits for its value among them. -/
inductive Open.WellTyped : Open → Prop
  | sequence {items : List Node} (h : ∀ m ∈ items, m.WellTyped) : WellTyped (.sequence items)
  | mapping {pairs : List (Node × Node)} {key : Option Node} (hkeys : ∀ p ∈ pairs, p.1.WellTyped)
      (hvalues : ∀ p ∈ pairs, p.2.WellTyped) (hkey : ∀ k ∈ key, k.WellTyped) :
      WellTyped (.mapping pairs key)

/-- A well typed node can be added to an open collection, as an item, a key or a value. -/
theorem Open.WellTyped.add {o : Open} (h : o.WellTyped) (hn : n.WellTyped) :
    (o.add n).WellTyped := by
  cases h with
  | sequence h => exact .sequence (List.forall_mem_append.2 ⟨h, List.forall_mem_singleton.2 hn⟩)
  | @mapping pairs key hkeys hvalues hkey =>
    cases key with
    | none => exact .mapping hkeys hvalues fun k hk => Option.some.inj hk ▸ hn
    | some key =>
      refine .mapping (List.forall_mem_append.2 ⟨hkeys, ?_⟩) (List.forall_mem_append.2 ⟨hvalues, ?_⟩)
        nofun
      · exact List.forall_mem_singleton.2 (hkey key rfl)
      · exact List.forall_mem_singleton.2 hn

/-- A collection of well typed nodes is well typed when it is closed. -/
theorem Frame.wellTyped_close {f : Frame} (h : f.content.WellTyped) : f.close.WellTyped := by
  obtain ⟨content, mark, isInclude, anchor⟩ := f
  cases h with
  | sequence h => exact .sequence h
  | mapping hkeys hvalues _ => exact .mapping hkeys hvalues

namespace Builder

/-- All trees that a builder holds are well typed. -/
structure WellTyped (b : Builder) : Prop where
  frames : ∀ f ∈ b.frames, f.content.WellTyped
  anchors : ∀ anchor n, Dict.find? anchor b.anchors = some n → n.WellTyped
  root : ∀ n ∈ b.root, n.WellTyped

variable {b : Builder}

/-- There is nothing yet in the first builder. -/
theorem wellTyped_start : start.WellTyped where
  frames := List.forall_mem_nil _
  anchors := nofun
  root := nofun

/-- A well typed node is added to the innermost collection, and under its anchor. -/
theorem WellTyped.add (h : b.WellTyped) (hn : n.WellTyped) (anchor : Nat) :
    (b.add n anchor).WellTyped := by
  let anchors := if 0 < anchor then Dict.put anchor n b.anchors else b.anchors
  have hanchors (a : Nat) (m : Node) (hm : Dict.find? a anchors = some m) : m.WellTyped := by
    unfold anchors at hm
    split_ifs at hm
    · rw [Dict.find?_put] at hm
      split_ifs at hm
      · exact Option.some.inj hm ▸ hn
      · exact h.anchors a m hm
    · exact h.anchors a m hm
  have hroot (m : Node) (hm : m ∈ b.root.or (some n)) : m.WellTyped := by
    rcases hroot : b.root with _ | root <;> rw [hroot] at hm <;> cases hm
    · exact hn
    · exact h.root m hroot
  obtain ⟨frames, anchors, root⟩ := b
  cases frames with
  | nil => exact ⟨List.forall_mem_nil _, hanchors, hroot⟩
  | cons f frames =>
    obtain ⟨hf, hrest⟩ := List.forall_mem_cons.1 h.frames
    exact ⟨List.forall_mem_cons.2 ⟨hf.add hn, hrest⟩, hanchors, h.root⟩

/-- A collection is opened, with nothing in it or with well typed nodes. -/
theorem WellTyped.push {content : Open} (h : b.WellTyped) (hcontent : content.WellTyped) (mark : Mark)
    (anchor : Nat) (tag : Option Yaml.Tag) : (b.push content mark anchor tag).WellTyped :=
  { h with frames := List.forall_mem_cons.2 ⟨hcontent, h.frames⟩ }

/-- The innermost collection is closed and added to the one around it. -/
theorem WellTyped.close (h : b.WellTyped) : b.close.WellTyped := by
  unfold Builder.close
  split
  · next f frames hframes =>
    obtain ⟨hf, hrest⟩ := List.forall_mem_cons.1 (hframes ▸ h.frames)
    have hbelow : WellTyped { b with frames := frames } := { h with frames := hrest }
    exact hbelow.add (Frame.wellTyped_close hf) f.anchor
  · exact h

/-- A reference adds a copy of a tree that the builder holds, or a null. -/
theorem WellTyped.step (h : b.WellTyped) (e : Yaml.Event) : (b.step e).WellTyped := by
  have hsequence : Open.WellTyped (.sequence []) := .sequence (List.forall_mem_nil _)
  have hmapping : Open.WellTyped (.mapping [] none) :=
    .mapping (List.forall_mem_nil _) (List.forall_mem_nil _) nofun
  unfold Builder.step
  split
  · next text style anchor tag _ => exact h.add (.scalar (storedAs_scalarOf text style tag)) anchor
  · exact h.push hsequence _ _ _
  · exact h.push hmapping _ _ _
  · exact h.close
  · exact h.close
  · next anchor _ =>
    refine h.add ?_ 0
    rcases hfound : Dict.find? anchor b.anchors with _ | m
    · exact wellTyped_null
    · exact h.anchors anchor m hfound

/-- After any events all trees of the builder are well typed. -/
theorem WellTyped.run (h : b.WellTyped) (events : List Yaml.Event) :
    (events.foldl Builder.step b).WellTyped := by
  induction events generalizing b with
  | nil => exact h
  | cons e rest ih => exact ih (h.step e)

end Builder

/-! ## The documents of YAML texts -/

/-- The tree of a YAML text is well typed. -/
theorem wellTyped_of_ofYaml? (h : ofYaml? text = some root) : root.WellTyped := by
  obtain ⟨events, -, rfl⟩ := Option.map_eq_some_iff.1 h
  rcases hroot : ofEvents? events with _ | found
  · exact wellTyped_null
  · exact (Builder.wellTyped_start.run events).root found hroot

/-- The readers agree with the types of all nodes in the document of a YAML text, keys and copies among
them. A boolean has a truth value. An integer has a double, an unsigned value if it has no minus sign
and fits into 64 bits, and it is a number in JSON if it fits, with its sign, and otherwise its digits.
Another number has a double, and it is a number in JSON if that is finite. The text of a null is empty.
Of a node of another type the readers find nothing, and only a null is `null` in JSON. -/
theorem readsAsTyped_of_ofYaml? (h : ofYaml? text = some root) (hn : n.OccursIn root) :
    n.ReadsAsTyped :=
  ((wellTyped_of_ofYaml? h).of_occursIn hn).readsAsTyped

/-- The greatest integer below all words, as a key, and its copy beside a number that overflows. -/
theorem readsAsTyped_of_copy :
    let least := scalar "-9223372036854775809" .int ⟨1, 8⟩ false
    let items := sequence [least, scalar "1e400" .float ⟨1, 39⟩ false] ⟨1, 30⟩ false
    let root := mapping [(least, items)] ⟨1, 28⟩ false
    ofYaml? "&least -9223372036854775809: [*least, 1e400]\n" = some root ∧ least.OccursIn root ∧
      least.ReadsAsTyped := by
  intro least items root
  have hevents : Yaml.documentEvents? "&least -9223372036854775809: [*least, 1e400]\n" = some [
      ⟨.mappingStart 0 none, ⟨1, 28⟩⟩, ⟨.scalar "-9223372036854775809" .plain 1 none, ⟨1, 8⟩⟩,
      ⟨.sequenceStart 0 none, ⟨1, 30⟩⟩, ⟨.reference 1, ⟨1, 31⟩⟩,
      ⟨.scalar "1e400" .plain 0 none, ⟨1, 39⟩⟩, ⟨.sequenceEnd, ⟨1, 44⟩⟩, ⟨.mappingEnd, ⟨2, 1⟩⟩] := by
    decide +kernel
  have hroot : ofYaml? "&least -9223372036854775809: [*least, 1e400]\n" = some root := by
    rw [ofYaml?, hevents]
    rfl
  have hcopy : least.OccursIn root := .value List.mem_cons_self (.item List.mem_cons_self .here)
  exact ⟨hroot, hcopy, readsAsTyped_of_ofYaml? hroot hcopy⟩

end Node

end RamlTypes
