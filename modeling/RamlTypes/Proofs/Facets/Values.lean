import Mathlib.Data.List.Forall2
import RamlTypes.Declaration.Example
import RamlTypes.Declaration.Facets
import RamlTypes.Proofs.CoreSchema
import RamlTypes.Proofs.Yields

/-!
# What entries hold

The value of an entry is a text, some texts, a number, a list, or a section of entries of its own. What
a node has to look like to hold such a value is said here of the node itself (`Node.HasText`,
`Node.HasCount`, `Node.HasEntries`), and the same is done for the marks in keys and for the blank
characters around a text (`Text.Trims`): the parentheses around the name of an annotation, and the
question mark after the name of an optional property. The readers of entries give just these values.
-/

namespace RamlTypes

/-- A reader of a list reads each of its members. -/
theorem forall₂_of_mapM {ε α β : Type} {f : α → Except ε β} (as : List α) : ∀ {bs : List β},
    as.mapM f = .ok bs → List.Forall₂ (fun a b => f a = .ok b) as bs := by
  induction as with
  | nil =>
    intro bs h
    cases h
    exact .nil
  | cons a as ih =>
    intro bs h
    rw [List.mapM_cons] at h
    obtain ⟨b, hb, h⟩ := exists_ok_of_bind h
    obtain ⟨rest, hrest, h⟩ := exists_ok_of_bind h
    cases h
    exact .cons hb (ih hrest)

/-! ## Nodes that hold values -/

namespace Node

/-- A scalar of any type but null holds its text. -/
inductive HasText : Node → String → Prop
  | scalar (text : String) {type : ScalarType} (mark : Mark) (isInclude : Bool) (h : type ≠ .null) :
    HasText (.scalar text type mark isInclude) text

/-- A scalar holds one text, and a sequence the texts of its items. -/
inductive HasTexts : Node → List String → Prop
  | one {node : Node} {text : String} (h : node.HasText text) : HasTexts node [text]
  | many {items : List Node} {texts : List String} (mark : Mark) (isInclude : Bool)
      (h : List.Forall₂ HasText items texts) : HasTexts (.sequence items mark isInclude) texts

/-- A boolean holds what its text says. -/
inductive HasFlag : Node → Bool → Prop
  | yes (mark : Mark) (isInclude : Bool) : HasFlag (.scalar "true" .bool mark isInclude) true
  | no (mark : Mark) (isInclude : Bool) : HasFlag (.scalar "false" .bool mark isInclude) false

/-- An integer holds the value of its numeral if that fits into 64 bits. -/
inductive HasCount : Node → Nat → Prop
  | scalar {text : String} {n : Nat} (mark : Mark) (isInclude : Bool)
      (numeral : text.toList ∈ CoreSchema.decimal) (value : CoreSchema.signedValue text.toList = n)
      (fits : n < 2 ^ 64) : HasCount (.scalar text .int mark isInclude) n

/-- A sequence holds its items. -/
inductive HasItems : Node → List Node → Prop
  | sequence (items : List Node) (mark : Mark) (isInclude : Bool) :
    HasItems (.sequence items mark isInclude) items

/-- The pairs of a mapping are entries: their keys are scalars, of any type, and the entries have the
texts of these, with the values of the pairs. -/
def Keyed (pairs : List (Node × Node)) (entries : List (String × Node)) : Prop :=
  List.Forall₂ (fun pair entry => ∃ type mark isInclude,
    pair = (.scalar entry.1 type mark isInclude, entry.2)) pairs entries

/-- A section holds the pairs of a mapping as entries. A null stands for no entries. -/
inductive HasEntries : Node → List (String × Node) → Prop
  | null (text : String) (mark : Mark) (isInclude : Bool) :
    HasEntries (.scalar text .null mark isInclude) []
  | mapping {pairs : List (Node × Node)} {entries : List (String × Node)} (mark : Mark)
      (isInclude : Bool) (h : Keyed pairs entries) : HasEntries (.mapping pairs mark isInclude) entries

/-- The values of entries are those of the pairs. -/
theorem Keyed.map_snd {pairs : List (Node × Node)} {entries : List (String × Node)}
    (h : Keyed pairs entries) : entries.map (·.2) = pairs.map (·.2) := by
  induction h with
  | nil => rfl
  | cons hpair hrest ih =>
    obtain ⟨type, mark, isInclude, rfl⟩ := hpair
    rw [List.map_cons, List.map_cons, ih]

/-- A pair of which the key has a text is an entry. -/
theorem exists_entry {pair : Node × Node} {text : String} (h : pair.1.text? = some text) :
    ∃ type mark isInclude, pair = (.scalar text type mark isInclude, pair.2) := by
  obtain ⟨key, value⟩ := pair
  cases key <;> cases h
  exact ⟨_, _, _, rfl⟩

/-- A node that is null is a scalar. -/
theorem exists_null {node : Node} (h : node.isNull) : ∃ text mark isInclude,
    node = .scalar text .null mark isInclude := by
  cases node with
  | scalar text type mark isInclude =>
    cases type with
    | null => exact ⟨text, mark, isInclude, rfl⟩
    | _ => cases h
  | sequence => cases h
  | mapping => cases h

end Node

/-! ## Readers of entries -/

namespace Entry

variable {path : Path} {key : String} {node : Node}

/-- What is expected is there. -/
theorem expect_eq_ok {α : Type} {expected : Expected} {o : Option α} {a : α} :
    expect path key node expected o = .ok a ↔ o = some a := by
  cases o <;> simp [expect]

/-- The text of a key is that of its scalar. -/
theorem keyText_eq_ok {text : String} (h : keyText path node = .ok text) : node.text? = some text := by
  rw [keyText] at h
  split at h
  · next htext =>
    cases h
    exact htext
  · cases h

/-- The text of an entry is that of its value. -/
theorem hasText_of_text {text : String} (h : Entry.text path key node = .ok text) :
    node.HasText text := by
  have htext := expect_eq_ok.1 h
  split at htext
  · cases htext
  · next hnull =>
    cases node with
    | scalar _ type mark isInclude =>
      cases htext
      exact .scalar text mark isInclude fun hn => hnull (hn ▸ rfl)
    | sequence => cases htext
    | mapping => cases htext

/-- The boolean of an entry is that of its value. -/
theorem hasFlag_of_boolean {b : Bool} (h : boolean path key node = .ok b) : node.HasFlag b := by
  have hflag := expect_eq_ok.1 h
  rw [Node.bool?.eq_def] at hflag
  split at hflag <;> cases hflag
  · exact .yes _ _
  · exact .no _ _

/-- The count of an entry is that of its value. -/
theorem hasCount_of_unsigned {n : Nat} (h : unsigned path key node = .ok n) : node.HasCount n := by
  have hcount := expect_eq_ok.1 h
  rw [Node.unsigned?.eq_def] at hcount
  split at hcount
  · next text mark isInclude =>
    obtain ⟨hread, hfits⟩ := Option.filter_eq_some_iff.1 hcount
    obtain ⟨hnumeral, hvalue⟩ := CoreSchema.decimal_of_unsigned? hread
    exact .scalar mark isInclude hnumeral hvalue (of_decide_eq_true hfits)
  · cases hcount

/-- The items of an entry are those of its value. -/
theorem hasItems_of_items {nodes : List Node} (h : items path key node = .ok nodes) :
    node.HasItems nodes := by
  have hitems := expect_eq_ok.1 h
  cases node <;> cases hitems
  exact .sequence ..

/-- The texts of an entry are those of its value. -/
theorem hasTexts_of_texts {texts : List String} (h : Entry.texts path key node = .ok texts) :
    node.HasTexts texts := by
  rw [Entry.texts] at h
  split at h
  · next nodes hitems =>
    cases node with
    | sequence items mark isInclude =>
      cases hitems
      exact .many mark isInclude ((forall₂_of_mapM _ h).imp fun _ _ => hasText_of_text)
    | scalar => cases hitems
    | mapping => cases hitems
  · rcases htext : Entry.text path key node with _ | text <;> rw [htext] at h <;> cases h
    exact .one (hasText_of_text htext)

/-- A section is a null, or its pairs are read one by one. -/
theorem hasEntries_of_pairs {f : Node × Node → Except PlainFault (String × Node)}
    (hf : ∀ pair entry, f pair = .ok entry → ∃ text, pair.1.text? = some text ∧ (text, pair.2) = entry)
    {pairs : List (Node × Node)} {entries : List (String × Node)} (hpairs : node.pairs? = some pairs)
    (h : pairs.mapM f = .ok entries) : node.HasEntries entries := by
  have hkeyed : Node.Keyed pairs entries := by
    refine (forall₂_of_mapM pairs h).imp fun pair entry hentry => ?_
    obtain ⟨text, htext, rfl⟩ := hf pair entry hentry
    exact Node.exists_entry htext
  cases node with
  | mapping _ mark isInclude =>
    cases hpairs
    exact .mapping mark isInclude hkeyed
  | scalar => cases hpairs
  | sequence => cases hpairs

/-- The named entries of a facet are those of its value. -/
theorem hasEntries_of_named {entries : List (String × Node)} (h : named path key node = .ok entries) :
    node.HasEntries entries := by
  rw [named] at h
  split at h
  · next hnull =>
    obtain ⟨text, mark, isInclude, rfl⟩ := Node.exists_null hnull
    cases h
    exact .null text mark isInclude
  · obtain ⟨pairs, hpairs, h⟩ := exists_ok_of_bind h
    refine hasEntries_of_pairs (fun pair entry hentry => ?_) (expect_eq_ok.1 hpairs) h
    obtain ⟨text, htext, hentry⟩ := exists_ok_of_bind hentry
    exact ⟨text, keyText_eq_ok htext, Except.ok.inj hentry⟩

/-- The entries of a section of a file are those of its value. -/
theorem hasEntries_of_section {what : String} {entries : List (String × Node)}
    (h : section? path what node = .ok entries) : node.HasEntries entries := by
  rw [section?] at h
  split at h
  · next hnull =>
    obtain ⟨text, mark, isInclude, rfl⟩ := Node.exists_null hnull
    cases h
    exact .null text mark isInclude
  · rcases hpairs : node.pairs? with _ | pairs <;> rw [hpairs] at h
    · cases h
    · refine hasEntries_of_pairs (fun pair entry hentry => ?_) hpairs h
      rcases htext : pair.1.text? with _ | text <;> rw [htext] at hentry
      · cases hentry
      · exact ⟨text, rfl, Except.ok.inj hentry⟩

end Entry

/-! ## Marks in keys -/

namespace Text

/-- The text `t` is what is left of `s` without the blank characters at its ends. -/
structure Trims (s t : String) : Prop where
  ends : ∃ front back, s.toList = front ++ t.toList ++ back ∧ (∀ c ∈ front, isBlank c) ∧
    ∀ c ∈ back, isBlank c
  first : ∀ c ∈ t.toList.head?, ¬ isBlank c
  last : ∀ c ∈ t.toList.getLast?, ¬ isBlank c

/-- What `dropBlank` leaves does not start with a blank character. -/
theorem not_isBlank_of_mem_head? (cs : List Char) : ∀ c ∈ (dropBlank cs).head?, ¬ isBlank c := by
  intro c hc
  have hfirst := List.head?_dropWhile_not isBlank cs
  rw [dropBlank] at hc
  rw [Option.mem_def.1 hc] at hfirst
  simpa using hfirst

/-- Trimming takes the blank characters at the ends away, and nothing else. -/
theorem trims_trim (s : String) : Trims s (trim s) := by
  have blank (cs : List Char) : ∀ c ∈ cs.takeWhile isBlank, isBlank c :=
    fun c hc => List.all_eq_true.1 List.all_takeWhile c hc
  have htext : (trim s).toList = ((dropBlank s.toList).reverse.dropWhile isBlank).reverse := by
    rw [trim, String.toList_ofList, dropBlankEnd]
  have hsplit : dropBlank s.toList = (trim s).toList ++
      ((dropBlank s.toList).reverse.takeWhile isBlank).reverse := by
    rw [htext, ← List.reverse_append, List.takeWhile_append_dropWhile, List.reverse_reverse]
  exact {
    ends := by
      refine ⟨s.toList.takeWhile isBlank, ((dropBlank s.toList).reverse.takeWhile isBlank).reverse,
        ?_, blank _, fun c hc => blank _ c (List.mem_reverse.1 hc)⟩
      rw [List.append_assoc, ← hsplit, dropBlank, List.takeWhile_append_dropWhile]
    first := by
      intro c hc
      refine not_isBlank_of_mem_head? s.toList c ?_
      rw [hsplit, Option.mem_def, List.head?_append, Option.mem_def.1 hc, Option.some_or]
    last := by
      intro c hc
      rw [htext, List.getLast?_reverse] at hc
      exact not_isBlank_of_mem_head? _ c hc }

/-- A text begins with another one just if something follows that one. -/
theorem afterStart?_eq_some_iff {start s rest : String} :
    afterStart? start s = some rest ↔ s = start ++ rest := by
  rw [afterStart?, Option.map_eq_some_iff, ← String.toList_inj, String.toList_append]
  constructor
  · rintro ⟨cs, hcs, rfl⟩
    rw [dropStart?_eq_some_iff.1 hcs, String.toList_ofList]
  · exact fun h => ⟨rest.toList, dropStart?_eq_some_iff.2 h, String.ofList_toList⟩

/-- A text is what stands before its last character, followed by that character. -/
theorem beforeLast?_eq_some_iff {last : Char} {s rest : String} :
    beforeLast? last s = some rest ↔ s = rest ++ String.singleton last := by
  have hlast : (String.singleton last).toList = [last] := String.toList_singleton last
  rw [beforeLast?, ← String.toList_inj, String.toList_append, hlast]
  rcases List.eq_nil_or_concat s.toList with hs | ⟨before, c, hs⟩
  · rw [hs]
    simp
  · rw [hs, List.concat_eq_append, List.reverse_append]
    by_cases hc : c = last
    · subst hc
      simp [← String.toList_inj, eq_comm]
    · simp [hc]

end Text

/-- A property is optional if its key ends with a question mark. -/
theorem Facets.propertyName_cases (key : String) :
    (∃ name, key = name ++ "?" ∧ propertyName key = (name, true)) ∨
    ((∀ name, key ≠ name ++ "?") ∧ propertyName key = (key, false)) := by
  have hmark : String.singleton '?' = "?" := rfl
  rw [propertyName]
  rcases hb : Text.beforeLast? '?' key with _ | name
  · refine .inr ⟨fun name hkey => ?_, rfl⟩
    rw [Text.beforeLast?_eq_some_iff.2 (hkey.trans (by rw [hmark]))] at hb
    cases hb
  · exact .inl ⟨name, hmark ▸ Text.beforeLast?_eq_some_iff.1 hb, rfl⟩

/-- The name of an annotation stands in parentheses, and blank characters around it do not count. -/
theorem annotationName_cases (key : String) :
    (∃ name, key = "(" ++ name ++ ")" ∧ annotationName? key = some (Text.trim name)) ∨
    ((∀ name, key ≠ "(" ++ name ++ ")") ∧ annotationName? key = none) := by
  have hclose : String.singleton ')' = ")" := rfl
  have hkey (name : String) : key = "(" ++ name ++ ")" ↔
      (Text.afterStart? "(" key).bind (Text.beforeLast? ')') = some name := by
    rw [Option.bind_eq_some_iff, String.append_assoc]
    constructor
    · exact fun h =>
        ⟨_, Text.afterStart?_eq_some_iff.2 h, Text.beforeLast?_eq_some_iff.2 (by rw [hclose])⟩
    · rintro ⟨rest, hrest, hname⟩
      rw [Text.afterStart?_eq_some_iff.1 hrest, Text.beforeLast?_eq_some_iff.1 hname, hclose]
  have hmap : annotationName? key =
      ((Text.afterStart? "(" key).bind (Text.beforeLast? ')')).map Text.trim := by
    rw [annotationName?]
    split <;> next h => rw [h]; rfl
  rcases hname : (Text.afterStart? "(" key).bind (Text.beforeLast? ')') with _ | name
  · refine .inr ⟨fun name h => ?_, by rw [hmap, hname]; rfl⟩
    have hsome := (hkey name).1 h
    rw [hname] at hsome
    cases hsome
  · exact .inl ⟨name, (hkey name).2 hname, by rw [hmap, hname]; rfl⟩

end RamlTypes
