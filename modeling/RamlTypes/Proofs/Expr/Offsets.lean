import Mathlib.Order.Bounds.Defs
import RamlTypes.Proofs.Expr.Grammar

/-!
# Where a syntax error is

A text that is no expression is refused at the end of its longest start that begins some expression
(`Expr.isGreatest_offset`). The reader goes on as long as it can, so two facts are needed of its
states: from each of them some characters lead to a complete expression (`Reader.exists_finish`), and
from a state that does not take the next character no text with that character is read
(`Reader.run_append`).
-/

namespace RamlTypes.Expr

/-- Some expression begins with the text. -/
def Begins (front : String) : Prop := ∃ rest e, parse (front ++ rest) = .ok e

theorem utf8ByteSize_cons (c : Char) (cs : List Char) :
    (String.ofList (c :: cs)).utf8ByteSize = c.utf8Size + (String.ofList cs).utf8ByteSize := by
  rw [String.ofList_cons, String.utf8ByteSize_append, String.utf8ByteSize_singleton]

/-- A text with characters is longer than the empty one. -/
theorem utf8ByteSize_pos {c : Char} {cs : List Char} :
    0 < (String.ofList (c :: cs)).utf8ByteSize := by
  rw [utf8ByteSize_cons]
  exact Nat.add_pos_left c.utf8Size_pos _

namespace Reader

/-! ## Every state leads to an expression -/

variable {r s : Reader}

/-- An operand can be completed at every focus. -/
theorem exists_operand (outer : List (List Expr)) (members : List Expr) (f : Focus) :
    ∃ cs g e, take? ⟨outer, members, f⟩ cs = some ⟨outer, members, g⟩ ∧ g.Ends e := by
  cases f with
  | operand => exact ⟨['A'], _, _, rfl, .stands (.name ['A'])⟩
  | name n => exact ⟨[], _, _, rfl, .stands (.name n)⟩
  | dot l => exact ⟨['A'], _, _, rfl, .stands (.qualified l ['A'])⟩
  | qualified l n => exact ⟨[], _, _, rfl, .stands (.qualified l n)⟩
  | bracket e => exact ⟨[']'], _, _, rfl, .stands (.complete (.array e))⟩
  | complete e => exact ⟨[], _, _, rfl, .stands (.complete e)⟩
  | gap e => exact ⟨[], _, _, rfl, .gap rfl⟩

/-- The expression ends where no group is open. -/
theorem finish?_of_ends {f : Focus} {e : Expr} (members : List Expr) (h : f.Ends e) :
    finish? ⟨[], members, f⟩ = some (ofMembers (members ++ [e])) := by
  rcases h with (_ | _ | _) | rfl <;> rfl

/-- After an operand the open groups can be closed one after the other. -/
theorem exists_finish_of_ends (outer : List (List Expr)) : ∀ (members : List Expr) {f : Focus}
    {e : Expr}, f.Ends e →
    ∃ cs s e', take? ⟨outer, members, f⟩ cs = some s ∧ s.finish? = some e' := by
  induction outer with
  | nil => exact fun members f e h => ⟨[], _, _, rfl, finish?_of_ends members h⟩
  | cons before outer ih =>
    intro members f e h
    have hclose : step ⟨before :: outer, members, f⟩ ')' =
        some ⟨outer, before, .complete (ofMembers (members ++ [e]))⟩ :=
      step_of_ends _ _ h (by decide) (by decide) (by decide)
    obtain ⟨cs, s, e', htake, hfinish⟩ := ih before (.stands (.complete (ofMembers (members ++ [e]))))
    refine ⟨')' :: cs, s, e', ?_, hfinish⟩
    rw [take?_cons, hclose]
    exact htake

/-- From every state some characters lead to a complete expression. -/
theorem exists_finish (r : Reader) : ∃ cs s e, r.take? cs = some s ∧ s.finish? = some e := by
  obtain ⟨outer, members, f⟩ := r
  obtain ⟨cs, g, e, htake, hends⟩ := exists_operand outer members f
  obtain ⟨ds, s, e', htake', hfinish⟩ := exists_finish_of_ends outer members hends
  exact ⟨cs ++ ds, s, e', take?_append htake htake', hfinish⟩

/-! ## Where the reader gets stuck -/

/-- The reader cannot take the next character, or cannot stop at the end of the text. -/
def IsStuck (r : Reader) : List Char → Prop
  | [] => r.finish? = none
  | c :: _ => r.step c = none

/-- After the characters that the reader takes it goes on from the state that they lead to. -/
theorem run_append (cs : List Char) : ∀ {r : Reader} (offset : Nat) (ds : List Char),
    r.take? cs = some s →
    r.run offset (cs ++ ds) = s.run (offset + (String.ofList cs).utf8ByteSize) ds := by
  induction cs with
  | nil =>
    intro r offset ds h
    cases h
    rfl
  | cons c rest ih =>
    intro r offset ds h
    rw [take?_cons, Option.bind_eq_some_iff] at h
    obtain ⟨r', hr, h⟩ := h
    rw [List.cons_append, run, hr, utf8ByteSize_cons, ← Nat.add_assoc]
    exact ih _ ds h

/-- A failure is where the reader gets stuck. -/
theorem exists_stuck_of_run (cs : List Char) : ∀ {r : Reader} {offset n : Nat},
    r.run offset cs = .error n →
    ∃ front rest s, cs = front ++ rest ∧ n = offset + (String.ofList front).utf8ByteSize ∧
      r.take? front = some s ∧ s.IsStuck rest := by
  induction cs with
  | nil =>
    intro r offset n h
    rw [run] at h
    split at h
    · cases h
    · next hfinish =>
      cases h
      exact ⟨[], [], r, rfl, rfl, rfl, hfinish⟩
  | cons c rest ih =>
    intro r offset n h
    rw [run] at h
    split at h
    · next r' hstep =>
      obtain ⟨front, rest', s, rfl, rfl, htake, hstuck⟩ := ih h
      refine ⟨c :: front, rest', s, rfl, ?_, ?_, hstuck⟩
      · rw [utf8ByteSize_cons, Nat.add_assoc]
      · rw [take?_cons, hstep]
        exact htake
    · next hstep =>
      cases h
      exact ⟨[], c :: rest, r, rfl, rfl, rfl, hstep⟩

/-- No text with the character at which the reader is stuck is read. -/
theorem run_of_stuck {c : Char} {cs : List Char} (h : s.IsStuck (c :: cs)) (offset : Nat)
    (ds : List Char) : s.run offset (c :: ds) = .error offset := by
  rw [run]
  rw [IsStuck] at h
  rw [h]

end Reader

/-! ## The offset of a syntax error -/

open Reader

/-- A start that the reader takes begins an expression. -/
theorem begins_of_take? {front : List Char} {s : Reader} (h : start.take? front = some s) :
    Begins (String.ofList front) := by
  obtain ⟨cs, s', e, htake, hfinish⟩ := s.exists_finish
  refine ⟨String.ofList cs, e, ?_⟩
  rw [parse, String.toList_append, String.toList_ofList, String.toList_ofList]
  exact run_of_take? _ 0 (take?_append h htake) hfinish

/-- A longer start than the one that the reader takes begins no expression. -/
theorem not_begins_of_stuck {front rest : List Char} {c : Char} {s : Reader}
    (h : start.take? front = some s) (hstuck : s.IsStuck (c :: rest)) (ds : List Char) :
    ¬ Begins (String.ofList (front ++ c :: ds)) := by
  rintro ⟨more, e, he⟩
  rw [parse, String.toList_append, String.toList_ofList, List.append_assoc, List.cons_append,
    run_append front 0 _ h, run_of_stuck hstuck] at he
  cases he

/-- Where the reader gets stuck no start that is longer than what it has taken begins an expression. -/
theorem utf8ByteSize_le_of_begins {front rest : List Char} {s : Reader}
    (htake : start.take? front = some s) (hstuck : s.IsStuck rest) {front' rest' : String}
    (heq : front ++ rest = front'.toList ++ rest'.toList) (h : Begins front') :
    front'.utf8ByteSize ≤ (String.ofList front).utf8ByteSize := by
  rcases List.append_eq_append_iff.1 heq with ⟨ds, hfront', hrest⟩ | ⟨ds, hfront, -⟩
  · cases ds with
    | nil =>
      rw [List.append_nil] at hfront'
      exact Nat.le_of_eq (by rw [← hfront', String.ofList_toList])
    | cons c ds =>
      rw [hrest] at hstuck
      rw [← String.ofList_toList (s := front'), hfront'] at h
      exact absurd h (not_begins_of_stuck htake hstuck ds)
  · rw [hfront, String.ofList_append, String.ofList_toList, String.utf8ByteSize_append]
    exact Nat.le_add_right _ _

/-- A start of the same length as the text is the text. -/
theorem eq_nil_of_utf8ByteSize_eq {front rest : List Char}
    (h : (String.ofList front).utf8ByteSize = (String.ofList (front ++ rest)).utf8ByteSize) :
    rest = [] := by
  cases rest with
  | nil => rfl
  | cons c rest =>
    rw [String.ofList_append, String.utf8ByteSize_append] at h
    exact absurd h (Nat.ne_of_lt (Nat.lt_add_of_pos_right utf8ByteSize_pos))

/-- A text that is no expression is refused at the end of its longest start that begins an
expression, in bytes. This is the end of the text exactly when some further characters make the text
an expression. -/
theorem isGreatest_offset {text : String} {n : Nat} (h : parse text = .error n) :
    (⟨n⟩ : String.Pos.Raw).IsValid text ∧
      IsGreatest {m | ∃ front rest, text = front ++ rest ∧ Begins front ∧ m = front.utf8ByteSize} n ∧
      (n = text.utf8ByteSize ↔ ∃ rest, rest ≠ "" ∧ ∃ e, parse (text ++ rest) = .ok e) := by
  obtain ⟨front, rest, s, htext, hn, htake, hstuck⟩ := exists_stuck_of_run text.toList h
  rw [Nat.zero_add] at hn
  have hsplit : text = String.ofList (front ++ rest) := by rw [← htext, String.ofList_toList]
  have hparts : text = String.ofList front ++ String.ofList rest := by
    rw [hsplit, String.ofList_append]
  have hbegins : Begins (String.ofList front) := begins_of_take? htake
  have hgreatest : ∀ front' rest', text = front' ++ rest' → Begins front' →
      front'.utf8ByteSize ≤ n := by
    intro front' rest' htext' hbegins'
    have heq : front ++ rest = front'.toList ++ rest'.toList := by
      rw [← htext, htext', String.toList_append]
    rw [hn]
    exact utf8ByteSize_le_of_begins htake hstuck heq hbegins'
  refine ⟨?_, ⟨⟨_, _, hparts, hbegins, hn⟩, ?_⟩, fun hend => ?_, ?_⟩
  · exact String.Pos.Raw.isValid_iff_exists_append.2 ⟨_, _, hparts, by rw [hn]; rfl⟩
  · rintro _ ⟨front', rest', htext', hbegins', rfl⟩
    exact hgreatest front' rest' htext' hbegins'
  · have hrest : rest = [] := eq_nil_of_utf8ByteSize_eq (by rw [← hn, hend, hsplit])
    rw [hrest, List.append_nil] at hsplit
    obtain ⟨more, e, he⟩ := hbegins
    rw [← hsplit] at he
    refine ⟨more, ?_, e, he⟩
    rintro rfl
    rw [String.append_empty, h] at he
    cases he
  · rintro ⟨more, -, e, he⟩
    refine Nat.le_antisymm ?_ (hgreatest text "" String.append_empty.symm ⟨more, e, he⟩)
    rw [hn, hparts, String.utf8ByteSize_append]
    exact Nat.le_add_right _ _

/-- The blank after the bar has three bytes, and no expression goes on with the letter behind it. The
other text ends too early. -/
theorem isGreatest_offset_of_open_group :
    let text := "(A |\u2003é"
    parse text = .error 7 ∧
      IsGreatest {m | ∃ front rest, text = front ++ rest ∧ Begins front ∧ m = front.utf8ByteSize} 7 ∧
      parse "(A |" = .error 4 ∧ ∃ rest, rest ≠ "" ∧ ∃ e, parse ("(A |" ++ rest) = .ok e :=
  have h : parse "(A |\u2003é" = .error 7 := rfl
  have hopen : parse "(A |" = .error 4 := rfl
  ⟨h, (isGreatest_offset h).2.1, hopen, (isGreatest_offset hopen).2.2.1 rfl⟩

end RamlTypes.Expr
