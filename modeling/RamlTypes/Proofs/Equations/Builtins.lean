import RamlTypes.Expr.Reader

/-!
# The built-in kinds in type expressions

What holds of names and passes on to compounds holds of every expression that is read
(`Expr.holds_of_parse`). In particular an expression names only the kinds that have a body of their
own, and neither the kind of a JSON schema nor that of an unresolved shape.
-/

namespace RamlTypes.Expr

variable {P : Expr → Prop}

/-- The property `P` holds of names, and of each compound of parts of which it holds. -/
structure Compounds (P : Expr → Prop) : Prop where
  name (n : String) : P (ofName n)
  qualified (l n : String) : P (.ref (some l) n)
  array {e : Expr} : P e → P (.array e)
  optional {e : Expr} : P e → P (.optional e)
  members {es : List Expr} : (∀ e ∈ es, P e) → P (ofMembers es)

namespace Reader

/-- The expression at the focus of a reader. -/
def Focus.expr? : Focus → Option Expr
  | .bracket e | .complete e | .gap e => some e
  | .operand | .name _ | .dot _ | .qualified .. => none

/-- All that the reader has read has the property `P`. -/
structure Holds (P : Expr → Prop) (r : Reader) : Prop where
  outer : ∀ es ∈ r.outer, ∀ e ∈ es, P e
  members : ∀ e ∈ r.members, P e
  focus : ∀ e ∈ Focus.expr? r.focus, P e

variable {r r' : Reader} {c : Char}

/-- What holds of all members and of one more operand. -/
theorem Holds.append {e : Expr} (h : r.Holds P) (he : P e) : ∀ f ∈ r.members ++ [e], P f := by
  intro f hf
  rcases List.mem_append.1 hf with hf | hf
  · exact h.members f hf
  · exact List.mem_singleton.1 hf ▸ he

/-- The focus may be exchanged for one of which it holds. -/
theorem Holds.withFocus (h : r.Holds P) {f : Focus} (hf : ∀ e ∈ Focus.expr? f, P e) :
    ({ r with focus := f } : Reader).Holds P :=
  ⟨h.outer, h.members, hf⟩

/-- One operand is all there is. -/
theorem holds_expr {e : Expr} (he : P e) : ∀ f ∈ some e, P f :=
  fun _ hf => Option.some.inj hf ▸ he

section
variable (hP : Compounds P)
include hP

/-- It holds after a gap behind an operand. -/
theorem Holds.afterGap (h : r.Holds P) {e : Expr} (he : P e) (hr : r.afterGap e c = some r') :
    r'.Holds P := by
  rw [Reader.afterGap] at hr
  split at hr
  · cases hr
    exact h.withFocus (holds_expr he)
  · split at hr
    · cases hr
      exact ⟨h.outer, h.append he, by rintro _ ⟨⟩⟩
    · split at hr
      · split at hr
        · next members outer ho =>
          cases hr
          have hall := h.outer
          rw [ho, List.forall_mem_cons] at hall
          exact ⟨hall.2, hall.1, holds_expr (hP.members (h.append he))⟩
        · cases hr
      · cases hr

/-- It holds after what follows an operand. -/
theorem Holds.afterOperand (h : r.Holds P) {e : Expr} (he : P e)
    (hr : r.afterOperand e c = some r') : r'.Holds P := by
  rw [Reader.afterOperand] at hr
  split at hr
  · cases hr
    exact h.withFocus (holds_expr he)
  · split at hr
    · cases hr
      exact h.withFocus (holds_expr (hP.optional he))
    · exact h.afterGap hP he hr

/-- A step of the reader keeps the property. -/
theorem Holds.step (h : r.Holds P) (hr : r.step c = some r') : r'.Holds P := by
  have nothing {f : Focus} (hf : Focus.expr? f = none) : ∀ e ∈ Focus.expr? f, P e := by
    rw [hf]
    rintro _ ⟨⟩
  have focus := h.focus
  rw [Reader.step] at hr
  split at hr
  · split at hr
    · cases hr
      exact h
    · split at hr
      · cases hr
        exact ⟨List.forall_mem_cons.2 ⟨h.members, h.outer⟩, List.forall_mem_nil _, nothing rfl⟩
      · split at hr
        · cases hr
          exact h.withFocus (nothing rfl)
        · cases hr
  · split at hr
    · cases hr
      exact h.withFocus (nothing rfl)
    · split at hr
      · cases hr
        exact h.withFocus (nothing rfl)
      · exact h.afterOperand hP (hP.name _) hr
  · split at hr
    · cases hr
      exact h.withFocus (nothing rfl)
    · cases hr
  · split at hr
    · cases hr
      exact h.withFocus (nothing rfl)
    · exact h.afterOperand hP (hP.qualified _ _) hr
  · next inner hf =>
    rw [hf] at focus
    split at hr
    · cases hr
      exact h.withFocus (holds_expr (hP.array (focus inner rfl)))
    · cases hr
  · next e hf =>
    rw [hf] at focus
    exact h.afterOperand hP (focus e rfl) hr
  · next e hf =>
    rw [hf] at focus
    exact h.afterGap hP (focus e rfl) hr

/-- It holds of the operand that the reader has at hand. -/
theorem Holds.operand (h : r.Holds P) {e : Expr} (he : r.operand? = some e) : P e := by
  have focus := h.focus
  rw [Reader.operand?] at he
  split at he
  · cases he
    exact hP.name _
  · cases he
    exact hP.qualified _ _
  · next hf =>
    rw [hf] at focus
    exact focus e he
  · next hf =>
    rw [hf] at focus
    exact focus e he
  all_goals cases he

/-- A run of the reader yields an expression with the property. -/
theorem Holds.run (cs : List Char) : ∀ {r : Reader} {offset : Nat} {e : Expr}, r.Holds P →
    r.run offset cs = .ok e → P e := by
  induction cs with
  | nil =>
    intro r offset e h he
    rw [Reader.run] at he
    split at he
    · next f hf =>
      cases he
      rw [Reader.finish?] at hf
      split at hf
      · next o _ ho =>
        cases hf
        exact hP.members (h.append (h.operand hP ho))
      · cases hf
    · cases he
  | cons c rest ih =>
    intro r offset e h he
    rw [Reader.run] at he
    split at he
    · next r' hr => exact ih (h.step hP hr) he
    · cases he

end

end Reader

/-- What holds of names and passes on to compounds holds of every expression that is read. -/
theorem holds_of_parse (hP : Compounds P) {text : String} {e : Expr} (h : parse text = .ok e) : P e :=
  have hstart : Reader.start.Holds P :=
    ⟨List.forall_mem_nil _, List.forall_mem_nil _, by rintro _ ⟨⟩⟩
  hstart.run hP text.toList h

mutual

/-- The kinds that occur in the expression are built-in. -/
def NamesBuiltins : Expr → Prop
  | .builtin k => k ∈ Kind.builtins
  | .ref .. => True
  | .array inner => inner.NamesBuiltins
  | .optional inner => inner.NamesBuiltins
  | .union members => AllNameBuiltins members

/-- The kinds that occur in the expressions are built-in. -/
def AllNameBuiltins : List Expr → Prop
  | [] => True
  | e :: rest => e.NamesBuiltins ∧ AllNameBuiltins rest

end

/-- A list of operands names the built-in types if each of them does. -/
theorem allNameBuiltins_of_forall {es : List Expr} (h : ∀ e ∈ es, e.NamesBuiltins) :
    AllNameBuiltins es := by
  induction es with
  | nil => exact trivial
  | cons e rest ih =>
    rw [List.forall_mem_cons] at h
    exact ⟨h.1, ih h.2⟩

/-- Operators name no types of their own. -/
theorem compounds_namesBuiltins : Compounds NamesBuiltins where
  name n := by
    rw [ofName]
    split
    · next k hk => exact (Kind.ofName?_eq_some_iff.1 hk).1
    · exact trivial
  qualified _ _ := trivial
  array h := h
  optional h := h
  members {es} h := by
    unfold ofMembers
    split
    · exact h _ List.mem_cons_self
    · exact allNameBuiltins_of_forall h

/-- The kinds that occur in an expression that is read are built-in. -/
theorem namesBuiltins_of_parse {text : String} {e : Expr} (h : parse text = .ok e) :
    e.NamesBuiltins :=
  holds_of_parse compounds_namesBuiltins h

end RamlTypes.Expr
