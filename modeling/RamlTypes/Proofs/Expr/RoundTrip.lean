import RamlTypes.Expr.Printer
import RamlTypes.Proofs.Expr.Grammar

/-!
# The text of an expression is read again

An expression that is read has a text that is read, too, and as the same expression but for groups of
alternatives among alternatives: these lose their parentheses, so they become alternatives of the
union around them (`Expr.parse_text_of_parse`). So an expression comes back from its text exactly when
no union is directly a member of a union, and what comes back is of this form. The same holds of every
tree whose names and unions some text can have (`Expr.parse_text_eq_flatten`).
-/

namespace RamlTypes.Expr

mutual

/-- A tree that some text may yield: names are names, and a union has several members. -/
def WellFormed : Expr → Prop
  | .builtin k => k ∈ Kind.builtins
  | .ref none n => IsName n.toList ∧ Kind.ofName? n = none
  | .ref (some l) n => IsName l.toList ∧ IsName n.toList
  | .array inner => inner.WellFormed
  | .optional inner => inner.WellFormed
  | .union members => 2 ≤ members.length ∧ AllWellFormed members

/-- All the expressions are well formed. -/
def AllWellFormed : List Expr → Prop
  | [] => True
  | e :: es => e.WellFormed ∧ AllWellFormed es

end

mutual

/-- No union is directly a member of a union. -/
def IsFlat : Expr → Prop
  | .builtin _ => True
  | .ref .. => True
  | .array inner => inner.IsFlat
  | .optional inner => inner.IsFlat
  | .union members => AllFlatOperands members

/-- All the expressions are flat, and none of them is a union. -/
def AllFlatOperands : List Expr → Prop
  | [] => True
  | e :: es => (e.isUnion = false ∧ e.IsFlat) ∧ AllFlatOperands es

end

/-- The members of a union. Another expression is its own only alternative. -/
def alternatives : Expr → List Expr
  | .union members => members
  | e => [e]

mutual

/-- The expression with each union that is a member of a union replaced by its members. -/
def flatten : Expr → Expr
  | .builtin k => .builtin k
  | .ref library name => .ref library name
  | .array inner => .array inner.flatten
  | .optional inner => .optional inner.flatten
  | .union members => .union (flattenMembers members)

/-- The alternatives of all the members, flattened. -/
def flattenMembers : List Expr → List Expr
  | [] => []
  | e :: es => e.flatten.alternatives ++ flattenMembers es

end

/-! ## Trees that some text may yield -/

/-- Well-formed lists, member by member. -/
theorem allWellFormed_iff {es : List Expr} : AllWellFormed es ↔ ∀ e ∈ es, e.WellFormed := by
  induction es with
  | nil => exact ⟨fun _ => List.forall_mem_nil _, fun _ => trivial⟩
  | cons e es ih => rw [AllWellFormed, List.forall_mem_cons, ih]

/-- What a name stands for is well formed. -/
theorem wellFormed_ofName {n : List Char} (h : IsName n) : (ofName (String.ofList n)).WellFormed := by
  rw [ofName]
  split
  · next k hk => exact (Kind.ofName?_eq_some_iff.1 hk).1
  · next hk => exact ⟨by rwa [String.toList_ofList], hk⟩

/-- Some well-formed members are a well-formed expression. -/
theorem wellFormed_ofMembers {es : List Expr} (hne : es ≠ []) (h : AllWellFormed es) :
    (ofMembers es).WellFormed := by
  unfold ofMembers
  split
  · exact h.1
  · next hone =>
    refine ⟨?_, h⟩
    match es, hne, hone with
    | [e], _, hone => exact absurd rfl (hone e)
    | _ :: _ :: _, _, _ => exact Nat.le_add_left 2 _

mutual

/-- What an operand denotes is well formed. -/
theorem Operand.wellFormed : ∀ {cs : List Char} {e : Expr}, Operand cs e → e.WellFormed
  | _, _, .name hn => wellFormed_ofName hn
  | _, _, .qualified hl hn =>
    ⟨by rwa [String.toList_ofList], by rwa [String.toList_ofList]⟩
  | _, _, .group _ hm _ => wellFormed_ofMembers hm.wellFormed.1 hm.wellFormed.2
  | _, _, .array hd => hd.wellFormed
  | _, _, .optional hd => hd.wellFormed

/-- Members of a text are well formed, and there are some. -/
theorem Members.wellFormed : ∀ {cs : List Char} {es : List Expr}, Members cs es →
    es ≠ [] ∧ AllWellFormed es
  | _, _, .one hd => ⟨List.cons_ne_nil _ _, hd.wellFormed, trivial⟩
  | _, _, .more hm _ _ hd => by
    refine ⟨List.append_ne_nil_of_right_ne_nil _ (List.cons_ne_nil _ _), ?_⟩
    rw [allWellFormed_iff, List.forall_mem_append, List.forall_mem_singleton, ← allWellFormed_iff]
    exact ⟨hm.wellFormed.2, hd.wellFormed⟩

end

/-- Only well-formed expressions are read. -/
theorem wellFormed_of_parse {text : String} {e : Expr} (h : parse text = .ok e) : e.WellFormed := by
  have hd := ((parse_iff_derives text).1 e).1 h
  generalize text.toList = cs at hd
  cases hd with
  | mk _ hm _ => exact wellFormed_ofMembers hm.wellFormed.1 hm.wellFormed.2

/-! ## Flat expressions -/

/-- Flattening makes no unions, and leaves none out. -/
theorem isUnion_flatten (e : Expr) : e.flatten.isUnion = e.isUnion := by
  cases e <;> rfl

/-- What is no union is its only alternative. -/
theorem alternatives_of_isUnion {e : Expr} (h : e.isUnion = false) : e.alternatives = [e] := by
  cases e with
  | union => cases h
  | builtin | ref | array | optional => rfl

/-- Flat operands can follow each other. -/
theorem allFlatOperands_append {es fs : List Expr} (he : AllFlatOperands es)
    (hf : AllFlatOperands fs) : AllFlatOperands (es ++ fs) := by
  induction es with
  | nil => exact hf
  | cons e es ih => exact ⟨he.1, ih he.2⟩

/-- The alternatives of a flat expression are operands. -/
theorem IsFlat.alternatives {e : Expr} (h : e.IsFlat) : AllFlatOperands e.alternatives := by
  cases e with
  | union => exact h
  | builtin | ref | array | optional => exact ⟨⟨rfl, h⟩, trivial⟩

mutual

/-- Flattening leaves no unions inside of unions. -/
theorem isFlat_flatten : ∀ e : Expr, e.flatten.IsFlat
  | .builtin _ => trivial
  | .ref .. => trivial
  | .array inner => isFlat_flatten inner
  | .optional inner => isFlat_flatten inner
  | .union members => allFlatOperands_flattenMembers members

/-- The flattened members of a union are no unions. -/
theorem allFlatOperands_flattenMembers : ∀ es : List Expr, AllFlatOperands (flattenMembers es)
  | [] => trivial
  | e :: es =>
    allFlatOperands_append (isFlat_flatten e).alternatives (allFlatOperands_flattenMembers es)

end

mutual

/-- There is nothing to flatten in a flat expression. -/
theorem IsFlat.flatten_eq : ∀ {e : Expr}, e.IsFlat → e.flatten = e
  | .builtin _, _ => rfl
  | .ref .., _ => rfl
  | .array _, h => congrArg Expr.array (IsFlat.flatten_eq h)
  | .optional _, h => congrArg Expr.optional (IsFlat.flatten_eq h)
  | .union _, h => congrArg Expr.union (flattenMembers_eq h)

/-- There is nothing to flatten in flat operands. -/
theorem flattenMembers_eq : ∀ {es : List Expr}, AllFlatOperands es → flattenMembers es = es
  | [], _ => rfl
  | e :: es, h => by
    rw [flattenMembers, h.1.2.flatten_eq, alternatives_of_isUnion h.1.1, flattenMembers_eq h.2]
    rfl

end

/-- Flattening changes exactly the expressions with a union that is directly a member of a union. -/
theorem flatten_eq_self_iff {e : Expr} : e.flatten = e ↔ e.IsFlat :=
  ⟨fun h => h ▸ isFlat_flatten e, IsFlat.flatten_eq⟩

mutual

/-- A well-formed union has two alternatives at least, also when it is flattened. -/
theorem length_alternatives_flatten : ∀ {e : Expr}, e.WellFormed →
    (if e.isUnion then 2 else 1) ≤ e.flatten.alternatives.length
  | .builtin _, _ => Nat.le_refl 1
  | .ref .., _ => Nat.le_refl 1
  | .array _, _ => Nat.le_refl 1
  | .optional _, _ => Nat.le_refl 1
  | .union _, h => Nat.le_trans h.1 (length_le_flattenMembers h.2)

/-- Flattening makes no list of members shorter. -/
theorem length_le_flattenMembers : ∀ {es : List Expr}, AllWellFormed es →
    es.length ≤ (flattenMembers es).length
  | [], _ => Nat.le_refl 0
  | e :: es, h => by
    have hfirst := length_alternatives_flatten h.1
    have hrest := length_le_flattenMembers h.2
    rw [flattenMembers, List.length_append, List.length_cons]
    split at hfirst <;> omega

end

/-- The alternatives of a well-formed expression form the expression. -/
theorem ofMembers_alternatives {e : Expr} (h : e.WellFormed) :
    ofMembers e.flatten.alternatives = e.flatten := by
  have hlength := length_alternatives_flatten h
  cases e with
  | builtin | ref | array | optional => rfl
  | union members =>
    rw [flatten, alternatives]
    rw [if_pos (by rfl), flatten, alternatives] at hlength
    unfold ofMembers
    split
    · next hone =>
      rw [hone] at hlength
      cases hlength with
      | step h => cases h
    · rfl

/-! ## The grammar derives the flat expression from the text -/

/-- Alternatives may follow alternatives after a bar. -/
theorem Members.append {cs w v : List Char} {es : List Expr} (h : Members cs es) (hw : Blank w)
    (hv : Blank v) : ∀ {ds : List Char} {fs : List Expr}, Members ds fs →
      Members (cs ++ w ++ '|' :: v ++ ds) (es ++ fs)
  | _, _, .one hd => .more h hw hv hd
  | _, _, .more hm hx hy hd => by
    have := Members.more (Members.append h hw hv hm) hx hy hd
    rw [List.append_assoc] at this
    simpa using this

/-- A single alternative is an operand. -/
theorem Members.operand {cs : List Char} {e : Expr} (h : Members cs [e]) : Operand cs e := by
  generalize hes : [e] = es at h
  cases h with
  | one hd =>
    cases hes
    exact hd
  | more hm _ _ _ =>
    cases List.append_eq_singleton_iff.1 hes.symm with
    | inl h => exact absurd h.1 hm.wellFormed.1
    | inr h => cases h.2

/-- An expression is an operand when it is put in parentheses if it is a union. -/
theorem operand_grouped {e : Expr} (h : e.WellFormed)
    (hm : Members e.text.toList e.flatten.alternatives) :
    Operand (grouped e e.text).toList e.flatten := by
  rw [grouped]
  split
  · have := Operand.group blank_nil hm blank_nil
    rw [ofMembers_alternatives h] at this
    simpa using this
  · next hu =>
    rw [alternatives_of_isUnion (by simpa [isUnion_flatten] using hu)] at hm
    exact hm.operand

/-- The name of a kind is an operand that denotes it. -/
theorem operand_builtin {k : Kind} (h : k ∈ Kind.builtins) : Operand k.name.toList (.builtin k) := by
  have hname : IsName k.name.toList := by
    cases k <;> exact ⟨by decide, List.all_eq_true.1 (by decide)⟩
  have := Operand.name hname
  rwa [String.ofList_toList, ofName, Kind.ofName?_eq_some_iff.2 ⟨h, rfl⟩] at this

/-- A reference is printed as an operand that denotes it. -/
theorem operand_ref : ∀ {library : Option String} {name : String},
    (Expr.ref library name).WellFormed →
      Operand (Expr.ref library name).text.toList (.ref library name)
  | none, name, h => by
    have := Operand.name h.1
    rwa [String.ofList_toList, ofName, h.2] at this
  | some library, name, h => by
    have := Operand.qualified h.1 h.2
    rw [String.ofList_toList, String.ofList_toList] at this
    simpa [text] using this

mutual

/-- The text of an expression is that of its alternatives in the flat form. -/
theorem members_text : ∀ {e : Expr}, e.WellFormed → Members e.text.toList e.flatten.alternatives
  | .builtin _, h => .one (operand_builtin h)
  | .ref .., h => .one (operand_ref h)
  | .array inner, h => by
    refine .one ?_
    rw [text, String.toList_append]
    exact .array (operand_grouped h (members_text (e := inner) h))
  | .optional inner, h => by
    refine .one ?_
    rw [text, String.toList_append]
    exact .optional (operand_grouped h (members_text (e := inner) h))
  | .union es, h => by
    rw [text]
    exact members_texts (fun hnil => by rw [hnil] at h; cases h.1) h.2

/-- Members are printed as members that denote their alternatives. -/
theorem members_texts : ∀ {es : List Expr}, es ≠ [] → AllWellFormed es →
    Members (" | ".intercalate (texts es)).toList (flattenMembers es)
  | [], hne, _ => absurd rfl hne
  | [e], _, h => by
    rw [flattenMembers, flattenMembers, List.append_nil]
    exact members_text h.1
  | e :: f :: es, _, h => by
    have hblank : Blank [' '] := blank_singleton rfl
    have := (members_text h.1).append hblank hblank (members_texts (List.cons_ne_nil f es) h.2)
    rw [texts] at this
    rw [texts, texts, String.intercalate_cons_cons]
    simpa [flattenMembers] using this

end

/-- The text of an expression that is read is read as the flat form of the expression. So it is read
as the expression itself exactly when no union is directly a member of a union, and what is read from
the text is of this form. -/
theorem parse_text_of_parse {text : String} {e : Expr} (h : parse text = .ok e) :
    parse e.text = .ok e.flatten ∧ (parse e.text = .ok e ↔ e.IsFlat) ∧ e.flatten.IsFlat := by
  have hwell := wellFormed_of_parse h
  have hflat : parse e.text = .ok e.flatten := by
    have := Derives.mk blank_nil (members_text hwell) blank_nil
    rw [ofMembers_alternatives hwell, List.nil_append, List.append_nil] at this
    exact parse_of_derives this
  refine ⟨hflat, ?_, isFlat_flatten e⟩
  rw [hflat, Except.ok.injEq, flatten_eq_self_iff]

/-- A group of alternatives among alternatives loses its parentheses. -/
theorem parse_text_of_nested_union :
    parse "(A | B) | C" =
        .ok (.union [.union [.ref none "A", .ref none "B"], .ref none "C"]) ∧
      parse "A | B | C" = .ok (.union [.ref none "A", .ref none "B", .ref none "C"]) :=
  have h : parse "(A | B) | C" = .ok (.union [.union [.ref none "A", .ref none "B"], .ref none "C"]) :=
    rfl
  ⟨h, (parse_text_of_parse h).1⟩

/-- The text of an expression derives the flat form of the expression. -/
theorem derives_text {e : Expr} (h : e.WellFormed) : Derives e.text.toList e.flatten := by
  have := Derives.mk blank_nil (members_text h) blank_nil
  rwa [ofMembers_alternatives h, List.nil_append, List.append_nil] at this

/-- Whatever the expression is, as long as its names are names, its text is read as its flat form: the
members of a union that is a member of a union become members of the outer one. Under a postfix
operator nothing else changes, and nothing changes at all exactly when no union is directly a member of
a union. -/
theorem parse_text_eq_flatten {e : Expr} (h : e.WellFormed) :
    parse e.text = .ok e.flatten ∧
      parse (Expr.array e).text = .ok (.array e.flatten) ∧
      parse (Expr.optional e).text = .ok (.optional e.flatten) ∧
      (parse e.text = .ok e ↔ e.IsFlat) := by
  have hflat : parse e.text = .ok e.flatten := parse_of_derives (derives_text h)
  have harray : (Expr.array e).WellFormed := h
  have hoptional : (Expr.optional e).WellFormed := h
  refine ⟨hflat, parse_of_derives (derives_text harray), parse_of_derives (derives_text hoptional), ?_⟩
  rw [hflat, Except.ok.injEq, flatten_eq_self_iff]

/-- Two unions of the example are members of a union. The third one stands under an operator, which
keeps it apart. -/
theorem parse_text_eq_flatten_of_nested_unions :
    let e : Expr := .union [.union [.ref none "A", .union [.builtin .string, .ref (some "l") "B"]],
      .array (.union [.ref none "A", .builtin .nil])]
    e.WellFormed ∧ e.text = "A | string | l.B | (A | nil)[]" ∧
      parse e.text = .ok (.union [.ref none "A", .builtin .string, .ref (some "l") "B",
        .array (.union [.ref none "A", .builtin .nil])]) ∧
      ¬ e.IsFlat := by
  intro e
  have hparse : parse "(A | (string | l.B)) | (A | nil)[]" = .ok e := rfl
  have hwell : e.WellFormed := wellFormed_of_parse hparse
  refine ⟨hwell, rfl, (parse_text_eq_flatten hwell).1, fun hflat => ?_⟩
  cases hflat.1.1

end RamlTypes.Expr
