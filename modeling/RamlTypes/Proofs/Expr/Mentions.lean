import RamlTypes.Proofs.Expr.Grammar
import RamlTypes.Text.Blank

/-!
# The names in an expression

`Expr.Mentions` says that a name occurs in an expression, under any operators. The name of a built-in
kind mentions nothing, and neither do the texts of lists of parents and of JSON schemas, which are no
expressions.
-/

namespace RamlTypes

/-- The name occurs in the expression. -/
inductive Expr.Mentions (library : Option String) (name : String) : Expr → Prop
  | ref : Mentions library name (.ref library name)
  | array {inner : Expr} (inside : Mentions library name inner) : Mentions library name (.array inner)
  | optional {inner : Expr} (inside : Mentions library name inner) :
      Mentions library name (.optional inner)
  | union {members : List Expr} {e : Expr} (mem : e ∈ members) (inside : Mentions library name e) :
      Mentions library name (.union members)

namespace Expr

variable {library : Option String} {name : String} {e : Expr} {es : List Expr}

/-- An array mentions what its items mention. -/
theorem mentions_array_iff : (array e).Mentions library name ↔ e.Mentions library name :=
  ⟨fun h => by cases h; assumption, .array⟩

/-- An optional type mentions what its operand mentions. -/
theorem mentions_optional_iff : (optional e).Mentions library name ↔ e.Mentions library name :=
  ⟨fun h => by cases h; assumption, .optional⟩

/-- A built-in type mentions no name. -/
theorem not_mentions_builtin {k : Kind} : ¬ (builtin k).Mentions library name := nofun

/-- A reference mentions itself. -/
theorem mentions_ref_iff {library' : Option String} {name' : String} :
    (ref library' name').Mentions library name ↔ library = library' ∧ name = name' := by
  constructor
  · rintro ⟨⟩
    exact ⟨rfl, rfl⟩
  · rintro ⟨rfl, rfl⟩
    exact .ref

/-- A union mentions what its members mention. -/
theorem mentions_union_iff :
    (union es).Mentions library name ↔ ∃ e ∈ es, e.Mentions library name := by
  constructor
  · rintro (_ | _ | _ | ⟨hmem, hinside⟩)
    exact ⟨_, hmem, hinside⟩
  · rintro ⟨e, hmem, hinside⟩
    exact .union hmem hinside

/-- The name of a built-in kind is an expression, for this kind. -/
theorem parse_name {k : Kind} (hk : k ∈ Kind.builtins) : parse k.name = .ok (.builtin k) := by
  have hname : IsName k.name.toList := by
    cases k <;> exact ⟨List.cons_ne_nil _ _, List.all_eq_true.1 rfl⟩
  have hderives : Derives k.name.toList (ofName k.name) := by
    have hmembers : Members k.name.toList [ofName (String.ofList k.name.toList)] := .one (.name hname)
    have hmk := Derives.mk blank_nil hmembers blank_nil
    rwa [List.nil_append, List.append_nil, String.ofList_toList] at hmk
  rw [parse_of_derives hderives, ofName, Kind.ofName?_eq_some_iff.2 ⟨hk, rfl⟩]

/-- A text whose first character begins no operand is no expression. -/
theorem parse_ne_ok {text : String} {c : Char} {rest : List Char} (ht : text.toList = c :: rest)
    (hc : Reader.start.step c = none) (e : Expr) : parse text ≠ .ok e := by
  rw [parse, ht, Reader.run, hc]
  intro h
  cases h

/-- A JSON schema is no expression. -/
theorem parse_ne_ok_of_brace {text : String} (h : Text.startsWith "\x7b" text) (e : Expr) :
    parse text ≠ .ok e := by
  obtain ⟨rest, hrest⟩ := Text.startsWith_iff.1 h
  exact parse_ne_ok hrest.symm rfl e

/-- A list of parents is no expression. -/
theorem parse_ne_ok_of_bracket (parents : String) (e : Expr) :
    parse ("[" ++ parents ++ "]") ≠ .ok e := by
  have htext : ("[" ++ parents ++ "]").toList = '[' :: (parents.toList ++ [']']) := by
    rw [String.toList_append, String.toList_append]
    rfl
  exact parse_ne_ok htext rfl e

end Expr

end RamlTypes
