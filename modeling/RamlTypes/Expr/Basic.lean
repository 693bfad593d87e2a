import RamlTypes.Kind
import RamlTypes.Text.Blank

/-!
# Type expressions

The trees of compact type expressions such as `(string | lib.Person)[]`, the characters their
names are made of, and their grammar as an inductive relation between texts and trees
(`Expr.Derives`). Groups leave no node: they only decide what an operator applies to.
-/

namespace RamlTypes

inductive Expr where
  | builtin (kind : Kind)
  /-- `name`, or `library.name` for a type of an aliased library. -/
  | ref (library : Option String) (name : String)
  /-- `inner[]` -/
  | array (inner : Expr)
  /-- `inner?` -/
  | optional (inner : Expr)
  /-- Alternatives in source order. -/
  | union (members : List Expr)

namespace Expr

/-- The characters of names. -/
def isNameChar (c : Char) : Bool :=
  c.isAlphanum || c = '_' || c = '-'

/-- A single name: a built-in kind or else a type of the same file. -/
def ofName (n : String) : Expr :=
  match Kind.ofName? n with
  | some k => .builtin k
  | none => .ref none n

/-- Alternatives: one stands for itself, several form a union. -/
def ofMembers : List Expr → Expr
  | [e] => e
  | es => .union es

/-- Blank text. -/
def Blank (cs : List Char) : Prop :=
  ∀ c ∈ cs, Text.isBlank c

/-- The text of a name. -/
def IsName (cs : List Char) : Prop :=
  cs ≠ [] ∧ ∀ c ∈ cs, isNameChar c

mutual

/-- An operand: a name, a qualified name or a group, with its postfix operators. -/
inductive Operand : List Char → Expr → Prop where
  | name {n : List Char} : IsName n → Operand n (ofName (String.ofList n))
  | qualified {l n : List Char} : IsName l → IsName n →
      Operand (l ++ '.' :: n) (.ref (some (String.ofList l)) (String.ofList n))
  | group {w cs v : List Char} {es : List Expr} : Blank w → Members cs es → Blank v →
      Operand ('(' :: w ++ cs ++ v ++ [')']) (ofMembers es)
  | array {cs : List Char} {e : Expr} : Operand cs e → Operand (cs ++ ['[', ']']) (.array e)
  | optional {cs : List Char} {e : Expr} : Operand cs e → Operand (cs ++ ['?']) (.optional e)

/-- Operands separated by `|`, which may stand between blanks. -/
inductive Members : List Char → List Expr → Prop where
  | one {cs : List Char} {e : Expr} : Operand cs e → Members cs [e]
  | more {cs w v ds : List Char} {es : List Expr} {e : Expr} : Members cs es → Blank w → Blank v →
      Operand ds e → Members (cs ++ w ++ '|' :: v ++ ds) (es ++ [e])

end

/-- The grammar: a text derives a tree when it is alternatives between blanks. -/
inductive Derives : List Char → Expr → Prop where
  | mk {w cs v : List Char} {es : List Expr} : Blank w → Members cs es → Blank v →
      Derives (w ++ cs ++ v) (ofMembers es)

mutual

/-- Decides whether two trees are equal. -/
def beq : Expr → Expr → Bool
  | .builtin k, .builtin l => k == l
  | .ref l n, .ref l' n' => l == l' && n == n'
  | .array e, .array f => beq e f
  | .optional e, .optional f => beq e f
  | .union es, .union fs => beqMembers es fs
  | _, _ => false

/-- Decides whether two lists of trees are equal. -/
def beqMembers : List Expr → List Expr → Bool
  | [], [] => true
  | e :: es, f :: fs => beq e f && beqMembers es fs
  | _, _ => false

end

instance : BEq Expr := ⟨beq⟩

end Expr

end RamlTypes
