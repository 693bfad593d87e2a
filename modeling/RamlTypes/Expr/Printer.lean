import RamlTypes.Expr.Basic

/-!
# The text of a type expression

A union under a postfix operator stands in parentheses; nothing else does.
-/

namespace RamlTypes.Expr

/-- Whether an expression is a union. -/
def isUnion : Expr → Bool
  | .union _ => true
  | _ => false

/-- The text of an operand, given the text of the expression. -/
def grouped (e : Expr) (text : String) : String :=
  if e.isUnion then "(" ++ text ++ ")" else text

mutual

/-- The text of an expression. -/
def text : Expr → String
  | .builtin k => k.name
  | .ref (some library) name => library ++ "." ++ name
  | .ref none name => name
  | .array inner => grouped inner inner.text ++ "[]"
  | .optional inner => grouped inner inner.text ++ "?"
  | .union members => " | ".intercalate (texts members)

/-- The texts of the members of a union. -/
def texts : List Expr → List String
  | [] => []
  | e :: es => e.text :: texts es

end

end RamlTypes.Expr
