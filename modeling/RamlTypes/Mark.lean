/-!
# Positions in a text
-/

namespace RamlTypes

/-- A line and a column, both counted from one; `0:0` when nothing is known. -/
structure Mark where
  line : Nat
  column : Nat
  deriving DecidableEq, Repr

namespace Mark

/-- The mark of something that was not read from a text. -/
def unknown : Mark := ⟨0, 0⟩

instance : Inhabited Mark := ⟨unknown⟩

def isKnown (m : Mark) : Bool :=
  0 < m.line

def text (m : Mark) : String :=
  toString m.line ++ ":" ++ toString m.column

end Mark

end RamlTypes
