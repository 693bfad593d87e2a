import RamlTypes.Number.Binary64

/-!
# TOML values

The values that a TOML document holds. Tables keep their entries in the order of the document.
-/

namespace RamlTypes

/-- A value of a TOML document. -/
inductive Toml where
  | bool (b : Bool)
  | int (i : Int)
  | float (d : Binary64)
  | text (s : String)
  /-- A date, a time of day or both, in the standard spelling. -/
  | moment (s : String)
  | array (items : List Toml)
  | table (entries : List (String × Toml))

end RamlTypes
