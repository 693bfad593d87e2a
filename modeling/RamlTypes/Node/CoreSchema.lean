import RamlTypes.Node.Basic
import RamlTypes.Text.Blank

/-!
# The types of plain scalars

`ScalarType.ofPlain` gives the type and the stored text of a scalar without quotes, after the core
schema of YAML 1.2. The stored text of an integer is a decimal numeral.
-/

namespace RamlTypes

namespace ScalarType

/-- The spellings with a fixed meaning, and the texts that are stored for them. -/
def special? (text : String) : Option (String × ScalarType) :=
  match text with
  | "" | "~" | "null" | "Null" | "NULL" => some ("", .null)
  | "true" | "True" | "TRUE" => some ("true", .bool)
  | "false" | "False" | "FALSE" => some ("false", .bool)
  | ".inf" | ".Inf" | ".INF" | "+.inf" | "+.Inf" | "+.INF" => some ("inf", .float)
  | "-.inf" | "-.Inf" | "-.INF" => some ("-inf", .float)
  | ".nan" | ".NaN" | ".NAN" => some ("NaN", .float)
  | _ => none

/-- The base of a numeral that starts with `0x` or `0o`, and what follows. -/
def based? : List Char → Option (Nat × List Char)
  | '0' :: 'x' :: rest => some (16, rest)
  | '0' :: 'o' :: rest => some (8, rest)
  | _ => none

/-- A numeral without its sign. -/
def unsignedPart : List Char → List Char
  | '-' :: rest | '+' :: rest => rest
  | cs => cs

/-- Whether a text is decimal digits with an optional sign. -/
def isInteger (cs : List Char) : Bool :=
  let digits := unsignedPart cs
  !digits.isEmpty && digits.all Char.isDigit

/-- A text without a plus sign at its start. -/
def withoutPlus : List Char → List Char
  | '+' :: rest => rest
  | cs => cs

/-- The characters of decimal numbers. -/
def isNumberChar (c : Char) : Bool :=
  c.isDigit || c = '.' || c = 'e' || c = 'E' || c = '+' || c = '-'

/-- Whether a text is a decimal number, possibly with a fraction and an exponent. -/
def isNumber (cs : List Char) : Bool :=
  let unsigned := unsignedPart cs
  (unsigned.head?.any fun c => c.isDigit || c = '.')
    && unsigned.any Char.isDigit && unsigned.all isNumberChar && (Numeral.parts? cs).isSome

/-- The type of a plain scalar and the text that is stored for it. A numeral in another base than
ten counts only if its value fits into 64 bits. -/
def ofPlain (text : String) : String × ScalarType :=
  match special? text with
  | some found => found
  | none =>
    let cs := text.toList
    match based? cs with
    | some (base, digits) =>
      match (Numeral.unsigned? base digits).filter (· < Node.wordLimit) with
      | some n => (toString n, .int)
      | none => (text, .string)
    | none =>
      if isInteger cs then (String.ofList (withoutPlus cs), .int)
      else if isNumber cs then (text, .float)
      else (text, .string)

end ScalarType

end RamlTypes
