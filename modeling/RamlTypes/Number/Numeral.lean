import RamlTypes.Number.Binary64

/-!
# Reading numerals

Readers of unsigned digits in a base, of signed decimal integers and of decimal numbers with a
fraction and an exponent.
-/

namespace RamlTypes.Numeral

/-- The value of a digit, letters of either case counting from ten. -/
def digitValue? (c : Char) : Option Nat :=
  if c.isDigit then some (c.toNat - '0'.toNat)
  else if 'a' ≤ c ∧ c ≤ 'z' then some (c.toNat - 'a'.toNat + 10)
  else if 'A' ≤ c ∧ c ≤ 'Z' then some (c.toNat - 'A'.toNat + 10)
  else none

/-- The value of a list of digits that follows the digits read so far. -/
def readDigits? (base : Nat) : List Char → Nat → Option Nat
  | [], value => some value
  | c :: rest, value =>
    match digitValue? c with
    | some d => if d < base then readDigits? base rest (value * base + d) else none
    | none => none

/-- The value of a non-empty list of digits. -/
def natural? (base : Nat) (cs : List Char) : Option Nat :=
  if cs = [] then none else readDigits? base cs 0

/-- The value of a numeral with an optional plus sign. -/
def unsigned? (base : Nat) : List Char → Option Nat
  | '+' :: rest => natural? base rest
  | cs => natural? base cs

/-- The value of a decimal integer with an optional sign. -/
def integer? : List Char → Option Int
  | '-' :: rest => (natural? 10 rest).map fun n => -(n : Int)
  | cs => (unsigned? 10 cs).map fun n => (n : Int)

/-- The parts of a decimal number. -/
structure Parts where
  negative : Bool
  whole : List Char
  fraction : List Char
  /-- The exponent with its sign, when the number has one. -/
  exponent : Option (Bool × List Char)
  deriving DecidableEq, Repr

/-- A sign, if there is one, and the rest. -/
def cutSign : List Char → Bool × List Char
  | '-' :: rest => (true, rest)
  | '+' :: rest => (false, rest)
  | cs => (false, cs)

/-- The leading decimal digits and the rest. -/
def cutDigits (cs : List Char) : List Char × List Char :=
  (cs.takeWhile Char.isDigit, cs.dropWhile Char.isDigit)

/-- The exponent part `e±ddd`, which is all that may follow the mantissa. -/
def exponent? : List Char → Option (Option (Bool × List Char))
  | [] => some none
  | c :: rest =>
    if c = 'e' ∨ c = 'E' then
      let (negative, digits) := cutSign rest
      if digits ≠ [] ∧ digits.all Char.isDigit then some (some (negative, digits)) else none
    else none

/-- Reads `[sign] digits [. digits] [e [sign] digits]`, where one side of the point may be empty. -/
def parts? (cs : List Char) : Option Parts :=
  let (negative, unsigned) := cutSign cs
  let (whole, rest) := cutDigits unsigned
  let (fraction, rest) := match rest with
    | '.' :: more => cutDigits more
    | _ => ([], rest)
  if whole = [] ∧ fraction = [] then none
  else (exponent? rest).map fun e => ⟨negative, whole, fraction, e⟩

/-- The value of a list of decimal digits. -/
def decimalValue (cs : List Char) : Nat :=
  (readDigits? 10 cs 0).getD 0

/-- The double nearest to a decimal number. -/
def Parts.value (p : Parts) : Binary64 :=
  let shift : Int := match p.exponent with
    | some (true, ds) => -(decimalValue ds : Int)
    | some (false, ds) => decimalValue ds
    | none => 0
  Binary64.ofDecimal p.negative (decimalValue (p.whole ++ p.fraction)) (shift - p.fraction.length)

/-- The double that a text denotes: a decimal number, `inf` or `NaN`, these two with a sign if need
be. -/
def double? (s : String) : Option Binary64 :=
  match s with
  | "inf" | "+inf" => some (.infinite false)
  | "-inf" => some (.infinite true)
  | "NaN" => some .nan
  | _ => (parts? s.toList).map Parts.value

end RamlTypes.Numeral
