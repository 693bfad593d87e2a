/-!
# Double precision numbers

`Binary64` is the value set of IEEE 754 double precision, with all arithmetic in `Nat`. A rational
number is rounded to the nearest double, ties to the even significand (`Binary64.ofRatio`).
-/

namespace RamlTypes

/-- A double precision number. A finite one is `significand * 2 ^ exponent` with a significand below
`2 ^ 53` and an exponent of at least `-1074`, as small as that allows. -/
inductive Binary64 where
  | finite ( negative : Bool) (significand : Nat) (exponent : Int)
  | infinite ( negative : Bool)
  | nan
  deriving DecidableEq, Repr

namespace Binary64

/-- The least exponent. -/
def minExponent : Int := -1074

/-- The greatest exponent. -/
def maxExponent : Int := 971

/-- The number of significant bits. -/
def precision : Nat := 53

/-- The number of binary digits of a natural number. -/
def bitLength (n : Nat) : Nat :=
  if n = 0 then 0 else n.log2 + 1

/-- `num / den` rounded to the nearest integer, a half to the even neighbour. -/
def roundHalfEven (num den : Nat) : Nat :=
  let q := num / den
  let twice := 2 * (num % den)
  if twice < den then q
  else if twice = den then q + q % 2
  else q + 1

/-- The fraction `num / den` divided by `2 ^ e`. -/
def scale (num den : Nat) (e : Int) : Nat × Nat :=
  if e ≥ 0 then (num, den * Nat.pow 2 e.toNat) else (num * Nat.pow 2 (-e).toNat, den)

/-- The double with a given significand, which may have one bit too many, and exponent. -/
def pack (negative : Bool) (m : Nat) (e : Int) : Binary64 :=
  let (m, e) := if m = Nat.pow 2 precision then (Nat.pow 2 (precision - 1), e + 1) else (m, e)
  if e > maxExponent then .infinite negative else .finite negative m e

/-- The double nearest to `num / den`. -/
def ofRatio (negative : Bool) (num den : Nat) : Binary64 :=
  if num = 0 then .finite negative 0 minExponent
  else
    let guess : Int := max ((bitLength num : Int) - bitLength den - precision) minExponent
    let (n, d) := scale num den guess
    if n / d < Nat.pow 2 precision then pack negative (roundHalfEven n d) guess
    else
      let (n, d) := scale num den (guess + 1)
      pack negative (roundHalfEven n d) (guess + 1)

/-- The number of decimal digits of a natural number. -/
def decimalLength (n : Nat) : Nat :=
  (Nat.toDigits 10 n).length

/-- The double nearest to `digits * 10 ^ exponent`. Numbers far outside the range are decided from
their order of magnitude. -/
def ofDecimal (negative : Bool) (digits : Nat) (exponent : Int) : Binary64 :=
  let magnitude := exponent + decimalLength digits
  if digits = 0 ∨ magnitude < -330 then .finite negative 0 minExponent
  else if magnitude > 320 then .infinite negative
  else if exponent ≥ 0 then ofRatio negative (digits * Nat.pow 10 exponent.toNat) 1
  else ofRatio negative digits (Nat.pow 10 (-exponent).toNat)

/-- Whether a number is neither infinite nor a NaN. -/
def isFinite : Binary64 → Bool
  | .finite .. => true
  | _ => false

end Binary64

end RamlTypes
