import RamlTypes.Number.Binary64

/-!
# The shortest decimal of a double

`Binary64.shortest` chooses, among the decimals that round to a given double, one with the fewest
digits, and of those the nearest. All comparisons are exact. A `Layout` turns the digits into text.
-/

namespace RamlTypes

namespace Binary64

/-- A decimal number `digits * 10 ^ exponent`. -/
structure Decimal where
  digits : Nat
  exponent : Int
  deriving DecidableEq, Repr

/-- The reals that round to a double, as numerators over one common denominator. -/
structure Interval where
  low : Nat
  value : Nat
  high : Nat
  denominator : Nat
  /-- Whether the end points belong to the interval. -/
  closed : Bool
  deriving Repr

/-- The rounding interval of a finite double. Below a power of two the gap is half as wide. -/
def interval (m : Nat) (e : Int) : Interval :=
  let below := if m = Nat.pow 2 (precision - 1) ∧ e > minExponent then 1 else 2
  let up := Nat.pow 2 (e - 2).toNat
  ⟨(4 * m - below) * up, 4 * m * up, (4 * m + 2) * up, Nat.pow 2 (2 - e).toNat, m % 2 == 0⟩

/-- Whether `digits * 10 ^ exponent` lies in an interval. -/
def Interval.contains (i : Interval) (d : Decimal) : Bool :=
  let (num, den) :=
    if d.exponent ≥ 0 then (d.digits * Nat.pow 10 d.exponent.toNat, 1)
    else (d.digits, Nat.pow 10 (-d.exponent).toNat)
  let x := num * i.denominator
  if i.closed then i.low * den ≤ x && x ≤ i.high * den else i.low * den < x && x < i.high * den

/-- The floor of the interval's value on the grid of multiples of `10 ^ exponent`, and whether the
value is nearer to the next multiple. A value half way counts as nearer to an odd floor's
neighbour. -/
def Interval.onGrid (i : Interval) (exponent : Int) : Nat × Bool :=
  let (num, den) :=
    if exponent ≥ 0 then (i.value, i.denominator * Nat.pow 10 exponent.toNat)
    else (i.value * Nat.pow 10 (-exponent).toNat, i.denominator)
  let q := num / den
  let twice := 2 * (num % den)
  (q, den < twice || (den = twice && q % 2 == 1))

/-- The best decimal on one grid. -/
def Interval.candidate? (i : Interval) (exponent : Int) : Option Decimal :=
  let (q, up) := i.onGrid exponent
  let near : Decimal := ⟨if up then q + 1 else q, exponent⟩
  let far : Decimal := ⟨if up then q else q + 1, exponent⟩
  if i.contains near then some near
  else if i.contains far then some far
  else none

/-- The first hit on grids of growing fineness. -/
def Interval.search (i : Interval) (exponent : Int) : Nat → Option Decimal
  | 0 => none
  | n + 1 =>
    match i.candidate? exponent with
    | some d => some d
    | none => i.search (exponent - 1) n

/-- Moves trailing zeros of the digits into the exponent. -/
def Decimal.strip (d : Decimal) : Nat → Decimal
  | 0 => d
  | n + 1 => if d.digits ≠ 0 ∧ d.digits % 10 = 0 then
      Decimal.strip ⟨d.digits / 10, d.exponent + 1⟩ n
    else d

/-- The shortest decimal that rounds to the finite double `m * 2 ^ e`. -/
def shortest (m : Nat) (e : Int) : Decimal :=
  if m = 0 then ⟨0, 0⟩
  else
    let i := interval m e
    let whole := i.value / i.denominator
    let start : Int :=
      if whole > 0 then decimalLength whole
      else -((decimalLength (i.denominator / i.value) : Int) - 1)
    match i.search start 20 with
    | some d => d.strip 20
    | none => ⟨0, 0⟩

end Binary64

/-- How the digits of a double are laid out. The scientific exponent is the place of the first
digit; positional notation covers those from `least` up to `most`. -/
structure Layout where
  least : Int
  most : Int
  /-- What a whole number has after its digits. -/
  whole : String
  deriving Repr

namespace Layout

/-- The layout of numbers in JSON text: positional from `1e-5` up to below `1e16`. -/
def json : Layout := ⟨-5, 15, ".0"⟩

/-- The layout of numbers in diagnostic text: positional from `1e-4` up to below `1e16`. -/
def debug : Layout := ⟨-4, 15, ".0"⟩

/-- The layout of numbers in settings: always positional, without a point in whole numbers. -/
def plain : Layout := ⟨-400, 400, ""⟩

/-- A text of `n` zeros. -/
def zeros (n : Nat) : String :=
  String.ofList (List.replicate n '0')

/-- The digits of a decimal, with a point or with an exponent. -/
def decimalText (l : Layout) (d : Binary64.Decimal) : String :=
  let ds := Nat.toDigits 10 d.digits
  let point : Int := ds.length + d.exponent
  if d.digits = 0 then "0" ++ l.whole
  else if point - 1 < l.least ∨ point - 1 > l.most then
    let fraction := ds.drop 1
    let mantissa := if fraction = [] then ds else ds.take 1 ++ '.' :: fraction
    String.ofList mantissa ++ "e" ++ toString (point - 1)
  else if point ≤ 0 then "0." ++ zeros (-point).toNat ++ String.ofList ds
  else if d.exponent ≥ 0 then String.ofList ds ++ zeros d.exponent.toNat ++ l.whole
  else
    String.ofList (ds.take point.toNat) ++ "." ++ String.ofList (ds.drop point.toNat)

/-- The text of a double. -/
def text (l : Layout) : Binary64 → String
  | .finite negative m e => (if negative then "-" else "") ++ l.decimalText (Binary64.shortest m e)
  | .infinite negative => if negative then "-inf" else "inf"
  | .nan => "NaN"

end Layout

end RamlTypes
