import RamlTypes.Number.Numeral
import RamlTypes.Toml.Basic

/-!
# TOML numbers

Integers in four bases within 64 bits, and floats. An underscore may stand between two digits.
-/

namespace RamlTypes.Toml.Number

/-- Digits with single underscores between them; the underscores are dropped. The first character
is known to be a digit or to make the number invalid. -/
def digits? (isDigit : Char → Bool) : List Char → Option (List Char × List Char)
  | [] => none
  | [c] => if isDigit c then some ([c], []) else none
  | c :: '_' :: rest =>
    if isDigit c then (digits? isDigit rest).map fun p => (c :: p.1, p.2) else none
  | c :: d :: rest =>
    if !isDigit c then none
    else if isDigit d then (digits? isDigit (d :: rest)).map fun p => (c :: p.1, p.2)
    else some ([c], d :: rest)

/-- An integer within 64 bits. -/
def bounded? (i : Int) : Option Toml :=
  if -9223372036854775808 ≤ i ∧ i ≤ 9223372036854775807 then some (.int i) else none

/-- An integer in a base whose mark is read. -/
def based? (base : Nat) (cs : List Char) : Option (Toml × List Char) := do
  let isDigit (c : Char) : Bool := (Numeral.digitValue? c).any (· < base)
  let (ds, rest) ← digits? isDigit cs
  return (← bounded? (← Numeral.natural? base ds), rest)

/-- The digits before a point, which start with no zero unless they are just one. -/
def whole? (cs : List Char) : Option (List Char × List Char) :=
  match cs with
  | '0' :: rest => some (['0'], rest)
  | _ => digits? Char.isDigit cs

/-- The exponent of a float, if there is one. -/
def exponent? (cs : List Char) : Option (List Char × List Char) :=
  match cs with
  | c :: rest =>
    if c = 'e' ∨ c = 'E' then do
      let (sign, rest) := match rest with
        | '+' :: rest => ([], rest)
        | '-' :: rest => (['-'], rest)
        | rest => ([], rest)
      let (ds, rest) ← digits? Char.isDigit rest
      return ('e' :: sign ++ ds, rest)
    else some ([], cs)
  | [] => some ([], [])

/-- The fraction of a float, if there is one. -/
def fraction? (cs : List Char) : Option (List Char × List Char) :=
  match cs with
  | '.' :: rest => (digits? Char.isDigit rest).map fun p => ('.' :: p.1, p.2)
  | _ => some ([], cs)

/-- A decimal integer or a float. A float that is too large for a double is refused, unless it is
negative. -/
def decimal? (negative : Bool) (cs : List Char) : Option (Toml × List Char) := do
  let sign := if negative then ['-'] else []
  let (whole, rest) ← whole? cs
  let (fraction, rest) ← fraction? rest
  let (exponent, rest) ← exponent? rest
  if fraction = [] ∧ exponent = [] then
    let n ← Numeral.natural? 10 whole
    return (← bounded? (if negative then -(n : Int) else n), rest)
  match ← Numeral.double? (String.ofList (sign ++ whole ++ fraction ++ exponent)) with
  | .infinite false => none
  | d => some (.float d, rest)

/-- Reads a number. -/
def read? (cs : List Char) : Option (Toml × List Char) :=
  let (signed, negative, unsigned) := match cs with
    | '+' :: rest => (true, false, rest)
    | '-' :: rest => (true, true, rest)
    | _ => (false, false, cs)
  match unsigned with
  | 'i' :: 'n' :: 'f' :: rest => some (.float (.infinite negative), rest)
  | 'n' :: 'a' :: 'n' :: rest => some (.float .nan, rest)
  | '0' :: 'x' :: rest => if signed then none else based? 16 rest
  | '0' :: 'o' :: rest => if signed then none else based? 8 rest
  | '0' :: 'b' :: rest => if signed then none else based? 2 rest
  | _ => decimal? negative unsigned

end RamlTypes.Toml.Number
