import RamlTypes.Number.Numeral
import RamlTypes.Text.Blank

/-!
# Is a text JSON?

`Json.isDocument` accepts exactly the texts of one JSON value between white space, with values
nested at most 127 deep, numbers within the range of doubles, and no surrogate that stands alone.
-/

namespace RamlTypes.Json

/-- White space between the parts of a document. -/
def isSpaceChar (c : Char) : Bool :=
  c = ' ' || c = '\n' || c = '\t' || c = '\r'

def dropSpace (cs : List Char) : List Char :=
  cs.dropWhile isSpaceChar

/-- The number of levels that collections may have. -/
def depthLimit : Nat := 127

/-- The value of four hexadecimal digits and the rest. -/
def fourHex? : List Char → Option (Nat × List Char)
  | a :: b :: c :: d :: rest => (Numeral.natural? 16 [a, b, c, d]).map fun n => (n, rest)
  | _ => none

/-- What follows the `\u` of an escape: one unit, or two that form a pair of surrogates. -/
def unicodeEscape? (cs : List Char) : Option (List Char) := do
  let (n, rest) ← fourHex? cs
  if 0xD800 ≤ n ∧ n < 0xDC00 then
    let (m, rest) ← Text.dropStart? ['\\', 'u'] rest >>= fourHex?
    if 0xDC00 ≤ m ∧ m < 0xE000 then some rest else none
  else if 0xDC00 ≤ n ∧ n < 0xE000 then none
  else some rest

/-- What follows a string whose opening quote is read. -/
def afterString? : Nat → List Char → Option (List Char)
  | 0, _ => none
  | n + 1, cs =>
    match cs with
    | [] => none
    | '"' :: rest => some rest
    | '\\' :: 'u' :: rest => unicodeEscape? rest >>= afterString? n
    | '\\' :: c :: rest => if c ∈ "\"\\/bfnrt".toList then afterString? n rest else none
    | c :: rest => if c.toNat < 0x20 then none else afterString? n rest

/-- The exponent of a number, which may be missing, and what follows. -/
def cutExponent? (cs : List Char) : Option (List Char × List Char) :=
  match cs with
  | c :: rest =>
    if c = 'e' ∨ c = 'E' then
      let signed := rest.headD ' '
      let (sign, rest) := if signed = '-' ∨ signed = '+' then ([signed], rest.tail) else ([], rest)
      let (digits, rest) := Numeral.cutDigits rest
      if digits = [] then none else some (c :: sign ++ digits, rest)
    else some ([], cs)
  | [] => some ([], [])

/-- What follows a number without a sign. -/
def afterNumber? (cs : List Char) : Option (List Char) := do
  let (whole, rest) := Numeral.cutDigits cs
  if whole = [] ∨ (whole.head? = some '0' ∧ whole.length ≠ 1) then none
  let (fraction, rest) ← match rest with
    | '.' :: more =>
      let (digits, rest) := Numeral.cutDigits more
      if digits = [] then none else some ('.' :: digits, rest)
    | _ => some ([], rest)
  let (exponent, rest) ← cutExponent? rest
  let value ← Numeral.parts? (whole ++ fraction ++ exponent)
  if value.value.isFinite then some rest else none

/-- What follows a value, and what follows the rest of a collection. -/
inductive Goal where
  | value (depth : Nat)
  /-- After `[` or after an item of an array. -/
  | items (depth : Nat) (first : Bool)
  /-- After an opening brace or after an entry of an object. -/
  | entries (depth : Nat) (first : Bool)

/-- What follows a part of a document. -/
def after? : Nat → Goal → List Char → Option (List Char)
  | 0, _, _ => none
  | n + 1, .value depth, cs =>
    match dropSpace cs with
    | '"' :: rest => afterString? (rest.length + 1) rest
    | '[' :: rest => if depth = 0 then none else after? n (.items (depth - 1) true) rest
    | '{' :: rest => if depth = 0 then none else after? n (.entries (depth - 1) true) rest
    | '-' :: rest => afterNumber? rest
    | 't' :: rest => Text.dropStart? ['r', 'u', 'e'] rest
    | 'f' :: rest => Text.dropStart? ['a', 'l', 's', 'e'] rest
    | 'n' :: rest => Text.dropStart? ['u', 'l', 'l'] rest
    | rest => afterNumber? rest
  | n + 1, .items depth first, cs =>
    match dropSpace cs with
    | ']' :: rest => some rest
    | ',' :: rest =>
      if first then none
      else after? n (.value depth) rest >>= after? n (.items depth false)
    | rest =>
      if first then after? n (.value depth) rest >>= after? n (.items depth false) else none
  | n + 1, .entries depth first, cs =>
    let entry (cs : List Char) : Option (List Char) := do
      match dropSpace cs with
      | '"' :: rest =>
        let rest ← afterString? (rest.length + 1) rest
        match dropSpace rest with
        | ':' :: rest => after? n (.value depth) rest >>= after? n (.entries depth false)
        | _ => none
      | _ => none
    match dropSpace cs with
    | '}' :: rest => some rest
    | ',' :: rest => if first then none else entry rest
    | rest => if first then entry rest else none

/-- Whether a text is a JSON document. -/
def isDocument (text : String) : Bool :=
  match after? (2 * text.length + 2) (.value depthLimit) text.toList with
  | some rest => (dropSpace rest).isEmpty
  | none => false

end RamlTypes.Json
