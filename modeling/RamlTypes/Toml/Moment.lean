import RamlTypes.Number.Numeral

/-!
# TOML dates and times

Reading a date, a time of day, or a date with a time and perhaps an offset. The result is the
standard spelling: `T` between date and time, `Z` for no offset, and a fraction of a second with at
most nine digits and no zeros at its end.
-/

namespace RamlTypes.Toml.Moment

/-- Exactly `count` decimal digits as a number between two bounds. -/
def field? (count least most : Nat) (cs : List Char) : Option (Nat × List Char) := do
  let digits := cs.take count
  if digits.length < count || !digits.all Char.isDigit then none
  let n ← Numeral.natural? 10 digits
  if least ≤ n ∧ n ≤ most then some (n, cs.drop count) else none

/-- What follows a character. -/
def after? (c : Char) : List Char → Option (List Char)
  | d :: rest => if d = c then some rest else none
  | [] => none

/-- A number in at least `width` digits. -/
def padded (width n : Nat) : String :=
  let ds := Nat.toDigits 10 n
  String.ofList (List.replicate (width - ds.length) '0' ++ ds)

/-- The count of days of a month. -/
def daysIn (year month : Nat) : Nat :=
  if month = 2 then
    if year % 4 = 0 ∧ (year % 100 ≠ 0 ∨ year % 400 = 0) then 29 else 28
  else if [4, 6, 9, 11].contains month then 30
  else 31

/-- A date. -/
def date? (cs : List Char) : Option (String × List Char) := do
  let (year, rest) ← field? 4 0 9999 cs
  let (month, rest) ← field? 2 1 12 (← after? '-' rest)
  let (day, rest) ← field? 2 1 (daysIn year month) (← after? '-' rest)
  return (padded 4 year ++ "-" ++ padded 2 month ++ "-" ++ padded 2 day, rest)

/-- The fraction of a second, with its point. Digits beyond the ninth are dropped. -/
def fraction? (cs : List Char) : Option (String × List Char) :=
  match cs with
  | '.' :: rest =>
    let (digits, rest) := Numeral.cutDigits rest
    let kept := ((digits.take 9).reverse.dropWhile (· = '0')).reverse
    if digits = [] then none
    else some (if kept = [] then "" else "." ++ String.ofList kept, rest)
  | _ => some ("", cs)

/-- A time of day. A minute may have a leap second. -/
def time? (cs : List Char) : Option (String × List Char) := do
  let (hour, rest) ← field? 2 0 23 cs
  let (minute, rest) ← field? 2 0 59 (← after? ':' rest)
  let (second, rest) ← field? 2 0 60 (← after? ':' rest)
  let (fraction, rest) ← fraction? rest
  return (padded 2 hour ++ ":" ++ padded 2 minute ++ ":" ++ padded 2 second ++ fraction, rest)

/-- An offset from universal time, which may be missing. -/
def offset? (cs : List Char) : Option (String × List Char) :=
  match cs with
  | 'Z' :: rest | 'z' :: rest => some ("Z", rest)
  | c :: rest =>
    if c = '+' ∨ c = '-' then do
      let (hour, rest) ← field? 2 0 23 rest
      let (minute, rest) ← field? 2 0 59 (← after? ':' rest)
      let sign := if c = '-' ∧ (hour, minute) ≠ (0, 0) then "-" else "+"
      return (sign ++ padded 2 hour ++ ":" ++ padded 2 minute, rest)
    else some ("", cs)
  | [] => some ("", [])

/-- Whether characters start like a time of day: two digits and a colon. -/
def startsTime : List Char → Bool
  | a :: b :: ':' :: _ => a.isDigit && b.isDigit
  | _ => false

/-- Whether characters start like a date: four digits and a hyphen. -/
def startsDate : List Char → Bool
  | a :: b :: c :: d :: '-' :: _ => [a, b, c, d].all Char.isDigit
  | _ => false

/-- Reads a date and what belongs to it, or a time of day. -/
def read? (cs : List Char) : Option (String × List Char) :=
  if startsDate cs then do
    let (date, rest) ← date? cs
    match rest with
    | d :: timed =>
      if (d = 'T' ∨ d = 't' ∨ d = ' ') ∧ startsTime timed then
        let (time, rest) ← time? timed
        let (offset, rest) ← offset? rest
        return (date ++ "T" ++ time ++ offset, rest)
      else return (date, rest)
    | [] => return (date, [])
  else time? cs

end RamlTypes.Toml.Moment
