import RamlTypes.Pattern.Atom

/-!
# Counted repetitions

The braces `{n}`, `{n,}` and `{n,m}` after a part. Blanks may stand around the numbers.
-/

namespace RamlTypes.Pattern

/-- How often a part is repeated: at least, and at most if there is a bound. -/
structure Count where
  least : Nat
  most : Option Nat

namespace Count

/-- Decimal digits, and what follows them. -/
def digits (m : Mode) (cs : List Char) : List Char × List Char :=
  match cs with
  | c :: rest =>
    if c.isDigit then (c :: (digits m (m.skip rest)).1, (digits m (m.skip rest)).2)
    else ([], cs)
  | [] => ([], cs)
termination_by cs.length
decreasing_by
  all_goals
    have := m.skip_length_le rest
    grind

/-- A number with blanks around it. -/
def number (m : Mode) (cs : List Char) : Except Flaw (Nat × List Char) := do
  let (ds, rest) := digits m (Text.dropBlank cs)
  if ds = [] then throw .missingCount
  let n := ds.foldl (fun n d => 10 * n + (d.toNat - '0'.toNat)) 0
  if 4294967295 < n then throw .hugeCount
  return (n, m.skip (Text.dropBlank rest))

/-- What follows a repetition. A question mark after it asks for the fewest repetitions. -/
def dropLazy : List Char → List Char
  | '?' :: rest => rest
  | rest => rest

/-- Reads a counted repetition after its opening brace. -/
def ofChars (m : Mode) (cs : List Char) : Except Flaw (Count × List Char) := do
  let (least, rest) ← number m (m.skip cs)
  let (most, rest) ← match rest with
    | ',' :: rest => match m.skip rest with
      | '}' :: rest => pure (none, '}' :: rest)
      | rest => do
        let (most, rest) ← number m rest
        pure (some most, rest)
    | rest => pure (some least, rest)
  let '}' :: rest := rest | throw .openCount
  if most.any (· < least) then throw .reversedCount
  return (⟨least, most⟩, dropLazy (m.skip rest))

end Count

end RamlTypes.Pattern
