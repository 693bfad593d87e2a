import RamlTypes.Json.Basic
import RamlTypes.Number.Shortest

/-!
# JSON text

Two layouts of the same text: compact, and pretty with one entry per line and two spaces per level.
-/

namespace RamlTypes.Json

/-- A hexadecimal digit in lower case. -/
def hexDigit (n : Nat) : Char :=
  Nat.digitChar (n % 16)

/-- The spelling of a character inside quotes. Control characters without a short escape are
written with four hexadecimal digits; everything else but the quote and the backslash stays. -/
def escapeChar (c : Char) : List Char :=
  if c = '"' then ['\\', '"']
  else if c = '\\' then ['\\', '\\']
  else if c = '\n' then ['\\', 'n']
  else if c = '\r' then ['\\', 'r']
  else if c = '\t' then ['\\', 't']
  else if c = '\x08' then ['\\', 'b']
  else if c = '\x0c' then ['\\', 'f']
  else if c.toNat < 0x20 then ['\\', 'u', '0', '0', hexDigit (c.toNat / 16), hexDigit c.toNat]
  else [c]

/-- A text in quotes. -/
def quote (s : String) : String :=
  "\"" ++ String.ofList (s.toList.flatMap escapeChar) ++ "\""

mutual

/-- Compact text: no white space at all. -/
def compact : Json → String
  | .null => "null"
  | .bool b => if b then "true" else "false"
  | .int n => toString n
  | .double d => Layout.json.text d
  | .str s => quote s
  | .arr items => "[" ++ ",".intercalate (compactItems items) ++ "]"
  | .obj entries => "\x7b" ++ ",".intercalate (compactEntries entries) ++ "\x7d"

/-- The compact texts of a list of values. -/
def compactItems : List Json → List String
  | [] => []
  | x :: rest => compact x :: compactItems rest

/-- The compact texts of the entries of an object. -/
def compactEntries : List (String × Json) → List String
  | [] => []
  | (k, v) :: rest => (quote k ++ ":" ++ compact v) :: compactEntries rest

end

/-- Lines of a bracketed list, one item per line. -/
def block (opening closing : String) (indent : String) (items : List String) : String :=
  if items.isEmpty then opening ++ closing
  else
    opening ++ "\n" ++ ",\n".intercalate (items.map fun item => indent ++ "  " ++ item) ++ "\n" ++
      indent ++ closing

mutual

/-- Pretty text at a given indentation. -/
def prettyAt (indent : String) : Json → String
  | .arr items => block "[" "]" indent (prettyItems (indent ++ "  ") items)
  | .obj entries => block "\x7b" "\x7d" indent (prettyEntries (indent ++ "  ") entries)
  | j => j.compact

/-- The pretty texts of a list of values. -/
def prettyItems (indent : String) : List Json → List String
  | [] => []
  | x :: rest => prettyAt indent x :: prettyItems indent rest

/-- The pretty texts of the entries of an object. -/
def prettyEntries (indent : String) : List (String × Json) → List String
  | [] => []
  | (k, v) :: rest => (quote k ++ ": " ++ prettyAt indent v) :: prettyEntries indent rest

end

/-- Pretty text: two spaces per level. -/
def pretty (j : Json) : String :=
  prettyAt "" j

end RamlTypes.Json
