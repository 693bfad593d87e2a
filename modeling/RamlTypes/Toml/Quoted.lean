import RamlTypes.Json.Printer

/-!
# Writing TOML texts

`Toml.quoted` writes a text in the plainest of the forms that can hold it: basic on one line if
nothing has to be escaped, else literal, and the forms over several lines for line feeds and for
texts with both kinds of quotes.
-/

namespace RamlTypes.Toml

/-- The length of the longest run of a character. -/
def longestRun (c : Char) (cs : List Char) : Nat :=
  (cs.foldl (fun (best, run) d => if d = c then (max best (run + 1), run + 1) else (best, 0))
    (0, 0)).1

/-- Whether a character needs an escape sequence in every form that has them. -/
def isControl (c : Char) : Bool :=
  c ≠ '\t' && c ≠ '\n' && (c.toNat < 0x20 || c.toNat = 0x7f)

/-- The spelling of a character in a basic text. -/
def escapeChar (c : Char) : List Char :=
  match [('\x08', 'b'), ('\t', 't'), ('\n', 'n'), ('\x0c', 'f'), ('\r', 'r'), ('"', '"'),
      ('\\', '\\')].lookup c with
  | some d => ['\\', d]
  | none =>
    if isControl c then
      ['\\', 'u', '0', '0', (Json.hexDigit (c.toNat / 16)).toUpper,
        (Json.hexDigit c.toNat).toUpper]
    else [c]

/-- The spelling of the characters of a basic text over several lines, where line feeds and up to
two quotes in a row stand for themselves. `run` counts the quotes just before. -/
def escapeLines : Nat → List Char → List Char
  | _, [] => []
  | run, c :: rest =>
    if c = '\n' then c :: escapeLines 0 rest
    else if c = '"' ∧ run < 2 then c :: escapeLines (run + 1) rest
    else escapeChar c ++ escapeLines 0 rest

/-- Writes a text. -/
def quoted (s : String) : String :=
  let cs := s.toList
  let singles := longestRun '\'' cs
  let doubles := longestRun '"' cs
  let hasControl := cs.any isControl
  let hasNewline := cs.contains '\n'
  let hasEscape := hasControl || cs.contains '\\'
  let basic := "\"" ++ String.ofList (cs.flatMap escapeChar) ++ "\""
  let opening := if hasNewline then "\n" else ""
  let lines := "\"\"\"" ++ opening ++ String.ofList (escapeLines 0 cs) ++ "\"\"\""
  if !hasEscape && doubles = 0 && !hasNewline then basic
  else if !hasControl && singles = 0 && !hasNewline then "'" ++ s ++ "'"
  else if !hasEscape && doubles ≤ 2 then lines
  else if !hasControl && singles ≤ 2 then "'''" ++ opening ++ s ++ "'''"
  else if hasNewline then lines
  else basic

/-- Writes a list of texts: two or more of them one per line. -/
def quotedList (xs : List String) : String :=
  match xs with
  | [] => "[]"
  | [x] => "[" ++ quoted x ++ "]"
  | xs => "[" ++ String.join (xs.map fun x => "\n    " ++ quoted x ++ ",") ++ "\n]"

end RamlTypes.Toml
