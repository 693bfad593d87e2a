/-!
# Blank characters, trimming and lines

`isBlank` is the Unicode property White_Space. Trimming removes blank characters at the ends of a
text, and `firstLine` and `lines` cut a text at its line feeds.
-/

namespace RamlTypes.Text

/-- The Unicode property White_Space. -/
def isBlank (c : Char) : Bool :=
  let n := c.toNat
  (9 ≤ n && n ≤ 13) || n == 0x20 || n == 0x85 || n == 0xA0 || n == 0x1680 ||
    (0x2000 ≤ n && n ≤ 0x200A) || n == 0x2028 || n == 0x2029 || n == 0x202F || n == 0x205F ||
    n == 0x3000

/-- Characters without the blank ones at the front. -/
def dropBlank (cs : List Char) : List Char :=
  cs.dropWhile isBlank

/-- Characters without the blank ones at the end. -/
def dropBlankEnd (cs : List Char) : List Char :=
  (cs.reverse.dropWhile isBlank).reverse

/-- Text without blank characters at either end. -/
def trim (s : String) : String :=
  String.ofList (dropBlankEnd (dropBlank s.toList))

/-- Splits at every occurrence of a separator, which belongs to no piece. A text with `n`
separators has `n + 1` pieces. -/
def splitAt (sep : Char) : List Char → List (List Char)
  | [] => [[]]
  | c :: rest =>
    if c = sep then [] :: splitAt sep rest
    else match splitAt sep rest with
      | [] => [[c]]
      | piece :: pieces => (c :: piece) :: pieces

/-- A line that ended with a line feed, without the carriage return before it. -/
def chompReturn (cs : List Char) : List Char :=
  match cs.reverse with
  | '\r' :: rest => rest.reverse
  | _ => cs

/-- The lines of a text. Each line feed ends a line; a carriage return directly before it belongs
to the line's end, and nothing after the last line feed is no line. -/
def lines (s : String) : List String :=
  let pieces := splitAt '\n' s.toList
  let ended := pieces.dropLast.map chompReturn
  let rest := pieces.getLastD []
  (if rest = [] then ended else ended ++ [rest]).map String.ofList

/-- The first line of a text without its trailing blank characters. -/
def firstLine (s : String) : String :=
  String.ofList (dropBlankEnd (s.toList.takeWhile (· ≠ '\n')))

/-- What follows `start` in a list that begins with it. -/
def dropStart? : List Char → List Char → Option (List Char)
  | [], cs => some cs
  | _ :: _, [] => none
  | s :: start, c :: cs => if s = c then dropStart? start cs else none

/-- Whether a text starts with another one. -/
def startsWith (start s : String) : Bool :=
  (dropStart? start.toList s.toList).isSome

/-- The text after a given start. -/
def afterStart? (start s : String) : Option String :=
  (dropStart? start.toList s.toList).map String.ofList

/-- The text before a given last character. -/
def beforeLast? (last : Char) (s : String) : Option String :=
  match s.toList.reverse with
  | c :: rest => if c = last then some (String.ofList rest.reverse) else none
  | [] => none

/-- The text before and after the first occurrence of a separator. -/
def cutAt? (sep : Char) (s : String) : Option (String × String) :=
  match s.toList.dropWhile (· ≠ sep) with
  | [] => none
  | _ :: rest => some (String.ofList (s.toList.takeWhile (· ≠ sep)), String.ofList rest)

/-- A list begins with `start` exactly when it is `start` followed by what `dropStart?` returns. -/
theorem dropStart?_eq_some_iff {start cs rest : List Char} :
    dropStart? start cs = some rest ↔ cs = start ++ rest := by
  induction start generalizing cs with
  | nil => simp [dropStart?]
  | cons s start ih =>
    cases cs with
    | nil => simp [dropStart?]
    | cons c cs => by_cases h : s = c <;> simp [dropStart?, h, ih, eq_comm]

/-- A text starts with a prefix of its characters. -/
theorem startsWith_iff {start s : String} : startsWith start s ↔ start.toList <+: s.toList := by
  rw [startsWith, Option.isSome_iff_exists]
  exact exists_congr fun rest => dropStart?_eq_some_iff.trans eq_comm

end RamlTypes.Text
