import RamlTypes.Pattern.Atom
import RamlTypes.Text.Alphabetic

/-!
# Openings of groups

What can follow an opening parenthesis: a name, flags for the group, flags for the rest of the
enclosing group, or the first part of the group.
-/

namespace RamlTypes.Pattern

/-- What an opening parenthesis starts. -/
inductive Opening where
  /-- Flags that hold from here to the end of the enclosing group. -/
  | flags (mode : Mode)
  /-- A group that is read in a mode. -/
  | group (mode : Mode) (name : Option String)

namespace Opening

/-- The flags: case, lines, dots, greed, characters, line ends and blanks. -/
def flagChars : List Char := ['i', 'm', 's', 'U', 'u', 'R', 'x']

/-- Whether a flag is set or, after a hyphen, unset. -/
def setting? (items : List Char) (flag : Char) : Option Bool :=
  if (items.takeWhile (· ≠ '-')).contains flag then some true
  else if items.contains flag then some false
  else none

/-- Whether flags are well formed: known, each once, with at most one hyphen, and that not last. -/
def checkFlags (items : List Char) : Except Flaw Unit := do
  if items.any fun c => c != '-' && !flagChars.contains c then throw .unknownFlag
  if !items.Nodup then throw .repeatedFlag
  if items.getLast? = some '-' then throw .danglingNegation

/-- Reads flags after the question mark. -/
def ofFlags (m : Mode) (cs : List Char) : Except Flaw (Opening × List Char) := do
  let isEnd (c : Char) : Bool := c == ':' || c == ')'
  let items := cs.takeWhile fun c => !isEnd c
  let ending :: rest := cs.dropWhile fun c => !isEnd c | throw .openFlags
  checkFlags items
  let mode : Mode :=
    ⟨(setting? items 'x').getD m.skipsBlank, (setting? items 'u').getD m.unicode⟩
  if ending = ':' then return (.group mode none, rest)
  if items = [] then throw .nothingToRepeat
  return (.flags mode, rest)

/-- Whether a character may stand in a group's name, as its first or as a later one. -/
def isNameChar (first : Bool) (c : Char) : Bool :=
  if first then c == '_' || Text.isAlphabetic c
  else ['_', '.', '[', ']'].contains c || Text.isAlphabetic c || Text.isNumeric c

/-- Reads the name of a group up to its closing angle bracket. -/
def ofName (m : Mode) (cs : List Char) : Except Flaw (Opening × List Char) := do
  let name := cs.takeWhile (· ≠ '>')
  let _ :: rest := cs.dropWhile (· ≠ '>') | throw .openGroupName
  match name with
  | [] => throw .emptyGroupName
  | c :: others =>
    if isNameChar true c && others.all (isNameChar false) then
      return (.group m (some (String.ofList name)), rest)
    throw .groupName

/-- Reads what follows an opening parenthesis. -/
def ofChars (m : Mode) (cs : List Char) : Except Flaw (Opening × List Char) :=
  match m.skip cs with
  | '?' :: '=' :: _ | '?' :: '!' :: _ | '?' :: '<' :: '=' :: _ | '?' :: '<' :: '!' :: _ =>
    .error .lookAround
  | '?' :: 'P' :: '<' :: rest | '?' :: '<' :: rest => ofName m rest
  | '?' :: rest => ofFlags m rest
  | rest => .ok (.group m none, rest)

end Opening

end RamlTypes.Pattern
