import RamlTypes.Expr.Basic

/-!
# Reading type expressions

The reader is an automaton with a stack of open groups. It takes one character at a time
(`Reader.step`), and from every state that it can reach some text leads to acceptance. So the
characters it takes before it gets stuck are the longest start of the text that can still be
continued to an expression, and their length in bytes is the offset of the syntax error.
-/

namespace RamlTypes.Expr

/-- What the reader is in the middle of. -/
inductive Focus where
  /-- An operand must follow, after any blanks. -/
  | operand
  /-- A name of which some characters are read. -/
  | name (read : List Char)
  /-- The dot of a qualified name is read. -/
  | dot (library : List Char)
  /-- A qualified name of which some characters after the dot are read. -/
  | qualified (library read : List Char)
  /-- `[` is read after an operand. -/
  | bracket (inner : Expr)
  /-- An operand is complete and may take a postfix operator. -/
  | complete (e : Expr)
  /-- Blanks are read after an operand. -/
  | gap (e : Expr)

/-- A state of the reader. -/
structure Reader where
  /-- The alternatives before each open group, innermost first. -/
  outer : List (List Expr)
  /-- The alternatives before the current operand. -/
  members : List Expr
  focus : Focus

namespace Reader

/-- Nothing is read. -/
def start : Reader := ⟨[], [], .operand⟩

/-- Goes on after a complete operand and a blank, a bar or a closing parenthesis. -/
def afterGap (r : Reader) (e : Expr) (c : Char) : Option Reader :=
  if Text.isBlank c then some { r with focus := .gap e }
  else if c = '|' then some ⟨r.outer, r.members ++ [e], .operand⟩
  else if c = ')' then
    match r.outer with
    | members :: outer => some ⟨outer, members, .complete (ofMembers (r.members ++ [e]))⟩
    | [] => none
  else none

/-- Goes on after a complete operand. -/
def afterOperand (r : Reader) (e : Expr) (c : Char) : Option Reader :=
  if c = '[' then some { r with focus := .bracket e }
  else if c = '?' then some { r with focus := .complete (.optional e) }
  else r.afterGap e c

/-- Takes one character, or gets stuck. -/
def step (r : Reader) (c : Char) : Option Reader :=
  match r.focus with
  | .operand =>
    if Text.isBlank c then some r
    else if c = '(' then some ⟨r.members :: r.outer, [], .operand⟩
    else if isNameChar c then some { r with focus := .name [c] }
    else none
  | .name read =>
    if isNameChar c then some { r with focus := .name (read ++ [c]) }
    else if c = '.' then some { r with focus := .dot read }
    else r.afterOperand (ofName (String.ofList read)) c
  | .dot library =>
    if isNameChar c then some { r with focus := .qualified library [c] } else none
  | .qualified library read =>
    if isNameChar c then some { r with focus := .qualified library (read ++ [c]) }
    else r.afterOperand (.ref (some (String.ofList library)) (String.ofList read)) c
  | .bracket inner => if c = ']' then some { r with focus := .complete (.array inner) } else none
  | .complete e => r.afterOperand e c
  | .gap e => r.afterGap e c

/-- The operand at the focus, when it could end here. -/
def operand? (r : Reader) : Option Expr :=
  match r.focus with
  | .name read => some (ofName (String.ofList read))
  | .qualified library read => some (.ref (some (String.ofList library)) (String.ofList read))
  | .complete e | .gap e => some e
  | .operand | .dot _ | .bracket _ => none

/-- The expression read, when the text may end here. -/
def finish? (r : Reader) : Option Expr :=
  match r.outer, r.operand? with
  | [], some e => some (ofMembers (r.members ++ [e]))
  | _, _ => none

/-- Reads a text from a state in which `offset` bytes are behind; a failure gives the offset at
which no continuation is possible. -/
def run (r : Reader) (offset : Nat) : List Char → Except Nat Expr
  | [] =>
    match r.finish? with
    | some e => .ok e
    | none => .error offset
  | c :: rest =>
    match r.step c with
    | some r => r.run (offset + c.utf8Size) rest
    | none => .error offset

end Reader

/-- Reads a type expression. A failure gives the byte offset of the first character, or of the end
of the text, at which no expression can continue. -/
def parse (text : String) : Except Nat Expr :=
  Reader.start.run 0 text.toList

end RamlTypes.Expr
