/-!
# Flaws of patterns

Why a pattern cannot be compiled.
-/

namespace RamlTypes.Pattern

/-- A reason for which a pattern cannot be compiled. -/
inductive Flaw where
  /-- A group is not closed. -/
  | openGroup
  /-- A parenthesis closes no group. -/
  | strayClose
  /-- A bracketed set is not closed. -/
  | openSet
  /-- A repetition has nothing to repeat. -/
  | nothingToRepeat
  /-- A counted repetition is not closed. -/
  | openCount
  /-- A number is missing in a counted repetition. -/
  | missingCount
  /-- A number of a counted repetition does not fit into 32 bits. -/
  | hugeCount
  /-- A counted repetition has its bounds in the wrong order. -/
  | reversedCount
  /-- The pattern ends inside an escape sequence. -/
  | openEscape
  | unknownEscape
  | backReference
  | lookAround
  /-- A character that is no hexadecimal digit stands where one must. -/
  | hexDigit
  | emptyHex
  /-- A hexadecimal number is not the number of a character. -/
  | hexValue
  /-- A word boundary in braces is not closed or holds a foreign character. -/
  | openBoundary
  | unknownBoundary
  /-- A flag setting is not closed. -/
  | openFlags
  | unknownFlag
  | repeatedFlag
  /-- A negation in a flag setting negates nothing. -/
  | danglingNegation
  | groupName
  | openGroupName
  | emptyGroupName
  | repeatedGroupName
  /-- An escape sequence stands in a bracketed set that matches no single character. -/
  | setEscape
  /-- An end of a range is not a single character. -/
  | rangeEnd
  /-- A range has its ends in the wrong order. -/
  | reversedRange
  /-- A property is named by a backslash. -/
  | propertyName
  | unknownProperty
  /-- A character or property of Unicode stands where only bytes are allowed. -/
  | notBytes
  /-- The pattern can match a part of a character. -/
  | splitsCharacters
  | tooDeep
  | tooLarge
  deriving DecidableEq, Repr

/-- How deep the parts of a pattern may be nested. -/
def depthLimit : Nat := 250

/-- How many bytes the automaton of a pattern may take. -/
def weightLimit : Nat := 10485760

/-- The wording of a flaw. -/
def Flaw.message : Flaw → String
  | openGroup => "unclosed group"
  | strayClose => "unopened group"
  | openSet => "unclosed character class"
  | nothingToRepeat => "repetition operator missing expression"
  | openCount => "unclosed counted repetition"
  | missingCount => "repetition quantifier expects a valid decimal"
  | hugeCount => "decimal literal invalid"
  | reversedCount => "invalid repetition count range, the start must be <= the end"
  | openEscape => "incomplete escape sequence, reached end of pattern prematurely"
  | unknownEscape => "unrecognized escape sequence"
  | backReference => "backreferences are not supported"
  | lookAround => "look-around, including look-ahead and look-behind, is not supported"
  | hexDigit => "invalid hexadecimal digit"
  | emptyHex => "hexadecimal literal empty"
  | hexValue => "hexadecimal literal is not a Unicode scalar value"
  | openBoundary =>
    "special word boundary assertion is either unclosed or contains an invalid character"
  | unknownBoundary =>
    "unrecognized special word boundary assertion, "
      ++ "valid choices are: start, end, start-half or end-half"
  | openFlags => "expected flag but got end of regex"
  | unknownFlag => "unrecognized flag"
  | repeatedFlag => "duplicate flag"
  | danglingNegation => "dangling flag negation operator"
  | groupName => "invalid capture group character"
  | openGroupName => "unclosed capture group name"
  | emptyGroupName => "empty capture group name"
  | repeatedGroupName => "duplicate capture group name"
  | setEscape => "invalid escape sequence found in character class"
  | rangeEnd => "invalid range boundary, must be a literal"
  | reversedRange => "invalid character class range, the start must be <= the end"
  | propertyName => "invalid Unicode character class"
  | unknownProperty => "Unicode property not found"
  | notBytes => "Unicode not allowed here"
  | splitsCharacters => "pattern can match invalid UTF-8"
  | tooDeep =>
    "exceed the maximum number of nested parentheses/brackets (" ++ toString depthLimit ++ ")"
  | tooLarge => "Compiled regex exceeds size limit of " ++ toString weightLimit ++ " bytes."

end RamlTypes.Pattern
