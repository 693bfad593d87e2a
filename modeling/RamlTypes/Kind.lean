/-!
# Kinds of types

A shape has one of fourteen built-in kinds, or is an embedded JSON schema, or is not resolved yet.
Only the built-in kinds have a name that a declaration may use.
-/

namespace RamlTypes

inductive Kind where
  | any
  | nil
  | object
  | array
  | string
  | integer
  | number
  | boolean
  | datetime
  | datetimeOnly
  | dateOnly
  | timeOnly
  | file
  | union
  /-- An embedded JSON schema. -/
  | json
  /-- A declaration that is not resolved yet. -/
  | unknown
  deriving DecidableEq, Repr

namespace Kind

/-- The name of a kind in declarations and in output. -/
def name : Kind → String
  | any => "any"
  | nil => "nil"
  | object => "object"
  | array => "array"
  | string => "string"
  | integer => "integer"
  | number => "number"
  | boolean => "boolean"
  | datetime => "datetime"
  | datetimeOnly => "datetime-only"
  | dateOnly => "date-only"
  | timeOnly => "time-only"
  | file => "file"
  | union => "union"
  | json => "json"
  | unknown => "unknown"

/-- The kinds that a declaration may name. -/
def builtins : List Kind :=
  [any, nil, object, array, string, integer, number, boolean, datetime, datetimeOnly, dateOnly,
    timeOnly, file, union]

/-- The built-in kind of a given name. -/
def ofName? (n : String) : Option Kind :=
  builtins.find? fun k => k.name == n

/-- A name denotes a kind exactly when it is the name of that built-in kind. -/
theorem ofName?_eq_some_iff {n : String} {k : Kind} :
    ofName? n = some k ↔ k ∈ builtins ∧ k.name = n := by
  constructor
  · intro h
    exact ⟨List.mem_of_find?_eq_some h, by simpa using List.find?_some h⟩
  · rintro ⟨hk, rfl⟩
    cases k <;> first | rfl | simp [builtins] at hk

end Kind

end RamlTypes
