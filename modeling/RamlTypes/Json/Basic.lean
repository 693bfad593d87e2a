import RamlTypes.Dict
import RamlTypes.Number.Binary64

/-!
# JSON values

Objects keep the order of their entries. `Json.sorted` builds an object whose keys are in code
point order, each with the value that came last.
-/

namespace RamlTypes

inductive Json where
  | null
  | bool (value : Bool)
  | int (value : Int)
  | double (value : Binary64)
  | str (value : String)
  | arr (items : List Json)
  | obj (entries : List (String × Json))

namespace Json

instance : Inhabited Json := ⟨null⟩

/-- The number of a finite double; the others are no JSON numbers. -/
def ofDouble? (d : Binary64) : Option Json :=
  if d.isFinite then some (.double d) else none

/-- The number of a finite double, `null` for the others. -/
def ofDouble (d : Binary64) : Json :=
  (ofDouble? d).getD .null

/-- Inserts an entry into a list sorted by key, replacing the value of an equal key. -/
def insertSorted {α : Type} (key : String) (value : α) : List (String × α) → List (String × α)
  | [] => [(key, value)]
  | (k, v) :: rest =>
    if key < k then (key, value) :: (k, v) :: rest
    else if key = k then (key, value) :: rest
    else (k, v) :: insertSorted key value rest

/-- Entries sorted by key; of equal keys the last one counts. -/
def sortEntries {α : Type} (entries : List (String × α)) : List (String × α) :=
  entries.foldl (fun acc entry => insertSorted entry.1 entry.2 acc) []

/-- An object with its keys in order. -/
def sorted (entries : List (String × Json)) : Json :=
  .obj (sortEntries entries)

/-- An entry for a value that may be absent. -/
def field? {α : Type} (key : String) (encode : α → Json) : Option α → List (String × Json)
  | some v => [(key, encode v)]
  | none => []

/-- An entry for a list, left out when the list is empty. -/
def listField {α : Type} (key : String) (encode : α → Json) (xs : List α) : List (String × Json) :=
  if xs.isEmpty then [] else [(key, .arr (xs.map encode))]

/-- The value of an object's entry. -/
def get? (key : String) : Json → Option Json
  | .obj entries => Dict.find? key entries
  | _ => none

end Json

end RamlTypes
