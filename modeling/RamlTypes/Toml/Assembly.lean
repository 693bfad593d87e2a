import RamlTypes.Dict
import RamlTypes.Toml.Basic

/-!
# Putting tables together

The statements of a document fill one table. A table may be opened by a header once; a header of a
table inside it implies it without opening it, and a dotted key builds tables that no header and no
later dotted key of another table may open.
-/

namespace RamlTypes.Toml

/-- How a table came to be. -/
inductive Origin where
  /-- By a header of its own. -/
  | opened
  /-- By a header of a table inside it. -/
  | implied
  /-- By a dotted key. -/
  | dotted
  deriving DecidableEq

/-- What a key holds while a document is read. -/
inductive Draft where
  | value (v : Toml)
  | table (origin : Origin) (entries : List (String × Draft))
  /-- Tables with a common header, newest first. -/
  | tables (elements : List (List (String × Draft)))

abbrev Drafts := List (String × Draft)

namespace Drafts

/-- Changes the table that a path of keys leads to. Tables on the way that are missing are made
with the origin `made`. A path leads through the newest of several tables; a dotted key does not
lead into a table that a header has opened. -/
def change (made : Origin) (f : Origin → Drafts → Option Drafts) :
    List String → Origin → Drafts → Option Drafts
  | [], origin, ds => f origin ds
  | key :: path, _, ds =>
    match Dict.find? key ds with
    | none =>
      (change made f path made []).map fun inner => Dict.put key (.table made inner) ds
    | some (.value _) => none
    | some (.table origin inner) =>
      if made = .dotted ∧ origin = .opened then none
      else (change made f path origin inner).map fun inner =>
        Dict.put key (.table origin inner) ds
    | some (.tables []) => none
    | some (.tables (newest :: older)) =>
      (change made f path .opened newest).map fun inner =>
        Dict.put key (.tables (inner :: older)) ds

/-- Stores a value under a key that has none. -/
def store (key : String) (v : Toml) (ds : Drafts) : Option Drafts :=
  if Dict.has key ds then none else some (Dict.put key (.value v) ds)

/-- Stores a value under a dotted key, of which `path` is all but the last part. A dotted key adds
only to tables that dotted keys have built. -/
def assign (path : List String) (key : String) (v : Toml) (ds : Drafts) : Option Drafts :=
  change .dotted
    (fun origin inner => if path ≠ [] ∧ origin ≠ .dotted then none else store key v inner)
    path .opened ds

/-- Opens a table by its header. -/
def openTable (key : String) (ds : Drafts) : Option Drafts :=
  match Dict.find? key ds with
  | none => some (Dict.put key (.table .opened []) ds)
  | some (.table .implied inner) => some (Dict.put key (.table .opened inner) ds)
  | some _ => none

/-- Opens one more of several tables with a common header. -/
def openElement (key : String) (ds : Drafts) : Option Drafts :=
  match Dict.find? key ds with
  | none => some (Dict.put key (.tables [[]]) ds)
  | some (.tables elements) => some (Dict.put key (.tables ([] :: elements)) ds)
  | some _ => none

end Drafts

mutual

/-- The value that a draft stands for. -/
def Draft.finish : Draft → Toml
  | .value v => v
  | .table _ ds => .table (Draft.finishEntries ds)
  | .tables elements => .array (Draft.finishElements elements).reverse

/-- The entries of a finished table. -/
def Draft.finishEntries : List (String × Draft) → List (String × Toml)
  | [] => []
  | (key, d) :: rest => (key, d.finish) :: Draft.finishEntries rest

/-- The finished tables, in the order of the list. -/
def Draft.finishElements : List (List (String × Draft)) → List Toml
  | [] => []
  | ds :: rest => .table (Draft.finishEntries ds) :: Draft.finishElements rest

end

/-- A statement of a document. A path holds the parts of a dotted key but the last. -/
inductive Statement where
  | assign (path : List String) (key : String) (v : Toml)
  | openTable (path : List String) (key : String)
  | openElement (path : List String) (key : String)

/-- Puts the statements of a document together. `here` is the path of the table that is open. -/
def assemble? : List String → Drafts → List Statement → Option Drafts
  | _, ds, [] => some ds
  | here, ds, .assign path key v :: rest => do
    let ds ← Drafts.change .implied (fun _ inner => Drafts.assign path key v inner) here .opened ds
    assemble? here ds rest
  | _, ds, .openTable path key :: rest => do
    let ds ← Drafts.change .implied (fun _ inner => Drafts.openTable key inner) path .opened ds
    assemble? (path ++ [key]) ds rest
  | _, ds, .openElement path key :: rest => do
    let ds ← Drafts.change .implied (fun _ inner => Drafts.openElement key inner) path .opened ds
    assemble? (path ++ [key]) ds rest

/-- The table of the entries of an inline table. -/
def inline? (entries : List (List String × String × Toml)) : Option Toml :=
  (entries.foldlM (fun ds (path, key, v) => Drafts.assign path key v ds) []).map fun ds =>
    .table (Draft.finishEntries ds)

end RamlTypes.Toml
