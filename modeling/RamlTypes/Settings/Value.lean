import RamlTypes.Dict
import RamlTypes.Number.Numeral
import RamlTypes.Number.Shortest
import RamlTypes.Text.Case
import RamlTypes.Toml.Basic

/-!
# Values of settings

Settings come in layers, and a later layer wins. Groups of a later layer are merged into the groups
before it, entry by entry; any other value replaces what was there. Keys are compared in lower case.
-/

namespace RamlTypes

/-- A value in a layer of settings. -/
inductive Setting where
  /-- A place in a list that no value was given to. -/
  | missing
  | bool (b : Bool)
  | int (i : Int)
  | float (d : Binary64)
  | text (s : String)
  | list (items : List Setting)
  | group (entries : List (String × Setting))

namespace Setting

mutual

/-- The setting that a TOML value stands for. -/
def ofToml : Toml → Setting
  | .bool b => .bool b
  | .int i => .int i
  | .float d => .float d
  | .text s => .text s
  | .moment s => .text s
  | .array items => .list (ofItems items)
  | .table entries => .group (ofEntries entries)

/-- The settings of a list of values. -/
def ofItems : List Toml → List Setting
  | [] => []
  | v :: rest => ofToml v :: ofItems rest

/-- The settings of the entries of a table. -/
def ofEntries : List (String × Toml) → List (String × Setting)
  | [] => []
  | (key, v) :: rest => (key, ofToml v) :: ofEntries rest

end

/-- The entries of a group. Anything else counts as an empty group. -/
def entries : Setting → Dict String Setting
  | group es => es
  | _ => []

/-- The items of a list. Anything else counts as an empty list. -/
def items : Setting → List Setting
  | list xs => xs
  | _ => []

mutual

/-- Gives an entry of a group a value. -/
def put (root : Setting) (key : String) : Setting → Setting
  | group incoming =>
    let key := Text.lowerAscii key
    let old := (Dict.find? key root.entries).getD (group [])
    group (Dict.put key (merge old incoming) root.entries)
  | value => group (Dict.put (Text.lowerAscii key) value root.entries)

/-- Gives several entries of a group values. -/
def merge (root : Setting) : List (String × Setting) → Setting
  | [] => root
  | (key, value) :: rest => merge (put root key value) rest

end

/-- A step of a path into settings. -/
inductive Step where
  | key (name : String)
  /-- A place in a list, counted from its end if negative. -/
  | index (i : Int)

/-- Whether a character may stand in a key of a path. -/
def isPathChar (c : Char) : Bool :=
  c.isAlphanum || c = ' ' || c = '_' || c = '-'

/-- The steps after the first of a path: `.key` and `[index]`. -/
def moreSteps? : Nat → List Char → Option (List Step)
  | _, [] => some []
  | 0, _ => none
  | fuel + 1, '.' :: rest =>
    match rest.takeWhile isPathChar with
    | [] => none
    | key => (moreSteps? fuel (rest.drop key.length)).map (.key (String.ofList key) :: ·)
  | fuel + 1, '[' :: rest => do
    let ']' :: after := rest.dropWhile (· ≠ ']') | none
    let digits := rest.takeWhile (· ≠ ']')
    if digits.head? = some '+' then none
    let i ← Numeral.integer? digits
    return .index i :: (← moreSteps? fuel after)
  | _, _ => none

/-- The steps of a path. A key that is no path is one step. -/
def path (key : String) : List Step :=
  let cs := key.toList
  match cs.takeWhile isPathChar with
  | [] => [.key key]
  | first =>
    match moreSteps? cs.length (cs.drop first.length) with
    | some steps => .key (String.ofList first) :: steps
    | none => [.key key]

/-- Gives a place of a list a value; places before it that are not there yet are missing. A
negative place before the start is the start. -/
def putAt (xs : List Setting) (i : Int) (value : Setting) : List Setting :=
  let n := if 0 ≤ i then i.toNat else xs.length - (-i).toNat
  (xs ++ List.replicate (n + 1 - xs.length) missing).set n value

/-- Gives the place that a path leads to a value. Groups and lists on the way are made as needed. -/
def assign (value : Setting) : List Step → Setting → Setting
  | [], _ => value
  | [.key name], root => put root name value
  | .key name :: rest, root =>
    let key := Text.lowerAscii name
    let inner := (Dict.find? key root.entries).getD missing
    group (Dict.put key (assign value rest inner) root.entries)
  | .index i :: rest, root =>
    let n := if 0 ≤ i then i.toNat else root.items.length - (-i).toNat
    list (putAt root.items i (assign value rest (root.items.getD n missing)))

/-- Lays a layer over the settings before it. Its keys are paths. -/
def layer (root : Setting) (entries : List (String × Setting)) : Setting :=
  entries.foldl (fun root (key, value) => assign value (path key) root) root

/-- The text of a single value. -/
def text? : Setting → Option String
  | text s => some s
  | bool b => some (if b then "true" else "false")
  | int i => some (toString i)
  | float d => some (Layout.plain.text d)
  | _ => none

/-- The truth value of a single value: a number other than zero is true, and some words are. -/
def bool? : Setting → Option Bool
  | bool b => some b
  | int i => some (i != 0)
  | float d => some (match d with
    | .finite _ m _ => m != 0
    | _ => true)
  | text s =>
    let word := Text.lowerAscii s
    if ["1", "true", "on", "yes"].contains word then some true
    else if ["0", "false", "off", "no"].contains word then some false
    else none
  | _ => none

/-- The texts of a list. -/
def texts? : Setting → Option (List String)
  | list xs => xs.mapM text?
  | _ => none

/-- The fields of a section: by name in a group, and in order in a list. -/
def field? (names : List String) (section_ : Setting) : Option (String → Option Setting) :=
  match section_ with
  | group es => some fun name => Dict.find? name es
  | list xs => some fun name => xs[names.idxOf name]?
  | _ => none

end Setting

end RamlTypes
