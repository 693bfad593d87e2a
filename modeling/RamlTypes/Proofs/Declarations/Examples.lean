import RamlTypes.Proofs.Facets.Readers

/-!
# Entries, their places and examples

Each entry of a declaration has one place (`Sorted.Places`): it is an annotation, it belongs to one field
of the envelope, it is reserved and goes nowhere, or it is a raw facet. The entries of an example that
wraps its value have places too (`Amended`). `ReadExample` says what is kept of the node of an example,
and `readExample_gives` that reading keeps just this.
-/

namespace RamlTypes.Declaration

/-! ## Places -/

/-- The entries of a declaration, sorted by their places. -/
structure Sorted where
  /-- Annotations under their names. -/
  annotations : List (String × Node)
  displayName : List Node
  description : List Node
  required : List Node
  default : List Node
  /-- The entries `type` and `schema`. -/
  type : List Node
  facetDefinitions : List Node
  /-- The entries `example` and `examples`. -/
  examples : List (String × Node)
  /-- Raw facets under their keys. -/
  raw : List (String × Node)

namespace Sorted

/-- No entry. -/
def empty : Sorted := ⟨[], [], [], [], [], [], [], [], []⟩

/-- Earlier entries, followed by later ones. -/
def append (x y : Sorted) : Sorted where
  annotations := x.annotations ++ y.annotations
  displayName := x.displayName ++ y.displayName
  description := x.description ++ y.description
  required := x.required ++ y.required
  default := x.default ++ y.default
  type := x.type ++ y.type
  facetDefinitions := x.facetDefinitions ++ y.facetDefinitions
  examples := x.examples ++ y.examples
  raw := x.raw ++ y.raw

/-- Nothing is added by sorting no entries. -/
theorem append_empty (x : Sorted) : x.append empty = x := by
  simp only [append, empty, List.append_nil]

/-- The place of an entry that is no annotation. -/
def known (key : String) (value : Node) : Sorted :=
  match key with
  | "displayName" => { empty with displayName := [value] }
  | "description" => { empty with description := [value] }
  | "required" => { empty with required := [value] }
  | "default" => { empty with default := [value] }
  | "type" | "schema" => { empty with type := [value] }
  | "facets" => { empty with facetDefinitions := [value] }
  | "example" | "examples" => { empty with examples := [(key, value)] }
  | "allowedTargets" => empty
  | _ => { empty with raw := [(key, value)] }

/-- The place of an entry. The key of an annotation is its name in parentheses, and blank characters
around the name do not count. -/
inductive Places (value : Node) : String → Sorted → Prop
  | annotated {text name : String} (trims : Text.Trims text name) : Places value ("(" ++ text ++ ")")
      { empty with annotations := [(name, value)] }
  | known {key : String} (h : ∀ name, key ≠ "(" ++ name ++ ")") : Places value key (known key value)

/-- The places of entries, in their order. -/
inductive Sorts : List (String × Node) → Sorted → Prop
  | nil : Sorts [] empty
  | cons {key : String} {value : Node} {rest : List (String × Node)} {x y : Sorted}
      (h : Places value key x) (hrest : Sorts rest y) : Sorts ((key, value) :: rest) (x.append y)

end Sorted

/-- The value of an entry of which the last occurrence counts: without any occurrence it is the one from
before. -/
def LastOf {α : Type} (reads : Node → α → Prop) (values : List Node) (before after : Option α) : Prop :=
  match values.getLast? with
  | some value => ∃ a, after = some a ∧ reads value a
  | none => after = before

/-- With no values, what was there stays. -/
theorem LastOf.refl {α : Type} {reads : Node → α → Prop} (o : Option α) : LastOf reads [] o o := rfl

/-- One value is the last one. -/
theorem LastOf.single {α : Type} {reads : Node → α → Prop} {value : Node} {a : α} (o : Option α)
    (h : reads value a) : LastOf reads [value] o (some a) :=
  ⟨a, rfl, h⟩

/-- The last of more values is the last one. -/
theorem LastOf.trans {α : Type} {reads : Node → α → Prop} {values later : List Node}
    {before mid after : Option α} (h : LastOf reads values before mid)
    (h' : LastOf reads later mid after) : LastOf reads (values ++ later) before after := by
  unfold LastOf at h h' ⊢
  rw [List.getLast?_append]
  rcases hl : later.getLast? with _ | value <;> rw [hl] at h'
  · rwa [Option.none_or, h']
  · exact h'

/-! ## What is kept of an example -/

/-- An annotation has a name, and it is kept with its value and with the place where it stands. -/
def ReadUse (path : Path) (entry : String × Node) (use : String × AnnotationUse) : Prop :=
  entry.1 ≠ "" ∧ use = (entry.1, ⟨entry.1, entry.2, none, path, entry.2.mark⟩)

/-- The example `e` has become the example `f` by reading the entries `x`. -/
structure Amended (path : Path) (e : Example) (x : Sorted) (f : Example) : Prop where
  annotations : ∃ uses, List.Forall₂ (ReadUse path) x.annotations uses ∧
    Dict.Merges e.annotations uses f.annotations
  displayName : LastOf Node.HasText x.displayName e.displayName f.displayName
  description : LastOf Node.HasText x.description e.description f.description
  strict : LastOf Node.HasFlag (Dict.valuesOf "strict" x.raw) e.strict f.strict
  /-- Nothing else has changed. -/
  rest : f = { e with
    annotations := f.annotations, displayName := f.displayName, description := f.description,
    strict := f.strict }

section
variable (path : Path) (owner : String) (s t : Store)

/-- Between the stores `s` and `t` the node of an example has been found to have the entries `x` beside
its value, or beside the file to which it is linked. -/
inductive Wraps : Node → Sorted → Option Node → Option ExampleFile → Prop
  | included {text : String} {type : ScalarType} {m : Store} {file : ExampleFile} (mark : Mark)
      (since : s.Extends m) (before : m.Extends t)
      (cached : Dict.find? (m.follow path text).key m.examples = some file) :
      Wraps (.scalar text type mark true) .empty none (some file)
  | wrapped {pairs : List (Node × Node)} {entries : List (String × Node)} {x : Sorted} {value : Node}
      (mark : Mark) (keyed : Node.Keyed pairs entries) (sorts : Sorted.Sorts entries x)
      (first : (Dict.valuesOf "value" entries).head? = some value) :
      Wraps (.mapping pairs mark false) x (some value) none
  | scalar (text : String) (type : ScalarType) (mark : Mark) :
      Wraps (.scalar text type mark false) .empty (some (.scalar text type mark false)) none
  | sequence (items : List Node) (mark : Mark) :
      Wraps (.sequence items mark false) .empty (some (.sequence items mark false)) none
  | mapping {pairs : List (Node × Node)} (mark : Mark)
      (unwrapped : ∀ type mark isInclude value, (.scalar "value" type mark isInclude, value) ∉ pairs) :
      Wraps (.mapping pairs mark false) .empty (some (.mapping pairs mark false)) none

/-- Between the stores `s` and `t` an example has been read. -/
def ReadExample (name : Option String) (node : Node) (e : Example) : Prop :=
  ∃ x, Wraps path s t node x e.value e.link ∧
    Amended path ⟨path.text ++ "#" ++ owner ++ "/examples/" ++ name.getD "example", name, none, none,
      none, e.value, path, [], e.link⟩ x e

/-- Between the stores `s` and `t` the examples of an entry have been read: the one of an entry
`example`, or the named ones of an entry `examples`. -/
inductive ReadExamples : String × Node → List Example → Prop
  | one {value : Node} {e : Example} (h : ReadExample path owner s t none value e) :
      ReadExamples ("example", value) [e]
  | many {value : Node} {entries : List (String × Node)} {es : List Example}
      (h : value.HasEntries entries)
      (hes : List.Forall₂ (fun entry e => ReadExample path owner s t (some entry.1) entry.2 e)
        entries es) :
      ReadExamples ("examples", value) es

end

/-! ## Examples in two parts -/

section
variable {path : Path} {owner : String} {s m t : Store}

/-- What has been found between two stores has been found between an earlier and a later one. -/
theorem Wraps.widen {u : Store} {node : Node} {x : Sorted} {value : Option Node}
    {link : Option ExampleFile} (hs : s.Extends m) (h : Wraps path m t node x value link)
    (ht : t.Extends u) : Wraps path s u node x value link := by
  cases h with
  | included mark since before cached => exact .included mark (hs.trans since) (before.trans ht) cached
  | wrapped mark keyed sorts first => exact .wrapped mark keyed sorts first
  | scalar text type mark => exact .scalar text type mark
  | sequence items mark => exact .sequence items mark
  | mapping mark unwrapped => exact .mapping mark unwrapped

/-- An example may be read in a store that comes later. -/
theorem ReadExample.later {name : Option String} {node : Node} {e : Example} (hs : s.Extends m)
    (h : ReadExample path owner m t name node e) : ReadExample path owner s t name node e := by
  obtain ⟨x, hwraps, hamended⟩ := h
  exact ⟨x, hwraps.widen hs (.refl t), hamended⟩

/-- What has been read stays in later stores. -/
theorem ReadExample.stays {name : Option String} {node : Node} {e : Example}
    (h : ReadExample path owner s m name node e) (ht : m.Extends t) :
    ReadExample path owner s t name node e := by
  obtain ⟨x, hwraps, hamended⟩ := h
  exact ⟨x, hwraps.widen (.refl s) ht, hamended⟩

/-- The examples of an entry may be read in a store that comes later. -/
theorem ReadExamples.later {entry : String × Node} {es : List Example} (hs : s.Extends m)
    (h : ReadExamples path owner m t entry es) : ReadExamples path owner s t entry es := by
  cases h with
  | one h => exact .one (h.later hs)
  | many h hes => exact .many h (hes.imp fun _ _ he => he.later hs)

/-- And they stay in later stores. -/
theorem ReadExamples.stays {entry : String × Node} {es : List Example}
    (h : ReadExamples path owner s m entry es) (ht : m.Extends t) :
    ReadExamples path owner s t entry es := by
  cases h with
  | one h => exact .one (h.stays ht)
  | many h hes => exact .many h (hes.imp fun _ _ he => he.stays ht)

/-! ## Reading examples -/

variable {loadType : Path → Load Unit} {declare : Facets.Declare} {name key : String}
  {node value : Node}

/-- An annotation that is read has a name. -/
theorem readUse_of_ok {use : AnnotationUse} (h : readAnnotationUse path name value = .ok use) :
    ReadUse path (name, value) (use.name, use) := by
  rw [readAnnotationUse] at h
  split at h
  · cases h
  · next hname =>
    cases h
    exact ⟨hname, rfl⟩

/-- The example of a file that has been loaded is cached. -/
theorem cached_of_loadExample {p : Path} {file : ExampleFile} (h : loadExample p s = (.ok file, t)) :
    Dict.find? p.key t.examples = some file := by
  rw [loadExample, Load.ask_bind] at h
  split at h
  · next hcached =>
    cases h
    exact hcached
  · next hnone =>
    obtain ⟨text, -, h⟩ := Load.readFile_bind_eq_ok h
    obtain ⟨e, -, h⟩ := Load.ofExcept_bind_eq_ok.1 h
    cases h
    show Dict.find? p.key (Dict.putNew p.key _ s.examples) = _
    rw [Dict.find?_putNew, hnone, if_pos rfl, Option.none_or]

/-- The first value under a text of a mapping is that of its entries. -/
theorem get?_of_keyed {pairs : List (Node × Node)} {entries : List (String × Node)} {mark : Mark}
    {isInclude : Bool} (h : Node.Keyed pairs entries) (key : String) :
    (Node.mapping pairs mark isInclude).get? key = (Dict.valuesOf key entries).head? := by
  show pairs.findSome? _ = _
  induction h with
  | nil => rfl
  | @cons pair entry pairs entries hpair hrest ih =>
    obtain ⟨type, mark, isInclude, rfl⟩ := hpair
    obtain ⟨text, value⟩ := entry
    have hsplit : Dict.valuesOf key ((text, value) :: entries) =
        Dict.valuesOf key [(text, value)] ++ Dict.valuesOf key entries := Dict.valuesOf_append key [_] _
    rw [List.findSome?_cons, hsplit, Dict.valuesOf_singleton]
    by_cases hkey : text = key
    · simp [Node.text?, hkey]
    · simpa [Node.text?, hkey] using ih

/-- A mapping in which no value is found under a text does not have it as a key. -/
theorem notMem_of_get? {key : String} {pairs : List (Node × Node)} {mark : Mark}
    (h : (Node.mapping pairs mark false).get? key = none) (type : ScalarType) (m : Mark)
    (isInclude : Bool) (value : Node) : (.scalar key type m isInclude, value) ∉ pairs := by
  intro hpair
  have hskip := List.findSome?_eq_none_iff.1 h _ hpair
  have htext : (Node.scalar key type m isInclude, value).1.text? = some key := rfl
  rw [if_pos htext] at hskip
  cases hskip

namespace Amended

variable {e f g : Example} {x y : Sorted}

/-- Without any entry an example stays as it is. -/
theorem of_none (path : Path) (e : Example) : Amended path e .empty e where
  annotations := ⟨[], .nil, .refl _⟩
  displayName := .refl _
  description := .refl _
  strict := .refl _
  rest := rfl

/-- What is read in two parts is read as a whole. -/
theorem trans (h : Amended path e x f) (h' : Amended path f y g) : Amended path e (x.append y) g where
  annotations := by
    obtain ⟨uses, huses, hm⟩ := h.annotations
    obtain ⟨uses', huses', hm'⟩ := h'.annotations
    exact ⟨uses ++ uses', List.rel_append huses huses', hm.trans hm'⟩
  displayName := h.displayName.trans h'.displayName
  description := h.description.trans h'.description
  strict := by
    have hstrict := h.strict.trans h'.strict
    rwa [← Dict.valuesOf_append] at hstrict
  rest := by rw [h'.rest, h.rest]

/-- An entry of an example goes to its place. -/
theorem of_addEntry {keyNode : Node} (h : Example.addEntry path e keyNode value = .ok f) :
    ∃ key x, keyNode.text? = some key ∧ Sorted.Places value key x ∧ Amended path e x f := by
  obtain ⟨key, hkey, h⟩ := exists_ok_of_bind h
  refine ⟨key, ?_⟩
  have same := of_none path e
  rcases annotationName_cases key with ⟨name, rfl, hname⟩ | ⟨hkey', hname⟩
  · rw [hname] at h
    obtain ⟨use, huse, h⟩ := exists_ok_of_bind h
    cases h
    refine ⟨_, Entry.keyText_eq_ok hkey, .annotated (Text.trims_trim name), ?_⟩
    exact { same with
      annotations := ⟨[(use.name, use)], .cons (readUse_of_ok huse) .nil, .put use.name use _⟩
      rest := rfl }
  · rw [hname] at h
    refine ⟨_, Entry.keyText_eq_ok hkey, .known hkey', ?_⟩
    dsimp only at h
    split at h
    · obtain ⟨text, htext, h⟩ := exists_ok_of_bind h
      cases h
      exact { same with displayName := .single _ (Entry.hasText_of_text htext), rest := rfl }
    · obtain ⟨text, htext, h⟩ := exists_ok_of_bind h
      cases h
      exact { same with description := .single _ (Entry.hasText_of_text htext), rest := rfl }
    · obtain ⟨b, hb, h⟩ := exists_ok_of_bind h
      cases h
      exact { same with strict := .single _ (Entry.hasFlag_of_boolean hb), rest := rfl }
    · cases h
      have hplace : (Sorted.known key value).annotations = [] ∧
          (Sorted.known key value).displayName = [] ∧ (Sorted.known key value).description = [] ∧
          Dict.valuesOf "strict" (Sorted.known key value).raw = [] := by
        unfold Sorted.known
        split <;> simp_all [Sorted.empty, Dict.valuesOf]
      obtain ⟨hannotations, hdisplayName, hdescription, hstrict⟩ := hplace
      exact
      { annotations := hannotations ▸ same.annotations
        displayName := hdisplayName ▸ same.displayName
        description := hdescription ▸ same.description
        strict := hstrict ▸ same.strict
        rest := rfl }

/-- The keys of the entries of an example are texts, and every entry goes to its place. -/
theorem of_addEntries (pairs : List (Node × Node)) : ∀ {e f : Example},
    Example.addEntries path e pairs = .ok f → ∃ entries x, Node.Keyed pairs entries ∧
      Sorted.Sorts entries x ∧ Amended path e x f := by
  induction pairs with
  | nil =>
    intro e f h
    cases h
    exact ⟨[], _, .nil, .nil, .of_none path e⟩
  | cons pair rest ih =>
    intro e f h
    obtain ⟨m, hm, h⟩ := exists_ok_of_bind h
    obtain ⟨key, x, hkey, hplace, hfirst⟩ := of_addEntry hm
    obtain ⟨entries, y, hkeyed, hsorts, hrest⟩ := ih h
    exact ⟨(key, pair.2) :: entries, _, .cons (Node.exists_entry hkey) hkeyed, .cons hplace hsorts,
      hfirst.trans hrest⟩

/-- The value of an example is kept apart from its entries. -/
theorem withValue (h : Amended path e x f) (value : Option Node) :
    Amended path { e with value := value } x { f with value := value } :=
  { h with rest := by rw [h.rest] }

end Amended

/-- Reading an example leaves alone the shapes that there are. -/
theorem readExample_gives (name : Option String) (node : Node) :
    (Example.read path owner name node).Gives s fun e t =>
      s.Extends t ∧ ReadExample path owner s t name node e where
  of_ok {e t} h := by
    -- Reading is compared with itself, which shows that it only extends the store.
    have hagree : (Store.beside s.shapes.size 0 s s).Agree () (Example.read path owner name node)
        (Example.read path owner name node) fun _ a b => a = b ∧ Unbound a.annotations :=
      (Store.beside_declares path).readExample () owner name node
    have hst := (Store.extends_of_agree hagree h).1
    refine ⟨hst, ?_⟩
    rw [Example.read] at h
    split at h
    · next hinclude =>
      cases node with
      | sequence => cases h
      | mapping => cases h
      | scalar text type mark isInclude =>
        cases hinclude
        dsimp only [Node.text?] at h
        rw [Load.ask_bind] at h
        obtain ⟨file, m, hfile, h⟩ := Load.bind_eq_ok.1 h
        cases h
        have hcached := cached_of_loadExample hfile
        rw [← hst.grows.follow path text] at hcached
        exact ⟨_, .included mark hst (.refl _) hcached, .of_none path _⟩
    · next hinclude =>
      -- A mapping with a key for the value wraps it; any other node is the value itself.
      have hplain := Bool.eq_false_iff.2 hinclude
      split at h
      · next pairs value hpairs hvalue =>
        obtain ⟨f, hf, h⟩ := Load.ofExcept_bind_eq_ok.1 h
        cases h
        obtain ⟨entries, x, hkeyed, hsorts, hamended⟩ := Amended.of_addEntries pairs hf
        cases node with
        | scalar => cases hpairs
        | sequence => cases hpairs
        | mapping _ mark isInclude =>
          cases hpairs
          cases hplain
          rw [get?_of_keyed hkeyed] at hvalue
          have hlink : f.link = none := congrArg Example.link hamended.rest
          cases f
          cases hlink
          exact ⟨x, .wrapped mark hkeyed hsorts hvalue, hamended.withValue (some value)⟩
      · next hbare =>
        cases h
        cases node with
        | scalar text type mark isInclude =>
          cases hplain
          exact ⟨_, .scalar text type mark, .of_none path _⟩
        | sequence items mark isInclude =>
          cases hplain
          exact ⟨_, .sequence items mark, .of_none path _⟩
        | mapping pairs mark isInclude =>
          cases hplain
          have hnone := Option.eq_none_iff_forall_ne_some.2 fun value => hbare pairs value rfl
          exact ⟨_, .mapping mark (notMem_of_get? hnone), .of_none path _⟩
  of_error _ := trivial

/-- By induction on the entries, each example is read under its name. -/
theorem examples_gives (entries : List (String × Node)) : ∀ (s : Store) (known : List Example),
    (examples ⟨path, loadType, declare⟩ owner known entries).Gives s fun all t => s.Extends t ∧
      ∃ es, List.Forall₂ (fun entry e => ReadExample path owner s t (some entry.1) entry.2 e)
        entries es ∧ all = known ++ es := by
  induction entries with
  | nil => exact fun s known => .pure ⟨.refl s, [], .nil, (List.append_nil _).symm⟩
  | cons entry rest ih =>
    intro s known
    refine (readExample_gives (some entry.1) entry.2).bind fun e m ⟨hsm, he⟩ => ?_
    refine (ih m _).imp ?_ fun _ h => h
    rintro all t ⟨hmt, es, hes, rfl⟩
    refine ⟨hsm.trans hmt, e :: es, ?_, List.append_assoc ..⟩
    exact .cons (he.stays hmt) (hes.imp fun _ _ h => h.later hsm)

end

end RamlTypes.Declaration
