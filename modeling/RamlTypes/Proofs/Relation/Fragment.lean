import RamlTypes.Proofs.Cached
import RamlTypes.Proofs.Relation.Declaration

/-!
# Loading fragments agrees

Two runs that read the same file yield related fragments. `Comparison.Parses` collects what is
needed of the actions that note the names of a file, and `Comparison.Loads` what is needed of the
cache and of the reader. The recursion over files that use each other is bounded by the same number
on both sides (`Loads.loaders`).
-/

namespace RamlTypes

/-- Results of a check: the same fault, or related values. -/
inductive Checked {α β : Type} (S : α → β → Prop) : Except PlainFault α → Except PlainFault β → Prop
  | ok {a : α} {b : β} (h : S a b) : Checked S (.ok a) (.ok b)
  | error (f : PlainFault) : Checked S (.error f) (.error f)

/-- A file that is not being loaded any more takes nothing from the store. -/
theorem Store.grows_of_endLoading (s : Store) (p : Path) : s.Grows (s.endLoading p) :=
  { Store.Grows.refl s with loading := List.filter_subset_self _ }

namespace Comparison

/-- The actions of reading the file `path` agree. -/
structure Parses (C : Comparison) (path : Path) : Prop extends C.Declares path where
  declareUse (w : C.World) (name : String) (p : Path) : C.begun w path → C.linked w p →
    C.Agree w (Fragment.declareUse path name p) (Fragment.declareUse path name p) fun _ _ _ => True
  declareType (w : C.World) (name : String) (i j : ShapeId) : C.begun w path → C.ids w i j →
    C.Agree w (Fragment.declareType path name i) (Fragment.declareType path name j)
      fun _ _ _ => True
  declareAnnotationType (w : C.World) (name : String) (i j : ShapeId) : C.begun w path →
    C.ids w i j →
    C.Agree w (Fragment.declareAnnotationType path name i)
      (Fragment.declareAnnotationType path name j) fun _ _ _ => True
  bind (w : C.World) (a : AnnotationUse) : C.begun w path → a.definedBy = none →
    C.Agree w (a.bind path) (a.bind path) fun w' => Checked (C.bound w')

/-- Two families of loaders agree on all targets. -/
structure LoadersAgree (C : Comparison) (ls ls' : Loaders) : Prop where
  library (w : C.World) (p : Path) : C.target p →
    C.Agree w (Load.unlessLoading p (ls.library p)) (Load.unlessLoading p (ls'.library p))
      fun w' _ _ => C.linked w' p
  dataType (w : C.World) (p : Path) : C.target p →
    C.Agree w (Load.unlessLoading p (ls.dataType p)) (Load.unlessLoading p (ls'.dataType p))
      fun w' _ _ => C.linked w' p

/-- Related libraries in the file `path`. -/
abbrev LibraryRel (C : Comparison) (path : Path) (w : C.World) (a b : Library) : Prop :=
  a.Rel (C.ids w) (C.bound w) b ∧ a.location = path

/-- Related data types in the file `path`. -/
abbrev DataTypeRel (C : Comparison) (path : Path) (w : C.World) (a b : DataType) : Prop :=
  a.Rel (C.ids w) b ∧ a.location = path

/-- Related fragments. -/
abbrev FragmentRel (C : Comparison) (w : C.World) : Fragment → Fragment → Prop :=
  Fragment.Rel (C.ids w) (C.bound w)

namespace Parses

variable {C : Comparison} {path : Path} (hC : C.Parses path) {ls ls' : Loaders}

/-! ## Annotations -/

include hC in
/-- Annotations without types are bound alike, one after the other. -/
theorem bindAll (d : Dict String AnnotationUse) : ∀ (w : C.World), C.begun w path → Unbound d →
    C.Agree w (AnnotationUse.bindAll path d) (AnnotationUse.bindAll path d)
      fun w' a b => Dict.Rel (C.bound w') a.1 b.1 ∧ a.2 = b.2 := by
  induction d with
  | nil => exact fun _ _ _ => .pure ⟨.nil, rfl⟩
  | cons entry rest ih =>
    obtain ⟨key, a⟩ := entry
    intro w hw hu
    have ha : a.definedBy = none := hu _ List.mem_cons_self
    have hrest : Unbound rest := fun x hx => hu x (List.mem_cons_of_mem _ hx)
    unfold AnnotationUse.bindAll
    refine .bind (hC.bind w a hw ha) fun w' r r' hw' h => ?_
    cases h with
    | ok h =>
      refine .bind (ih w' (C.begun_mono hw' hw) hrest) ?_
      rintro w'' ⟨d, fault⟩ ⟨d', fault'⟩ hw'' ⟨hd, rfl⟩
      exact .pure ⟨.cons ⟨rfl, C.bound_mono hw'' h⟩ hd, rfl⟩
    | error f =>
      refine .pure ⟨.cons ⟨rfl, C.bound_of_rel ⟨rfl, by rw [ha]; exact .none⟩⟩ ?_, rfl⟩
      exact hrest.rel.mono fun _ _ => C.bound_of_rel

/-! ## Libraries and data types -/

section
variable (hl : C.LoadersAgree ls ls')

include hC hl in
/-- Used libraries are loaded alike, one after the other. -/
theorem loadUses (entries : List (String × Node)) : ∀ (w : C.World), C.begun w path →
    ∀ known : Dict String Path,
    C.Agree w (Fragment.loadUses ls path known entries) (Fragment.loadUses ls' path known entries)
      fun _ a b => a = b := by
  induction entries with
  | nil => exact fun _ _ _ => .pure rfl
  | cons entry rest ih =>
    intro w hw known
    unfold Fragment.loadUses
    refine .check fun target _ => .see (fun s t hs => hC.follow hs target) fun p hp => ?_
    refine .bind (hl.library w p hp) fun w₁ _ _ hw₁ hlinked => ?_
    have hb₁ := C.begun_mono hw₁ hw
    refine .bind (hC.declareUse w₁ _ p hb₁ hlinked) fun w₂ _ _ hw₂ _ => ?_
    exact ih w₂ (C.begun_mono hw₂ hb₁) _

include hC hl in
/-- The libraries that a body names are loaded alike. -/
theorem loadUsesOf (w : C.World) (hw : C.begun w path) (body : Node) :
    C.Agree w (Fragment.loadUsesOf ls path body) (Fragment.loadUsesOf ls' path body)
      fun _ a b => a = b := by
  unfold Fragment.loadUsesOf
  split
  · exact .check fun entries _ => loadUses hC hl entries w hw []
  · exact .pure rfl

include hC hl in
/-- The types of a section are declared alike, and each is noted alike. -/
theorem types {note note' : String → ShapeId → Load Unit}
    (hn : ∀ w name i j, C.begun w path → C.ids w i j →
      C.Agree w (note name i) (note' name j) fun _ _ _ => True)
    (entries : List (String × Node)) : ∀ (w : C.World), C.begun w path →
    ∀ {known known' : Dict String ShapeId}, Dict.Rel (C.ids w) known known' →
    C.Agree w (Fragment.types ls path note known entries)
      (Fragment.types ls' path note' known' entries) fun w' => Dict.Rel (C.ids w') := by
  induction entries with
  | nil => exact fun _ _ _ _ h => .pure h
  | cons entry rest ih =>
    intro w hw known known' h
    unfold Fragment.types
    refine .bind (hC.toDeclares.build hl.dataType w hw _ _) fun w₁ i j hw₁ hij => ?_
    have hb₁ := C.begun_mono hw₁ hw
    refine .bind (hn w₁ entry.1 i j hb₁ (C.ids_of_fresh hij)) fun w₂ _ _ hw₂ _ => ?_
    refine ih w₂ (C.begun_mono hw₂ hb₁) (.put (h.mono fun _ _ hk => ?_) _ ?_)
    · exact C.ids_mono (le_trans hw₁ hw₂) hk
    · exact C.ids_mono hw₂ (C.ids_of_fresh hij)

/-- Related libraries whose annotations are not bound yet. -/
structure LibraryDraft (C : Comparison) (path : Path) (w : C.World) (a b : Library) : Prop where
  rest : b = { a with types := b.types, annotationTypes := b.annotationTypes }
  types : Dict.Rel (C.ids w) a.types b.types
  annotationTypes : Dict.Rel (C.ids w) a.annotationTypes b.annotationTypes
  unbound : Unbound a.annotations
  location : a.location = path

/-- Drafts of libraries stay related in later worlds. -/
theorem LibraryDraft.mono {w w' : C.World} (hw : w ≤ w') {a b : Library}
    (h : LibraryDraft C path w a b) : LibraryDraft C path w' a b :=
  { h with
    types := h.types.mono fun _ _ => C.ids_mono hw
    annotationTypes := h.annotationTypes.mono fun _ _ => C.ids_mono hw }

include hC hl in
/-- A section of a library is read alike. -/
theorem addSection (w : C.World) (hw : C.begun w path) {a b : Library}
    (h : LibraryDraft C path w a b) (key : String) (value : Node) :
    C.Agree w (Fragment.addSection ls path a key value) (Fragment.addSection ls' path b key value)
      (LibraryDraft C path) := by
  unfold Fragment.addSection
  split
  · exact .pure h
  · exact .check fun t _ => .pure
      { h with rest := congrArg (fun l : Library => { l with usage := some t }) h.rest }
  · refine .check fun entries _ => ?_
    refine .bind (types hC hl hC.declareType entries w hw h.types) fun w' ts ts' hw' hts => ?_
    exact .pure { h.mono hw' with
      rest := congrArg (fun l : Library => { l with types := ts' }) h.rest
      types := hts }
  · refine .check fun entries _ => ?_
    refine .bind (types hC hl hC.declareType entries w hw h.types) fun w' ts ts' hw' hts => ?_
    exact .pure { h.mono hw' with
      rest := congrArg (fun l : Library => { l with types := ts' }) h.rest
      types := hts }
  · refine .check fun entries _ => ?_
    refine .bind (types hC hl hC.declareAnnotationType entries w hw h.annotationTypes)
      fun w' ts ts' hw' hts => ?_
    exact .pure { h.mono hw' with
      rest := congrArg (fun l : Library => { l with annotationTypes := ts' }) h.rest
      annotationTypes := hts }
  · exact .bind (hC.report w _ nofun) fun w' _ _ hw' _ => .pure (h.mono hw')

include hC hl in
/-- The sections of a library are read alike, one after the other. -/
theorem addSections (sections : List (String × Node)) : ∀ (w : C.World), C.begun w path →
    ∀ {a b : Library}, LibraryDraft C path w a b →
    C.Agree w (Fragment.addSections ls path a sections) (Fragment.addSections ls' path b sections)
      (LibraryDraft C path) := by
  induction sections with
  | nil => exact fun _ _ _ _ h => .pure h
  | cons entry rest ih =>
    intro w hw a b h
    unfold Fragment.addSections
    split
    · refine .check fun u hu => ih w hw { h with
        rest := congrArg
          (fun l : Library => { l with annotations := Dict.put u.name u l.annotations }) h.rest
        unbound := h.unbound.put (unbound_of_readAnnotationUse hu) }
    · refine .bind (addSection hC hl w hw h entry.1 entry.2) fun w' a' b' hw' h' => ?_
      exact ih w' (C.begun_mono hw' hw) h'

include hC hl in
/-- Reading a library agrees. -/
theorem readLibrary (w : C.World) (hw : C.begun w path) (text : String) :
    C.Agree w (Fragment.readLibrary ls path text) (Fragment.readLibrary ls' path text)
      (LibraryRel C path) := by
  refine .check fun body _ => ?_
  refine .bind (loadUsesOf hC hl w hw body) ?_
  rintro w₁ uses _ hw₁ rfl
  have hb₁ := C.begun_mono hw₁ hw
  refine .check fun sections _ => ?_
  refine .bind (addSections hC hl sections w₁ hb₁ (a := ⟨path, none, [], [], uses, [], _⟩)
    ⟨rfl, .nil, .nil, List.forall_mem_nil _, rfl⟩) fun w₂ a b hw₂ h => ?_
  have hab : b.annotations = a.annotations := by rw [h.rest]
  rw [hab]
  refine .bind (bindAll hC a.annotations w₂ (C.begun_mono hw₂ hb₁) h.unbound) ?_
  rintro w₃ ⟨d, fault⟩ ⟨d', fault'⟩ hw₃ ⟨hd, rfl⟩
  cases fault with
  | some f => exact .fail f
  | none =>
    have h' := h.mono hw₃
    refine .pure ⟨⟨?_, h'.types, h'.annotationTypes, hd⟩, h.location⟩
    exact congrArg (fun l : Library => { l with annotations := d' }) h.rest

include hC hl in
/-- Reading a data type agrees. -/
theorem readDataType (w : C.World) (hw : C.begun w path) (text : String) :
    C.Agree w (Fragment.readDataType ls path text) (Fragment.readDataType ls' path text)
      (DataTypeRel C path) := by
  refine .check fun body _ => ?_
  refine .bind (loadUsesOf hC hl w hw body) ?_
  rintro w₁ uses _ hw₁ rfl
  refine .check fun cut _ => ?_
  have hb₁ := C.begun_mono hw₁ hw
  refine .bind (hC.toDeclares.build hl.dataType w₁ hb₁ _ _) fun w₂ i j hw₂ hij => ?_
  exact .pure ⟨⟨rfl, C.ids_of_fresh hij⟩, rfl⟩

include hC in
/-- A JSON schema is stored alike. -/
theorem readJson (w : C.World) (hw : C.begun w path) (text : String) :
    C.Agree w (Fragment.readJson path text) (Fragment.readJson path text) (DataTypeRel C path) := by
  unfold Fragment.readJson
  split
  · have new : (Shape.plain path.stem path .unknown (.json text)).IsNew (C.linked w) :=
      Shape.isNew_plain rfl
    have rel : (Shape.plain path.stem path .unknown (.json text)).Rel (C.ids w)
        (Shape.plain path.stem path .unknown (.json text)) :=
      ⟨rfl, .nil, .nil, .nil, .nil, .json text⟩
    refine .bind (hC.addShape w _ _ hw rel new rfl) fun w' i j _ hij => ?_
    exact .pure ⟨⟨rfl, C.ids_of_fresh hij⟩, rfl⟩
  · exact .fail _

include hC hl in
/-- The text of a data type is read alike, as a declaration or as a JSON schema. -/
theorem readDataTypeOrJson (w : C.World) (hw : C.begun w path) (text : String) (isJson : Bool) :
    C.Agree w (Fragment.readDataTypeOrJson ls path text isJson)
      (Fragment.readDataTypeOrJson ls' path text isJson) (DataTypeRel C path) := by
  unfold Fragment.readDataTypeOrJson
  split
  · exact readJson hC w hw text
  · exact readDataType hC hl w hw text

end

end Parses

/-- Reading a file and caching its fragment agrees if what is done before and after the reading keeps
stores related. -/
theorem Agree.reading {C : Comparison} {α β : Type} {w : C.World} {path : Path} {x : Load α}
    {y : Load β} {f : α → Fragment} {g : β → Fragment}
    (begins : ∀ {s t}, C.stores w s t → C.stores w (s.beginLoading path) (t.beginLoading path))
    (ends : ∀ {w' s t}, C.stores w' s t → C.stores w' (s.endLoading path) (t.endLoading path))
    (stops : ∀ {e s t}, C.stopped e s t → C.stopped e (s.endLoading path) (t.endLoading path))
    (caches : ∀ {w' s t a b}, C.stores w' s t → C.FragmentRel w' a b → a.location = path →
      C.stores w' (s.cacheFragment a) (t.cacheFragment b) ∧ Option.Rel (C.FragmentRel w')
        (Dict.find? path.key (s.cacheFragment a).fragments)
        (Dict.find? path.key (t.cacheFragment b).fragments))
    (hxy : C.Agree w x y fun w' a b => C.FragmentRel w' (f a) (g b) ∧ (f a).location = path) :
    C.Agree w (Fragment.reading path x f) (Fragment.reading path y g) C.FragmentRel := by
  have hwhile : C.Agree w (Load.whileLoading path x) (Load.whileLoading path y)
      fun w' a b => C.FragmentRel w' (f a) (g b) ∧ (f a).location = path := by
    intro s t h final
    have hends := hxy _ _ (begins h) (C.final_of_grows (Store.grows_of_endLoading _ path) final)
    rw [Load.whileLoading_apply, Load.whileLoading_apply]
    generalize x (s.beginLoading path) = r at hends ⊢
    generalize y (t.beginLoading path) = r' at hends ⊢
    cases hends with
    | ok le stores hq => exact .ok le (ends stores) hq
    | error e stopped => exact .error e (stops stopped)
    | excusedLeft h => exact .excusedLeft h _
    | ignoredRight h => exact .ignoredRight h _
  refine .bind hwhile fun w' a b _ ⟨hfg, location⟩ => ?_
  rintro s t h -
  obtain ⟨hcached, hfind⟩ := caches h hfg location
  rw [Load.cacheFragment_apply, Load.cacheFragment_apply, hfg.location, location]
  refine .ok le_rfl hcached ?_
  generalize Dict.find? path.key (s.cacheFragment (f a)).fragments = r at hfind ⊢
  generalize Dict.find? path.key (t.cacheFragment (g b)).fragments = r' at hfind ⊢
  cases hfind with
  | none => exact hfg
  | some hxy => exact hxy

/-- The cache and the reader agree. The files with `opened` are read during the runs. -/
structure Loads (C : Comparison) (opened : Path → Prop) : Prop where
  settings {w s t} : C.stores w s t → t.settings = s.settings
  files {w s t} : C.stores w s t → t.files = s.files
  parses (path : Path) : opened path → C.Parses path
  /-- A path is cached on both sides or on none, unless the second run must not read it, or only counts
  if it does not cache it. -/
  cached {w s t} (p : Path) : C.stores w s t →
    (Dict.find? (s.normalize p).key s.fragments = none ∧
      Dict.find? (s.normalize p).key t.fragments = none) ∨
    (∃ f g, Dict.find? (s.normalize p).key s.fragments = some f ∧
      Dict.find? (s.normalize p).key t.fragments = some g ∧ C.FragmentRel w f g) ∨
    (Dict.find? (s.normalize p).key t.fragments = none ∧
      s.normalize (s.normalize p) = s.normalize p ∧
      ∀ t', C.final t' → ¬ Dict.has (s.normalize p).key t'.reads) ∨
    (Dict.find? (s.normalize p).key t.fragments = none ∧
      s.normalize (s.normalize p) = s.normalize p ∧ (∀ e, C.ignored e) ∧
      ∀ t', C.final t' → ¬ Dict.has (s.normalize p).key t'.fragments)
  readFile {w s t} (p : Path) : C.stores w s t →
    Dict.find? (s.normalize p).key s.fragments = none →
    Dict.find? (s.normalize p).key t.fragments = none →
    C.final (Load.readFile .fragment (s.normalize p) t).2 →
    C.Ends w (fun _ a b => a = b ∧ opened (s.normalize p)) (Load.readFile .fragment (s.normalize p) s)
      (Load.readFile .fragment (s.normalize p) t)
  reading {α β : Type} (w : C.World) (path : Path) (x : Load α) (y : Load β) (f : α → Fragment)
    (g : β → Fragment) : opened path →
    (∀ w', w ≤ w' → C.begun w' path → C.Agree w' x y fun w'' a b =>
      C.FragmentRel w'' (f a) (g b) ∧ (f a).location = path) →
    C.Agree w (Fragment.reading path x f) (Fragment.reading path y g) C.FragmentRel
  loading {w s t} (p : Path) : C.stores w s t → t.isLoading p = s.isLoading p
  linked_of_loading {w s t} {p : Path} : C.stores w s t → C.target p → s.isLoading p → C.linked w p
  linked_of_cached {w s t} {p : Path} : C.stores w s t → C.target p →
    Dict.has (s.normalize p).key s.fragments → Dict.has (t.normalize p).key t.fragments →
    C.linked w p

namespace Loads

variable {C : Comparison} {opened : Path → Prop} (hC : C.Loads opened) {ls ls' : Loaders}

include hC in
/-- Related stores take the same files for JSON schemas. -/
theorem isJsonShorthand {w : C.World} {s t : Store} (h : C.stores w s t) (path : Path) :
    t.isJsonShorthand path = s.isJsonShorthand path := by
  rw [Store.isJsonShorthand, Store.isJsonShorthand, hC.settings h]

include hC in
/-- Paths are normalized alike in related stores. -/
theorem normalize {w : C.World} {s t : Store} (h : C.stores w s t) (path : Path) :
    t.normalize path = s.normalize path := by
  rw [Store.normalize, Store.normalize, hC.settings h]

/-- Related fragments are both libraries, or both are refused as such. -/
theorem expectLibrary {w : C.World} (path : Path) {f g : Fragment} (h : C.FragmentRel w f g) :
    C.Agree w (f.expectLibrary path) (g.expectLibrary path)
      fun w' a b => a.Rel (C.ids w') (C.bound w') b := by
  cases h with
  | library h => exact .pure h
  | dataType h => exact .fail _

/-- Related fragments are both data types, or both are refused as such. -/
theorem expectDataType {w : C.World} (path : Path) {f g : Fragment} (h : C.FragmentRel w f g) :
    C.Agree w (f.expectDataType path) (g.expectDataType path) fun w' a b => a.Rel (C.ids w') b := by
  cases h with
  | dataType h => exact .pure h
  | library h => exact .fail _

section
variable (hl : C.LoadersAgree ls ls')

include hC hl in
/-- The text of a library is parsed alike in an opened file. -/
theorem parseLibrary (w : C.World) {path : Path} (ho : opened path) (text : String) :
    C.Agree w (Fragment.parseLibrary ls path text) (Fragment.parseLibrary ls' path text)
      fun w' a b => a.Rel (C.ids w') (C.bound w') b := by
  refine .check fun _ _ => ?_
  have hread := hC.reading w path (Fragment.readLibrary ls path text)
    (Fragment.readLibrary ls' path text) .library .library ho fun w' _ hb =>
      ((hC.parses path ho).readLibrary hl w' hb text).imp
        fun _ _ _ _ h => ⟨.library h.1, h.2⟩
  exact .bind hread fun w' f g _ hfg => expectLibrary path hfg

include hC hl in
/-- The text of a data type is parsed alike in an opened file. -/
theorem parseDataType (w : C.World) {path : Path} (ho : opened path) (text : String) :
    C.Agree w (Fragment.parseDataType ls path text) (Fragment.parseDataType ls' path text)
      fun w' a b => a.Rel (C.ids w') b := by
  refine .see (P := fun _ => True) (fun s t h => ⟨hC.isJsonShorthand h path, trivial⟩)
    fun isJson _ => .check fun _ _ => ?_
  have hread := hC.reading w path (Fragment.readDataTypeOrJson ls path text isJson)
    (Fragment.readDataTypeOrJson ls' path text isJson) .dataType .dataType ho fun w' _ hb =>
      ((hC.parses path ho).readDataTypeOrJson hl w' hb text isJson).imp
        fun _ _ _ _ h => ⟨.dataType h.1, h.2⟩
  exact .bind hread fun w' f g _ hfg => expectDataType path hfg

end

/-- A file that is read has a count, whether the reading fails or not. -/
theorem has_reads_readFile (purpose : Purpose) (path : Path) (t : Store) :
    Dict.has path.key (Load.readFile purpose path t).2.reads := by
  have hread : Dict.has path.key (t.countRead purpose path).reads := by
    rw [Dict.has, Store.countRead, Dict.adjust, Dict.find?_put, if_pos rfl]
    rfl
  rw [Load.readFile, Load.change_bind, Load.ask_bind]
  split <;> exact hread

/-- A run that reads a file has read it in the end. -/
theorem has_reads_of_readFile {α : Type} (purpose : Purpose) (path : Path) (f : String → Load α)
    (t : Store) : Dict.has path.key ((Load.readFile purpose path >>= f) t).2.reads := by
  have h := has_reads_readFile purpose path t
  rw [Load.bind_apply]
  rcases hr : Load.readFile purpose path t with ⟨_ | text, t'⟩
  · rw [hr] at h
    exact h
  · rw [hr] at h
    exact ((f text).grows t').reads _ h

/-- The load of a file, if it begins in `t`, reads the file, and it caches the file if it succeeds. -/
structure Fetches {α : Type} (path : Path) (x : Load α) (t : Store) : Prop where
  reads : Dict.has path.key (x t).2.reads
  caches {a : α} {t' : Store} : x t = (.ok a, t') → Dict.has path.key t'.fragments

/-- Loading a library reads its file first. -/
theorem fetches_parseLibrary (ls : Loaders) (path : Path) (t : Store) :
    Fetches path (do Fragment.parseLibrary ls path (← Load.readFile .fragment path)) t where
  reads := has_reads_of_readFile _ path _ t
  caches h := by
    obtain ⟨text, u, -, h⟩ := Load.bind_eq_ok.1 h
    exact Dict.has_iff.2 ⟨_, Fragment.cached_of_parseLibrary ls h⟩

/-- Loading a data type reads its file first. -/
theorem fetches_parseDataType (ls : Loaders) (path : Path) (t : Store) :
    Fetches path (do Fragment.parseDataType ls path (← Load.readFile .fragment path)) t where
  reads := has_reads_of_readFile _ path _ t
  caches h := by
    obtain ⟨text, u, -, h⟩ := Load.bind_eq_ok.1 h
    exact Dict.has_iff.2 ⟨_, Fragment.cached_of_parseDataType ls h⟩

/-- What follows the load of a file does not take it back. -/
theorem Fetches.bind {α β : Type} {path : Path} {x : Load α} {t : Store} (h : Fetches path x t)
    (f : α → Load β) : Fetches path (x >>= f) t where
  reads := (x.grows_bind f t).reads _ h.reads
  caches hr := by
    obtain ⟨a, u, hx, hf⟩ := Load.bind_eq_ok.1 hr
    obtain ⟨g, hg⟩ := Dict.has_iff.1 (h.caches hx)
    exact Dict.has_iff.2 ⟨g, (Load.grows_of_apply hf).fragments _ g hg⟩

/-- Loading a fragment of an unknown kind reads its file first if it is not cached. -/
theorem fetches_readFragment (ls : Loaders) {path : Path} {t : Store}
    (ht : Dict.find? path.key t.fragments = none) (hn : t.normalize path = path) :
    Fetches path (Fragment.readFragment ls path) t := by
  have hrun : Fragment.readFragment ls path t = if t.isJsonShorthand path then
      (do return .dataType (← Fragment.dataTypeWith ls path) : Load Fragment) t
      else (do Fragment.parseText ls path (← Load.readFile .fragment path) : Load Fragment) t := by
    rw [Fragment.readFragment, Load.ask_bind]
    split <;> rfl
  cases hj : t.isJsonShorthand path with
  | true =>
    have hcache : Fragment.dataTypeWith ls path t =
        (do Fragment.parseDataType ls path (← Load.readFile .fragment path) : Load DataType) t := by
      rw [Fragment.dataTypeWith, Fragment.fromCache_apply, hn, ht]
    have hfetch : Fetches path (Fragment.dataTypeWith ls path) t := by
      obtain ⟨hreads, hcaches⟩ := fetches_parseDataType ls path t
      rw [← hcache] at hreads hcaches
      exact ⟨hreads, hcaches⟩
    obtain ⟨hreads, hcaches⟩ := hfetch.bind fun d => (pure (.dataType d) : Load Fragment)
    rw [hj, if_pos rfl] at hrun
    rw [← hrun] at hreads hcaches
    exact ⟨hreads, hcaches⟩
  | false =>
    rw [hj, if_neg Bool.false_ne_true] at hrun
    refine ⟨hrun ▸ has_reads_of_readFile _ path _ t, fun h => ?_⟩
    rw [hrun] at h
    obtain ⟨text, u, -, h⟩ := Load.bind_eq_ok.1 h
    unfold Fragment.parseText at h
    split at h
    · obtain ⟨l, v, hl, h⟩ := Load.bind_eq_ok.1 h
      cases h
      exact Dict.has_iff.2 ⟨_, Fragment.cached_of_parseLibrary ls hl⟩
    · obtain ⟨d, v, hd, h⟩ := Load.bind_eq_ok.1 h
      cases h
      exact Dict.has_iff.2 ⟨_, Fragment.cached_of_parseDataType ls hd⟩
    · cases h

include hC in
/-- Taking a fragment from the cache agrees if it does so where the fragment is cached and where it
is not. -/
theorem fromCache {α β : Type} {Q : C.World → α → β → Prop} (w : C.World) (p : Path)
    {hit : Path → Fragment → Load α} {hit' : Path → Fragment → Load β}
    {miss : Path → Load α} {miss' : Path → Load β}
    (hhit : ∀ path f g, C.FragmentRel w f g → C.Agree w (hit path f) (hit' path g) Q)
    (hmiss : ∀ s t, C.stores w s t → Dict.find? (s.normalize p).key s.fragments = none →
      Dict.find? (s.normalize p).key t.fragments = none → C.final (miss' (s.normalize p) t).2 →
      C.Ends w Q (miss (s.normalize p) s) (miss' (s.normalize p) t))
    (hfetches : ∀ t path, Dict.find? path.key t.fragments = none → t.normalize path = path →
      Fetches path (miss' path) t) :
    C.Agree w (Fragment.fromCache p hit miss) (Fragment.fromCache p hit' miss') Q := by
  intro s t hs ht
  rw [Fragment.fromCache_apply, hC.normalize hs] at ht
  rw [Fragment.fromCache_apply, Fragment.fromCache_apply, hC.normalize hs]
  rcases hC.cached p hs with ⟨hs', ht'⟩ | ⟨f, g, hs', ht', hfg⟩ | ⟨ht', hn, hnot⟩ |
    ⟨ht', hn, hignored, hnot⟩
  · rw [ht'] at ht
    rw [hs', ht']
    exact hmiss s t hs hs' ht' ht
  · rw [ht'] at ht
    rw [hs', ht']
    exact hhit _ f g hfg s t hs ht
  · rw [ht'] at ht
    rw [← hC.normalize hs] at hn
    exact absurd (hfetches t _ ht' hn).reads (hnot _ ht)
  · rw [ht'] at ht ⊢
    rw [← hC.normalize hs] at hn
    dsimp only at ht ⊢
    rcases hr : miss' (s.normalize p) t with ⟨e | b, t'⟩
    · exact .ignoredRight (hignored e) _
    · rw [hr] at ht
      exact absurd ((hfetches t _ ht' hn).caches hr) (hnot _ ht)

include hC in
/-- What follows the reading of a file that is not cached agrees if it does so for files that are
opened. -/
theorem readFile_bind {α β : Type} {Q : C.World → α → β → Prop} {w : C.World} {s t : Store}
    {p : Path} {f : String → Load α} {g : String → Load β}
    (h : ∀ w' text, w ≤ w' → opened (s.normalize p) → C.Agree w' (f text) (g text) Q)
    (hst : C.stores w s t) (hs : Dict.find? (s.normalize p).key s.fragments = none)
    (ht : Dict.find? (s.normalize p).key t.fragments = none)
    (final : C.final ((Load.readFile .fragment (s.normalize p) >>= g) t).2) :
    C.Ends w Q ((Load.readFile .fragment (s.normalize p) >>= f) s)
      ((Load.readFile .fragment (s.normalize p) >>= g) t) := by
  refine Agree.bind_at final (hC.readFile p hst hs ht) ?_
  rintro w' text _ hw' ⟨rfl, ho⟩
  exact h w' text hw' ho

section
variable (hl : C.LoadersAgree ls ls')

include hC hl in
/-- Loading a library agrees. -/
theorem libraryWith (w : C.World) (p : Path) :
    C.Agree w (Fragment.libraryWith ls p) (Fragment.libraryWith ls' p)
      fun w' a b => a.Rel (C.ids w') (C.bound w') b := by
  refine hC.fromCache w p (fun path _ _ h => expectLibrary path h) (fun s t => ?_)
    fun t path _ _ => fetches_parseLibrary ls' path t
  exact hC.readFile_bind fun w' text _ ho => parseLibrary hC hl w' ho text

include hC hl in
/-- Loading a data type agrees. -/
theorem dataTypeWith (w : C.World) (p : Path) :
    C.Agree w (Fragment.dataTypeWith ls p) (Fragment.dataTypeWith ls' p)
      fun w' a b => a.Rel (C.ids w') b := by
  refine hC.fromCache w p (fun path _ _ h => expectDataType path h) (fun s t => ?_)
    fun t path _ _ => fetches_parseDataType ls' path t
  exact hC.readFile_bind fun w' text _ ho => parseDataType hC hl w' ho text

include hC hl in
/-- A text is parsed alike, as a fragment of the kind that its header says. -/
theorem parseText (w : C.World) {path : Path} (ho : opened path) (text : String) :
    C.Agree w (Fragment.parseText ls path text) (Fragment.parseText ls' path text)
      C.FragmentRel := by
  unfold Fragment.parseText
  split
  · exact .bind (parseLibrary hC hl w ho text) fun _ _ _ _ h => .pure (.library h)
  · exact .bind (parseDataType hC hl w ho text) fun _ _ _ _ h => .pure (.dataType h)
  · exact .fail _

include hC hl in
/-- Loading a fragment agrees. -/
theorem fragmentWith (w : C.World) (p : Path) :
    C.Agree w (Fragment.fragmentWith ls p) (Fragment.fragmentWith ls' p) C.FragmentRel := by
  refine hC.fromCache w p (fun _ _ _ h => .pure h) ?_ fun t path => fetches_readFragment ls'
  intro s t hst hs ht final
  unfold Fragment.readFragment at final ⊢
  rw [Load.ask_bind, hC.isJsonShorthand hst] at final
  rw [Load.ask_bind, Load.ask_bind, hC.isJsonShorthand hst]
  cases hj : s.isJsonShorthand (s.normalize p) with
  | true =>
    rw [hj] at final
    exact Agree.bind (dataTypeWith hC hl w _) (fun _ _ _ _ h => .pure (.dataType h)) s t hst final
  | false =>
    rw [hj] at final
    exact hC.readFile_bind (fun w' text _ ho => parseText hC hl w' ho text) hst hs ht final

end

/-- After a load has succeeded, the file `p` is cached. -/
abbrev Caches (p : Path) (x : Load Unit) : Prop :=
  ∀ s s', x s = (.ok (), s') → Dict.has (s'.normalize p).key s'.fragments

/-- A library that has been loaded is cached. -/
theorem caches_library (n : Nat) (p : Path) : Caches p ((Fragment.loaders n).library p) := by
  intro s s' h
  rw [(Load.grows_of_apply h).normalize]
  obtain ⟨l, hl⟩ := Fragment.cachesLibraries_loaders n p s s' h
  exact Dict.has_iff.2 ⟨_, hl⟩

/-- A data type that has been loaded is cached. -/
theorem caches_dataType (n : Nat) (p : Path) : Caches p ((Fragment.loaders n).dataType p) := by
  cases n with
  | zero => exact nofun
  | succ n =>
    intro s s' h
    obtain ⟨d, t, hd, h⟩ := Load.bind_eq_ok.1 h
    cases h
    rw [(Load.grows_of_apply hd).normalize]
    exact Dict.has_iff.2 ⟨_, Fragment.cached_of_dataTypeWith hd⟩

include hC in
/-- What guards against loads in a circle agrees. -/
theorem unlessLoading (w : C.World) {p : Path} (hp : C.target p) {x y : Load Unit}
    (h : C.Agree w x y fun _ _ _ => True) (hx : Caches p x) (hy : Caches p y) :
    C.Agree w (Load.unlessLoading p x) (Load.unlessLoading p y) fun w' _ _ => C.linked w' p := by
  intro s t hs ht
  rw [Load.unlessLoading, Load.ask_bind] at ht ⊢
  rw [Load.unlessLoading, Load.ask_bind, hC.loading p hs] at *
  cases hi : s.isLoading p with
  | true => exact .ok le_rfl hs (hC.linked_of_loading hs hp hi)
  | false =>
    rw [hi] at ht
    have hxy := h s t hs ht
    have hxs := hx s
    have hyt := hy t
    show C.Ends w _ (x s) (y t)
    generalize x s = r at hxy hxs ⊢
    generalize y t = r' at hxy hyt ⊢
    cases hxy with
    | ok le hst _ => exact .ok le hst (hC.linked_of_cached hst hp (hxs _ rfl) (hyt _ rfl))
    | error _ stopped => exact .error _ stopped
    | excusedLeft he => exact .excusedLeft he _
    | ignoredRight he => exact .ignoredRight he _

include hC in
/-- The recursion over files agrees. -/
theorem loaders (n : Nat) : C.LoadersAgree (Fragment.loaders n) (Fragment.loaders n) := by
  have caches (p : Path) := And.intro (caches_library n p) (caches_dataType n p)
  cases n with
  | zero =>
    exact ⟨fun w p hp => hC.unlessLoading w hp .exhaust (caches p).1 (caches p).1,
      fun w p hp => hC.unlessLoading w hp .exhaust (caches p).2 (caches p).2⟩
  | succ n =>
    have ih := loaders n
    refine ⟨fun w p hp => hC.unlessLoading w hp ?_ (caches p).1 (caches p).1,
      fun w p hp => hC.unlessLoading w hp ?_ (caches p).2 (caches p).2⟩
    · exact .bind (libraryWith hC ih w p) fun _ _ _ _ _ => .pure trivial
    · exact .bind (dataTypeWith hC ih w p) fun _ _ _ _ _ => .pure trivial

/-! ## Loads at full depth -/

include hC in
/-- Loads that agree for all loaders agree for the loaders of the store. -/
theorem withLoaders {α β : Type} {Q : C.World → α → β → Prop} (w : C.World)
    {f : Loaders → Load α} {g : Loaders → Load β}
    (h : ∀ ls, C.LoadersAgree ls ls → C.Agree w (f ls) (g ls) Q) :
    C.Agree w (Load.withLoaders f) (Load.withLoaders g) Q :=
  .see (P := fun _ => True)
    (fun s t hs => ⟨by rw [Store.loadDepth, Store.loadDepth, hC.files hs], trivial⟩)
    fun n _ => h _ (hC.loaders n)

include hC in
/-- Loading a data type at full depth agrees. -/
theorem dataType (w : C.World) (p : Path) :
    C.Agree w (Load.dataType p) (Load.dataType p) fun w' a b => a.Rel (C.ids w') b :=
  hC.withLoaders w fun _ hl => dataTypeWith hC hl w p

include hC in
/-- Declaring at full depth agrees. -/
theorem declare {path : Path} (hp : C.Declares path) (w : C.World) (hw : C.begun w path)
    (name : String) (node : Node) :
    C.Agree w (Load.declare path name node) (Load.declare path name node) C.fresh :=
  hC.withLoaders w fun _ hl => hp.build hl.dataType w hw name node

include hC in
/-- Loading a fragment at full depth agrees. -/
theorem fragment (w : C.World) (p : Path) :
    C.Agree w (Load.fragment p) (Load.fragment p) C.FragmentRel := by
  exact hC.withLoaders w fun _ hl => fragmentWith hC hl w p

end Loads

end Comparison

end RamlTypes
