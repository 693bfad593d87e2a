import RamlTypes.Proofs.Annotations.Binding
import RamlTypes.Proofs.Nesting

/-!
# What is read of a file, beside the store

While a file is read the store notes its aliases and names, and the fragment that is cached in the end
lists them again. A `Store.Recording` follows both: beside the store it has the contents that are read
so far of each file that is being read, and says what each step of reading a file has to keep. The walk
through the reading of a file is made here once (`Store.Recording.endsIn_readLibrary`), so what holds
of the contents and of the store is kept by the recursion over files (`Store.Recording.nesting`).
-/

namespace RamlTypes

/-- The names that a file declares, and its aliases. -/
structure Contents where
  types : Dict String ShapeId
  annotationTypes : Dict String ShapeId
  uses : Dict String Path

/-- Nothing has been recorded. -/
def Contents.empty : Contents := ⟨[], [], []⟩

/-- What a library has recorded. -/
def Library.contents (l : Library) : Contents := ⟨l.types, l.annotationTypes, l.uses⟩

namespace Fragment

/-- The contents of a fragment. A data type declares no names. -/
def contents : Fragment → Contents
  | library l => l.contents
  | dataType d => ⟨[], [], d.uses⟩

/-- The annotations of a fragment itself. Those of a data type belong to its shape. -/
def annotations : Fragment → Dict String AnnotationUse
  | library l => l.annotations
  | dataType _ => []

/-- The reports of the annotations of a fragment that have no type. -/
abbrev reports (f : Fragment) : List Diagnostic := AnnotationUse.reports f.location f.annotations

/-- The annotations that are read in a library are not bound yet. -/
theorem addSections_unbound (ls : Loaders) (path : Path) (sections : List (String × Node)) :
    ∀ l : Library, Unbound l.annotations →
    (addSections ls path l sections).Yields fun m => Unbound m.annotations := by
  induction sections with
  | nil => exact fun l h => .pure h
  | cons entry rest ih =>
    intro l h
    unfold addSections
    split
    · intro s m t hm
      obtain ⟨a, u, ha, hm⟩ := Load.bind_eq_ok.1 hm
      rcases hread : readAnnotationUse path _ entry.2 with f | a'
      all_goals rw [hread] at ha; cases ha
      exact ih _ (h.put (unbound_of_readAnnotationUse hread)) _ m t hm
    · refine .bind (addSection_keeps ls path l _ _) fun m hm => ih m ?_
      rw [hm.2.2]
      exact h

end Fragment

namespace Store

open Fragment

/-- The files that are being read, with what is read of each so far. -/
abbrev Drafts := List (PathKey × Contents)

/-- What holds while files are read, of the store and of the contents that are read so far. -/
structure Recording where
  settings : LoadSettings
  root : settings.root.isAbsolute
  goes : Drafts → Store → Prop
  stopped : Store → Prop
  settings_eq {ds s} : goes ds s → s.settings = settings
  loading_eq {ds s} : goes ds s → s.loading = ds.map (·.1)
  stopped_of_goes {ds s} : goes ds s → stopped s
  stopped_addReports {s} (reports : List Diagnostic) : stopped s → stopped (s.addReports reports)
  stopped_endLoading {s} (p : Path) : stopped s → stopped (s.endLoading p)
  declaring (ds) : KeptByDeclaring (goes ds)
  countRead {ds s} (purpose : Purpose) (p : Path) : goes ds s → goes ds (s.countRead purpose p)
  cacheExample {ds s} (p : Path) (e : ExampleFile) : goes ds s → goes ds (s.cacheExample p e)
  beginLoading {ds s} {path : Path} : goes ds s → path.key ∉ ds.map (·.1) →
    path.IsNormal settings.root → ¬ Dict.has path.key s.fragments →
    goes ((path.key, .empty) :: ds) (s.beginLoading path)
  /-- The file behind an alias is cached as a library, or it is being read. -/
  declareUse {ds s c} {path : Path} (name : String) {p : Path} : goes ((path.key, c) :: ds) s →
    path.key ∉ ds.map (·.1) →
    (∃ l, Dict.find? p.key s.fragments = some (.library l)) ∨ p.key ∈ s.loading →
    goes ((path.key, { c with uses := Dict.put name p c.uses }) :: ds) (s.declareUse path name p)
  declareType {ds s c} {path : Path} (name : String) (i : ShapeId) : goes ((path.key, c) :: ds) s →
    path.key ∉ ds.map (·.1) →
    goes ((path.key, { c with types := Dict.put name i c.types }) :: ds) (s.declareType path name i)
  declareAnnotationType {ds s c} {path : Path} (name : String) (i : ShapeId) :
    goes ((path.key, c) :: ds) s → path.key ∉ ds.map (·.1) →
    goes ((path.key, { c with annotationTypes := Dict.put name i c.annotationTypes }) :: ds)
      (s.declareAnnotationType path name i)
  /-- A fragment is cached when its own annotations are bound. -/
  cacheFragment {ds s} {f : Fragment} : goes ((f.location.key, f.contents) :: ds) s →
    f.location.key ∉ ds.map (·.1) → f.location.IsNormal settings.root →
    (∀ x ∈ f.annotations, x.2.IsBoundIn s f.location) →
    goes ds (((s.addReports f.reports).endLoading f.location).cacheFragment f)

/-- A library that is loaded unless its file is being read is cached, or its file is being read. -/
theorem hasLibrary_of_unlessLoading {ls : Loaders} {s t : Store} {p : Path}
    (hc : ls.CachesLibraries) (hp : s.normalize p = p)
    (h : Load.unlessLoading p (ls.library p) s = (.ok (), t)) :
    (∃ l, Dict.find? p.key t.fragments = some (.library l)) ∨ p.key ∈ t.loading := by
  rw [Load.unlessLoading, Load.ask_bind] at h
  cases hi : s.isLoading p with
  | true =>
    rw [hi] at h
    cases h
    exact .inr (by simpa [isLoading] using hi)
  | false =>
    rw [hi] at h
    obtain ⟨l, hl⟩ := hc p s t h
    rw [hp] at hl
    exact .inl ⟨l, hl⟩

namespace Recording

variable (R : Recording) {ds : Drafts} {s : Store} {path : Path} {ls : Loaders}

/-- A run in which files are being read. -/
abbrev stage (ds : Drafts) : Comparison :=
  withInvariants (R.goes ds) R.stopped (·.IsNormal R.settings.root) fun _ => R.stopped_of_goes

/-- An example that is read in does not matter. -/
theorem loadExample (p : Path) (h : R.goes ds s) :
    (loadExample p).EndsIn s (fun _ => R.goes ds) R.stopped :=
  endsIn_loadExample (fun _ => R.stopped_of_goes) p (fun h => R.countRead _ p h)
    (fun e h => R.cacheExample p e h) h

/-- Declarations record nothing. -/
theorem declares (ds : Drafts) (path : Path) : (R.stage ds).Declares path :=
  (R.declaring ds).declares_normal R.root R.settings_eq (fun p h => R.loadExample p h) path

section
variable {R} (hl : ∀ ds, (R.stage ds).LoadersAgree ls ls) (hc : ls.CachesLibraries)
  (ho : path.key ∉ ds.map (·.1))

include hl hc ho in
/-- Each alias that is read stands for a cached library or for a file that is being read. -/
theorem endsIn_loadUses (entries : List (String × Node)) : ∀ {known : Dict String Path} {s : Store},
    R.goes ((path.key, ⟨[], [], known⟩) :: ds) s →
    (loadUses ls path known entries).EndsIn s
      (fun uses => R.goes ((path.key, ⟨[], [], uses⟩) :: ds)) R.stopped := by
  induction entries with
  | nil => exact fun hs => .pure hs
  | cons entry rest ih =>
    intro known s hs
    refine .check (R.stopped_of_goes hs) fun target _ => .ask ?_
    have hnormal : (s.follow path target).IsNormal R.settings.root := by
      rw [follow, R.settings_eq hs]
      exact Path.follow_isNormal R.root path target
    have hload := keeps_of_agree ((hl _).library () _ hnormal) hs
    refine hload.bind_run fun _ t hrun ht => .change (ih (R.declareUse entry.1 ht ho ?_))
    refine hasLibrary_of_unlessLoading hc ?_ hrun
    rw [normalize, R.settings_eq hs]
    exact hnormal

include hl hc ho in
/-- The libraries that a body uses are recorded. -/
theorem endsIn_loadUsesOf (body : Node) (hs : R.goes ((path.key, .empty) :: ds) s) :
    (loadUsesOf ls path body).EndsIn s
      (fun uses => R.goes ((path.key, ⟨[], [], uses⟩) :: ds)) R.stopped := by
  unfold loadUsesOf
  split
  · exact .check (R.stopped_of_goes hs) fun entries _ => endsIn_loadUses hl hc ho entries hs
  · exact .pure hs

include hl in
/-- The names of a section are noted as they are added to its table. -/
theorem endsIn_types (table : Dict String ShapeId → Contents) {note : String → ShapeId → Load Unit}
    (hnote : ∀ known name i s, R.goes ((path.key, table known) :: ds) s →
      (note name i).EndsIn s
        (fun _ => R.goes ((path.key, table (Dict.put name i known)) :: ds)) R.stopped)
    (entries : List (String × Node)) : ∀ {known : Dict String ShapeId} {s : Store},
    R.goes ((path.key, table known) :: ds) s →
    (types ls path note known entries).EndsIn s
      (fun d => R.goes ((path.key, table d) :: ds)) R.stopped := by
  induction entries with
  | nil => exact fun hs => .pure hs
  | cons entry rest ih =>
    intro known s hs
    have hbuild := (R.declares ((path.key, table known) :: ds) path).build
      (hl _).dataType () trivial entry.1 entry.2
    refine (keeps_of_agree hbuild hs).bind fun i t ht => ?_
    exact (hnote known entry.1 i t ht).bind fun _ _ hu => ih hu

include hl ho in
/-- What a section declares is recorded. -/
theorem endsIn_addSection (l : Library) (key : String) (value : Node)
    (hs : R.goes ((path.key, l.contents) :: ds) s) :
    (addSection ls path l key value).EndsIn s
      (fun m => R.goes ((path.key, m.contents) :: ds)) R.stopped := by
  have hstop := R.stopped_of_goes hs
  have htypes (entries : List (String × Node)) :
      (types ls path (Fragment.declareType path) l.types entries).EndsIn s
        (fun d => R.goes ((path.key, { l.contents with types := d }) :: ds)) R.stopped := by
    refine endsIn_types hl (fun d => { l.contents with types := d }) (fun known name i t ht => ?_)
      entries hs
    exact .of_run_ok rfl (R.declareType name i ht ho)
  have hannotationTypes (entries : List (String × Node)) :
      (types ls path (Fragment.declareAnnotationType path) l.annotationTypes entries).EndsIn s
        (fun d => R.goes ((path.key, { l.contents with annotationTypes := d }) :: ds)) R.stopped := by
    refine endsIn_types hl (fun d => { l.contents with annotationTypes := d })
      (fun known name i t ht => ?_) entries hs
    exact .of_run_ok rfl (R.declareAnnotationType name i ht ho)
  unfold addSection
  split
  · exact .pure hs
  · exact .check hstop fun _ _ => .pure hs
  · exact .check hstop fun entries _ => (htypes entries).bind fun _ _ ht => .pure ht
  · exact .check hstop fun entries _ => (htypes entries).bind fun _ _ ht => .pure ht
  · exact .check hstop fun entries _ => (hannotationTypes entries).bind fun _ _ ht => .pure ht
  · exact .change (.pure ((R.declaring _).report _ nofun hs))

include hl ho in
/-- The sections of a library note the names that they add to its tables. -/
theorem endsIn_addSections (sections : List (String × Node)) : ∀ (l : Library) {s : Store},
    R.goes ((path.key, l.contents) :: ds) s →
    (addSections ls path l sections).EndsIn s
      (fun m => R.goes ((path.key, m.contents) :: ds)) R.stopped := by
  induction sections with
  | nil => exact fun _ _ hs => .pure hs
  | cons entry rest ih =>
    intro l s hs
    unfold addSections
    split
    · exact .check (R.stopped_of_goes hs) fun a _ => ih _ hs
    · exact (endsIn_addSection hl ho l _ _ hs).bind fun m _ ht => ih m ht

/-- Before its annotations were bound, the contents of the fragment were those that were read. -/
def IsRead (R : Recording) (ds : Drafts) (f : Fragment) (t : Store) : Prop :=
  ∃ u, R.goes ((f.location.key, f.contents) :: ds) u ∧
    (∀ x ∈ f.annotations, x.2.IsBoundIn u f.location) ∧ t = u.addReports f.reports

include hl hc ho in
/-- When a library is read, its contents are noted, and its own annotations are bound at last. -/
theorem endsIn_readLibrary (text : String) (hs : R.goes ((path.key, .empty) :: ds) s) :
    (readLibrary ls path text).EndsIn s (fun l => R.IsRead ds (.library l)) R.stopped := by
  refine .check (R.stopped_of_goes hs) fun body _ => ?_
  refine (endsIn_loadUsesOf hl hc ho body hs).bind fun uses t ht => ?_
  refine .check (R.stopped_of_goes ht) fun sections _ => ?_
  let start : Library := ⟨path, none, [], [], uses, [], Sha256.ofText text⟩
  have hunbound := addSections_unbound ls path sections start (List.forall_mem_nil _)
  have hkeeps := addSections_keeps ls path sections start
  refine (endsIn_addSections hl ho sections start ht).bind_run fun l u hrun hu => ?_
  obtain ⟨d, fault, reports, hbind, hbound⟩ :=
    @AnnotationUse.exists_bindAll path l.annotations u (hunbound _ _ _ hrun)
  have hlocation : path = l.location := (hkeeps _ _ _ hrun).1.symm
  refine Load.EndsIn.bind (.of_run_ok hbind ⟨rfl, rfl⟩) ?_ (P := fun r t => r = (d, fault) ∧ t = _)
  rintro _ _ ⟨rfl, rfl⟩
  cases fault with
  | some f => exact .stop (R.stopped_addReports reports (R.stopped_of_goes hu))
  | none =>
    obtain ⟨hbounds, rfl⟩ := hbound rfl
    subst hlocation
    exact .pure ⟨u, hu, hbounds, rfl⟩

include hl hc ho in
/-- A data type declares no names. -/
theorem endsIn_readDataTypeOrJson (text : String) (isJson : Bool)
    (hs : R.goes ((path.key, .empty) :: ds) s) :
    (readDataTypeOrJson ls path text isJson).EndsIn s (fun d => R.IsRead ds (.dataType d))
      R.stopped := by
  have read {t : Store} (d : DataType) (ht : R.goes ((d.location.key, ⟨[], [], d.uses⟩) :: ds) t) :
      R.IsRead ds (.dataType d) t := ⟨t, ht, List.forall_mem_nil _, t.addReports_nil.symm⟩
  unfold readDataTypeOrJson
  split
  · unfold readJson
    split
    · have new : (Shape.plain path.stem path .unknown (.json text)).IsNew fun _ => True :=
        Shape.isNew_plain rfl
      have hadd := (R.declares ((path.key, .empty) :: ds) path).addShape () _ _ trivial (.same _)
        new rfl
      exact (keeps_of_agree hadd hs).bind fun _ _ ht => .pure (read _ ht)
    · exact .stop (R.stopped_of_goes hs)
  · refine .check (R.stopped_of_goes hs) fun body _ => ?_
    refine (endsIn_loadUsesOf hl hc ho body hs).bind fun uses t ht => ?_
    refine .check (R.stopped_of_goes ht) fun cut _ => ?_
    have hbuild := (R.declares ((path.key, ⟨[], [], uses⟩) :: ds) path).build (hl _).dataType ()
      trivial path.stem (Node.mapping cut.2 body.mark false)
    exact (keeps_of_agree hbuild ht).bind fun _ _ hu => .pure (read _ hu)

/-- A fragment that was read is cached. -/
theorem endsIn_reading {α : Type} {x : Load α} {f : α → Fragment} (ho : path.key ∉ ds.map (·.1))
    (hnormal : path.IsNormal R.settings.root) (hc : ¬ Dict.has path.key s.fragments)
    (hs : R.goes ds s) (location : x.Yields fun a => (f a).location = path)
    (hx : ∀ s, R.goes ((path.key, .empty) :: ds) s →
      x.EndsIn s (fun a => R.IsRead ds (f a)) R.stopped) :
    (Fragment.reading path x f).EndsIn s (fun _ => R.goes ds) R.stopped := by
  refine Store.endsIn_reading ((hx _ (R.beginLoading hs ho hnormal hc)).and_yields location) ?_
    fun t ht => R.stopped_endLoading path ht
  rintro a _ ⟨rfl, u, hu, hbound, rfl⟩
  exact R.cacheFragment hu ho hnormal hbound

end

/-- What is recorded is kept by the recursion over files. -/
def nesting : Nesting Drafts where
  settings := R.settings
  opened ds := ds.map (·.1)
  goes := R.goes
  fetched ds path s :=
    R.goes ds s ∧ path.IsNormal R.settings.root ∧ ¬ Dict.has path.key s.fragments
  stopped := R.stopped
  root := R.root
  settings_eq := R.settings_eq
  loading_eq := R.loading_eq
  stopped_of_goes := R.stopped_of_goes
  stopped_of_fetched h := R.stopped_of_goes h.1
  declaring := R.declaring
  loadExample := R.loadExample
  fetch h hnormal hc _ := by
    refine .change (.ask ?_)
    split
    · exact .pure ⟨R.countRead _ _ h, hnormal, hc⟩
    · exact .stop (R.stopped_of_goes (R.countRead _ _ h))
  library text hl hc ho h := endsIn_reading ho h.2.1 h.2.2 h.1 (readLibrary_location _ _ text)
    fun _ hs => endsIn_readLibrary hl hc ho text hs
  dataType text isJson hl hc ho h := endsIn_reading ho h.2.1 h.2.2 h.1
    (readDataTypeOrJson_location _ _ text isJson)
    fun _ hs => endsIn_readDataTypeOrJson hl hc ho text isJson hs

end Recording

end Store

end RamlTypes
