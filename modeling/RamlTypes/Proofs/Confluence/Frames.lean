import RamlTypes.Proofs.Cached
import RamlTypes.Proofs.NormalForm

/-!
# What the reading of a file leaves alone

While one file is read, others may be loaded inside. What has been stored before stays as it is, and
the new shapes lie in files whose loading had not begun (`Store.Frame`). What there is to be read
stays the same, too, since an example that is cached is the one that its path stands for
(`Store.sources`). For each file that has been loaded meanwhile there is a `FileReading`: the run
that has read it.
-/

namespace RamlTypes

namespace Store

/-- The loading of the file has begun. -/
def Begun (s : Store) (k : PathKey) : Prop := Dict.has k s.fragments ∨ k ∈ s.loading

/-- The same names are noted of the file in both stores. -/
structure SameNames (s t : Store) (k : PathKey) : Prop where
  named : Dict.find? k t.named = Dict.find? k s.named
  annotationTypes : Dict.find? k t.annotationTypes = Dict.find? k s.annotationTypes
  uses : Dict.find? k t.uses = Dict.find? k s.uses

/-- The same shapes are resolved or have failed in both stores, and annotations are bound up to the
same shape. -/
structure SameLists (s t : Store) : Prop where
  resolved : t.resolved = s.resolved
  failed : t.failed = s.failed
  annotationsBound : t.annotationsBound = s.annotationsBound

/-- The loading of all files that the store mentions has begun. -/
structure Tracked (settings : LoadSettings) (s : Store) : Prop where
  settings_eq : s.settings = settings
  locations : ∀ (i : ShapeId) (a : Shape), s.shapes[i]? = some a →
    a.location.IsNormal settings.root ∧ s.Begun a.location.key
  links : ∀ (i : ShapeId) (a : Shape) (p : Path), s.shapes[i]? = some a → a.link = some p →
    p.IsNormal settings.root ∧ s.Begun p.key
  named : ∀ k, Dict.has k s.named → s.Begun k
  annotationTypes : ∀ k, Dict.has k s.annotationTypes → s.Begun k
  uses : ∀ k d, Dict.find? k s.uses = some d → s.Begun k ∧
    ∀ n p, Dict.find? n d = some p → p.IsNormal settings.root ∧ s.Begun p.key

/-- A path that is in normal form already is left as it is. -/
theorem normalize_of_isNormal {settings : LoadSettings} {s : Store} {p : Path}
    (hs : s.settings = settings) (hp : p.IsNormal settings.root) : s.normalize p = p := by
  rw [Store.normalize, hs]
  exact hp

/-- The example that a path stands for: the one that is cached, or else that of the file. -/
def example? (s : Store) (p : Path) : Option ExampleFile :=
  (Dict.find? p.key s.examples).or
    ((s.files.read p).toOption.bind fun text => (ExampleFile.read p text).toOption)

/-- What reading takes from outside: the texts of the files, and the examples for normal paths. -/
structure Sources (settings : LoadSettings) where
  files : Files
  example? : (p : Path) → p.IsNormal settings.root → Option ExampleFile

/-- What there is to be read from a store. -/
def sources (settings : LoadSettings) (s : Store) : Sources settings :=
  ⟨s.files, fun p _ => s.example? p⟩

/-- The same sources have the same files. -/
theorem files_eq_of_sources {settings : LoadSettings} {s t : Store}
    (h : t.sources settings = s.sources settings) : t.files = s.files :=
  congrArg Sources.files h

/-- The same sources have the same examples. -/
theorem example?_eq_of_sources {settings : LoadSettings} {s t : Store} {p : Path}
    (h : t.sources settings = s.sources settings) (hp : p.IsNormal settings.root) :
    t.example? p = s.example? p :=
  congrArg (Sources.example? · p hp) h

end Store

open Store

/-- The reading of a file that started in the one store and has ended well in the other one. -/
inductive Fragment.Reads (depth : Nat) (path : Path) (start : Store) : Fragment → Store → Prop
  | library {text : String} {l : Library} {stop : Store} (file : start.files.read path = .ok text)
      (header : FragmentKind.library.checkHeader path text = .ok ())
      (read : readLibrary (loaders depth) path text start = (.ok l, stop)) :
      Reads depth path start (.library l) stop
  | dataType {text : String} {d : DataType} {stop : Store} (file : start.files.read path = .ok text)
      (header : start.isJsonShorthand path = false →
        FragmentKind.dataType.checkHeader path text = .ok ())
      (read : readDataTypeOrJson (loaders depth) path text (start.isJsonShorthand path) start =
        (.ok d, stop)) :
      Reads depth path start (.dataType d) stop

/-- A run that has read a file. -/
structure FileReading (settings : LoadSettings) where
  path : Path
  depth : Nat
  start : Store
  fragment : Fragment
  stop : Store
  reads : Fragment.Reads depth path start fragment stop
  normal : path.IsNormal settings.root
  tracked : start.Tracked settings
  loading : path.key ∈ start.loading
  uncached : ¬ Dict.has path.key start.fragments
  unlocated : ∀ (i : ShapeId) (a : Shape), start.shapes[i]? = some a → a.location.key ≠ path.key
  unnamed : ¬ Dict.has path.key start.named ∧ ¬ Dict.has path.key start.annotationTypes ∧
    ¬ Dict.has path.key start.uses

namespace Store

variable {settings : LoadSettings} {home : PathKey → Prop} {s t u : Store}

/-- In the store there is what the run has read, as it was in the end. -/
structure Has (s : Store) (r : FileReading settings) : Prop where
  sources : r.start.sources settings = s.sources settings
  shapes : ∀ (i : ShapeId) (a : Shape), a.location.key = r.path.key →
    (s.shapes[i]? = some a ↔ r.stop.shapes[i]? = some a)
  names : r.stop.SameNames s r.path.key
  fragment : Dict.find? r.path.key s.fragments = some r.fragment
  opened : ∀ k ∈ r.start.loading, s.Begun k
  cached : ∀ k, Dict.has k r.stop.fragments → Dict.has k s.fragments

/-- What has been stored before `s` stays as it is in `t`, and new shapes lie in the files `home` or
in such whose loading had not begun. -/
structure Frame (settings : LoadSettings) (home : PathKey → Prop) (s t : Store) : Prop where
  sources : t.sources settings = s.sources settings
  loading : t.loading = s.loading
  lists : s.SameLists t
  fragments : ∀ k f, Dict.find? k s.fragments = some f → Dict.find? k t.fragments = some f
  uncached : ∀ k, s.Begun k → Dict.has k t.fragments → Dict.has k s.fragments
  size_le : s.shapes.size ≤ t.shapes.size
  old : ∀ i < s.shapes.size, t.shapes[i]? = s.shapes[i]?
  new : ∀ (i : ShapeId) (a : Shape), s.shapes.size ≤ i → t.shapes[i]? = some a →
    home a.location.key ∨ ¬ s.Begun a.location.key
  names : ∀ k, s.Begun k → (home k → Dict.has k s.fragments) → s.SameNames t k
  tracked : t.Tracked settings
  readings : ∀ k, Dict.has k t.fragments → ¬ Dict.has k s.fragments →
    ∃ r : FileReading settings, r.path.key = k ∧ t.Has r ∧
      ∀ l, Dict.has l s.fragments → Dict.has l r.start.fragments

/-- The same is noted of a file in one and the same store. -/
theorem SameNames.refl (s : Store) (k : PathKey) : s.SameNames s k := ⟨rfl, rfl, rfl⟩

/-- What stays noted twice stays noted. -/
theorem SameNames.trans {k : PathKey} (h : s.SameNames t k) (h' : t.SameNames u k) :
    s.SameNames u k :=
  ⟨h'.named.trans h.named, h'.annotationTypes.trans h.annotationTypes, h'.uses.trans h.uses⟩

/-- No change leaves the lists. -/
theorem SameLists.refl (s : Store) : s.SameLists s := ⟨rfl, rfl, rfl⟩

/-- Two changes that leave the lists leave them together. -/
theorem SameLists.trans (h : s.SameLists t) (h' : t.SameLists u) : s.SameLists u :=
  ⟨h'.resolved.trans h.resolved, h'.failed.trans h.failed,
    h'.annotationsBound.trans h.annotationsBound⟩

namespace Frame

/-- Cached files stay cached. -/
theorem has (h : Frame settings home s t) {k : PathKey} (hk : Dict.has k s.fragments) :
    Dict.has k t.fragments := by
  obtain ⟨f, hf⟩ := Dict.has_iff.1 hk
  exact Dict.has_iff.2 ⟨f, h.fragments k f hf⟩

/-- Files that are begun stay begun. -/
theorem begun (h : Frame settings home s t) {k : PathKey} (hk : s.Begun k) : t.Begun k :=
  hk.imp h.has fun hl => h.loading ▸ hl

/-- No change stays inside of any files. -/
theorem refl (h : s.Tracked settings) : Frame settings home s s where
  sources := rfl
  loading := rfl
  lists := .refl s
  fragments _ _ h := h
  uncached _ _ h := h
  size_le := Nat.le_refl _
  old _ _ := rfl
  new _ _ hi ha := absurd (Array.getElem?_eq_some_iff.1 ha).1 (Nat.not_lt_of_le hi)
  names k _ _ := .refl s k
  tracked := h
  readings _ hk hn := absurd hk hn

/-- Loading further files leaves what a run has read. -/
theorem keepsHas (h : Frame settings (fun _ => False) s t) {r : FileReading settings}
    (hr : s.Has r) : t.Has r where
  sources := hr.sources.trans h.sources.symm
  shapes i a ha := by
    have hbegun : s.Begun r.path.key := .inl (Dict.has_iff.2 ⟨_, hr.fragment⟩)
    rw [← hr.shapes i a ha]
    rcases Nat.lt_or_ge i s.shapes.size with hi | hi
    · rw [h.old i hi]
    · refine ⟨fun hta => ?_, fun hsa => ?_⟩
      · rcases h.new i a hi hta with hhome | hnot
        · exact hhome.elim
        · exact absurd hbegun (ha ▸ hnot)
      · exact absurd (Array.getElem?_eq_some_iff.1 hsa).1 (Nat.not_lt_of_le hi)
  names := hr.names.trans (h.names _ (.inl (Dict.has_iff.2 ⟨_, hr.fragment⟩)) nofun)
  fragment := h.fragments _ _ hr.fragment
  opened k hk := h.begun (hr.opened k hk)
  cached k hk := h.has (hr.cached k hk)

/-- Further files are loaded. -/
theorem trans (h : Frame settings home s t) (h' : Frame settings (fun _ => False) t u) :
    Frame settings home s u where
  sources := h'.sources.trans h.sources
  loading := h'.loading.trans h.loading
  lists := h.lists.trans h'.lists
  fragments k f hf := h'.fragments k f (h.fragments k f hf)
  uncached k hk hu := h.uncached k hk (h'.uncached k (h.begun hk) hu)
  size_le := Nat.le_trans h.size_le h'.size_le
  old i hi := (h'.old i (Nat.lt_of_lt_of_le hi h.size_le)).trans (h.old i hi)
  new i a hi ha := by
    rcases Nat.lt_or_ge i t.shapes.size with hlt | hge
    · exact h.new i a hi (h'.old i hlt ▸ ha)
    · exact .inr fun hb => (h'.new i a hge ha).resolve_left nofun (h.begun hb)
  names k hk hhome := (h.names k hk hhome).trans (h'.names k (h.begun hk) nofun)
  tracked := h'.tracked
  readings k hk hn := by
    by_cases ht : Dict.has k t.fragments
    · obtain ⟨r, hr, hhas, hbase⟩ := h.readings k ht hn
      exact ⟨r, hr, h'.keepsHas hhas, hbase⟩
    · obtain ⟨r, hr, hhas, hbase⟩ := h'.readings k hk ht
      exact ⟨r, hr, hhas, fun l hl => hbase l (h.has hl)⟩

end Frame

/-! ## A file that is loaded -/

section
variable {path : Path} {f : Fragment} {depth : Nat}

/-- The store in which the reading of a file begins, after its text was fetched. -/
abbrev opening (s : Store) (path : Path) : Store := (s.countRead .fragment path).beginLoading path

/-- The store after a file was read and its fragment was cached. -/
abbrev closing (t : Store) (path : Path) (f : Fragment) : Store :=
  (t.endLoading path).cacheFragment f

/-- Opening a file keeps the store tracked. -/
theorem Tracked.opening (h : s.Tracked settings) (path : Path) :
    (s.opening path).Tracked settings := by
  have hbegun {k : PathKey} (hk : s.Begun k) : (s.opening path).Begun k :=
    hk.imp id (List.mem_cons_of_mem _)
  exact
  { settings_eq := h.settings_eq
    locations := fun i a ha => (h.locations i a ha).imp_right hbegun
    links := fun i a p ha hp => (h.links i a p ha hp).imp_right hbegun
    named := fun k hk => hbegun (h.named k hk)
    annotationTypes := fun k hk => hbegun (h.annotationTypes k hk)
    uses := fun k d hd => ⟨hbegun (h.uses k d hd).1, fun n p hp =>
      ((h.uses k d hd).2 n p hp).imp_right hbegun⟩ }

/-- A file is read whose loading has not begun. -/
def readingOf (h : s.Tracked settings) (hp : path.IsNormal settings.root)
    (hnot : ¬ s.Begun path.key)
    (hreads : Fragment.Reads depth path (s.opening path) f t) : FileReading settings where
  path := path
  depth := depth
  start := s.opening path
  fragment := f
  stop := t
  reads := hreads
  normal := hp
  tracked := h.opening path
  loading := List.mem_cons_self
  uncached hc := hnot (.inl hc)
  unlocated i a ha hk := hnot (hk ▸ (h.locations i a ha).2)
  unnamed := by
    refine ⟨fun hk => hnot (h.named _ hk), fun hk => hnot (h.annotationTypes _ hk), fun hk => ?_⟩
    obtain ⟨d, hd⟩ := Dict.has_iff.1 hk
    exact hnot (h.uses _ d hd).1

/-- Closing a file adds its fragment, unless there is one for it. -/
theorem find?_closing (hf : f.location = path) (k : PathKey) :
    Dict.find? k (t.closing path f).fragments =
      (Dict.find? k t.fragments).or (if path.key = k then some f else none) := by
  rw [closing, cacheFragment, Dict.find?_putNew, hf]
  rfl

/-- Only the file that is closed is no longer being loaded. -/
theorem mem_loading_closing {k : PathKey} :
    k ∈ (t.closing path f).loading ↔ k ∈ t.loading ∧ k ≠ path.key := by
  show k ∈ t.loading.filter _ ↔ _
  rw [List.mem_filter, decide_eq_true_eq]

/-- Only the file that is closed becomes cached. -/
theorem has_closing (hf : f.location = path) {k : PathKey} :
    Dict.has k (t.closing path f).fragments ↔ Dict.has k t.fragments ∨ k = path.key := by
  rw [Dict.has, find?_closing hf, Option.isSome_or, Bool.or_eq_true, Dict.has]
  refine or_congr_right ?_
  split
  · next h => exact iff_of_true rfl h.symm
  · next h => exact iff_of_false Bool.false_ne_true fun hk => h hk.symm

/-- A file that is begun stays so when one is closed: it is being loaded before and cached after. -/
theorem begun_closing (hf : f.location = path) {k : PathKey} (hk : t.Begun k) :
    (t.closing path f).Begun k := by
  by_cases hp : k = path.key
  · exact .inl ((has_closing hf).2 (.inr hp))
  · exact hk.imp (fun h => (has_closing hf).2 (.inl h)) fun h => mem_loading_closing.2 ⟨h, hp⟩

/-- Closing a file keeps the store tracked. -/
theorem Tracked.closing (h : t.Tracked settings) (hf : f.location = path) :
    (t.closing path f).Tracked settings where
  settings_eq := h.settings_eq
  locations i a ha := (h.locations i a ha).imp_right (begun_closing hf)
  links i a p ha hp := (h.links i a p ha hp).imp_right (begun_closing hf)
  named k hk := begun_closing hf (h.named k hk)
  annotationTypes k hk := begun_closing hf (h.annotationTypes k hk)
  uses k d hd := ⟨begun_closing hf (h.uses k d hd).1, fun n p hp =>
    ((h.uses k d hd).2 n p hp).imp_right (begun_closing hf)⟩

/-- When a file has been read inside of the reading of others, and is cached, its loading leaves
what has been stored before. -/
theorem Frame.closing (h : s.Tracked settings) (hp : path.IsNormal settings.root)
    (hnot : ¬ s.Begun path.key) (hf : f.location = path)
    (hreads : Fragment.Reads depth path (s.opening path) f t)
    (ht : Frame settings (· = path.key) (s.opening path) t) :
    Frame settings (fun _ => False) s (t.closing path f) := by
  have hopening {k : PathKey} (hk : s.Begun k) : (s.opening path).Begun k :=
    hk.imp id (List.mem_cons_of_mem _)
  have hne {k : PathKey} (hk : s.Begun k) : k ≠ path.key := fun heq => hnot (heq ▸ hk)
  have hfound {k : PathKey} {g : Fragment} (hk : Dict.find? k t.fragments = some g) :
      Dict.find? k (t.closing path f).fragments = some g := by
    rw [find?_closing hf, hk, Option.some_or]
  have huncached : ¬ Dict.has path.key t.fragments := fun hc =>
    hnot (.inl (ht.uncached _ (.inr List.mem_cons_self) hc))
  exact
  { sources := ht.sources
    loading := by
      show t.loading.filter _ = _
      rw [ht.loading]
      show (path.key :: s.loading).filter _ = _
      rw [List.filter_cons_of_neg (by simp)]
      exact List.filter_eq_self.2 fun k hk => decide_eq_true (hne (.inr hk))
    lists := { ht.lists with }
    fragments := fun k g hg => hfound (ht.fragments k g hg)
    uncached := fun k hk hc =>
      ht.uncached k (hopening hk) (((has_closing hf).1 hc).resolve_right (hne hk))
    size_le := ht.size_le
    old := ht.old
    new := fun i a hi ha => .inr fun hb => by
      rcases ht.new i a hi ha with hhome | hnew
      · exact hnot (hhome ▸ hb)
      · exact hnew (hopening hb)
    names := fun k hk _ => { ht.names k (hopening hk) fun heq => absurd heq (hne hk) with }
    tracked := ht.tracked.closing hf
    readings := fun k hk hn => by
      rcases (has_closing hf).1 hk with hk | rfl
      · obtain ⟨r, hr, hhas, hbase⟩ := ht.readings k hk hn
        exact ⟨r, hr, { hhas with
          names := { hhas.names with }
          fragment := hfound hhas.fragment
          opened := fun l hl => begun_closing hf (hhas.opened l hl)
          cached := fun l hl => (has_closing hf).2 (.inl (hhas.cached l hl)) }, hbase⟩
      · refine ⟨readingOf h hp hnot hreads, rfl, ?_, fun _ hl => hl⟩
        exact
        { sources := ht.sources.symm
          shapes := fun _ _ _ => Iff.rfl
          names := ⟨rfl, rfl, rfl⟩
          fragment := by
            have hfind := find?_closing (t := t) hf path.key
            rw [Dict.find?_eq_none_iff.2 huncached, Option.none_or, if_pos rfl] at hfind
            exact hfind
          opened := fun l hl => begun_closing hf (.inr (ht.loading ▸ hl))
          cached := fun l hl => (has_closing hf).2 (.inl hl) } }

end

end Store

end RamlTypes
