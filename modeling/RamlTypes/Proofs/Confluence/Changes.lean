import RamlTypes.Proofs.Confluence.Frames
import RamlTypes.Proofs.Relation.Declaration

/-!
# Changes that reading a file makes

Reading the declarations of a file changes the shapes that lie in the file, and what is noted of it.
Everything else stays as it is (`Store.Frame.change`). The shapes that are stored meanwhile are
those of the file above a number (`Store.within`).
-/

namespace RamlTypes.Store

variable {settings : LoadSettings} {home : PathKey → Prop} {s t u : Store} {k : PathKey}

/-! ## Changes that do not matter -/

/-- The stores have the same shapes and the same fragments, and the same is noted of each file. -/
structure Still (s t : Store) : Prop where
  shapes : t.shapes = s.shapes
  fragments : t.fragments = s.fragments
  named : t.named = s.named
  annotationTypes : t.annotationTypes = s.annotationTypes
  uses : t.uses = s.uses
  loading : t.loading = s.loading

/-- The stores differ in counts, work lists and reports only. -/
structure Calm (s t : Store) : Prop extends Still s t where
  settings : t.settings = s.settings
  files : t.files = s.files
  examples : t.examples = s.examples
  lists : s.SameLists t

/-- A still change after a still change is one. -/
theorem Still.trans (h : s.Still t) (h' : t.Still u) : s.Still u :=
  ⟨h'.shapes.trans h.shapes, h'.fragments.trans h.fragments, h'.named.trans h.named,
    h'.annotationTypes.trans h.annotationTypes, h'.uses.trans h.uses, h'.loading.trans h.loading⟩

/-- No change at all is calm. -/
theorem Calm.refl (s : Store) : s.Calm s :=
  ⟨⟨rfl, rfl, rfl, rfl, rfl, rfl⟩, rfl, rfl, rfl, ⟨rfl, rfl, rfl⟩⟩

/-- A calm change after a calm change is one. -/
theorem Calm.trans (h : s.Calm t) (h' : t.Calm u) : s.Calm u :=
  ⟨h.toStill.trans h'.toStill, h'.settings.trans h.settings, h'.files.trans h.files,
    h'.examples.trans h.examples, h.lists.trans h'.lists⟩

/-- After a calm change the same files and examples are there to be read. -/
theorem Calm.sources (h : s.Calm t) (settings : LoadSettings) :
    t.sources settings = s.sources settings := by
  rw [Store.sources, Store.sources, h.files]
  simp only [example?, h.files, h.examples]

/-- A still change begins the loading of no file. -/
theorem Still.begun (h : s.Still t) : t.Begun k ↔ s.Begun k := by
  rw [Begun, Begun, h.fragments, h.loading]

/-- A still change notes nothing new of a file. -/
theorem Still.sameNames (h : s.Still t) (k : PathKey) : s.SameNames t k :=
  ⟨by rw [h.named], by rw [h.annotationTypes], by rw [h.uses]⟩

/-- A calm change brings in no file whose loading has not begun. -/
theorem Tracked.calm (h : s.Tracked settings) (hc : s.Calm t) : t.Tracked settings where
  settings_eq := hc.settings.trans h.settings_eq
  locations i a ha := (h.locations i a (hc.shapes ▸ ha)).imp_right hc.begun.2
  links i a p ha hp := (h.links i a p (hc.shapes ▸ ha) hp).imp_right hc.begun.2
  named k hk := hc.begun.2 (h.named k (hc.named ▸ hk))
  annotationTypes k hk := hc.begun.2 (h.annotationTypes k (hc.annotationTypes ▸ hk))
  uses k d hd :=
    have hall := h.uses k d (hc.uses ▸ hd)
    ⟨hc.begun.2 hall.1, fun n p hp => (hall.2 n p hp).imp_right hc.begun.2⟩

/-- Nor does the change of a shape that leaves its place and its link. -/
theorem Tracked.mapShape (h : s.Tracked settings) (i : ShapeId) {f : Shape → Shape}
    (hf : ∀ a, (f a).location = a.location ∧ (f a).link = a.link) :
    (s.mapShape i f).Tracked settings :=
  { h with
    locations := fun j b hb => by
      rcases cases_of_mapShape hb with ⟨rfl, c, hc, rfl⟩ | hb
      · exact (hf c).1 ▸ h.locations i c hc
      · exact h.locations j b hb
    links := fun j b p hb hp => by
      rcases cases_of_mapShape hb with ⟨rfl, c, hc, rfl⟩ | hb
      · exact h.links i c p hc ((hf c).2 ▸ hp)
      · exact h.links j b p hb hp }

/-! ## Changes of a file -/

/-- The files that are begun are those that are cached or being loaded. -/
theorem begun_congr (hf : t.fragments = s.fragments) (hl : t.loading = s.loading) :
    t.Begun k ↔ s.Begun k := by
  rw [Begun, Begun, hf, hl]

/-- The store `t'` differs from `t` in the shapes of the file `k` and in what is noted of it. -/
structure Changes (settings : LoadSettings) (k : PathKey) (t t' : Store) : Prop where
  sources : t'.sources settings = t.sources settings
  loading : t'.loading = t.loading
  lists : t.SameLists t'
  fragments : t'.fragments = t.fragments
  size_le : t.shapes.size ≤ t'.shapes.size
  shapes : ∀ (i : ShapeId) (a : Shape), a.location.key ≠ k →
    (t'.shapes[i]? = some a ↔ t.shapes[i]? = some a)
  names : ∀ l, l ≠ k → t.SameNames t' l

/-- A calm change is one that the reading of any file could have made. -/
theorem Calm.changes (h : s.Calm t) (settings : LoadSettings) (k : PathKey) :
    Changes settings k s t where
  sources := h.sources settings
  loading := h.loading
  lists := h.lists
  fragments := h.fragments
  size_le := h.shapes ▸ Nat.le_refl _
  shapes i a _ := by rw [h.shapes]
  names l _ := h.sameNames l

/-- Reading the declarations of a file changes only what belongs to it. -/
theorem Frame.change {t' : Store} (h : Frame settings home s t) (hk : s.Begun k) (hhome : home k)
    (hc : Changes settings k t t') (hold : ∀ i < s.shapes.size, t'.shapes[i]? = t.shapes[i]?)
    (hnames : Dict.has k s.fragments → t.SameNames t' k) (htracked : t'.Tracked settings) :
    Frame settings home s t' where
  sources := hc.sources.trans h.sources
  loading := hc.loading.trans h.loading
  lists := h.lists.trans hc.lists
  fragments l f hf := hc.fragments ▸ h.fragments l f hf
  uncached l hl ht := h.uncached l hl (hc.fragments ▸ ht)
  size_le := Nat.le_trans h.size_le hc.size_le
  old i hi := (hold i hi).trans (h.old i hi)
  new i a hi ha := by
    by_cases hak : a.location.key = k
    · exact .inl (hak ▸ hhome)
    · exact h.new i a hi ((hc.shapes i a hak).1 ha)
  names l hl hcached := by
    refine (h.names l hl hcached).trans ?_
    by_cases hlk : l = k
    · exact hlk ▸ hnames (hlk ▸ hcached (hlk ▸ hhome))
    · exact hc.names l hlk
  tracked := htracked
  readings l hl hn := by
    rw [hc.fragments] at hl
    obtain ⟨r, rfl, hhas, hbase⟩ := h.readings l hl hn
    have hne : r.path.key ≠ k := fun heq => hn (h.uncached _ (heq ▸ hk) hl)
    have hbegun {m : PathKey} (hm : t.Begun m) : t'.Begun m :=
      (begun_congr hc.fragments hc.loading).2 hm
    refine ⟨r, rfl, ?_, hbase⟩
    exact
    { sources := hhas.sources.trans hc.sources.symm
      shapes := fun i a ha => (hc.shapes i a (ha ▸ hne)).trans (hhas.shapes i a ha)
      names := hhas.names.trans (hc.names _ hne)
      fragment := hc.fragments ▸ hhas.fragment
      opened := fun m hm => hbegun (hhas.opened m hm)
      cached := fun m hm => hc.fragments ▸ hhas.cached m hm }

/-- Changes of counts, work lists and reports. -/
theorem Frame.calm {t' : Store} (h : Frame settings home s t) (hk : s.Begun k) (hhome : home k)
    (hc : t.Calm t') : Frame settings home s t' :=
  h.change hk hhome (hc.changes settings k) (fun i _ => by rw [hc.shapes]) (fun _ => hc.sameNames k)
    (h.tracked.calm hc)

/-- Caching the example of a path leaves what the paths stand for. -/
theorem sources_cacheExample (hroot : settings.root.isAbsolute) {p : Path} {e : ExampleFile}
    (hp : p.IsNormal settings.root) (he : s.example? p = some e) :
    (s.cacheExample p e).sources settings = s.sources settings := by
  refine congrArg (Sources.mk s.files) (funext fun q => funext fun hq => ?_)
  show (s.cacheExample p e).example? q = s.example? q
  by_cases hkey : p.key = q.key
  · obtain rfl := hp.eq_of_components hroot hq hkey
    rw [he, example?, Store.cacheExample, Dict.find?_putNew, if_pos rfl]
    rcases hfind : Dict.find? p.key s.examples with _ | x
    · rfl
    · rw [example?, hfind, Option.some_or] at he
      cases he
      rfl
  · rw [example?, example?, Store.cacheExample, Dict.find?_putNew, if_neg hkey, Option.or_none]

section
variable (h : Frame settings home s t) (hk : s.Begun k) (hhome : home k)
include h hk hhome

/-- A shape of the file is stored. -/
theorem Frame.addShape {a : Shape} (hnormal : a.location.IsNormal settings.root)
    (ha : a.location.key = k)
    (hlink : ∀ p, a.link = some p → p.IsNormal settings.root ∧ t.Begun p.key) :
    Frame settings home s (t.addShape a) := by
  refine h.change hk hhome ⟨rfl, rfl, ⟨rfl, rfl, rfl⟩, rfl, ?_, fun i b hb => ?_,
    fun l _ => ⟨rfl, rfl, rfl⟩⟩ ?_ (fun _ => ⟨rfl, rfl, rfl⟩) ?_
  · exact (t.grows_addShape a).size_le
  · rw [getElem?_addShape]
    split
    · next hi =>
      refine iff_of_false (fun heq => ?_) fun hib => ?_
      · cases heq
        exact hb ha
      · exact Nat.lt_irrefl _ (hi ▸ (Array.getElem?_eq_some_iff.1 hib).1)
    · rfl
  · intro i hi
    rw [getElem?_addShape, if_neg (Nat.ne_of_lt (Nat.lt_of_lt_of_le hi h.size_le))]
  · exact
    { h.tracked with
      locations := fun i b hb => by
        rcases cases_of_addShape hb with ⟨-, rfl⟩ | hb
        · exact ⟨hnormal, ha ▸ h.begun hk⟩
        · exact h.tracked.locations i b hb
      links := fun i b p hb hp => by
        rcases cases_of_addShape hb with ⟨-, rfl⟩ | hb
        · exact hlink p hp
        · exact h.tracked.links i b p hb hp }

/-- A shape of the file that was stored meanwhile is changed. -/
theorem Frame.mapShape {i : ShapeId} {f : Shape → Shape} (hi : s.shapes.size ≤ i)
    (hloc : ∀ a, t.shapes[i]? = some a → a.location.key = k)
    (hf : ∀ a, (f a).location = a.location ∧ (f a).link = a.link) :
    Frame settings home s (t.mapShape i f) := by
  refine h.change hk hhome ⟨rfl, rfl, ⟨rfl, rfl, rfl⟩, rfl, ?_, fun j b hb => ?_,
    fun l _ => ⟨rfl, rfl, rfl⟩⟩ ?_ (fun _ => ⟨rfl, rfl, rfl⟩) (h.tracked.mapShape i hf)
  · exact Nat.le_of_eq (t.size_mapShape i f).symm
  · rw [getElem?_mapShape]
    split
    · next hij =>
      subst hij
      refine iff_of_false (fun heq => ?_) fun hib => hb (hloc _ hib)
      obtain ⟨c, hc, rfl⟩ := Option.map_eq_some_iff.1 heq
      exact hb ((hf c).1 ▸ hloc c hc)
    · rfl
  · intro j hj
    rw [getElem?_mapShape, if_neg (Nat.ne_of_gt (Nat.lt_of_lt_of_le hj hi))]

/-- An example is cached. -/
theorem Frame.cacheExample (hroot : settings.root.isAbsolute) {p : Path} {e : ExampleFile}
    (hp : p.IsNormal settings.root) (he : t.example? p = some e) :
    Frame settings home s (t.cacheExample p e) :=
  h.change hk hhome
    ⟨sources_cacheExample hroot hp he, rfl, ⟨rfl, rfl, rfl⟩, rfl, Nat.le_refl _,
      fun _ _ _ => Iff.rfl, fun _ _ => ⟨rfl, rfl, rfl⟩⟩
    (fun _ _ => rfl) (fun _ => ⟨rfl, rfl, rfl⟩) { h.tracked with }

/-- The example that is loaded is the one that its path stands for. -/
theorem Frame.loadExample (hroot : settings.root.isAbsolute) {p : Path} {e : ExampleFile}
    {t' : Store} (hp : p.IsNormal settings.root) (hload : RamlTypes.loadExample p t = (.ok e, t')) :
    t.example? p = some e ∧ Frame settings home s t' ∧ t.Still t' := by
  rw [RamlTypes.loadExample, Load.ask_bind] at hload
  split at hload
  · next hfind =>
    cases hload
    exact ⟨by rw [example?, hfind, Option.some_or], h, (Calm.refl t).toStill⟩
  · next hnone =>
    obtain ⟨text, hread, hload⟩ := Load.readFile_bind_eq_ok hload
    obtain ⟨x, hparse, hload⟩ := Load.ofExcept_bind_eq_ok.1 hload
    cases hload
    have hcount : t.Calm (t.countRead .exampleFile p) :=
      ⟨⟨rfl, rfl, rfl, rfl, rfl, rfl⟩, rfl, rfl, rfl, ⟨rfl, rfl, rfl⟩⟩
    have hexample : t.example? p = some e := by
      rw [example?, hnone, hread, Option.none_or, Except.toOption, Option.bind_some, hparse]
      rfl
    refine ⟨hexample, ?_, ⟨rfl, rfl, rfl, rfl, rfl, rfl⟩⟩
    exact (h.calm hk hhome hcount).cacheExample hk hhome hroot hp hexample

variable (huncached : ¬ Dict.has k s.fragments) {path : Path} (hpath : path.key = k)
include huncached hpath

/-- A name of the file is noted. -/
theorem Frame.declareType (name : String) (i : ShapeId) :
    Frame settings home s (t.declareType path name i) := by
  refine h.change hk hhome ⟨rfl, rfl, ⟨rfl, rfl, rfl⟩, rfl, Nat.le_refl _, fun _ _ _ => Iff.rfl,
    fun l hl => ⟨?_, rfl, rfl⟩⟩ (fun _ _ => rfl) (fun hc => absurd hc huncached) ?_
  · rw [Store.declareType, Dict.adjust, Dict.find?_put, if_neg fun heq => hl (heq.symm.trans hpath)]
  · exact
    { h.tracked with
      named := fun l hl => by
        rw [Dict.has, Store.declareType, Dict.adjust, Dict.find?_put] at hl
        split at hl
        · next heq => exact heq ▸ hpath ▸ h.begun hk
        · exact h.tracked.named l hl }

/-- Noting an annotation type of a file that is being read stays inside of that file. -/
theorem Frame.declareAnnotationType (name : String) (i : ShapeId) :
    Frame settings home s (t.declareAnnotationType path name i) := by
  refine (h.declareType hk hhome huncached hpath name i).change hk hhome
    ⟨rfl, rfl, ⟨rfl, rfl, rfl⟩, rfl, Nat.le_refl _, fun _ _ _ => Iff.rfl,
      fun l hl => ⟨rfl, ?_, rfl⟩⟩ (fun _ _ => rfl) (fun hc => absurd hc huncached) ?_
  · rw [Store.declareAnnotationType, Dict.adjust, Dict.find?_put,
      if_neg fun heq => hl (heq.symm.trans hpath)]
  · have htracked := (h.declareType hk hhome huncached hpath name i).tracked
    exact
    { htracked with
      annotationTypes := fun l hl => by
        rw [Dict.has, Store.declareAnnotationType, Dict.adjust, Dict.find?_put] at hl
        split at hl
        · next heq => exact heq ▸ hpath ▸ h.begun hk
        · exact htracked.annotationTypes l hl }

/-- An alias of the file is noted. -/
theorem Frame.declareUse (name : String) {p : Path}
    (hp : p.IsNormal settings.root ∧ t.Begun p.key) :
    Frame settings home s (t.declareUse path name p) := by
  refine h.change hk hhome ⟨rfl, rfl, ⟨rfl, rfl, rfl⟩, rfl, Nat.le_refl _, fun _ _ _ => Iff.rfl,
    fun l hl => ⟨rfl, rfl, ?_⟩⟩ (fun _ _ => rfl) (fun hc => absurd hc huncached) ?_
  · rw [Store.declareUse, Dict.adjust, Dict.find?_put, if_neg fun heq => hl (heq.symm.trans hpath)]
  · exact
    { h.tracked with
      uses := fun l d hd => by
        rw [Store.declareUse, Dict.adjust, Dict.find?_put] at hd
        split at hd
        · next heq =>
          cases hd
          refine ⟨heq ▸ hpath ▸ h.begun hk, fun n q hq => ?_⟩
          rw [Dict.find?_put] at hq
          split at hq
          · cases hq
            exact hp
          · rcases hfind : Dict.find? path.key t.uses with _ | e <;> rw [hfind] at hq
            · cases hq
            · exact (h.tracked.uses _ e hfind).2 n q hq
        · exact h.tracked.uses l d hd }

end

/-! ## The shapes of a file -/

/-- The file in which a shape lies. -/
def fileOf? (s : Store) (i : ShapeId) : Option PathKey := s.shapes[i]?.map (·.location.key)

/-- The shapes of the file `k` from the number `lo` on, in their order. -/
def within (s : Store) (lo : Nat) (k : PathKey) : List ShapeId :=
  (List.range s.shapes.size).filter fun i => decide (lo ≤ i ∧ s.fileOf? i = some k)

/-- A shape lies in the file of its location. -/
theorem fileOf?_eq_some {i : ShapeId} :
    s.fileOf? i = some k ↔ ∃ a, s.shapes[i]? = some a ∧ a.location.key = k :=
  Option.map_eq_some_iff

/-- Only shapes that are stored lie in a file. -/
theorem lt_of_fileOf? {i : ShapeId} (h : s.fileOf? i = some k) : i < s.shapes.size := by
  obtain ⟨a, ha, -⟩ := fileOf?_eq_some.1 h
  exact (Array.getElem?_eq_some_iff.1 ha).1

/-- What the shapes of a file from a number on are. -/
theorem mem_within {lo : Nat} {i : ShapeId} :
    i ∈ s.within lo k ↔ lo ≤ i ∧ s.fileOf? i = some k := by
  rw [within, List.mem_filter, List.mem_range, decide_eq_true_eq]
  exact and_iff_right_of_imp fun h => lt_of_fileOf? h.2

/-- Each shape of a file is listed once. -/
theorem nodup_within (s : Store) (lo : Nat) (k : PathKey) : (s.within lo k).Nodup :=
  List.nodup_range.filter _

/-- The list is determined by its members. -/
theorem within_eq {lo lo' : Nat} (h : ∀ i, i ∈ s.within lo k ↔ i ∈ t.within lo' k) :
    s.within lo k = t.within lo' k := by
  have sorted (u : Store) (n : Nat) : (u.within n k).Pairwise (· < ·) :=
    List.pairwise_lt_range.filter _
  have hperm : (s.within lo k).Perm (t.within lo' k) :=
    (List.perm_ext_iff_of_nodup (nodup_within s lo k) (nodup_within t lo' k)).2 h
  exact hperm.eq_of_pairwise (fun a b _ _ hab hba => absurd hab (Nat.lt_asymm hba)) (sorted s lo)
    (sorted t lo')

/-- The same shapes are listed where the same shapes lie in the file. -/
theorem within_of_fileOf? {lo : Nat}
    (h : ∀ i, lo ≤ i → (t.fileOf? i = some k ↔ s.fileOf? i = some k)) :
    t.within lo k = s.within lo k := by
  refine within_eq fun i => ?_
  rw [mem_within, mem_within]
  exact and_congr_right (h i)

/-- A shape of the file is added at the end. -/
theorem within_addShape {lo : Nat} {a : Shape} (hlo : lo ≤ s.shapes.size)
    (ha : a.location.key = k) :
    (s.addShape a).within lo k = s.within lo k ++ [s.shapes.size] := by
  have hsize : (s.addShape a).shapes.size = s.shapes.size + 1 := Array.size_push _
  rw [within, hsize, List.range_succ, List.filter_append]
  congr 1
  · refine List.filter_congr fun i hi => ?_
    rw [fileOf?, getElem?_addShape, if_neg (Nat.ne_of_lt (List.mem_range.1 hi)), fileOf?]
  · rw [List.filter_singleton, fileOf?, getElem?_addShape, if_pos rfl]
    simp [hlo, ha]

/-- A change that leaves the location of a shape leaves its file. -/
theorem fileOf?_mapShape {i : ShapeId} {f : Shape → Shape} (hf : ∀ a, (f a).location = a.location)
    (j : ShapeId) : (s.mapShape i f).fileOf? j = s.fileOf? j := by
  rw [fileOf?, getElem?_mapShape, fileOf?]
  split
  · rw [Option.map_map]
    exact congrArg (fun g => Option.map g s.shapes[j]?) (funext fun a => by rw [Function.comp, hf])
  · rfl

/-- Loading further files adds no shapes to a file whose loading had begun. -/
theorem Frame.within (h : Frame settings (fun _ => False) s t) (hk : s.Begun k) (lo : Nat) :
    t.within lo k = s.within lo k := by
  refine within_of_fileOf? fun i _ => ?_
  rcases Nat.lt_or_ge i s.shapes.size with hi | hi
  · rw [fileOf?, h.old i hi, fileOf?]
  · refine iff_of_false (fun ht => ?_) fun hs => Nat.not_lt_of_le hi (lt_of_fileOf? hs)
    obtain ⟨a, ha, rfl⟩ := fileOf?_eq_some.1 ht
    exact (h.new i a hi ha).elim id fun hnot => hnot hk

end RamlTypes.Store
