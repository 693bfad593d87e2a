import RamlTypes.Proofs.Coherence.Basic
import RamlTypes.Proofs.Confluence.Changes

/-!
# What names denote

A name denotes the same shape as long as nothing but resolution goes on (`Store.Later`), since what
is noted of a file stays the same once the file is cached. In two stores in which the same is noted
of the cached files, up to the numbers of shapes, names denote shapes with related numbers
(`Store.Alike.denoted`).
-/

namespace RamlTypes.Store

variable {settings : LoadSettings} {home : PathKey → Prop} {s t u : Store} {k : PathKey}
  {i j : ShapeId}
  {p : Path}

/-- The numbers that the store holds belong to shapes. -/
structure Closed (s : Store) : Prop where
  ids : ∀ (i : ShapeId) (a : Shape), s.shapes[i]? = some a → a.id = i
  shapes : ∀ (i : ShapeId) (a : Shape), s.shapes[i]? = some a → a.Rel (Below s.shapes.size) a
  fragments : ∀ k f, Dict.find? k s.fragments = some f → f.IsBelow s.shapes.size
  named : ∀ k d, Dict.find? k s.named = some d → Dict.Rel (Below s.shapes.size) d d
  annotationTypes : ∀ k d, Dict.find? k s.annotationTypes = some d →
    Dict.Rel (Below s.shapes.size) d d

/-- What holds of the store in which the resolution of a shape begins. -/
structure Ready (settings : LoadSettings) (s : Store) : Prop where
  tracked : s.Tracked settings
  closed : s.Closed
  loading : s.loading = []

/-- The shape of a data type exists. -/
theorem Closed.dataType_lt (h : s.Closed) {d : DataType}
    (hd : Dict.find? k s.fragments = some (.dataType d)) :
    d.shape < s.shapes.size := by
  cases h.fragments k _ hd with
  | dataType hrel => exact hrel.shape.2

/-- The numbers in a store that a comparison has reached belong to its shapes. -/
theorem Underway.closed {b : Store} {known : PathKey → Prop} {phase : Phase} {w : Extent b}
    (h : b.Underway known phase w s) : s.Closed where
  ids := h.ids
  shapes := h.size ▸ h.shapes
  fragments := h.size ▸ h.fragments
  named k d hd := h.size ▸ (h.named k d hd).2
  annotationTypes k d hd := h.size ▸ (h.annotationTypes k d hd).2

/-- When nothing is being loaded, only cached files are begun. -/
theorem Ready.cached (h : s.Ready settings) (hk : s.Begun k) : Dict.has k s.fragments :=
  hk.resolve_right fun hmem => nomatch h.loading ▸ hmem

/-! ## Later stores -/

/-- The store `t` is reached from `s` by resolution: what was noted of cached files is the same, and
shapes are as they were, or they are resolved. -/
structure Later (s t : Store) : Prop where
  settings_eq : t.settings = s.settings
  sources : t.sources s.settings = s.sources s.settings
  fragments : ∀ k f, Dict.find? k s.fragments = some f → Dict.find? k t.fragments = some f
  names : ∀ k, Dict.has k s.fragments → s.SameNames t k
  shapes : ∀ (i : ShapeId) (a : Shape), s.shapes[i]? = some a → t.shapes[i]? = some a ∨
    a.isUnknown = true ∧ ∃ c, t.shapes[i]? = some c ∧ c.isUnknown = false ∧ c.name = a.name ∧
      c.location = a.location

namespace Later

/-- A store is later than itself. -/
theorem refl (s : Store) : s.Later s where
  settings_eq := rfl
  sources := rfl
  fragments _ _ h := h
  names k _ := .refl s k
  shapes _ _ h := .inl h

/-- Cached files stay cached. -/
theorem has (h : s.Later t) (hk : Dict.has k s.fragments) : Dict.has k t.fragments := by
  obtain ⟨f, hf⟩ := Dict.has_iff.1 hk
  exact Dict.has_iff.2 ⟨f, h.fragments k f hf⟩

/-- A cached file stays cached with the same fragment. -/
theorem find?_fragments (h : s.Later t) (hk : Dict.has k s.fragments) :
    Dict.find? k t.fragments = Dict.find? k s.fragments := by
  obtain ⟨f, hf⟩ := Dict.has_iff.1 hk
  rw [hf, h.fragments k f hf]

/-- Resolved shapes stay as they are. -/
theorem resolved (h : s.Later t) {a : Shape} (ha : s.shapes[i]? = some a)
    (hr : a.isUnknown = false) : t.shapes[i]? = some a :=
  (h.shapes i a ha).resolve_right fun hu => Bool.false_ne_true (hr.symm.trans hu.1)

/-- The same files and examples are there to be read in the later store. -/
theorem sources_eq (h : s.Later t) (hs : s.settings = settings) :
    t.sources settings = s.sources settings :=
  hs ▸ h.sources

/-- What is later than a later store is later. -/
theorem trans (h : s.Later t) (h' : t.Later u) : s.Later u where
  settings_eq := h'.settings_eq.trans h.settings_eq
  sources := (h'.sources_eq h.settings_eq).trans h.sources
  fragments k f hf := h'.fragments k f (h.fragments k f hf)
  names k hk := (h.names k hk).trans (h'.names k (h.has hk))
  shapes i a ha := by
    rcases h.shapes i a ha with ht | ⟨hu, c, hc, hr, hname, hloc⟩
    · exact h'.shapes i a ht
    · exact .inr ⟨hu, c, h'.resolved hc hr, hr, hname, hloc⟩

/-- A shape keeps its number, its name and its place. -/
theorem exists_shape (h : s.Later t) {a : Shape} (ha : s.shapes[i]? = some a) :
    ∃ c, t.shapes[i]? = some c ∧ c.name = a.name ∧ c.location = a.location := by
  rcases h.shapes i a ha with ht | ⟨-, c, hc, -, hname, hloc⟩
  · exact ⟨a, ht, rfl, rfl⟩
  · exact ⟨c, hc, hname, hloc⟩

/-- No shape goes away. -/
theorem size_le (h : s.Later t) : s.shapes.size ≤ t.shapes.size := by
  refine Nat.le_of_not_lt fun hlt => ?_
  obtain ⟨c, hc, -⟩ := h.exists_shape (Array.getElem?_eq_getElem hlt)
  exact Nat.lt_irrefl _ (Array.getElem?_eq_some_iff.1 hc).1

/-- A resolved shape keeps its body. -/
theorem bodyOf (h : s.Later t) (hi : i < s.shapes.size) (hr : s.IsResolved i) :
    t.bodyOf i = s.bodyOf i := by
  have ha := Array.getElem?_eq_getElem hi
  rw [Store.bodyOf, Store.bodyOf, h.resolved ha (hr _ ha), ha]

/-- A shape keeps its name. -/
theorem nameOf? (h : s.Later t) (hi : i < s.shapes.size) : t.nameOf? i = s.nameOf? i := by
  have ha := Array.getElem?_eq_getElem hi
  obtain ⟨c, hc, hname, -⟩ := h.exists_shape ha
  rw [Store.nameOf?, Store.nameOf?, hc, ha, Option.map_some, Option.map_some, hname]

/-- A name denotes in a cached file what it denoted before. -/
theorem lookup? (h : s.Later t) (hs : s.Ready settings) (hp : p.IsNormal settings.root)
    (hk : Dict.has p.key s.fragments) (name : String) : t.lookup? p name = s.lookup? p name := by
  have hkey : s.normalize p = p := normalize_of_isNormal hs.tracked.settings_eq hp
  have hkey' : t.normalize p = p :=
    normalize_of_isNormal (h.settings_eq.trans hs.tracked.settings_eq) hp
  rw [Store.lookup?, Store.lookup?, hkey, hkey', (h.names _ hk).named, h.find?_fragments hk]
  rcases (Dict.find? p.key s.named).bind (Dict.find? name) with _ | i
  · rcases hf : Dict.find? p.key s.fragments with _ | (l | d)
    · rfl
    · rfl
    · dsimp only
      rw [h.nameOf? (hs.closed.dataType_lt hf)]
  · rfl

/-- A name that is used in a cached file denotes the same shape in the later store. -/
theorem denoted? (h : s.Later t) (hs : s.Ready settings) (hp : p.IsNormal settings.root)
    (hk : Dict.has p.key s.fragments) (library : Option String) (name : String) :
    t.denoted? p library name = s.denoted? p library name := by
  cases library with
  | none => exact h.lookup? hs hp hk name
  | some l =>
    rw [Store.denoted?, Store.denoted?, usesOf?, usesOf?, (h.names _ hk).uses]
    rcases hd : Dict.find? p.key s.uses with _ | d
    · rfl
    · rcases hq : Dict.find? l d with _ | q
      · rw [Option.bind_some, hq]
        rfl
      · obtain ⟨hn, hb⟩ := (hs.tracked.uses _ d hd).2 l q hq
        rw [Option.bind_some, hq]
        exact h.lookup? hs hn (hs.cached hb) name

end Later

/-- What loading stores beside the old shapes makes the store later. -/
theorem Frame.later (h : Frame settings home s t) (hs : s.Tracked settings) : s.Later t where
  settings_eq := h.tracked.settings_eq.trans hs.settings_eq.symm
  sources := hs.settings_eq ▸ h.sources
  fragments := h.fragments
  names k hk := h.names k (.inl hk) fun _ => hk
  shapes i _ ha := .inl ((h.old i (Array.getElem?_eq_some_iff.1 ha).1).trans ha)

/-- A calm change makes the store later. -/
theorem Calm.later (h : s.Calm t) : s.Later t where
  settings_eq := h.settings
  sources := h.sources _
  fragments _ _ hf := h.fragments ▸ hf
  names k _ := h.sameNames k
  shapes _ _ ha := .inl (h.shapes ▸ ha)

/-- A calm change stores no number. -/
theorem Closed.calm (h : s.Closed) (hc : s.Calm t) : t.Closed where
  ids i a ha := h.ids i a (hc.shapes ▸ ha)
  shapes i a ha := hc.shapes ▸ h.shapes i a (hc.shapes ▸ ha)
  fragments k f hf := hc.shapes ▸ h.fragments k f (hc.fragments ▸ hf)
  named k d hd := hc.shapes ▸ h.named k d (hc.named ▸ hd)
  annotationTypes k d hd := hc.shapes ▸ h.annotationTypes k d (hc.annotationTypes ▸ hd)

/-- After a calm change a resolution can begin where it could begin before. -/
theorem Ready.calm (h : s.Ready settings) (hc : s.Calm t) : t.Ready settings where
  tracked := h.tracked.calm hc
  closed := h.closed.calm hc
  loading := hc.loading.trans h.loading

/-! ## Two stores -/

/-- The same is noted of the file `k` in both stores, up to the numbers of shapes. -/
structure IndexRel (R : ShapeId → ShapeId → Prop) (k : PathKey) (s t : Store) : Prop where
  named : Option.Rel (Dict.Rel R) (Dict.find? k s.named) (Dict.find? k t.named)
  annotationTypes : Option.Rel (Dict.Rel R) (Dict.find? k s.annotationTypes)
    (Dict.find? k t.annotationTypes)
  uses : Dict.find? k t.uses = Dict.find? k s.uses
  fragments : Option.Rel (Fragment.Rel R fun _ _ => True) (Dict.find? k s.fragments)
    (Dict.find? k t.fragments)

/-- What both stores have noted of cached files, and what is resolved in both, is the same up to the
numbers of shapes that `R` relates. -/
structure Alike (R : ShapeId → ShapeId → Prop) (s t : Store) : Prop where
  index : ∀ k, Dict.has k s.fragments → Dict.has k t.fragments → IndexRel R k s t
  names : ∀ i j, R i j → i < s.shapes.size → j < t.shapes.size → t.nameOf? j = s.nameOf? i
  bodies : ∀ i j, R i j → i < s.shapes.size → j < t.shapes.size → s.IsResolved i → t.IsResolved j →
    (s.bodyOf i).Rel R (t.bodyOf j)

section
variable {R : ShapeId → ShapeId → Prop} (h : Alike R s t) (hs : s.Ready settings)
  (ht : t.Ready settings)
include h hs ht

/-- In stores that are alike a name denotes shapes that stand for each other, or none. -/
theorem Alike.lookup (hp : p.IsNormal settings.root) (hk : Dict.has p.key s.fragments)
    (hk' : Dict.has p.key t.fragments) (name : String) :
    Option.Rel R (s.lookup? p name) (t.lookup? p name) := by
  have hkey : s.normalize p = p := normalize_of_isNormal hs.tracked.settings_eq hp
  have hkey' : t.normalize p = p := normalize_of_isNormal ht.tracked.settings_eq hp
  obtain ⟨hnamed, -, -, hfragment⟩ := h.index _ hk hk'
  refine lookup_rel (congrArg Path.key hkey) (congrArg Path.key hkey') hnamed hfragment
    (fun d e hd he hde => ?_) name
  exact h.names _ _ hde (hs.closed.dataType_lt hd) (ht.closed.dataType_lt he)

/-- Names denote shapes with related numbers. -/
theorem Alike.denoted (hp : p.IsNormal settings.root) (hk : Dict.has p.key s.fragments)
    (hk' : Dict.has p.key t.fragments) (library : Option String) (name : String) :
    Option.Rel R (s.denoted? p library name) (t.denoted? p library name) := by
  cases library with
  | none => exact h.lookup hs ht hp hk hk' name
  | some l =>
    rw [denoted?, denoted?, usesOf?, usesOf?, (h.index _ hk hk').uses]
    rcases hd : Dict.find? p.key s.uses with _ | d
    · exact .none
    · rcases hq : Dict.find? l d with _ | q
      · rw [Option.bind_some, hq]
        exact .none
      · obtain ⟨hn, hb⟩ := (hs.tracked.uses _ d hd).2 l q hq
        obtain ⟨-, hb'⟩ := (ht.tracked.uses _ d ((h.index _ hk hk').uses.trans hd)).2 l q hq
        rw [Option.bind_some, hq]
        exact h.lookup hs ht hn (hs.cached hb) (ht.cached hb') name

omit h ht in
/-- What a name denotes exists. -/
theorem Ready.lookup_lt {name : String} (hi : s.lookup? p name = some i) : i < s.shapes.size :=
  (rel_of_lookup hs.closed.named hs.closed.fragments hi).2

omit h ht in
/-- What a name denotes is the number of a shape. -/
theorem Ready.denoted_lt {library : Option String} {name : String}
    (hi : s.denoted? p library name = some i) : i < s.shapes.size := by
  cases library with
  | none => exact hs.lookup_lt hi
  | some l =>
    obtain ⟨q, -, hq⟩ := Option.bind_eq_some_iff.1 hi
    exact hs.lookup_lt hq

end

end RamlTypes.Store
