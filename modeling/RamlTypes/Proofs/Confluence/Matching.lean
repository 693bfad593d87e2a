import RamlTypes.Proofs.Confluence.Twins

/-!
# Two runs settle the same shapes

Of two runs that begin in the same store, the second one has settled all that waits. Then for each
shape of the first run there is one of the second run that stands for it, and what is written into
both is the same up to the numbers of shapes (`Store.Settlings.matched`). The proof follows the
first run, one settling after the other.
-/

namespace RamlTypes

open Store

variable {settings : LoadSettings}

/-- Shapes that two runs have stored come in pairs, in their order. -/
theorem Duo.Together.pairs {d : Duo} {w : Duo.Progress} {s t : Store} (h : d.Together w s t)
    {T : ShapeId → ShapeId → Prop} (houter : ∀ i j, d.outer i j → T i j)
    (hT : ∀ (n : Nat) (i j : ShapeId), (s.within d.left.shapes.size d.path.key)[n]? = some i →
      (t.within d.right.shapes.size d.path.key)[n]? = some j → T i j) :
    (∀ i j, d.Ids w i j → T i j) ∧ ∀ i ∈ s.within d.left.shapes.size d.path.key,
      ∃ j ∈ t.within d.right.shapes.size d.path.key, T i j ∧
        ∃ a b, s.shapes[i]? = some a ∧ t.shapes[j]? = some b ∧ a.Rel T b := by
  have hpairs {i j : ShapeId} (hij : (i, j) ∈ w.pairs) : T i j := by
    obtain ⟨n, hn⟩ := List.mem_iff_getElem?.1 hij
    refine hT n i j ?_ ?_
    · rw [h.ownLeft, List.getElem?_map, hn]
      rfl
    · rw [h.ownRight, List.getElem?_map, hn]
      rfl
  have hids (i j : ShapeId) (hij : d.Ids w i j) : T i j := hij.elim hpairs (houter i j)
  refine ⟨hids, fun i hi => ?_⟩
  rw [h.ownLeft] at hi
  obtain ⟨⟨i, j⟩, hij, rfl⟩ := List.mem_map.1 hi
  obtain ⟨a, b, ha, hb, hab⟩ := h.shapes i j hij
  exact ⟨j, h.ownRight ▸ List.mem_map_of_mem hij, hpairs hij, a, b, ha, hb, hab.mono hids⟩

namespace Settling

/-- What two settlings have stored for the file `k` comes in pairs of related shapes. -/
def Pairs (T : ShapeId → ShapeId → Prop) (e e' : Settling settings) (k : PathKey) : Prop :=
  ∀ i ∈ e.stored k, ∃ j ∈ e'.stored k, T i j ∧
    ∃ a b, e.stop.shapes[i]? = some a ∧ e'.stop.shapes[j]? = some b ∧ a.Rel T b

end Settling

/-! ## Files that are read during a run -/

/-- How a settling of a run from `s` to `t` has read the file `k`. -/
structure FileReading.Within (r : FileReading settings) (s t : Store) (e : Settling settings)
    (k : PathKey) : Prop where
  key : r.path.key = k
  has : e.stop.Has r
  sources : r.start.sources settings = s.sources settings
  base : ∀ l, Dict.has l s.fragments → Dict.has l r.start.fragments
  opened : ∀ l ∈ r.start.loading, Dict.has l t.fragments
  cached : ∀ l, Dict.has l r.stop.fragments → Dict.has l t.fragments

section
variable (hroot : settings.root.isAbsolute) {s t t' : Store} {es es' : List (Settling settings)}
  {e e' : Settling settings} {k : PathKey}
include hroot

theorem Store.Settlings.has_of_stop (h : s.Settlings es t) (he : e ∈ es)
    (hk : Dict.has k e.stop.fragments) : Dict.has k t.fragments :=
  (h.later_start hroot he).2.has hk

/-- All settlings of a run read from the same files. -/
theorem Store.Settlings.sources_start (h : s.Settlings es t) (he : e ∈ es) :
    e.start.sources settings = s.sources settings := by
  have hlater := (h.later_start hroot he).1
  exact hlater.sources_eq (hlater.settings_eq.symm.trans e.ready.tracked.settings_eq)

/-- There is a run that has read the file. -/
theorem Store.Settlings.exists_reading (h : s.Settlings es t) (he : e ∈ es) (hk : e.Caches k) :
    ∃ r : FileReading settings, r.Within s t e k := by
  obtain ⟨r, hkey, hhas, hbase⟩ := (e.frame hroot).readings k hk.2 hk.1
  have hlater := (h.later_start hroot he).1
  refine ⟨r, hkey, hhas, ?_, fun l hl => hbase l (hlater.has hl), fun l hl => ?_, fun l hl => ?_⟩
  · rw [hhas.sources, (e.frame hroot).sources, h.sources_start hroot he]
  · refine h.has_of_stop hroot he ((hhas.opened l hl).resolve_right fun hmem => ?_)
    rw [(e.frame hroot).loading, e.ready.loading] at hmem
    cases hmem
  · exact h.has_of_stop hroot he (hhas.cached l hl)

/-- What was stored for the file is what the reading has stored for it. -/
theorem FileReading.Within.stored_eq {r : FileReading settings} (h : r.Within s t e k)
    (hk : e.Caches k) : e.stored k = r.stop.within r.start.shapes.size k := by
  have hfile (i : ShapeId) : e.stop.fileOf? i = some k ↔ r.stop.fileOf? i = some k := by
    rw [fileOf?_eq_some, fileOf?_eq_some]
    refine exists_congr fun a => and_congr_left fun ha => ?_
    exact h.has.shapes i a (ha.trans h.key.symm)
  refine within_eq fun i => ?_
  rw [mem_within, mem_within, hfile]
  refine and_congr_left fun hi => iff_of_true ?_ ?_
  · refine Nat.le_of_not_lt fun hlt => hk.1 ?_
    obtain ⟨a, ha, hkey⟩ := fileOf?_eq_some.1 ((hfile i).2 hi)
    rw [(e.frame hroot).old i hlt] at ha
    exact hkey ▸ e.ready.cached (e.ready.tracked.locations i a ha).2
  · refine Nat.le_of_not_lt fun hlt => ?_
    obtain ⟨a, ha, hkey⟩ := fileOf?_eq_some.1 hi
    rw [(r.frame hroot (Fragment.framed_loaders hroot _)).old i hlt] at ha
    exact r.unlocated i a ha (hkey.trans h.key.symm)

/-- Where the second run has loaded all files of the first run, loads of these files load such
files. -/
theorem Store.Settlings.imports (h' : s.Settlings es' t') (n : Nat) :
    (Fragment.loaders n).Imports settings (s.sources settings) (fun k => Dict.has k s.fragments)
      fun k => Dict.has k t'.fragments := by
  refine Fragment.imports_loaders hroot (fun k hk => ?_) n
  by_cases hs : Dict.has k s.fragments
  · exact .inl hs
  · obtain ⟨e', he', hcaches⟩ := h'.exists_of_cached hs hk
    obtain ⟨r, hr⟩ := h'.exists_reading hroot he' hcaches
    exact .inr ⟨r, hr.key, hr.sources, hr.opened, hr.cached⟩

/-- Both runs have read the same file. -/
theorem Store.Settlings.pairs_of_file (h : s.Settlings es t) (h' : s.Settlings es' t') (he : e ∈ es)
    (he' : e' ∈ es') (hk : e.Caches k) (hk' : e'.Caches k) :
    e.Pairs (Twin s es es') e' k ∧ IndexRel (Twin s es es') k e.stop e'.stop := by
  obtain ⟨r, hr⟩ := h.exists_reading hroot he hk
  obtain ⟨r', hr'⟩ := h'.exists_reading hroot he' hk'
  have hpath : r'.path = r.path :=
    r'.normal.eq_of_components hroot r.normal (hr'.key.trans hr.key.symm)
  have hsources : r'.start.sources settings = r.start.sources settings :=
    hr'.sources.trans hr.sources.symm
  have himports : (Fragment.loaders r.depth).Imports settings (r.start.sources settings)
      (fun k => Dict.has k s.fragments) fun k => Dict.has k t'.fragments :=
    hr.sources ▸ h'.imports hroot r.depth
  obtain ⟨w, hst, hfragment⟩ := FileReading.exists_together hroot r r' hpath hsources hr'.opened
    (Fragment.framed_loaders hroot _) (Fragment.framed_loaders hroot _) hr.base himports hr'.cached
  have hstored := hr.stored_eq hroot hk
  have hstored' := hr'.stored_eq hroot hk'
  obtain ⟨hids, hpairs⟩ := hst.pairs (T := Twin s es es') nofun fun n i j hi hj => by
    refine .file he he' hk hk' (n := n) ?_ ?_
    · rw [hstored, ← hr.key]
      exact hi
    · rw [hstored', ← hr.key]
      exact hj
  have hshape {r : FileReading settings} {e : Settling settings} (hhas : e.stop.Has r) {lo : Nat}
      {i : ShapeId} {a : Shape} (hi : i ∈ r.stop.within lo r.path.key)
      (ha : r.stop.shapes[i]? = some a) : e.stop.shapes[i]? = some a := by
    obtain ⟨b, hb, hkey⟩ := fileOf?_eq_some.1 (mem_within.1 hi).2
    cases ha.symm.trans hb
    exact (hhas.shapes i a hkey).2 ha
  constructor
  · intro i hi
    rw [hstored, ← hr.key] at hi
    obtain ⟨j, hj, hij, a, b, ha, hb, hab⟩ := hpairs i hi
    have hj : j ∈ r'.stop.within r'.start.shapes.size r.path.key := hj
    have hj' : j ∈ e'.stored k := by
      rw [hstored', ← hr.key]
      exact hj
    exact ⟨j, hj', hij, a, b, hshape hr.has hi ha, hshape hr'.has (hpath.symm ▸ hj) hb, hab⟩
  · have hkey : r'.path.key = r.path.key := congrArg Path.key hpath
    have hnames := hr.has.names
    have hnames' := hr'.has.names
    have hfound := hr.has.fragment
    have hfound' := hr'.has.fragment
    rw [hkey] at hnames' hfound'
    rw [← hr.key]
    exact
    { named := by
        rw [hnames.named, hnames'.named]
        exact hst.named.imp fun _ _ hd => hd.mono hids
      annotationTypes := by
        rw [hnames.annotationTypes, hnames'.annotationTypes]
        exact hst.annotationTypes.imp fun _ _ hd => hd.mono hids
      uses := by
        rw [hnames.uses, hnames'.uses]
        exact hst.uses
      fragments := by
        rw [hfound, hfound']
        exact .some (hfragment.mono hids fun _ _ h => h) }

/-! ## The first run settles one more shape -/

/-- The shape `j` of the store `t'`, which a run has reached that has settled `es'`, is the same as
`a` up to the numbers of shapes. If `a` waits, the shape `j` was so when it was settled. -/
structure Store.Answers (T : ShapeId → ShapeId → Prop) (es' : List (Settling settings)) (t' : Store)
    (a : Shape) (j : ShapeId) : Prop where
  resolved : a.isUnknown = false → ∃ b, t'.shapes[j]? = some b ∧ a.Rel T b
  waiting : a.isUnknown = true → ∃ e' ∈ es', e'.id = j ∧ a.Rel T e'.shape

/-- What the first run has stored until `t` stands for what the second one has stored until `t'`. -/
structure Store.Matched (T : ShapeId → ShapeId → Prop) (es' : List (Settling settings))
    (t t' : Store) : Prop where
  total : ∀ i < t.shapes.size, ∃ j, T i j
  cached : ∀ k, Dict.has k t.fragments → Dict.has k t'.fragments
  shapes : ∀ (i j : ShapeId) (a : Shape), T i j → t.shapes[i]? = some a → t'.Answers T es' a j
  index : ∀ k, Dict.has k t.fragments → IndexRel T k t t'

omit hroot in
theorem Store.Matched.calm {T : ShapeId → ShapeId → Prop} {u : Store} (h : t.Matched T es' t')
    (hc : t.Calm u) : u.Matched T es' t' where
  total i hi := h.total i (hc.shapes ▸ hi)
  cached k hk := h.cached k (hc.fragments ▸ hk)
  shapes i j a hij ha := h.shapes i j a hij (hc.shapes ▸ ha)
  index k hk :=
    have hindex := h.index k (hc.fragments ▸ hk)
    ⟨by rw [hc.named]; exact hindex.named, by rw [hc.annotationTypes]; exact hindex.annotationTypes,
      by rw [hc.uses]; exact hindex.uses, by rw [hc.fragments]; exact hindex.fragments⟩

/-- A shape that is stored by a settling of the second run is found in the end, or it is settled. -/
theorem Store.Settlings.answers (h' : s.Settlings es' t') (hall : ∀ i, t'.IsResolved i)
    (he' : e' ∈ es') {T : ShapeId → ShapeId → Prop} {j : ShapeId} {a b : Shape}
    (hle : e'.start.shapes.size ≤ j) (hb : e'.stop.shapes[j]? = some b) (hab : a.Rel T b) :
    t'.Answers T es' a j := by
  obtain ⟨es₁, es₂, m, rfl, -, -, h₂⟩ := h'.split he'
  have hafter : e'.after.shapes[j]? = some b :=
    (e'.after_of_ne (Nat.ne_of_gt (Nat.lt_of_lt_of_le e'.id_lt hle))).trans hb
  refine ⟨fun hr => ⟨b, (h₂.later hroot).resolved hafter (hab.isUnknown.trans hr), hab⟩,
    fun hu => ?_⟩
  obtain ⟨f, hf, hid, rfl⟩ := h₂.exists_of_resolved hroot hafter (hab.isUnknown.trans hu) (hall j)
  exact ⟨f, List.mem_append_right _ (List.mem_cons_of_mem _ hf), hid, hab⟩

section
variable (h : s.Settlings es t) (h' : s.Settlings es' t')
include h'

/-- In the stores in which two settlings begin, the same declarations are found. -/
theorem Store.Matched.alike {T : ShapeId → ShapeId → Prop} (hm : e.start.Matched T es' t')
    (he' : e' ∈ es') : Alike T e.start e'.start := by
  have hlater := h'.later_stop hroot he'
  refine ⟨fun k hk hk' => ?_, fun i j hij hi hj => ?_, fun i j hij hi hj hri hrj => ?_⟩
  · obtain ⟨hnamed, htypes, huses, hfragments⟩ := hm.index k hk
    obtain ⟨hnamed', htypes', huses'⟩ := hlater.names k hk'
    rw [hnamed'] at hnamed
    rw [htypes'] at htypes
    rw [huses'] at huses
    rw [hlater.find?_fragments hk'] at hfragments
    exact ⟨hnamed, htypes, huses, hfragments⟩
  · have ha := Array.getElem?_eq_getElem hi
    rw [← hlater.nameOf? hj, Store.nameOf?, Store.nameOf?, ha]
    rcases hu : e.start.shapes[i].isUnknown with _ | _
    · obtain ⟨b, hb, hab⟩ := (hm.shapes i j _ hij ha).resolved hu
      rw [hb, Option.map_some, Option.map_some, hab.name]
    · obtain ⟨f, hf, rfl, hab⟩ := (hm.shapes i j _ hij ha).waiting hu
      have hname := (h'.later_stop hroot hf).nameOf? f.id_lt
      rw [Store.nameOf?, Store.nameOf?, f.found] at hname
      rw [hname, Option.map_some, Option.map_some, hab.name]
  · have ha := Array.getElem?_eq_getElem hi
    obtain ⟨b, hb, hab⟩ := (hm.shapes i j _ hij ha).resolved (hri _ ha)
    rw [← hlater.bodyOf hj hrj, Store.bodyOf, Store.bodyOf, ha, hb]
    exact hab.body

include h

/-- Both runs have evaluated related declarations of shapes that stand for each other. -/
theorem Store.Settlings.pairs_of_own (hm : e.start.Matched (Twin s es es') es' t') (he : e ∈ es)
    (he' : e' ∈ es') (htwin : Twin s es es' e.id e'.id)
    (hrel : e.shape.Rel (Twin s es es') e'.shape) :
    e.Pairs (Twin s es es') e' e.shape.location.key ∧
      (∀ k, Dict.has k e.stop.fragments → Dict.has k e.start.fragments ∨ Dict.has k t'.fragments) ∧
      e.result.Rel (Twin s es es') e'.result := by
  have hlater := (h.later_start hroot he).1
  have hsources : e'.start.sources settings = e.start.sources settings :=
    (h'.sources_start hroot he').trans (h.sources_start hroot he).symm
  have himports (n : Nat) : (Fragment.loaders n).Imports settings (e.start.sources settings)
      (fun k => Dict.has k e.start.fragments) fun k => Dict.has k t'.fragments :=
    h.sources_start hroot he ▸ (h'.imports hroot n).mono fun _ hk => hlater.has hk
  obtain ⟨w, hst, hresult, -⟩ := Settling.exists_together hroot e e' hrel hsources
    (hm.alike hroot h' he') himports fun k hk => h'.has_of_stop hroot he' hk
  obtain ⟨hids, hpairs⟩ := hst.pairs (fun _ _ h => h) fun n i j hi hj =>
    .own he he' htwin (n := n) hi (hrel.location ▸ hj)
  refine ⟨fun i hi => ?_, hst.imported, ?_⟩
  · obtain ⟨j, hj, hij⟩ := hpairs i hi
    exact ⟨j, hj, hij⟩
  · exact ⟨hresult.body.mono hids, hresult.inherits.imp hids, hresult.customFacets,
      hresult.nested.imp hids⟩

variable (hall : ∀ i, t'.IsResolved i)
include hall

/-- After one more settling of the first run, what it has stored still stands for something of the
second run. -/
theorem Store.Settlings.matched_after (he : e ∈ es) (hm : e.start.Matched (Twin s es es') es' t') :
    e.after.Matched (Twin s es es') es' t' := by
  -- The shape that stands for this one waits as well, so the second run has settled it.
  obtain ⟨j, htwin⟩ := hm.total e.id e.id_lt
  obtain ⟨e', he', rfl, hrel⟩ := (hm.shapes e.id j e.shape htwin e.found).waiting e.isUnknown
  obtain ⟨hown, himported, hresult⟩ := h.pairs_of_own hroot h' hm he he' htwin hrel
  have hlater := (h.later_start hroot he).1
  have hfile (k : PathKey) (hk : e.Caches k) : ∃ f ∈ es', f.Caches k ∧ e.Pairs (Twin s es es') f k ∧
      IndexRel (Twin s es es') k e.stop f.stop := by
    obtain ⟨f, hf, hcaches⟩ := h'.exists_of_cached (fun hs => hk.1 (hlater.has hs))
      ((himported k hk.2).resolve_left hk.1)
    exact ⟨f, hf, hcaches, h.pairs_of_file hroot h' he hf hk hcaches⟩
  -- A new shape lies in the file of the declaration, or in one that the second run has loaded, too.
  have hstored (i : ShapeId) (hle : e.start.shapes.size ≤ i) (hlt : i < e.stop.shapes.size) :
      ∃ j a, Twin s es es' i j ∧ e.stop.shapes[i]? = some a ∧
        t'.Answers (Twin s es es') es' a j := by
    have answers {f : Settling settings} {k : PathKey} (hf : f ∈ es') (hi : i ∈ e.stored k)
        (hpairs : e.Pairs (Twin s es es') f k) :
        ∃ j a, Twin s es es' i j ∧ e.stop.shapes[i]? = some a ∧
          t'.Answers (Twin s es es') es' a j := by
      obtain ⟨j, hj, hij, a, b, ha, hb, hab⟩ := hpairs i hi
      exact ⟨j, a, hij, ha, h'.answers hroot hall hf (Settling.mem_stored.1 hj).1 hb hab⟩
    obtain ⟨k, hi, rfl | hk⟩ := Settling.cases_of_stored hroot hle hlt
    · exact answers he' hi hown
    · obtain ⟨f, hf, -, hpairs, -⟩ := hfile k hk
      exact answers hf hi hpairs
  exact
  { total := fun i hi => by
      rcases Nat.lt_or_ge i e.start.shapes.size with hlt | hge
      · exact hm.total i hlt
      · obtain ⟨j, a, hij, -⟩ := hstored i hge (e.size_after ▸ hi)
        exact ⟨j, hij⟩
    cached := fun k hk => (himported k hk).elim (hm.cached k) id
    shapes := fun i j a hij ha => by
      by_cases hi : i = e.id
      · subst hi
        obtain rfl := h.twin_unique hroot h' hij htwin
        cases ha.symm.trans (e.found_after hroot)
        refine ⟨fun _ => ⟨e'.written, ?_, Settling.rel_written hrel hresult⟩, fun hu => ?_⟩
        · exact (h'.later_start hroot he').2.resolved (e'.found_after hroot)
            (e'.isUnknown_written hroot)
        · exact absurd ((e.isUnknown_written hroot).symm.trans hu) Bool.false_ne_true
      · rw [e.after_of_ne hi] at ha
        rcases Nat.lt_or_ge i e.start.shapes.size with hlt | hge
        · exact hm.shapes i j a hij ((e.frame hroot).old i hlt ▸ ha)
        · obtain ⟨j', b, hij', hb, hanswers⟩ := hstored i hge (Array.getElem?_eq_some_iff.1 ha).1
          obtain rfl := h.twin_unique hroot h' hij hij'
          cases ha.symm.trans hb
          exact hanswers
    index := fun k hk => by
      by_cases hold : Dict.has k e.start.fragments
      · have hnames := (e.later_after hroot).names k hold
        have hfragment := (e.later_after hroot).find?_fragments hold
        obtain ⟨hnamed, htypes, huses, hfragments⟩ := hm.index k hold
        exact ⟨hnames.named ▸ hnamed, hnames.annotationTypes ▸ htypes, hnames.uses ▸ huses,
          hfragment ▸ hfragments⟩
      · obtain ⟨f, hf, hcaches, -, hnamed, htypes, huses, hfragments⟩ := hfile k ⟨hold, hk⟩
        have hnames := (h'.later_start hroot hf).2.names k hcaches.2
        have hfragment := (h'.later_start hroot hf).2.find?_fragments hcaches.2
        exact ⟨hnames.named ▸ hnamed, hnames.annotationTypes ▸ htypes, hnames.uses ▸ huses,
          hfragment ▸ hfragments⟩ }

variable (hs : s.Ready settings)
include hs

/-- What there was when the runs began stands for itself. -/
theorem Store.Settlings.matched_start : s.Matched (Twin s es es') es' t' := by
  have hlater := h'.later hroot
  have hbelow (i j : ShapeId) (hij : Below s.shapes.size i j) : Twin s es es' i j :=
    hij.1 ▸ .old hij.2
  exact
  { total := fun i hi => ⟨i, .old hi⟩
    cached := fun k hk => hlater.has hk
    shapes := fun i j a hij ha => by
      obtain rfl := h.twin_unique hroot h' (.old (Array.getElem?_eq_some_iff.1 ha).1) hij
      have haa := (hs.closed.shapes i a ha).mono hbelow
      refine ⟨fun hr => ⟨a, hlater.resolved ha hr, haa⟩, fun hu => ?_⟩
      obtain ⟨e', he', hid, rfl⟩ := h'.exists_of_resolved hroot ha hu (hall i)
      exact ⟨e', he', hid, haa⟩
    index := fun k hk => by
      have hnames := hlater.names k hk
      obtain ⟨f, hf⟩ := Dict.has_iff.1 hk
      refine ⟨?_, ?_, hnames.uses, ?_⟩
      · rw [hnames.named]
        rcases hd : Dict.find? k s.named with _ | d
        · exact .none
        · exact .some ((hs.closed.named k d hd).mono hbelow)
      · rw [hnames.annotationTypes]
        rcases hd : Dict.find? k s.annotationTypes with _ | d
        · exact .none
        · exact .some ((hs.closed.annotationTypes k d hd).mono hbelow)
      · rw [hf, hlater.fragments k f hf]
        exact .some ((hs.closed.fragments k f hf).mono hbelow fun _ _ _ => trivial) }

/-- All that the first run has stored at some point stands for something of the second run. -/
theorem Store.Settlings.matched {fs : List (Settling settings)} {u : Store} (hu : s.Settlings fs u)
    (hsub : fs ⊆ es) : u.Matched (Twin s es es') es' t' := by
  induction hu with
  | nil hc => exact (h.matched_start hroot h' hall hs).calm hc
  | snoc _ hcalm _ hafter ih =>
    have hbefore := (ih fun f hf => hsub (List.mem_append_left _ hf)).calm hcalm
    have he := hsub (List.mem_append_right _ (List.mem_singleton_self _))
    exact (h.matched_after hroot h' hall he hbefore).calm hafter

/-- A shape of the second run that stands for a settled one is settled, too. -/
theorem Store.Settlings.exists_of_twin (he : e ∈ es) {j : ShapeId} (hij : Twin s es es' e.id j) :
    ∃ e' ∈ es', e'.id = j := by
  obtain ⟨es₁, es₂, m, heq, h₁, hm, -⟩ := h.split he
  have hbefore := (h.matched hroot h' hall hs h₁ (heq ▸ List.subset_append_left _ _)).calm hm
  obtain ⟨e', he', hid, -⟩ := (hbefore.shapes e.id j e.shape hij e.found).waiting e.isUnknown
  exact ⟨e', he', hid⟩

end

end

end RamlTypes
