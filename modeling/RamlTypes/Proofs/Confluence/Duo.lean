import Mathlib.Data.List.Nodup
import RamlTypes.Proofs.Confluence.Changes
import RamlTypes.Proofs.Relation.Resolution

/-!
# Two runs that read the same declarations

The declarations of a file are read in two runs. Each of them may load further files meanwhile that
are cached in the other one, so the runs are not compared step by step there: it is enough that such
a load leaves alone what belongs to the file (`Store.Frame`). The shapes that the runs store for the
declarations come in pairs, in their order.
-/

namespace RamlTypes

open Store

/-- Two runs that read declarations of the file `path`. -/
structure Duo where
  settings : LoadSettings
  root : settings.root.isAbsolute
  path : Path
  normal : path.IsNormal settings.root
  /-- The store in which the first run begins. -/
  left : Store
  /-- The store in which the second run begins. -/
  right : Store
  /-- Numbers of shapes that have been stored before and stand for each other. -/
  outer : ShapeId → ShapeId → Prop
  /-- The files that the second run may load. -/
  allowed : PathKey → Prop
  sources : right.sources settings = left.sources settings
  begunLeft : left.Begun path.key
  begunRight : right.Begun path.key
  opened : ∀ k ∈ right.loading, allowed k

/-- How far two runs have come: the pairs of shapes that they have stored, and the files that both
have loaded or are loading. -/
structure Duo.Progress where
  pairs : List (ShapeId × ShapeId)
  linked : List Path

instance : Preorder Duo.Progress where
  le w w' := w.pairs ⊆ w'.pairs ∧ w.linked ⊆ w'.linked
  le_refl w := ⟨List.Subset.refl _, List.Subset.refl _⟩
  le_trans _ _ _ h h' := ⟨List.Subset.trans h.1 h'.1, List.Subset.trans h.2 h'.2⟩

namespace Duo

variable (d : Duo)

/-- Numbers that stand for each other. -/
def Ids (w : Progress) (i j : ShapeId) : Prop := (i, j) ∈ w.pairs ∨ d.outer i j

/-- The stores `s` and `t` of the two runs while they go on. -/
structure Together (w : Progress) (s t : Store) : Prop where
  left : Frame d.settings (· = d.path.key) d.left s
  right : Frame d.settings (· = d.path.key) d.right t
  ownLeft : s.within d.left.shapes.size d.path.key = w.pairs.map (·.1)
  ownRight : t.within d.right.shapes.size d.path.key = w.pairs.map (·.2)
  shapes : ∀ i j, (i, j) ∈ w.pairs →
    ∃ a b, s.shapes[i]? = some a ∧ t.shapes[j]? = some b ∧ a.Rel (d.Ids w) b
  named : Option.Rel (Dict.Rel (d.Ids w)) (Dict.find? d.path.key s.named)
    (Dict.find? d.path.key t.named)
  annotationTypes : Option.Rel (Dict.Rel (d.Ids w)) (Dict.find? d.path.key s.annotationTypes)
    (Dict.find? d.path.key t.annotationTypes)
  uses : Dict.find? d.path.key t.uses = Dict.find? d.path.key s.uses
  linked : ∀ p ∈ w.linked, p.IsNormal d.settings.root ∧ s.Begun p.key ∧ t.Begun p.key
  imported : ∀ k, Dict.has k s.fragments → Dict.has k d.left.fragments ∨ d.allowed k

variable {d} {w w' : Progress} {s t s' t' : Store}

/-- Numbers that stand for each other do so later. -/
theorem Ids.mono (h : w ≤ w') {i j : ShapeId} (hij : d.Ids w i j) : d.Ids w' i j :=
  hij.imp_left fun hp => h.1 hp

variable (d) in
/-- The comparison of the two runs. Runs that stop are not compared. -/
def comparison : Comparison where
  World := Progress
  order := inferInstance
  stores := d.Together
  stopped _ _ _ := True
  final t := ∀ k, Dict.has k t.fragments → d.allowed k
  excused _ := True
  ignored _ := True
  ids := d.Ids
  fresh w i j := (i, j) ∈ w.pairs
  done _ _ _ := False
  begun _ p := p = d.path
  target p := p.IsNormal d.settings.root
  linked w p := p ∈ w.linked
  bound _ _ _ := True
  stopped_of_stores _ _ := trivial
  stopped_fault h := h
  final_of_grows hg h k hk := by
    obtain ⟨f, hf⟩ := Dict.has_iff.1 hk
    exact h k (Dict.has_iff.2 ⟨f, hg.fragments k f hf⟩)
  excused_fault h := h
  ignored_fault h := h
  ids_mono h := .mono h
  fresh_mono h h' := h.1 h'
  done_mono _ h := h
  begun_mono _ h := h
  linked_mono h h' := h.2 h'
  bound_mono _ h := h
  ids_of_fresh h := .inl h
  bound_of_rel _ := trivial

/-- Only runs with a result have to be compared. -/
theorem agree_of_ok {α β : Type} {x : Load α} {y : Load β} {Q : Progress → α → β → Prop}
    (h : ∀ s t a s' b t', d.Together w s t → x s = (.ok a, s') → y t = (.ok b, t') →
      (∀ k, Dict.has k t'.fragments → d.allowed k) →
        ∃ w', w ≤ w' ∧ d.Together w' s' t' ∧ Q w' a b) :
    d.comparison.Agree w x y Q := by
  intro s t hs hfinal
  rcases hx : x s with ⟨e | a, s'⟩
  · exact .excusedLeft trivial _
  · rcases hy : y t with ⟨e | b, t'⟩
    · exact .ignoredRight trivial _
    · rw [hy] at hfinal
      obtain ⟨w', hw, hst, hq⟩ := h s t a s' b t' hs hx hy hfinal
      exact .ok hw hst hq

/-- Changes on both sides. -/
theorem agree_change {f g : Store → Store} {hf : ∀ s : Store, s.Grows (f s)}
    {hg : ∀ s : Store, s.Grows (g s)} (h : ∀ s t, d.Together w s t → d.Together w (f s) (g t)) :
    d.comparison.Agree w (Load.change f hf) (Load.change g hg) fun _ _ _ => True :=
  .change w le_rfl h trivial

namespace Together

variable (h : d.Together w s t)
include h

/-- The compared file is begun on the left. -/
theorem begunLeft : s.Begun d.path.key := h.left.begun d.begunLeft

/-- And on the right. -/
theorem begunRight : t.Begun d.path.key := h.right.begun d.begunRight

/-- Both stores have the same settings. -/
theorem settings_eq : t.settings = s.settings :=
  h.right.tracked.settings_eq.trans h.left.tracked.settings_eq.symm

/-- And the same sources. -/
theorem sources_eq : t.sources d.settings = s.sources d.settings :=
  (h.right.sources.trans d.sources).trans h.left.sources.symm

/-- A shape that was stored meanwhile lies in the file. -/
theorem mem_left {i j : ShapeId} (hij : (i, j) ∈ w.pairs) :
    d.left.shapes.size ≤ i ∧ s.fileOf? i = some d.path.key :=
  mem_within.1 (h.ownLeft ▸ List.mem_map_of_mem hij)

/-- The partner of a new shape lies in the compared file and is new. -/
theorem mem_right {i j : ShapeId} (hij : (i, j) ∈ w.pairs) :
    d.right.shapes.size ≤ j ∧ t.fileOf? j = some d.path.key :=
  mem_within.1 (h.ownRight ▸ List.mem_map_of_mem hij)

/-- Each of these shapes is in one pair only. -/
theorem pair_iff {i j k l : ShapeId} (hij : (i, j) ∈ w.pairs) (hkl : (k, l) ∈ w.pairs) :
    i = k ↔ j = l := by
  have hleft : (w.pairs.map (·.1)).Nodup := h.ownLeft ▸ nodup_within _ _ _
  have hright : (w.pairs.map (·.2)).Nodup := h.ownRight ▸ nodup_within _ _ _
  constructor
  · intro heq
    exact congrArg Prod.snd (List.inj_on_of_nodup_map hleft hij hkl heq)
  · intro heq
    exact congrArg Prod.fst (List.inj_on_of_nodup_map hright hij hkl heq)

/-- Changes that leave shapes, fragments and what is noted of files. -/
theorem still (hleft : Frame d.settings (· = d.path.key) d.left s')
    (hright : Frame d.settings (· = d.path.key) d.right t') (hs : s.Still s') (ht : t.Still t') :
    d.Together w s' t' where
  left := hleft
  right := hright
  ownLeft := by
    rw [← h.ownLeft]
    exact within_of_fileOf? fun i _ => by rw [fileOf?, fileOf?, hs.shapes]
  ownRight := by
    rw [← h.ownRight]
    exact within_of_fileOf? fun i _ => by rw [fileOf?, fileOf?, ht.shapes]
  shapes i j hij := by
    rw [hs.shapes, ht.shapes]
    exact h.shapes i j hij
  named := by
    rw [hs.named, ht.named]
    exact h.named
  annotationTypes := by
    rw [hs.annotationTypes, ht.annotationTypes]
    exact h.annotationTypes
  uses := by rw [hs.uses, ht.uses, h.uses]
  linked p hp := ⟨(h.linked p hp).1, hs.begun.2 (h.linked p hp).2.1, ht.begun.2 (h.linked p hp).2.2⟩
  imported k hk := h.imported k (hs.fragments ▸ hk)

/-- Changes of counts, work lists and reports. -/
theorem calm (hs : s.Calm s') (ht : t.Calm t') : d.Together w s' t' :=
  h.still (h.left.calm d.begunLeft rfl hs) (h.right.calm d.begunRight rfl ht) hs.toStill ht.toStill

/-- Further files are loaded on both sides. -/
theorem loaded (hs : Frame d.settings (fun _ => False) s s')
    (ht : Frame d.settings (fun _ => False) t t')
    (himported : ∀ k, Dict.has k s'.fragments → Dict.has k s.fragments ∨ d.allowed k) :
    d.Together w s' t' where
  left := h.left.trans hs
  right := h.right.trans ht
  ownLeft := (hs.within h.begunLeft _).trans h.ownLeft
  ownRight := (ht.within h.begunRight _).trans h.ownRight
  shapes i j hij := by
    rw [hs.old i (lt_of_fileOf? (h.mem_left hij).2), ht.old j (lt_of_fileOf? (h.mem_right hij).2)]
    exact h.shapes i j hij
  named := by
    rw [(hs.names _ h.begunLeft nofun).named, (ht.names _ h.begunRight nofun).named]
    exact h.named
  annotationTypes := by
    rw [(hs.names _ h.begunLeft nofun).annotationTypes,
      (ht.names _ h.begunRight nofun).annotationTypes]
    exact h.annotationTypes
  uses := by
    rw [(hs.names _ h.begunLeft nofun).uses, (ht.names _ h.begunRight nofun).uses, h.uses]
  linked p hp := ⟨(h.linked p hp).1, hs.begun (h.linked p hp).2.1, ht.begun (h.linked p hp).2.2⟩
  imported k hk := (himported k hk).elim (h.imported k) .inr

/-- A file is known to be loaded, or to be loading, on both sides. -/
theorem link {p : Path} (hp : p.IsNormal d.settings.root) (hs : s.Begun p.key)
    (ht : t.Begun p.key) :
    d.Together { w with linked := p :: w.linked } s t :=
  { h with
    linked := fun q hq => by
      rcases List.mem_cons.1 hq with rfl | hq
      · exact ⟨hp, hs, ht⟩
      · exact h.linked q hq }

/-- A pair of shapes is stored. -/
theorem addShape {a b : Shape} (hab : a.Rel (d.Ids w) b) (ha : a.location = d.path)
    (hlink : ∀ p, a.link = some p → p ∈ w.linked) :
    d.Together { w with pairs := w.pairs ++ [(s.shapes.size, t.shapes.size)] }
      (s.addShape a) (t.addShape b) := by
  have hb : b.location = d.path := hab.location.trans ha
  let w' : Progress := { w with pairs := w.pairs ++ [(s.shapes.size, t.shapes.size)] }
  have hw : w ≤ w' := ⟨List.subset_append_left _ _, List.Subset.refl _⟩
  exact
  { left := h.left.addShape d.begunLeft rfl (ha ▸ d.normal) (congrArg Path.key ha) fun p hp =>
      ⟨(h.linked p (hlink p hp)).1, (h.linked p (hlink p hp)).2.1⟩
    right := h.right.addShape d.begunRight rfl (hb ▸ d.normal) (congrArg Path.key hb) fun p hp =>
      have hlinked := h.linked p (hlink p (hab.link ▸ hp))
      ⟨hlinked.1, hlinked.2.2⟩
    ownLeft := by
      rw [within_addShape h.left.size_le (congrArg Path.key ha), h.ownLeft, List.map_append]
      rfl
    ownRight := by
      rw [within_addShape h.right.size_le (congrArg Path.key hb), h.ownRight, List.map_append]
      rfl
    shapes := fun i j hij => by
      rcases List.mem_append.1 hij with hij | hij
      · obtain ⟨c, e, hc, he, hce⟩ := h.shapes i j hij
        have hi := lt_of_fileOf? (h.mem_left hij).2
        have hj := lt_of_fileOf? (h.mem_right hij).2
        refine ⟨c, e, ?_, ?_, hce.mono fun _ _ => .mono hw⟩
        · rw [getElem?_addShape, if_neg (Nat.ne_of_lt hi), hc]
        · rw [getElem?_addShape, if_neg (Nat.ne_of_lt hj), he]
      · obtain ⟨rfl, rfl⟩ := Prod.mk.inj (List.mem_singleton.1 hij)
        refine ⟨_, _, (getElem?_addShape _ _ _).trans (if_pos rfl),
          (getElem?_addShape _ _ _).trans (if_pos rfl), ?_⟩
        exact (hab.mono fun _ _ => Ids.mono hw).setIds _ _
    named := h.named.imp fun _ _ hd => hd.mono fun _ _ => .mono hw
    annotationTypes := h.annotationTypes.imp fun _ _ hd => hd.mono fun _ _ => .mono hw
    uses := h.uses
    linked := h.linked
    imported := h.imported }

/-- Both shapes of a pair are changed in what does not concern other shapes. -/
theorem makeOptional {i j : ShapeId} (hij : (i, j) ∈ w.pairs) :
    d.Together w (s.mapShape i Shape.optional) (t.mapShape j Shape.optional) where
  left := by
    refine h.left.mapShape d.begunLeft rfl (h.mem_left hij).1 (fun a ha => ?_) fun a => ⟨rfl, rfl⟩
    obtain ⟨b, hb, hkey⟩ := fileOf?_eq_some.1 (h.mem_left hij).2
    cases ha.symm.trans hb
    exact hkey
  right := by
    refine h.right.mapShape d.begunRight rfl (h.mem_right hij).1 (fun a ha => ?_)
      fun a => ⟨rfl, rfl⟩
    obtain ⟨b, hb, hkey⟩ := fileOf?_eq_some.1 (h.mem_right hij).2
    cases ha.symm.trans hb
    exact hkey
  ownLeft := by
    rw [← h.ownLeft]
    exact within_of_fileOf? fun k _ => by rw [fileOf?_mapShape (f := Shape.optional) fun _ => rfl]
  ownRight := by
    rw [← h.ownRight]
    exact within_of_fileOf? fun k _ => by rw [fileOf?_mapShape (f := Shape.optional) fun _ => rfl]
  shapes k l hkl := by
    obtain ⟨a, b, ha, hb, hab⟩ := h.shapes k l hkl
    have hiff := h.pair_iff hij hkl
    rw [getElem?_mapShape, getElem?_mapShape, ha, hb]
    by_cases hik : i = k
    · rw [if_pos hik, if_pos (hiff.1 hik)]
      refine ⟨_, _, rfl, rfl, { hab with rest := ?_ }⟩
      exact congrArg Shape.optional hab.rest
    · rw [if_neg hik, if_neg fun hjl => hik (hiff.2 hjl)]
      exact ⟨a, b, rfl, rfl, hab⟩
  named := h.named
  annotationTypes := h.annotationTypes
  uses := h.uses
  linked := h.linked
  imported := h.imported

/-- The same example is loaded on both sides. -/
theorem loadExample {p : Path} {e f : ExampleFile} (hp : p.IsNormal d.settings.root)
    (hs : RamlTypes.loadExample p s = (.ok e, s')) (ht : RamlTypes.loadExample p t = (.ok f, t')) :
    d.Together w s' t' ∧ e = f := by
  obtain ⟨he, hleft, hs'⟩ := h.left.loadExample d.begunLeft rfl d.root hp hs
  obtain ⟨hf, hright, ht'⟩ := h.right.loadExample d.begunRight rfl d.root hp ht
  rw [example?_eq_of_sources h.sources_eq hp] at hf
  exact ⟨h.still hleft hright hs' ht', Option.some.inj (he.symm.trans hf)⟩

end Together

end Duo

end RamlTypes
