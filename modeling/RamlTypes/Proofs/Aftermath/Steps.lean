import RamlTypes.Proofs.Aftermath.Basic
import RamlTypes.Proofs.Isolation.Steps

/-!
# Steps of two runs beside a residue

Each change of a store that both runs make keeps `Store.Despite`.
-/

namespace RamlTypes.Store

variable {r : Residue} {w : Progress} {s t : Store}

/-- A shape stays moved when more are stored. -/
theorem IsMoved.mono {n m j : Nat} {a c : Shape} (h : IsMoved r n j a c) (hnm : n ≤ m) :
    IsMoved r m j a c :=
  { h with rel := h.rel.mono fun _ _ => .mono hnm }

namespace Despite

variable (h : Despite r w s t)
include h

/-- Related numbers belong to corresponding shapes. -/
theorem exists_moved {i j : ShapeId} (hij : r.Moved w.size i j) :
    ∃ a c, s.shapes[i]? = some a ∧ t.shapes[j]? = some c ∧ IsMoved r w.size j a c := by
  have hc := Array.getElem?_eq_getElem (h.size' ▸ hij.2 : j < t.shapes.size)
  obtain ⟨a, ha, hac⟩ := h.shapes j _ hc
  exact ⟨a, _, hij.1 ▸ ha, hc, hac⟩

/-- The next number on the left is the displaced one of the right. -/
theorem size_eq : s.shapes.size = displace r.mark r.size t.shapes.size := by
  rw [displace_of_le (h.size' ▸ h.mark_le), h.size]

/-- The next shapes have related numbers. -/
theorem moved_next : r.Moved w.grow.size s.shapes.size t.shapes.size :=
  ⟨h.size_eq, h.size' ▸ Nat.lt_succ_self _⟩

/-- Corresponding shapes are stored. -/
theorem addShape {a c : Shape} (hac : a.Rel (r.Moved w.size) c) (hc : r.Spares c.location) :
    Despite r w.grow (s.addShape a) (t.addShape c) := by
  have mono : ∀ i j, r.Moved w.size i j → r.Moved w.grow.size i j := fun _ _ => .mono (Nat.le_succ _)
  have hunknown : a.isUnknown = c.isUnknown := hac.isUnknown.symm
  exact
  { h with
    size := by
      show (s.shapes.push _).size = (t.shapes.push _).size + r.size
      rw [Array.size_push, Array.size_push, h.size, Nat.add_right_comm]
    size' := (Array.size_push _).trans (congrArg (· + 1) h.size')
    mark_le := Nat.le_succ_of_le h.mark_le
    shapes := fun j d hd => by
      rw [getElem?_addShape] at hd ⊢
      split at hd
      · next hj =>
        cases hd
        subst hj
        rw [if_pos h.size_eq.symm]
        exact ⟨_, rfl, (hac.mono mono).setIds _ _, h.size_eq, rfl⟩
      · next hj =>
        rw [if_neg fun heq => hj (Residue.displace_inj (heq.trans h.size_eq))]
        obtain ⟨b, hb, hbd⟩ := h.shapes j d hd
        exact ⟨b, hb, hbd.mono (Nat.le_succ _)⟩
    located := fun j d hd => by
      rcases cases_of_addShape hd with ⟨rfl, rfl⟩ | hd
      · exact .inr hc
      · exact h.located j d hd
    resolved := fun j hj => by
      obtain ⟨hlt, hr⟩ := h.resolved j hj
      refine ⟨Nat.lt_succ_of_lt hlt, fun d hd => hr d ?_⟩
      rwa [getElem?_addShape, if_neg (by rw [h.size']; exact Nat.ne_of_lt hlt)] at hd
    queue := by
      obtain ⟨old, new, ht, hs, hold, hnew⟩ := h.queue
      have grown : ∀ j ∈ new, r.mark ≤ j ∧ j < w.grow.size :=
        fun j hj => ⟨(hnew j hj).1, Nat.lt_succ_of_lt (hnew j hj).2⟩
      rw [Store.addShape, Store.addShape, hunknown]
      dsimp only
      split
      · refine ⟨old, new ++ [t.shapes.size], ?_, ?_, hold, ?_⟩
        · rw [ht, List.append_assoc]
        · rw [hs, h.size_eq, List.map_append, List.map_singleton]
          simp only [List.append_assoc]
        · refine List.forall_mem_append.2 ⟨grown, fun j hj => ?_⟩
          rw [List.mem_singleton.1 hj, h.size']
          exact ⟨h.mark_le, Nat.lt_succ_self _⟩
      · exact ⟨old, new, ht, hs, hold, grown⟩
    fragments := fun k hk => (h.fragments k hk).imp fun _ _ => .mono mono fun _ _ h => h
    named := fun k hk => (h.named k hk).imp fun _ _ => .mono mono }

/-- Corresponding shapes are changed in the same way. -/
theorem mapShape {i j : ShapeId} (hij : r.Moved w.size i j) {f g : Shape → Shape}
    (rel : ∀ a c, a.Rel (r.Moved w.size) c → (f a).Rel (r.Moved w.size) (g c))
    (keeps : KeepsPlace f) (keeps' : KeepsPlace g)
    (unknown : ∀ c, (g c).isUnknown → c.isUnknown) :
    Despite r w (s.mapShape i f) (t.mapShape j g) :=
  { h with
    size := by rw [size_mapShape, size_mapShape, h.size]
    size' := (size_mapShape t j g).trans h.size'
    shapes := fun k d hd => by
      rw [getElem?_mapShape] at hd ⊢
      split at hd
      · next hk =>
        subst hk
        obtain ⟨c, hc, rfl⟩ := Option.map_eq_some_iff.1 hd
        obtain ⟨a, ha, hac⟩ := h.shapes j c hc
        rw [if_pos hij.1, ha]
        exact ⟨f a, rfl, rel a c hac.rel, (keeps a).1.trans hac.id, (keeps' c).1.trans hac.id'⟩
      · next hk =>
        rw [if_neg fun heq => hk (Residue.displace_inj (hij.1.symm.trans heq))]
        exact h.shapes k d hd
    located := fun k d hd => by
      rcases cases_of_mapShape hd with ⟨rfl, c, hc, rfl⟩ | hd
      · rw [(keeps' c).2.1]
        exact h.located j c hc
      · exact h.located k d hd
    resolved := fun k hk => by
      obtain ⟨hlt, hr⟩ := h.resolved k hk
      refine ⟨hlt, fun d hd => Bool.eq_false_iff.2 fun hu => ?_⟩
      rcases cases_of_mapShape hd with ⟨rfl, c, hc, rfl⟩ | hd
      · exact Bool.eq_false_iff.1 (hr c hc) (unknown c hu)
      · exact Bool.eq_false_iff.1 (hr d hd) hu }

/-- It is noted that a shape is resolved. -/
theorem settle {j : ShapeId} (hj : j < w.size) (hr : t.IsResolved j) : Despite r (w.settle j) s t :=
  { h with
    size' := h.size'
    mark_le := h.mark_le
    resolved := fun k hk => by
      rcases hk with rfl | hk
      · exact ⟨hj, hr⟩
      · exact h.resolved k hk }

/-! ## Files -/

/-- A report comes to both stores. -/
theorem report (d : Diagnostic) : Despite r w (s.report d) (t.report d) := { h with }

/-- So does the count of a read. -/
theorem countRead (purpose : Purpose) (p : Path) :
    Despite r w (s.countRead purpose p) (t.countRead purpose p) := { h with }

/-- The example of a file is cached that the load has not cached. -/
theorem cacheExample {p : Path} (hp : ¬ r.files .exampleFile p.key) (e : ExampleFile) :
    Despite r w (s.cacheExample p e) (t.cacheExample p e) :=
  { h with
    examples := fun k hk => by
      rw [Store.cacheExample, Store.cacheExample, Dict.find?_putNew, Dict.find?_putNew, h.examples k hk]
    examples_none := fun k hk => by
      have hne : ¬ p.key = k := fun heq => hp (heq ▸ hk)
      rw [Store.cacheExample, Dict.find?_putNew, h.examples_none k hk, if_neg hne, Option.or_none] }

/-- A file begins to be loaded in both. -/
theorem beginLoading (p : Path) : Despite r w (s.beginLoading p) (t.beginLoading p) :=
  { h with loading := congrArg (p.key :: ·) h.loading }

/-- And ends to be. -/
theorem endLoading (p : Path) : Despite r w (s.endLoading p) (t.endLoading p) :=
  { h with loading := congrArg (List.filter (· ≠ p.key)) h.loading }

section
variable {p : Path} (hp : r.Spares p)
include hp

/-- A type is noted in both under its number. -/
theorem declareType (name : String) {i j : ShapeId} (hij : r.Moved w.size i j) :
    Despite r w (s.declareType p name i) (t.declareType p name j) :=
  { h with
    named := fun k hk => Dict.rel_adjust (h.named k hk) p.key name hij
    named_none := fun k hk => by
      have hne : p.key ≠ k := fun heq => hp (heq ▸ hk)
      rw [Store.declareType, Dict.find?_adjust_of_ne hne, h.named_none k hk] }

/-- So is an annotation type. -/
theorem declareAnnotationType (name : String) {i j : ShapeId} (hij : r.Moved w.size i j) :
    Despite r w (s.declareAnnotationType p name i) (t.declareAnnotationType p name j) :=
  { h.declareType hp name hij with }

/-- So is the use of a library. -/
theorem declareUse (name : String) (library : Path) :
    Despite r w (s.declareUse p name library) (t.declareUse p name library) :=
  { h with
    uses := fun k hk => by
      rw [Store.declareUse, Store.declareUse, Dict.adjust, Dict.adjust, Dict.find?_put,
        Dict.find?_put, h.uses k hk, h.uses _ hp] }

/-- A file is cached that the load has not cached. -/
theorem cacheFragment {f g : Fragment} (hf : f.location = p)
    (hfg : f.Resembles (r.Moved w.size) g) :
    Despite r w (s.cacheFragment f) (t.cacheFragment g) :=
  { h with
    fragments := fun k hk => by
      rw [Store.cacheFragment, Store.cacheFragment, hfg.location]
      exact Dict.rel_putNew (h.fragments k hk) f.location.key hfg
    cached := fun k hk => by
      rw [Store.cacheFragment, Dict.has_putNew]
      exact .inl (h.cached k hk)
    fragments_none := fun k hk => by
      have hne : ¬ g.location.key = k := by
        rw [hfg.location, hf]
        exact fun heq => hp (heq ▸ hk)
      rw [Store.cacheFragment, Dict.find?_putNew, h.fragments_none k hk, if_neg hne, Option.or_none] }

end

/-! ## Resolution -/

/-- A resolution begins in both. -/
theorem beginResolution {i j : ShapeId} (hij : r.Moved w.size i j) :
    Despite r w (s.beginResolution i) (t.beginResolution j) :=
  { h with
    inProgress := by
      rw [Store.beginResolution, Store.beginResolution, List.map_cons, ← hij.1, h.inProgress] }

/-- And ends in both. -/
theorem endResolution {i j : ShapeId} (hij : r.Moved w.size i j) :
    Despite r w (s.endResolution i) (t.endResolution j) :=
  { h with
    inProgress := by
      rw [Store.endResolution, Store.endResolution, h.inProgress, List.filter_map]
      refine congrArg (List.map _) (List.filter_congr fun k _ => decide_eq_decide.2 ?_)
      rw [hij.1]
      exact not_congr ⟨Residue.displace_inj, congrArg _⟩ }

/-- Corresponding resolutions are written into corresponding shapes. -/
theorem writeResolution {i j : ShapeId} (hij : r.Moved w.size i j) {p q : Resolution}
    (hpq : p.Rel (r.Moved w.size) q) (hk : p.body.kind ≠ .unknown) :
    Despite r (w.settle j) (s.writeResolution i p) (t.writeResolution j q) := by
  have hwrite := h.mapShape hij (f := fun x => { x with
      body := p.body
      inherits := x.inherits ++ p.inherits
      customFacets := Dict.putAll x.customFacets p.customFacets })
    (g := fun x => { x with
      body := q.body
      inherits := x.inherits ++ q.inherits
      customFacets := Dict.putAll x.customFacets q.customFacets })
    ?_ (fun _ => ⟨rfl, rfl, rfl⟩) (fun _ => ⟨rfl, rfl, rfl⟩) ?_
  · have hwritten : Despite r w (s.writeResolution i p) (t.writeResolution j q) := { hwrite with }
    refine hwritten.settle hij.2 fun c hc => ?_
    rw [Store.writeResolution, getElem?_mapShape, if_pos rfl] at hc
    obtain ⟨d, -, rfl⟩ := Option.map_eq_some_iff.1 hc
    refine Shape.isUnknown_eq_false_iff.2 ?_
    show q.body.kind ≠ .unknown
    rwa [hpq.body.kind]
  · intro a c hac
    exact { hac with
      rest := by rw [hac.rest, hpq.customFacets]
      inherits := List.rel_append hac.inherits hpq.inherits
      body := hpq.body }
  · intro c hu
    refine absurd hu (Bool.eq_false_iff.1 (Shape.isUnknown_eq_false_iff.2 ?_))
    show q.body.kind ≠ .unknown
    rwa [hpq.body.kind]

end Despite

end RamlTypes.Store
