import RamlTypes.Proofs.Isolation.Basic

/-!
# Steps of two loads at a time

Each change of a store that both loads make keeps `Store.OnTop`.
-/

namespace RamlTypes.Store

variable {b s t : Store} {w : Progress}

/-- The change leaves the number of a shape, and where it was declared. -/
abbrev KeepsPlace (f : Shape → Shape) : Prop :=
  ∀ a, (f a).id = a.id ∧ (f a).location = a.location ∧ (f a).link = a.link

namespace Appended

variable (h : b.Appended s t)
include h

/-- Related numbers belong to corresponding shapes. -/
theorem exists_twin {i j : ShapeId} (hij : b.Shifted t.shapes.size i j) :
    ∃ a c, s.shapes[i]? = some a ∧ t.shapes[j]? = some c ∧ b.IsTwin t.shapes.size j a c := by
  obtain ⟨rfl, hj⟩ := hij
  have hc := Array.getElem?_eq_getElem hj
  obtain ⟨a, ha, hac⟩ := h.shapes j _ hc
  exact ⟨a, _, ha, hc, hac⟩

/-- Corresponding shapes are stored. -/
theorem addShape {a c : Shape} (hac : a.Rel (b.Shifted t.shapes.size) c)
    (foreign : b.IsForeign c.location) (link : ∀ p ∈ c.link, b.IsForeign p) :
    b.Appended (s.addShape a) (t.addShape c) where
  size := by
    show (s.shapes.push _).size = b.shapes.size + (t.shapes.push _).size
    rw [Array.size_push, Array.size_push, h.size, Nat.add_assoc]
  old i hi := by
    have hlt : i < s.shapes.size := by rw [h.size]; exact Nat.lt_add_right _ hi
    rw [getElem?_addShape, if_neg (Nat.ne_of_lt hlt), h.old i hi]
  shapes j d hd := by
    have hsize : (t.addShape c).shapes.size = t.shapes.size + 1 := Array.size_push ..
    have mono : ∀ i j, b.Shifted t.shapes.size i j → b.Shifted (t.addShape c).shapes.size i j :=
      fun _ _ => .mono (hsize ▸ Nat.le_succ _)
    rw [getElem?_addShape] at hd ⊢
    split at hd
    · next hj =>
      cases hd
      rw [if_pos (by rw [hj, h.size])]
      exact ⟨_, rfl, (hac.mono mono).setIds _ _, by rw [hj, h.size], hj.symm, foreign, link⟩
    · next hj =>
      rw [if_neg (by rw [h.size]; exact fun he => hj (Nat.add_left_cancel he))]
      obtain ⟨a', ha', htwin⟩ := h.shapes j d hd
      exact ⟨a', ha', { htwin with rel := htwin.rel.mono mono }⟩
  diagnostics := h.diagnostics

/-- Corresponding shapes are changed in the same way. -/
theorem mapShape {i j : ShapeId} (hij : b.Shifted t.shapes.size i j) {f g : Shape → Shape}
    (rel : ∀ a c, s.shapes[i]? = some a → t.shapes[j]? = some c → a.Rel (b.Shifted t.shapes.size) c →
      (f a).Rel (b.Shifted t.shapes.size) (g c))
    (keeps : KeepsPlace f) (keeps' : KeepsPlace g) :
    b.Appended (s.mapShape i f) (t.mapShape j g) where
  size := by rw [size_mapShape, size_mapShape, h.size]
  old k hk := by
    have hne : ¬ i = k := by
      rw [hij.1]
      exact Nat.ne_of_gt (Nat.lt_of_lt_of_le hk (Nat.le_add_right _ _))
    rw [getElem?_mapShape, if_neg hne, h.old k hk]
  shapes k d hd := by
    obtain ⟨rfl, hj⟩ := hij
    rw [size_mapShape]
    rw [getElem?_mapShape] at hd ⊢
    split at hd
    · next hk =>
      subst hk
      obtain ⟨c, hc, rfl⟩ := Option.map_eq_some_iff.1 hd
      obtain ⟨a, ha, htwin⟩ := h.shapes j c hc
      rw [if_pos rfl, ha]
      obtain ⟨id', location, link⟩ := keeps' c
      exact ⟨f a, rfl, rel a c ha hc htwin.rel, (keeps a).1.trans htwin.id, id'.trans htwin.id',
        location.symm ▸ htwin.foreign, link.symm ▸ htwin.link⟩
    · next hk =>
      rw [if_neg fun he => hk (Nat.add_left_cancel he)]
      exact h.shapes k d hd
  diagnostics := h.diagnostics

end Appended

namespace OnTop

variable (h : b.OnTop w s t)
include h

/-- The numbers are shifted within the store on the right. -/
theorem shifted_size {i j : ShapeId} (hij : b.Shifted w.size i j) :
    b.Shifted t.shapes.size i j := h.size' ▸ hij

/-- The next shapes have related numbers. -/
theorem shifted_next : b.Shifted w.grow.size s.shapes.size t.shapes.size :=
  ⟨h.size, h.size' ▸ Nat.lt_succ_self _⟩

/-- Storing related shapes keeps the stores on top of each other. -/
theorem addShape {a c : Shape} (hac : a.Rel (b.Shifted w.size) c)
    (foreign : b.IsForeign c.location) (link : ∀ p ∈ c.link, b.IsForeign p) :
    b.OnTop w.grow (s.addShape a) (t.addShape c) := by
  have mono : ∀ i j, b.Shifted w.size i j → b.Shifted w.grow.size i j :=
    fun _ _ => .mono (Nat.le_succ _)
  exact
  { h with
    toAppended := h.toAppended.addShape (h.size' ▸ hac) foreign link
    size' := (Array.size_push _).trans (congrArg (· + 1) h.size')
    resolved := fun j hj => by
      obtain ⟨hlt, hr⟩ := h.resolved j hj
      refine ⟨Nat.lt_succ_of_lt hlt, fun d hd => hr d ?_⟩
      rwa [getElem?_addShape, if_neg (by rw [h.size']; exact Nat.ne_of_lt hlt)] at hd
    unresolved := by
      rw [Store.addShape, Store.addShape, hac.isUnknown]
      dsimp only
      split
      · rw [h.unresolved, h.size, List.map_append, List.map_singleton]
      · exact h.unresolved
    queue := fun j hj => by
      have hj : j ∈ (if c.isUnknown then t.unresolved ++ [t.shapes.size] else t.unresolved) := hj
      split at hj
      · rcases List.mem_append.1 hj with hj | hj
        · exact Nat.lt_succ_of_lt (h.queue j hj)
        · rw [List.mem_singleton.1 hj, h.size']
          exact Nat.lt_succ_self _
      · exact Nat.lt_succ_of_lt (h.queue j hj)
    fragments := fun k hk =>
      (h.fragments k hk).imp fun _ _ => .mono mono fun _ _ => .mono mono
    named := fun k hk => (h.named k hk).imp fun _ _ => .mono mono
    annotationTypes := fun k hk => (h.annotationTypes k hk).imp fun _ _ => .mono mono }

/-- So does changing shapes that stand for each other. -/
theorem mapShape {i j : ShapeId} (hij : b.Shifted w.size i j) {f g : Shape → Shape}
    (rel : ∀ a c, s.shapes[i]? = some a → t.shapes[j]? = some c → a.Rel (b.Shifted w.size) c →
      (f a).Rel (b.Shifted w.size) (g c))
    (keeps : KeepsPlace f) (keeps' : KeepsPlace g)
    (unknown : ∀ c, t.shapes[j]? = some c → (g c).isUnknown → c.isUnknown) :
    b.OnTop w (s.mapShape i f) (t.mapShape j g) :=
  { h with
    toAppended := by
      rw [← h.size'] at rel hij
      exact h.toAppended.mapShape hij rel keeps keeps'
    size' := (size_mapShape t j g).trans h.size'
    resolved := fun k hk => by
      obtain ⟨hlt, hr⟩ := h.resolved k hk
      refine ⟨hlt, fun d hd => ?_⟩
      rw [getElem?_mapShape] at hd
      split at hd
      · next hj =>
        subst hj
        obtain ⟨c, hc, rfl⟩ := Option.map_eq_some_iff.1 hd
        exact Bool.eq_false_iff.2 fun hu => Bool.eq_false_iff.1 (hr c hc) (unknown c hc hu)
      · exact hr d hd }

/-- It is noted that a shape is resolved. -/
theorem settle {j : ShapeId} (hj : j < w.size) (hr : t.IsResolved j) : b.OnTop (w.settle j) s t :=
  { h with
    size' := h.size'
    resolved := fun k hk => by
      rcases hk with rfl | hk
      · exact ⟨hj, hr⟩
      · exact h.resolved k hk }

/-- So does a report. -/
theorem report (d : Diagnostic) : b.OnTop w (s.report d) (t.report d) :=
  { h with
    diagnostics := by rw [Store.report, Store.report, h.diagnostics, List.append_assoc] }

/-- So does the count of a read. -/
theorem countRead (purpose : Purpose) (p : Path) :
    b.OnTop w (s.countRead purpose p) (t.countRead purpose p) :=
  { h with }

/-- An example that was not cached before is cached in both. -/
theorem cacheExample {p : Path} (hp : ¬ Dict.has p.key b.examples) (e : ExampleFile) :
    b.OnTop w (s.cacheExample p e) (t.cacheExample p e) :=
  { h with
    examples := fun k hk => by
      rw [Store.cacheExample, Store.cacheExample, Dict.find?_putNew, Dict.find?_putNew, h.examples k hk]
    cachedExamples := fun k d hd => by
      have hne : ¬ p.key = k := fun he => hp (he ▸ Dict.has_iff.2 ⟨d, hd⟩)
      rw [Store.cacheExample, Store.cacheExample, Dict.find?_putNew, Dict.find?_putNew, if_neg hne,
        Option.or_none, Option.or_none]
      exact h.cachedExamples k d hd }

/-- An example that `b` has cached is read again without `b`. -/
theorem cacheAgain {p : Path} {e : ExampleFile} (hp : Dict.find? p.key b.examples = some e) :
    b.OnTop w s ((t.countRead .exampleFile p).cacheExample p e) :=
  { h with
    examples := fun k hk => by
      have hne : ¬ p.key = k := fun heq => hk (heq ▸ Dict.has_iff.2 ⟨e, hp⟩)
      rw [Store.cacheExample, Dict.find?_putNew, if_neg hne, Option.or_none]
      exact h.examples k hk
    cachedExamples := fun k d hd => by
      obtain ⟨hs, ht⟩ := h.cachedExamples k d hd
      refine ⟨hs, ?_⟩
      rw [Store.cacheExample, Dict.find?_putNew]
      show (Dict.find? k t.examples).or _ = none ∨ (Dict.find? k t.examples).or _ = some d
      rcases ht with ht | ht <;> rw [ht]
      · split
        · next heq =>
          subst heq
          cases hp.symm.trans hd
          exact .inr rfl
        · exact .inl rfl
      · exact .inr rfl }

end OnTop

namespace OnTop

variable (h : b.OnTop w s t)
include h

/-- A type is noted in both under its number. -/
theorem declareType (p : Path) (name : String) {i j : ShapeId} (hij : b.Shifted w.size i j) :
    b.OnTop w (s.declareType p name i) (t.declareType p name j) :=
  { h with named := fun k hk => Dict.rel_adjust (h.named k hk) p.key name hij }

/-- So is an annotation type. -/
theorem declareAnnotationType (p : Path) (name : String) {i j : ShapeId}
    (hij : b.Shifted w.size i j) :
    b.OnTop w (s.declareAnnotationType p name i) (t.declareAnnotationType p name j) :=
  { h with
    named := fun k hk => Dict.rel_adjust (h.named k hk) p.key name hij
    annotationTypes := fun k hk => Dict.rel_adjust (h.annotationTypes k hk) p.key name hij }

/-- So is the use of a foreign library. -/
theorem declareUse {p : Path} (hp : b.IsForeign p) (name : String) {library : Path}
    (foreign : b.IsForeign library) :
    b.OnTop w (s.declareUse p name library) (t.declareUse p name library) :=
  { h with
    uses := fun k hk => by
      rw [Store.declareUse, Store.declareUse, Dict.adjust, Dict.adjust, Dict.find?_put,
        Dict.find?_put, h.uses k hk, h.uses _ hp.2]
    targets := fun k d l q hd hq => by
      rw [Store.declareUse, Dict.adjust, Dict.find?_put] at hd
      split at hd
      · cases hd
        rw [Dict.find?_put] at hq
        split at hq
        · cases hq
          exact foreign
        · rcases hu : Dict.find? p.key t.uses with _ | e
          · rw [hu] at hq
            cases hq
          · rw [hu] at hq
            exact h.targets _ e l q hu hq
      · exact h.targets k d l q hd hq }

/-- A foreign file begins to be loaded in both. -/
theorem beginLoading {p : Path} (hp : b.IsForeign p) :
    b.OnTop w (s.beginLoading p) (t.beginLoading p) :=
  { h with
    loading := congrArg (p.key :: ·) h.loading
    loading_foreign := fun k hk => by
      rcases List.mem_cons.1 hk with rfl | hk
      · exact hp.2
      · exact h.loading_foreign k hk }

/-- And ends to be. -/
theorem endLoading (p : Path) : b.OnTop w (s.endLoading p) (t.endLoading p) :=
  { h with
    loading := congrArg (List.filter (· ≠ p.key)) h.loading
    loading_foreign := fun k hk => h.loading_foreign k (List.mem_of_mem_filter hk) }

/-- Related fragments of a foreign file are cached. -/
theorem cacheFragment {f g : Fragment} (foreign : b.IsForeign f.location)
    (location : g.location = f.location)
    (hfg : f.Rel (b.Shifted w.size) (AnnotationUse.Rel (b.Shifted w.size)) g) :
    b.OnTop w (s.cacheFragment f) (t.cacheFragment g) :=
  { h with
    fragments := fun k hk => by
      rw [Store.cacheFragment, Store.cacheFragment, location]
      exact Dict.rel_putNew (h.fragments k hk) f.location.key hfg
    foreign := fun k hk => by
      have hne : ¬ g.location.key = k := by
        rw [location]
        exact fun he => foreign.2 (he ▸ hk)
      rw [Store.cacheFragment, Dict.find?_putNew, h.foreign k hk, if_neg hne, Option.or_none] }

end OnTop

end RamlTypes.Store
