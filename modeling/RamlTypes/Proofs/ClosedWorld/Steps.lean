import RamlTypes.Proofs.ClosedWorld.Basic

/-!
# What one step of a load preserves

Each change that a load makes keeps `Store.During`, in a world that has grown by what was added.
-/

namespace RamlTypes.Store

variable {b s : Store} {phase : Phase} {w : Extent b}

namespace Extent

/-- A file notes the name of a type in an index. -/
theorem find?_adjust (w : Extent b) {d : Dict PathKey (Dict String ShapeId)} {p : Path}
    (hp : w.begun p.key) (name : String) {i : ShapeId} (hi : w.Alive i i)
    (hd : ∀ k e, Dict.find? k d = some e →
      (Dict.has k b.fragments ∨ w.begun k) ∧ Dict.Rel w.Alive e e)
    {k : PathKey} {e : Dict String ShapeId}
    (he : Dict.find? k (Dict.adjust p.key [] (Dict.put name i) d) = some e) :
    (Dict.has k b.fragments ∨ w.begun k) ∧ Dict.Rel w.Alive e e := by
  rw [Dict.adjust, Dict.find?_put] at he
  split at he
  · next hk =>
    subst hk
    cases he
    refine ⟨.inr hp, .put ?_ name hi⟩
    rcases hf : Dict.find? p.key d with _ | e
    · exact .nil
    · exact (hd _ e hf).2
  · exact hd k e he

end Extent

namespace During

variable (h : b.During phase w s)
include h

/-- A number that is in use belongs to a shape. -/
theorem exists_shape {i j : ShapeId} (hi : w.Alive i j) : ∃ a, s.shapes[i]? = some a :=
  ⟨_, Array.getElem?_eq_getElem (h.size ▸ hi.2.1)⟩

/-- The store gets one more shape. -/
theorem addShape (hp : phase ≠ .binding) {a : Shape} (ha : a.Rel w.Alive a)
    (hb : w.begun a.location.key) : b.During phase w.grow (s.addShape a) := by
  have mono : ∀ i j, w.Alive i j → w.grow.Alive i j := fun _ _ => .mono (Nat.le_succ _)
  have old_lt {i : Nat} (hi : i < b.shapes.size) : i < s.shapes.size :=
    Nat.lt_of_lt_of_le hi (h.size ▸ w.size_le)
  have cases {i : ShapeId} {c : Shape} (hc : (s.addShape a).shapes[i]? = some c) :
      (i = w.size ∧ c = { a with id := s.shapes.size }) ∨ s.shapes[i]? = some c := by
    rw [getElem?_addShape] at hc
    split at hc
    · next hi =>
      cases hc
      exact .inl ⟨hi.trans h.size, rfl⟩
    · exact .inr hc
  exact
  { h with
    size := by
      show (s.shapes.push _).size = w.size + 1
      rw [Array.size_push, h.size]
    old := fun i hi => by
      rw [getElem?_addShape, if_neg (Nat.ne_of_lt (old_lt hi)), h.old i hi]
    same := ⟨h.same.fragments, h.same.named, h.same.annotationTypes, h.same.uses⟩
    ids := fun i c hc => by
      rcases cases hc with ⟨rfl, rfl⟩ | hc
      · exact h.size
      · exact h.ids i c hc
    alive := fun i c hc hi => by
      rcases cases hc with ⟨rfl, rfl⟩ | hc
      · exact (ha.mono mono).setIds _ _
      · exact (h.alive i c hc hi).mono mono
    begun := fun i c hi hc => by
      rcases cases hc with ⟨rfl, rfl⟩ | hc
      · exact hb
      · exact h.begun i c hi hc
    waiting := fun i c hi hc hu => by
      show i ∈ (if a.isUnknown then s.unresolved ++ [s.shapes.size] else s.unresolved) ∨ _
      rcases cases hc with ⟨rfl, rfl⟩ | hc
      · have ha : a.isUnknown = true := hu
        rw [if_pos ha, h.size]
        exact .inl (List.mem_append_right _ List.mem_cons_self)
      · refine (h.waiting i c hi hc hu).imp_left fun hmem => ?_
        split
        · exact List.mem_append_left _ hmem
        · exact hmem
    resolved := fun i hi => by
      obtain ⟨hlt, hr⟩ := h.resolved i hi
      refine ⟨Nat.lt_succ_of_lt hlt, fun c hc => ?_⟩
      rcases cases hc with ⟨rfl, -⟩ | hc
      · exact absurd hlt (Nat.lt_irrefl _)
      · exact hr c hc
    queue := fun i hi => by
      have hi : i ∈ (if a.isUnknown then s.unresolved ++ [s.shapes.size] else s.unresolved) := hi
      have hold {i : ShapeId} (hi : i ∈ s.unresolved) :=
        (h.queue i hi).imp_right Nat.lt_succ_of_lt
      split at hi
      · rcases List.mem_append.1 hi with hi | hi
        · exact hold hi
        · rw [List.mem_singleton.1 hi, h.size]
          exact ⟨w.size_le, Nat.lt_succ_self _⟩
      · exact hold hi
    quiet := fun hb => absurd hb hp
    fragments := fun k f hf => (h.fragments k f hf).mono mono fun _ _ => .mono mono
    named := fun k d hd => (h.named k d hd).imp_right (.mono mono)
    annotationTypes := fun k d hd => (h.annotationTypes k d hd).imp_right (.mono mono) }

/-- A shape that the load has added is changed in what does not say where it was declared. -/
theorem mapShape {i : ShapeId} {f : Shape → Shape} (hi : b.shapes.size ≤ i)
    (alive : ∀ a, s.shapes[i]? = some a → i ∉ b.failed → (f a).Rel w.Alive (f a))
    (id : ∀ a, (f a).id = a.id) (location : ∀ a, (f a).location = a.location)
    (waiting : ∀ a, s.shapes[i]? = some a → (f a).isUnknown → a.isUnknown) :
    b.During phase w (s.mapShape i f) := by
  have cases {j : ShapeId} {c : Shape} (hc : (s.mapShape i f).shapes[j]? = some c) :
      (i = j ∧ ∃ a, s.shapes[i]? = some a ∧ f a = c) ∨ s.shapes[j]? = some c := by
    rw [getElem?_mapShape] at hc
    split at hc
    · next hj =>
      subst hj
      obtain ⟨a, ha, hac⟩ := Option.map_eq_some_iff.1 hc
      exact .inl ⟨rfl, a, ha, hac⟩
    · exact .inr hc
  exact
  { h with
    size := (size_mapShape s i f).trans h.size
    old := fun j hj => by
      rw [getElem?_mapShape, if_neg (Nat.ne_of_gt (Nat.lt_of_lt_of_le hj hi)), h.old j hj]
    same := ⟨h.same.fragments, h.same.named, h.same.annotationTypes, h.same.uses⟩
    ids := fun j c hc => by
      rcases cases hc with ⟨rfl, a, ha, rfl⟩ | hc
      · exact (id a).trans (h.ids i a ha)
      · exact h.ids j c hc
    alive := fun j c hc hj => by
      rcases cases hc with ⟨rfl, a, ha, rfl⟩ | hc
      · exact alive a ha hj
      · exact h.alive j c hc hj
    begun := fun j c hj hc => by
      rcases cases hc with ⟨rfl, a, ha, rfl⟩ | hc
      · exact location a ▸ h.begun i a hj ha
      · exact h.begun j c hj hc
    waiting := fun j c hj hc hu => by
      rcases cases hc with ⟨rfl, a, ha, rfl⟩ | hc
      · exact h.waiting i a hj ha (waiting a ha hu)
      · exact h.waiting j c hj hc hu
    resolved := fun j hj => by
      obtain ⟨hlt, hr⟩ := h.resolved j hj
      refine ⟨hlt, fun c hc => Bool.eq_false_iff.2 fun hu => ?_⟩
      rcases cases hc with ⟨rfl, a, ha, rfl⟩ | hc
      · exact Bool.eq_false_iff.1 (hr a ha) (waiting a ha hu)
      · exact Bool.eq_false_iff.1 (hr c hc) hu }

/-- It is noted that a shape is resolved. -/
theorem settle {i : ShapeId} (hi : i < w.size) (hr : s.IsResolved i) :
    b.During phase (w.settle i) s :=
  { h with
    size := h.size
    resolved := fun j hj => by
      rcases hj with rfl | hj
      · exact ⟨hi, hr⟩
      · exact h.resolved j hj }

theorem declareType {p : Path} (hp : w.begun p.key) (name : String) {i : ShapeId}
    (hi : w.Alive i i) : b.During phase w (s.declareType p name i) :=
  { h with
    same := { h.same with
      named := find?_adjust_other (w.fresh _ hp) _ _ h.same.named }
    named := fun _ _ => w.find?_adjust hp name hi h.named }

theorem declareAnnotationType {p : Path} (hp : w.begun p.key) (name : String) {i : ShapeId}
    (hi : w.Alive i i) : b.During phase w (s.declareAnnotationType p name i) :=
  { h with
    same := { h.same with
      named := find?_adjust_other (w.fresh _ hp) _ _ h.same.named
      annotationTypes := find?_adjust_other (w.fresh _ hp) _ _ h.same.annotationTypes }
    named := fun _ _ => w.find?_adjust hp name hi h.named
    annotationTypes := fun _ _ => w.find?_adjust hp name hi h.annotationTypes }

theorem declareUse {p : Path} (hp : w.begun p.key) (name : String) (library : Path) :
    b.During phase w (s.declareUse p name library) :=
  { h with
    same := { h.same with uses := find?_adjust_other (w.fresh _ hp) _ _ h.same.uses }
    uses := fun k hk => by
      rw [Store.declareUse, Dict.has, Dict.adjust, Dict.find?_put] at hk
      split at hk
      · next hpk => exact .inr (hpk ▸ hp)
      · exact h.uses k hk }

/-- The loading of a file begins that the load does not know. -/
theorem beginLoading {p : Path} (hp : ¬ Dict.has p.key b.fragments) :
    b.During phase (w.begin p.key hp) (s.beginLoading p) :=
  { h with
    size := h.size
    same := ⟨h.same.fragments, h.same.named, h.same.annotationTypes, h.same.uses⟩
    begun := fun i a hi ha => .inr (h.begun i a hi ha)
    loading := fun k hk => by
      rcases hk with rfl | hk
      · exact .inr List.mem_cons_self
      · exact (h.loading k hk).imp_right (List.mem_cons_of_mem _)
    named := fun k d hd => ⟨(h.named k d hd).1.imp_right .inr, (h.named k d hd).2⟩
    annotationTypes := fun k d hd =>
      ⟨(h.annotationTypes k d hd).1.imp_right .inr, (h.annotationTypes k d hd).2⟩
    uses := fun k hk => (h.uses k hk).imp_right .inr }

/-- The loading of a file ends, and its fragment is cached. -/
theorem cacheFragment {p : Path} {f : Fragment} (hp : w.begun p.key) (location : f.location = p)
    (hf : f.IsAlive w.size b.failed) :
    b.During phase w ((s.endLoading p).cacheFragment f) :=
  { h with
    same := { h.same with
      fragments := fun k hk => by
        have hne : ¬ f.location.key = k := by
          rintro rfl
          exact w.fresh _ hp (location ▸ hk)
        rw [Store.cacheFragment, Dict.find?_putNew, if_neg hne, Option.or_none]
        exact h.same.fragments k hk }
    loading := fun k hk => by
      rw [Store.cacheFragment, Dict.has, Dict.find?_putNew, location]
      by_cases hpk : p.key = k
      · rw [if_pos hpk]
        exact .inl (by simp)
      · rw [if_neg hpk, Option.or_none]
        refine (h.loading k hk).imp_right fun hmem => List.mem_filter.2 ⟨hmem, ?_⟩
        exact decide_eq_true fun heq => hpk heq.symm
    fragments := fun k g hg => by
      rw [Store.cacheFragment, Dict.find?_putNew] at hg
      rcases Option.or_eq_some_iff.1 hg with hg | ⟨-, hg⟩
      · exact h.fragments k g hg
      · split at hg
        · cases hg
          exact hf
        · cases hg }

end During

end RamlTypes.Store
