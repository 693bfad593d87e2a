import RamlTypes.Proofs.Coherence.Basic

/-!
# What one step of a request preserves

Each change that a request makes keeps `Store.Underway`, in a world that has grown by what was added.
-/

namespace RamlTypes.Store

variable {b s : Store} {known : PathKey → Prop} {phase : Phase} {w : Extent b}

/-- What a change of a shape leaves: the number, the file, and how it was declared. -/
structure KeepsDeclaration (f : Shape → Shape) : Prop where
  id : ∀ a, (f a).id = a.id
  location : ∀ a, (f a).location = a.location
  isUnknown : ∀ a, (f a).isUnknown → a.isUnknown
  inherits : ∀ a, (f a).isUnknown → (f a).inherits = a.inherits
  declared : ∀ a, a.AwaitsDeclared → (f a).AwaitsDeclared

/-- A file notes the name of a type in an index. -/
theorem Extent.find?_adjust_below (w : Extent b) {d : Dict PathKey (Dict String ShapeId)}
    {k₀ : PathKey} (hk₀ : w.Opened known k₀) (name : String) {i : ShapeId} (hi : i < w.size)
    (hd : ∀ k e, Dict.find? k d = some e → w.Opened known k ∧ Dict.Rel (Below w.size) e e)
    {k : PathKey} {e : Dict String ShapeId}
    (he : Dict.find? k (Dict.adjust k₀ [] (Dict.put name i) d) = some e) :
    w.Opened known k ∧ Dict.Rel (Below w.size) e e := by
  rw [Dict.adjust, Dict.find?_put] at he
  split at he
  · next hk =>
    subst hk
    cases he
    refine ⟨hk₀, .put ?_ name ⟨rfl, hi⟩⟩
    rcases hf : Dict.find? k₀ d with _ | e
    · exact .nil
    · exact (hd _ e hf).2
  · exact hd k e he

namespace Since

variable (h : b.Since known phase w s)
include h

/-- The mark of a file that is read is taken away. -/
theorem endLoading (p : Path) : b.Since known phase w (s.endLoading p) :=
  { h with same := { h.same with } }

/-- A resolution begins. -/
theorem beginResolution (i : ShapeId) : b.Since known phase w (s.beginResolution i) :=
  { h with same := { h.same with } }

/-- A resolution ends. -/
theorem endResolution (i : ShapeId) : b.Since known phase w (s.endResolution i) :=
  { h with same := { h.same with } }

/-- A shape is marked as failed. -/
theorem markFailed (i : ShapeId) : b.Since known phase w (s.markFailed i) := by
  have hsub := (grows_markFailed s i).failed
  exact
  { h with
    same := { h.same with }
    waiting := fun j a ha hu => (h.waiting j a ha hu).imp_left fun hf => hsub hf
    locations := fun j a ha => (h.locations j a ha).imp_left fun hf => hsub hf }

end Since

namespace Underway

variable (h : b.Underway known phase w s)
include h

/-- The store gets one more shape. -/
theorem addShape (hp : phase ≠ .binding) {a : Shape} (ha : a.Rel (Below w.size) a)
    (hd : a.AwaitsDeclared) (hl : w.Opened known a.location.key) :
    b.Underway known phase w.grow (s.addShape a) := by
  have mono : ∀ i j, Below w.size i j → Below w.grow.size i j := fun _ _ => .mono (Nat.le_succ _)
  have hqueue : (s.addShape a).unresolved =
      s.unresolved ++ if a.isUnknown then [w.size] else [] := by
    rw [Store.addShape, h.size]
    dsimp only
    split
    · rfl
    · rw [List.append_nil]
  have hnew {i : ShapeId} (hi : i ∈ if a.isUnknown then [w.size] else []) : i = w.size := by
    split at hi
    · exact List.mem_singleton.1 hi
    · cases hi
  exact
  { h with
    size := by
      show (s.shapes.push _).size = w.size + 1
      rw [Array.size_push, h.size]
    same := { h.same with }
    ids := fun i c hc => by
      rcases cases_of_addShape hc with ⟨rfl, rfl⟩ | hc
      · rfl
      · exact h.ids i c hc
    shapes := fun i c hc => by
      rcases cases_of_addShape hc with ⟨rfl, rfl⟩ | hc
      · exact (ha.mono mono).setIds _ _
      · exact (h.shapes i c hc).mono mono
    declared := fun i c hc => by
      rcases cases_of_addShape hc with ⟨rfl, rfl⟩ | hc
      · exact hd
      · exact h.declared i c hc
    parents := fun i c hc hu j hj => by
      rcases cases_of_addShape hc with ⟨rfl, rfl⟩ | hc
      · exact h.size ▸ (List.forall₂_same.1 ha.inherits j hj).2
      · exact h.parents i c hc hu j hj
    waiting := fun i c hc hu => by
      rw [hqueue, List.mem_append]
      rcases cases_of_addShape hc with ⟨rfl, rfl⟩ | hc
      · have hu : a.isUnknown = true := hu
        rw [if_pos hu, h.size]
        exact .inr (.inl (.inr List.mem_cons_self))
      · exact (h.waiting i c hc hu).imp_right fun hq => hq.imp_left .inl
    locations := fun i c hc => by
      rcases cases_of_addShape hc with ⟨rfl, rfl⟩ | hc
      · exact .inr hl
      · exact h.locations i c hc
    concrete := fun i hi => by
      obtain ⟨hlt, hr⟩ := h.concrete i hi
      refine ⟨Nat.lt_succ_of_lt hlt, fun c hc => ?_⟩
      rcases cases_of_addShape hc with ⟨hi, -⟩ | hc
      · exact absurd hlt (by rw [hi, h.size]; exact Nat.lt_irrefl _)
      · exact hr c hc
    queue := fun i hi => by
      rw [hqueue] at hi
      rcases List.mem_append.1 hi with hi | hi
      · exact Nat.lt_succ_of_lt (h.queue i hi)
      · rw [hnew hi]
        exact Nat.lt_succ_self _
    suffix := by
      have hskip : (if a.isUnknown then [w.size] else []).filter (· < b.shapes.size) = [] := by
        refine List.filter_eq_nil_iff.2 fun i hi => ?_
        rw [hnew hi, decide_eq_true_iff]
        exact Nat.not_lt_of_le w.size_le
      rw [hqueue, List.filter_append, hskip, List.append_nil]
      exact h.suffix
    resolved := fun i hi => Nat.lt_succ_of_lt (h.resolved i hi)
    quiet := fun hb => absurd hb hp
    fragments := fun k f hf => (h.fragments k f hf).mono mono fun _ _ => .mono mono
    named := fun k d hd => (h.named k d hd).imp_right (.mono mono)
    annotationTypes := fun k d hd => (h.annotationTypes k d hd).imp_right (.mono mono) }

/-- A shape is changed in what does not say how it was declared. -/
theorem mapShape {i : ShapeId} {f : Shape → Shape} (hf : KeepsDeclaration f)
    (hrel : ∀ a, s.shapes[i]? = some a → a.Rel (Below w.size) a → (f a).Rel (Below w.size) (f a)) :
    b.Underway known phase w (s.mapShape i f) :=
  { h with
    size := (size_mapShape s i f).trans h.size
    same := { h.same with }
    ids := fun j c hc => by
      rcases cases_of_mapShape hc with ⟨rfl, a, ha, rfl⟩ | hc
      · exact (hf.id a).trans (h.ids i a ha)
      · exact h.ids j c hc
    shapes := fun j c hc => by
      rcases cases_of_mapShape hc with ⟨rfl, a, ha, rfl⟩ | hc
      · exact hrel a ha (h.shapes i a ha)
      · exact h.shapes j c hc
    declared := fun j c hc => by
      rcases cases_of_mapShape hc with ⟨rfl, a, ha, rfl⟩ | hc
      · exact hf.declared a (h.declared i a ha)
      · exact h.declared j c hc
    parents := fun j c hc hu k hk => by
      rcases cases_of_mapShape hc with ⟨rfl, a, ha, rfl⟩ | hc
      · exact h.parents i a ha (hf.isUnknown a hu) k (hf.inherits a hu ▸ hk)
      · exact h.parents j c hc hu k hk
    waiting := fun j c hc hu => by
      rcases cases_of_mapShape hc with ⟨rfl, a, ha, rfl⟩ | hc
      · exact h.waiting i a ha (hf.isUnknown a hu)
      · exact h.waiting j c hc hu
    locations := fun j c hc => by
      rcases cases_of_mapShape hc with ⟨rfl, a, ha, rfl⟩ | hc
      · exact hf.location a ▸ h.locations i a ha
      · exact h.locations j c hc
    concrete := fun j hj => by
      obtain ⟨hlt, hr⟩ := h.concrete j hj
      refine ⟨hlt, fun c hc => Bool.eq_false_iff.2 fun hu => ?_⟩
      rcases cases_of_mapShape hc with ⟨rfl, a, ha, rfl⟩ | hc
      · exact Bool.eq_false_iff.1 (hr a ha) (hf.isUnknown a hu)
      · exact Bool.eq_false_iff.1 (hr c hc) hu }

/-- It is noted that a shape is resolved. -/
theorem settle {i : ShapeId} (hi : i < w.size) (hr : s.IsResolved i) :
    b.Underway known phase (w.settle i) s :=
  { h with
    size := h.size
    concrete := fun j hj => by
      rcases hj with rfl | hj
      · exact ⟨hi, hr⟩
      · exact h.concrete j hj }

/-- A resolution is written into its shape. -/
theorem writeResolution {i : ShapeId} (hi : i < w.size) {r : Resolution}
    (hr : r.Rel (Below w.size) r) (hk : r.body.kind ≠ .unknown) :
    b.Underway known phase (w.settle i) (s.writeResolution i r) := by
  let f (a : Shape) : Shape :=
    { a with
      body := r.body
      inherits := a.inherits ++ r.inherits
      customFacets := Dict.putAll a.customFacets r.customFacets }
  have hconcrete (a : Shape) : (f a).isUnknown = false := Shape.isUnknown_eq_false_iff.2 hk
  have keeps : KeepsDeclaration f :=
    { id := fun _ => rfl
      location := fun _ => rfl
      isUnknown := fun a hu => absurd hu (Bool.eq_false_iff.1 (hconcrete a))
      inherits := fun a hu => absurd hu (Bool.eq_false_iff.1 (hconcrete a))
      declared := fun a _ hu => absurd hu (Bool.eq_false_iff.1 (hconcrete a)) }
  have hmap : b.Underway known phase w (s.mapShape i f) := h.mapShape keeps fun a _ haa =>
    { haa with
      rest := congrArg f haa.rest
      inherits := List.rel_append haa.inherits hr.inherits
      body := hr.body }
  have hwritten : b.Underway known phase w (s.writeResolution i r) :=
    { hmap with
      same := { hmap.same with }
      resolved := fun j hj => by
        rcases List.mem_append.1 hj with hj | hj
        · exact h.resolved j hj
        · exact List.mem_singleton.1 hj ▸ hi }
  refine hwritten.settle hi fun c hc => ?_
  have hc : (s.mapShape i f).shapes[i]? = some c := hc
  rw [getElem?_mapShape, if_pos rfl] at hc
  obtain ⟨a, -, rfl⟩ := Option.map_eq_some_iff.1 hc
  exact hconcrete a

/-! ## Files -/

/-- A type is noted of a file that has been opened. -/
theorem declareType {p : Path} (hp : w.Opened known p.key) (hnew : ¬ Dict.has p.key b.fragments)
    (name : String) {i : ShapeId} (hi : i < w.size) :
    b.Underway known phase w (s.declareType p name i) :=
  { h with
    same := { h.same with named := find?_adjust_other hnew _ _ h.same.named }
    named := fun _ _ => w.find?_adjust_below hp name hi h.named }

/-- So is an annotation type. -/
theorem declareAnnotationType {p : Path} (hp : w.Opened known p.key)
    (hnew : ¬ Dict.has p.key b.fragments) (name : String) {i : ShapeId} (hi : i < w.size) :
    b.Underway known phase w (s.declareAnnotationType p name i) :=
  { h with
    same := { h.same with
      named := find?_adjust_other hnew _ _ h.same.named
      annotationTypes := find?_adjust_other hnew _ _ h.same.annotationTypes }
    named := fun _ _ => w.find?_adjust_below hp name hi h.named
    annotationTypes := fun _ _ => w.find?_adjust_below hp name hi h.annotationTypes }

/-- So is the use of a library. -/
theorem declareUse {p : Path} (hp : w.Opened known p.key) (hnew : ¬ Dict.has p.key b.fragments)
    (name : String) (library : Path) : b.Underway known phase w (s.declareUse p name library) :=
  { h with
    same := { h.same with uses := find?_adjust_other hnew _ _ h.same.uses }
    uses := fun k hk => by
      rw [Store.declareUse, Dict.has, Dict.adjust, Dict.find?_put] at hk
      split at hk
      · next hpk => exact hpk ▸ hp
      · exact h.uses k hk }

/-- The loading of a file begins that is not cached in `b`. -/
theorem beginLoading {p : Path} (hp : ¬ Dict.has p.key b.fragments) :
    b.Underway known phase (w.begin p.key hp) (s.beginLoading p) := by
  have mono {k : PathKey} (hk : w.Opened known k) : (w.begin p.key hp).Opened known k :=
    hk.imp_right .inr
  exact
  { h with
    size := h.size
    same := { h.same with }
    locations := fun i a ha => (h.locations i a ha).imp_right mono
    named := fun k d hd => (h.named k d hd).imp_left mono
    annotationTypes := fun k d hd => (h.annotationTypes k d hd).imp_left mono
    uses := fun k hk => mono (h.uses k hk)
    loading := fun k hk => by
      rcases hk with rfl | hk
      · exact .inr List.mem_cons_self
      · exact (h.loading k hk).imp_right (List.mem_cons_of_mem _) }

/-- The loading of a file ends, and its fragment is cached. -/
theorem cacheFragment {p : Path} {f : Fragment} (hp : ¬ Dict.has p.key b.fragments)
    (location : f.location = p) (hf : f.IsBelow w.size) :
    b.Underway known phase w ((s.endLoading p).cacheFragment f) :=
  { h with
    same := { h.same with
      fragments := fun k hk => by
        have hne : ¬ f.location.key = k := by
          rintro rfl
          exact hp (location ▸ hk)
        rw [Store.cacheFragment, Dict.find?_putNew, if_neg hne, Option.or_none]
        exact h.same.fragments k hk }
    fragments := fun k g hg => by
      rw [Store.cacheFragment, Dict.find?_putNew] at hg
      rcases Option.or_eq_some_iff.1 hg with hg | ⟨-, hg⟩
      · exact h.fragments k g hg
      · split at hg
        · cases hg
          exact hf
        · cases hg
    loading := fun k hk => by
      rw [Store.cacheFragment, Dict.has, Dict.find?_putNew, location]
      by_cases hpk : p.key = k
      · rw [if_pos hpk]
        exact .inl (by simp)
      · rw [if_neg hpk, Option.or_none]
        refine (h.loading k hk).imp_right fun hmem => List.mem_filter.2 ⟨hmem, ?_⟩
        exact decide_eq_true fun heq => hpk heq.symm }

end Underway

/-! ## The work list -/

/-- The shape that was taken from the work list is resolved or has failed. -/
theorem Since.declaring {i : ShapeId} (h : b.Since known (.resolving i) w s)
    (hi : i ∈ s.failed ∨ s.IsResolved i) : b.Since known .declaring w s :=
  { h with
    waiting := fun j a ha hu => by
      rcases h.waiting j a ha hu with hf | hq | hp
      · exact .inl hf
      · exact .inr (.inl hq)
      · obtain rfl : i = j := by
          cases hp
          rfl
        refine .inl (hi.resolve_right fun hr => ?_)
        rw [hr a ha] at hu
        cases hu
    quiet := nofun }

/-- A shape is taken from the work list. -/
theorem Underway.popUnresolved (h : b.Underway known .declaring w s) {i : ShapeId} {rest : List ShapeId}
    (hi : s.unresolved = i :: rest) : b.Underway known (.resolving i) w s.popUnresolved := by
  have htail : s.popUnresolved.unresolved = rest := by rw [Store.popUnresolved, hi, List.tail_cons]
  exact
  { h with
    same := { h.same with }
    waiting := fun j a ha hu => by
      rw [htail]
      refine (h.waiting j a ha hu).imp_right fun hq => ?_
      have hmem := hq.resolve_right nofun
      rw [hi] at hmem
      rcases List.mem_cons.1 hmem with rfl | hmem
      · exact .inr rfl
      · exact .inl hmem
    queue := fun j hj => h.queue j (hi ▸ List.mem_cons_of_mem _ (htail ▸ hj))
    suffix := by
      have hsuffix := h.suffix
      rw [htail]
      rw [hi] at hsuffix
      exact ((List.suffix_cons i rest).filter _).trans hsuffix
    quiet := nofun }

/-- The shape that was taken from the work list is resolved or has failed. -/
theorem Underway.declaring {i : ShapeId} (h : b.Underway known (.resolving i) w s)
    (hi : i ∈ s.failed ∨ s.IsResolved i) : b.Underway known .declaring w s :=
  { h with toSince := h.toSince.declaring hi }

/-- The work list is empty. -/
theorem Underway.binding (h : b.Underway known .declaring w s) (hq : s.unresolved = []) :
    b.Underway known .binding w s :=
  { h with
    waiting := fun j a ha hu => (h.waiting j a ha hu).imp_right fun hq => .inl (hq.resolve_right nofun)
    quiet := fun _ => hq }

end RamlTypes.Store
