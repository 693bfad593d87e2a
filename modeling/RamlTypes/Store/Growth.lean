import RamlTypes.Store.Basic

/-!
# Growth of a store

A change of the store takes nothing back: what is cached stays cached, a shape keeps its number and
what its declaration said, reports stay, and only a shape that waits for its resolution gets another
body. `Store.Grows` states this for two stores, and the lemmas below state it for each change. Giving
up a failed load is the only exception, and is no change in this sense.
-/

namespace RamlTypes

/-- `b` is a later state of the shape `a`: it differs in what resolution and binding write. -/
structure Shape.Grows (a b : Shape) : Prop where
  envelope : b = { a with
    inherits := b.inherits, required := b.required, examples := b.examples,
    customFacets := b.customFacets, annotations := b.annotations, body := b.body }
  inherits : a.inherits <+: b.inherits

namespace Shape.Grows

variable {a b c : Shape}

/-- A shape is a later state of itself. -/
theorem refl (a : Shape) : a.Grows a := ⟨rfl, List.prefix_rfl⟩

/-- A later state of a later state is one of the first. -/
theorem trans (h : a.Grows b) (h' : b.Grows c) : a.Grows c :=
  ⟨by rw [h'.envelope, h.envelope], h.inherits.trans h'.inherits⟩

/-- Resolution leaves a shape its number. -/
theorem id_eq (h : a.Grows b) : b.id = a.id := by rw [h.envelope]

/-- Resolution leaves a shape its name. -/
theorem name_eq (h : a.Grows b) : b.name = a.name := by rw [h.envelope]

/-- Resolution leaves a shape in its file. -/
theorem location_eq (h : a.Grows b) : b.location = a.location := by rw [h.envelope]

/-- Resolution leaves a shape at its position. -/
theorem mark_eq (h : a.Grows b) : b.mark = a.mark := by rw [h.envelope]

/-- Resolution leaves a shape the text it was declared with. -/
theorem declaration_eq (h : a.Grows b) : b.declaration = a.declaration := by rw [h.envelope]

/-- Resolution leaves a shape the file it was declared with. -/
theorem link_eq (h : a.Grows b) : b.link = a.link := by rw [h.envelope]

end Shape.Grows

/-- What resolution writes is the same in `b` as in `a`. -/
structure Shape.Kept (a b : Shape) : Prop where
  body : b.body = a.body
  inherits : b.inherits = a.inherits
  customFacets : b.customFacets = a.customFacets

namespace Shape.Kept

variable {a b c : Shape}

/-- Nothing is written to a shape that does not change. -/
theorem refl (a : Shape) : a.Kept a := ⟨rfl, rfl, rfl⟩

/-- What two changes keep is kept by both together. -/
theorem trans (h : a.Kept b) (h' : b.Kept c) : a.Kept c :=
  ⟨h'.body.trans h.body, h'.inherits.trans h.inherits, h'.customFacets.trans h.customFacets⟩

/-- A shape waits for its resolution as long as its body is kept. -/
theorem isUnknown (h : a.Kept b) : b.isUnknown = a.isUnknown := by
  rw [Shape.isUnknown, Shape.isUnknown, h.body]

end Shape.Kept

/-- A shape waits if it is unresolved, its resolution has not begun and it has not failed. -/
structure Store.Waits (s : Store) (i : ShapeId) (a : Shape) : Prop where
  isUnknown : a.isUnknown
  notInProgress : i ∉ s.inProgress
  notFailed : i ∉ s.failed

/-- The store `s'` has all that `s` has. -/
structure Store.Grows (s s' : Store) : Prop where
  settings : s'.settings = s.settings
  files : s'.files = s.files
  reads : ∀ k, Dict.has k s.reads → Dict.has k s'.reads
  shapes : ∀ (i : ShapeId) (a : Shape), s.shapes[i]? = some a →
    ∃ b, s'.shapes[i]? = some b ∧ a.Grows b ∧ (a.Kept b ∨ s.Waits i a)
  /-- Every new shape knows its number. -/
  ids : ∀ (i : ShapeId) (b : Shape), s.shapes.size ≤ i → s'.shapes[i]? = some b → b.id = i
  fragments : ∀ k f, Dict.find? k s.fragments = some f → Dict.find? k s'.fragments = some f
  examples : ∀ k e, Dict.find? k s.examples = some e → Dict.find? k s'.examples = some e
  loading : s'.loading ⊆ s.loading
  inProgress : s'.inProgress = s.inProgress
  diagnostics : s.diagnostics <+: s'.diagnostics
  resolved : s.resolved <+: s'.resolved
  failed : s.failed ⊆ s'.failed

namespace Store.Grows

variable {s s' s'' : Store}

/-- A store has all that it has. -/
theorem refl (s : Store) : s.Grows s where
  settings := rfl
  files := rfl
  reads _ h := h
  shapes _ a h := ⟨a, h, .refl a, .inl (.refl a)⟩
  ids _ _ hi h := absurd (Array.getElem?_eq_some_iff.1 h).1 (Nat.not_lt_of_le hi)
  fragments _ _ h := h
  examples _ _ h := h
  loading := List.Subset.refl _
  inProgress := rfl
  diagnostics := List.prefix_rfl
  resolved := List.prefix_rfl
  failed := List.Subset.refl _

/-- Growth adds up: a shape that was still waiting for the second change was waiting for the first.
-/
theorem trans (h : s.Grows s') (h' : s'.Grows s'') : s.Grows s'' where
  settings := h'.settings.trans h.settings
  files := h'.files.trans h.files
  reads k hk := h'.reads k (h.reads k hk)
  shapes i a ha := by
    obtain ⟨b, hb, hab, hkeep⟩ := h.shapes i a ha
    obtain ⟨c, hc, hbc, hkeep'⟩ := h'.shapes i b hb
    refine ⟨c, hc, hab.trans hbc, ?_⟩
    rcases hkeep with hkeep | hwait
    · rcases hkeep' with hkeep' | hwait
      · exact .inl (hkeep.trans hkeep')
      · exact .inr ⟨hkeep.isUnknown ▸ hwait.isUnknown, h.inProgress ▸ hwait.notInProgress,
          fun hf => hwait.notFailed (h.failed hf)⟩
    · exact .inr hwait
  ids i c hi hc := by
    rcases Nat.lt_or_ge i s'.shapes.size with hlt | hge
    · obtain ⟨c', hc', hbc, -⟩ := h'.shapes i _ (Array.getElem?_eq_getElem hlt)
      cases hc.symm.trans hc'
      exact hbc.id_eq.trans (h.ids i _ hi (Array.getElem?_eq_getElem hlt))
    · exact h'.ids i c hge hc
  fragments k f hk := h'.fragments k f (h.fragments k f hk)
  examples k e hk := h'.examples k e (h.examples k e hk)
  loading := List.Subset.trans h'.loading h.loading
  inProgress := h'.inProgress.trans h.inProgress
  diagnostics := h.diagnostics.trans h'.diagnostics
  resolved := h.resolved.trans h'.resolved
  failed := List.Subset.trans h.failed h'.failed

/-- Paths are normalized by the settings, which stay. -/
theorem normalize (h : s.Grows s') (p : Path) : s'.normalize p = s.normalize p := by
  rw [Store.normalize, Store.normalize, h.settings]

/-- Targets are followed by the settings, which stay. -/
theorem follow (h : s.Grows s') (p : Path) (target : String) :
    s'.follow p target = s.follow p target := by
  rw [Store.follow, Store.follow, h.settings]

/-- A store never has fewer shapes. -/
theorem size_le (h : s.Grows s') : s.shapes.size ≤ s'.shapes.size := by
  refine Nat.le_of_not_lt fun hlt => ?_
  obtain ⟨b, hb, -⟩ := h.shapes s'.shapes.size _ (Array.getElem?_eq_getElem hlt)
  simp at hb

end Store.Grows

namespace Store

variable (s : Store)

/-- A read is counted for one purpose and one path; no count is lost. -/
theorem grows_countRead (purpose : Purpose) (p : Path) : s.Grows (s.countRead purpose p) :=
  { Grows.refl s with
    reads := fun k hk => by
      rw [Dict.has] at hk ⊢
      rw [countRead, Dict.adjust, Dict.find?_put]
      split
      · rfl
      · exact hk }

/-- The tables of an unfinished fragment are no part of what has to stay. -/
theorem grows_declareType (p : Path) (name : String) (id : ShapeId) :
    s.Grows (s.declareType p name id) :=
  { Grows.refl s with }

/-- A declared annotation type takes nothing back. -/
theorem grows_declareAnnotationType (p : Path) (name : String) (id : ShapeId) :
    s.Grows (s.declareAnnotationType p name id) :=
  { Grows.refl s with }

/-- A used library takes nothing back. -/
theorem grows_declareUse (p : Path) (name : String) (library : Path) :
    s.Grows (s.declareUse p name library) :=
  { Grows.refl s with }

/-- A report is the last one. -/
theorem grows_report (d : Diagnostic) : s.Grows (s.report d) :=
  { Grows.refl s with diagnostics := List.prefix_append _ _ }

/-- A new shape gets the next number, and the others keep theirs. -/
theorem getElem?_addShape (shape : Shape) (i : ShapeId) : (s.addShape shape).shapes[i]? =
    if i = s.shapes.size then some { shape with id := s.shapes.size } else s.shapes[i]? := by
  rw [addShape, Array.getElem?_push]

variable {s} in
/-- A shape of the store with one more shape is the new one or an old one. -/
theorem cases_of_addShape {shape a : Shape} {i : ShapeId}
    (h : (s.addShape shape).shapes[i]? = some a) :
    i = s.shapes.size ∧ a = { shape with id := s.shapes.size } ∨ s.shapes[i]? = some a := by
  rw [getElem?_addShape] at h
  split at h
  · next hi =>
    cases h
    exact .inl ⟨hi, rfl⟩
  · exact .inr h

/-- A new shape is stored behind the others and knows its number. -/
theorem grows_addShape (shape : Shape) : s.Grows (s.addShape shape) :=
  { Grows.refl s with
    shapes := fun i a ha => by
      have hlt := (Array.getElem?_eq_some_iff.1 ha).1
      refine ⟨a, ?_, .refl a, .inl (.refl a)⟩
      rw [getElem?_addShape, if_neg (Nat.ne_of_lt hlt), ha]
    ids := fun i b hi hb => by
      rw [getElem?_addShape] at hb
      split at hb
      · next h =>
        cases hb
        exact h.symm
      · exact absurd (Array.getElem?_eq_some_iff.1 hb).1 (Nat.not_lt_of_le hi) }

/-- A change of one shape leaves the others. -/
theorem getElem?_mapShape (id : ShapeId) (f : Shape → Shape) (i : ShapeId) :
    (s.mapShape id f).shapes[i]? = if id = i then s.shapes[i]?.map f else s.shapes[i]? := by
  rw [mapShape, Array.getElem?_modify]

variable {s} in
/-- A shape of the store in which a shape is changed is the changed one or another one. -/
theorem cases_of_mapShape {id i : ShapeId} {f : Shape → Shape} {a : Shape}
    (h : (s.mapShape id f).shapes[i]? = some a) :
    (id = i ∧ ∃ c, s.shapes[id]? = some c ∧ f c = a) ∨ s.shapes[i]? = some a := by
  rw [getElem?_mapShape] at h
  split at h
  · next hi =>
    subst hi
    obtain ⟨c, hc, hca⟩ := Option.map_eq_some_iff.1 h
    exact .inl ⟨rfl, c, hc, hca⟩
  · exact .inr h

/-- A change of a shape adds none. -/
theorem size_mapShape (id : ShapeId) (f : Shape → Shape) :
    (s.mapShape id f).shapes.size = s.shapes.size := by
  rw [mapShape, Array.size_modify]

/-- A shape can be changed by what resolution writes only while it waits. -/
theorem grows_mapShape (id : ShapeId) (f : Shape → Shape) (hf : ∀ a : Shape, a.Grows (f a))
    (hk : ∀ a : Shape, a.Kept (f a) ∨ (s.shapes[id]? = some a → s.Waits id a)) :
    s.Grows (s.mapShape id f) :=
  { Grows.refl s with
    shapes := fun i a ha => by
      rw [getElem?_mapShape]
      split
      · next h =>
        subst h
        refine ⟨f a, by rw [ha]; rfl, hf a, ?_⟩
        exact (hk a).imp_right fun h => h ha
      · exact ⟨a, ha, .refl a, .inl (.refl a)⟩
    ids := fun i b hi hb => by
      have hlt := (Array.getElem?_eq_some_iff.1 hb).1
      rw [size_mapShape] at hlt
      exact absurd hlt (Nat.not_lt_of_le hi) }

/-- A fragment is cached only where there is none yet. -/
theorem grows_cacheFragment (f : Fragment) : s.Grows (s.cacheFragment f) :=
  { Grows.refl s with
    fragments := fun k g hk => by rw [cacheFragment, Dict.find?_putNew, hk, Option.some_or] }

/-- An example file is cached only where there is none yet. -/
theorem grows_cacheExample (p : Path) (e : ExampleFile) : s.Grows (s.cacheExample p e) :=
  { Grows.refl s with
    examples := fun k g hk => by rw [cacheExample, Dict.find?_putNew, hk, Option.some_or] }

/-- What happens between the beginning and the end of the loading of a file is growth. -/
theorem grows_endLoading {s s' : Store} {p : Path} (h : (s.beginLoading p).Grows s') :
    s.Grows (s'.endLoading p) :=
  { h with
    shapes := fun i a ha => by
      obtain ⟨b, hb, hab, hkeep⟩ := h.shapes i a ha
      exact ⟨b, hb, hab, hkeep.imp_right fun hw => ⟨hw.1, hw.2, hw.3⟩⟩
    loading := fun k hk => by
      obtain ⟨hk, hne⟩ := List.mem_filter.1 hk
      rcases List.mem_cons.1 (h.loading hk) with rfl | hk
      · simp at hne
      · exact hk }

end Store

end RamlTypes
