import RamlTypes.Proofs.Confluence.Evaluations

/-!
# The shapes that a run settles

A run of the resolution settles one shape after the other: it evaluates the declaration of a shape
when all that it depends on is resolved, and writes the result (`Settling`). `Store.Settlings` lists
what has been settled between two stores, in the order in which it was written.
-/

namespace RamlTypes

open Store

/-- The evaluation of a declaration when all shapes that it depends on are resolved. -/
structure Settling (settings : LoadSettings) where
  id : ShapeId
  /-- The store in which the shapes that the declaration depends on are resolved. -/
  start : Store
  shape : Shape
  pending : Pending
  result : Resolution
  /-- The store in which the evaluation has ended. -/
  stop : Store
  ready : start.Ready settings
  found : start.shapes[id]? = some shape
  pends : shape.body.pending? = some pending
  evaluated : Resolution.ofPending Load.ifResolved shape.owner shape pending start =
    (.ok result, stop)

namespace Settling

variable {settings : LoadSettings} (hroot : settings.root.isAbsolute) (e e' : Settling settings)

/-- The store after the result is written. -/
def after : Store := e.stop.writeResolution e.id e.result

/-- A shape that is settled was not resolved before. -/
theorem isUnknown : e.shape.isUnknown = true := by
  rw [Shape.isUnknown, e.pends]
  rfl

/-- A shape that is settled was stored before. -/
theorem id_lt : e.id < e.start.shapes.size := (Array.getElem?_eq_some_iff.1 e.found).1

section
variable {R : ShapeId → ShapeId → Prop} {allowed : PathKey → Prop}
  (hrel : e.shape.Rel R e'.shape) (hsources : e'.start.sources settings = e.start.sources settings)

/-- Two evaluations of related declarations. -/
abbrev duo (R : ShapeId → ShapeId → Prop) (allowed : PathKey → Prop)
    (hrel : e.shape.Rel R e'.shape)
    (hsources : e'.start.sources settings = e.start.sources settings) : Duo where
  settings := settings
  root := hroot
  path := e.shape.location
  normal := (e.ready.tracked.locations _ _ e.found).1
  left := e.start
  right := e'.start
  outer := R
  allowed := allowed
  sources := hsources
  begunLeft := (e.ready.tracked.locations _ _ e.found).2
  begunRight := hrel.location ▸ (e'.ready.tracked.locations _ _ e'.found).2
  opened k hk := by
    rw [e'.ready.loading] at hk
    cases hk

/-- When the evaluations have ended, the shapes that they have stored come in pairs, and the results
are related. -/
theorem exists_together (halike : Alike R e.start e'.start)
    (himports : ∀ n, (Fragment.loaders n).Imports settings (e.start.sources settings)
      (fun k => Dict.has k e.start.fragments) allowed)
    (hfinal : ∀ k, Dict.has k e'.stop.fragments → allowed k) :
    ∃ w, (duo hroot e e' R allowed hrel hsources).Together w e.stop e'.stop ∧
      (duo hroot e e' R allowed hrel hsources).comparison.ResolutionRel w e.result e'.result := by
  let d := duo hroot e e' R allowed hrel hsources
  have hlevel : d.IsLevel := ⟨e.ready, e'.ready, halike, himports⟩
  have hindex := halike.index _ hlevel.cachedLeft hlevel.cachedRight
  have hstart : d.Together ⟨[], []⟩ e.start e'.start :=
    Duo.together_start e.ready.tracked e'.ready.tracked hindex.named hindex.annotationTypes
      hindex.uses
  have hpending : e'.pending = e.pending :=
    Option.some.inj (e'.pends.symm.trans (hrel.body.pending.trans e.pends))
  have hagree := hlevel.ofPending ⟨[], []⟩ e.found e'.found hrel rfl e.pending
  obtain ⟨w, -, hst, hresult⟩ :=
    Duo.exists_together hagree hstart e.evaluated (hpending ▸ e'.evaluated) hfinal
  exact ⟨w, hst, hresult⟩

end

end Settling

/-- A store is like itself. -/
theorem Store.Alike.same (s : Store) : Alike Eq s s where
  index _ _ _ := ⟨Option.Rel.same (.same Eq.refl) _, Option.Rel.same (.same Eq.refl) _, rfl,
    Option.Rel.same (fun f => (Fragment.Rel.same f).mono (fun _ _ h => h) fun _ _ _ => trivial) _⟩
  names _ _ h _ _ := by rw [h]
  bodies _ _ h _ _ _ _ := h ▸ .same _

namespace Settling

variable {settings : LoadSettings} (hroot : settings.root.isAbsolute) (e : Settling settings)
  {i : ShapeId} {k : PathKey}
include hroot

/-- The evaluation stores shapes of the file of its declaration, besides those of files that it
loads, and yields a body with a kind of its own. -/
theorem frame_and_kind :
    Frame settings (· = e.shape.location.key) e.start e.stop ∧ e.result.body.kind ≠ .unknown := by
  have himports (n : Nat) : (Fragment.loaders n).Imports settings (e.start.sources settings)
      (fun k => Dict.has k e.start.fragments) fun _ => True := Loaders.imports_true _ _ _
  obtain ⟨w, hst, -, hkind⟩ := exists_together hroot e e (.same e.shape) rfl (.same e.start)
    himports
    fun _ _ => trivial
  exact ⟨hst.left, hkind⟩

/-- Evaluating the declaration of a shape changes only what may change for its file. -/
theorem frame : Frame settings (· = e.shape.location.key) e.start e.stop :=
  (e.frame_and_kind hroot).1

/-- The shape is as it was when its declaration has been evaluated. -/
theorem found_stop : e.stop.shapes[e.id]? = some e.shape :=
  ((e.frame hroot).old e.id e.id_lt).trans e.found

omit hroot in
/-- Other shapes are not written. -/
theorem after_of_ne (hi : i ≠ e.id) : e.after.shapes[i]? = e.stop.shapes[i]? := by
  rw [after, writeResolution, getElem?_mapShape, if_neg (Ne.symm hi)]

/-- What is written. -/
def written : Shape :=
  { e.shape with
    body := e.result.body
    inherits := e.shape.inherits ++ e.result.inherits
    customFacets := Dict.putAll e.shape.customFacets e.result.customFacets }

omit hroot in
/-- What is written into both shapes is related. -/
theorem rel_written {e e' : Settling settings} {T : ShapeId → ShapeId → Prop}
    (hrel : e.shape.Rel T e'.shape)
    (hresult : e.result.Rel T e'.result) : e.written.Rel T e'.written where
  rest := by
    rw [written, written, hrel.rest, hresult.customFacets]
  inherits := List.rel_append hrel.inherits hresult.inherits
  examples := hrel.examples
  facetDefinitions := hrel.facetDefinitions
  annotations := hrel.annotations
  body := hresult.body

/-- What is written is found afterwards. -/
theorem found_after : e.after.shapes[e.id]? = some e.written := by
  rw [after, writeResolution, getElem?_mapShape, if_pos rfl, e.found_stop hroot]
  rfl

/-- What is written is resolved. -/
theorem isUnknown_written : e.written.isUnknown = false :=
  Shape.isUnknown_eq_false_iff.2 (e.frame_and_kind hroot).2

/-- The store in which the shape has been written is a later one. -/
theorem later_after : e.start.Later e.after where
  settings_eq := ((e.frame hroot).later e.ready.tracked).settings_eq
  sources := ((e.frame hroot).later e.ready.tracked).sources
  fragments := (e.frame hroot).fragments
  names k hk := { ((e.frame hroot).later e.ready.tracked).names k hk with }
  shapes i a ha := by
    by_cases hi : i = e.id
    · subst hi
      cases ha.symm.trans e.found
      exact .inr ⟨e.isUnknown, e.written, e.found_after hroot, e.isUnknown_written hroot, rfl, rfl⟩
    · rw [e.after_of_ne hi]
      exact ((e.frame hroot).later e.ready.tracked).shapes i a ha

/-- What is cached is still kept account of when the shape has been written. -/
theorem tracked_after : e.after.Tracked settings :=
  have htracked := (e.frame hroot).tracked.mapShape e.id (f := fun a =>
    { a with
      body := e.result.body
      inherits := a.inherits ++ e.result.inherits
      customFacets := Dict.putAll a.customFacets e.result.customFacets }) fun _ => ⟨rfl, rfl⟩
  { htracked with }

/-- Another shape can be settled when the shape has been written. -/
theorem ready_after (hclosed : e.after.Closed) : e.after.Ready settings where
  tracked := e.tracked_after hroot
  closed := hclosed
  loading := (e.frame hroot).loading.trans e.ready.loading

omit hroot in
/-- Writing the shape stores no other. -/
theorem size_after : e.after.shapes.size = e.stop.shapes.size := by
  rw [after, writeResolution, size_mapShape]

end Settling

/-! ## Runs -/

namespace Store

variable {settings : LoadSettings}

/-- Stores with the same sources and lists are so in either order. -/
theorem Calm.symm {s t : Store} (h : s.Calm t) : t.Calm s where
  shapes := h.shapes.symm
  fragments := h.fragments.symm
  named := h.named.symm
  annotationTypes := h.annotationTypes.symm
  uses := h.uses.symm
  loading := h.loading.symm
  settings := h.settings.symm
  files := h.files.symm
  examples := h.examples.symm
  lists := ⟨h.lists.resolved.symm, h.lists.failed.symm, h.lists.annotationsBound.symm⟩

/-- From the store `s`, the given shapes have been settled until the store `t` was reached. -/
inductive Settlings (s : Store) : List (Settling settings) → Store → Prop
  | nil {t : Store} (calm : s.Calm t) : Settlings s [] t
  | snoc {es : List (Settling settings)} {t u : Store} {e : Settling settings}
      (before : Settlings s es t) (calm : t.Calm e.start) (closed : e.after.Closed)
      (after : e.after.Calm u) : Settlings s (es ++ [e]) u

namespace Settlings

variable {s t u : Store} {es es' : List (Settling settings)} {e e' : Settling settings}
  {i : ShapeId} {k : PathKey} {a : Shape}

/-- What does not matter to resolutions can change behind them. -/
theorem calm (h : s.Settlings es t) (hc : t.Calm u) : s.Settlings es u := by
  cases h with
  | nil h => exact .nil (h.trans hc)
  | snoc hbefore hcalm hclosed hafter => exact .snoc hbefore hcalm hclosed (hafter.trans hc)

/-- What does not matter to resolutions can change before them. -/
theorem of_calm (hc : s.Calm t) (h : t.Settlings es u) : s.Settlings es u := by
  induction h with
  | nil h => exact .nil (hc.trans h)
  | snoc _ hcalm hclosed hafter ih => exact .snoc ih hcalm hclosed hafter

/-- Shapes are settled one after the other. -/
theorem append (h : s.Settlings es t) (h' : t.Settlings es' u) : s.Settlings (es ++ es') u := by
  induction h' with
  | nil hc => exact (List.append_nil es).symm ▸ h.calm hc
  | snoc _ hcalm hclosed hafter ih => exact List.append_assoc .. ▸ .snoc ih hcalm hclosed hafter

/-- The run before and after one of its settlings. -/
theorem split (h : s.Settlings es t) (he : e ∈ es) : ∃ es₁ es₂ m, es = es₁ ++ e :: es₂ ∧
    s.Settlings es₁ m ∧ m.Calm e.start ∧ e.after.Settlings es₂ t := by
  induction h with
  | nil => cases he
  | @snoc es t u e' hbefore hcalm hclosed hafter ih =>
    rcases List.mem_append.1 he with he | he
    · obtain ⟨es₁, es₂, m, rfl, h₁, hm, h₂⟩ := ih he
      exact ⟨es₁, es₂ ++ [e'], m, by simp, h₁, hm, .snoc h₂ hcalm hclosed hafter⟩
    · cases List.mem_singleton.1 he
      exact ⟨es, [], t, rfl, hbefore, hcalm, .nil hafter⟩

/-- In each run the shapes that it has settled are resolved one after the other. -/
theorem resolved_eq (hroot : settings.root.isAbsolute) (h : s.Settlings es t) :
    t.resolved = s.resolved ++ es.map (·.id) ∧ t.failed = s.failed ∧
      t.annotationsBound = s.annotationsBound := by
  induction h with
  | nil h =>
    exact ⟨h.lists.resolved.trans (List.append_nil _).symm, h.lists.failed,
      h.lists.annotationsBound⟩
  | @snoc es t u e hbefore hcalm hclosed hafter ih =>
    have hlists := hcalm.lists.trans (e.frame hroot).lists
    refine ⟨?_, ?_, ?_⟩
    · rw [hafter.lists.resolved, List.map_append, ← List.append_assoc, ← ih.1, ← hlists.resolved]
      rfl
    · rw [← ih.2.1, ← hlists.failed]
      exact hafter.lists.failed
    · rw [← ih.2.2, ← hlists.annotationsBound]
      exact hafter.lists.annotationsBound

section
variable (hroot : settings.root.isAbsolute) (h : s.Settlings es t)
include hroot h

/-- Settling shapes leads to a later store. -/
theorem later : s.Later t := by
  induction h with
  | nil h => exact h.later
  | snoc _ hcalm _ hafter ih =>
    exact ih.trans (hcalm.later.trans ((Settling.later_after hroot _).trans hafter.later))

/-- More shapes can be settled afterwards. -/
theorem ready (hs : s.Ready settings) : t.Ready settings := by
  induction h with
  | nil h => exact hs.calm h
  | snoc _ _ hclosed hafter _ => exact (Settling.ready_after hroot _ hclosed).calm hafter

/-- Each shape is settled in between. -/
theorem later_start (he : e ∈ es) : s.Later e.start ∧ e.after.Later t := by
  obtain ⟨es₁, es₂, m, -, h₁, hm, h₂⟩ := h.split he
  exact ⟨(h₁.later hroot).trans hm.later, h₂.later hroot⟩

/-- What is known when a shape is settled is known in the end. -/
theorem later_stop (he : e ∈ es) : e.start.Later t :=
  (e.later_after hroot).trans (h.later_start hroot he).2

/-- All shapes that are settled are stored in the end. -/
theorem id_lt (he : e ∈ es) : e.id < t.shapes.size :=
  Nat.lt_of_lt_of_le e.id_lt (h.later_stop hroot he).size_le

/-- Of two settlings of a run one comes after the other. -/
theorem comparable (he : e ∈ es) (he' : e' ∈ es) :
    e = e' ∨ e.after.Later e'.start ∨ e'.after.Later e.start := by
  obtain ⟨es₁, es₂, m, rfl, h₁, hm, h₂⟩ := h.split he
  rcases List.mem_append.1 he' with he' | he'
  · exact .inr (.inr ((h₁.later_start hroot he').2.trans hm.later))
  · rcases List.mem_cons.1 he' with rfl | he'
    · exact .inl rfl
    · exact .inr (.inl (h₂.later_start hroot he').1)

/-- A shape is settled once. -/
theorem eq_of_id (he : e ∈ es) (he' : e' ∈ es) (hid : e.id = e'.id) : e = e' := by
  have absurd_of {e e' : Settling settings} (hid : e.id = e'.id) (hlater : e.after.Later e'.start) :
      False := by
    have hfound := hlater.resolved (e.found_after hroot) (e.isUnknown_written hroot)
    rw [hid] at hfound
    have heq := Option.some.inj (hfound.symm.trans e'.found)
    exact Bool.false_ne_true ((e.isUnknown_written hroot).symm.trans (heq ▸ e'.isUnknown))
  rcases h.comparable hroot he he' with heq | hlater | hlater
  · exact heq
  · exact (absurd_of hid hlater).elim
  · exact (absurd_of hid.symm hlater).elim

/-- No shape is settled twice: it is resolved after the first time. -/
theorem nodup_ids : (es.map (·.id)).Nodup := by
  induction h with
  | nil => exact List.nodup_nil
  | @snoc es t u e hbefore hcalm hclosed hafter ih =>
    rw [List.map_append, List.map_singleton]
    refine ih.append (List.nodup_singleton _) (List.disjoint_singleton.2 fun hmem => ?_)
    obtain ⟨e', he', hid⟩ := List.mem_map.1 hmem
    have hfound :=
      ((hbefore.later_start hroot he').2.trans hcalm.later).resolved (e'.found_after hroot)
      (e'.isUnknown_written hroot)
    rw [hid, e.found, Option.some.injEq] at hfound
    exact Bool.false_ne_true ((e'.isUnknown_written hroot).symm.trans (hfound ▸ e.isUnknown))

/-- A shape is stored by one settling. -/
theorem eq_of_stored (he : e ∈ es) (he' : e' ∈ es) (hle : e.start.shapes.size ≤ i)
    (hlt : i < e.stop.shapes.size) (hle' : e'.start.shapes.size ≤ i)
    (hlt' : i < e'.stop.shapes.size) :
    e = e' := by
  rcases h.comparable hroot he he' with heq | hlater | hlater
  · exact heq
  · have hsize := hlater.size_le
    rw [e.size_after] at hsize
    exact absurd (Nat.lt_of_lt_of_le hlt hsize) (Nat.not_lt_of_le hle')
  · have hsize := hlater.size_le
    rw [e'.size_after] at hsize
    exact absurd (Nat.lt_of_lt_of_le hlt' hsize) (Nat.not_lt_of_le hle)

/-- A file is cached by one settling. -/
theorem eq_of_cached (he : e ∈ es) (he' : e' ∈ es) (hnot : ¬ Dict.has k e.start.fragments)
    (hk : Dict.has k e.stop.fragments) (hnot' : ¬ Dict.has k e'.start.fragments)
    (hk' : Dict.has k e'.stop.fragments) : e = e' := by
  rcases h.comparable hroot he he' with heq | hlater | hlater
  · exact heq
  · exact absurd (hlater.has hk) hnot'
  · exact absurd (hlater.has hk') hnot

omit hroot in
/-- The settling that has cached a file. -/
theorem exists_of_cached (hnot : ¬ Dict.has k s.fragments) (hk : Dict.has k t.fragments) :
    ∃ e ∈ es, ¬ Dict.has k e.start.fragments ∧ Dict.has k e.stop.fragments := by
  induction h with
  | nil h => exact absurd (h.fragments ▸ hk) hnot
  | @snoc es t u e hbefore hcalm hclosed hafter ih =>
    rw [hafter.fragments] at hk
    by_cases ht : Dict.has k t.fragments
    · obtain ⟨e', he', hcached⟩ := ih ht
      exact ⟨e', List.mem_append_left _ he', hcached⟩
    · exact ⟨e, List.mem_append_right _ (List.mem_singleton_self e), hcalm.fragments ▸ ht, hk⟩

/-- The settling that has resolved a shape. -/
theorem exists_of_resolved (ha : s.shapes[i]? = some a) (hu : a.isUnknown = true)
    (hr : t.IsResolved i) : ∃ e ∈ es, e.id = i ∧ e.shape = a := by
  induction h with
  | nil h => exact absurd ((hr a (h.shapes ▸ ha)).symm.trans hu) Bool.false_ne_true
  | @snoc es t u e hbefore hcalm hclosed hafter ih =>
    rcases (hbefore.later hroot).shapes i a ha with hta | ⟨-, c, hc, hcr, -⟩
    · by_cases hi : i = e.id
      · subst hi
        refine ⟨e, List.mem_append_right _ (List.mem_singleton_self e), rfl, ?_⟩
        exact Option.some.inj (e.found.symm.trans (hcalm.shapes ▸ hta))
      · have hstop : e.stop.shapes[i]? = some a := by
          rw [(e.frame hroot).old i (hcalm.shapes ▸ (Array.getElem?_eq_some_iff.1 hta).1),
            hcalm.shapes, hta]
        have hua := hr a (by rw [hafter.shapes, e.after_of_ne hi, hstop])
        exact absurd (hua.symm.trans hu) Bool.false_ne_true
    · obtain ⟨e', he', hsettled⟩ := ih fun b hb => by
        cases hb.symm.trans hc
        exact hcr
      exact ⟨e', List.mem_append_left _ he', hsettled⟩

end

end Settlings

end Store

end RamlTypes
