import RamlTypes.Proofs.Confluence.Requests
import RamlTypes.Proofs.Lifecycle.States

/-!
# Stores that loads and parses reach

As long as no shape has failed, a session that only loads and parses has cached all files that it
mentions (`Session.loaded_run`). A load that fails is taken back, and if it has not stored a shape,
the files that are mentioned are those of before (`Store.Tracked.rollback`).
-/

namespace RamlTypes

namespace Store

variable {settings : LoadSettings} {path p : Path} {s t : Store}

/-! ## The mark of annotations -/

/-- Annotations are bound up to a shape that exists, or to the last one. -/
def Marked (s : Store) : Prop := s.annotationsBound ≤ s.shapes.size

/-- A change of a shape leaves the marks. -/
theorem Marked.mapShape (h : s.Marked) (i : ShapeId) (f : Shape → Shape) :
    (s.mapShape i f).Marked := by
  rw [Marked, size_mapShape]
  exact h

/-- Loads leave the marks. -/
theorem keptByLoading_marked : KeptByLoading Marked where
  report _ _ h := h
  reportUnbound _ _ h := h
  addShape a _ h := Nat.le_trans h (grows_addShape _ a).size_le
  makeOptional i h := h.mapShape i _
  writeAnnotations i _ _ h := h.mapShape i _
  markBound _ := Nat.le_refl _
  declareUse _ _ _ h := h
  declareType _ _ _ h := h
  declareAnnotationType _ _ _ h := h
  countRead _ _ h := h
  cacheExample _ _ h := h
  beginLoading _ h := h
  endLoading _ h := h
  cacheFragment _ h := h

/-- So do runs, also those that end with an error. -/
theorem keptByRuns_marked : KeptByRuns Marked Marked :=
  keptByLoading_marked.keptByRuns (fun _ _ h => h) (fun e _ _ h => h.mapShape e.id _)
    (fun _ _ _ h => h) fun h => h

/-! ## What loads and parses keep -/

/-- What holds of the stores that loads and parses reach. -/
structure Loaded (settings : LoadSettings) (s : Store) : Prop where
  coherent : s.Coherent
  tracked : s.Tracked settings
  marked : s.Marked

/-- The empty store has been loaded. -/
theorem loaded_empty (settings : LoadSettings) (files : Files) :
    (empty settings files).Loaded settings where
  coherent := coherent_empty settings files
  tracked :=
    { settings_eq := rfl
      locations := fun _ _ h => nomatch h
      links := fun _ _ _ h => nomatch h
      named := fun _ h => nomatch h
      annotationTypes := fun _ h => nomatch h
      uses := fun _ _ h => nomatch h }
  marked := Nat.le_refl _

/-- Between two requests, the resolution of shapes can begin. -/
theorem Coherent.ready (h : s.Coherent) (ht : s.Tracked settings) : s.Ready settings where
  tracked := ht
  closed := (h.underway s.mentions_true).closed
  loading := h.loading

/-- Binding annotations begins no file. -/
theorem keptByBinding_tracked (settings : LoadSettings) : KeptByBinding (Tracked settings) where
  reportUnbound _ _ h := h.calm (Duo.calm_report _ _)
  markBound h := { h with }
  writeAnnotations i _ _ h := h.mapShape i fun _ => ⟨rfl, rfl⟩

/-- A load that has stored no shape is taken back. -/
theorem Tracked.rollback (h : s.Tracked settings) (hloading : s.loading = []) (hgrows : s.Grows t)
    (hsize : t.shapes.size ≤ s.shapes.size) (hsame : s.SameIndexes t) :
    (t.rollback s).Tracked settings := by
  have hback := hsame.rollback
  have hbegun {k : PathKey} (hk : s.Begun k) : (t.rollback s).Begun k := by
    have hc : Dict.has k s.fragments := hk.resolve_right fun hmem => nomatch hloading ▸ hmem
    rw [Begun, Dict.has, hback.fragments k hc]
    exact .inl hc
  have hkept {α : Type} {d : Dict PathKey α} {k : PathKey}
      (hk : Dict.has k (keepKnown (Dict.keys s.fragments) d)) : Dict.has k s.fragments := by
    obtain ⟨v, hv⟩ := Dict.has_iff.1 hk
    exact Dict.mem_keys.1 (find?_of_keepKnown hv).1
  have hold {i : ShapeId} {a : Shape} (ha : (t.rollback s).shapes[i]? = some a) :
      ∃ c, s.shapes[i]? = some c ∧ c.Grows a := by
    have ha : t.shapes[i]? = some a := ha
    have hi := Nat.lt_of_lt_of_le (Array.getElem?_eq_some_iff.1 ha).1 hsize
    obtain ⟨c, hc, hac, -⟩ := hgrows.shapes i _ (Array.getElem?_eq_getElem hi)
    cases hc.symm.trans ha
    exact ⟨_, Array.getElem?_eq_getElem hi, hac⟩
  exact
  { settings_eq := hgrows.settings.trans h.settings_eq
    locations := fun i a ha => by
      obtain ⟨c, hc, hac⟩ := hold ha
      exact hac.location_eq ▸ (h.locations i c hc).imp_right hbegun
    links := fun i a p ha hp => by
      obtain ⟨c, hc, hac⟩ := hold ha
      exact (h.links i c p hc (hac.link_eq ▸ hp)).imp_right hbegun
    named := fun k hk => hbegun (.inl (hkept hk))
    annotationTypes := fun k hk => hbegun (.inl (hkept hk))
    uses := fun k d hd => by
      have hk := hkept (Dict.has_iff.2 ⟨d, hd⟩)
      obtain ⟨-, hall⟩ := h.uses k d ((hback.uses k hk).symm.trans hd)
      exact ⟨hbegun (.inl hk), fun n p hp => (hall n p hp).imp_right hbegun⟩ }

/-- Loading a fragment leaves alone what was stored before. -/
theorem frame_of_fragment (hroot : settings.root.isAbsolute) (hs : s.Tracked settings)
    (hidle : s.loading = []) {f : Fragment} (h : Load.fragment p s = (.ok f, t)) :
    Frame settings (fun _ => False) s t := by
  rw [Load.fragment, Load.withLoaders, Load.ask_bind, Fragment.fragmentWith,
    Fragment.fromCache_apply] at h
  split at h
  · cases h
    exact .refl hs
  · next hnone =>
    have hnormal : (s.normalize p).IsNormal settings.root := by
      rw [Store.normalize, hs.settings_eq]
      exact Path.normalizeIn_isNormal hroot p
    generalize s.normalize p = path at h hnone hnormal
    have hmiss {α : Type} (hit : Path → Fragment → Load α) (miss : Path → Load α) :
        Fragment.fromCache path hit miss s = miss path s := by
      rw [Fragment.fromCache_apply, normalize_of_isNormal hs.settings_eq hnormal, hnone]
    have hrun : (Fragment.loaders (s.loadDepth + 1)).Run path s t := by
      rw [Fragment.readFragment, Load.ask_bind] at h
      split at h
      · obtain ⟨d, u, hd, h⟩ := Load.bind_eq_ok.1 h
        cases h
        exact .inr (Load.bind_of_ok hd _)
      · obtain ⟨text, u, htext, h⟩ := Load.bind_eq_ok.1 h
        unfold Fragment.parseText at h
        split at h
        · obtain ⟨l, v, hl, h⟩ := Load.bind_eq_ok.1 h
          cases h
          refine .inl (Load.bind_of_ok (a := l) ?_ _)
          rw [Fragment.libraryWith, hmiss]
          exact (Load.bind_of_ok htext _).trans hl
        · obtain ⟨d, v, hd, h⟩ := Load.bind_eq_ok.1 h
          cases h
          refine .inr (Load.bind_of_ok (a := d) ?_ _)
          rw [Fragment.dataTypeWith, hmiss]
          exact (Load.bind_of_ok htext _).trans hd
        · cases h
    have hnot : path.key ∉ s.loading := hidle ▸ List.not_mem_nil
    exact (Fragment.framed_loaders hroot _ path s t hnormal hs hnot hrun).1

end Store

/-- The request loads fragments, and nothing of it stays when it fails. -/
def Request.Loads : Request → Prop
  | .load _ | .parse _ => True
  | _ => False

namespace Session

open Store

variable {settings : LoadSettings} {s t : Store} {r : Request}

/-- Such a request is served, or it is taken back. -/
theorem cases_of_loads (hr : r.Loads) (s : Store) : r.work s = (.ok (), (step s r).2) ∨
    ∃ e t, r.work s = (.error e, t) ∧ (step s r).2 = t.rollback s := by
  have taken {α : Type} {x : Load α} (hstep : (step s r).2 = (Load.orRollback x s).2)
      (hwork : r.work s = (x >>= fun _ => pure ()) s) : r.work s = (.ok (), (step s r).2) ∨
        ∃ e t, r.work s = (.error e, t) ∧ (step s r).2 = t.rollback s := by
    rw [hstep, hwork, Load.orRollback]
    rcases hx : x s with ⟨e | a, t⟩
    · exact .inr ⟨e, t, Load.bind_of_error hx _, rfl⟩
    · exact .inl (Load.bind_of_ok hx _)
  cases r with
  | load p =>
    refine taken (x := do let f ← Load.fragment p; Load.resolveIfEager; return f) ?_ ?_
    · rw [step, perform_snd]
      rfl
    · simp only [Request.work, bind_assoc, pure_bind, bind_pure_unit]
  | parse p =>
    refine taken (x := Load.fragment p) ?_ rfl
    rw [step, perform_snd]
    rfl
  | _ => exact hr.elim

/-- When no shape has failed after a request, none had failed before. -/
theorem failed_of_run (hs : s.Coherent) {rs : List Request} (h : (run s rs).failed = []) :
    s.failed = [] := by
  refine List.eq_nil_iff_forall_not_mem.2 fun i hi => ?_
  have hmem := (follows_run rs hs).failed hi
  rw [h] at hmem
  cases hmem

variable (hroot : settings.root.isAbsolute)
include hroot

/-- A load that is served keeps the store tracked. -/
theorem tracked_of_work (hs : s.Loaded settings) (hr : r.Loads) (hfailed : s.failed = [])
    (h : r.work s = (.ok (), t)) : t.Tracked settings := by
  cases r with
  | load p =>
    obtain ⟨f, u, hf, h⟩ := Load.bind_eq_ok.1 h
    have hframe := frame_of_fragment hroot hs.tracked hs.coherent.loading hf
    rw [Load.resolveIfEager, Load.ask_bind] at h
    split at h
    · have hloads : (s.since (fun _ => True) .declaring).Loads _ := since_loads (by rintro ⟨⟩)
      obtain ⟨w, hw⟩ := (goes_of_agree hs.coherent (hloads.fragment _ p)).of_ok hf
      have hidle : u.inProgress = [] :=
        (Load.grows_of_apply hf).inProgress.trans hs.coherent.inProgress
      have hu := hw.coherent (hframe.loading.trans hs.coherent.loading) hidle
      obtain ⟨es, m, hes, -, hbind, -⟩ := settles_of_resolveAll hroot hu (hu.ready hframe.tracked)
        (hframe.lists.failed.trans hfailed) h
      have hm := hes.ready hroot (hu.ready hframe.tracked)
      exact ((keptByBinding_tracked settings).bindAnnotations (fun _ h => h) hm.tracked).of_ok hbind
    · cases h
      exact hframe.tracked
  | parse p =>
    obtain ⟨f, u, hf, h⟩ := Load.bind_eq_ok.1 h
    cases h
    exact (frame_of_fragment hroot hs.tracked hs.coherent.loading hf).tracked
  | _ => exact hr.elim

/-- A request that loads leaves such a store as long as no shape fails. -/
theorem loaded_step (hs : s.Loaded settings) (hr : r.Loads) (hfailed : (step s r).2.failed = []) :
    (step s r).2.Loaded settings where
  coherent := (keeps_step hs.coherent r).coherent
  marked :=
    holds_step keptByRuns_marked hs.coherent hs.marked (fun _ _ h => h) (fun _ => hs.marked) r
  tracked := by
    have hbefore : s.failed = [] :=
      failed_of_run hs.coherent (show (run s [r]).failed = [] from hfailed)
    rcases cases_of_loads hr s with hwork | ⟨e, t, hwork, hback⟩
    · exact tracked_of_work hroot hs hr hbefore hwork
    · have hgrows := Load.grows_of_apply hwork
      obtain ⟨w, hw⟩ := (goes_work hs.coherent r).of_error hwork
      rw [hback] at hfailed ⊢
      refine hs.tracked.rollback hs.coherent.loading hgrows ?_ hw.same
      by_contra hlt
      have hmem : s.shapes.size ∈ (t.rollback s).failed :=
        mem_failed_rollback.2 (.inr ⟨Nat.le_refl _, Nat.lt_of_not_le hlt⟩)
      rw [hfailed] at hmem
      cases hmem

/-- So do lists of such requests. -/
theorem loaded_run (rs : List Request) : ∀ {s : Store}, s.Loaded settings → (∀ r ∈ rs, r.Loads) →
    (run s rs).failed = [] → (run s rs).Loaded settings := by
  induction rs with
  | nil => exact fun hs _ _ => hs
  | cons r rest ih =>
    intro s hs hrs hfailed
    obtain ⟨hr, hrest⟩ := List.forall_mem_cons.1 hrs
    have hstep := failed_of_run (keeps_step hs.coherent r).coherent hfailed
    exact ih (loaded_step hroot hs hr hstep) hrest hfailed

end Session

end RamlTypes
