import RamlTypes.Proofs.Aftermath.Recovery
import RamlTypes.Proofs.Reads.Sessions

/-!
# Other fragments after a load has failed

A load that fails leaves a session in which the other fragments can be used, if what waits for them does
not need the files that the load has read (`Session.usable_after_failure`). But the shapes that it
stored have failed, and there may be some among them that belong to other fragments, since the load
resolves all that waits, of whatever fragment. So these are left unresolved.
-/

namespace RamlTypes

namespace Store

variable {s t f m w : Store}

/-- What can be reached in a coherent store exists. -/
theorem Coherent.lt_of_reach (h : s.Coherent) {i : ShapeId} (hi : s.Reach i) : i < s.shapes.size := by
  induction hi with
  | root hf hi => exact ((h.fragments _ _ hf).mem_handles hi).2
  | step _ ha hj => exact ((h.shapes _ _ ha).mem_handles hj).2

/-- A file that was read by the load is not read when all that waits is resolved without it. -/
theorem independent_of_timesRead (htallies : s.Tallies t)
    (hcached : ∀ u k, f.isCached u k → t.isCached u k)
    (hgrows : m.Grows w) (hw : s.Tallied [] w)
    (hreads : ∀ u k, s.timesRead u k < t.timesRead u k → w.timesRead u k = s.timesRead u k) :
    s.Independent f m := by
  rintro u k ⟨hf, hs⟩ hm
  have heq := hreads u k (htallies.lt_timesRead (hcached u k hf) hs)
  rw [hw.count, if_pos ⟨hs, .inl (hgrows.isCached hm)⟩] at heq
  exact absurd heq (Nat.succ_ne_self _)

/-- What is cached after a load is taken back was cached before. -/
theorem isCached_of_rollback {u : Purpose} {k : PathKey} (h : (t.rollback s).isCached u k) :
    t.isCached u k := by
  cases u with
  | fragment =>
    obtain ⟨g, hg⟩ := Dict.has_iff.1 h
    exact Dict.has_iff.2 ⟨g, (find?_of_keepKnown hg).2⟩
  | exampleFile => exact h

end Store

namespace Session

open Store

variable {settings : LoadSettings} {s : Store}

namespace FragmentRun

theorem settings_eq (h : FragmentRun settings s) : s.settings = settings := by
  induction h with
  | start files => rfl
  | load h p ih => exact (keeps_step h.tidy.toCoherent (.load p)).settings.trans ih
  | parse h p ih => exact (keeps_step h.tidy.toCoherent (.parse p)).settings.trans ih
  | rewrite _ files ih => exact ih

theorem ordered (h : FragmentRun settings s) : s.Ordered := by
  induction h with
  | start files => exact ordered_empty settings files
  | load h p ih => exact ordered_step h.tidy.toCoherent ih (.load p)
  | parse h p ih => exact ordered_step h.tidy.toCoherent ih (.parse p)
  | rewrite _ files ih => exact { ih with }

theorem marked (h : FragmentRun settings s) : s.Marked := by
  have hstep {s : Store} (hs : s.Coherent) (h : s.Marked) (r : Request) : (step s r).2.Marked :=
    holds_step keptByRuns_marked hs h (fun _ _ ht => ht) (fun _ => h) r
  induction h with
  | start files => exact Nat.le_refl _
  | load h p ih => exact hstep h.tidy.toCoherent ih (.load p)
  | parse h p ih => exact hstep h.tidy.toCoherent ih (.parse p)
  | rewrite _ files ih => exact ih

end FragmentRun

/-- How a load fails: while fragments are read, or when shapes are resolved. -/
inductive FailsAt (s : Store) (q : Path) (e : Stop) (t : Store) : Prop
  | reading (h : Load.fragment q s = (.error e, t))
  | resolving {g : Fragment} {f : Store} (h : Load.fragment q s = (.ok g, f))
      (stops : Load.resolveAll f = (.error e, t))

/-- A load that fails is taken back. -/
theorem exists_of_load_refused {q : Path} (h : ¬ (step s (.load q)).1.IsServed) : ∃ e t,
    step s (.load q) = ((e.fault?.map .fault).getD .exhausted, t.rollback s) ∧
      (Request.load q).work s = (.error e, t) ∧ FailsAt s q e t := by
  rcases hr : (do let f ← Load.fragment q; Load.resolveIfEager; return f : Load Fragment) s with
    ⟨e | g, t⟩
  · have hwork : (Request.load q).work s = (.error e, t) := by
      have hload := Load.bind_of_error hr fun _ => (pure () : Load Unit)
      simpa only [Request.work, bind_assoc, pure_bind, bind_pure_unit] using hload
    refine ⟨e, t, ?_, hwork, ?_⟩
    · rw [step, perform, Load.load, Load.orRollback, hr]
    · rcases Load.bind_eq_error.1 hr with hf | ⟨g, f, hf, hr⟩
      · exact .reading hf
      · rcases Load.bind_eq_error.1 hr with hr | ⟨_, _, _, hpure⟩
        · rw [Load.resolveIfEager, Load.ask_bind] at hr
          split at hr
          · exact .resolving hf hr
          · cases hr
        · cases hpure
  · rw [step, perform, Load.load, Load.orRollback, hr] at h
    exact absurd trivial h

section
variable (h : FragmentRun settings s) (hroot : settings.root.isAbsolute) {q : Path}
include h hroot

/-- All that waits after the load has failed can be resolved. -/
theorem FragmentRun.mends (hrefused : ¬ (step s (.load q)).1.IsServed)
    (hserved : (step s .resolveAll).1.IsServed)
    (hindependent : ∀ u k, s.timesRead u k < (step s (.load q)).2.timesRead u k →
      (step s .resolveAll).2.timesRead u k = s.timesRead u k) :
    s.Mends (step s (.load q)).2 := by
  have hs := h.tidy
  have hroot' : s.settings.root.isAbsolute := h.settings_eq.symm ▸ hroot
  obtain ⟨e, t, hstep, hwork, hfails⟩ := exists_of_load_refused hrefused
  have he : e ≠ .exhausted := by
    rintro rfl
    exact answered_step hs.toCoherent hroot' (.load q) (congrArg Prod.fst hstep)
  obtain ⟨m, hm, hgrows⟩ : ∃ m, s.Resolves m ∧ m.Grows (step s .resolveAll).2 := by
    obtain ⟨_, hok⟩ := ok_of_perform hserved
    rw [step, perform_snd]
    exact exists_resolves (Prod.ext hok rfl)
  have htallied := tallied_step hs.toCoherent hroot' hserved
  have htallies := ((keptByRuns_reading hroot').requests.work hs.toCoherent hs.toCoherent.reading
    (.load q)).of_error hwork
  rw [hstep] at hindependent ⊢
  cases hfails with
  | reading hf =>
    refine mends_of_fragment hs h.ordered h.marked hroot' hm hf he ?_
    exact independent_of_timesRead htallies (fun _ _ => isCached_of_rollback) hgrows htallied hindependent
  | resolving hf hr =>
    refine mends_of_resolveAll hs hroot' hf hr h.ordered hm ?_
    have hcached (u : Purpose) (k : PathKey) := (Load.grows_of_apply hr).isCached (u := u) (k := k)
    exact independent_of_timesRead htallies hcached hgrows htallied hindependent

end

/-- When all that waits is resolved, a shape that is left unresolved has failed. -/
theorem failed_of_resolveAll {t : Store} (ht : t.Coherent) (hserved : (step t .resolveAll).1.IsServed)
    {i : ShapeId} {a : Shape} (ha : (step t .resolveAll).2.shapes[i]? = some a) (hu : a.isUnknown) :
    i ∈ t.failed ∧ t.Grows (step t .resolveAll).2 := by
  obtain ⟨_, hok⟩ := ok_of_perform hserved
  rw [step, perform_snd] at ha ⊢
  have hrun : Load.resolveAll t = (.ok (), (Load.resolveAll t).2) := Prod.ext hok rfl
  obtain ⟨w, -, hw⟩ := ((ht.underway t.mentions_true).resolveAll ht.inProgress).of_ok hrun
  refine ⟨?_, Load.grows_of_apply hrun⟩
  rcases hw.waiting i a ha hu with hf | hq | hp
  · exact hw.failed ▸ hf
  · rw [hw.quiet rfl] at hq
    cases hq
  · cases hp

/-- After a load has failed, all that waits can be resolved as before, if what waits needs none of the
files that the load has read. Then all shapes are resolved that can be reached from a cached fragment,
except for those that had failed before the load, and for those that the load has stored, some of which
may belong to the fragments that had waited. -/
theorem usable_after_failure (hroot : settings.root.isAbsolute) (h : FragmentRun settings s) (q : Path)
    (hrefused : ¬ (step s (.load q)).1.IsServed) (hserved : (step s .resolveAll).1.IsServed)
    (hindependent : ∀ u k, s.timesRead u k < (step s (.load q)).2.timesRead u k →
      (step s .resolveAll).2.timesRead u k = s.timesRead u k) :
    let t := (step s (.load q)).2
    (step t .resolveAll).1.IsServed ∧ ∀ i, (step t .resolveAll).2.Reach i →
      ∃ a, (step t .resolveAll).2.shapes[i]? = some a ∧
        (a.kind ≠ .unknown ∨ i ∈ s.failed ∨ s.shapes.size ≤ i ∧ i < t.shapes.size) := by
  intro t
  have hmends : s.Mends t := h.mends hroot hrefused hserved hindependent
  have ht : t.Coherent := (h.load q).tidy.toCoherent
  obtain ⟨m, hm⟩ := hmends.resolves
  obtain ⟨u, hu⟩ := hm.resolveAll
  have hserved' : (step t .resolveAll).1.IsServed := by
    rw [step, perform, hu]
    trivial
  refine ⟨hserved', fun i hi => ?_⟩
  have hlt := (keeps_step ht .resolveAll).coherent.lt_of_reach hi
  have ha := Array.getElem?_eq_getElem hlt
  refine ⟨_, ha, or_iff_not_imp_left.2 fun hk => ?_⟩
  have hunknown := Bool.not_eq_false _ ▸ mt Shape.isUnknown_eq_false_iff.1 hk
  obtain ⟨hf, hgrows⟩ := failed_of_resolveAll ht hserved' ha hunknown
  have hlt' : i < t.shapes.size := (h.load q).ordered.failed_lt i hf
  rcases Nat.lt_or_ge i s.shapes.size with hold | hnew
  · refine .inl (by_contra fun hnot => ?_)
    have hresolved := (hmends.resolved i hold hf hnot).grows hlt' hgrows
    rw [hresolved _ ha] at hunknown
    cases hunknown
  · exact .inr ⟨hnew, hlt'⟩

/-- A load that fails on a type of its own, after it has resolved a type of another library. The
property of that type was stored by the load, so it is left unresolved. -/
theorem usable_after_failure_of_property :
    let settings : LoadSettings := ⟨⟨"/"⟩, false, true⟩
    let files : Files := .memory [
      (⟨"/a.raml"⟩, "#%RAML 1.0 Library\ntypes:\n  Base:\n    type: object\n  Ext:\n    type: Base\n" ++
        "    properties:\n      x: Base\n"),
      (⟨"/b.raml"⟩, "#%RAML 1.0 Library\ntypes:\n  Bad: Missing\n")]
    let s := (step (.empty settings files) (.parse ⟨"/a.raml"⟩)).2
    let t := (step s (.load ⟨"/b.raml"⟩)).2
    settings.root.isAbsolute ∧ FragmentRun settings s ∧
      ¬ (step s (.load ⟨"/b.raml"⟩)).1.IsServed ∧ (step s .resolveAll).1.IsServed ∧
      (step t .resolveAll).1.IsServed ∧
      (∀ i, (step t .resolveAll).2.Reach i → ∃ a, (step t .resolveAll).2.shapes[i]? = some a ∧
        (a.kind ≠ .unknown ∨ i ∈ s.failed ∨ s.shapes.size ≤ i ∧ i < t.shapes.size)) ∧
      ∃ a c, (step t .resolveAll).2.shapes[1]? = some a ∧ 3 ∈ a.handles ∧
        (step t .resolveAll).2.shapes[3]? = some c ∧ c.kind = .unknown := by
  intro settings files s t
  have hroot : settings.root.isAbsolute := by decide
  have hrun : FragmentRun settings s := .parse (.start files) _
  have hfacts : ¬ (step s (.load ⟨"/b.raml"⟩)).1.IsServed ∧ (step s .resolveAll).1.IsServed ∧
      ((step s .resolveAll).2.reads.map fun e => (e.1, e.2.fragment, e.2.exampleFile)) =
        s.reads.map fun e => (e.1, e.2.fragment, e.2.exampleFile) := by decide +kernel
  have hshapes : ((step t .resolveAll).2.shapes[1]?.any fun a => a.handles.contains 3) = true ∧
      ((step t .resolveAll).2.shapes[3]?.any fun c => c.kind == .unknown) = true := by decide +kernel
  obtain ⟨hrefused, hserved, hreads⟩ := hfacts
  have hsame : (step s .resolveAll).2.reads = s.reads := by
    refine List.map_injective_iff.2 (fun x y hxy => ?_) hreads
    obtain ⟨k, n, m⟩ := x
    obtain ⟨l, n', m'⟩ := y
    cases hxy
    rfl
  have ht : (step s (.load ⟨"/b.raml"⟩)).2 = t := rfl
  have hmain := usable_after_failure hroot hrun ⟨"/b.raml"⟩ hrefused hserved
    fun u k _ => by rw [timesRead, timesRead, hsame]
  rw [ht] at hmain
  clear_value t
  obtain ⟨a, ha, hhandle⟩ := (Option.any_eq_true _ _).1 hshapes.1
  obtain ⟨c, hc, hunknown⟩ := (Option.any_eq_true _ _).1 hshapes.2
  exact ⟨hroot, hrun, hrefused, hserved, hmain.1, hmain.2, a, c, ha,
    List.contains_iff_mem.1 hhandle, hc, by simpa using hunknown⟩

end Session

end RamlTypes
