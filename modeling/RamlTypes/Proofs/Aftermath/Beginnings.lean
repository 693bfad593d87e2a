import RamlTypes.Proofs.Aftermath.Basic
import RamlTypes.Proofs.Coherence.Rollback
import RamlTypes.Proofs.Lifecycle.Lists
import RamlTypes.Proofs.Preservation.Indexes

/-!
# Where two runs begin

A load that has read its fragment, or has failed to and is taken back, has only added to the store: the
shapes that were there before, and what is noted of their files, are as they were, and what waits has
new shapes at its end at most (`Store.Continues`). So the store corresponds to the one before the load
(`Store.Continues.despite`).
-/

namespace RamlTypes

namespace Store

variable {b s t f : Store} {waiting : List ShapeId}

/-- The store `f` has what `s` has, and of the shapes beyond those of `s` the given ones wait. -/
structure Continues (waiting : List ShapeId) (s f : Store) : Prop where
  size_le : s.shapes.size ≤ f.shapes.size
  kept : ∀ i < s.shapes.size, f.shapes[i]? = s.shapes[i]?
  settings : f.settings = s.settings
  files : f.files = s.files
  loading : f.loading = []
  inProgress : f.inProgress = []
  bound : f.annotationsBound = s.annotationsBound
  failed : ∀ i < s.shapes.size, i ∈ f.failed ↔ i ∈ s.failed
  failed_lt : ∀ i ∈ f.failed, i < f.shapes.size
  unresolved : f.unresolved = s.unresolved ++ waiting
  waiting : ∀ i ∈ waiting, s.shapes.size ≤ i
  same : s.SameIndexes f
  mentions : f.MentionsCached
  examples : ∀ k e, Dict.find? k s.examples = some e → Dict.find? k f.examples = some e

/-- What the store `f` has beyond `s`. -/
def residue (waiting : List ShapeId) (s f : Store) : Residue where
  mark := s.shapes.size
  size := f.shapes.size - s.shapes.size
  waiting := waiting
  files u k := f.isCached u k ∧ ¬ s.isCached u k

/-- Numbers below the mark stand for themselves. -/
theorem moved_of_below {r : Residue} {i j : ShapeId} (h : Below r.mark i j) : r.Moved r.mark i j := by
  obtain ⟨rfl, hlt⟩ := h
  exact ⟨(displace_of_lt hlt _).symm, hlt⟩

/-- An index of the files that are cached is the same for those that were not added. -/
theorem Continues.find?_eq {α : Type} {d d' : Dict PathKey α}
    (hsame : ∀ k, Dict.has k s.fragments → Dict.find? k d = Dict.find? k d')
    (hknown : ∀ k, Dict.has k d → Dict.has k f.fragments)
    (hknown' : ∀ k, Dict.has k d' → Dict.has k s.fragments) {k : PathKey}
    (hk : ¬ (residue waiting s f).files .fragment k) : Dict.find? k d = Dict.find? k d' := by
  by_cases hcached : Dict.has k s.fragments
  · exact hsame k hcached
  · have hnew : ¬ Dict.has k f.fragments := fun h => hk ⟨h, hcached⟩
    rw [Dict.find?_eq_none_iff.2 fun h => hnew (hknown k h),
      Dict.find?_eq_none_iff.2 fun h => hcached (hknown' k h)]

/-- The store corresponds to the one before the load. -/
theorem Continues.despite (h : s.Continues waiting f) (hs : s.Tidy) (ho : s.Ordered)
    (hroot : s.settings.root.isAbsolute) :
    Despite (residue waiting s f) ⟨s.shapes.size, fun _ => False⟩ f s where
  size := (Nat.add_sub_cancel' h.size_le).symm
  size' := rfl
  mark_le := Nat.le_refl _
  shapes j c hc := by
    have hlt : j < s.shapes.size := (Array.getElem?_eq_some_iff.1 hc).1
    have hj : displace (residue waiting s f).mark (residue waiting s f).size j = j :=
      displace_of_lt hlt _
    refine ⟨c, ?_, (hs.shapes j c hc).mono fun _ _ => moved_of_below, ?_, hs.ids j c hc⟩
    · rw [hj, h.kept j hlt, hc]
    · exact (hs.ids j c hc).trans hj.symm
  located j c hc := (hs.mentions.locations j c hc).imp_right fun hk hfiles => hfiles.2 hk
  root := hroot
  settings := h.settings.symm
  sources := h.files.symm
  loading := hs.loading.trans h.loading.symm
  inProgress := by
    rw [h.inProgress, hs.inProgress]
    rfl
  failed j := by
    show displace s.shapes.size (f.shapes.size - s.shapes.size) j ∈ f.failed ↔ j ∈ s.failed
    -- A number that is displaced lies above all shapes of both stores.
    rcases Nat.lt_or_ge j s.shapes.size with hlt | hge
    · rw [displace_of_lt hlt]
      exact h.failed j hlt
    · rw [displace_of_le hge]
      refine iff_of_false (fun hf => ?_) fun hf => Nat.not_lt_of_le hge (ho.failed_lt j hf)
      have hlt : j + (f.shapes.size - s.shapes.size) < f.shapes.size := h.failed_lt _ hf
      have hle : s.shapes.size ≤ f.shapes.size := h.size_le
      omega
  bound := h.bound
  resolved _ hj := hj.elim
  queue := by
    refine ⟨s.unresolved, [], (List.append_nil _).symm, ?_, hs.queue, nofun⟩
    rw [List.map_nil, List.append_nil]
    exact h.unresolved
  fragments k hk := by
    rw [find?_eq h.same.fragments (fun _ hk => hk) (fun _ hk => hk) hk]
    rcases hf : Dict.find? k s.fragments with _ | g
    · exact .none
    · exact .some ((hs.fragments k g hf).mono (fun _ _ => moved_of_below) fun _ _ _ => trivial)
  named k hk := by
    rw [find?_eq h.same.named h.mentions.named hs.mentions.named hk]
    rcases hd : Dict.find? k s.named with _ | d
    · exact .none
    · exact .some ((hs.named k d hd).mono fun _ _ => moved_of_below)
  uses k hk := (find?_eq h.same.uses h.mentions.uses hs.mentions.uses hk).symm
  examples k hk := by
    rcases he : Dict.find? k s.examples with _ | e
    · refine (Dict.find?_eq_none_iff.2 fun hf => hk ⟨hf, ?_⟩).symm
      exact Dict.find?_eq_none_iff.1 he
    · exact (h.examples k e he).symm
  cached _ hk := hk.1
  fragments_none k hk := Dict.find?_eq_none_iff.2 hk.2
  named_none k hk := Dict.find?_eq_none_iff.2 fun h => hk.2 (hs.mentions.named k h)
  examples_none k hk := Dict.find?_eq_none_iff.2 hk.2

/-! ## Loads of fragments -/

/-- Loading has added shapes to those of `b`, of which some wait. -/
structure Enqueues (b s : Store) : Prop where
  size_le : b.shapes.size ≤ s.shapes.size
  failed : s.failed = b.failed
  bound : s.annotationsBound = b.annotationsBound
  unresolved : ∃ new, s.unresolved = b.unresolved ++ new ∧ ∀ i ∈ new, b.shapes.size ≤ i

theorem Enqueues.refl (b : Store) : b.Enqueues b where
  size_le := Nat.le_refl _
  failed := rfl
  bound := rfl
  unresolved := ⟨[], (List.append_nil _).symm, nofun⟩

theorem Enqueues.addShape (h : b.Enqueues s) (a : Shape) : b.Enqueues (s.addShape a) :=
  { h with
    size_le := Nat.le_trans h.size_le (s.grows_addShape a).size_le
    unresolved := by
      obtain ⟨new, hq, hnew⟩ := h.unresolved
      rw [Store.addShape]
      dsimp only
      split
      · refine ⟨new ++ [s.shapes.size], by rw [hq, List.append_assoc], ?_⟩
        exact List.forall_mem_append.2 ⟨hnew, List.forall_mem_singleton.2 h.size_le⟩
      · exact ⟨new, hq, hnew⟩ }

theorem keptByFetching_enqueues (b : Store) : KeptByFetching b.Enqueues where
  report _ _ h := { h with }
  reportUnbound _ _ h := { h with }
  addShape a _ h := h.addShape a
  makeOptional i h := { h with size_le := (size_mapShape _ i _).symm ▸ h.size_le }
  declareUse _ _ _ h := { h with }
  declareType _ _ _ h := { h with }
  declareAnnotationType _ _ _ h := { h with }
  countRead _ _ h := { h with }
  cacheExample _ _ h := { h with }
  beginLoading _ h := { h with }
  endLoading _ h := { h with }
  cacheFragment _ h := { h with }

section
variable (hs : s.Tidy) (ho : s.Ordered) {p : Path}
include hs ho

/-- What holds after the fragment of a file is loaded. -/
theorem Tidy.continues {g : Fragment} (h : Load.fragment p s = (.ok g, t)) :
    ∃ waiting, s.Continues waiting t := by
  have hgrows := Load.grows_of_apply h
  have hloading : t.loading = [] := List.subset_nil.1 (hs.loading ▸ hgrows.loading)
  have hextends := (extends_of_agree (beside_loads.fragment () p) h).1
  have henqueues := ((keptByFetching_enqueues s).keptByLoads.fragment p (.refl s)).of_ok h
  have hordered := (keptByRuns_ordered.fragment p ho).of_ok h
  have hsince : (s.since (fun k => Dict.has k s.fragments) .declaring).Loads _ := since_loads nofun
  obtain ⟨w, -, hw, -⟩ :=
    ((hs.underway hs.mentions).endsIn (hsince.fragment (.start s) p)).of_ok h
  obtain ⟨new, hq, hnew⟩ := henqueues.unresolved
  exact ⟨new,
    { size_le := hextends.grows.size_le
      kept := hextends.kept
      settings := hgrows.settings
      files := hgrows.files
      loading := hloading
      inProgress := hgrows.inProgress.trans hs.inProgress
      bound := henqueues.bound
      failed := fun _ _ => henqueues.failed ▸ Iff.rfl
      failed_lt := hordered.failed_lt
      unresolved := hq
      waiting := hnew
      same := hw.same
      mentions := hw.mentionsCached hloading
      examples := hgrows.examples }⟩

/-- What holds after the load of a fragment has failed and is taken back. -/
theorem Tidy.continues_rollback {e : Stop} (h : Load.fragment p s = (.error e, t))
    (he : e ≠ .exhausted) : s.Continues [] (t.rollback s) := by
  have hgrows := Load.grows_of_apply h
  have hextends := extends_of_agree_error (beside_loads.fragment () p) h he
  have henqueues := ((keptByFetching_enqueues s).keptByLoads.fragment p (.refl s)).of_error h
  have hordered := ((keptByRuns_ordered.fragment p ho).of_error h).rollback s
  have hsince : (s.since (fun k => Dict.has k s.fragments) .declaring).Loads _ := since_loads nofun
  obtain ⟨w, hw⟩ := ((hs.underway hs.mentions).endsIn (hsince.fragment (.start s) p)).of_error h
  obtain ⟨new, hq, hnew⟩ := henqueues.unresolved
  exact
  { size_le := hextends.grows.size_le
    kept := hextends.kept
    settings := hgrows.settings
    files := hgrows.files
    loading := List.subset_nil.1 (hs.loading ▸ hgrows.loading)
    inProgress := hgrows.inProgress.trans hs.inProgress
    bound := henqueues.bound
    failed := fun i hi => by
      rw [mem_failed_rollback, henqueues.failed, or_iff_left fun h => Nat.not_lt_of_le h.1 hi]
    failed_lt := hordered.failed_lt
    unresolved := by
      show t.unresolved.filter (· < s.shapes.size) = _
      rw [hq, List.filter_append, List.filter_eq_self.2 fun i hi => decide_eq_true (hs.queue i hi),
        List.filter_eq_nil_iff.2 fun i hi => by simpa using hnew i hi]
    waiting := nofun
    same := hw.same.rollback
    mentions := hw.mentionsCached_rollback hs.mentions hgrows
    examples := hgrows.examples }

end

end Store

end RamlTypes
