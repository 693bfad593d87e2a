import RamlTypes.Proofs.ClosedWorld.Reach
import RamlTypes.Proofs.Coherence.Runs

/-!
# What a failed load leaves behind

A load or a parse that fails leaves the caches and indexes as they were before, and its shapes have
failed (`Session.FragmentRun.undone_of_error`). For that, all names that the store knows must belong
to files that are cached, which holds between the loads and parses of a session.
-/

namespace RamlTypes

namespace Store

/-- What remains of the store `b` in the store `s` after a load of `b` that has failed. -/
structure Undone (b s : Store) : Prop where
  fragments : ∀ k, Dict.find? k s.fragments = Dict.find? k b.fragments
  named : ∀ k, Dict.find? k s.named = Dict.find? k b.named
  annotationTypes : ∀ k, Dict.find? k s.annotationTypes = Dict.find? k b.annotationTypes
  uses : ∀ k, Dict.find? k s.uses = Dict.find? k b.uses
  /-- The shapes that the load has stored have failed, and nothing waits for them. -/
  discarded : ∀ i, b.shapes.size ≤ i → i < s.shapes.size →
    i ∈ s.failed ∧ i ∉ s.unresolved ∧ i ∉ s.resolved
  unresolved : s.unresolved <:+ b.unresolved
  resolved : b.resolved <+: s.resolved
  kept : ∀ (i : ShapeId) (a : Shape), b.shapes[i]? = some a → a.kind ≠ .unknown →
    ∃ c, s.shapes[i]? = some c ∧ c.body = a.body ∧ c.inherits = a.inherits ∧
      c.customFacets = a.customFacets
  loading : s.loading = []
  inProgress : s.inProgress = []

/-- The store mentions only files that are cached. -/
abbrev MentionsCached (s : Store) : Prop :=
  Mentions (fun k => Dict.has k s.fragments) s

variable {b s : Store} {phase : Phase} {w : Extent b}

/-- An index of the files that are cached in `b`, after what was added to it is dropped. -/
theorem find?_keepKnown_cached {α : Type} {d d' : Dict PathKey α}
    (hsame : ∀ k, Dict.has k b.fragments → Dict.find? k d = Dict.find? k d')
    (hmentions : ∀ k, Dict.has k d' → Dict.has k b.fragments) (k : PathKey) :
    Dict.find? k (keepKnown (Dict.keys b.fragments) d) = Dict.find? k d' := by
  rw [find?_keepKnown]
  split
  · next hk => exact hsame k (Dict.mem_keys.1 hk)
  · next hk =>
    rw [Dict.mem_keys] at hk
    exact (Dict.find?_eq_none_iff.2 fun hd => hk (hmentions k hd)).symm

/-- Once nothing is loaded any more, the files of a request are cached. -/
theorem Underway.has_of_opened
    (h : b.Underway (fun k => Dict.has k b.fragments) phase w s) (hl : s.loading = [])
    {k : PathKey} (hk : w.Opened (fun k => Dict.has k b.fragments) k) : Dict.has k s.fragments := by
  rcases hk with hk | hk
  · rwa [Dict.has, h.same.fragments k hk]
  · refine (h.loading k hk).resolve_right fun hmem => ?_
    rw [hl] at hmem
    cases hmem

theorem Underway.mentionsCached
    (h : b.Underway (fun k => Dict.has k b.fragments) phase w s) (hl : s.loading = []) :
    s.MentionsCached where
  locations i a ha := (h.locations i a ha).imp_right (h.has_of_opened hl)
  named k hk := by
    obtain ⟨d, hd⟩ := Dict.has_iff.1 hk
    exact h.has_of_opened hl (h.named k d hd).1
  annotationTypes k hk := by
    obtain ⟨d, hd⟩ := Dict.has_iff.1 hk
    exact h.has_of_opened hl (h.annotationTypes k d hd).1
  uses k hk := h.has_of_opened hl (h.uses k hk)

section
variable (hb : b.Coherent) (hm : b.MentionsCached)
  (h : b.Since (fun k => Dict.has k b.fragments) .declaring w s) (hgrows : b.Grows s)
include hb hm h hgrows

/-- A load that has stopped is undone by the rollback. -/
theorem Since.undone : b.Undone (s.rollback b) where
  fragments := find?_keepKnown_cached h.same.fragments fun _ hk => hk
  named := find?_keepKnown_cached h.same.named hm.named
  annotationTypes := find?_keepKnown_cached h.same.annotationTypes hm.annotationTypes
  uses := find?_keepKnown_cached h.same.uses hm.uses
  discarded i hle hlt := by
    have hdropped {l : List ShapeId} : i ∉ l.filter (· < b.shapes.size) := by
      intro hmem
      have hi := of_decide_eq_true (List.mem_filter.1 hmem).2
      omega
    exact ⟨mem_failed_rollback.2 (.inr ⟨hle, hlt⟩), hdropped, hdropped⟩
  unresolved := h.suffix
  resolved := by
    obtain ⟨more, hmore⟩ := hgrows.resolved
    have hold : b.resolved.filter (· < b.shapes.size) = b.resolved :=
      List.filter_eq_self.2 fun i hi => decide_eq_true (hb.resolved i hi)
    show b.resolved <+: s.resolved.filter (· < b.shapes.size)
    rw [← hmore, List.filter_append, hold]
    exact List.prefix_append _ _
  kept i a ha hk := by
    obtain ⟨c, hc, -, hkept⟩ := hgrows.kept ha (Shape.isUnknown_eq_false_iff.2 hk)
    exact ⟨c, hc, hkept.body, hkept.inherits, hkept.customFacets⟩
  loading := List.subset_nil.1 (hb.loading ▸ hgrows.loading)
  inProgress := hgrows.inProgress.trans hb.inProgress

omit hb in
/-- After the rollback the store mentions only the files that were cached before. -/
theorem Since.mentionsCached_rollback : (s.rollback b).MentionsCached := by
  have known {k : PathKey} (hk : Dict.has k b.fragments) : Dict.has k (s.rollback b).fragments := by
    show Dict.has k (keepKnown _ _)
    rwa [Dict.has, find?_keepKnown_cached h.same.fragments fun _ hk => hk]
  have kept {α : Type} {d : Dict PathKey α} {k : PathKey}
      (hk : Dict.has k (keepKnown (Dict.keys b.fragments) d)) : Dict.has k b.fragments := by
    obtain ⟨v, hv⟩ := Dict.has_iff.1 hk
    exact Dict.mem_keys.1 (find?_of_keepKnown hv).1
  refine ⟨fun i a ha => ?_, fun k hk => known (kept hk), fun k hk => known (kept hk),
    fun k hk => known (kept hk)⟩
  have ha : s.shapes[i]? = some a := ha
  rw [mem_failed_rollback]
  rcases Nat.lt_or_ge i b.shapes.size with hlt | hge
  · obtain ⟨c, hc, hgrown, -⟩ := hgrows.shapes i _ (Array.getElem?_eq_getElem hlt)
    cases hc.symm.trans ha
    rcases hm.locations i _ (Array.getElem?_eq_getElem hlt) with hf | hk
    · exact .inl (.inl (hgrows.failed hf))
    · rw [← hgrown.location_eq] at hk
      exact .inr (known hk)
  · exact .inl (.inr ⟨hge, (Array.getElem?_eq_some_iff.1 ha).1⟩)

end

/-- What holds between the loads and parses of a session. -/
structure Tidy (s : Store) : Prop extends s.Coherent where
  mentions : s.MentionsCached

/-- A load or a parse leaves a tidy store, and nothing of itself when it fails. -/
theorem Tidy.orRollback (hb : b.Tidy) {α : Type} {x : Load α}
    (hx : x.EndsIn b (fun _ t => ∃ w, b.Underway (fun k => Dict.has k b.fragments) .declaring w t)
      fun t => ∃ w, b.Since (fun k => Dict.has k b.fragments) .declaring w t) :
    (Load.orRollback x b).2.Tidy ∧
      ∀ e t, Load.orRollback x b = (.error e, t) → b.Undone t := by
  have hcoherent := (hb.toCoherent.serves_orRollback hx).coherent
  have hgrows := x.grows b
  have hloading : (x b).2.loading = [] := List.subset_nil.1 (hb.loading ▸ hgrows.loading)
  rw [Load.orRollback] at hcoherent ⊢
  rcases hr : x b with ⟨e | a, t⟩
  all_goals rw [hr] at hcoherent hgrows hloading
  · obtain ⟨w, hw⟩ := hx.of_error hr
    refine ⟨⟨hcoherent, hw.mentionsCached_rollback hb.mentions hgrows⟩, ?_⟩
    rintro _ _ ⟨⟩
    exact hw.undone hb.toCoherent hb.mentions hgrows
  · obtain ⟨w, hw⟩ := hx.of_ok hr
    refine ⟨⟨hcoherent, hw.mentionsCached hloading⟩, ?_⟩
    rintro _ _ ⟨⟩

variable (hb : b.Tidy) (p : Path)
include hb

theorem Tidy.load : (Load.load p b).2.Tidy ∧ ∀ e t, Load.load p b = (.error e, t) → b.Undone t := by
  refine hb.orRollback ((hb.toCoherent.load hb.mentions p).imp ?_ fun _ ht => ht)
  rintro _ t ⟨w, ht, -⟩
  exact ⟨w, ht⟩

theorem Tidy.parse :
    (Load.parse p b).2.Tidy ∧ ∀ e t, Load.parse p b = (.error e, t) → b.Undone t := by
  have hloads : (b.since (fun k => Dict.has k b.fragments) .declaring).Loads _ := since_loads nofun
  have hstart := hb.toCoherent.underway hb.mentions
  refine hb.orRollback ((hstart.endsIn (hloads.fragment (.start b) p)).imp ?_ fun _ ht => ht)
  rintro _ t ⟨w, -, ht, -⟩
  exact ⟨w, ht⟩

end Store

namespace Session

/-- The store of a session that has made loads and parses only, with files that may change between
them. -/
inductive FragmentRun (settings : LoadSettings) : Store → Prop
  | start (files : Files) : FragmentRun settings (.empty settings files)
  | load {s : Store} (h : FragmentRun settings s) (p : Path) :
      FragmentRun settings (step s (.load p)).2
  | parse {s : Store} (h : FragmentRun settings s) (p : Path) :
      FragmentRun settings (step s (.parse p)).2
  | rewrite {s : Store} (h : FragmentRun settings s) (files : Files) :
      FragmentRun settings { s with files := files }

namespace FragmentRun

variable {settings : LoadSettings} {s : Store}

theorem tidy (h : FragmentRun settings s) : s.Tidy := by
  induction h with
  | start files =>
    exact ⟨Store.coherent_empty settings files, Store.mentions_empty _ settings files⟩
  | load _ p ih =>
    rw [step, perform_snd]
    exact (ih.load p).1
  | parse _ p ih =>
    rw [step, perform_snd]
    exact (ih.parse p).1
  | rewrite _ files ih => exact { ih with mentions := { ih.mentions with } }

/-- A load or a parse that fails is undone. -/
theorem undone_of_error (h : FragmentRun settings s) (p : Path) (e : Stop) (t : Store)
    (hfail : Load.load p s = (.error e, t) ∨ Load.parse p s = (.error e, t)) : s.Undone t := by
  rcases hfail with hfail | hfail
  · exact (h.tidy.load p).2 e t hfail
  · exact (h.tidy.parse p).2 e t hfail

/-- The load of a library that fails in a library it uses, while another one is only parsed. -/
theorem undone_of_used_library :
    let settings : LoadSettings := ⟨⟨"/"⟩, false, true⟩
    let files : Files := .memory [
      (⟨"/a.raml"⟩, "#%RAML 1.0 Library\ntypes:\n  Foo: string\n  Bar: Foo[]\n"),
      (⟨"/b.raml"⟩, "#%RAML 1.0 Library\nuses:\n  c: c.raml\ntypes:\n  Baz: string\n"),
      (⟨"/c.raml"⟩, "#%RAML 1.0 Library\ntypes:\n  Bad: Missing\n")]
    let s := (step (.empty settings files) (.parse ⟨"/a.raml"⟩)).2
    s.unresolved = [1] ∧ ∃ e t, Load.load ⟨"/b.raml"⟩ s = (.error e, t) ∧ s.Undone t := by
  intro settings files s
  have hwaits : s.unresolved = [1] := by decide +kernel
  have hfails : (Load.load ⟨"/b.raml"⟩ s).1.isOk = false := by decide +kernel
  rcases hload : Load.load ⟨"/b.raml"⟩ s with ⟨e | f, t⟩
  · exact ⟨hwaits, e, t, rfl, undone_of_error (.parse (.start files) _) _ e t (.inl hload)⟩
  · rw [hload] at hfails
    cases hfails

end FragmentRun

end Session

end RamlTypes
