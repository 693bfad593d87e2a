import RamlTypes.Proofs.Preservation.Indexes
import RamlTypes.Proofs.Recording

/-!
# What is noted of a file

What the store notes of a cached file is what its fragment lists, and nothing is noted of other files
(`Store.Filed`). While files are being read, the store notes of each what is read of it so far, and
what is noted of the files that were cached before stays the same (`Store.filings`).
-/

namespace RamlTypes

namespace Store

variable {b s t : Store} {k : PathKey} {c c' : Contents} {ds : Drafts} {path : Path}

/-- The annotation types and the aliases that are noted of the file are those of the contents. -/
structure Catalogs (s : Store) (k : PathKey) (c : Contents) : Prop where
  annotationTypes : ∀ n, (Dict.find? k s.annotationTypes).bind (Dict.find? n) =
    Dict.find? n c.annotationTypes
  uses : ∀ n, (Dict.find? k s.uses).bind (Dict.find? n) = Dict.find? n c.uses

/-- Something is noted of the file. -/
def Notes (s : Store) (k : PathKey) : Prop :=
  Dict.has k s.named ∨ Dict.has k s.annotationTypes ∨ Dict.has k s.uses

/-- The same is noted of the file in both stores. -/
structure NotesAlike (s t : Store) (k : PathKey) : Prop where
  named : Dict.find? k t.named = Dict.find? k s.named
  annotationTypes : Dict.find? k t.annotationTypes = Dict.find? k s.annotationTypes
  uses : Dict.find? k t.uses = Dict.find? k s.uses

/-- Of a file of which nothing is noted the catalog is empty. -/
theorem catalogs_of_not_notes (h : ¬ s.Notes k) : s.Catalogs k .empty := by
  rw [Notes, not_or, not_or] at h
  refine ⟨fun n => ?_, fun n => ?_⟩
  · rw [Dict.find?_eq_none_iff.2 h.2.1]
    rfl
  · rw [Dict.find?_eq_none_iff.2 h.2.2]
    rfl

/-- The catalog depends on what is noted only. -/
theorem NotesAlike.catalogs (h : NotesAlike s t k) (hs : s.Catalogs k c) : t.Catalogs k c where
  annotationTypes n := h.annotationTypes ▸ hs.annotationTypes n
  uses n := h.uses ▸ hs.uses n

/-- Whether something is noted does so too. -/
theorem NotesAlike.notes (h : NotesAlike s t k) (ht : t.Notes k) : s.Notes k := by
  rwa [Notes, Dict.has, Dict.has, Dict.has, h.named, h.annotationTypes, h.uses] at ht

/-- What is noted of the cached files is what their fragments list, and nothing is noted of others. -/
structure Filed (s : Store) : Prop where
  noted : ∀ k, s.Notes k → Dict.has k s.fragments
  cached : ∀ k f, Dict.find? k s.fragments = some f → s.Catalogs k f.contents

/-- The store while the drafts are being read. What was noted before of a file that was cached in `b`
stays the same. -/
structure Filing (b : Store) (ds : Drafts) (s : Store) : Prop where
  settings_eq : s.settings = b.settings
  loading : s.loading = ds.map (·.1)
  same : b.SameIndexes s
  uncached : ∀ d ∈ ds, ¬ Dict.has d.1 s.fragments
  noted : ∀ k, s.Notes k → Dict.has k s.fragments ∨ k ∈ ds.map (·.1)
  cached : ∀ k f, Dict.find? k s.fragments = some f → s.Catalogs k f.contents
  drafted : ∀ d ∈ ds, s.Catalogs d.1 d.2

/-- In the empty store nothing is noted. -/
theorem filed_empty (settings : LoadSettings) (files : Files) : (empty settings files).Filed where
  noted _ h := by rcases h with h | h | h <;> cases h
  cached _ _ h := nomatch h

/-- Between two requests nothing is being read. -/
theorem Filed.filing (h : s.Filed) (hsame : b.SameIndexes s) (hsettings : s.settings = b.settings)
    (hloading : s.loading = []) : Filing b [] s where
  settings_eq := hsettings
  loading := hloading
  same := hsame
  uncached := List.forall_mem_nil _
  noted k hk := .inl (h.noted k hk)
  cached := h.cached
  drafted := List.forall_mem_nil _

/-- With no file being read, all that is noted belongs to cached files. -/
theorem Filing.filed (h : Filing b [] s) : s.Filed where
  noted k hk := (h.noted k hk).resolve_right List.not_mem_nil
  cached := h.cached

/-- What is left after a load is taken back belongs to the files that were cached before. -/
theorem has_of_keepKnown {α β : Type} {known : Dict PathKey β} {d : Dict PathKey α}
    (hk : Dict.has k (keepKnown (Dict.keys known) d)) : Dict.has k known := by
  rw [Dict.has, find?_keepKnown] at hk
  split at hk
  · next hmem => exact Dict.mem_keys.1 hmem
  · cases hk

/-- Taking back a load leaves what was noted before. -/
theorem Filed.rollback (h : b.Filed) (hs : b.SameIndexes s) : (s.rollback b).Filed := by
  have hsame := hs.rollback
  refine ⟨fun k hk => ?_, fun k f hf => ?_⟩
  · have hb : Dict.has k b.fragments := by
      rcases hk with hk | hk | hk
      all_goals exact has_of_keepKnown hk
    rwa [Dict.has, hsame.fragments k hb]
  · have hb : Dict.has k b.fragments := has_of_keepKnown (Dict.has_iff.2 ⟨f, hf⟩)
    have halike : NotesAlike b (s.rollback b) k :=
      ⟨hsame.named k hb, hsame.annotationTypes k hb, hsame.uses k hb⟩
    exact halike.catalogs (h.cached k f ((hsame.fragments k hb).symm.trans hf))

section
variable (h : Filing b ((path.key, c) :: ds) s) (ho : path.key ∉ ds.map (·.1))
include h ho

/-- More is noted of the file that is being read, and nothing else happens. -/
theorem Filing.note (hsettings : t.settings = s.settings) (hloading : t.loading = s.loading)
    (hfragments : t.fragments = s.fragments)
    (halike : ∀ k, path.key ≠ k → NotesAlike s t k) (hlisted : t.Catalogs path.key c') :
    Filing b ((path.key, c') :: ds) t := by
  have hne {k : PathKey} (hk : Dict.has k s.fragments) : path.key ≠ k := by
    rintro rfl
    exact h.uncached _ List.mem_cons_self hk
  have hold {k : PathKey} (hk : Dict.has k b.fragments) : NotesAlike s t k := by
    refine halike k (hne ?_)
    rwa [Dict.has, h.same.fragments k hk]
  refine
    { settings_eq := hsettings.trans h.settings_eq
      loading := hloading.trans h.loading
      same := ?_
      uncached := ?_
      noted := fun k hk => ?_
      cached := fun k f hf => ?_
      drafted := ?_ }
  · exact ⟨fun k hk => hfragments ▸ h.same.fragments k hk,
      fun k hk => (hold hk).named.trans (h.same.named k hk),
      fun k hk => (hold hk).annotationTypes.trans (h.same.annotationTypes k hk),
      fun k hk => (hold hk).uses.trans (h.same.uses k hk)⟩
  · have hall := h.uncached
    rw [List.forall_mem_cons] at hall ⊢
    rwa [hfragments]
  · by_cases hp : path.key = k
    · exact .inr (hp ▸ List.mem_cons_self)
    · rw [hfragments]
      exact h.noted k ((halike k hp).notes hk)
  · rw [hfragments] at hf
    exact (halike k (hne (Dict.has_iff.2 ⟨f, hf⟩))).catalogs (h.cached k f hf)
  · have hall := h.drafted
    rw [List.forall_mem_cons] at hall ⊢
    refine ⟨hlisted, fun d hd => (halike d.1 ?_).catalogs (hall.2 d hd)⟩
    exact fun heq => ho (heq ▸ List.mem_map_of_mem hd)

/-- A use is entered into the draft of the file that is being read. -/
theorem Filing.declareUse (name : String) (p : Path) :
    Filing b ((path.key, { c with uses := Dict.put name p c.uses }) :: ds)
      (s.declareUse path name p) := by
  have hlisted := h.drafted _ List.mem_cons_self
  refine h.note ho rfl rfl rfl (fun k hk => ⟨rfl, rfl, Dict.find?_adjust_of_ne hk _ _ _⟩) ?_
  refine ⟨hlisted.annotationTypes, fun n => ?_⟩
  rw [Store.declareUse, Dict.find?_adjust_put, Dict.find?_put, hlisted.uses]
  simp only [true_and]

/-- So is a type. -/
theorem Filing.declareType (name : String) (i : ShapeId) :
    Filing b ((path.key, { c with types := Dict.put name i c.types }) :: ds)
      (s.declareType path name i) := by
  have hlisted := h.drafted _ List.mem_cons_self
  refine h.note ho rfl rfl rfl (fun k hk => ⟨Dict.find?_adjust_of_ne hk _ _ _, rfl, rfl⟩) ?_
  exact ⟨hlisted.annotationTypes, hlisted.uses⟩

/-- So is an annotation type. -/
theorem Filing.declareAnnotationType (name : String) (i : ShapeId) :
    Filing b ((path.key, { c with annotationTypes := Dict.put name i c.annotationTypes }) :: ds)
      (s.declareAnnotationType path name i) := by
  have hlisted := h.drafted _ List.mem_cons_self
  refine h.note ho rfl rfl rfl (fun k hk =>
    ⟨Dict.find?_adjust_of_ne hk _ _ _, Dict.find?_adjust_of_ne hk _ _ _, rfl⟩) ?_
  refine ⟨fun n => ?_, hlisted.uses⟩
  rw [Store.declareAnnotationType, Store.declareType, Dict.find?_adjust_put, Dict.find?_put,
    hlisted.annotationTypes]
  simp only [true_and]

end

/-- The reading of a file begins of which nothing is noted. -/
theorem Filing.beginLoading (h : Filing b ds s) (ho : path.key ∉ ds.map (·.1))
    (hc : ¬ Dict.has path.key s.fragments) :
    Filing b ((path.key, .empty) :: ds) (s.beginLoading path) where
  settings_eq := h.settings_eq
  loading := congrArg (path.key :: ·) h.loading
  same := { h.same with }
  uncached := List.forall_mem_cons.2 ⟨hc, h.uncached⟩
  noted k hk := (h.noted k hk).imp_right (List.mem_cons_of_mem _)
  cached := fun k f hf => { h.cached k f hf with }
  drafted := by
    have hnew : s.Catalogs path.key .empty :=
      catalogs_of_not_notes fun hk => (h.noted _ hk).elim hc ho
    refine List.forall_mem_cons.2 ⟨{ hnew with }, fun d hd => { h.drafted d hd with }⟩

/-- The fragment of a file is cached when it is read. -/
theorem Filing.cacheFragment {f : Fragment} (h : Filing b ((f.location.key, f.contents) :: ds) s)
    (ho : f.location.key ∉ ds.map (·.1)) :
    Filing b ds ((s.endLoading f.location).cacheFragment f) where
  settings_eq := h.settings_eq
  loading := loading_endLoading h.loading ho
  same := { h.same with
    fragments := fun k hk => by
      have hcached := h.same.fragments k hk
      obtain ⟨g, hg⟩ := Dict.has_iff.1 hk
      rw [Store.cacheFragment, Dict.find?_putNew]
      rw [hg] at hcached ⊢
      exact Option.or_eq_some_iff.2 (.inl hcached) }
  uncached d hd := by
    have hne : f.location.key ≠ d.1 := fun heq => ho (heq ▸ List.mem_map_of_mem hd)
    rw [Store.cacheFragment, Dict.has, Dict.find?_putNew, if_neg hne, Option.or_none]
    exact h.uncached d (List.mem_cons_of_mem _ hd)
  noted k hk := by
    rw [Store.cacheFragment, Dict.has, Dict.find?_putNew, Option.isSome_or, Bool.or_eq_true]
    rcases h.noted k hk with hk | hk
    · exact .inl (.inl hk)
    · rcases List.mem_cons.1 hk with rfl | hk
      · exact .inl (.inr (by rw [if_pos rfl]; rfl))
      · exact .inr hk
  cached k g hg := by
    rw [Store.cacheFragment, Dict.find?_putNew] at hg
    rcases Option.or_eq_some_iff.1 hg with hg | ⟨-, hg⟩
    · exact { h.cached k g hg with }
    · split at hg
      · next hk =>
        cases hg
        subst hk
        exact { h.drafted _ List.mem_cons_self with }
      · cases hg
  drafted d hd := { h.drafted d (List.mem_cons_of_mem _ hd) with }

/-- A change that does not concern what is noted of files. -/
theorem Filing.unnoted (h : Filing b ds s) (t : Store) : Filing b ds { t with
    settings := s.settings
    fragments := s.fragments
    named := s.named
    annotationTypes := s.annotationTypes
    uses := s.uses
    loading := s.loading } where
  settings_eq := h.settings_eq
  loading := h.loading
  same := { h.same with }
  uncached := h.uncached
  noted := h.noted
  cached k f hf := { h.cached k f hf with }
  drafted d hd := { h.drafted d hd with }

/-- Declaring shapes notes nothing. -/
theorem keptByDeclaring_filing (b : Store) (ds : Drafts) : KeptByDeclaring (Filing b ds) where
  report _ _ h := h.unnoted (report _ _)
  addShape _ _ h := h.unnoted (addShape _ _)
  makeOptional _ h := h.unnoted (mapShape _ _ _)

/-- Binding annotations notes nothing. -/
theorem keptByBinding_filing (b : Store) (ds : Drafts) : KeptByBinding (Filing b ds) where
  reportUnbound _ _ h := h.unnoted (report _ _)
  writeAnnotations {s} i d xs h :=
    h.unnoted (s.mapShape i fun a => { a with annotations := d, examples := xs })
  markBound {s} h := h.unnoted { s with annotationsBound := s.shapes.size }

/-- What is noted of the cached files, and of those that are being read. -/
def filings (b : Store) (hroot : b.settings.root.isAbsolute) : Recording where
  settings := b.settings
  root := hroot
  goes := Filing b
  stopped := b.SameIndexes
  settings_eq h := h.settings_eq
  loading_eq h := h.loading
  stopped_of_goes h := h.same
  stopped_addReports _ h := { h with }
  stopped_endLoading _ h := { h with }
  declaring := keptByDeclaring_filing b
  countRead _ _ h := h.unnoted (Store.countRead _ _ _)
  cacheExample _ _ h := h.unnoted (Store.cacheExample _ _ _)
  beginLoading h ho _ hc := h.beginLoading ho hc
  declareUse name p h ho _ := h.declareUse ho name p
  declareType name i h ho := h.declareType ho name i
  declareAnnotationType name i h ho := h.declareAnnotationType ho name i
  cacheFragment h ho _ _ := (h.unnoted (addReports _ _)).cacheFragment ho

/-- Runs keep the filing, and an error goes back to what was noted. -/
theorem keptByRuns_filing (b : Store) (hroot : b.settings.root.isAbsolute) :
    KeptByRuns (Filing b []) b.SameIndexes :=
  Nesting.keptByRuns (N := (filings b hroot).nesting) (i := []) rfl
    (fun _ _ h => h.unnoted (beginResolution _ _)) (fun e _ h => h.unnoted (written e))
    (fun _ h => { h with }) (keptByBinding_filing b []) fun h => h.unnoted (popUnresolved _)

end Store

namespace Session

open Store

variable {s : Store}

/-- The step lemma: a request that fails is undone, and one that is served keeps the filing. -/
theorem filing_step (hs : s.Coherent) (hroot : s.settings.root.isAbsolute) (h : s.Filed)
    {r : Request} (hr : r.IsUndone) : Filing s [] (step s r).2 := by
  have hfiling : Filing s [] s := h.filing (.refl s) rfl hs.loading
  refine undone_step (keptByRuns_filing s hroot).requests hs hfiling (fun t hgrows ht => ?_)
    (fun files => hfiling.unnoted { s with files := files }) hr
  exact (h.rollback ht).filing ht.rollback hgrows.settings
    (List.subset_nil.1 (hs.loading ▸ hgrows.loading))

/-- After loads and parses, however they end, what is noted of the cached files is what their fragments
list. -/
theorem filed_run (rs : List Request) (hrs : ∀ r ∈ rs, r.IsUndone) : ∀ {s : Store}, s.Coherent →
    s.settings.root.isAbsolute → s.Filed → (run s rs).Filed := by
  induction rs with
  | nil => exact fun _ _ h => h
  | cons r rest ih =>
    intro s hs hroot h
    rw [List.forall_mem_cons] at hrs
    have hstep := filing_step hs hroot h hrs.1
    exact ih hrs.2 (keeps_step hs r).coherent (hstep.settings_eq ▸ hroot) hstep.filed

end Session

end RamlTypes
