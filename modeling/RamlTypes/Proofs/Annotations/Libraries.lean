import RamlTypes.Proofs.Aliases.Sessions
import RamlTypes.Proofs.Filing

/-!
# The annotations of libraries

The name of an annotation tells the library of its type: the file of the annotation itself, or the one
that an alias stands for (`AnnotationUse.Targets`). The annotations of a library are bound when the
library is read, so the annotation types of the target are known unless it is being read itself at that
moment (`Store.Binding`). Then it is cached later, by the same request
(`Session.library_annotations_bound`).
-/

namespace RamlTypes

/-- The type of the annotation, which stands in the file `location` with these aliases, is to be found
under a name in a library. -/
inductive AnnotationUse.Targets (a : AnnotationUse) (location : Path) (uses : Dict String Path) :
    Path → String → Prop
  | own (plain : Text.cutAt? '.' a.name = none) : Targets a location uses location a.name
  | used {library : String} {name : String} {path : Path}
      (qualified : Text.cutAt? '.' a.name = some (library, name))
      (used : Dict.find? library uses = some path) : Targets a location uses path name

namespace Store

open Cache (Inside)

variable {b s t : Store} {k : PathKey} {c : Contents} {ds : Drafts} {path : Path} {a : AnnotationUse}

/-- The target of an annotation is found among the aliases of its file, and the annotation is bound to
what is noted of it. -/
theorem Catalogs.exists_target (h : s.Catalogs path.key c) (ha : a.IsBoundIn s path) :
    ∃ library name, a.Targets path c.uses library name ∧
      (Dict.find? library.key s.annotationTypes).bind (Dict.find? name) = a.definedBy := by
  rw [AnnotationUse.IsBoundIn, AnnotationUse.type?] at ha
  rcases ht : a.target path s with f | ⟨library, name⟩
  · rw [ht] at ha
    cases ha
  · rw [ht] at ha
    refine ⟨library, name, ?_, Except.ok.inj ha⟩
    rw [AnnotationUse.target] at ht
    split at ht
    · next l n hcut =>
      rw [usesOf?, h.uses] at ht
      split at ht
      · next p huse =>
        cases ht
        exact .used hcut huse
      · cases ht
    · next hcut =>
      cases ht
      exact .own hcut

/-- The annotation of a cached fragment has the type that its target declares, unless the target is one
of the files `excused`. -/
def IsFastened (cached : Cache) (f : Fragment) (excused : PathKey → Prop) (a : AnnotationUse) : Prop :=
  ∃ library name, a.Targets f.location f.uses library name ∧
    ((∃ l, Dict.find? library.key cached = some (.library l) ∧
      a.definedBy = Dict.find? name l.annotationTypes) ∨ excused library.key)

/-- What is fastened stays so when more is cached and more is excused. -/
theorem IsFastened.extended {cached cached' : Cache} {f : Fragment}
    {excused excused' : PathKey → Prop} (h : IsFastened cached f excused a)
    (hcached : cached <+: cached') (hexcused : ∀ k, excused k → excused' k) :
    IsFastened cached' f excused' a := by
  obtain ⟨library, name, htarget, hbound⟩ := h
  refine ⟨library, name, htarget, hbound.imp ?_ (hexcused _)⟩
  rintro ⟨l, hl, hdefined⟩
  exact ⟨l, (Dict.find?_extended hcached (Dict.has_iff.2 ⟨_, hl⟩)).trans hl, hdefined⟩

/-- The store while files are being read. The annotations of the fragments that are cached since `b`
are fastened, but for those whose target was being read and is another file. -/
structure Binding (b : Store) (ds : Drafts) (s : Store) : Prop where
  filing : Filing b ds s
  linking : Linking b ds.uses s
  fastened : ∀ k f, Dict.find? k s.fragments = some f → ¬ Dict.has k b.fragments →
    ∀ x ∈ f.annotations, IsFastened s.fragments f
      (fun l => l ≠ k ∧ Inside b.fragments (ds.map (·.1)) s.fragments k l) x.2

/-- The annotations of a fragment are fastened when it is cached. -/
theorem Binding.isFastened {f : Fragment} (h : Binding b ((f.location.key, f.contents) :: ds) s)
    {x : String × AnnotationUse} (hx : x ∈ f.annotations) (hbound : x.2.IsBoundIn s f.location) :
    IsFastened (s.fragments ++ [(f.location.key, f)]) f (fun l => l ≠ f.location.key ∧
      Inside b.fragments (ds.map (·.1)) (s.fragments ++ [(f.location.key, f)]) f.location.key l) x.2 := by
  have hcatalogs := h.filing.drafted _ List.mem_cons_self
  have hnew : ¬ Dict.has f.location.key s.fragments := h.filing.uncached _ List.mem_cons_self
  obtain ⟨library, name, htarget, hdefined⟩ := hcatalogs.exists_target hbound
  rw [f.uses_contents] at htarget
  refine ⟨library, name, htarget, ?_⟩
  by_cases hkey : library.key = f.location.key
  · -- the fragment itself is the target
    cases f with
    | dataType d => cases hx
    | library l =>
      refine .inl ⟨l, ?_, ?_⟩
      · rw [hkey, Dict.find?_append, Dict.find?_eq_none_iff.2 hnew, Option.none_or, Dict.find?,
          if_pos rfl]
      · rw [← hdefined, hkey]
        exact hcatalogs.annotationTypes name
  · have huse : ∃ n, Dict.find? n f.uses = some library := by
      cases htarget with
      | own _ => exact absurd rfl hkey
      | used _ hused => exact ⟨_, hused⟩
    obtain ⟨n, huse⟩ := huse
    rw [← f.uses_contents] at huse
    rcases h.linking.drafted _ ds.uses List.suffix_rfl n library huse with
      ⟨l, hl⟩ | hmem
    · refine .inl ⟨l, ?_, ?_⟩
      · rw [Dict.find?_append, hl, Option.some_or]
      · exact hdefined.symm.trans ((h.filing.cached _ _ hl).annotationTypes name)
    · have hopened : library.key ∈ f.location.key :: ds.map (·.1) := Drafts.keys_uses ds ▸ hmem
      have hlater : library.key ∈ ds.map (·.1) := (List.mem_cons.1 hopened).resolve_left hkey
      obtain ⟨d, hd, hdkey⟩ := List.mem_map.1 hlater
      have huncached : ¬ Dict.has library.key s.fragments :=
        hdkey ▸ h.filing.uncached d (List.mem_cons_of_mem _ hd)
      exact .inr ⟨hkey, Cache.inside_snoc h.linking.older hnew huncached hopened⟩

/-- The fragment of a file is cached when it is read and its annotations are bound. -/
theorem Binding.cacheFragment (hroot : b.settings.root.isAbsolute) {f : Fragment}
    (h : Binding b ((f.location.key, f.contents) :: ds) s)
    (ho : f.location.key ∉ ds.map (·.1)) (hnormal : f.location.IsNormal b.settings.root)
    (hbound : ∀ x ∈ f.annotations, x.2.IsBoundIn s f.location) :
    Binding b ds (((s.addReports f.reports).endLoading f.location).cacheFragment f) where
  filing := (filings b hroot).cacheFragment h.filing ho hnormal hbound
  linking := (linkings b hroot).cacheFragment h.linking ho hnormal hbound
  fastened k g hg hk x hx := by
    have hnew : ¬ Dict.has f.location.key s.fragments := h.filing.uncached _ List.mem_cons_self
    have hfragments : (((s.addReports f.reports).endLoading f.location).cacheFragment f).fragments =
        s.fragments ++ [(f.location.key, f)] := Dict.putNew_of_not_has hnew
    rw [hfragments] at hg ⊢
    rw [Dict.find?_append, Option.or_eq_some_iff] at hg
    rcases hg with hg | ⟨-, hg⟩
    · refine (h.fastened k g hg hk x hx).extended (List.prefix_append _ _) fun l hl => ?_
      exact hl.imp_right (·.snoc (Dict.has_iff.2 ⟨g, hg⟩))
    · rw [Dict.find?] at hg
      split at hg
      · next hkey =>
        cases hg
        subst hkey
        exact h.isFastened hx (hbound x hx)
      · cases hg

/-- A change that does not concern what is noted of files. -/
theorem Binding.unnoted (h : Binding b ds s) (t : Store) : Binding b ds { t with
    settings := s.settings
    fragments := s.fragments
    named := s.named
    annotationTypes := s.annotationTypes
    uses := s.uses
    loading := s.loading } where
  filing := h.filing.unnoted t
  linking := { h.linking with }
  fastened := h.fastened

/-- Declaring shapes binds nothing. -/
theorem keptByDeclaring_binding (b : Store) (ds : Drafts) : KeptByDeclaring (Binding b ds) where
  report _ _ h := h.unnoted (report _ _)
  addShape _ _ h := h.unnoted (addShape _ _)
  makeOptional _ h := h.unnoted (mapShape _ _ _)

/-- Binding the annotations of shapes leaves those of libraries. -/
theorem keptByBinding_binding (b : Store) (ds : Drafts) : KeptByBinding (Binding b ds) where
  reportUnbound _ _ h := h.unnoted (report _ _)
  writeAnnotations {s} i d xs h :=
    h.unnoted (s.mapShape i fun a => { a with annotations := d, examples := xs })
  markBound {s} h := h.unnoted { s with annotationsBound := s.shapes.size }

/-- The annotations of the fragments that are cached since `b`. -/
def bindings (b : Store) (hroot : b.settings.root.isAbsolute) : Recording where
  settings := b.settings
  root := hroot
  goes := Binding b
  stopped s := b.SameIndexes s ∧ b.KeepsFragments s
  settings_eq h := h.filing.settings_eq
  loading_eq h := h.filing.loading
  stopped_of_goes h := ⟨h.filing.same, h.linking.older⟩
  stopped_addReports ds h := h.imp ((filings b hroot).stopped_addReports ds) id
  stopped_endLoading p h := h.imp ((filings b hroot).stopped_endLoading p) id
  declaring := keptByDeclaring_binding b
  countRead _ _ h := h.unnoted (Store.countRead _ _ _)
  cacheExample _ _ h := h.unnoted (Store.cacheExample _ _ _)
  beginLoading h ho hnormal hc :=
    { filing := (filings b hroot).beginLoading h.filing ho hnormal hc
      linking := (linkings b hroot).beginLoading h.linking ho hnormal hc
      fastened := fun k f hf hk x hx => by
        refine (h.fastened k f hf hk x hx).extended List.prefix_rfl fun l hl => hl.imp_right fun hi => ?_
        exact ⟨hi.order, hi.recent, hi.present.imp_right (List.mem_cons_of_mem _)⟩ }
  declareUse name p h ho hp := ⟨(filings b hroot).declareUse name h.filing ho hp,
    (linkings b hroot).declareUse name h.linking ho hp, h.fastened⟩
  declareType name i h ho := ⟨(filings b hroot).declareType name i h.filing ho,
    (linkings b hroot).declareType name i h.linking ho, h.fastened⟩
  declareAnnotationType name i h ho := ⟨(filings b hroot).declareAnnotationType name i h.filing ho,
    (linkings b hroot).declareAnnotationType name i h.linking ho, h.fastened⟩
  cacheFragment h ho hnormal hbound := h.cacheFragment hroot ho hnormal hbound

/-- Nothing is being read, and no fragment has been cached since `b`. -/
theorem Filed.binding (h : s.Filed) (hlinking : Linking b [] s) (hsame : b.SameIndexes s)
    (hold : ∀ k, Dict.has k s.fragments → Dict.has k b.fragments) : Binding b [] s where
  filing := h.filing hsame hlinking.settings_eq hlinking.loading
  linking := hlinking
  fastened k f hf hk := absurd (hold k (Dict.has_iff.2 ⟨f, hf⟩)) hk

end Store

namespace Session

open Store

variable {s : Store}

/-- The step lemma: a request fastens the annotations of the libraries that it caches. -/
theorem binding_step (hs : s.Coherent) (hroot : s.settings.root.isAbsolute) (h : s.Filed)
    {r : Request} (hr : r.IsUndone) : Binding s [] (step s r).2 := by
  have hbinding : Binding s [] s := h.binding hs.linking (.refl s) fun _ hk => hk
  have hruns : KeptByRuns (Binding s []) fun t => s.SameIndexes t ∧ s.KeepsFragments t :=
    Nesting.keptByRuns (N := (bindings s hroot).nesting) (i := []) rfl
      (fun _ _ h => h.unnoted (beginResolution _ _)) (fun e _ h => h.unnoted (written e))
      (fun _ h => ⟨{ h.1 with }, h.2⟩) (keptByBinding_binding s []) fun h => h.unnoted (popUnresolved _)
  refine undone_step hruns.requests hs hbinding (fun t hgrows ht => ?_)
    (fun files => hbinding.unnoted { s with files := files }) hr
  exact (h.rollback ht.1).binding (ht.2.linking_rollback hs hgrows) ht.1.rollback
    fun _ => has_of_keepKnown

/-- The run lemma, by induction on the requests. -/
theorem fastened_run {start : Store} (hs : start.Coherent) (hempty : start.fragments = [])
    (hfiled : start.Filed) (hroot : start.settings.root.isAbsolute) (rs : List Request) :
    (∀ r ∈ rs, r.IsUndone) → ∀ k f, Dict.find? k (run start rs).fragments = some f →
    ∀ x ∈ f.annotations, IsFastened (run start rs).fragments f
      (fun l => l ≠ k ∧ CachedWithin start rs k l) x.2 := by
  induction rs using List.reverseRecOn with
  | nil =>
    intro _ k f hf
    have hf : Dict.find? k start.fragments = some f := hf
    rw [hempty] at hf
    cases hf
  | append_singleton rs r ih =>
    intro hrs k f hf x hx
    rw [List.forall_mem_append, List.forall_mem_singleton] at hrs
    obtain ⟨hcoherent, hsettings⟩ := coherent_run rs hs
    have hstep : Binding (run start rs) [] (run start (rs ++ [r])) := by
      rw [run_append]
      exact binding_step hcoherent (hsettings ▸ hroot) (filed_run rs hrs.1 hs hroot hfiled) hrs.2
    have hkeeps := hstep.linking.older
    by_cases hk : Dict.has k (run start rs).fragments
    · -- the fragment was cached before the last request
      rw [Dict.find?_extended hkeeps hk] at hf
      exact (ih hrs.1 k f hf x hx).extended hkeeps fun l hl => hl.imp_right (·.concat hkeeps hk)
    · refine (hstep.fastened k f hf hk x hx).extended List.prefix_rfl fun l hl => ?_
      exact hl.imp_right (cachedWithin_of_inside hs hk (Dict.has_iff.2 ⟨f, hf⟩))

/-- Whatever files are loaded, parsed and written, an annotation of a cached library has the type that
its name has in the library itself or in the one that its alias stands for, and no type if there is none
of that name. The exception are aliases of files that were being read when the library was: these are
cached later by the same request. -/
theorem library_annotations_bound (settings : LoadSettings) (files : Files)
    (hroot : settings.root.isAbsolute) (rs : List Request) (hrs : ∀ r ∈ rs, r.IsUndone)
    {k : PathKey} {l : Library}
    (hl : Dict.find? k (run (.empty settings files) rs).fragments = some (.library l))
    {x : String × AnnotationUse} (hx : x ∈ l.annotations) :
    ∃ library name, x.2.Targets l.location l.uses library name ∧
      ((∃ g, Dict.find? library.key (run (.empty settings files) rs).fragments = some (.library g) ∧
        x.2.definedBy = Dict.find? name g.annotationTypes) ∨
      library.key ≠ k ∧ CachedWithin (.empty settings files) rs k library.key) :=
  fastened_run (coherent_empty settings files) rfl (filed_empty settings files) hroot rs hrs k
    (.library l) hl x hx

/-- The library `b` is read while `a` is, before the annotation types of `a` are. So its annotation has
no type although `a` declares one of that name. -/
theorem library_annotations_bound_of_circle :
    let a : Path := ⟨"/a.raml"⟩
    let b : Path := ⟨"/b.raml"⟩
    let files : Files := .memory [
      (a, "#%RAML 1.0 Library\nuses:\n  b: b.raml\nannotationTypes:\n  flag: boolean\n"),
      (b, "#%RAML 1.0 Library\nuses:\n  a: a.raml\n(a.flag): true\n")]
    let settings : LoadSettings := ⟨⟨"/"⟩, false, true⟩
    let start : Store := .empty settings files
    let rs : List Request := [.load a]
    settings.root.isAbsolute ∧ (∀ r ∈ rs, r.IsUndone) ∧
      ∃ l g x, Dict.find? b.key (run start rs).fragments = some (.library l) ∧
        Dict.find? a.key (run start rs).fragments = some (.library g) ∧ x ∈ l.annotations ∧
        x.2.Targets l.location l.uses a "flag" ∧ x.2.definedBy = none ∧
        (Dict.find? "flag" g.annotationTypes).isSome ∧ CachedWithin start rs b.key a.key := by
  intro a b files settings start rs
  have hroot : settings.root.isAbsolute := by decide
  have hundone : ∀ r ∈ rs, r.IsUndone := List.forall_mem_singleton.2 trivial
  have hrun : ((Dict.find? b.key (run start rs).fragments).any fun f =>
        f.kind == .library && Dict.find? "a" f.uses == some a &&
        f.annotations.any fun x => x.2.name == "a.flag" && x.2.definedBy == none) ∧
      (Dict.find? a.key (run start rs).fragments).any fun f =>
        f.kind == .library && (Dict.find? "flag" f.contents.annotationTypes).isSome := by decide +kernel
  obtain ⟨f, hf, hread⟩ := (Option.any_eq_true _ _).1 hrun.1
  obtain ⟨f', hf', hdeclared⟩ := (Option.any_eq_true _ _).1 hrun.2
  cases f with
  | dataType d => cases hread
  | library l =>
    cases f' with
    | dataType d => cases hdeclared
    | library g =>
      simp only [Bool.and_eq_true, beq_iff_eq, List.any_eq_true] at hread hdeclared
      obtain ⟨⟨-, huse⟩, x, hx, hname, hnone⟩ := hread
      obtain ⟨library, name, htarget, hbound⟩ :
          ∃ library name, x.2.Targets l.location l.uses library name ∧
            ((∃ g, Dict.find? library.key (run start rs).fragments = some (.library g) ∧
              x.2.definedBy = Dict.find? name g.annotationTypes) ∨
            library.key ≠ b.key ∧ CachedWithin start rs b.key library.key) :=
        library_annotations_bound settings files hroot rs hundone hf hx
      have hsame : library = a ∧ name = "flag" := by
        have hcut : Text.cutAt? '.' x.2.name = some ("a", "flag") := by
          rw [hname]
          decide
        cases htarget with
        | own plain => cases plain.symm.trans hcut
        | used qualified used =>
          cases qualified.symm.trans hcut
          exact ⟨Option.some.inj (used.symm.trans huse), rfl⟩
      obtain ⟨rfl, rfl⟩ := hsame
      refine ⟨hroot, hundone, l, g, x, hf, hf', hx, htarget, hnone, hdeclared.2, ?_⟩
      rcases hbound with ⟨g', hg', hdefined⟩ | hwithin
      · cases hg'.symm.trans hf'
        have hsome : (Dict.find? "flag" g.annotationTypes).isSome := hdeclared.2
        rw [← hdefined, hnone] at hsome
        cases hsome
      · exact hwithin.2

end Session

end RamlTypes
