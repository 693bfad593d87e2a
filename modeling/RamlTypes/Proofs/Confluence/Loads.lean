import RamlTypes.Proofs.Confluence.Laws

/-!
# Loads leave alone what was stored before

The loader of a file reads it with the loaders of the files inside, so by induction on their depth
no load changes what was stored before it (`Fragment.framed_loaders`). Two runs that read the same
file then agree (`Duo.together_of_reads`).
-/

namespace RamlTypes

open Store

namespace Loaders

variable (ls : Loaders)

/-- The file is loaded, as a library or as a data type. -/
def Run (p : Path) (s t : Store) : Prop :=
  ls.library p s = (.ok (), t) ∨ ls.dataType p s = (.ok (), t)

/-- Loads leave alone what was stored before. -/
def Framed (settings : LoadSettings) : Prop :=
  ∀ p s t, p.IsNormal settings.root → s.Tracked settings → p.key ∉ s.loading → ls.Run p s t →
    Frame settings (fun _ => False) s t ∧ Dict.has p.key t.fragments

/-- In stores with the files `base`, the loads of allowed files load allowed files only. -/
def Imports (settings : LoadSettings) (sources : Sources settings) (base allowed : PathKey → Prop) :
    Prop :=
  ∀ p s t, p.IsNormal settings.root → s.Tracked settings → s.sources settings = sources →
    (∀ k, base k → Dict.has k s.fragments) → p.key ∉ s.loading → allowed p.key → ls.Run p s t →
    ∀ k, Dict.has k t.fragments → Dict.has k s.fragments ∨ allowed k

variable {ls}

theorem Imports.mono {settings : LoadSettings} {sources : Sources settings}
    {base base' allowed : PathKey → Prop} (h : ls.Imports settings sources base allowed)
    (hbase : ∀ k, base k → base' k) : ls.Imports settings sources base' allowed :=
  fun p s t hp hs hsources hcached => h p s t hp hs hsources fun k hk => hcached k (hbase k hk)

/-- If all files are allowed, only such are loaded. -/
theorem imports_true (settings : LoadSettings) (sources : Sources settings)
    (base : PathKey → Prop) : ls.Imports settings sources base fun _ => True :=
  fun _ _ _ _ _ _ _ _ _ _ _ _ => .inr trivial

/-- A load is left out if the loading of the file has begun. -/
theorem cases_of_unlessLoading {p : Path} {x : Load Unit} {s t : Store}
    (h : Load.unlessLoading p x s = (.ok (), t)) :
    p.key ∈ s.loading ∧ t = s ∨ p.key ∉ s.loading ∧ x s = (.ok (), t) := by
  rw [Load.unlessLoading, Load.ask_bind] at h
  cases hi : s.isLoading p with
  | true =>
    rw [hi] at h
    cases h
    exact .inl ⟨List.contains_iff_mem.1 hi, rfl⟩
  | false =>
    rw [hi] at h
    exact .inr ⟨fun hmem => Bool.false_ne_true (hi.symm.trans (List.contains_iff_mem.2 hmem)), h⟩

theorem Framed.unlessLoading {settings : LoadSettings} (h : ls.Framed settings) {p : Path}
    {x : Load Unit} {s t : Store} (hx : ∀ s t, x s = (.ok (), t) → ls.Run p s t)
    (hp : p.IsNormal settings.root) (hs : s.Tracked settings)
    (hrun : Load.unlessLoading p x s = (.ok (), t)) :
    Frame settings (fun _ => False) s t ∧ t.Begun p.key := by
  rcases cases_of_unlessLoading hrun with ⟨hloading, rfl⟩ | ⟨hnot, hrun⟩
  · exact ⟨.refl hs, .inr hloading⟩
  · obtain ⟨hframe, hcached⟩ := h p s t hp hs hnot (hx s t hrun)
    exact ⟨hframe, .inl hcached⟩

end Loaders

namespace Duo

variable {d : Duo} {w : Progress} {ls ls' : Loaders} {base : PathKey → Prop}

/-- Loading further files agrees. -/
theorem loadersAgree (hl : ls.Framed d.settings) (hl' : ls'.Framed d.settings)
    (hbase : ∀ k, base k → Dict.has k d.left.fragments)
    (himports : ls.Imports d.settings (d.left.sources d.settings) base d.allowed) :
    d.comparison.LoadersAgree ls ls' := by
  have agree (w : Progress) (p : Path) (hp : p.IsNormal d.settings.root) (x y : Load Unit)
      (hx : ∀ s t, x s = (.ok (), t) → ls.Run p s t)
      (hy : ∀ s t, y s = (.ok (), t) → ls'.Run p s t) :
      d.comparison.Agree w (Load.unlessLoading p x) (Load.unlessLoading p y)
        fun w' _ _ => d.comparison.linked w' p := by
    refine agree_of_ok fun s t _ s' _ t' h hrun hrun' hfinal => ?_
    obtain ⟨hleft, hbegun⟩ := hl.unlessLoading hx hp h.left.tracked hrun
    obtain ⟨hright, hbegun'⟩ := hl'.unlessLoading hy hp h.right.tracked hrun'
    have hallowed : d.allowed p.key := by
      rcases hbegun' with hc | hc
      · exact hfinal _ hc
      · exact d.opened _ (h.right.loading ▸ hright.loading ▸ hc)
    have himported (k : PathKey) (hk : Dict.has k s'.fragments) :
        Dict.has k s.fragments ∨ d.allowed k := by
      rcases Loaders.cases_of_unlessLoading hrun with ⟨-, rfl⟩ | ⟨hnot, hrun⟩
      · exact .inl hk
      · exact himports p s s' hp h.left.tracked h.left.sources (fun k hk => h.left.has (hbase k hk))
          hnot hallowed (hx s s' hrun) k hk
    refine ⟨{ w with linked := p :: w.linked }, ⟨List.Subset.refl _, List.subset_cons_self _ _⟩, ?_,
      List.mem_cons_self⟩
    exact (h.loaded hleft hright himported).link hp hbegun hbegun'
  exact ⟨fun w p hp => agree w p hp _ _ (fun _ _ => .inl) fun _ _ => .inl,
    fun w p hp => agree w p hp _ _ (fun _ _ => .inr) fun _ _ => .inr⟩

/-! ## The beginning -/

theorem within_size (s : Store) (k : PathKey) : s.within s.shapes.size k = [] := by
  refine List.eq_nil_iff_forall_not_mem.2 fun i hi => ?_
  obtain ⟨hle, hfile⟩ := mem_within.1 hi
  exact Nat.not_lt_of_le hle (lt_of_fileOf? hfile)

/-- The runs begin. -/
theorem together_start (hleft : d.left.Tracked d.settings) (hright : d.right.Tracked d.settings)
    (named : Option.Rel (Dict.Rel d.outer) (Dict.find? d.path.key d.left.named)
      (Dict.find? d.path.key d.right.named))
    (annotationTypes : Option.Rel (Dict.Rel d.outer)
      (Dict.find? d.path.key d.left.annotationTypes)
      (Dict.find? d.path.key d.right.annotationTypes))
    (uses : Dict.find? d.path.key d.right.uses = Dict.find? d.path.key d.left.uses) :
    d.Together ⟨[], []⟩ d.left d.right where
  left := .refl hleft
  right := .refl hright
  ownLeft := within_size _ _
  ownRight := within_size _ _
  shapes _ _ h := nomatch h
  named := named.imp fun _ _ h => h.mono fun _ _ => .inr
  annotationTypes := annotationTypes.imp fun _ _ h => h.mono fun _ _ => .inr
  uses := uses
  linked _ h := nomatch h
  imported _ h := .inl h

/-- What two runs that agree have reached when they have ended well. -/
theorem exists_together {α β : Type} {x : Load α} {y : Load β} {Q : Progress → α → β → Prop}
    (h : d.comparison.Agree w x y Q) {s t s' t' : Store} {a : α} {b : β} (hst : d.Together w s t)
    (hx : x s = (.ok a, s')) (hy : y t = (.ok b, t'))
    (hfinal : ∀ k, Dict.has k t'.fragments → d.allowed k) :
    ∃ w', w ≤ w' ∧ d.Together w' s' t' ∧ Q w' a b := by
  have hends := h s t hst (by rw [hy]; exact hfinal)
  rw [hx, hy] at hends
  cases hends with
  | ok le stores result => exact ⟨_, le, stores, result⟩

end Duo

/-! ## The kind of a file -/

/-- The first line of a text is at its beginning. -/
theorem Text.isPrefix_firstLine (text : String) : (Text.firstLine text).toList <+: text.toList := by
  rw [Text.firstLine, String.toList_ofList, Text.dropBlankEnd]
  refine List.IsPrefix.trans ?_ (List.takeWhile_prefix fun c => decide (c ≠ '\n'))
  rw [← List.reverse_suffix, List.reverse_reverse]
  exact List.dropWhile_suffix _

/-- A text that announces a fragment in its first line is no JSON document. -/
theorem Json.not_isDocument {path : Path} {text : String} {k : FragmentKind}
    (h : k.checkHeader path text = .ok ()) : Json.isDocument text = false := by
  have hfirst : Text.firstLine text = k.header := by
    rw [FragmentKind.checkHeader] at h
    by_contra hne
    rw [if_neg hne] at h
    cases h
  have hprefix := hfirst ▸ Text.isPrefix_firstLine text
  obtain ⟨rest, hrest⟩ : ∃ rest, text.toList = '#' :: rest := by
    obtain ⟨more, hmore⟩ := hprefix
    cases k <;> exact ⟨_, hmore.symm⟩
  rw [Json.isDocument, hrest]
  rfl

namespace Fragment

variable {settings : LoadSettings} {n m : Nat} {p : Path} {f g : Fragment} {s t u : Store}

theorem Reads.location (h : Reads n p s f t) : f.location = p := by
  cases h with
  | library _ _ hread => exact readLibrary_location _ _ _ _ _ _ hread
  | dataType _ _ hread => exact readDataTypeOrJson_location _ _ _ _ _ _ _ hread

/-- A file that is not cached has been read when its loading ends well. -/
theorem reads_of_reading {α : Type} {x : Load α} {c : α → Fragment}
    (h : Fragment.reading p x c s = (.ok f, u)) :
    ∃ a t, x (s.beginLoading p) = (.ok a, t) ∧ u = (t.endLoading p).cacheFragment (c a) := by
  obtain ⟨a, t, hx, h⟩ := Load.bind_eq_ok.1 h
  rw [Load.whileLoading_apply] at hx
  obtain ⟨hr, rfl⟩ := Prod.mk.inj hx
  refine ⟨a, _, Prod.ext hr rfl, ?_⟩
  cases h
  rfl

/-- A library was cached, or has been read. -/
theorem reads_of_libraryWith {l : Library} (hp : s.normalize p = p)
    (h : libraryWith (loaders n) p s = (.ok l, u)) :
    Dict.has p.key s.fragments ∧ u = s ∨ ¬ Dict.has p.key s.fragments ∧
      ∃ f t, Reads n p (s.opening p) f t ∧ u = t.closing p f := by
  rw [libraryWith, fromCache_apply, hp] at h
  split at h
  · next g hg =>
    obtain ⟨-, rfl⟩ := eq_of_expectLibrary h
    exact .inl ⟨Dict.has_iff.2 ⟨g, hg⟩, rfl⟩
  · next hnone =>
    refine .inr ⟨Dict.find?_eq_none_iff.1 hnone, ?_⟩
    obtain ⟨text, htext, h⟩ := Load.readFile_bind_eq_ok h
    obtain ⟨_, hheader, h⟩ := Load.ofExcept_bind_eq_ok.1 h
    obtain ⟨g, t, hg, h⟩ := Load.bind_eq_ok.1 h
    obtain ⟨-, rfl⟩ := eq_of_expectLibrary h
    obtain ⟨a, t, ha, rfl⟩ := reads_of_reading hg
    exact ⟨.library a, t, .library htext hheader ha, rfl⟩

/-- A data type was cached, or has been read. -/
theorem reads_of_dataTypeWith {d : DataType} (hp : s.normalize p = p)
    (h : dataTypeWith (loaders n) p s = (.ok d, u)) :
    Dict.has p.key s.fragments ∧ u = s ∨ ¬ Dict.has p.key s.fragments ∧
      ∃ f t, Reads n p (s.opening p) f t ∧ u = t.closing p f := by
  rw [dataTypeWith, fromCache_apply, hp] at h
  split at h
  · next g hg =>
    obtain ⟨-, rfl⟩ := eq_of_expectDataType h
    exact .inl ⟨Dict.has_iff.2 ⟨g, hg⟩, rfl⟩
  · next hnone =>
    refine .inr ⟨Dict.find?_eq_none_iff.1 hnone, ?_⟩
    obtain ⟨text, htext, h⟩ := Load.readFile_bind_eq_ok h
    rw [parseDataType, Load.ask_bind] at h
    obtain ⟨_, hheader, h⟩ := Load.ofExcept_bind_eq_ok.1 h
    obtain ⟨g, t, hg, h⟩ := Load.bind_eq_ok.1 h
    obtain ⟨-, rfl⟩ := eq_of_expectDataType h
    obtain ⟨a, t, ha, rfl⟩ := reads_of_reading hg
    refine ⟨.dataType a, t, .dataType htext (fun hj => ?_) ha, rfl⟩
    have hjson : (s.countRead .fragment p).isJsonShorthand p = false := hj
    rw [hjson] at hheader
    exact hheader

/-- The first line of a library is not that of a data type, and it is no JSON document. -/
theorem not_dataType_of_library {text : String} {ls : Loaders} {isJson : Bool} {d : DataType}
    (hl : FragmentKind.library.checkHeader p text = .ok ())
    (hd : isJson = false → FragmentKind.dataType.checkHeader p text = .ok ())
    (h : readDataTypeOrJson ls p text isJson s = (.ok d, t)) : False := by
  cases isJson with
  | true =>
    rw [readDataTypeOrJson, if_pos rfl, readJson, Json.not_isDocument hl] at h
    cases h
  | false =>
    have hfirst {k : FragmentKind} (hk : k.checkHeader p text = .ok ()) :
        Text.firstLine text = k.header := by
      rw [FragmentKind.checkHeader] at hk
      by_contra hne
      rw [if_neg hne] at hk
      cases hk
    have hne : FragmentKind.library.header ≠ FragmentKind.dataType.header := by decide
    exact hne ((hfirst hl).symm.trans (hfirst (hd rfl)))

end Fragment

open Fragment

/-- Two runs that have read the same file have stored shapes in pairs, and have the same fragment up
to their numbers. -/
theorem Duo.together_of_reads {d : Duo} {w : Duo.Progress} {n m : Nat} {f g : Fragment}
    {s t : Store}
    (hl : d.comparison.LoadersAgree (loaders n) (loaders m))
    (hleft : ¬ Dict.has d.path.key d.left.fragments)
    (hright : ¬ Dict.has d.path.key d.right.fragments) (hstart : d.Together w d.left d.right)
    (hf : Reads n d.path d.left f s) (hg : Reads m d.path d.right g t)
    (hfinal : ∀ k, Dict.has k t.fragments → d.allowed k) :
    ∃ w', w ≤ w' ∧ d.Together w' s t ∧ f.Rel (d.Ids w') (fun _ _ => True) g := by
  have hlaws := Duo.parses hleft hright
  have hshorthand : d.right.isJsonShorthand d.path = d.left.isJsonShorthand d.path := by
    rw [isJsonShorthand, isJsonShorthand, hstart.settings_eq]
  cases hf with
  | library hfile hheader hread =>
    rw [← files_eq_of_sources d.sources] at hfile
    cases hg with
    | library hfile' _ hread' =>
      cases hfile.symm.trans hfile'
      obtain ⟨w', hw, hst, hrel, -⟩ :=
        exists_together (hlaws.readLibrary hl w rfl _) hstart hread hread' hfinal
      exact ⟨w', hw, hst, .library hrel⟩
    | dataType hfile' hheader' hread' =>
      cases hfile.symm.trans hfile'
      exact (not_dataType_of_library hheader hheader' hread').elim
  | dataType hfile hheader hread =>
    rw [← files_eq_of_sources d.sources] at hfile
    cases hg with
    | library hfile' hheader' _ =>
      cases hfile.symm.trans hfile'
      exact (not_dataType_of_library hheader' hheader hread).elim
    | dataType hfile' _ hread' =>
      cases hfile.symm.trans hfile'
      rw [hshorthand] at hread'
      obtain ⟨w', hw, hst, hrel, -⟩ :=
        exists_together (hlaws.readDataTypeOrJson hl w rfl _ _) hstart hread hread' hfinal
      exact ⟨w', hw, hst, .dataType hrel⟩

namespace FileReading

variable {settings : LoadSettings} (hroot : settings.root.isAbsolute) (r r' : FileReading settings)
  {allowed : PathKey → Prop} (hpath : r'.path = r.path)
    (hsources : r'.start.sources settings = r.start.sources settings)
  (hopened : ∀ k ∈ r'.start.loading, allowed k)

/-- Two runs that read the same file. The shapes that they store hold numbers of each other only. -/
abbrev duo : Duo :=
  ⟨settings, hroot, r.path, r.normal, r.start, r'.start, fun _ _ => False, allowed, hsources,
    .inr r.loading,
    .inr (hpath ▸ r'.loading), hopened⟩

/-- When the runs have ended, the shapes that they have stored come in pairs. -/
theorem exists_together {base : PathKey → Prop} (hl : (loaders r.depth).Framed settings)
    (hl' : (loaders r'.depth).Framed settings) (hbase : ∀ k, base k → Dict.has k r.start.fragments)
    (himports : (loaders r.depth).Imports settings (r.start.sources settings) base allowed)
    (hfinal : ∀ k, Dict.has k r'.stop.fragments → allowed k) :
    ∃ w, (duo hroot r r' hpath hsources hopened).Together w r.stop r'.stop ∧
      r.fragment.Rel ((duo hroot r r' hpath hsources hopened).Ids w) (fun _ _ => True)
        r'.fragment := by
  obtain ⟨path', depth', start', fragment', stop', reads', normal', tracked', loading', uncached',
    unlocated', unnamed'⟩ := r'
  obtain rfl : path' = r.path := hpath
  have none_of {α : Type} {d : Dict PathKey α} (h : ¬ Dict.has r.path.key d) :
      Dict.find? r.path.key d = none := Dict.find?_eq_none_iff.2 h
  let d := duo hroot r ⟨r.path, depth', start', fragment', stop', reads', normal', tracked',
    loading',
    uncached', unlocated', unnamed'⟩ rfl hsources hopened
  have hstart : d.Together ⟨[], []⟩ d.left d.right := by
    refine Duo.together_start r.tracked tracked' ?_ ?_ ?_
    · show Option.Rel _ (Dict.find? r.path.key r.start.named) (Dict.find? r.path.key start'.named)
      rw [none_of r.unnamed.1, none_of unnamed'.1]
      exact .none
    · show Option.Rel _ (Dict.find? r.path.key r.start.annotationTypes)
        (Dict.find? r.path.key start'.annotationTypes)
      rw [none_of r.unnamed.2.1, none_of unnamed'.2.1]
      exact .none
    · show Dict.find? r.path.key start'.uses = Dict.find? r.path.key r.start.uses
      rw [none_of r.unnamed.2.2, none_of unnamed'.2.2]
  obtain ⟨w, -, hst, hrel⟩ := Duo.together_of_reads (d.loadersAgree hl hl' hbase himports)
    r.uncached
    uncached' hstart r.reads reads' hfinal
  exact ⟨w, hst, hrel⟩

include hroot in
/-- Reading a file leaves alone what was stored before, if the loads of other files do. -/
theorem frame (hl : (loaders r.depth).Framed settings) :
    Frame settings (· = r.path.key) r.start r.stop := by
  have himports : (loaders r.depth).Imports settings (r.start.sources settings) (fun _ => False)
    fun _ => True :=
    Loaders.imports_true _ _ _
  obtain ⟨w, hst, -⟩ := exists_together hroot r r rfl rfl (fun _ _ => trivial) hl hl nofun himports
    fun _ _ => trivial
  exact hst.left

end FileReading

namespace Fragment

variable {settings : LoadSettings}

/-- A file that is loaded was cached, or a run has read it. -/
theorem cases_of_run {n : Nat} {p : Path} {s t : Store} (hp : p.IsNormal settings.root)
    (hs : s.Tracked settings) (h : (loaders (n + 1)).Run p s t) :
    Dict.has p.key s.fragments ∧ t = s ∨ ¬ Dict.has p.key s.fragments ∧
      ∃ f u, Reads n p (s.opening p) f u ∧ t = u.closing p f := by
  have hnormal : s.normalize p = p := normalize_of_isNormal hs.settings_eq hp
  rcases h with h | h
  · obtain ⟨l, u, hl, h⟩ := Load.bind_eq_ok.1 h
    cases h
    exact reads_of_libraryWith hnormal hl
  · obtain ⟨d, u, hd, h⟩ := Load.bind_eq_ok.1 h
    cases h
    exact reads_of_dataTypeWith hnormal hd

variable (hroot : settings.root.isAbsolute)
include hroot

/-- No load changes what was stored before it. -/
theorem framed_loaders (n : Nat) : (loaders n).Framed settings := by
  induction n with
  | zero =>
    rintro p s t - - - (h | h)
    · cases h
    · cases h
  | succ n ih =>
    intro p s t hp hs hnot hrun
    rcases cases_of_run hp hs hrun with ⟨hc, rfl⟩ | ⟨hc, f, u, hreads, rfl⟩
    · exact ⟨.refl hs, hc⟩
    · have hbegun : ¬ s.Begun p.key := fun hb => hb.elim hc hnot
      have hframe := (readingOf hs hp hbegun hreads).frame hroot ih
      exact ⟨.closing hs hp hbegun hreads.location hreads hframe,
        (has_closing hreads.location).2 (.inr rfl)⟩

/-- The loads of files that were read elsewhere load only files that were loaded there. -/
theorem imports_loaders {sources : Sources settings} {base allowed : PathKey → Prop}
    (hread : ∀ k, allowed k → base k ∨ ∃ r : FileReading settings, r.path.key = k ∧
      r.start.sources settings = sources ∧ (∀ l ∈ r.start.loading, allowed l) ∧
      ∀ l, Dict.has l r.stop.fragments → allowed l) (n : Nat) :
    (loaders n).Imports settings sources base allowed := by
  induction n with
  | zero =>
    rintro p s t - - - - - - (h | h)
    · cases h
    · cases h
  | succ n ih =>
    intro p s t hp hs hsources hbase hnot hallowed hrun k hk
    rcases cases_of_run hp hs hrun with ⟨-, rfl⟩ | ⟨hc, f, u, hreads, rfl⟩
    · exact .inl hk
    · have hbegun : ¬ s.Begun p.key := fun hb => hb.elim hc hnot
      obtain ⟨r, hkey, hsources', hopened, hfinal⟩ :=
        (hread p.key hallowed).resolve_left fun hb => hc (hbase _ hb)
      have hpath : r.path = p := r.normal.eq_of_components hroot hp hkey
      obtain ⟨w, hst, -⟩ := FileReading.exists_together hroot (readingOf hs hp hbegun hreads) r
        hpath (hsources'.trans hsources.symm) hopened (framed_loaders hroot n)
        (framed_loaders hroot r.depth) hbase (hsources ▸ ih) hfinal
      rcases (has_closing hreads.location).1 hk with hk | rfl
      · exact hst.imported k hk
      · exact .inr hallowed

end Fragment

end RamlTypes
