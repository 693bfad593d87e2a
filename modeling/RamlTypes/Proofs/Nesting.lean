import RamlTypes.Proofs.NormalForm
import RamlTypes.Proofs.Preservation.Basic

/-!
# Fragments are read inside of each other

While a fragment is read its file counts as opened, so the files that it uses or includes are not read
again when they lead back to it. `Store.Nesting` collects what the steps between the reading of a file
and the caching of its fragment have to keep. The recursion over files then keeps it, whatever is
being read at the moment (`Store.Nesting.loaders`).
-/

namespace RamlTypes

/-- What all results of a load have in common holds where the load ends. -/
theorem Load.EndsIn.and_yields {α : Type} {x : Load α} {s : Store} {P : α → Store → Prop}
    {Q : α → Prop} {E : Store → Prop} (hx : x.EndsIn s P E) (hQ : x.Yields Q) :
    x.EndsIn s (fun a t => Q a ∧ P a t) E :=
  ⟨fun hr => ⟨hQ _ _ _ hr, hx.of_ok hr⟩, hx.of_error⟩

namespace Store

/-- A fragment is read between the beginning and the end of its loading, and then cached. -/
theorem endsIn_reading {α : Type} {s : Store} {path : Path} {x : Load α} {f : α → Fragment}
    {P : α → Store → Prop} {J E : Store → Prop} (hx : x.EndsIn (s.beginLoading path) P E)
    (hcache : ∀ a t, P a t → J ((t.endLoading path).cacheFragment (f a)))
    (hstop : ∀ t, E t → E (t.endLoading path)) :
    (Fragment.reading path x f).EndsIn s (fun _ => J) E := by
  rcases hr : x (s.beginLoading path) with ⟨e | a, t⟩
  all_goals have hrun : Load.whileLoading path x s = _ := Load.whileLoading_apply s path x
  all_goals rw [hr] at hrun
  · exact .of_run_error (Load.bind_of_error hrun _) (hstop t (hx.of_error hr))
  · have hcached : (Load.cacheFragment (f a)).EndsIn (t.endLoading path) (fun _ => J) E :=
      .of_run_ok (Load.cacheFragment_apply _ _) (hcache a t (hx.of_ok hr))
    exact hcached.of_run_eq (Load.bind_of_ok hrun _)

/-- Under an absolute root all aliases and includes stand for normal paths. -/
theorem KeptByDeclaring.declares_normal {J E : Store → Prop} {hJE : ∀ s, J s → E s}
    {settings : LoadSettings} (h : KeptByDeclaring J) (hroot : settings.root.isAbsolute)
    (hsettings : ∀ {s}, J s → s.settings = settings)
    (hexample : ∀ {s} (p : Path), J s → (loadExample p).EndsIn s (fun _ => J) E) (path : Path) :
    (withInvariants J E (·.IsNormal settings.root) hJE).Declares path := by
  refine h.declares (fun {s} p text hs => ?_) (fun p => ?_) path
  · rw [follow, hsettings hs]
    exact Path.follow_isNormal hroot p text
  · refine agree_of_endsIn fun s hs => ?_
    exact (hexample p hs).imp (fun _ _ ht => ⟨ht, rfl⟩) fun _ ht => ht

/-- What holds while fragments are read inside of each other, at each stage `i` of the nesting. -/
structure Nesting (ι : Type) where
  settings : LoadSettings
  /-- The files whose fragments are being read. -/
  opened : ι → List PathKey
  goes : ι → Store → Prop
  /-- A file was read, but the reading of its fragment has not begun. -/
  fetched : ι → Path → Store → Prop
  stopped : Store → Prop
  root : settings.root.isAbsolute
  settings_eq {i s} : goes i s → s.settings = settings
  loading_eq {i s} : goes i s → s.loading = opened i
  stopped_of_goes {i s} : goes i s → stopped s
  stopped_of_fetched {i p s} : fetched i p s → stopped s
  declaring (i) : KeptByDeclaring (goes i)
  loadExample {i s} (p : Path) : goes i s → (loadExample p).EndsIn s (fun _ => goes i) stopped
  fetch {i s} {path : Path} : goes i s → path.IsNormal settings.root →
    ¬ Dict.has path.key s.fragments → path.key ∉ opened i →
    (Load.readFile .fragment path).EndsIn s (fun _ => fetched i path) stopped
  library {i s ls} {path : Path} (text : String) :
    (∀ j, (withInvariants (goes j) stopped (·.IsNormal settings.root)
      fun _ => stopped_of_goes).LoadersAgree ls ls) →
    ls.CachesLibraries → path.key ∉ opened i → fetched i path s →
    (Fragment.reading path (Fragment.readLibrary ls path text) .library).EndsIn s
      (fun _ => goes i) stopped
  dataType {i s ls} {path : Path} (text : String) (isJson : Bool) :
    (∀ j, (withInvariants (goes j) stopped (·.IsNormal settings.root)
      fun _ => stopped_of_goes).LoadersAgree ls ls) →
    ls.CachesLibraries → path.key ∉ opened i → fetched i path s →
    (Fragment.reading path (Fragment.readDataTypeOrJson ls path text isJson) .dataType).EndsIn s
      (fun _ => goes i) stopped

namespace Nesting

variable {ι : Type} (N : Nesting ι)

/-- A run at a stage of the nesting. -/
abbrev stage (i : ι) : Comparison :=
  withInvariants (N.goes i) N.stopped (·.IsNormal N.settings.root) fun _ => N.stopped_of_goes

/-- The loaders can be used at every stage. -/
structure Admits (ls : Loaders) : Prop where
  agree (i : ι) : (N.stage i).LoadersAgree ls ls
  caches : ls.CachesLibraries

/-- Declarations keep a stage. -/
theorem declares (i : ι) (path : Path) : (N.stage i).Declares path :=
  (N.declaring i).declares_normal N.root N.settings_eq N.loadExample path

variable {N} {i : ι} {s : Store} {p path : Path} {ls : Loaders}

/-- Paths are normalized by one and the same root at all stages. -/
theorem normalize_isNormal (hs : N.goes i s) (p : Path) : (s.normalize p).IsNormal N.settings.root := by
  rw [normalize, N.settings_eq hs]
  exact Path.normalizeIn_isNormal N.root p

/-- To ask for the kind of a cached file keeps a stage. -/
theorem expectLibrary (f : Fragment) (hs : N.goes i s) :
    (Fragment.expectLibrary path f).EndsIn s (fun _ => N.goes i) N.stopped := by
  cases f with
  | library l => exact .pure hs
  | dataType d => exact .stop (N.stopped_of_goes hs)

/-- So for a data type. -/
theorem expectDataType (f : Fragment) (hs : N.goes i s) :
    (Fragment.expectDataType path f).EndsIn s (fun _ => N.goes i) N.stopped := by
  cases f with
  | library l => exact .stop (N.stopped_of_goes hs)
  | dataType d => exact .pure hs

/-- A file is taken from the cache, or it is read. -/
theorem fromCache {α : Type} {hit : Path → Fragment → Load α} {miss : Path → Load α}
    {P : α → Store → Prop} {E : Store → Prop}
    (hhit : ∀ f, (hit (s.normalize p) f).EndsIn s P E)
    (hmiss : ¬ Dict.has (s.normalize p).key s.fragments → (miss (s.normalize p)).EndsIn s P E) :
    (Fragment.fromCache p hit miss).EndsIn s P E := by
  have hrun := Fragment.fromCache_apply hit miss (p := p) s
  rcases hf : Dict.find? (s.normalize p).key s.fragments with _ | f
  all_goals rw [hf] at hrun
  · exact (hmiss (Dict.find?_eq_none_iff.1 hf)).of_run_eq hrun
  · exact (hhit f).of_run_eq hrun

/-- A file is read and parsed unless its fragment is cached. -/
theorem fromCacheOrFile {α : Type} {hit : Path → Fragment → Load α} {parse : Path → String → Load α}
    (hs : N.goes i s) (ho : (s.normalize p).key ∉ N.opened i)
    (hhit : ∀ f, (hit (s.normalize p) f).EndsIn s (fun _ => N.goes i) N.stopped)
    (hparse : ∀ text t, N.fetched i (s.normalize p) t →
      (parse (s.normalize p) text).EndsIn t (fun _ => N.goes i) N.stopped) :
    (Fragment.fromCache p hit fun path => Load.readFile .fragment path >>= parse path).EndsIn s
      (fun _ => N.goes i) N.stopped :=
  fromCache hhit fun hc => (N.fetch hs (normalize_isNormal hs p) hc ho).bind hparse

section
variable (hl : N.Admits ls)
include hl

/-- A library is parsed in a stage below, and closed when it has been read. -/
theorem parseLibrary (ho : path.key ∉ N.opened i) (text : String) (hs : N.fetched i path s) :
    (Fragment.parseLibrary ls path text).EndsIn s (fun _ => N.goes i) N.stopped := by
  rw [Fragment.parseLibrary]
  generalize FragmentKind.library.checkHeader path text = header
  refine .check (N.stopped_of_fetched hs) fun _ _ => ?_
  exact (N.library text hl.agree hl.caches ho hs).bind fun f _ ht => expectLibrary f ht

/-- So is a data type. -/
theorem parseDataType (ho : path.key ∉ N.opened i) (text : String) (hs : N.fetched i path s) :
    (Fragment.parseDataType ls path text).EndsIn s (fun _ => N.goes i) N.stopped := by
  rw [Fragment.parseDataType]
  generalize FragmentKind.dataType.checkHeader path text = header
  refine .ask (.check (N.stopped_of_fetched hs) fun _ _ => ?_)
  exact (N.dataType text _ hl.agree hl.caches ho hs).bind fun f _ ht => expectDataType f ht

/-- A library is read unless it is cached. -/
theorem libraryWith (ho : (s.normalize p).key ∉ N.opened i) (hs : N.goes i s) :
    (Fragment.libraryWith ls p).EndsIn s (fun _ => N.goes i) N.stopped :=
  fromCacheOrFile hs ho (fun f => expectLibrary f hs) fun text _ ht => parseLibrary hl ho text ht

/-- A data type is read unless it is cached. -/
theorem dataTypeWith (ho : (s.normalize p).key ∉ N.opened i) (hs : N.goes i s) :
    (Fragment.dataTypeWith ls p).EndsIn s (fun _ => N.goes i) N.stopped :=
  fromCacheOrFile hs ho (fun f => expectDataType f hs) fun text _ ht => parseDataType hl ho text ht

/-- So is a fragment of any kind. -/
theorem parseText (ho : path.key ∉ N.opened i) (text : String) (hs : N.fetched i path s) :
    (Fragment.parseText ls path text).EndsIn s (fun _ => N.goes i) N.stopped := by
  unfold Fragment.parseText
  split
  · exact (parseLibrary hl ho text hs).bind fun _ _ ht => .pure ht
  · exact (parseDataType hl ho text hs).bind fun _ _ ht => .pure ht
  · exact .stop (N.stopped_of_fetched hs)

/-- A fragment is read unless it is cached. -/
theorem fragmentWith (hidle : N.opened i = []) (hs : N.goes i s) :
    (Fragment.fragmentWith ls p).EndsIn s (fun _ => N.goes i) N.stopped := by
  have ho (q : Path) : q.key ∉ N.opened i := hidle ▸ List.not_mem_nil
  refine fromCache (fun f => .pure hs) fun hc => .ask ?_
  split
  · exact (dataTypeWith hl (ho _) hs).bind fun _ _ ht => .pure ht
  · exact (N.fetch hs (normalize_isNormal hs p) hc (ho _)).bind fun text _ ht =>
      parseText hl (ho _) text ht

end

/-- A file that is being read is not loaded again. -/
theorem unlessLoading {x : Load Unit} (hp : p.IsNormal N.settings.root)
    (hx : ∀ s, N.goes i s → (s.normalize p).key ∉ N.opened i →
      x.EndsIn s (fun _ => N.goes i) N.stopped) :
    (N.stage i).Agree () (Load.unlessLoading p x) (Load.unlessLoading p x) fun _ _ _ => True := by
  refine agree_of_endsIn fun s hs => .ask ?_
  cases hi : s.isLoading p with
  | true => exact .pure ⟨hs, trivial⟩
  | false =>
    have hnormal : s.normalize p = p := by
      rw [normalize, N.settings_eq hs]
      exact hp
    have ho : (s.normalize p).key ∉ N.opened i := by
      rw [hnormal, ← N.loading_eq hs]
      simpa [isLoading] using hi
    exact (hx s hs ho).imp (fun _ _ ht => ⟨ht, trivial⟩) fun _ ht => ht

/-- The recursion over files can be used at every stage. -/
theorem loaders (n : Nat) : N.Admits (Fragment.loaders n) := by
  induction n with
  | zero =>
    refine ⟨fun i => ?_, Fragment.cachesLibraries_loaders 0⟩
    exact ⟨fun _ _ hp => unlessLoading hp fun _ hs _ => .stop (N.stopped_of_goes hs),
      fun _ _ hp => unlessLoading hp fun _ hs _ => .stop (N.stopped_of_goes hs)⟩
  | succ n ih =>
    refine ⟨fun i => ?_, Fragment.cachesLibraries_loaders (n + 1)⟩
    refine ⟨fun _ _ hp => unlessLoading hp fun _ hs ho => ?_,
      fun _ _ hp => unlessLoading hp fun _ hs ho => ?_⟩
    · exact (libraryWith ih ho hs).bind fun _ _ ht => .pure ht
    · exact (dataTypeWith ih ho hs).bind fun _ _ ht => .pure ht

variable (N)

/-- An action that loads fragments keeps what it keeps with any loaders that can be used. -/
theorem withLoaders {α : Type} {x : Loaders → Load α} {P : α → Store → Prop} {E : Store → Prop}
    (hx : ∀ ls, N.Admits ls → (x ls).EndsIn s P E) : (Load.withLoaders x).EndsIn s P E :=
  .ask (hx _ (loaders s.loadDepth))

section
variable {N} (hidle : N.opened i = [])
include hidle

/-- While no file is being read, loads keep what the nesting keeps. -/
theorem keptByLoads : KeptByLoads (N.goes i) N.stopped where
  loadExample p _ hs := N.loadExample p hs
  fragment _ _ hs := N.withLoaders fun _ hl => fragmentWith hl hidle hs
  library _ _ hs := N.withLoaders fun _ hl => libraryWith hl (hidle ▸ List.not_mem_nil) hs
  dataType _ _ hs := N.withLoaders fun _ hl => dataTypeWith hl (hidle ▸ List.not_mem_nil) hs
  declare p name node _ hs := N.withLoaders fun _ hl =>
    keeps_of_agree ((N.declares i p).build (hl.agree i).dataType () trivial name node) hs

section
variable (beginResolution : ∀ (j : ShapeId) {s : Store}, N.goes i s → N.goes i (s.beginResolution j))
  (written : ∀ e : Evaluation, N.goes i e.start → N.goes i e.stop → N.goes i (written e))
  (markFailed : ∀ {t : Store} (j : ShapeId), N.stopped t → N.stopped ((t.endResolution j).markFailed j))
include beginResolution written markFailed

/-- Resolving a shape keeps what the nesting keeps if the changes that resolutions make do. -/
theorem keptByResolving : KeptByResolving (N.goes i) N.stopped where
  weaken _ := N.stopped_of_goes
  evaluates := (N.declaring i).evaluates (keptByLoads hidle)
  beginResolution := beginResolution
  written e _ := written e
  markFailed _ _ _ := markFailed _

/-- Runs keep what the nesting keeps if the binding of annotations does, too. -/
theorem keptByRuns (binding : KeptByBinding (N.goes i))
    (popUnresolved : ∀ {s : Store}, N.goes i s → N.goes i s.popUnresolved) :
    KeptByRuns (N.goes i) N.stopped where
  toKeptByResolving := keptByResolving hidle beginResolution written markFailed
  toKeptByLoads := keptByLoads hidle
  popUnresolved := popUnresolved
  bindAnnotations := binding.bindAnnotations fun _ => N.stopped_of_goes

end

end

end Nesting

end Store

end RamlTypes
