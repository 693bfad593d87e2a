import RamlTypes.Proofs.Termination.Fragments

/-!
# Loading leaves the work as it is

Reading a file pays for all that its text declares, since the file is not read again: it is loading
until its fragment is cached. The recursion over files goes into one that can be read, so it is at
most as deep as there are such files (`Fragment.descend_loaders`).
-/

namespace RamlTypes

namespace Store

variable {s t : Store} {path : Path} {text : String}

/-- The text of a file is known, and the file is neither cached nor being read. -/
structure AtHand (s : Store) (path : Path) (text : String) : Prop where
  known : (path.key, .ok text) ∈ s.files.known
  free : s.isFree path.key

/-- A file that can be read is one of those that are known. -/
theorem known_of_read (h : s.files.read path = .ok text) :
    (path.key, .ok text) ∈ s.files.known := by
  rw [Files.read] at h
  split at h
  · next found hfound =>
    subst h
    exact Dict.mem_of_find? hfound
  · cases h

/-- To begin the loading of a file settles. -/
theorem settles_beginLoading (s : Store) (p : Path) : s.Settles (s.beginLoading p) :=
  { Settles.refl s with
    free := fun k hk => by
      rw [isFree_iff] at hk ⊢
      exact ⟨hk.1, fun hmem => hk.2 (List.mem_cons_of_mem _ hmem)⟩ }

/-- A file that is being loaded is not free. -/
theorem not_isFree_beginLoading (s : Store) (p : Path) : ¬ (s.beginLoading p).isFree p.key := by
  rw [isFree_iff]
  exact fun h => h.2 List.mem_cons_self

/-- A file that was being read is cached. -/
theorem settles_cacheFragment (s : Store) (f : Fragment) :
    s.Settles ((s.endLoading f.location).cacheFragment f) :=
  { Settles.refl s with
    free := fun k hk => by
      rw [isFree_iff, cacheFragment] at hk
      rw [isFree_iff]
      have hcached : ¬ Dict.has k (Dict.putNew f.location.key f s.fragments) := hk.1
      rw [Dict.has, Dict.find?_putNew, Option.isSome_or, Bool.or_eq_true, not_or] at hcached
      refine ⟨hcached.1, fun hmem => hk.2 (List.mem_filter.2 ⟨hmem, decide_eq_true ?_⟩)⟩
      rintro rfl
      exact hcached.2 (by rw [if_pos rfl]; rfl) }

end Store

namespace Fragment

open Load (Pays IsFree IsFreeAt)

variable {ls : Loaders} {d : Nat} {s : Store} {p path : Path} {text : String}

/-- Reading a fragment that costs the text of its file, and caching it, leaves the work as it is. -/
theorem isFreeAt_reading {α : Type} {read : Load α} {f : α → Fragment}
    (hroot : s.settings.root.isAbsolute) (hd : s.unread.length < d + 1) (hs : s.AtHand path text)
    (hread : read.Pays d (textWeight text) fun _ => 0)
    (hlocation : read.Yields fun a => (f a).location = path) :
    (reading path read f).IsFreeAt s := by
  have hbegin := s.settles_beginLoading path
  have hwork := hbegin.work_add_textWeight_le hs.known hs.free (s.not_isFree_beginLoading path)
  have hlength := hbegin.length_unread_lt hs.known hs.free (s.not_isFree_beginLoading path)
  have hfinishes := hread (s.beginLoading path) hroot (by omega)
  have hrun := Load.whileLoading_apply s path read
  rcases hr : read (s.beginLoading path) with ⟨e | a, t⟩
  all_goals rw [hr] at hrun
  · exact .of_run_error (Load.bind_of_error hrun _) (hfinishes.ne_exhausted hr)
  · refine .of_run_ok ((Load.bind_of_ok hrun _).trans (Load.cacheFragment_apply _ _)) ?_
    have hspent := hfinishes.of_ok hr
    obtain rfl := hlocation _ a t hr
    have hsettles := (t.settles_cacheFragment (f a)).spends
    have hqueue : s.unresolved.length = (s.beginLoading (f a).location).unresolved.length := rfl
    constructor
    · have hspentWork := hspent.work
      have hsettlesWork := hsettles.work
      dsimp only at hspentWork hsettlesWork ⊢
      omega
    · exact Nat.le_trans hsettles.unread (Nat.le_trans hspent.unread (Nat.le_of_lt hlength))
    · exact hqueue ▸ Nat.le_trans hspent.queue hsettles.queue

/-- To ask for the kind of a cached file costs nothing. -/
theorem isFreeAt_expectLibrary (f : Fragment) : (expectLibrary path f).IsFreeAt s := by
  cases f with
  | library l => exact .pure (.refl s (Nat.le_refl _))
  | dataType d => exact .fail _

/-- So for a data type. -/
theorem isFreeAt_expectDataType (f : Fragment) : (expectDataType path f).IsFreeAt s := by
  cases f with
  | library l => exact .fail _
  | dataType d => exact .pure (.refl s (Nat.le_refl _))

/-- A file that can be read is at hand after it was read. -/
theorem finishes_readFile (hfree : s.isFree path.key) : (Load.readFile .fragment path).Finishes s
    fun text t => t = s.countRead .fragment path ∧ t.AtHand path text := by
  refine .change (.ask ?_)
  rcases hr : (s.countRead .fragment path).files.read path with e | text
  · exact .fail _
  · exact .pure ⟨rfl, Store.known_of_read hr, hfree⟩

/-- What is done with the text of a file in a store that differs in the counts. -/
theorem isFreeAt_readFile {α : Type} {parse : String → Load α} (hfree : s.isFree path.key)
    (hparse : ∀ text, (s.countRead .fragment path).AtHand path text →
      (parse text).IsFreeAt (s.countRead .fragment path)) :
    (Load.readFile .fragment path >>= parse).IsFreeAt s := by
  refine (finishes_readFile hfree).bind ?_
  rintro text _ ⟨rfl, hs⟩
  exact (hparse text hs).imp fun _ u hu => ⟨hu.work, hu.unread, hu.queue⟩

/-- What a cache miss is followed by may rely on the file being free. -/
theorem isFreeAt_fromCache {α : Type} {hit : Path → Fragment → Load α} {miss : Path → Load α}
    (ho : (s.normalize p).key ∉ s.loading) (hhit : ∀ f, (hit (s.normalize p) f).IsFreeAt s)
    (hmiss : s.isFree (s.normalize p).key → (miss (s.normalize p)).IsFreeAt s) :
    (fromCache p hit miss).IsFreeAt s := by
  have hrun := fromCache_apply hit miss (p := p) s
  rcases hf : Dict.find? (s.normalize p).key s.fragments with _ | f
  all_goals rw [hf] at hrun
  · exact (hmiss (Store.isFree_iff.2 ⟨Dict.find?_eq_none_iff.1 hf, ho⟩)).of_run_eq hrun
  · exact (hhit f).of_run_eq hrun

section
variable (hl : ls.Descend d) (hroot : s.settings.root.isAbsolute) (hd : s.unread.length < d + 1)
include hl hroot hd

/-- A library that has been read is parsed at the cost of its file. -/
theorem isFreeAt_parseLibrary (hs : s.AtHand path text) :
    (parseLibrary ls path text).IsFreeAt s := by
  refine .check fun _ _ => ?_
  have hread := isFreeAt_reading (f := .library) hroot hd hs (pays_readLibrary hl text)
    (readLibrary_location ls path text)
  exact hread.bind fun f t ht => (isFreeAt_expectLibrary f).imp fun _ _ hu => ht.trans hu

/-- And a data type. -/
theorem isFreeAt_parseDataType (hs : s.AtHand path text) :
    (parseDataType ls path text).IsFreeAt s := by
  refine .ask (.check fun _ _ => ?_)
  have hread := isFreeAt_reading (f := .dataType) hroot hd hs (pays_readDataTypeOrJson hl text _)
    (readDataTypeOrJson_location ls path text (s.isJsonShorthand path))
  exact hread.bind fun f t ht => (isFreeAt_expectDataType f).imp fun _ _ hu => ht.trans hu

/-- A library that is not being loaded is loaded at the cost of its file. -/
theorem isFreeAt_libraryWith (ho : (s.normalize p).key ∉ s.loading) :
    (libraryWith ls p).IsFreeAt s :=
  isFreeAt_fromCache ho (fun f => isFreeAt_expectLibrary f) fun hfree =>
    isFreeAt_readFile hfree fun _ hs => isFreeAt_parseLibrary hl hroot hd hs

/-- And a data type. -/
theorem isFreeAt_dataTypeWith (ho : (s.normalize p).key ∉ s.loading) :
    (dataTypeWith ls p).IsFreeAt s :=
  isFreeAt_fromCache ho (fun f => isFreeAt_expectDataType f) fun hfree =>
    isFreeAt_readFile hfree fun _ hs => isFreeAt_parseDataType hl hroot hd hs

/-- A fragment of any kind is parsed at the cost of its file. -/
theorem isFreeAt_parseText (hs : s.AtHand path text) : (parseText ls path text).IsFreeAt s := by
  have hpure {α : Type} (f : α → Fragment) (a : α) (t : Store) (ht : s.Spends 0 t 0) :
      (pure (f a) : Load Fragment).Finishes t fun _ u => s.Spends 0 u 0 := .pure ht
  unfold parseText
  split
  · exact (isFreeAt_parseLibrary hl hroot hd hs).bind (hpure .library)
  · exact (isFreeAt_parseDataType hl hroot hd hs).bind (hpure .dataType)
  · exact .fail _

/-- Loading a fragment leaves the work as it is. -/
theorem isFreeAt_fragmentWith (ho : ∀ q : Path, q.key ∉ s.loading) :
    (fragmentWith ls p).IsFreeAt s := by
  refine isFreeAt_fromCache (ho _) (fun f => .pure (.refl s (Nat.le_refl _))) fun hfree => .ask ?_
  split
  · exact (isFreeAt_dataTypeWith hl hroot hd (ho _)).bind fun _ _ ht => .pure ht
  · exact isFreeAt_readFile hfree fun _ hs => isFreeAt_parseText hl hroot hd hs

end

/-- A file that is being read is not loaded again. -/
theorem descends_unlessLoading {load : Path → Load Unit}
    (h : ∀ (s : Store) (p : Path), s.settings.root.isAbsolute → s.unread.length < d →
      (s.normalize p).key ∉ s.loading → (load p).IsFreeAt s) : Load.Descends load d := by
  intro s hroot hd p hp
  refine .ask ?_
  cases hi : s.isLoading p with
  | true => exact .pure (.refl s (Nat.le_refl _))
  | false =>
    have hnormal : s.normalize p = p := hp
    refine h s p hroot hd ?_
    rw [hnormal]
    simpa [Store.isLoading] using hi

/-- A file that is not at hand is not parsed. -/
theorem unlessLoading_congr {α : Type} {hit : Path → Fragment → Load α}
    (parse parse' : Path → String → Load α) (hp : p.IsNormal s.settings.root)
    (h : ∀ text, ¬ s.AtHand p text) :
    Load.unlessLoading p (do
      let _ ← fromCache p hit fun path => do parse path (← Load.readFile .fragment path)) s =
    Load.unlessLoading p (do
      let _ ← fromCache p hit fun path => do parse' path (← Load.readFile .fragment path)) s := by
  have hnormal : s.normalize p = p := hp
  rw [Load.unlessLoading, Load.unlessLoading, Load.ask_bind, Load.ask_bind]
  cases hi : s.isLoading p with
  | true => rfl
  | false =>
    have hload : fromCache p hit (fun path => do parse path (← Load.readFile .fragment path)) s =
        fromCache p hit (fun path => do parse' path (← Load.readFile .fragment path)) s := by
      rw [fromCache_apply, fromCache_apply, hnormal]
      rcases hf : Dict.find? p.key s.fragments with _ | f
      · rcases hr : s.files.read p with e | text
        · have hread : Load.readFile .fragment p s =
              (.error (.fault (.unreadable p e)), s.countRead .fragment p) := by
            have hfiles : (s.countRead .fragment p).files.read p = .error e := hr
            rw [Load.readFile, Load.change_bind, Load.ask_bind, hfiles]
            rfl
          dsimp only
          rw [Load.bind_of_error hread, Load.bind_of_error hread]
        · refine absurd ⟨Store.known_of_read hr, Store.isFree_iff.2 ⟨?_, ?_⟩⟩ (h text)
          · exact Dict.find?_eq_none_iff.1 hf
          · simpa [Store.isLoading] using hi
      · rfl
    have hbind {x y : Load α} (h : x s = y s) :
        (x >>= fun _ => pure () : Load Unit) s = (y >>= fun _ => pure () : Load Unit) s := by
      rw [Load.bind_apply, Load.bind_apply, h]
    exact hbind hload

/-- The recursion over files is as deep as there are files that can be read. -/
theorem descend_loaders (n : Nat) : (loaders n).Descend n := by
  induction n with
  | zero =>
    have hnone (load : Path → Load Unit) : Load.Descends load 0 :=
      fun _ _ hd => absurd hd (Nat.not_lt_zero _)
    exact ⟨hnone _, hnone _⟩
  | succ n ih =>
    constructor
    · refine descends_unlessLoading fun s p hroot hd ho => ?_
      exact (isFreeAt_libraryWith ih hroot hd ho).bind fun _ _ ht => .pure ht
    · refine descends_unlessLoading fun s p hroot hd ho => ?_
      exact (isFreeAt_dataTypeWith ih hroot hd ho).bind fun _ _ ht => .pure ht

end Fragment

namespace Load

variable {s : Store} {d : Nat}

/-- An action that loads fragments can go as deep as it has to. -/
theorem isFreeAt_withLoaders {α : Type} {x : Loaders → Load α}
    (hx : ∀ ls d, ls.Descend d → s.unread.length < d + 1 → (x ls).IsFreeAt s) :
    (withLoaders x).IsFreeAt s :=
  .ask (hx _ _ (Fragment.descend_loaders _) (Nat.lt_succ_of_lt s.length_unread_lt_loadDepth))

/-- Reading a declaration costs its node. -/
theorem pays_declare (path : Path) (name : String) (node : Node) :
    (declare path name node).Pays d (2 * node.size) fun _ => 0 :=
  fun s hroot _ => .ask <|
    Declaration.pays_build (Fragment.descend_loaders s.loadDepth).dataType path name node s hroot
      s.length_unread_lt_loadDepth

section
variable (hroot : s.settings.root.isAbsolute) (hidle : s.loading = [])
include hroot hidle

/-- To load a library leaves no more work than there was. -/
theorem isFreeAt_library (p : Path) : (library p).IsFreeAt s :=
  isFreeAt_withLoaders fun _ _ hl hd =>
    Fragment.isFreeAt_libraryWith hl hroot hd (hidle ▸ List.not_mem_nil)

/-- Nor does a data type. -/
theorem isFreeAt_dataType (p : Path) : (dataType p).IsFreeAt s :=
  isFreeAt_withLoaders fun _ _ hl hd =>
    Fragment.isFreeAt_dataTypeWith hl hroot hd (hidle ▸ List.not_mem_nil)

/-- Nor does a fragment of any kind. -/
theorem isFreeAt_fragment (p : Path) : (fragment p).IsFreeAt s :=
  isFreeAt_withLoaders fun _ _ hl hd =>
    Fragment.isFreeAt_fragmentWith hl hroot hd fun _ => hidle ▸ List.not_mem_nil

end

end Load

end RamlTypes
