import RamlTypes.Proofs.Names.Sessions

/-!
# The declaration of a data type

A data type is declared by the body of its file without its usage and its uses. Loading it for the
first time reads this declaration under the stem of the file, once the libraries that it uses are loaded,
and the shape of the data type is the one that is read (`DataType.ReadFrom`). A body that is no mapping
is not read as a declaration: it declares nothing, and its shape is a plain string.
-/

namespace RamlTypes

namespace Fragment

/-- The declaration in the body of a data type. -/
def declaration (body : Node) : Node :=
  .mapping ((body.pairs?.getD []).filter fun pair =>
    pair.1.text? ≠ some "uses" ∧ pair.1.text? ≠ some "usage") body.mark false

/-- What is left of a body without its usage and its uses is its declaration. -/
theorem cutUsage_eq_ok {path : Path} (pairs : List (Node × Node)) :
    ∀ {usage : Option String} {entries : List (Node × Node)},
      cutUsage path pairs = .ok (usage, entries) → entries = pairs.filter fun pair =>
        pair.1.text? ≠ some "uses" ∧ pair.1.text? ≠ some "usage" := by
  induction pairs with
  | nil =>
    intro usage entries h
    cases h
    rfl
  | cons pair rest ih =>
    intro usage entries h
    obtain ⟨key, value⟩ := pair
    unfold cutUsage at h
    split at h
    · next hkey =>
      rw [List.filter_cons_of_neg (by simp [hkey])]
      exact ih h
    · next hkey =>
      rw [List.filter_cons_of_neg (by simp [hkey])]
      obtain ⟨text, -, h⟩ := exists_ok_of_bind h
      obtain ⟨⟨later, others⟩, hrest, h⟩ := exists_ok_of_bind h
      cases h
      exact ih hrest
    · next huses husage =>
      rw [List.filter_cons_of_pos (by simpa using ⟨huses, husage⟩)]
      obtain ⟨⟨usage, others⟩, hrest, h⟩ := exists_ok_of_bind h
      cases h
      rw [ih hrest]

end Fragment

/-- The data type has been read from a text, between the stores `s` and `t`: first the libraries that it
uses have been loaded, and then its shape has been read from the declaration in the body. -/
structure DataType.ReadFrom (d : DataType) (ls : Loaders) (path : Path) (text : String) (s t : Store) :
    Prop where
  location : d.location = path
  checksum : d.checksum = Sha256.ofText text
  header : FragmentKind.dataType.checkHeader path text = .ok ()
  declared : ∃ body u v, Fragment.body path text = .ok body ∧ s.Grows u ∧
    Declaration.build ls.dataType path path.stem (Fragment.declaration body) u = (.ok d.shape, v) ∧
    v.Grows t

theorem DataType.ReadFrom.grows {d : DataType} {ls : Loaders} {path : Path} {text : String}
    {s t u : Store} (h : d.ReadFrom ls path text s t) (ht : t.Grows u) : d.ReadFrom ls path text s u where
  location := h.location
  checksum := h.checksum
  header := h.header
  declared := by
    obtain ⟨body, m, v, hbody, hm, hbuild, hv⟩ := h.declared
    exact ⟨body, m, v, hbody, hm, hbuild, hv.trans ht⟩

namespace Fragment

variable {ls : Loaders} {path : Path} {text : String} {s t : Store} {d : DataType}

/-- What is read as a data type has the shape of its declaration. -/
theorem readFrom_of_readDataType (header : FragmentKind.dataType.checkHeader path text = .ok ())
    (h : readDataType ls path text s = (.ok d, t)) : d.ReadFrom ls path text s t := by
  obtain ⟨parsed, hparsed, h⟩ := Load.ofExcept_bind_eq_ok.1 h
  obtain ⟨uses, u, huses, h⟩ := Load.bind_eq_ok.1 h
  obtain ⟨⟨usage, entries⟩, hcut, h⟩ := Load.ofExcept_bind_eq_ok.1 h
  obtain ⟨shape, v, hbuild, h⟩ := Load.bind_eq_ok.1 h
  cases h
  rw [cutUsage_eq_ok _ hcut] at hbuild
  exact ⟨rfl, rfl, header, parsed, u, _, hparsed, Load.grows_of_apply huses, hbuild, .refl _⟩

variable {settings : LoadSettings} {hroot : settings.root.isAbsolute} {ds : Store.Drafts}

section
variable (hl : (Store.draftings settings hroot).nesting.Admits ls)
include hl

/-- A data type that is read for the first time is the one that is cached. -/
theorem readFrom_of_parseDataType (ho : path.key ∉ ds.map (·.1))
    (hs : (Store.draftings settings hroot).goes ds s) (hnormal : path.IsNormal settings.root)
    (hc : ¬ Dict.has path.key s.fragments) (hjson : s.isJsonShorthand path = false)
    (h : parseDataType ls path text s = (.ok d, t)) :
    d.ReadFrom ls path text (s.beginLoading path) t := by
  rw [parseDataType, Load.ask_bind, hjson] at h
  obtain ⟨⟨⟩, header, h⟩ := Load.ofExcept_bind_eq_ok.1 h
  obtain ⟨f, t', hf, h⟩ := Load.bind_eq_ok.1 h
  obtain ⟨rfl, rfl⟩ := eq_of_expectDataType h
  rw [reading] at hf
  have hwhile := Load.whileLoading_apply s path (readDataTypeOrJson ls path text false)
  have hends := Store.Recording.endsIn_readDataTypeOrJson (R := Store.draftings settings hroot)
    (fun ds => hl.agree ds) hl.caches ho text false
    ((Store.draftings settings hroot).beginLoading hs ho hnormal hc)
  rcases hrun : readDataType ls path text (s.beginLoading path) with ⟨e | a, u⟩
  · have hrun' : readDataTypeOrJson ls path text false (s.beginLoading path) = (.error e, u) := hrun
    rw [hrun'] at hwhile
    rw [Load.bind_of_error hwhile] at hf
    cases hf
  · have hrun' : readDataTypeOrJson ls path text false (s.beginLoading path) = (.ok a, u) := hrun
    rw [hrun'] at hwhile
    rw [Load.bind_of_ok hwhile, Load.cacheFragment_apply] at hf
    have hread := readFrom_of_readDataType header hrun
    obtain ⟨w, hw, -, hu⟩ := hends.of_ok hrun'
    have hnew : Dict.find? a.location.key (u.endLoading path).fragments = none := by
      rw [hu]
      exact Dict.find?_eq_none_iff.2 (hw.uncached _ List.mem_cons_self)
    obtain ⟨hcached, rfl⟩ := Prod.mk.inj hf
    have hfind : Dict.find? a.location.key ((u.endLoading path).cacheFragment (.dataType a)).fragments =
        some (.dataType a) := by
      rw [Store.cacheFragment, Dict.find?_putNew, hnew, Option.none_or]
      exact if_pos rfl
    have heq : Fragment.dataType a = .dataType d := by
      have hlocation : (Fragment.dataType a).location = a.location := rfl
      rwa [hlocation, hfind, Except.ok.injEq, Option.getD_some] at hcached
    cases heq
    have hended : u.Grows (u.endLoading path) :=
      { Store.Grows.refl u with loading := List.filter_subset_self _ }
    exact hread.grows (hended.trans (Store.grows_cacheFragment _ _))

section
variable {p : Path} (ho : (s.normalize p).key ∉ ds.map (·.1))
  (hs : (Store.draftings settings hroot).goes ds s) (hc : s.fragment? p = none)
  (hjson : s.isJsonShorthand (s.normalize p) = false)
include ho hs hc hjson

/-- A data type is read from its file when it is not cached. -/
theorem readFrom_of_file (h : parseDataType ls (s.normalize p) text
      (s.countRead .fragment (s.normalize p)) = (.ok d, t)) :
    d.ReadFrom ls (s.normalize p) text
      ((s.countRead .fragment (s.normalize p)).beginLoading (s.normalize p)) t :=
  have hnormal := Store.Nesting.normalize_isNormal (N := (Store.draftings settings hroot).nesting) hs p
  readFrom_of_parseDataType hl ho ((Store.draftings settings hroot).countRead _ _ hs) hnormal
    (Dict.find?_eq_none_iff.1 hc) hjson h

/-- A data type that is loaded as such is read from its file. -/
theorem readFrom_of_dataTypeWith (h : dataTypeWith ls p s = (.ok d, t)) :
    ∃ text, s.files.read (s.normalize p) = .ok text ∧ d.ReadFrom ls (s.normalize p) text
      ((s.countRead .fragment (s.normalize p)).beginLoading (s.normalize p)) t := by
  have hc' : Dict.find? (s.normalize p).key s.fragments = none := hc
  rw [dataTypeWith, fromCache_apply, hc'] at h
  obtain ⟨text, htext, hparse⟩ := Load.readFile_bind_eq_ok h
  exact ⟨text, htext, readFrom_of_file hl ho hs hc hjson hparse⟩

/-- A data type that is loaded as a fragment of any kind is read from its file. -/
theorem readFrom_of_fragmentWith (h : fragmentWith ls p s = (.ok (.dataType d), t)) :
    ∃ text, s.files.read (s.normalize p) = .ok text ∧ d.ReadFrom ls (s.normalize p) text
      ((s.countRead .fragment (s.normalize p)).beginLoading (s.normalize p)) t := by
  have hc' : Dict.find? (s.normalize p).key s.fragments = none := hc
  rw [fragmentWith, fromCache_apply, hc'] at h
  dsimp only at h
  rw [readFragment, Load.ask_bind, hjson, if_neg Bool.false_ne_true] at h
  obtain ⟨text, htext, h⟩ := Load.readFile_bind_eq_ok h
  unfold parseText at h
  split at h
  · obtain ⟨l, _, -, h⟩ := Load.bind_eq_ok.1 h
    cases h
  · obtain ⟨d', _, hparse, h⟩ := Load.bind_eq_ok.1 h
    cases h
    exact ⟨text, htext, readFrom_of_file hl ho hs hc hjson hparse⟩
  · cases h

end

end

end Fragment

namespace Session

open Store

/-- A request that is answered with a fragment has found it. -/
theorem exists_ok_of_perform {α : Type} {x : Store → Except Stop α × Store} {answer : α → Answer}
    {f : Fragment} {s t : Store} (h : perform x answer s = (.fragment f, t)) :
    ∃ a, x s = (.ok a, t) ∧ answer a = .fragment f := by
  rw [perform] at h
  rcases hx : x s with ⟨e | a, u⟩ <;> rw [hx] at h
  · cases e <;> cases h
  · obtain ⟨ha, rfl⟩ := Prod.mk.inj h
    exact ⟨a, rfl, ha⟩

/-- An action that is not undone has succeeded. -/
theorem ok_of_orRollback {α : Type} {x : Load α} {s t : Store} {a : α}
    (h : Load.orRollback x s = (.ok a, t)) : x s = (.ok a, t) := by
  rw [Load.orRollback] at h
  split at h
  · cases h
  · exact h

/-- Whatever was requested before, a data type that is loaded for the first time has the shape of its
declaration, which is read from the body of its file under the stem of the file. -/
theorem readFrom_of_load (settings : LoadSettings) (files : Files) (hroot : settings.root.isAbsolute)
    (requests : List Request) {p : Path} {r : Request} (hr : r = .dataType p ∨ r = .parse p ∨ r = .load p)
    {d : DataType} {t : Store} (hc : (run (.empty settings files) requests).fragment? p = none)
    (hjson : (run (.empty settings files) requests).isJsonShorthand
      ((run (.empty settings files) requests).normalize p) = false)
    (h : step (run (.empty settings files) requests) r = (.fragment (.dataType d), t)) :
    let s := run (.empty settings files) requests
    let path := s.normalize p
    ∃ text, s.files.read path = .ok text ∧ d.ReadFrom (Fragment.loaders s.loadDepth) path text
      ((s.countRead .fragment path).beginLoading path) t := by
  intro s path
  obtain ⟨hs, -⟩ : s.Coherent ∧ s.settings = settings :=
    coherent_run requests (coherent_empty settings files)
  have hindexed : Indexed settings s :=
    indexed_run hroot requests (coherent_empty settings files) (indexed_empty settings files)
  have hgoes : (draftings settings hroot).goes [] s := hindexed.drafting hs
  have hl := Nesting.loaders (N := (draftings settings hroot).nesting) s.loadDepth
  have hfragment {u : Store} (h : Load.fragment p s = (.ok (.dataType d), u)) :
      ∃ text, s.files.read path = .ok text ∧ d.ReadFrom (Fragment.loaders s.loadDepth) path text
        ((s.countRead .fragment path).beginLoading path) u := by
    rw [Load.fragment, Load.withLoaders, Load.ask_bind] at h
    exact Fragment.readFrom_of_fragmentWith hl List.not_mem_nil hgoes hc hjson h
  rcases hr with rfl | rfl | rfl
  · obtain ⟨a, ha, hd⟩ := exists_ok_of_perform h
    cases hd
    rw [Load.dataType, Load.withLoaders, Load.ask_bind] at ha
    exact Fragment.readFrom_of_dataTypeWith hl List.not_mem_nil hgoes hc hjson ha
  · obtain ⟨f, hf, hd⟩ := exists_ok_of_perform h
    cases hd
    exact hfragment (ok_of_orRollback hf)
  · obtain ⟨f, hf, hd⟩ := exists_ok_of_perform h
    cases hd
    obtain ⟨f, u, hf, hrest⟩ := Load.bind_eq_ok.1 (ok_of_orRollback hf)
    obtain ⟨_, v, hresolve, hrest⟩ := Load.bind_eq_ok.1 hrest
    cases hrest
    obtain ⟨text, htext, hread⟩ := hfragment hf
    exact ⟨text, htext, hread.grows (Load.grows_of_apply hresolve)⟩

/-- The body of the data type is the name of a type. It is not read as its declaration, and the shape is a
string. -/
theorem readFrom_of_load_scalar :
    let path : Path := ⟨"/t.raml"⟩
    let settings : LoadSettings := ⟨⟨"/"⟩, false, false⟩
    let files : Files := .memory [(path, "#%RAML 1.0 DataType\ninteger\n")]
    let s := run (.empty settings files) []
    settings.root.isAbsolute ∧ s.fragment? path = none ∧
      s.isJsonShorthand (s.normalize path) = false ∧ ∃ d t,
        step s (.dataType path) = (.fragment (.dataType d), t) ∧
        (t.shapes[d.shape]?.map (·.kind)) = some .string ∧ ∃ text,
          s.files.read (s.normalize path) = .ok text ∧
          d.ReadFrom (Fragment.loaders s.loadDepth) (s.normalize path) text
            ((s.countRead .fragment (s.normalize path)).beginLoading (s.normalize path)) t := by
  intro path settings files s
  have hroot : settings.root.isAbsolute := by decide
  have hjson : s.isJsonShorthand (s.normalize path) = false := by decide +kernel
  have hstring : ((Load.dataType path s).1.toOption.any fun d =>
      ((Load.dataType path s).2.shapes[d.shape]?.map (·.kind)) == some .string) = true := by
    decide +kernel
  rcases hload : Load.dataType path s with ⟨_ | d, t⟩ <;> rw [hload] at hstring
  · cases hstring
  · have hkind : (t.shapes[d.shape]?.map (·.kind)) = some .string := beq_iff_eq.1 hstring
    have hstep : step s (.dataType path) = (.fragment (.dataType d), t) := by
      rw [step, perform, hload]
    exact ⟨hroot, rfl, hjson, d, t, hstep, hkind,
      readFrom_of_load settings files hroot [] (.inl rfl) rfl hjson hstep⟩

end Session

end RamlTypes
