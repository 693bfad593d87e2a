import RamlTypes.Proofs.Yields

/-!
# What a loader yields is cached

A library or a data type that is loaded is the one that is cached under its path.
-/

namespace RamlTypes

open Load (Yields)

/-- What is found is in the dictionary. -/
theorem Dict.mem_of_find? {κ α : Type} [DecidableEq κ] {k : κ} {a : α} {d : Dict κ α}
    (h : Dict.find? k d = some a) : (k, a) ∈ d := by
  induction d with
  | nil => cases h
  | cons entry rest ih =>
    obtain ⟨l, b⟩ := entry
    rw [Dict.find?] at h
    split at h
    · next hl =>
      cases h
      rw [hl]
      exact List.mem_cons_self
    · exact List.mem_cons_of_mem _ (ih h)

namespace Fragment

variable (ls : Loaders) (path : Path)

/-- A section that is no annotation leaves the file, the aliases and the annotations of a library. -/
theorem addSection_keeps (l : Library) (key : String) (value : Node) :
    (addSection ls path l key value).Yields fun m =>
      m.location = l.location ∧ m.uses = l.uses ∧ m.annotations = l.annotations := by
  unfold addSection
  split
  · exact .pure ⟨rfl, rfl, rfl⟩
  all_goals first
    | exact .next fun _ => .pure ⟨rfl, rfl, rfl⟩
    | exact .next fun _ => .next fun _ => .pure ⟨rfl, rfl, rfl⟩

/-- The sections of a library leave what was known before: its file and its aliases. -/
theorem addSections_keeps (sections : List (String × Node)) : ∀ l : Library,
    (addSections ls path l sections).Yields fun m => m.location = l.location ∧ m.uses = l.uses := by
  induction sections with
  | nil => exact fun l => .pure ⟨rfl, rfl⟩
  | cons entry rest ih =>
    intro l
    unfold addSections
    split
    · exact .next fun a => ih _
    · refine .bind (addSection_keeps ls path l _ _) fun m hm => ?_
      exact hm.1 ▸ hm.2.1 ▸ ih m

/-- A library is read in the file that it is in. -/
theorem readLibrary_location (text : String) :
    (readLibrary ls path text).Yields fun l => l.location = path := by
  refine .next fun body => .next fun uses => .next fun sections => ?_
  refine .bind (addSections_keeps ls path sections _) fun l hl => .next fun ⟨d, fault⟩ => ?_
  cases fault with
  | some f => exact .fail f
  | none => exact .pure hl.1

/-- A data type is read in the file that it is in. -/
theorem readDataTypeOrJson_location (text : String) (isJson : Bool) :
    (readDataTypeOrJson ls path text isJson).Yields fun d => d.location = path := by
  unfold readDataTypeOrJson
  split
  · unfold readJson
    split
    · exact .next fun _ => .pure rfl
    · exact .fail _
  · exact .next fun _ => .next fun _ => .next fun _ => .next fun _ => .pure rfl

/-- A fragment that is read is the one that is cached. -/
theorem cached_of_reading {α : Type} {read : Load α} {f : α → Fragment} {g : Fragment}
    {s s' : Store} (hf : read.Yields fun a => (f a).location = path)
    (h : reading path read f s = (.ok g, s')) : Dict.find? path.key s'.fragments = some g := by
  obtain ⟨a, t, ha, hg⟩ := Load.bind_eq_ok.1 h
  have location : (f a).location = path := by
    rw [Load.whileLoading_apply, Prod.mk.injEq] at ha
    exact hf (s.beginLoading path) a _ (Prod.ext ha.1 rfl)
  rw [Load.cacheFragment_apply, Prod.mk.injEq, Except.ok.injEq] at hg
  obtain ⟨hg, rfl⟩ := hg
  rw [← hg, location, Store.cacheFragment, Dict.find?_putNew, location, if_pos rfl]
  cases Dict.find? path.key t.fragments <;> rfl

variable {path} {s s' : Store} {p : Path}

/-- Only a library is accepted as one. -/
theorem eq_of_expectLibrary {f : Fragment} {l : Library}
    (h : expectLibrary path f s = (.ok l, s')) : f = .library l ∧ s' = s := by
  cases f <;> cases h
  exact ⟨rfl, rfl⟩

/-- Only a data type is accepted as one. -/
theorem eq_of_expectDataType {f : Fragment} {d : DataType}
    (h : expectDataType path f s = (.ok d, s')) : f = .dataType d ∧ s' = s := by
  cases f <;> cases h
  exact ⟨rfl, rfl⟩

/-- A library that has been parsed is cached. -/
theorem cached_of_parseLibrary {text : String} {l : Library}
    (h : parseLibrary ls path text s = (.ok l, s')) :
    Dict.find? path.key s'.fragments = some (.library l) := by
  obtain ⟨_, t, _, h⟩ := Load.bind_eq_ok.1 h
  obtain ⟨f, t', hf, h⟩ := Load.bind_eq_ok.1 h
  obtain ⟨rfl, rfl⟩ := eq_of_expectLibrary h
  exact cached_of_reading path (readLibrary_location ls path text) hf

/-- So is a data type. -/
theorem cached_of_parseDataType {text : String} {d : DataType}
    (h : parseDataType ls path text s = (.ok d, s')) :
    Dict.find? path.key s'.fragments = some (.dataType d) := by
  obtain ⟨isJson, _, _, h⟩ := Load.bind_eq_ok.1 h
  obtain ⟨_, t, _, h⟩ := Load.bind_eq_ok.1 h
  obtain ⟨f, t', hf, h⟩ := Load.bind_eq_ok.1 h
  obtain ⟨rfl, rfl⟩ := eq_of_expectDataType h
  exact cached_of_reading path (readDataTypeOrJson_location ls path text isJson) hf

/-- The cache is asked first. -/
theorem fromCache_apply {α : Type} (hit : Path → Fragment → Load α)
    (miss : Path → Load α) (s : Store) : fromCache p hit miss s =
      match Dict.find? (s.normalize p).key s.fragments with
      | some f => hit (s.normalize p) f s
      | none => miss (s.normalize p) s := by
  rw [fromCache, Load.ask_bind, Load.ask_bind]
  cases Dict.find? (s.normalize p).key s.fragments <;> rfl

variable {ls}

/-- A library that is loaded is the one that is cached. -/
theorem cached_of_libraryWith {l : Library} (h : libraryWith ls p s = (.ok l, s')) :
    Dict.find? (s.normalize p).key s'.fragments = some (.library l) := by
  rw [libraryWith, fromCache_apply] at h
  split at h
  · next f hf =>
    obtain ⟨rfl, rfl⟩ := eq_of_expectLibrary h
    exact hf
  · obtain ⟨text, t, _, h⟩ := Load.bind_eq_ok.1 h
    exact cached_of_parseLibrary ls h

/-- A data type that is loaded is the one that is cached. -/
theorem cached_of_dataTypeWith {d : DataType} (h : dataTypeWith ls p s = (.ok d, s')) :
    Dict.find? (s.normalize p).key s'.fragments = some (.dataType d) := by
  rw [dataTypeWith, fromCache_apply] at h
  split at h
  · next f hf =>
    obtain ⟨rfl, rfl⟩ := eq_of_expectDataType h
    exact hf
  · obtain ⟨text, t, _, h⟩ := Load.bind_eq_ok.1 h
    exact cached_of_parseDataType ls h

end Fragment

/-- Where such a loader yields a library, it is cached as one. -/
def Loaders.CachesLibraries (ls : Loaders) : Prop :=
  ∀ p s t, ls.library p s = (.ok (), t) →
    ∃ l, Dict.find? (s.normalize p).key t.fragments = some (.library l)

/-- The loaders of every depth cache the libraries that they load. -/
theorem Fragment.cachesLibraries_loaders (n : Nat) : (loaders n).CachesLibraries := by
  intro p s t h
  cases n with
  | zero => cases h
  | succ n =>
    obtain ⟨l, u, hl, h⟩ := Load.bind_eq_ok.1 h
    cases h
    exact ⟨l, cached_of_libraryWith hl⟩

end RamlTypes
