import RamlTypes.Proofs.Names.Loads
import RamlTypes.Proofs.Preservation.Indexes

/-!
# Names denote the types of their library

Whatever is requested, a name that a cached library declares as a type and not as an annotation type
denotes the type in the table of the library, in the library itself and in the files that use it
(`Session.denotes_type`). A name that it declares as both denotes one of the two.
-/

namespace RamlTypes

namespace Store

variable {settings : LoadSettings} {s t : Store}

/-- Taking back a load leaves the names of the fragments that stay. -/
theorem Indexed.rollback (h : Indexed settings t) (s : Store) : Indexed settings (t.rollback s) where
  settings_eq := h.settings_eq
  cached k f hf := by
    have hf' : Dict.find? k (keepKnown (Dict.keys s.fragments) t.fragments) = some f := hf
    rw [find?_keepKnown] at hf'
    split at hf'
    · next hk =>
      obtain ⟨hkey, hnormal, hlists⟩ := h.cached k f hf'
      have hnamed : Dict.find? k (t.rollback s).named = Dict.find? k t.named :=
        (find?_keepKnown _ _ k).trans (if_pos hk)
      refine ⟨hkey, hnormal, fun n i hi => ?_⟩
      rw [noted?, hnamed]
      exact hlists n i hi
    · cases hf'

/-- Between two requests nothing is being read. -/
theorem Indexed.drafting (h : Indexed settings s) (hs : s.Coherent) : Drafting settings [] s where
  settings_eq := h.settings_eq
  cached := h.cached
  loading := hs.loading
  uncached := List.forall_mem_nil _
  drafted := List.forall_mem_nil _

theorem indexed_empty (settings : LoadSettings) (files : Files) :
    Indexed settings (empty settings files) where
  settings_eq := rfl
  cached _ _ h := nomatch h

/-- A name that is noted denotes the shape. -/
theorem lookup?_of_noted {p : Path} {n : String} {i : ShapeId}
    (h : s.noted? (s.normalize p).key n = some i) : s.lookup? p n = some i := by
  rw [noted?] at h
  rw [lookup?, h]

/-- The name `n` denotes the shape in the file, and with an alias of the file in the files that use
it. -/
structure Denotes (s : Store) (file : Path) (n : String) (i : ShapeId) : Prop where
  lookup : s.lookup? file n = some i
  inside : s.denoted? file none n = some i
  qualified : ∀ user name library, (s.usesOf? user).bind (Dict.find? name) = some library →
    (s.normalize library).key = (s.normalize file).key → s.denoted? user (some name) n = some i

theorem denotes_of_lookup {file : Path} {n : String} {i : ShapeId} (h : s.lookup? file n = some i) :
    s.Denotes file n i where
  lookup := h
  inside := h
  qualified user name library huses hkey := by
    rw [denoted?, huses, Option.bind_some, lookup?, hkey]
    exact h

/-- In a library each declared name denotes a shape that one of the tables has under the name. -/
theorem Indexed.exists_denotes (h : Indexed settings s) {k : PathKey} {l : Library}
    (hl : Dict.find? k s.fragments = some (.library l)) {n : String} {i : ShapeId}
    (hi : l.tables.Has n i) : ∃ j, s.Denotes l.location n j ∧ l.tables.Has n j := by
  obtain ⟨rfl, hnormal, hlists⟩ := h.cached k _ hl
  obtain ⟨j, hj, hhas⟩ := hlists n i hi
  have hlocation : s.normalize l.location = l.location := by
    rw [normalize, h.settings_eq]
    exact hnormal
  refine ⟨j, denotes_of_lookup (lookup?_of_noted ?_), hhas⟩
  rw [hlocation]
  exact hj

end Store

namespace Session

open Store

variable {settings : LoadSettings} {s : Store}

theorem indexed_step (hs : s.Coherent) (hroot : settings.root.isAbsolute) (h : Indexed settings s)
    (r : Request) : Indexed settings (step s r).2 := by
  have hruns : KeptByRuns (Drafting settings []) (Indexed settings) :=
    Nesting.keptByRuns (N := (draftings settings hroot).nesting) (i := []) rfl
      (fun _ _ h => { h with }) (fun _ _ h => { h with }) (fun _ h => { h with })
      (keptByBinding_drafting settings []) fun h => { h with }
  have hwork := hruns.requests.work hs (h.drafting hs) r
  have houtcome := outcome_step s r
  generalize (step s r).1 = a at houtcome
  generalize (step s r).2 = t at houtcome ⊢
  cases houtcome with
  | written p text => exact { h with }
  | served hr _ => exact (hwork.of_ok hr).toIndexed
  | stopped hr _ => exact hwork.of_error hr
  | undone hr _ => exact (hwork.of_error hr).rollback s

theorem indexed_run (hroot : settings.root.isAbsolute) (rs : List Request) : ∀ {s : Store},
    s.Coherent → Indexed settings s → Indexed settings (run s rs) := by
  induction rs with
  | nil => exact fun _ h => h
  | cons r rest ih =>
    exact fun hs h => ih (keeps_step hs r).coherent (indexed_step hs hroot h r)

/-- However the requests of a session end, a type of a cached library is what its name denotes in the
library and, with an alias, in the files that use it, unless the library has an annotation type of
that name as well. Then the name denotes one of the two. -/
theorem denotes_type (settings : LoadSettings) (files : Files) (hroot : settings.root.isAbsolute)
    (rs : List Request) {k : PathKey} {l : Library} {n : String} {i : ShapeId}
    (hl : Dict.find? k (run (.empty settings files) rs).fragments = some (.library l))
    (hi : Dict.find? n l.types = some i) :
    (Dict.find? n l.annotationTypes = none →
      (run (.empty settings files) rs).Denotes l.location n i) ∧
    ∀ j, Dict.find? n l.annotationTypes = some j →
      (run (.empty settings files) rs).Denotes l.location n i ∨
        (run (.empty settings files) rs).Denotes l.location n j := by
  have hindexed := indexed_run hroot rs (coherent_empty settings files) (indexed_empty settings files)
  obtain ⟨m, hm, hhas⟩ := hindexed.exists_denotes hl (.inl hi)
  refine ⟨fun hnone => ?_, fun j hj => ?_⟩
  · rcases hhas with h | h
    · cases hi.symm.trans h
      exact hm
    · cases hnone.symm.trans h
  · rcases hhas with h | h
    · cases hi.symm.trans h
      exact .inl hm
    · cases hj.symm.trans h
      exact .inr hm

/-- In the library and in a file that uses it, `B` denotes the type. The name `A` stands in both tables
and denotes the annotation type, which is read later. -/
theorem denotes_type_of_clash :
    let lib : Path := ⟨"/lib.raml"⟩
    let user : Path := ⟨"/a.raml"⟩
    let text := "#%RAML 1.0 Library\ntypes:\n  A: string\n  B: A\nannotationTypes:\n  A: integer\n"
    let files : Files := .memory [(user, "#%RAML 1.0 Library\nuses:\n  l: lib.raml\n"), (lib, text)]
    let settings : LoadSettings := ⟨⟨"/"⟩, false, false⟩
    let s := run (.empty settings files) [.load user]
    settings.root.isAbsolute ∧ s.Denotes lib "B" 1 ∧ s.denoted? user (some "l") "B" = some 1 ∧
      ∃ l, s.fragment? lib = some (.library l) ∧ Dict.find? "A" l.types = some 0 ∧
        ¬ s.Denotes lib "A" 0 ∧ s.Denotes lib "A" 2 := by
  intro lib user text files settings s
  have hroot : settings.root.isAbsolute := by decide
  have hrun : (s.fragment? lib).any fun f =>
      f.kind == .library && f.location == lib && Dict.find? "A" f.tables.types == some 0 &&
      Dict.find? "B" f.tables.types == some 1 && Dict.find? "B" f.tables.annotationTypes == none &&
      s.lookup? lib "A" == some 2 && s.denoted? user (some "l") "B" == some 1 := by decide +kernel
  obtain ⟨f, hf, hall⟩ := (Option.any_eq_true _ _).1 hrun
  simp only [Bool.and_eq_true, beq_iff_eq] at hall
  obtain ⟨⟨⟨⟨⟨⟨hkind, hlocation⟩, hA⟩, hB⟩, hnone⟩, hlookup⟩, huser⟩ := hall
  cases f with
  | dataType d => cases hkind
  | library l =>
    have hdenotes : s.Denotes l.location "B" 1 :=
      (denotes_type settings files hroot [.load user] (k := (s.normalize lib).key) hf hB).1 hnone
    rw [show l.location = lib from hlocation] at hdenotes
    refine ⟨hroot, hdenotes, huser, l, hf, hA, fun h => ?_, denotes_of_lookup hlookup⟩
    cases h.lookup.symm.trans hlookup

end Session

end RamlTypes
