import RamlTypes.Proofs.NormalForm
import RamlTypes.Proofs.Relation.Invariant

/-!
# The tables of a file and its names

A library keeps a table of its types and one of its annotation types. The store notes the names of
both under the file (`Store.noted?`), where a name that stands in both tables is noted once, for the
declaration that is read last. So what is noted lists the tables (`Store.Lists`): each of their names
is noted, for a shape that one of the tables has under the name. `Store.Drafting` says so of the
cached fragments, and of those that are being read.
-/

namespace RamlTypes

/-- The names that a file declares. -/
structure Tables where
  types : Dict String ShapeId
  annotationTypes : Dict String ShapeId

namespace Tables

/-- The tables of a file without types. -/
def empty : Tables := ⟨[], []⟩

/-- One of the tables has the shape under the name. -/
def Has (t : Tables) (n : String) (i : ShapeId) : Prop :=
  Dict.find? n t.types = some i ∨ Dict.find? n t.annotationTypes = some i

/-- The empty tables have no name. -/
theorem not_has_empty (n : String) (i : ShapeId) : ¬ empty.Has n i := by
  rintro (h | h) <;> cases h

/-- The tables `t'` are the tables `t` with one more entry. -/
structure Adds (t : Tables) (name : String) (i : ShapeId) (t' : Tables) : Prop where
  new : t'.Has name i
  others : ∀ n j, name ≠ n → (t'.Has n j ↔ t.Has n j)

/-- A type that is put into the tables is added to them. -/
theorem adds_type (t : Tables) (name : String) (i : ShapeId) :
    t.Adds name i { t with types := Dict.put name i t.types } where
  new := .inl (by rw [Dict.find?_put, if_pos rfl])
  others n j hn := by rw [Has, Has, Dict.find?_put, if_neg hn]

/-- So is an annotation type. -/
theorem adds_annotationType (t : Tables) (name : String) (i : ShapeId) :
    t.Adds name i { t with annotationTypes := Dict.put name i t.annotationTypes } where
  new := .inr (by rw [Dict.find?_put, if_pos rfl])
  others n j hn := by rw [Has, Has, Dict.find?_put, if_neg hn]

end Tables

/-- The tables of a library. -/
def Library.tables (l : Library) : Tables := ⟨l.types, l.annotationTypes⟩

/-- The tables of a fragment. A data type declares no names. -/
def Fragment.tables : Fragment → Tables
  | .library l => l.tables
  | .dataType _ => .empty

namespace Store

/-- The shape that is noted for a name of a file. -/
def noted? (s : Store) (k : PathKey) (n : String) : Option ShapeId :=
  (Dict.find? k s.named).bind (Dict.find? n)

/-- Each name of the tables is noted for the file. -/
def Lists (s : Store) (k : PathKey) (t : Tables) : Prop :=
  ∀ n i, t.Has n i → ∃ j, s.noted? k n = some j ∧ t.Has n j

/-- The empty tables are part of what is noted of any file. -/
theorem lists_empty (s : Store) (k : PathKey) : s.Lists k .empty :=
  fun n i h => absurd h (Tables.not_has_empty n i)

/-- Only the name that is declared is noted anew. -/
theorem noted?_declareType (s : Store) (p : Path) (name : String) (i : ShapeId) (k : PathKey)
    (n : String) : (s.declareType p name i).noted? k n =
      if p.key = k ∧ name = n then some i else s.noted? k n :=
  Dict.find?_adjust_put p.key k name n i s.named

section
variable {s : Store} {p : Path} {k : PathKey} {t t' : Tables} {name : String} {i : ShapeId}

/-- A name is noted as it is added to the tables. -/
theorem Lists.declareType (h : s.Lists p.key t) (ht : t.Adds name i t') :
    (s.declareType p name i).Lists p.key t' := by
  intro n j hj
  rw [noted?_declareType]
  by_cases hn : name = n
  · subst hn
    exact ⟨i, if_pos ⟨rfl, rfl⟩, ht.new⟩
  · obtain ⟨l, hl, hhas⟩ := h n j ((ht.others n j hn).1 hj)
    exact ⟨l, (if_neg fun h => hn h.2).trans hl, (ht.others n l hn).2 hhas⟩

/-- The names of other files stay as they are. -/
theorem Lists.declareType_of_ne (h : s.Lists k t) (hk : p.key ≠ k) :
    (s.declareType p name i).Lists k t := by
  intro n j hj
  rw [noted?_declareType, if_neg fun h => hk h.1]
  exact h n j hj

end

/-- The names of the cached fragments are noted, under the normal forms of their paths. -/
structure Indexed (settings : LoadSettings) (s : Store) : Prop where
  settings_eq : s.settings = settings
  cached : ∀ k f, Dict.find? k s.fragments = some f →
    f.location.key = k ∧ f.location.IsNormal settings.root ∧ s.Lists k f.tables

/-- The store while fragments are being read. These are not cached, and the names read so far are
noted. -/
structure Drafting (settings : LoadSettings) (drafts : List (PathKey × Tables)) (s : Store) : Prop
    extends Indexed settings s where
  loading : s.loading = drafts.map (·.1)
  uncached : ∀ d ∈ drafts, ¬ Dict.has d.1 s.fragments
  drafted : ∀ d ∈ drafts, s.Lists d.1 d.2

section
variable {settings : LoadSettings} {drafts : List (PathKey × Tables)} {s : Store} {p : Path}
  {t t' : Tables}

/-- A name of the file that is being read is noted. -/
theorem Drafting.declareType (h : Drafting settings ((p.key, t) :: drafts) s)
    (hp : p.key ∉ drafts.map (·.1)) {name : String} {i : ShapeId}
    (ht : (s.declareType p name i).Lists p.key t') :
    Drafting settings ((p.key, t') :: drafts) (s.declareType p name i) where
  settings_eq := h.settings_eq
  cached k f hf := by
    obtain ⟨hk, hnormal, hlists⟩ := h.cached k f hf
    refine ⟨hk, hnormal, hlists.declareType_of_ne ?_⟩
    rintro rfl
    exact h.uncached _ List.mem_cons_self (Dict.has_iff.2 ⟨f, hf⟩)
  loading := h.loading
  uncached := by
    have hall := h.uncached
    rw [List.forall_mem_cons] at hall ⊢
    exact hall
  drafted := by
    have hall := h.drafted
    rw [List.forall_mem_cons] at hall ⊢
    refine ⟨ht, fun d hd => (hall.2 d hd).declareType_of_ne ?_⟩
    exact fun heq => hp (heq ▸ List.mem_map_of_mem hd)

/-- An annotation type is entered into the draft of its file. -/
theorem Drafting.declareAnnotationType (h : Drafting settings ((p.key, t) :: drafts) s)
    (hp : p.key ∉ drafts.map (·.1)) {name : String} {i : ShapeId}
    (ht : (s.declareType p name i).Lists p.key t') :
    Drafting settings ((p.key, t') :: drafts) (s.declareAnnotationType p name i) :=
  { h.declareType hp ht with }

/-- The reading of a file begins. -/
theorem Drafting.beginLoading (h : Drafting settings drafts s) (hp : ¬ Dict.has p.key s.fragments) :
    Drafting settings ((p.key, .empty) :: drafts) (s.beginLoading p) where
  settings_eq := h.settings_eq
  cached := h.cached
  loading := congrArg (p.key :: ·) h.loading
  uncached := List.forall_mem_cons.2 ⟨hp, h.uncached⟩
  drafted := List.forall_mem_cons.2 ⟨lists_empty _ _, h.drafted⟩

/-- The fragment of a file is cached when it is read. -/
theorem Drafting.cacheFragment {f : Fragment}
    (h : Drafting settings ((f.location.key, f.tables) :: drafts) s)
    (hp : f.location.key ∉ drafts.map (·.1)) (hnormal : f.location.IsNormal settings.root) :
    Drafting settings drafts ((s.endLoading f.location).cacheFragment f) where
  settings_eq := h.settings_eq
  cached k g hg := by
    rw [Store.cacheFragment, Dict.find?_putNew] at hg
    rcases Option.or_eq_some_iff.1 hg with hg | ⟨-, hg⟩
    · exact h.cached k g hg
    · split at hg
      · next hk =>
        cases hg
        subst hk
        exact ⟨rfl, hnormal, h.drafted _ List.mem_cons_self⟩
      · cases hg
  loading := loading_endLoading h.loading hp
  uncached d hd := by
    have hne : f.location.key ≠ d.1 := fun heq => hp (heq ▸ List.mem_map_of_mem hd)
    rw [Store.cacheFragment, Dict.has, Dict.find?_putNew, if_neg hne, Option.or_none]
    exact h.uncached d (List.mem_cons_of_mem _ hd)
  drafted d hd := h.drafted d (List.mem_cons_of_mem _ hd)

/-- Declaring shapes leaves the drafts. -/
theorem keptByDeclaring_drafting (settings : LoadSettings) (drafts : List (PathKey × Tables)) :
    KeptByDeclaring (Drafting settings drafts) where
  report _ _ h := { h with }
  addShape _ _ h := { h with }
  makeOptional _ h := { h with }

/-- Binding annotations leaves the drafts. -/
theorem keptByBinding_drafting (settings : LoadSettings) (drafts : List (PathKey × Tables)) :
    KeptByBinding (Drafting settings drafts) where
  reportUnbound _ _ h := { h with }
  writeAnnotations _ _ _ h := { h with }
  markBound h := { h with }

end

end Store

end RamlTypes
