import RamlTypes.Proofs.ClosedWorld.Runs
import RamlTypes.Session

/-!
# The closed world of eager loads

Shapes refer to each other by number, so a user of a fragment can follow references from the shapes
that it declares. After each load of an eager session all that can be reached in this way is
resolved, and no part of it belongs to a load that failed (`Session.LoadRun.closedWorld_of_eager`).
-/

namespace RamlTypes

/-- The types that annotations are bound to. -/
def Dict.bindings (d : Dict String AnnotationUse) : List ShapeId :=
  d.filterMap (·.2.definedBy)

/-- The shapes that a shape refers to. -/
def Shape.handles (a : Shape) : List ShapeId :=
  a.body.items?.toList ++ a.body.properties.map (·.2) ++ a.body.members ++ a.inherits
    ++ a.facetDefinitions.map (·.2) ++ Dict.bindings a.annotations
    ++ a.examples.flatMap fun e => Dict.bindings e.annotations

/-- The shapes that a fragment refers to: those that it declares, and the types that its own
annotations are bound to. -/
def Fragment.handles : Fragment → List ShapeId
  | library l => (library l).declared ++ Dict.bindings l.annotations
  | dataType d => (dataType d).declared

namespace Store

/-- The shape can be reached from a cached fragment. -/
inductive Reach (s : Store) : ShapeId → Prop
  | root {k : PathKey} {f : Fragment} {i : ShapeId} (hf : Dict.find? k s.fragments = some f)
      (hi : i ∈ f.handles) : Reach s i
  | step {i j : ShapeId} {a : Shape} (h : Reach s i) (ha : s.shapes[i]? = some a)
      (hj : j ∈ a.handles) : Reach s j

/-- Nothing waits, and all that can be reached is resolved and did not fail. -/
structure ClosedWorld (s : Store) : Prop where
  unresolved : s.unresolved = []
  concrete : ∀ (i : ShapeId) (a : Shape), s.shapes[i]? = some a → i ∉ s.failed → a.kind ≠ .unknown
  bound : ∀ i, s.annotationsBound ≤ i → i < s.shapes.size → i ∈ s.failed
  reach : ∀ i, s.Reach i → i ∉ s.failed ∧ ∃ a, s.shapes[i]? = some a ∧ a.kind ≠ .unknown

end Store

section
variable {R : ShapeId → ShapeId → Prop}

/-- Each value of a dictionary is related to itself. -/
theorem Dict.Rel.mem_values {d : Dict String ShapeId} (h : Dict.Rel R d d) {i : ShapeId}
    (hi : i ∈ d.map (·.2)) : R i i := by
  obtain ⟨e, he, rfl⟩ := List.mem_map.1 hi
  exact (List.forall₂_same.1 h e he).2

/-- So is each annotation type that annotations are bound to. -/
theorem Dict.Rel.mem_bindings {d : Dict String AnnotationUse}
    (h : Dict.Rel (AnnotationUse.Rel R) d d) {i : ShapeId} (hi : i ∈ Dict.bindings d) : R i i := by
  obtain ⟨e, he, hei⟩ := List.mem_filterMap.1 hi
  have hrel := (List.forall₂_same.1 h e he).2.definedBy
  rw [hei] at hrel
  exact Option.rel_some_some.1 hrel

/-- What a shape refers to is related if the shape is related to itself. -/
theorem Shape.Rel.mem_handles {a : Shape} (h : a.Rel R a) {i : ShapeId} (hi : i ∈ a.handles) :
    R i i := by
  rw [handles] at hi
  simp only [List.mem_append, or_assoc] at hi
  rcases hi with hi | hi | hi | hi | hi | hi | hi
  · have hitems := h.body.items
    rw [Option.mem_toList.1 hi] at hitems
    exact Option.rel_some_some.1 hitems
  · exact h.body.properties.mem_values hi
  · exact List.forall₂_same.1 h.body.members i hi
  · exact List.forall₂_same.1 h.inherits i hi
  · exact h.facetDefinitions.mem_values hi
  · exact h.annotations.mem_bindings hi
  · obtain ⟨e, he, hi⟩ := List.mem_flatMap.1 hi
    exact (List.forall₂_same.1 h.examples e he).annotations.mem_bindings hi

/-- So is each number in a fragment. -/
theorem Fragment.Rel.mem_handles {f : Fragment} (h : f.Rel R (AnnotationUse.Rel R) f) {i : ShapeId}
    (hi : i ∈ f.handles) : R i i := by
  cases h with
  | library h =>
    rcases List.mem_append.1 hi with hi | hi
    · rcases List.mem_append.1 hi with hi | hi
      · exact h.types.mem_values hi
      · exact h.annotationTypes.mem_values hi
    · exact h.annotations.mem_bindings hi
  | dataType h =>
    obtain rfl := List.mem_singleton.1 hi
    exact h.shape

end

namespace Store.Settled

variable {s : Store} (h : s.Settled)
include h

/-- What can be reached in a settled store is in use. -/
theorem alive_of_reach {i : ShapeId} (hi : s.Reach i) : Alive s.shapes.size s.failed i i := by
  induction hi with
  | root hf hi => exact (h.fragments _ _ hf).mem_handles hi
  | step _ ha hj ih => exact (h.shapes _ _ ha ih.2.2).mem_handles hj

/-- Where a request ends, the world is closed. -/
theorem isClosed : s.ClosedWorld where
  unresolved := h.unresolved
  concrete i a ha hi := Shape.isUnknown_eq_false_iff.1 (h.resolved i a ha hi)
  bound := h.bound
  reach i hi := by
    obtain ⟨-, hlt, hnot⟩ := h.alive_of_reach hi
    have ha := Array.getElem?_eq_getElem hlt
    exact ⟨hnot, _, ha, Shape.isUnknown_eq_false_iff.1 (h.resolved i _ ha hnot)⟩

end Store.Settled

namespace Session

/-- The store of a session that has made loads only, with files that may change between them. -/
inductive LoadRun (settings : LoadSettings) : Store → Prop
  | start (files : Files) : LoadRun settings (.empty settings files)
  | load {s : Store} (h : LoadRun settings s) (p : Path) : LoadRun settings (step s (.load p)).2
  | rewrite {s : Store} (h : LoadRun settings s) (files : Files) :
      LoadRun settings { s with files := files }

/-- The answer leaves the store. -/
theorem perform_snd {α : Type} (x : Store → Except Stop α × Store) (answer : α → Answer) (s : Store) :
    (perform x answer s).2 = (x s).2 := by
  rw [perform]
  split <;> next h => rw [h]

namespace LoadRun

variable {settings : LoadSettings} {s : Store}

/-- Between the loads of an eager session the store is settled. -/
theorem settled (he : settings.eagerResolution) (h : LoadRun settings s) :
    s.settings = settings ∧ s.Settled := by
  induction h with
  | start files => exact ⟨rfl, Store.settled_empty settings files⟩
  | load _ p ih =>
    obtain ⟨hs, hset⟩ := ih
    rw [step, perform_snd]
    exact ⟨(Load.orRollback_settings _ _).trans hs, hset.load (hs ▸ he) p⟩
  | rewrite _ files ih => exact ⟨ih.1, { ih.2 with }⟩

/-- After each load of an eager session the world is closed. -/
theorem closedWorld_of_eager (he : settings.eagerResolution) (h : LoadRun settings s) : s.ClosedWorld :=
  (h.settled he).2.isClosed

/-- A load of a missing file, a new text for it, and another load of it. -/
theorem closedWorld_rewritten :
    let settings : LoadSettings := ⟨⟨"/"⟩, false, true⟩
    let p : Path := ⟨"/pets.raml"⟩
    let s₁ := (step (.empty settings (.memory [])) (.load p)).2
    let text := "#%RAML 1.0 Library\ntypes:\n  Pets: Pet[]\n  Pet: string\n"
    (step { s₁ with files := .memory [(p, text)] } (.load p)).2.ClosedWorld :=
  closedWorld_of_eager rfl (.load (.rewrite (.load (.start _) _) _) _)

end LoadRun

end Session

end RamlTypes
