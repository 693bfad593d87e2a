import RamlTypes.Proofs.Relation.Annotations

/-!
# Settled stores, and the loads that begin in them

A store is settled if nothing waits in it: every shape is resolved or has failed, and no shape that
is in use holds the number of one that failed. Between the requests of an eager session the store is
settled. `Store.During` says what holds while a load works on a settled store, and `Store.Stopped`
what still holds when it has stopped.
-/

namespace RamlTypes

/-- A number below `n` that is not among the failed ones, on both sides. -/
def Alive (n : Nat) (failed : List ShapeId) (i j : ShapeId) : Prop :=
  i = j ∧ i < n ∧ i ∉ failed

/-- Living shapes stay alive as more are stored. -/
theorem Alive.mono {n m : Nat} (h : n ≤ m) {failed : List ShapeId} {i j : ShapeId}
    (hij : Alive n failed i j) : Alive m failed i j :=
  ⟨hij.1, Nat.lt_of_lt_of_le hij.2.1 h, hij.2.2⟩

/-- A fragment with shapes that are in use only. -/
abbrev Fragment.IsAlive (n : Nat) (failed : List ShapeId) (f : Fragment) : Prop :=
  f.Rel (Alive n failed) (AnnotationUse.Rel (Alive n failed)) f

namespace Store

/-- In this store nothing waits, and nothing in use refers to a shape that failed. -/
structure Settled (s : Store) : Prop where
  loading : s.loading = []
  inProgress : s.inProgress = []
  unresolved : s.unresolved = []
  ids : ∀ (i : ShapeId) (a : Shape), s.shapes[i]? = some a → a.id = i
  resolved : ∀ (i : ShapeId) (a : Shape), s.shapes[i]? = some a → i ∉ s.failed → a.isUnknown = false
  failed : ∀ i ∈ s.failed, i < s.shapes.size
  bound_le : s.annotationsBound ≤ s.shapes.size
  /-- Above the mark there are only shapes that failed. -/
  bound : ∀ i, s.annotationsBound ≤ i → i < s.shapes.size → i ∈ s.failed
  shapes : ∀ (i : ShapeId) (a : Shape), s.shapes[i]? = some a → i ∉ s.failed →
    a.Rel (Alive s.shapes.size s.failed) a
  fragments : ∀ k f, Dict.find? k s.fragments = some f → f.IsAlive s.shapes.size s.failed
  named : ∀ k d, Dict.find? k s.named = some d →
    Dict.has k s.fragments ∧ Dict.Rel (Alive s.shapes.size s.failed) d d
  annotationTypes : ∀ k d, Dict.find? k s.annotationTypes = some d →
    Dict.has k s.fragments ∧ Dict.Rel (Alive s.shapes.size s.failed) d d
  uses : ∀ k, Dict.has k s.uses → Dict.has k s.fragments

/-- Nothing is loaded at first. -/
theorem settled_empty (settings : LoadSettings) (files : Files) :
    (empty settings files).Settled where
  loading := rfl
  inProgress := rfl
  unresolved := rfl
  ids _ _ h := nomatch h
  resolved _ _ h := nomatch h
  failed _ h := nomatch h
  bound_le := Nat.le_refl _
  bound _ _ h := absurd h (Nat.not_lt_zero _)
  shapes _ _ h := nomatch h
  fragments _ _ h := nomatch h
  named _ _ h := nomatch h
  annotationTypes _ _ h := nomatch h
  uses _ h := nomatch h

/-- What a load has done since it began in the store `b`: the number of shapes there are, the files
it has begun, and shapes that are resolved. -/
structure Extent (b : Store) where
  size : Nat
  begun : PathKey → Prop
  resolved : ShapeId → Prop
  size_le : b.shapes.size ≤ size
  fresh : ∀ k, begun k → ¬ Dict.has k b.fragments

instance (b : Store) : Preorder (Extent b) where
  le w w' := w.size ≤ w'.size ∧ (∀ k, w.begun k → w'.begun k) ∧ ∀ i, w.resolved i → w'.resolved i
  le_refl w := ⟨Nat.le_refl _, fun _ h => h, fun _ h => h⟩
  le_trans _ _ _ h h' :=
    ⟨Nat.le_trans h.1 h'.1, fun k hk => h'.2.1 k (h.2.1 k hk), fun i hi => h'.2.2 i (h.2.2 i hi)⟩

namespace Extent

variable {b : Store} (w : Extent b)

/-- What a load has done when it begins. -/
def start (b : Store) : Extent b :=
  ⟨b.shapes.size, fun _ => False, fun _ => False, Nat.le_refl _, nofun⟩

/-- Numbers of shapes in use. -/
abbrev Alive (i j : ShapeId) : Prop := RamlTypes.Alive w.size b.failed i j

/-- One more shape. -/
def grow : Extent b := { w with size := w.size + 1, size_le := Nat.le_succ_of_le w.size_le }

/-- One more shape makes the extent larger. -/
theorem le_grow : w ≤ w.grow := ⟨Nat.le_succ _, fun _ h => h, fun _ h => h⟩

/-- One more file. -/
def begin (k : PathKey) (hk : ¬ Dict.has k b.fragments) : Extent b :=
  { w with
    begun := fun k' => k' = k ∨ w.begun k'
    fresh := fun k' h => by
      rcases h with rfl | h
      · exact hk
      · exact w.fresh k' h }

/-- So does one more file. -/
theorem le_begin {k : PathKey} (hk : ¬ Dict.has k b.fragments) : w ≤ w.begin k hk :=
  ⟨Nat.le_refl _, fun _ => .inr, fun _ h => h⟩

/-- One more shape is resolved. -/
def settle (i : ShapeId) : Extent b := { w with resolved := fun j => j = i ∨ w.resolved j }

/-- So does one more shape that has settled. -/
theorem le_settle (i : ShapeId) : w ≤ w.settle i := ⟨Nat.le_refl _, fun _ h => h, fun _ => .inr⟩

end Extent

/-- What a load is doing. -/
inductive Phase where
  /-- It reads declarations, or is about to take a shape from the work list. -/
  | declaring
  /-- It resolves a shape that it has taken from the work list. -/
  | resolving (id : ShapeId)
  /-- It binds annotations: nothing waits any more. -/
  | binding

/-- What is noted of the files of `b` is the same in `s`. -/
structure SameIndexes (b s : Store) : Prop where
  fragments : ∀ k, Dict.has k b.fragments → Dict.find? k s.fragments = Dict.find? k b.fragments
  named : ∀ k, Dict.has k b.fragments → Dict.find? k s.named = Dict.find? k b.named
  annotationTypes : ∀ k, Dict.has k b.fragments →
    Dict.find? k s.annotationTypes = Dict.find? k b.annotationTypes
  uses : ∀ k, Dict.has k b.fragments → Dict.find? k s.uses = Dict.find? k b.uses

/-- What is noted of a file of `b` does not change when something is noted of another file. -/
theorem find?_adjust_other {b : Store} {α : Type} {d d' : Dict PathKey α} {k₀ : PathKey}
    (hk₀ : ¬ Dict.has k₀ b.fragments) (start : α) (f : α → α)
    (hd : ∀ k, Dict.has k b.fragments → Dict.find? k d = Dict.find? k d') (k : PathKey)
    (hk : Dict.has k b.fragments) : Dict.find? k (Dict.adjust k₀ start f d) = Dict.find? k d' := by
  have hne : k₀ ≠ k := by
    rintro rfl
    exact hk₀ hk
  rw [Dict.find?_adjust_of_ne hne, hd k hk]

/-- The store `s` during a load that began in `b`. Each unresolved shape that the load has added is
in the work list, except for the one that has been taken from it. -/
structure During (b : Store) (phase : Phase) (w : Extent b) (s : Store) : Prop where
  size : s.shapes.size = w.size
  old : ∀ i < b.shapes.size, s.shapes[i]? = b.shapes[i]?
  failed : s.failed = b.failed
  bound : s.annotationsBound = b.annotationsBound
  same : b.SameIndexes s
  ids : ∀ (i : ShapeId) (a : Shape), s.shapes[i]? = some a → a.id = i
  alive : ∀ (i : ShapeId) (a : Shape), s.shapes[i]? = some a → i ∉ b.failed → a.Rel w.Alive a
  begun : ∀ (i : ShapeId) (a : Shape), b.shapes.size ≤ i → s.shapes[i]? = some a → w.begun a.location.key
  waiting : ∀ (i : ShapeId) (a : Shape), b.shapes.size ≤ i → s.shapes[i]? = some a → a.isUnknown →
    i ∈ s.unresolved ∨ phase = .resolving i
  resolved : ∀ i, w.resolved i → i < w.size ∧ s.IsResolved i
  queue : ∀ i ∈ s.unresolved, b.shapes.size ≤ i ∧ i < w.size
  quiet : phase = .binding → s.unresolved = []
  loading : ∀ k, w.begun k → Dict.has k s.fragments ∨ k ∈ s.loading
  fragments : ∀ k f, Dict.find? k s.fragments = some f → f.IsAlive w.size b.failed
  named : ∀ k d, Dict.find? k s.named = some d →
    (Dict.has k b.fragments ∨ w.begun k) ∧ Dict.Rel w.Alive d d
  annotationTypes : ∀ k d, Dict.find? k s.annotationTypes = some d →
    (Dict.has k b.fragments ∨ w.begun k) ∧ Dict.Rel w.Alive d d
  uses : ∀ k, Dict.has k s.uses → Dict.has k b.fragments ∨ w.begun k

/-- The store `s` after a load that began in `b` and has stopped. -/
structure Stopped (b s : Store) : Prop where
  size_le : b.shapes.size ≤ s.shapes.size
  old : ∀ i < b.shapes.size, s.shapes[i]? = b.shapes[i]?
  failed : ∀ i, i ∈ s.failed → i ∈ b.failed ∨ b.shapes.size ≤ i ∧ i < s.shapes.size
  failed_of_failed : ∀ i ∈ b.failed, i ∈ s.failed
  bound : s.annotationsBound = b.annotationsBound
  same : b.SameIndexes s
  ids : ∀ (i : ShapeId) (a : Shape), s.shapes[i]? = some a → a.id = i
  queue : ∀ i ∈ s.unresolved, b.shapes.size ≤ i

variable {b s : Store} {phase : Phase} {w : Extent b}

/-- A request may stop at any time. -/
theorem During.stopped (h : b.During phase w s) : b.Stopped s where
  size_le := h.size ▸ w.size_le
  old := h.old
  failed _ hi := .inl (h.failed ▸ hi)
  failed_of_failed _ hi := h.failed ▸ hi
  bound := h.bound
  same := h.same
  ids := h.ids
  queue i hi := (h.queue i hi).1

/-- A load begins. -/
theorem Settled.during (h : b.Settled) : b.During .declaring (.start b) b where
  size := rfl
  old _ _ := rfl
  failed := rfl
  bound := rfl
  same := ⟨fun _ _ => rfl, fun _ _ => rfl, fun _ _ => rfl, fun _ _ => rfl⟩
  ids := h.ids
  alive := h.shapes
  begun i a hi ha := absurd (Array.getElem?_eq_some_iff.1 ha).1 (Nat.not_lt_of_le hi)
  waiting i a hi ha := absurd (Array.getElem?_eq_some_iff.1 ha).1 (Nat.not_lt_of_le hi)
  resolved _ hi := hi.elim
  queue i hi := by
    rw [h.unresolved] at hi
    cases hi
  quiet _ := h.unresolved
  loading _ hk := hk.elim
  fragments := h.fragments
  named k d hd := ⟨.inl (h.named k d hd).1, (h.named k d hd).2⟩
  annotationTypes k d hd := ⟨.inl (h.annotationTypes k d hd).1, (h.annotationTypes k d hd).2⟩
  uses k hk := .inl (h.uses k hk)

/-- A load of a settled store as a run of its own: the numbers of shapes in use stand for
themselves. -/
def during (b : Store) (phase : Phase) : Comparison where
  World := Extent b
  order := inferInstance
  stores w s t := s = t ∧ b.During phase w s
  stopped _ s t := s = t ∧ b.Stopped s
  final _ := True
  excused _ := False
  ignored _ := False
  ids w := w.Alive
  fresh w i j := w.Alive i j ∧ b.shapes.size ≤ i
  done w i j := w.Alive i j ∧ w.resolved i
  begun w p := w.begun p.key
  target _ := True
  linked _ _ := True
  bound w := AnnotationUse.Rel w.Alive
  stopped_of_stores _ h := ⟨h.1, h.2.stopped⟩
  stopped_fault h := h
  final_of_grows _ _ := trivial
  excused_fault h := h
  ignored_fault h := h
  ids_mono h := .mono h.1
  fresh_mono h h' := ⟨h'.1.mono h.1, h'.2⟩
  done_mono h h' := ⟨h'.1.mono h.1, h.2.2 _ h'.2⟩
  begun_mono h := h.2.1 _
  linked_mono _ h := h
  bound_mono h := .mono fun _ _ => .mono h.1
  ids_of_fresh h := h.1
  bound_of_rel h := h

end Store

end RamlTypes
