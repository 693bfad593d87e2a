import RamlTypes.Proofs.ClosedWorld.Basic

/-!
# Coherent stores, and the requests that are made of them

Between the requests of any session the store is coherent: the numbers that it holds belong to
shapes, and each unresolved shape has failed or is in the work list. In contrast to a settled store
there may be shapes that wait. `Store.Since` says what holds from the beginning of a request to its
end, even if it stops, and `Store.Underway` what holds in addition while it goes on.
-/

namespace RamlTypes

/-- A number below `n`, on both sides. -/
def Below (n : Nat) (i j : ShapeId) : Prop := i = j ∧ i < n

theorem Below.mono {n m : Nat} (h : n ≤ m) {i j : ShapeId} (hij : Below n i j) : Below m i j :=
  ⟨hij.1, Nat.lt_of_lt_of_le hij.2 h⟩

theorem eq_of_below {n : Nat} (i j : ShapeId) (h : Below n i j) : i = j := h.1

/-- A fragment whose numbers are below `n`. -/
abbrev Fragment.IsBelow (n : Nat) (f : Fragment) : Prop :=
  f.Rel (Below n) (AnnotationUse.Rel (Below n)) f

/-- The declaration of a shape, if it is not resolved yet, is complete. -/
abbrev Shape.AwaitsDeclared (a : Shape) : Prop :=
  a.isUnknown → a.IsDeclared fun _ => True

namespace Store

/-- In this store all numbers belong to shapes, and no unresolved shape is forgotten. -/
structure Coherent (s : Store) : Prop where
  loading : s.loading = []
  inProgress : s.inProgress = []
  ids : ∀ (i : ShapeId) (a : Shape), s.shapes[i]? = some a → a.id = i
  shapes : ∀ (i : ShapeId) (a : Shape), s.shapes[i]? = some a → a.Rel (Below s.shapes.size) a
  declared : ∀ (i : ShapeId) (a : Shape), s.shapes[i]? = some a → a.AwaitsDeclared
  /-- The parents of a declaration are stored before it. -/
  parents : ∀ (i : ShapeId) (a : Shape), s.shapes[i]? = some a → a.isUnknown → ∀ j ∈ a.inherits, j < i
  waiting : ∀ (i : ShapeId) (a : Shape), s.shapes[i]? = some a → a.isUnknown →
    i ∈ s.failed ∨ i ∈ s.unresolved
  queue : ∀ i ∈ s.unresolved, i < s.shapes.size
  resolved : ∀ i ∈ s.resolved, i < s.shapes.size
  fragments : ∀ k f, Dict.find? k s.fragments = some f → f.IsBelow s.shapes.size
  named : ∀ k d, Dict.find? k s.named = some d → Dict.Rel (Below s.shapes.size) d d
  annotationTypes : ∀ k d, Dict.find? k s.annotationTypes = some d →
    Dict.Rel (Below s.shapes.size) d d

/-- All files that the store mentions are among those in `known`, but for those of failed shapes. -/
structure Mentions (known : PathKey → Prop) (s : Store) : Prop where
  locations : ∀ (i : ShapeId) (a : Shape), s.shapes[i]? = some a → i ∈ s.failed ∨ known a.location.key
  named : ∀ k, Dict.has k s.named → known k
  annotationTypes : ∀ k, Dict.has k s.annotationTypes → known k
  uses : ∀ k, Dict.has k s.uses → known k

/-- Nothing is loaded at first. -/
theorem coherent_empty (settings : LoadSettings) (files : Files) :
    (empty settings files).Coherent where
  loading := rfl
  inProgress := rfl
  ids _ _ h := nomatch h
  shapes _ _ h := nomatch h
  declared _ _ h := nomatch h
  parents _ _ h := nomatch h
  waiting _ _ h := nomatch h
  queue _ h := nomatch h
  resolved _ h := nomatch h
  fragments _ _ h := nomatch h
  named _ _ h := nomatch h
  annotationTypes _ _ h := nomatch h

theorem mentions_empty (known : PathKey → Prop) (settings : LoadSettings) (files : Files) :
    Mentions known (empty settings files) where
  locations _ _ h := nomatch h
  named _ h := nomatch h
  annotationTypes _ h := nomatch h
  uses _ h := nomatch h

theorem mentions_true (s : Store) : Mentions (fun _ => True) s where
  locations _ _ _ := .inr trivial
  named _ _ := trivial
  annotationTypes _ _ := trivial
  uses _ _ := trivial

/-- A file that was known in `b` or whose loading has begun since. -/
abbrev Extent.Opened {b : Store} (w : Extent b) (known : PathKey → Prop) (k : PathKey) : Prop :=
  known k ∨ w.begun k

section
variable (b : Store) (known : PathKey → Prop) (phase : Phase) (w : Extent b) (s : Store)

/-- The store `s` during a request that began in `b`, or after the request has stopped. Each
unresolved shape that has not failed is in the work list, except for one that was taken from it. -/
structure Since : Prop where
  size : s.shapes.size = w.size
  same : b.SameIndexes s
  ids : ∀ (i : ShapeId) (a : Shape), s.shapes[i]? = some a → a.id = i
  shapes : ∀ (i : ShapeId) (a : Shape), s.shapes[i]? = some a → a.Rel (Below w.size) a
  declared : ∀ (i : ShapeId) (a : Shape), s.shapes[i]? = some a → a.AwaitsDeclared
  parents : ∀ (i : ShapeId) (a : Shape), s.shapes[i]? = some a → a.isUnknown → ∀ j ∈ a.inherits, j < i
  waiting : ∀ (i : ShapeId) (a : Shape), s.shapes[i]? = some a → a.isUnknown →
    i ∈ s.failed ∨ i ∈ s.unresolved ∨ phase = .resolving i
  locations : ∀ (i : ShapeId) (a : Shape), s.shapes[i]? = some a →
    i ∈ s.failed ∨ w.Opened known a.location.key
  concrete : ∀ i, w.resolved i → i < w.size ∧ s.IsResolved i
  queue : ∀ i ∈ s.unresolved, i < w.size
  /-- Of what waited in `b` the work list holds an end. -/
  suffix : s.unresolved.filter (· < b.shapes.size) <:+ b.unresolved
  resolved : ∀ i ∈ s.resolved, i < w.size
  quiet : phase = .binding → s.unresolved = []
  fragments : ∀ k f, Dict.find? k s.fragments = some f → f.IsBelow w.size
  named : ∀ k d, Dict.find? k s.named = some d → w.Opened known k ∧ Dict.Rel (Below w.size) d d
  annotationTypes : ∀ k d, Dict.find? k s.annotationTypes = some d →
    w.Opened known k ∧ Dict.Rel (Below w.size) d d
  uses : ∀ k, Dict.has k s.uses → w.Opened known k

/-- The store `s` during a request that began in `b` and goes on. -/
structure Underway : Prop extends Since b known phase w s where
  failed : s.failed = b.failed
  loading : ∀ k, w.begun k → Dict.has k s.fragments ∨ k ∈ s.loading

end

variable {b s : Store} {known : PathKey → Prop} {phase : Phase} {w : Extent b}

/-- A request begins. -/
theorem Coherent.underway (h : b.Coherent) (hm : Mentions known b) :
    b.Underway known .declaring (.start b) b where
  size := rfl
  same := ⟨fun _ _ => rfl, fun _ _ => rfl, fun _ _ => rfl, fun _ _ => rfl⟩
  ids := h.ids
  shapes := h.shapes
  declared := h.declared
  parents := h.parents
  waiting i a ha hu := (h.waiting i a ha hu).imp_right .inl
  locations i a ha := (hm.locations i a ha).imp_right .inl
  concrete _ hi := hi.elim
  queue := h.queue
  suffix := by
    have hall := List.filter_eq_self.2 fun i hi => decide_eq_true (h.queue i hi)
    exact ⟨[], by rw [hall, List.nil_append]⟩
  resolved := h.resolved
  quiet := nofun
  fragments := h.fragments
  named k d hd := ⟨.inl (hm.named k (Dict.has_iff.2 ⟨d, hd⟩)), h.named k d hd⟩
  annotationTypes k d hd :=
    ⟨.inl (hm.annotationTypes k (Dict.has_iff.2 ⟨d, hd⟩)), h.annotationTypes k d hd⟩
  uses k hk := .inl (hm.uses k hk)
  failed := rfl
  loading _ hk := hk.elim

/-- Each store that a request comes to can be taken for its beginning. -/
theorem Underway.restart (h : b.Underway known phase w s) :
    s.Underway (fun _ => True) phase (.start s) s := by
  have hsize : (Extent.start s).size = w.size := h.size
  exact
  { size := rfl
    same := ⟨fun _ _ => rfl, fun _ _ => rfl, fun _ _ => rfl, fun _ _ => rfl⟩
    ids := h.ids
    shapes := hsize ▸ h.shapes
    declared := h.declared
    parents := h.parents
    waiting := h.waiting
    locations := fun _ _ _ => .inr (.inl trivial)
    concrete := fun _ hi => hi.elim
    queue := hsize ▸ h.queue
    suffix := by
      have hqueue : ∀ i ∈ s.unresolved, i < s.shapes.size := h.size ▸ h.queue
      have hall := List.filter_eq_self.2 fun i hi => decide_eq_true (hqueue i hi)
      exact ⟨[], by rw [hall, List.nil_append]⟩
    resolved := hsize ▸ h.resolved
    quiet := h.quiet
    fragments := hsize ▸ h.fragments
    named := fun k d hd => ⟨.inl trivial, hsize ▸ (h.named k d hd).2⟩
    annotationTypes := fun k d hd => ⟨.inl trivial, hsize ▸ (h.annotationTypes k d hd).2⟩
    uses := fun _ _ => .inl trivial
    failed := rfl
    loading := fun _ hk => hk.elim }

/-- After a request the store is coherent again. -/
theorem Since.coherent (h : b.Since known .declaring w s) (hl : s.loading = [])
    (hi : s.inProgress = []) : s.Coherent where
  loading := hl
  inProgress := hi
  ids := h.ids
  shapes := h.size ▸ h.shapes
  declared := h.declared
  parents := h.parents
  waiting i a ha hu := (h.waiting i a ha hu).imp_right fun hq => hq.resolve_right nofun
  queue := h.size ▸ h.queue
  resolved := h.size ▸ h.resolved
  fragments := h.size ▸ h.fragments
  named k d hd := h.size ▸ (h.named k d hd).2
  annotationTypes k d hd := h.size ▸ (h.annotationTypes k d hd).2

/-- A request of the store `b` as a run of its own: the numbers of shapes stand for themselves. -/
def since (b : Store) (known : PathKey → Prop) (phase : Phase) : Comparison where
  World := Extent b
  order := inferInstance
  stores w s t := s = t ∧ b.Underway known phase w s
  stopped _ s t := s = t ∧ ∃ w, b.Since known phase w s
  final _ := True
  excused _ := False
  ignored _ := False
  ids w := Below w.size
  fresh w := Below w.size
  done w i j := Below w.size i j ∧ w.resolved i
  begun w p := w.Opened known p.key
  target _ := True
  linked _ _ := True
  bound w := AnnotationUse.Rel (Below w.size)
  stopped_of_stores _ h := ⟨h.1, _, h.2.toSince⟩
  stopped_fault h := h
  final_of_grows _ _ := trivial
  excused_fault h := h
  ignored_fault h := h
  ids_mono h := .mono h.1
  fresh_mono h := .mono h.1
  done_mono h h' := ⟨h'.1.mono h.1, h.2.2 _ h'.2⟩
  begun_mono h := .imp_right (h.2.1 _)
  linked_mono _ h := h
  bound_mono h := .mono fun _ _ => .mono h.1
  ids_of_fresh h := h
  bound_of_rel h := h

end Store

end RamlTypes
