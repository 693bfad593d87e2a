import Mathlib.Data.List.Basic
import RamlTypes.Resolution.Resolve

/-!
# The work that is left

Resolution uses up unresolved shapes, but declares new ones and reads files on the way. What it may
still come to is bounded by `Store.debt`: the weights of the shapes that can be resolved and of the
files that can be read. `Store.work` adds the length of the work list. Reading a file pays for what
the file declares, and beginning to resolve a shape for what the raw facets of the shape declare, so
neither grows.
-/

namespace RamlTypes

section
variable {α β : Type} {w v : α → Nat} {l : List α}

/-- The weight of the images is that of the members under the composition. -/
theorem totalWeight_map (w : β → Nat) (f : α → β) (l : List α) :
    totalWeight w (l.map f) = totalWeight (fun a => w (f a)) l :=
  List.foldr_map

/-- The weight of a list is that of its head and its rest. -/
theorem totalWeight_cons (w : α → Nat) (a : α) (l : List α) :
    totalWeight w (a :: l) = w a + totalWeight w l := rfl

/-- The weight of a list grows with the weights of its members. -/
theorem totalWeight_le (h : ∀ a ∈ l, w a ≤ v a) : totalWeight w l ≤ totalWeight v l := by
  induction l with
  | nil => exact Nat.le_refl _
  | cons a l ih =>
    rw [List.forall_mem_cons] at h
    exact Nat.add_le_add h.1 (ih h.2)

/-- What one element loses, the list loses. -/
theorem totalWeight_add_le {a : α} {d : Nat} (ha : a ∈ l) (hd : w a + d ≤ v a)
    (h : ∀ b ∈ l, w b ≤ v b) : totalWeight w l + d ≤ totalWeight v l := by
  induction l with
  | nil => cases ha
  | cons b l ih =>
    rw [List.forall_mem_cons] at h
    rw [totalWeight_cons, totalWeight_cons]
    rcases List.mem_cons.1 ha with rfl | ha
    · have hrest := totalWeight_le h.2
      omega
    · have hrest := ih ha h.2
      have hb := h.1
      omega

/-- The weight of a list, position by position. -/
theorem totalWeight_range_le (w : Nat → Nat) (v : α → Nat) : ∀ (l : List α),
    (∀ i a, l[i]? = some a → w i ≤ v a) →
    totalWeight w (List.range l.length) ≤ totalWeight v l := by
  intro l
  induction l generalizing w with
  | nil => exact fun _ => Nat.le_refl _
  | cons a l ih =>
    intro h
    rw [List.length_cons, List.range_succ_eq_map, totalWeight_cons, totalWeight_cons,
      totalWeight_map]
    refine Nat.add_le_add (h 0 a rfl) ?_
    exact ih (fun i => w (i + 1)) fun i b hb => h (i + 1) b hb

end

/-- A resolved shape weighs nothing. -/
theorem Shape.weight_of_not_isUnknown {a : Shape} (h : a.isUnknown = false) : a.weight = 0 := by
  rw [Shape.isUnknown, Option.isSome_eq_false_iff, Option.isNone_iff_eq_none] at h
  rw [weight, h]

/-- A shape that waits weighs itself and its raw facets. -/
theorem Shape.weight_of_pending {a : Shape} {p : Pending} (h : a.body.pending? = some p) :
    a.weight = 1 + facetsWeight p.facets := by
  rw [weight, h]

/-- What the place of a shape in the work list adds to its weight. -/
def Shape.price (a : Shape) : Nat :=
  (if a.isUnknown then 1 else 0) + a.weight

/-- A resolved shape costs nothing to be stored. -/
theorem Shape.price_of_not_isUnknown {a : Shape} (h : a.isUnknown = false) : a.price = 0 := by
  rw [price, h, weight_of_not_isUnknown h]
  rfl

namespace Store

/-- The file is neither cached nor being read. -/
def isFree (s : Store) (k : PathKey) : Bool :=
  !Dict.has k s.fragments && !s.loading.contains k

/-- The weight of the shape with a number, if its resolution can begin. -/
def slotWeight (s : Store) (i : ShapeId) : Nat :=
  if s.isFailed i || s.isInProgress i then 0 else (s.shapes[i]?.map Shape.weight).getD 0

/-- The weight of a file, if it can be read. -/
def entryWeight (s : Store) (entry : PathKey × Except ReadFailure String) : Nat :=
  if s.isFree entry.1 then fileWeight entry.2 else 0

/-- A bound on the number of resolutions that can still begin. -/
def debt (s : Store) : Nat :=
  totalWeight s.slotWeight (List.range s.shapes.size) + totalWeight s.entryWeight s.files.known

/-- A bound on the number of shapes that can still be taken from the work list. -/
def work (s : Store) : Nat := s.unresolved.length + s.debt

/-- The readable files that are neither cached nor being read. -/
def unread (s : Store) : List (PathKey × Except ReadFailure String) :=
  s.files.known.filter fun entry => entry.2.isOk && s.isFree entry.1

variable {s t : Store}

/-- A file is free as long as it is neither cached nor being loaded. -/
theorem isFree_iff {k : PathKey} :
    s.isFree k ↔ ¬ Dict.has k s.fragments ∧ k ∉ s.loading := by
  simp [isFree]

/-- A slot weighs at most what its shape weighs: less when the shape is in progress or has failed.
-/
theorem slotWeight_le_weight {i : ShapeId} {a : Shape} (h : s.shapes[i]? = some a) :
    s.slotWeight i ≤ a.weight := by
  rw [slotWeight, h]
  split
  · exact Nat.zero_le _
  · exact Nat.le_refl _

/-- The debt does not count more than the potential. -/
theorem debt_le_potential (ids : ∀ (i : ShapeId) (a : Shape), s.shapes[i]? = some a → a.id = i) :
    s.debt ≤ s.potential := by
  refine Nat.add_le_add ?_ (totalWeight_le fun entry _ => ?_)
  · rw [← Array.length_toList]
    refine totalWeight_range_le _ _ _ fun i a ha => ?_
    rw [Array.getElem?_toList] at ha
    rw [shapeWeight, ids i a ha]
    split
    · next hf =>
      rw [slotWeight, hf]
      exact Nat.le_refl _
    · exact slotWeight_le_weight ha
  · rw [entryWeight]
    split
    · exact Nat.le_refl _
    · exact Nat.zero_le _

/-- There are fewer unread files than a load can be deep. -/
theorem length_unread_lt_loadDepth (s : Store) : s.unread.length < s.loadDepth :=
  Nat.lt_succ_of_le (List.length_filter_le _ _)

/-! ## What changes of a store do to the work -/

/-- Nothing can be done in `t` that could not be done in `s`. -/
structure Settles (s t : Store) : Prop where
  size : t.shapes.size = s.shapes.size
  slots : ∀ i, t.slotWeight i ≤ s.slotWeight i
  files : t.files = s.files
  free : ∀ k, t.isFree k → s.isFree k
  queue : t.unresolved = s.unresolved

namespace Settles

/-- No change settles. -/
theorem refl (s : Store) : s.Settles s := ⟨rfl, fun _ => Nat.le_refl _, rfl, fun _ h => h, rfl⟩

section
variable (h : s.Settles t)
include h

/-- A file owes no more after settling. -/
theorem entryWeight_le (entry : PathKey × Except ReadFailure String) :
    t.entryWeight entry ≤ s.entryWeight entry := by
  rw [entryWeight, entryWeight]
  split
  · next hk => exact Nat.le_of_eq (if_pos (h.free _ hk)).symm
  · exact Nat.zero_le _

/-- So the debt does not grow. -/
theorem debt_le : t.debt ≤ s.debt := by
  rw [debt, debt, h.size, h.files]
  exact Nat.add_le_add (totalWeight_le fun i _ => h.slots i)
    (totalWeight_le fun e _ => h.entryWeight_le e)

/-- Nor does the work. -/
theorem work_le : t.work ≤ s.work := by
  rw [work, work, h.queue]
  exact Nat.add_le_add_left h.debt_le _

/-- And no file becomes unread. -/
theorem unread_sublist : t.unread.Sublist s.unread := by
  rw [unread, unread, h.files]
  refine List.monotone_filter_right _ fun e he => ?_
  rw [Bool.and_eq_true] at he ⊢
  exact ⟨he.1, h.free _ he.2⟩

/-- A shape whose resolution can begin no more is settled with all that may come from it. -/
theorem work_add_slotWeight_le {i : ShapeId} (hi : t.slotWeight i = 0) (hlt : i < s.shapes.size) :
    t.work + s.slotWeight i ≤ s.work := by
  have hslots : totalWeight t.slotWeight (List.range s.shapes.size) + s.slotWeight i ≤
      totalWeight s.slotWeight (List.range s.shapes.size) :=
    totalWeight_add_le (List.mem_range.2 hlt) (by omega) fun j _ => h.slots j
  have hentries : totalWeight t.entryWeight s.files.known ≤
      totalWeight s.entryWeight s.files.known :=
    totalWeight_le fun e _ => h.entryWeight_le e
  rw [work, work, debt, debt, h.queue, h.size, h.files]
  omega

/-- A file that can be read no more is settled with all that may come from it. -/
theorem work_add_textWeight_le {k : PathKey} {text : String} (hk : (k, .ok text) ∈ s.files.known)
    (hs : s.isFree k) (ht : ¬ t.isFree k) : t.work + textWeight text ≤ s.work := by
  have hslots : totalWeight t.slotWeight (List.range s.shapes.size) ≤
      totalWeight s.slotWeight (List.range s.shapes.size) :=
    totalWeight_le fun j _ => h.slots j
  have hentries : totalWeight t.entryWeight s.files.known + textWeight text ≤
      totalWeight s.entryWeight s.files.known := by
    refine totalWeight_add_le hk ?_ fun e _ => h.entryWeight_le e
    rw [entryWeight, entryWeight, if_neg ht, if_pos hs, Nat.zero_add]
    exact Nat.le_refl _
  rw [work, work, debt, debt, h.queue, h.size, h.files]
  omega

/-- It is no longer among the unread ones. -/
theorem length_unread_lt {k : PathKey} {text : String} (hk : (k, .ok text) ∈ s.files.known)
    (hs : s.isFree k) (ht : ¬ t.isFree k) : t.unread.length < s.unread.length := by
  refine Nat.lt_of_le_of_ne h.unread_sublist.length_le fun heq => ht ?_
  have hmem : (k, .ok text) ∈ s.unread :=
    List.mem_filter.2 ⟨hk, by simpa [Except.isOk, Except.toBool] using hs⟩
  rw [← h.unread_sublist.eq_of_length heq, unread, List.mem_filter, Bool.and_eq_true] at hmem
  exact hmem.2.2

end

/-- A change of shapes that leaves their bodies. -/
theorem mapShape (s : Store) (i : ShapeId) {f : Shape → Shape} (hf : ∀ a, (f a).body = a.body) :
    s.Settles (s.mapShape i f) where
  size := s.size_mapShape i f
  slots j := by
    have hweight (a : Shape) : (f a).weight = a.weight := by rw [Shape.weight, Shape.weight, hf]
    have hslot : ((s.mapShape i f).shapes[j]?).map Shape.weight =
        s.shapes[j]?.map Shape.weight := by
      rw [getElem?_mapShape]
      split
      · rw [Option.map_map]
        exact congrArg (Option.map · _) (funext hweight)
      · rfl
    rw [slotWeight, slotWeight, hslot]
    exact Nat.le_refl _
  files := rfl
  free _ h := h
  queue := rfl

end Settles

/-- A shape that is added brings its weight, and a place in the work list if it is unresolved. -/
theorem work_addShape_le (s : Store) (a : Shape) : (s.addShape a).work ≤ s.work + a.price := by
  have hold : totalWeight (s.addShape a).slotWeight (List.range s.shapes.size) ≤
      totalWeight s.slotWeight (List.range s.shapes.size) := by
    refine totalWeight_le fun i hi => ?_
    rw [slotWeight, slotWeight, getElem?_addShape, if_neg (Nat.ne_of_lt (List.mem_range.1 hi))]
    exact Nat.le_refl _
  have hnew : (s.addShape a).slotWeight s.shapes.size ≤ a.weight :=
    slotWeight_le_weight (a := { a with id := s.shapes.size })
      (by rw [getElem?_addShape, if_pos rfl])
  have hsize : (s.addShape a).shapes.size = s.shapes.size + 1 := Array.size_push _
  have hqueue : (s.addShape a).unresolved.length =
      s.unresolved.length + if a.isUnknown then 1 else 0 := by
    rw [addShape]
    dsimp only
    split
    · rw [List.length_append, List.length_singleton]
    · rfl
  have hentries : totalWeight (s.addShape a).entryWeight (s.addShape a).files.known =
      totalWeight s.entryWeight s.files.known := rfl
  rw [work, work, debt, debt, hentries, hqueue, hsize, List.range_succ, totalWeight_append,
    totalWeight_cons, Shape.price]
  have hnil : totalWeight (s.addShape a).slotWeight [] = 0 := rfl
  omega

end Store

end RamlTypes
