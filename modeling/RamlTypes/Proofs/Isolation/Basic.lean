import RamlTypes.Proofs.ClosedWorld.Basic
import RamlTypes.Proofs.NormalForm

/-!
# A load on top of other loads

The same load is made twice: of a store in which nothing is loaded, and of a settled store `b`.
`Store.OnTop` says how the two stores `t` and `s` correspond while the loads go on: `s` holds all
that `b` holds, and beyond it what `t` holds, with the numbers of the shapes shifted by the number of
shapes of `b`. The second load must not read a file that `b` has cached as a fragment, and of the files
that `b` has cached as examples only those that have not changed.
-/

namespace RamlTypes

/-- What a load has done: the number of shapes that it has stored, and those that are resolved. -/
structure Progress where
  size : Nat
  resolved : ShapeId → Prop

namespace Progress

instance : Preorder Progress where
  le w w' := w.size ≤ w'.size ∧ ∀ j, w.resolved j → w'.resolved j
  le_refl _ := ⟨Nat.le_refl _, fun _ h => h⟩
  le_trans _ _ _ h h' := ⟨Nat.le_trans h.1 h'.1, fun j hj => h'.2 j (h.2 j hj)⟩

variable (w : Progress)

/-- One more shape. -/
def grow : Progress := { w with size := w.size + 1 }

theorem le_grow : w ≤ w.grow := ⟨Nat.le_succ _, fun _ h => h⟩

/-- One more shape is resolved. -/
def settle (j : ShapeId) : Progress := { w with resolved := fun k => k = j ∨ w.resolved k }

theorem le_settle (j : ShapeId) : w ≤ w.settle j := ⟨Nat.le_refl _, fun _ => .inr⟩

end Progress

/-- The example is what the file with the key `k` has, as it is read under its normal form. -/
def Files.HasExample (fs : Files) (root : Path) (k : PathKey) (e : ExampleFile) : Prop :=
  ∀ p : Path, p.IsNormal root → p.key = k →
    ∃ text, fs.read p = .ok text ∧ ExampleFile.read p text = .ok e

namespace Store

variable (b : Store)

/-- The number of a shape on top of `b`, and its number without `b`. -/
def Shifted (n : Nat) (i j : ShapeId) : Prop := i = b.shapes.size + j ∧ j < n

variable {b}

theorem Shifted.mono {n m : Nat} (h : n ≤ m) {i j : ShapeId} (hij : b.Shifted n i j) :
    b.Shifted m i j :=
  ⟨hij.1, Nat.lt_of_lt_of_le hij.2 h⟩

variable (b)

/-- A path in normal form that `b` does not know. -/
def IsForeign (p : Path) : Prop := p.IsNormal b.settings.root ∧ ¬ Dict.has p.key b.fragments

/-- The shape `a` on top of `b`, and the same shape `c` without `b`. -/
structure IsTwin (n : Nat) (j : ShapeId) (a c : Shape) : Prop where
  rel : a.Rel (b.Shifted n) c
  id : a.id = b.shapes.size + j
  id' : c.id = j
  foreign : b.IsForeign c.location
  link : ∀ p ∈ c.link, b.IsForeign p

/-- The shapes and the diagnostics of `s` are those of `b`, followed by those of `t`. -/
structure Appended (s t : Store) : Prop where
  size : s.shapes.size = b.shapes.size + t.shapes.size
  old : ∀ i < b.shapes.size, s.shapes[i]? = b.shapes[i]?
  shapes : ∀ (j : ShapeId) (c : Shape), t.shapes[j]? = some c →
    ∃ a, s.shapes[b.shapes.size + j]? = some a ∧ b.IsTwin t.shapes.size j a c
  diagnostics : s.diagnostics = b.diagnostics ++ t.diagnostics

/-- An index of files has the same entries, up to the numbers of shapes, for the files that `b` does
not know. -/
abbrev SameIndex {α : Type} (S : α → α → Prop) (d e : Dict PathKey α) : Prop :=
  ∀ k, ¬ Dict.has k b.fragments → Option.Rel S (Dict.find? k d) (Dict.find? k e)

/-- The store `s` is what `t` is, on top of the store `b`. -/
structure OnTop (w : Progress) (s t : Store) : Prop extends b.Appended s t where
  size' : t.shapes.size = w.size
  settings : s.settings = b.settings
  settings' : t.settings = b.settings
  files : t.files = s.files
  files_eq : s.files = b.files
  failed : s.failed = b.failed
  failed' : t.failed = []
  bound : s.annotationsBound = b.annotationsBound
  bound' : t.annotationsBound = 0
  resolved : ∀ j, w.resolved j → j < w.size ∧ t.IsResolved j
  unresolved : s.unresolved = t.unresolved.map (b.shapes.size + ·)
  queue : ∀ j ∈ t.unresolved, j < w.size
  inProgress : s.inProgress = t.inProgress.map (b.shapes.size + ·)
  loading : t.loading = s.loading
  loading_foreign : ∀ k ∈ t.loading, ¬ Dict.has k b.fragments
  fragments : b.SameIndex (Fragment.Rel (b.Shifted w.size) (AnnotationUse.Rel (b.Shifted w.size)))
    s.fragments t.fragments
  foreign : ∀ k, Dict.has k b.fragments → Dict.find? k t.fragments = none
  named : b.SameIndex (Dict.Rel (b.Shifted w.size)) s.named t.named
  annotationTypes : b.SameIndex (Dict.Rel (b.Shifted w.size)) s.annotationTypes t.annotationTypes
  uses : ∀ k, ¬ Dict.has k b.fragments → Dict.find? k t.uses = Dict.find? k s.uses
  targets : ∀ k d l p, Dict.find? k t.uses = some d → Dict.find? l d = some p → b.IsForeign p
  examples : ∀ k, ¬ Dict.has k b.examples → Dict.find? k s.examples = Dict.find? k t.examples
  cachedExamples : ∀ k e, Dict.find? k b.examples = some e → Dict.find? k s.examples = some e ∧
    (Dict.find? k t.examples = none ∨ Dict.find? k t.examples = some e)

/-- Loads on top of `b`, and without it. The second one reads no file that `b` has cached as a fragment,
and none that `b` has cached as an example and that has changed. -/
def onTop : Comparison where
  World := Progress
  order := inferInstance
  stores := b.OnTop
  stopped _ := b.Appended
  final t := ∀ k, Dict.has k t.reads → ¬ Dict.has k b.fragments ∧
    ∀ e, Dict.find? k b.examples = some e → b.files.HasExample b.settings.root k e
  excused _ := False
  ignored _ := False
  ids w := b.Shifted w.size
  fresh w := b.Shifted w.size
  done w i j := b.Shifted w.size i j ∧ w.resolved j
  begun _ := b.IsForeign
  target p := p.IsNormal b.settings.root
  linked _ := b.IsForeign
  bound w := AnnotationUse.Rel (b.Shifted w.size)
  stopped_of_stores _ h := h.toAppended
  stopped_fault h := h
  final_of_grows h hf k hk := hf k (h.reads k hk)
  excused_fault h := h
  ignored_fault h := h
  ids_mono h := .mono h.1
  fresh_mono h := .mono h.1
  done_mono h hij := ⟨hij.1.mono h.1, h.2 _ hij.2⟩
  begun_mono _ h := h
  linked_mono _ h := h
  bound_mono h := .mono fun _ _ => .mono h.1
  ids_of_fresh h := h
  bound_of_rel h := h

variable {b}

/-- The load begins on both sides. -/
theorem Settled.onTop (h : b.Settled) : b.OnTop ⟨0, fun _ => False⟩ b (.empty b.settings b.files) where
  size := rfl
  old _ _ := rfl
  shapes _ _ hc := nomatch hc
  diagnostics := (List.append_nil _).symm
  size' := rfl
  settings := rfl
  settings' := rfl
  files := rfl
  files_eq := rfl
  failed := rfl
  failed' := rfl
  bound := rfl
  bound' := rfl
  resolved _ hj := hj.elim
  unresolved := h.unresolved
  queue _ hj := nomatch hj
  inProgress := h.inProgress
  loading := h.loading.symm
  loading_foreign _ hk := nomatch hk
  fragments k hk := by
    rw [Dict.find?_eq_none_iff.2 hk]
    exact .none
  foreign _ _ := rfl
  named k hk := by
    rcases hd : Dict.find? k b.named with _ | d
    · exact .none
    · exact absurd (h.named k d hd).1 hk
  annotationTypes k hk := by
    rcases hd : Dict.find? k b.annotationTypes with _ | d
    · exact .none
    · exact absurd (h.annotationTypes k d hd).1 hk
  uses k hk := (Dict.find?_eq_none_iff.2 fun hu => hk (h.uses k hu)).symm
  targets _ _ _ _ hd := nomatch hd
  examples _ hk := Dict.find?_eq_none_iff.2 hk
  cachedExamples _ _ he := ⟨he, .inl rfl⟩

end Store

end RamlTypes
