import RamlTypes.Proofs.Displacement
import RamlTypes.Proofs.Isolation.Basic
import RamlTypes.Proofs.Reads.Basic

/-!
# Runs beside what another load has added

The same requests are made of two stores: one in which a load that is going to fail, or has failed, has
added shapes and has cached files, and one in which that load was never made. `Store.Despite` says how
the two stores `s` and `t` correspond as long as the second run caches none of these files. Only second
runs that succeed are compared: in `s` a file may be cached that the second run tries to read in vain.
-/

namespace RamlTypes

/-- What a load has added to a store. -/
structure Residue where
  /-- The number of shapes before the load. -/
  mark : Nat
  /-- The number of shapes that the load has stored. -/
  size : Nat
  /-- Those of them that wait. -/
  waiting : List ShapeId
  /-- The files that the load has cached. -/
  files : Purpose → PathKey → Prop

namespace Residue

variable (r : Residue)

/-- The number of a shape beside what was added, and its number without that. -/
def Moved (n : Nat) (i j : ShapeId) : Prop := Store.Displaced r.mark r.size i j ∧ j < n

/-- Files that the load has not cached as fragments. -/
abbrev Spares (p : Path) : Prop := ¬ r.files .fragment p.key

variable {r}

theorem Moved.mono {n m : Nat} (h : n ≤ m) {i j : ShapeId} (hij : r.Moved n i j) : r.Moved m i j :=
  ⟨hij.1, Nat.lt_of_lt_of_le hij.2 h⟩

/-- Different shapes have different numbers on both sides. -/
theorem displace_inj {n k i j : Nat} (h : displace n k i = displace n k j) : i = j := by
  rw [displace, displace] at h
  split at h <;> split at h <;> omega

end Residue

/-- Related fragments, whatever their annotations are bound to. -/
abbrev Fragment.Resembles (R : ShapeId → ShapeId → Prop) (f g : Fragment) : Prop :=
  f.Rel R (fun _ _ => True) g

namespace Store

variable (r : Residue)

/-- The shape `a` beside the residue, and the same shape `c` without it. -/
structure IsMoved (n : Nat) (j : ShapeId) (a c : Shape) : Prop where
  rel : a.Rel (r.Moved n) c
  id : a.id = displace r.mark r.size j
  id' : c.id = j

/-- The store `s` is what `t` is, beside the residue of a load. -/
structure Despite (w : Progress) (s t : Store) : Prop where
  size : s.shapes.size = t.shapes.size + r.size
  size' : t.shapes.size = w.size
  mark_le : r.mark ≤ w.size
  shapes : ∀ (j : ShapeId) (c : Shape), t.shapes[j]? = some c →
    ∃ a, s.shapes[displace r.mark r.size j]? = some a ∧ IsMoved r w.size j a c
  located : ∀ (j : ShapeId) (c : Shape), t.shapes[j]? = some c → j ∈ t.failed ∨ r.Spares c.location
  root : t.settings.root.isAbsolute
  settings : t.settings = s.settings
  sources : t.files = s.files
  loading : t.loading = s.loading
  inProgress : s.inProgress = t.inProgress.map (displace r.mark r.size)
  failed : ∀ j, displace r.mark r.size j ∈ s.failed ↔ j ∈ t.failed
  bound : s.annotationsBound = t.annotationsBound
  resolved : ∀ j, w.resolved j → j < w.size ∧ t.IsResolved j
  /-- What waited before the load comes first, then what the load has added. -/
  queue : ∃ old new, t.unresolved = old ++ new ∧
    s.unresolved = old ++ (r.waiting ++ new.map (displace r.mark r.size)) ∧
    (∀ j ∈ old, j < r.mark) ∧ ∀ j ∈ new, r.mark ≤ j ∧ j < w.size
  fragments : ∀ k, ¬ r.files .fragment k → Option.Rel (Fragment.Resembles (r.Moved w.size))
    (Dict.find? k s.fragments) (Dict.find? k t.fragments)
  named : ∀ k, ¬ r.files .fragment k → Option.Rel (Dict.Rel (r.Moved w.size))
    (Dict.find? k s.named) (Dict.find? k t.named)
  uses : ∀ k, ¬ r.files .fragment k → Dict.find? k t.uses = Dict.find? k s.uses
  examples : ∀ k, ¬ r.files .exampleFile k → Dict.find? k t.examples = Dict.find? k s.examples
  cached : ∀ k, r.files .fragment k → Dict.has k s.fragments
  fragments_none : ∀ k, r.files .fragment k → Dict.find? k t.fragments = none
  named_none : ∀ k, r.files .fragment k → Dict.find? k t.named = none
  examples_none : ∀ k, r.files .exampleFile k → Dict.find? k t.examples = none

/-- Runs beside the residue of a load and without it. A second run that stops is not compared, and none
that caches a file that the load has cached. -/
def despite : Comparison where
  World := Progress
  order := inferInstance
  stores := Despite r
  stopped _ _ _ := True
  final t := ∀ u k, r.files u k → ¬ t.isCached u k
  excused e := e = .exhausted
  ignored _ := True
  ids w := r.Moved w.size
  fresh w := r.Moved w.size
  done w i j := r.Moved w.size i j ∧ w.resolved j
  begun _ := r.Spares
  target _ := True
  linked _ _ := True
  bound _ _ _ := True
  stopped_of_stores _ _ := trivial
  stopped_fault _ := trivial
  final_of_grows h hf u k hk hc := hf u k hk (h.isCached hc)
  excused_fault h := exhausted_of_fault h
  ignored_fault h := h
  ids_mono h := .mono h.1
  fresh_mono h := .mono h.1
  done_mono h hij := ⟨hij.1.mono h.1, h.2 _ hij.2⟩
  begun_mono _ h := h
  linked_mono _ h := h
  bound_mono _ h := h
  ids_of_fresh h := h
  bound_of_rel _ := trivial

end Store

end RamlTypes
