import RamlTypes.Resolution.Resolve

/-!
# Loading with resolution

`Load.load` loads a fragment and, where loads are eager, resolves all that waits. A load that fails
leaves a store in which the other fragments can still be used: the fragments that it was the first
to load are forgotten, and its shapes have failed.
-/

namespace RamlTypes

/-- Drops the entries of the files that have no entry in `known`. -/
def Store.keepKnown {α : Type} (known : List PathKey) (d : Dict PathKey α) : Dict PathKey α :=
  d.filter fun entry => known.contains entry.1

/-- Only the files in `known` keep their entries. -/
theorem Store.find?_keepKnown {α : Type} (known : List PathKey) (d : Dict PathKey α) (k : PathKey) :
    Dict.find? k (keepKnown known d) = if k ∈ known then Dict.find? k d else none := by
  induction d with
  | nil => simp [keepKnown]
  | cons entry rest ih =>
    obtain ⟨k', v⟩ := entry
    rw [keepKnown] at ih ⊢
    by_cases hk' : k' ∈ known
    · rw [List.filter_cons_of_pos (by simpa using hk'), Dict.find?, Dict.find?, ih]
      split
      · next heq => rw [if_pos (heq ▸ hk')]
      · rfl
    · rw [List.filter_cons_of_neg (by simpa using hk'), ih, Dict.find?]
      split
      · next hk =>
        rw [if_neg]
        rintro rfl
        exact hk' hk
      · rfl

/-- What is left of a store when the action failed that began with the store `before`. -/
def Store.rollback (s before : Store) : Store :=
  let mark := before.shapes.size
  let known := Dict.keys before.fragments
  let discarded := (List.range s.shapes.size).drop mark
  { s with
    failed := discarded.filter (fun id => !s.isFailed id) ++ s.failed
    unresolved := s.unresolved.filter (· < mark)
    resolved := s.resolved.filter (· < mark)
    fragments := Store.keepKnown known s.fragments
    named := Store.keepKnown known s.named
    annotationTypes := Store.keepKnown known s.annotationTypes
    uses := Store.keepKnown known s.uses }

/-- Besides the shapes that had failed, those have failed that were added. -/
theorem Store.mem_failed_rollback {s before : Store} {i : Nat} :
    i ∈ (s.rollback before).failed ↔ i ∈ s.failed ∨ before.shapes.size ≤ i ∧ i < s.shapes.size := by
  have hrange : i ∈ (List.range s.shapes.size).drop before.shapes.size ↔
      before.shapes.size ≤ i ∧ i < s.shapes.size := by
    rw [List.range_eq_range', List.drop_range', List.mem_range'_1]
    omega
  rw [rollback, List.mem_append, List.mem_filter, hrange, isFailed, List.contains_eq_mem,
    Bool.not_eq_true', decide_eq_false_iff_not]
  by_cases hf : i ∈ s.failed
  · simp only [hf, or_true, true_or]
  · simp only [hf, not_false_eq_true, and_true, or_false, false_or]

namespace Load

variable {α : Type}

/-- Runs an action that leaves nothing of itself behind when it fails. -/
def orRollback (x : Load α) (s : Store) : Except Stop α × Store :=
  match x s with
  | (.error e, s') => (.error e, s'.rollback s)
  | r => r

theorem orRollback_settings (x : Load α) (s : Store) : (orRollback x s).2.settings = s.settings := by
  have hgrows := x.grows s
  rw [orRollback]
  generalize x s = r at hgrows ⊢
  rcases r with ⟨_ | a, t⟩ <;> exact hgrows.settings

theorem orRollback_files (x : Load α) (s : Store) : (orRollback x s).2.files = s.files := by
  have hgrows := x.grows s
  rw [orRollback]
  generalize x s = r at hgrows ⊢
  rcases r with ⟨_ | a, t⟩ <;> exact hgrows.files

/-- Loads a fragment without resolving anything. -/
def parse (p : Path) : Store → Except Stop Fragment × Store :=
  orRollback (fragment p)

/-- Resolves everything that waits if loads are eager. -/
def resolveIfEager : Load Unit := do
  if ← ask (·.settings.eagerResolution) then resolveAll

/-- Loads a fragment and, if loads are eager, resolves everything that waits. -/
def load (p : Path) : Store → Except Stop Fragment × Store :=
  orRollback do
    let f ← fragment p
    resolveIfEager
    return f

end Load

end RamlTypes
