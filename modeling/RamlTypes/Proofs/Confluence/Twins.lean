import RamlTypes.Proofs.Confluence.Settlings

/-!
# The shapes of two runs that stand for each other

Two runs that begin in the same store number the shapes that they store in different orders. A shape
of the one stands for a shape of the other if both have been stored at the same place: for the same
file, or for declarations of shapes that stand for each other (`Twin`). A shape stands for at most
one (`Settlings.twin_unique`).
-/

namespace RamlTypes

open Store

variable {settings : LoadSettings}

namespace Settling

variable (e : Settling settings)

/-- The shapes of the file `k` that were stored by the evaluation, in their order. -/
def stored (k : PathKey) : List ShapeId := e.stop.within e.start.shapes.size k

/-- The evaluation has loaded the file `k`. -/
def Caches (k : PathKey) : Prop := ¬ Dict.has k e.start.fragments ∧ Dict.has k e.stop.fragments

variable {e} {i : ShapeId} {k : PathKey}

/-- What a step has stored in a file. -/
theorem mem_stored : i ∈ e.stored k ↔ e.start.shapes.size ≤ i ∧ e.stop.fileOf? i = some k :=
  mem_within

/-- It has been stored where the step ends. -/
theorem lt_of_mem_stored (h : i ∈ e.stored k) : i < e.stop.shapes.size :=
  lt_of_fileOf? (mem_stored.1 h).2

/-- The file of the shape that settles is cached. -/
theorem home_cached (e : Settling settings) : Dict.has e.shape.location.key e.start.fragments :=
  e.ready.cached (e.ready.tracked.locations _ _ e.found).2

/-- A shape that was stored lies in the file of the declaration, or in one that was loaded. -/
theorem cases_of_stored (hroot : settings.root.isAbsolute) (hle : e.start.shapes.size ≤ i)
    (hlt : i < e.stop.shapes.size) :
    ∃ k, i ∈ e.stored k ∧ (k = e.shape.location.key ∨ e.Caches k) := by
  have ha := Array.getElem?_eq_getElem hlt
  refine ⟨_, mem_stored.2 ⟨hle, fileOf?_eq_some.2 ⟨_, ha, rfl⟩⟩, ?_⟩
  refine ((e.frame hroot).new i _ hle ha).imp_right fun hnot => ⟨fun hk => hnot (.inl hk), ?_⟩
  refine ((e.frame hroot).tracked.locations i _ ha).2.resolve_right fun hmem => ?_
  rw [(e.frame hroot).loading, e.ready.loading] at hmem
  cases hmem

end Settling

/-- A shape of a run that has settled the shapes `es` since the store `s`, and one of a run that has
settled `es'`, which stand for each other. -/
inductive Twin (s : Store) (es es' : List (Settling settings)) : ShapeId → ShapeId → Prop
  | old {i : ShapeId} (hi : i < s.shapes.size) : Twin s es es' i i
  | file {e e' : Settling settings} {k : PathKey} {n : Nat} {i j : ShapeId} (he : e ∈ es)
      (he' : e' ∈ es') (caches : e.Caches k) (caches' : e'.Caches k)
      (left : (e.stored k)[n]? = some i) (right : (e'.stored k)[n]? = some j) : Twin s es es' i j
  | own {e e' : Settling settings} {n : Nat} {i j : ShapeId} (he : e ∈ es) (he' : e' ∈ es')
      (twin : Twin s es es' e.id e'.id) (left : (e.stored e.shape.location.key)[n]? = some i)
      (right : (e'.stored e'.shape.location.key)[n]? = some j) : Twin s es es' i j

variable {s t t' : Store} {es es' : List (Settling settings)} {i j j' : ShapeId}

/-- Twins stand for each other both ways. -/
theorem Twin.swap (h : Twin s es es' i j) : Twin s es' es j i := by
  induction h with
  | old hi => exact .old hi
  | file he he' hk hk' hi hj => exact .file he' he hk' hk hj hi
  | own he he' _ hi hj ih => exact .own he' he ih hj hi

/-- An old shape, or one that a settling of the first run has stored. -/
theorem Twin.cases_left (h : Twin s es es' i j) :
    i < s.shapes.size ∨ ∃ e ∈ es, ∃ k, i ∈ e.stored k := by
  cases h with
  | old hi => exact .inl hi
  | file he _ _ _ hi _ => exact .inr ⟨_, he, _, List.mem_of_getElem? hi⟩
  | own he _ _ hi _ => exact .inr ⟨_, he, _, List.mem_of_getElem? hi⟩

/-- A shape is stored at one place. -/
theorem eq_of_getElem?_stored {e e' : Settling settings} {k l : PathKey} {n m : Nat}
    (hi : (e.stored k)[n]? = some i) (hi' : (e.stored k)[m]? = some i)
    (hj : (e'.stored l)[n]? = some j) (hj' : (e'.stored l)[m]? = some j') : j = j' := by
  have hlt := (List.getElem?_eq_some_iff.1 hi).1
  obtain rfl := (List.getElem?_inj hlt (nodup_within _ _ _)).1 (hi.trans hi'.symm)
  exact Option.some.inj (hj.symm.trans hj')

section
variable (hroot : settings.root.isAbsolute) (h : s.Settlings es t)
include hroot h

/-- A shape is stored by one settling, and lies in one file. -/
theorem Store.Settlings.eq_of_mem_stored {e e' : Settling settings} {k l : PathKey} (he : e ∈ es)
    (he' : e' ∈ es) (hi : i ∈ e.stored k) (hi' : i ∈ e'.stored l) : e = e' ∧ k = l := by
  have hle := (Settling.mem_stored.1 hi).1
  have hle' := (Settling.mem_stored.1 hi').1
  obtain rfl := h.eq_of_stored hroot he he' hle (Settling.lt_of_mem_stored hi) hle'
    (Settling.lt_of_mem_stored hi')
  exact ⟨rfl,
    Option.some.inj ((Settling.mem_stored.1 hi).2.symm.trans (Settling.mem_stored.1 hi').2)⟩

/-- What the steps store is new. -/
theorem Store.Settlings.size_le_of_mem_stored {e : Settling settings} {k : PathKey} (he : e ∈ es)
    (hi : i ∈ e.stored k) : s.shapes.size ≤ i :=
  Nat.le_trans (h.later_start hroot he).1.size_le (Settling.mem_stored.1 hi).1

/-- A shape stands for one shape at most. -/
theorem Store.Settlings.twin_unique (h' : s.Settlings es' t') (hij : Twin s es es' i j)
    (hij' : Twin s es es' i j') : j = j' := by
  induction hij generalizing j' with
  | old hi =>
    cases hij' with
    | old => rfl
    | file he _ _ _ hi' _ | own he _ _ hi' _ =>
      exact absurd hi
        (Nat.not_lt_of_le (h.size_le_of_mem_stored hroot he (List.mem_of_getElem? hi')))
  | @file e e' k n i j he he' hk hk' hi hj =>
    have hmem := List.mem_of_getElem? hi
    cases hij' with
    | old hlt => exact absurd hlt (Nat.not_lt_of_le (h.size_le_of_mem_stored hroot he hmem))
    | file hf hf' hl hl' hi' hj' =>
      obtain ⟨rfl, rfl⟩ := h.eq_of_mem_stored hroot he hf hmem (List.mem_of_getElem? hi')
      obtain rfl := h'.eq_of_cached hroot he' hf' hk'.1 hk'.2 hl'.1 hl'.2
      exact eq_of_getElem?_stored hi hi' hj hj'
    | @own f _ _ _ _ hf _ _ hi' _ =>
      obtain ⟨rfl, rfl⟩ := h.eq_of_mem_stored hroot he hf hmem (List.mem_of_getElem? hi')
      exact absurd e.home_cached hk.1
  | @own e e' n i j he he' _ hi hj ih =>
    have hmem := List.mem_of_getElem? hi
    cases hij' with
    | old hlt => exact absurd hlt (Nat.not_lt_of_le (h.size_le_of_mem_stored hroot he hmem))
    | file hf _ hl _ hi' _ =>
      obtain ⟨rfl, rfl⟩ := h.eq_of_mem_stored hroot he hf hmem (List.mem_of_getElem? hi')
      exact absurd e.home_cached hl.1
    | own hf hf' htwin hi' hj' =>
      obtain ⟨rfl, -⟩ := h.eq_of_mem_stored hroot he hf hmem (List.mem_of_getElem? hi')
      obtain rfl := h'.eq_of_id hroot he' hf' (ih htwin)
      exact eq_of_getElem?_stored hi hi' hj hj'

end

end RamlTypes
