import Mathlib.Order.Defs.PartialOrder
import RamlTypes.Proofs.Relation.Values
import RamlTypes.Proofs.Yields

/-!
# Comparing two runs

A comparison says when two stores are in the same situation, in terms of a world that only grows
while the runs go on: it fixes which shape numbers stand for each other. Two loads agree if, started
in related stores, they end in the same way and in related stores again. Loads that are composed of
agreeing loads agree (`Agree.bind`), so for each function of the loader it is enough to compare its
parts. With equal stores on both sides, the comparison is an invariant of a single run.
-/

namespace RamlTypes

/-- With one world, none is larger than another. -/
theorem no_larger_world (_ _ : Unit) : False ↔ True ∧ ¬ True :=
  ⟨False.elim, fun h => h.2 trivial⟩

/-- No fault says that a bound on a recursion was reached. -/
theorem exhausted_of_fault {f g : PlainFault} (h : Stop.fault f = .exhausted) :
    Stop.fault g = .exhausted := by
  cases h

/-- How the runs of two loads are compared. -/
structure Comparison where
  World : Type
  order : Preorder World
  /-- Stores in which the loads go on. -/
  stores : World → Store → Store → Prop
  /-- Stores in which the loads have stopped. -/
  stopped : Stop → Store → Store → Prop
  /-- Only second runs that end in such a store are compared. -/
  final : Store → Prop
  /-- A first run that stops for such a reason need not agree with the second one. -/
  excused : Stop → Prop
  /-- A second run that stops for such a reason need not agree with the first one. -/
  ignored : Stop → Prop
  /-- Numbers that stand for each other. -/
  ids : World → ShapeId → ShapeId → Prop
  /-- Numbers of shapes that were stored in the same step. -/
  fresh : World → ShapeId → ShapeId → Prop
  /-- Numbers of shapes that are resolved. -/
  done : World → ShapeId → ShapeId → Prop
  /-- Files whose declarations are read. -/
  begun : World → Path → Prop
  /-- Paths that an alias or an include can stand for. -/
  target : Path → Prop
  /-- Files that are loaded or whose loading has begun. -/
  linked : World → Path → Prop
  /-- Annotations after their binding. -/
  bound : World → AnnotationUse → AnnotationUse → Prop
  stopped_of_stores {w s t e} : e.isCycle = false → stores w s t → stopped e s t
  stopped_fault {s t f g} : stopped (.fault f) s t → stopped (.fault g) s t
  final_of_grows {t t' : Store} : t.Grows t' → final t' → final t
  excused_fault {f g} : excused (.fault f) → excused (.fault g)
  ignored_fault {f g} : ignored (.fault f) → ignored (.fault g)
  ids_mono {w w' i j} : order.le w w' → ids w i j → ids w' i j
  fresh_mono {w w' i j} : order.le w w' → fresh w i j → fresh w' i j
  done_mono {w w' i j} : order.le w w' → done w i j → done w' i j
  begun_mono {w w' p} : order.le w w' → begun w p → begun w' p
  linked_mono {w w' p} : order.le w w' → linked w p → linked w' p
  bound_mono {w w' a b} : order.le w w' → bound w a b → bound w' a b
  ids_of_fresh {w i j} : fresh w i j → ids w i j
  bound_of_rel {w a b} : a.Rel (ids w) b → bound w a b

namespace Comparison

variable (C : Comparison)

instance : Preorder C.World := C.order

variable {α β γ δ : Type}

/-- How two loads may end that were started together in the world `w`. -/
inductive Ends (w : C.World) (Q : C.World → α → β → Prop) :
    Except Stop α × Store → Except Stop β × Store → Prop
  | ok {w' : C.World} {s t : Store} {a : α} {b : β} (le : w ≤ w') (stores : C.stores w' s t)
      (result : Q w' a b) : Ends w Q (.ok a, s) (.ok b, t)
  | error {s t : Store} (e : Stop) (stopped : C.stopped e s t) : Ends w Q (.error e, s) (.error e, t)
  | excusedLeft {s : Store} {e : Stop} (h : C.excused e) (r : Except Stop β × Store) :
      Ends w Q (.error e, s) r
  | ignoredRight {t : Store} {e : Stop} (h : C.ignored e) (r : Except Stop α × Store) :
      Ends w Q r (.error e, t)

/-- Two loads end in the same way when they are started together in the world `w`. -/
def Agree (w : C.World) (x : Load α) (y : Load β) (Q : C.World → α → β → Prop) : Prop :=
  ∀ s t, C.stores w s t → C.final (y t).2 → C.Ends w Q (x s) (y t)

variable {C} {w : C.World} {Q : C.World → α → β → Prop} {Q' : C.World → γ → δ → Prop}
  {x : Load α} {y : Load β}

namespace Agree

theorem pure {a : α} {b : β} (h : Q w a b) : C.Agree w (pure a) (pure b) Q :=
  fun _ _ hs _ => .ok le_rfl hs h

/-- What follows two loads that end in the same way. -/
theorem bind_elim {s t : Store} {f : α → Load γ} {g : β → Load δ}
    {P : Except Stop γ × Store → Except Stop δ × Store → Prop} (h : C.Ends w Q (x s) (y t))
    (ok : ∀ w' a b s' t', y t = (.ok b, t') → w ≤ w' → C.stores w' s' t' → Q w' a b →
      P (f a s') (g b t'))
    (error : ∀ e s' t', C.stopped e s' t' → P (.error e, s') (.error e, t'))
    (left : ∀ e s' r, C.excused e → P (.error e, s') r)
    (right : ∀ e t' r, C.ignored e → P r (.error e, t')) :
    P ((x >>= f) s) ((y >>= g) t) := by
  rw [Load.bind_apply, Load.bind_apply]
  rcases hx : x s with ⟨_ | a, s'⟩ <;> rcases hy : y t with ⟨_ | b, t'⟩ <;> rw [hx, hy] at h
  · cases h with
    | error _ stopped => exact error _ _ _ stopped
    | excusedLeft he => exact left _ _ _ he
    | ignoredRight he => exact right _ _ _ he
  · cases h with
    | excusedLeft he => exact left _ _ _ he
  · cases h with
    | ignoredRight he => exact right _ _ _ he
  · cases h with
    | ok le hst hq => exact ok _ a b s' t' hy le hst hq

/-- What follows two loads that end in the same way ends in the same way if it agrees. -/
theorem bind_at {s t : Store} {f : α → Load γ} {g : β → Load δ} (ht : C.final ((y >>= g) t).2)
    (hx : C.final (y t).2 → C.Ends w Q (x s) (y t))
    (hf : ∀ w' a b, w ≤ w' → Q w' a b → C.Agree w' (f a) (g b) Q') :
    C.Ends w Q' ((x >>= f) s) ((y >>= g) t) := by
  refine bind_elim (hx (C.final_of_grows (y.grows_bind g t) ht)) ?_
    (fun e _ _ stopped => .error e stopped) (fun _ _ r he => .excusedLeft he r)
    fun _ _ r he => .ignoredRight he r
  intro w' a b s' t' hy le hst hq
  rw [Load.bind_of_ok hy] at ht
  have hfg := hf w' a b le hq s' t' hst ht
  generalize f a s' = r at hfg ⊢
  generalize g b t' = r' at hfg ⊢
  cases hfg with
  | ok le' hst' hq' => exact .ok (le_trans le le') hst' hq'
  | error _ stopped => exact .error _ stopped
  | excusedLeft he => exact .excusedLeft he _
  | ignoredRight he => exact .ignoredRight he _

/-- Loads that agree can be followed by loads that agree. -/
theorem bind {f : α → Load γ} {g : β → Load δ} (hx : C.Agree w x y Q)
    (hf : ∀ w' a b, w ≤ w' → Q w' a b → C.Agree w' (f a) (g b) Q') :
    C.Agree w (x >>= f) (y >>= g) Q' :=
  fun s t hs ht => bind_at ht (hx s t hs) hf

/-- A weaker statement about the results. -/
theorem imp {Q₂ : C.World → α → β → Prop} (hx : C.Agree w x y Q)
    (h : ∀ w' a b, w ≤ w' → Q w' a b → Q₂ w' a b) : C.Agree w x y Q₂ := by
  intro s t hs ht
  have hxy := hx s t hs ht
  generalize x s = r at hxy ⊢
  generalize y t = r' at hxy ⊢
  cases hxy with
  | ok le hst hq => exact .ok le hst (h _ _ _ le hq)
  | error _ stopped => exact .error _ stopped
  | excusedLeft he => exact .excusedLeft he _
  | ignoredRight he => exact .ignoredRight he _

/-- What all results of the first load have in common. -/
theorem yields {P : α → Prop} (hx : C.Agree w x y Q) (hP : x.Yields P) :
    C.Agree w x y fun w' a b => Q w' a b ∧ P a := by
  intro s t hs ht
  have hxy := hx s t hs ht
  have hPs := hP s
  generalize x s = r at hxy hPs ⊢
  generalize y t = r' at hxy ⊢
  cases hxy with
  | ok le hst hq => exact .ok le hst ⟨hq, hPs _ _ rfl⟩
  | error _ stopped => exact .error _ stopped
  | excusedLeft he => exact .excusedLeft he _
  | ignoredRight he => exact .ignoredRight he _

/-- What is seen of related stores. -/
theorem ask {f : Store → α} {g : Store → β} (h : ∀ s t, C.stores w s t → Q w (f s) (g t)) :
    C.Agree w (Load.ask f) (Load.ask g) Q :=
  fun s t hs _ => .ok le_rfl hs (h s t hs)

/-- A change that keeps stores related. -/
theorem change {f g : Store → Store} {hf hg} {Q : C.World → Unit → Unit → Prop} (w' : C.World)
    (le : w ≤ w') (h : ∀ s t, C.stores w s t → C.stores w' (f s) (g t)) (hq : Q w' () ()) :
    C.Agree w (Load.change f hf) (Load.change g hg) Q :=
  fun s t hs _ => .ok le (h s t hs) hq

theorem stop (e : Stop) (he : e.isCycle = false) : C.Agree w (Load.stop e) (Load.stop e) Q :=
  fun _ _ hs _ => .error e (C.stopped_of_stores he hs)

theorem fail (f : PlainFault) : C.Agree w (Load.fail f) (Load.fail f) Q := stop _ rfl

theorem exhaust : C.Agree w Load.exhaust Load.exhaust Q := stop _ rfl

/-- Loads that go on from the same check. -/
theorem check {e : Except PlainFault α} {f : α → Load γ} {g : α → Load δ}
    (h : ∀ a, e = .ok a → C.Agree w (f a) (g a) Q') :
    C.Agree w (Load.ofExcept e >>= f) (Load.ofExcept e >>= g) Q' := by
  cases e with
  | ok a => exact h a rfl
  | error f => exact fail f

/-- Loads that go on from what they both see. -/
theorem see {f g : Store → α} {P : α → Prop} {k : α → Load γ} {l : α → Load δ}
    (hfg : ∀ s t, C.stores w s t → g t = f s ∧ P (f s))
    (h : ∀ a, P a → C.Agree w (k a) (l a) Q') :
    C.Agree w (Load.ask f >>= k) (Load.ask g >>= l) Q' := by
  intro s t hs ht
  simp only [Load.ask_bind, (hfg s t hs).1] at ht ⊢
  exact h _ (hfg s t hs).2 s t hs ht

/-- The same rewriting of faults on both sides. -/
theorem mapFault (f : PlainFault → PlainFault) (hx : C.Agree w x y Q) :
    C.Agree w (Load.mapFault f x) (Load.mapFault f y) Q := by
  intro s t hs ht
  have hxy := hx s t hs (by rwa [Load.mapFault_snd] at ht)
  dsimp only [Load.mapFault]
  generalize x s = r at hxy ⊢
  generalize y t = r' at hxy ⊢
  cases hxy with
  | ok le hst hq => exact .ok le hst hq
  | error e stopped =>
    cases e with
    | fault e => exact .error _ (C.stopped_fault stopped)
    | _ => exact .error _ stopped
  | @excusedLeft _ e he =>
    cases e with
    | fault e => exact .excusedLeft (C.excused_fault he) _
    | _ => exact .excusedLeft he _
  | @ignoredRight _ e he =>
    cases e with
    | fault e => exact .ignoredRight (C.ignored_fault he) _
    | _ => exact .ignoredRight he _

/-- Reading a file agrees if it is counted on both sides. -/
theorem readFile {purpose : Purpose} {p : Path}
    (files : ∀ {w s t}, C.stores w s t → t.files = s.files)
    (count : ∀ {w s t}, C.stores w s t →
      C.stores w (s.countRead purpose p) (t.countRead purpose p)) :
    C.Agree w (Load.readFile purpose p) (Load.readFile purpose p) fun _ a b => a = b := by
  refine .bind (Q := fun _ _ _ => True) (.change w le_rfl (fun _ _ h => count h) trivial) ?_
  intro w' _ _ _ _
  refine .see (P := fun _ => True) (fun s t h => ⟨by rw [files h], trivial⟩) fun r _ => ?_
  cases r with
  | ok text => exact .pure rfl
  | error failure => exact .fail _

/-- Loading an example agrees if the same examples are cached on both sides. -/
theorem loadExample {p : Path}
    (examples : ∀ {w s t}, C.stores w s t → t.examples = s.examples)
    (read : C.Agree w (Load.readFile .exampleFile p) (Load.readFile .exampleFile p)
      fun _ a b => a = b)
    (cache : ∀ {w s t} (e : ExampleFile), C.stores w s t →
      C.stores w (s.cacheExample p e) (t.cacheExample p e)) :
    C.Agree w (loadExample p) (loadExample p) fun _ a b => a = b := by
  refine .see (P := fun _ => True) (fun s t h => ⟨by rw [examples h], trivial⟩) fun found _ => ?_
  cases found with
  | some e => exact .pure rfl
  | none =>
    refine .bind read ?_
    rintro w' text _ _ rfl
    refine .check fun e _ => ?_
    refine .bind (Q := fun _ _ _ => True) ?_ fun _ _ _ _ _ => .pure rfl
    exact .change w' le_rfl (fun _ _ h => cache e h) trivial

end Agree

end Comparison

end RamlTypes
