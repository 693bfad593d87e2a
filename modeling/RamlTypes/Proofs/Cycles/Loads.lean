import RamlTypes.Proofs.Equations.Evaluation

/-!
# Loads find no circles

That a type depends on itself is found when the type is to be resolved (`Store.claim`), and nowhere
else: no load of a file, no reading of a declaration and no binding of annotations stops for that
reason (`Load.IsPlain`). As in `Store.withInvariant`, a load is compared with itself for that.
-/

namespace RamlTypes

open Comparison Store

namespace Load

variable {α β : Type}

/-- The load does not stop because a type depends on itself. -/
def IsPlain (x : Load α) : Prop := ∀ s e t, x s = (.error e, t) → e.isCycle = false

namespace IsPlain

variable {x y : Load α}

/-- A value is no stop. -/
theorem pure (a : α) : IsPlain (Pure.pure a : Load α) := fun _ _ _ h => nomatch h

/-- A question to the store is no stop. -/
theorem ask (f : Store → α) : IsPlain (Load.ask f) := fun _ _ _ h => nomatch h

/-- A change of the store is no stop. -/
theorem change (f : Store → Store) (hf : ∀ s : Store, s.Grows (f s)) : IsPlain (Load.change f hf) :=
  fun _ _ _ h => nomatch h

/-- A fault of a document or of a file is no circle. -/
theorem fail (f : PlainFault) : IsPlain (Load.fail f : Load α) := by
  rintro s e t ⟨⟩
  rfl

/-- One load after another finds no circle if neither of them does. -/
theorem bind {f : α → Load β} (hx : x.IsPlain) (hf : ∀ a, (f a).IsPlain) : (x >>= f).IsPlain := by
  intro s e t h
  rcases bind_eq_error.1 h with h | ⟨a, u, -, h⟩
  · exact hx s e t h
  · exact hf a u e t h

/-- A check that fails is a fault. -/
theorem check (e : Except PlainFault α) : IsPlain (Load.ofExcept e) := by
  cases e with
  | ok a => exact pure a
  | error f => exact fail f

/-- A report is a change. -/
theorem report (d : Diagnostic) : (Load.report d).IsPlain := change _ _

/-- A shape is stored whatever it refers to. -/
theorem addShape (a : Shape) : (Load.addShape a).IsPlain :=
  bind (ask _) fun _ => bind (change _ _) fun _ => pure _

/-- A file that cannot be read is a fault. -/
theorem readFile (purpose : Purpose) (p : Path) : (Load.readFile purpose p).IsPlain := by
  refine bind (change _ _) fun _ => bind (ask _) fun r => ?_
  cases r with
  | ok text => exact pure text
  | error failure => exact fail _

/-- An example file is cached, or it is read. -/
theorem loadExample (p : Path) : (loadExample p).IsPlain := by
  refine bind (ask _) fun found => ?_
  cases found with
  | some e => exact pure e
  | none =>
    refine bind (readFile _ p) fun text => bind (check _) fun e => ?_
    exact bind (change _ _) fun _ => pure e

/-- The list of the files that are being loaded does not matter. -/
theorem whileLoading (h : x.IsPlain) (p : Path) : (Load.whileLoading p x).IsPlain := by
  intro s e t ht
  rw [whileLoading_apply] at ht
  cases hr : (x (s.beginLoading p)).1 with
  | ok a =>
    rw [hr] at ht
    cases ht
  | error f =>
    rw [hr] at ht
    cases ht
    exact h (s.beginLoading p) e (x (s.beginLoading p)).2 (Prod.ext hr rfl)

/-- Reading a fragment finds no circle if decoding it does not. -/
theorem reading (h : x.IsPlain) (path : Path) (f : α → Fragment) :
    (Fragment.reading path x f).IsPlain :=
  bind (h.whileLoading path) fun _ => bind (change _ _) fun _ => bind (ask _) fun _ => pure _

/-- An annotation without a type is a report and no stop. -/
theorem boundUse (a : AnnotationUse) (path : Path) : (a.bind path).IsPlain := by
  unfold AnnotationUse.bind
  split
  · exact pure _
  · refine bind (ask _) fun r => ?_
    rcases r with f | (_ | i)
    · exact pure _
    · exact bind (report _) fun _ => pure _
    · exact pure _

end IsPlain

end Load

namespace Store

/-- A run as it is, which does not stop because a type depends on itself. -/
def plainRuns : Comparison :=
  { withInvariant fun _ => True with
    stopped := fun e s t => s = t ∧ e.isCycle = false
    stopped_of_stores := fun he h => ⟨h.1, he⟩
    stopped_fault := fun h => ⟨h.1, rfl⟩ }

section
variable {α β : Type} {x : Load α} {y : Load β} {Q : Unit → α → β → Prop}

/-- Runs that agree with themselves find no circles. -/
theorem plain_of_agree (h : plainRuns.Agree () x y Q) : x.IsPlain := by
  intro s e t hx
  have hends := h s s ⟨rfl, trivial⟩ trivial
  rw [hx] at hends
  generalize y s = r at hends
  cases hends with
  | error _ stopped => exact stopped.2
  | excusedLeft h => exact h.elim
  | ignoredRight h => exact h.elim

/-- Runs that find no circles agree with themselves. -/
theorem agree_of_plain (h : (withInvariant fun _ => True).Agree () x y Q) (hx : x.IsPlain) :
    plainRuns.Agree () x y Q := by
  rintro s _ ⟨rfl, -⟩ -
  have hends := h s s ⟨rfl, trivial⟩ trivial
  have hplain := hx s
  generalize x s = r at hends hplain ⊢
  generalize y s = r' at hends ⊢
  cases hends with
  | ok le stores result => exact .ok le stores result
  | error e stopped => exact .error e ⟨stopped.1, hplain e _ rfl⟩
  | excusedLeft h => exact h.elim
  | ignoredRight h => exact h.elim

/-- What is known of results is the same in both comparisons. -/
theorem agree_of_agree_plain (h : plainRuns.Agree () x y Q) :
    (withInvariant fun _ => True).Agree () x y Q := by
  rintro s _ ⟨rfl, -⟩ -
  have hends := h s s ⟨rfl, trivial⟩ trivial
  generalize x s = r at hends ⊢
  generalize y s = r' at hends ⊢
  cases hends with
  | ok le stores result => exact .ok le stores result
  | error e stopped => exact .error e ⟨stopped.1, trivial⟩
  | excusedLeft h => exact h.elim
  | ignoredRight h => exact h.elim

end

/-- Reading a declaration finds no circle. -/
theorem plain_declares (path : Path) : plainRuns.Declares path :=
  have h := keptByLoading_true.declares path
  { settings := fun hs => h.settings (w := ()) hs
    target := fun text hs => h.target (w := ()) text hs
    report := fun w d hd => agree_of_plain (h.report w d hd) (.report d)
    makeOptional := fun w i j hij => agree_of_plain (h.makeOptional w i j hij) (.change _ _)
    addShape := fun w a b hw hab ha hp => agree_of_plain (h.addShape w a b hw hab ha hp) (.addShape a)
    loadExample := fun w p hp => agree_of_plain (h.loadExample w p hp) (.loadExample p) }

/-- Reading the sections of a file finds no circle. -/
theorem plain_parses (path : Path) : plainRuns.Parses path :=
  have h := keptByLoading_true.loads.parses path trivial
  { plain_declares path with
    declareUse := fun w name p hw hp => agree_of_plain (h.declareUse w name p hw hp) (.change _ _)
    declareType := fun w name i j hw hij =>
      agree_of_plain (h.declareType w name i j hw hij) (.change _ _)
    declareAnnotationType := fun w name i j hw hij =>
      agree_of_plain (h.declareAnnotationType w name i j hw hij) (.change _ _)
    bind := fun w a hw ha => agree_of_plain (h.bind w a hw ha) (.boundUse a path) }

/-- Loading a file finds no circle: the one thing that is more than a change is decoding it. -/
theorem plain_loads : plainRuns.Loads fun _ => True :=
  have h := keptByLoading_true.loads
  { settings := fun hs => h.settings (w := ()) hs
    files := fun hs => h.files (w := ()) hs
    parses := fun path _ => plain_parses path
    cached := fun p hs => h.cached (w := ()) p hs
    readFile := fun {_ s t} p hs _ _ _ =>
      agree_of_plain ((keptByLoading_true.readFile .fragment (s.normalize p)).imp
        fun _ _ _ _ hab => ⟨hab, trivial⟩) (.readFile _ _) s t hs trivial
    reading := fun w path x y f g ho hxy =>
      have hplain := hxy w le_rfl trivial
      agree_of_plain (h.reading w path x y f g ho fun w' _ _ =>
        agree_of_agree_plain (hxy w' trivial trivial)) ((plain_of_agree hplain).reading path f)
    loading := fun p hs => h.loading (w := ()) p hs
    linked_of_loading := fun _ _ _ => trivial
    linked_of_cached := fun _ _ _ _ => trivial }

/-- The loads and the lookups of an evaluation find no circle. -/
theorem plain_evaluates (o : Owner) : plainRuns.Evaluates o :=
  { plain_declares o.location with
    declare := fun w name node _ =>
      plain_loads.declare (plain_declares o.location) w trivial name node
    lookup := fun w library name hw => by
      have h := (keptByLoading_true.evaluates o).lookup w library name hw
      refine agree_of_plain h (.bind (.ask _) fun found => ?_)
      cases found with
      | none => exact .fail _
      | some i => exact .pure i
    dataType := fun w p _ _ => (plain_loads.dataType w p).imp fun _ _ _ _ hab => hab.shape
    body := fun _ hdone => hdone.elim
    kinds := fun hs hdone => (keptByLoading_true.evaluates o).kinds (w := ()) hs hdone }

/-- Binding the annotations of a file finds no circle. -/
theorem plain_binds : plainRuns.Binds :=
  have h : (withInvariant fun _ => True).Binds := keptByLoading_true.binds
  { bind := fun w path a b hw hab => agree_of_plain (h.bind w path a b hw hab) (.boundUse a path)
    write := fun w i j d e xs ys hij hd hx =>
      agree_of_plain (h.write w i j d e xs ys hij hd hx) (.change _ _) }

end Store

end RamlTypes
