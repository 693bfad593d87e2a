import RamlTypes.Proofs.Annotations.Shapes
import RamlTypes.Proofs.Relation.Invariant

/-!
# When annotations can be bound

The binding of annotations fails only where the alias of a library is not known. So it succeeds just if
all annotations that are not bound yet have a library (`Load.bindAnnotations_isOk_iff`), and where it
fails, it leaves such annotations with their libraries (`Load.rebinds_of_bindAnnotations`).
-/

namespace RamlTypes

namespace AnnotationUse

/-- The annotation is bound, or the library of its type is known in the file `path`. -/
def IsAliased (s : Store) (path : Path) (a : AnnotationUse) : Prop :=
  a.definedBy = none → ∀ f, a.target path s ≠ .error f

variable {s : Store} {path : Path}

/-- Only a library that is not known is a fault. -/
theorem type?_eq_error {a : AnnotationUse} {f : PlainFault} :
    a.type? path s = .error f ↔ a.target path s = .error f := by
  rw [type?]
  rcases a.target path s with g | ⟨library, name⟩
  · exact ⟨fun h => by cases h; rfl, fun h => by cases h; rfl⟩
  · exact ⟨fun h => (by cases h), fun h => (by cases h)⟩

/-- It is a fault if the library of an annotation is not known that is not bound. -/
theorem exists_bind_run (path : Path) (a : AnnotationUse) (s : Store) : ∃ r ds,
    a.bind path s = (.ok r, s.addReports ds) ∧
      (∀ f, r = .error f ↔ a.definedBy = none ∧ a.target path s = .error f) ∧
      ∀ b, r = .ok b → b.IsAliased s path := by
  rcases hd : a.definedBy with _ | i
  · simp only [IsAliased, ← type?_eq_error, true_and, ne_eq]
    rw [bind, hd]
    rcases ht : a.type? path s with f | (_ | id)
    all_goals simp only [Option.isSome_none, Bool.false_eq_true, if_false, Load.ask_bind, ht]
    · exact ⟨.error f, [], congrArg (Prod.mk _) s.addReports_nil.symm, by simp, by simp⟩
    · exact ⟨.ok a, [_], rfl, by simp, by simp [ht]⟩
    · exact ⟨.ok _, [], congrArg (Prod.mk _) s.addReports_nil.symm, by simp, by simp⟩
  · refine ⟨.ok a, [], ?_, by simp, by simp [IsAliased, hd]⟩
    rw [bind, hd, s.addReports_nil]
    rfl

/-- Only the aliases of the file matter. -/
theorem isAliased_congr {t : Store} (h : Dict.find? path.key t.uses = Dict.find? path.key s.uses)
    (a : AnnotationUse) : a.IsAliased t path ↔ a.IsAliased s path := by
  rw [IsAliased, IsAliased, target_congr h (.same a)]

/-- Annotations are bound without a fault just if their libraries are known. -/
theorem exists_bindAll_run (path : Path) (d : Dict String AnnotationUse) : ∀ s : Store,
    ∃ d' fault ds, bindAll path d s = (.ok (d', fault), s.addReports ds) ∧
      (fault = none ↔ ∀ x ∈ d, x.2.IsAliased s path) ∧
      (fault = none → ∀ x ∈ d', x.2.IsAliased s path) := by
  induction d with
  | nil =>
    exact fun s => ⟨[], none, [], congrArg (Prod.mk _) s.addReports_nil.symm,
      iff_of_true rfl (List.forall_mem_nil _), fun _ => List.forall_mem_nil _⟩
  | cons entry rest ih =>
    obtain ⟨key, a⟩ := entry
    intro s
    obtain ⟨r, ds, hr, hfault, hbound⟩ := exists_bind_run path a s
    rw [bindAll, Load.bind_of_ok hr, List.forall_mem_cons]
    rcases r with f | b
    · obtain ⟨hd, hf⟩ := (hfault f).1 rfl
      exact ⟨_, some f, ds, rfl, iff_of_false (Option.some_ne_none f) fun h => h.1 hd f hf,
        fun h => absurd h (Option.some_ne_none f)⟩
    · obtain ⟨d', fault, es, hd', hall, hbounds⟩ := ih (s.addReports ds)
      refine ⟨(key, b) :: d', fault, ds ++ es, ?_, ?_, fun hnone => ?_⟩
      · dsimp only
        rw [Load.bind_of_ok hd', s.addReports_append]
        rfl
      · rw [hall]
        exact ⟨fun h => ⟨fun hd f hf => (by cases (hfault f).2 ⟨hd, hf⟩), h⟩, And.right⟩
      · exact List.forall_mem_cons.2 ⟨hbound b rfl, hbounds hnone⟩

/-- So are the annotations of examples. -/
theorem exists_bindExamples_run (path : Path) (xs : List Example) : ∀ s : Store,
    ∃ ys fault ds, Load.bindExamples path xs s = (.ok (ys, fault), s.addReports ds) ∧
      (fault = none ↔ ∀ x ∈ xs.flatMap (·.annotations), x.2.IsAliased s path) ∧
      (fault = none → ∀ x ∈ ys.flatMap (·.annotations), x.2.IsAliased s path) := by
  induction xs with
  | nil =>
    exact fun s => ⟨[], none, [], congrArg (Prod.mk _) s.addReports_nil.symm,
      iff_of_true rfl (List.forall_mem_nil _), fun _ => List.forall_mem_nil _⟩
  | cons x rest ih =>
    intro s
    obtain ⟨d, fault, ds, hd, hfault, hbound⟩ := exists_bindAll_run path x.annotations s
    rw [Load.bindExamples, Load.bind_of_ok hd, List.flatMap_cons, List.forall_mem_append, ← hfault]
    cases fault with
    | some f =>
      exact ⟨_, some f, ds, rfl, iff_of_false (Option.some_ne_none f) fun h => Option.some_ne_none f h.1,
        fun h => absurd h (Option.some_ne_none f)⟩
    | none =>
      obtain ⟨ys, fault, es, hys, hall, hbounds⟩ := ih (s.addReports ds)
      refine ⟨{ x with annotations := d } :: ys, fault, ds ++ es, ?_, ?_, fun hnone => ?_⟩
      · dsimp only
        rw [Load.bind_of_ok hys, s.addReports_append]
        rfl
      · rw [hall]
        exact ⟨fun h => ⟨rfl, h⟩, And.right⟩
      · rw [List.flatMap_cons]
        exact List.forall_mem_append.2 ⟨hbound rfl, hbounds hnone⟩

end AnnotationUse

/-- The annotations of the shape and of its examples are bound, or their libraries are known. -/
def Shape.IsAliased (s : Store) (a : Shape) : Prop :=
  ∀ x ∈ a.allAnnotations, x.2.IsAliased s a.location

theorem Shape.isAliased_congr {s t : Store} (a : Shape)
    (h : Dict.find? a.location.key t.uses = Dict.find? a.location.key s.uses) :
    a.IsAliased t ↔ a.IsAliased s :=
  forall₂_congr fun x _ => AnnotationUse.isAliased_congr h x.2

/-- The store `t` is `m` after the annotations of some shapes were bound. -/
structure Store.Rebinds (m t : Store) : Prop where
  uses : t.uses = m.uses
  unresolved : t.unresolved = m.unresolved
  bound : t.annotationsBound = m.annotationsBound
  shapes : ∀ (i : ShapeId) (c : Shape), m.shapes[i]? = some c →
    ∃ a, t.shapes[i]? = some a ∧ a.location = c.location ∧ (c.IsAliased m → a.IsAliased m)

theorem Store.Rebinds.refl (m : Store) : m.Rebinds m where
  uses := rfl
  unresolved := rfl
  bound := rfl
  shapes _ c hc := ⟨c, hc, rfl, id⟩

namespace Load

variable {m s : Store}

/-- Binding the annotations of a shape succeeds just if their libraries are known. -/
theorem exists_bindShape_run (a : Shape) (s : Store) : ∃ r ds c,
    bindShape a s = (r, (s.addReports ds).mapShape a.id (·.annotatedAs c)) ∧
      (r = .ok () ↔ a.IsAliased s) ∧ (r = .ok () → (a.annotatedAs c).IsAliased s) := by
  have hstop (e : Stop) : (.error e : Except Stop Unit) ≠ .ok () := fun h => by cases h
  obtain ⟨d, fault, ds, hd, hfault, hbound⟩ :=
    AnnotationUse.exists_bindAll_run a.location a.annotations s
  rw [bindShape, bind_of_ok hd]
  simp only [Shape.IsAliased, Shape.allAnnotations, List.forall_mem_append, ← hfault]
  cases fault with
  | some f =>
    exact ⟨_, ds, { a with annotations := d }, rfl,
      iff_of_false (hstop _) fun h => Option.some_ne_none f h.1, fun h => absurd h (hstop _)⟩
  | none =>
    obtain ⟨xs, fault, es, hxs, hexamples, hbounds⟩ :=
      AnnotationUse.exists_bindExamples_run a.location a.examples (s.addReports ds)
    have hexamples' : fault = none ↔
        ∀ x ∈ a.examples.flatMap (·.annotations), x.2.IsAliased s a.location := hexamples
    rw [← hexamples']
    dsimp only
    rw [bind_of_ok hxs, s.addReports_append]
    cases fault with
    | some f =>
      exact ⟨_, ds ++ es, { a with annotations := d, examples := xs }, rfl,
        iff_of_false (hstop _) fun h => Option.some_ne_none f h.2, fun h => absurd h (hstop _)⟩
    | none =>
      exact ⟨_, ds ++ es, { a with annotations := d, examples := xs }, rfl,
        iff_of_true rfl ⟨rfl, rfl⟩, fun _ => ⟨hbound rfl, hbounds rfl⟩⟩

/-- So does binding the annotations of several shapes. -/
theorem bindShapes_isOk_iff (as : List Shape) : ∀ s : Store,
    (∃ t, bindShapes as s = (.ok (), t)) ↔ ∀ a ∈ as, a.IsAliased s := by
  induction as with
  | nil => exact fun s => iff_of_true ⟨s, rfl⟩ (List.forall_mem_nil _)
  | cons a rest ih =>
    intro s
    obtain ⟨r, ds, c, hr, hiff, -⟩ := exists_bindShape_run a s
    have hrest := ih ((s.addReports ds).mapShape a.id (·.annotatedAs c))
    rw [List.forall_mem_cons, ← hiff, bindShapes]
    rcases r with e | u
    · rw [bind_of_error hr]
      refine ⟨?_, fun h => (by cases h.1)⟩
      rintro ⟨_, ⟨⟩⟩
    · rw [bind_of_ok hr]
      exact hrest.trans ⟨fun h => ⟨rfl, h⟩, And.right⟩

/-- The annotations that are left can be bound just if their libraries are known. -/
theorem bindAnnotations_isOk_iff (s : Store) :
    (∃ t, bindAnnotations s = (.ok (), t)) ↔ ∀ a ∈ s.unbound, a.IsAliased s := by
  rw [← bindShapes_isOk_iff, bindAnnotations, ask_bind]
  constructor
  · rintro ⟨t, h⟩
    obtain ⟨_, u, hu, -⟩ := bind_eq_ok.1 h
    exact ⟨u, hu⟩
  · rintro ⟨t, h⟩
    exact ⟨_, bind_of_ok h _⟩

/-- Whether or not it succeeds, binding leaves alone the other shapes. -/
theorem rebinds_bindShape {a : Shape} (hs : m.Rebinds s) (ha : m.shapes[a.id]? = some a) :
    m.Rebinds (bindShape a s).2 := by
  obtain ⟨r, ds, c, hr, hiff, hbound⟩ := exists_bindShape_run a s
  rw [hr]
  have huses (path : Path) : Dict.find? path.key s.uses = Dict.find? path.key m.uses :=
    congrArg _ hs.uses
  refine { hs with shapes := fun i d hd => ?_ }
  obtain ⟨d', hd', hlocation, hkept⟩ := hs.shapes i d hd
  show ∃ b, ((s.addReports ds).mapShape a.id _).shapes[i]? = some b ∧ _
  rw [Store.getElem?_mapShape]
  split
  · next hi =>
    subst hi
    cases ha.symm.trans hd
    refine ⟨d'.annotatedAs c, congrArg (Option.map _) hd', hlocation, fun hm => ?_⟩
    have hs' := hbound (hiff.2 ((a.isAliased_congr (huses _)).2 hm))
    have hm' := (Shape.isAliased_congr _ (huses _)).1 hs'
    rw [Shape.IsAliased] at hm' ⊢
    rw [show (d'.annotatedAs c).location = a.location from hlocation]
    exact hm'
  · exact ⟨d', hd', hlocation, hkept⟩

theorem rebinds_bindShapes (as : List Shape) : ∀ {s : Store}, m.Rebinds s →
    (∀ a ∈ as, m.shapes[a.id]? = some a) → m.Rebinds (bindShapes as s).2 := by
  induction as with
  | nil => exact fun h _ => h
  | cons a rest ih =>
    intro s hs has
    rw [List.forall_mem_cons] at has
    have ha := rebinds_bindShape hs has.1
    rw [bindShapes]
    rcases hr : bindShape a s with ⟨e | _, t⟩
    all_goals rw [hr] at ha
    · rwa [bind_of_error hr]
    · rw [bind_of_ok hr]
      exact ih ha has.2

/-- Where the binding of annotations stops, they have the libraries that they had before. -/
theorem rebinds_of_bindAnnotations (ids : ∀ (i : ShapeId) (a : Shape), m.shapes[i]? = some a → a.id = i)
    {e : Stop} {t : Store} (h : bindAnnotations m = (.error e, t)) : m.Rebinds t := by
  rw [bindAnnotations, ask_bind] at h
  have hall := rebinds_bindShapes m.unbound (.refl m) fun a ha => by
    obtain ⟨i, -, hi, -⟩ := Store.mem_unbound.1 ha
    exact (ids i a hi).symm ▸ hi
  rcases bind_eq_error.1 h with h | ⟨_, u, -, h⟩
  · rwa [h] at hall
  · cases h

end Load

end RamlTypes
