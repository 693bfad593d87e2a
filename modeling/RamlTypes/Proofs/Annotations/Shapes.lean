import RamlTypes.Proofs.Annotations.Binding
import RamlTypes.Resolution.Annotations

/-!
# What the binding of the annotations of shapes does

The annotations of shapes are bound one shape after the other, those of a shape before those of its
examples, and the binding stops at the first annotation whose library is not known. Where it ends, all
of them are bound as the store says in which it began, and those without a type are reported in this
order (`Store.exists_of_bindShapes`).
-/

namespace RamlTypes

namespace AnnotationUse

variable {path : Path}

theorem reports_append (d e : Dict String AnnotationUse) :
    reports path (d ++ e) = reports path d ++ reports path e := List.filterMap_append

/-- The annotations of examples are bound as those of a file are. -/
theorem exists_bindExamples (xs : List Example) : ∀ {s : Store}, (∀ x ∈ xs, Unbound x.annotations) →
    ∃ ys fault ds, Load.bindExamples path xs s = (.ok (ys, fault), s.addReports ds) ∧
      (fault = none → (∀ x ∈ ys.flatMap (·.annotations), x.2.IsBoundIn s path) ∧
        ds = reports path (ys.flatMap (·.annotations))) := by
  induction xs with
  | nil =>
    intro s _
    exact ⟨[], none, [], congrArg (Prod.mk _) s.addReports_nil.symm, fun _ => ⟨nofun, rfl⟩⟩
  | cons x rest ih =>
    intro s hu
    rw [List.forall_mem_cons] at hu
    rw [Load.bindExamples]
    obtain ⟨d, fault, ds, hd, hbound⟩ := @exists_bindAll path x.annotations s hu.1
    rw [Load.bind_of_ok hd]
    cases fault with
    | some f => exact ⟨_, some f, ds, rfl, nofun⟩
    | none =>
      obtain ⟨ys, fault, es, hys, hbounds⟩ := ih (s := s.addReports ds) hu.2
      refine ⟨{ x with annotations := d } :: ys, fault, ds ++ es, ?_, fun hnone => ?_⟩
      · dsimp only
        rw [Load.bind_of_ok hys, s.addReports_append]
        rfl
      · obtain ⟨hx, rfl⟩ := hbound rfl
        obtain ⟨hrest, rfl⟩ := hbounds hnone
        rw [List.flatMap_cons, reports_append]
        exact ⟨List.forall_mem_append.2 ⟨hx, hrest⟩, rfl⟩

end AnnotationUse

namespace Shape

/-- The annotations of a shape and of its examples. -/
def allAnnotations (a : Shape) : Dict String AnnotationUse :=
  a.annotations ++ a.examples.flatMap (·.annotations)

/-- The reports of the annotations of a shape and of its examples that have no type. -/
abbrev reports (a : Shape) : List Diagnostic := AnnotationUse.reports a.location a.allAnnotations

theorem unbound_allAnnotations {a : Shape} :
    Unbound a.allAnnotations ↔ Unbound a.annotations ∧ ∀ e ∈ a.examples, Unbound e.annotations := by
  rw [Unbound, allAnnotations, List.forall_mem_append, List.forall_mem_flatMap]

theorem IsNew.unbound {linked : Path → Prop} {a : Shape} (h : a.IsNew linked) :
    Unbound a.allAnnotations := unbound_allAnnotations.2 ⟨h.annotations, h.examples⟩

/-- The shape with the annotations of `c` and its examples. -/
def annotatedAs (a c : Shape) : Shape :=
  { a with annotations := c.annotations, examples := c.examples }

/-- The annotations are bound to what their types are, as seen from the file of the shape. -/
def IsBoundIn (s : Store) (a : Shape) : Prop :=
  ∀ x ∈ a.allAnnotations, x.2.IsBoundIn s a.location

/-- Binding the annotations of a shape writes them into the shape, and reports those that have no
type. -/
theorem exists_of_bindShape {s t : Store} {a : Shape} (hu : Unbound a.allAnnotations)
    (h : Load.bindShape a s = (.ok (), t)) : ∃ c : Shape, c = a.annotatedAs c ∧ c.IsBoundIn s ∧
      t = (s.addReports c.reports).mapShape a.id (·.annotatedAs c) := by
  rw [unbound_allAnnotations] at hu
  obtain ⟨d, fault, ds, hd, hbound⟩ := @AnnotationUse.exists_bindAll a.location a.annotations s hu.1
  rw [Load.bindShape, Load.bind_of_ok hd] at h
  cases fault with
  | some f => cases h
  | none =>
    obtain ⟨xs, fault, es, hxs, hbounds⟩ :=
      @AnnotationUse.exists_bindExamples a.location a.examples (s.addReports ds) hu.2
    dsimp only at h
    rw [Load.bind_of_ok hxs, s.addReports_append] at h
    cases fault with
    | some f => cases h
    | none =>
      cases h
      obtain ⟨hown, rfl⟩ := hbound rfl
      obtain ⟨hexamples, rfl⟩ := hbounds rfl
      refine ⟨{ a with annotations := d, examples := xs }, rfl,
        List.forall_mem_append.2 ⟨hown, hexamples⟩, ?_⟩
      rw [reports, allAnnotations, AnnotationUse.reports_append]
      rfl

end Shape

namespace Store

/-- One shape of the list changes. -/
theorem toList_mapShape {s : Store} {before after : List Shape} {a : Shape} (f : Shape → Shape)
    (h : s.shapes.toList = before ++ a :: after) :
    (s.mapShape before.length f).shapes.toList = before ++ f a :: after := by
  rw [mapShape, Array.toList_modify, h, List.modify_eq_take_cons_drop (by simp)]
  simp

/-- Binding the annotations of the last shapes of a store changes these and reports those annotations
that have no type. Nothing else changes. -/
theorem exists_of_bindShapes (l : List Shape) : ∀ {before : List Shape} {s t : Store},
    s.shapes.toList = before ++ l → (∀ (i : ShapeId) (a : Shape), s.shapes[i]? = some a → a.id = i) →
    (∀ a ∈ l, Unbound a.allAnnotations) → Load.bindShapes l s = (.ok (), t) →
    ∃ shapes l', t = { s.addReports (l'.flatMap Shape.reports) with shapes := shapes } ∧
      shapes.toList = before ++ l' ∧ ∀ a ∈ l', a.IsBoundIn s := by
  induction l with
  | nil =>
    intro before s t hl _ _ h
    cases h
    refine ⟨s.shapes, [], ?_, hl, List.forall_mem_nil _⟩
    rw [List.flatMap_nil, s.addReports_nil]
  | cons a rest ih =>
    intro before s t hl hids hu h
    rw [List.forall_mem_cons] at hu
    obtain ⟨_, u, ha, hrest⟩ := Load.bind_eq_ok.1 h
    obtain ⟨c, hc, hbound, rfl⟩ := Shape.exists_of_bindShape hu.1 ha
    have hid : a.id = before.length := by
      refine hids _ a ?_
      rw [← Array.getElem?_toList, hl, List.getElem?_append_right (Nat.le_refl _), Nat.sub_self]
      rfl
    rw [hid] at hrest
    have hshapes : ((s.addReports c.reports).mapShape before.length (·.annotatedAs c)).shapes.toList =
        (before ++ [c]) ++ rest := by
      rw [toList_mapShape (s := s.addReports c.reports) _ hl, ← hc, List.append_assoc]
      rfl
    have hids' (i : ShapeId) (d : Shape)
        (hd : ((s.addReports c.reports).mapShape before.length (·.annotatedAs c)).shapes[i]? = some d) :
        d.id = i := by
      rcases cases_of_mapShape hd with ⟨rfl, e, he, rfl⟩ | hd
      · exact hids _ e he
      · exact hids i d hd
    obtain ⟨shapes, l', rfl, hl', hbounds⟩ := ih hshapes hids' hu.2 hrest
    refine ⟨shapes, c :: l', ?_, ?_, List.forall_mem_cons.2 ⟨hbound, hbounds⟩⟩
    · rw [List.flatMap_cons, ← s.addReports_append]
      rfl
    · rw [hl', List.append_assoc]
      rfl

end Store

end RamlTypes
