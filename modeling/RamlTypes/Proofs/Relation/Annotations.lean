import RamlTypes.Proofs.Relation.Resolution

/-!
# Binding annotations agrees

Two runs that bind the annotations of related shapes, and of their examples, yield related shapes.
-/

namespace RamlTypes

/-- The shapes whose annotations are to be bound are above the mark and did not fail. -/
theorem Store.mem_unbound {s : Store} {a : Shape} : a ∈ s.unbound ↔
    ∃ i, s.annotationsBound ≤ i ∧ s.shapes[i]? = some a ∧ a.id ∉ s.failed := by
  rw [unbound, List.mem_filter, Bool.not_eq_true', isFailed, List.contains_eq_mem,
    decide_eq_false_iff_not, List.mem_iff_getElem?]
  constructor
  · rintro ⟨⟨n, hn⟩, hnot⟩
    rw [List.getElem?_drop, Array.getElem?_toList] at hn
    exact ⟨_, Nat.le_add_right _ n, hn, hnot⟩
  · rintro ⟨i, hle, ha, hnot⟩
    refine ⟨⟨i - s.annotationsBound, ?_⟩, hnot⟩
    rw [List.getElem?_drop, Array.getElem?_toList, Nat.add_sub_cancel' hle, ha]

namespace Comparison

/-- The actions of binding the annotations of shapes agree. -/
structure Binds (C : Comparison) : Prop where
  bind (w : C.World) (path : Path) (a b : AnnotationUse) : C.begun w path → a.Rel (C.ids w) b →
    C.Agree w (a.bind path) (b.bind path) fun w' => Checked (AnnotationUse.Rel (C.ids w'))
  write (w : C.World) (i j : ShapeId) (d e : Dict String AnnotationUse) (xs ys : List Example) :
    C.fresh w i j → Dict.Rel (AnnotationUse.Rel (C.ids w)) d e →
    List.Forall₂ (Example.Rel (C.ids w)) xs ys →
    C.Agree w (Load.writeAnnotations i d xs) (Load.writeAnnotations j e ys) fun _ _ _ => True

/-- Shapes of a run whose annotations can be bound. -/
structure BindRel (C : Comparison) (w : C.World) (a b : Shape) : Prop where
  rel : a.Rel (C.ids w) b
  fresh : C.fresh w a.id b.id
  begun : C.begun w a.location

namespace Binds

variable {C : Comparison} (hC : C.Binds)

/-- Related annotations stay related in later worlds. -/
theorem annotations_mono {w w' : C.World} (hw : w ≤ w') {d e : Dict String AnnotationUse}
    (h : Dict.Rel (AnnotationUse.Rel (C.ids w)) d e) :
    Dict.Rel (AnnotationUse.Rel (C.ids w')) d e :=
  h.mono fun _ _ => AnnotationUse.Rel.mono fun _ _ => C.ids_mono hw

/-- So do related examples. -/
theorem examples_mono {w w' : C.World} (hw : w ≤ w') {xs ys : List Example}
    (h : List.Forall₂ (Example.Rel (C.ids w)) xs ys) :
    List.Forall₂ (Example.Rel (C.ids w')) xs ys :=
  h.imp fun _ _ => Example.Rel.mono fun _ _ => C.ids_mono hw

include hC in
/-- By induction on the dictionary, its annotations are bound alike. -/
theorem bindAll (path : Path) (d : Dict String AnnotationUse) : ∀ (w : C.World), C.begun w path →
    ∀ {e : Dict String AnnotationUse}, Dict.Rel (AnnotationUse.Rel (C.ids w)) d e →
    C.Agree w (AnnotationUse.bindAll path d) (AnnotationUse.bindAll path e)
      fun w' a b => Dict.Rel (AnnotationUse.Rel (C.ids w')) a.1 b.1 ∧ a.2 = b.2 := by
  induction d with
  | nil =>
    intro w _ e h
    cases h
    exact .pure ⟨.nil, rfl⟩
  | cons entry rest ih =>
    obtain ⟨key, a⟩ := entry
    intro w hw e h
    cases h with
    | @cons _ y _ rest' hab hrest =>
      obtain ⟨key', b⟩ := y
      obtain ⟨rfl, hab⟩ := hab
      unfold AnnotationUse.bindAll
      refine .bind (hC.bind w path a b hw hab) fun w' r r' hw' h => ?_
      have hrest' : Dict.Rel (AnnotationUse.Rel (C.ids w')) rest rest' := annotations_mono hw' hrest
      cases h with
      | ok h =>
        refine .bind (ih w' (C.begun_mono hw' hw) hrest') ?_
        rintro w'' ⟨d, fault⟩ ⟨d', fault'⟩ hw'' ⟨hd, rfl⟩
        exact .pure ⟨.cons ⟨rfl, h.mono fun _ _ => C.ids_mono hw''⟩ hd, rfl⟩
      | error f =>
        exact .pure ⟨.cons ⟨rfl, hab.mono fun _ _ => C.ids_mono hw'⟩ hrest', rfl⟩

include hC in
/-- By induction on the list, so are those of examples. -/
theorem bindExamples (path : Path) (xs : List Example) : ∀ (w : C.World), C.begun w path →
    ∀ {ys : List Example}, List.Forall₂ (Example.Rel (C.ids w)) xs ys →
    C.Agree w (Load.bindExamples path xs) (Load.bindExamples path ys)
      fun w' a b => List.Forall₂ (Example.Rel (C.ids w')) a.1 b.1 ∧ a.2 = b.2 := by
  induction xs with
  | nil =>
    intro w _ ys h
    cases h
    exact .pure ⟨.nil, rfl⟩
  | cons x rest ih =>
    intro w hw ys h
    cases h with
    | @cons _ y _ rest' hxy hrest =>
      unfold Load.bindExamples
      refine .bind (bindAll hC path x.annotations w hw hxy.annotations) ?_
      rintro w' ⟨d, fault⟩ ⟨d', fault'⟩ hw' ⟨hd, rfl⟩
      have hx : Example.Rel (C.ids w') { x with annotations := d } { y with annotations := d' } :=
        ⟨congrArg (fun e : Example => { e with annotations := d' }) hxy.rest, hd⟩
      have hrest' := examples_mono hw' hrest
      cases fault with
      | some f => exact .pure ⟨.cons hx hrest', rfl⟩
      | none =>
        refine .bind (ih w' (C.begun_mono hw' hw) hrest') ?_
        rintro w'' ⟨zs, fault⟩ ⟨zs', fault'⟩ hw'' ⟨hzs, rfl⟩
        exact .pure ⟨.cons (hx.mono fun _ _ => C.ids_mono hw'') hzs, rfl⟩

include hC in
/-- So are those of a shape, with the ones of its examples. -/
theorem bindShape (w : C.World) {a b : Shape} (h : C.BindRel w a b) :
    C.Agree w (Load.bindShape a) (Load.bindShape b) fun _ _ _ => True := by
  unfold Load.bindShape
  rw [h.rel.location]
  refine .bind (bindAll hC a.location a.annotations w h.begun h.rel.annotations) ?_
  rintro w₁ ⟨d, fault⟩ ⟨d', fault'⟩ hw₁ ⟨hd, rfl⟩
  have hf₁ := C.fresh_mono hw₁ h.fresh
  have hx₁ := examples_mono hw₁ h.rel.examples
  cases fault with
  | some f => exact .bind (hC.write w₁ _ _ _ _ _ _ hf₁ hd hx₁) fun _ _ _ _ _ => .fail f
  | none =>
    refine .bind (bindExamples hC a.location a.examples w₁ (C.begun_mono hw₁ h.begun) hx₁) ?_
    rintro w₂ ⟨xs, fault⟩ ⟨ys, fault'⟩ hw₂ ⟨hxs, rfl⟩
    refine .bind (hC.write w₂ _ _ _ _ _ _ (C.fresh_mono hw₂ hf₁) (annotations_mono hw₂ hd) hxs) ?_
    intro w₃ _ _ _ _
    cases fault with
    | some f => exact .fail f
    | none => exact .pure trivial

include hC in
/-- Binding the annotations of shapes agrees. -/
theorem bindShapes (as : List Shape) : ∀ (w : C.World) {bs : List Shape},
    List.Forall₂ (C.BindRel w) as bs →
    C.Agree w (Load.bindShapes as) (Load.bindShapes bs) fun _ _ _ => True := by
  induction as with
  | nil =>
    intro w bs h
    cases h
    exact .pure trivial
  | cons a rest ih =>
    intro w bs h
    cases h with
    | cons hab hrest =>
      refine .bind (bindShape hC w hab) fun w' _ _ hw' _ => ih w' (hrest.imp fun x y hxy => ?_)
      exact ⟨hxy.rel.mono fun _ _ => C.ids_mono hw', C.fresh_mono hw' hxy.fresh,
        C.begun_mono hw' hxy.begun⟩

end Binds

end Comparison

end RamlTypes
