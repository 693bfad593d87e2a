import RamlTypes.Proofs.Annotations.Aliased
import RamlTypes.Proofs.Confluence.Duo
import RamlTypes.Proofs.Relation.Invariant

/-!
# Two runs that read the same declarations agree

The laws of comparison hold of two runs that read the declarations of one file (`Duo.parses`,
`Duo.overlays`, `Duo.expands`), provided that the files which are loaded meanwhile are those of
other declarations (`Loaders.Framed`).
-/

namespace RamlTypes

open Store

namespace Duo

variable {d : Duo} {w : Progress} {s t : Store}

/-- A report is calm. -/
theorem calm_report (s : Store) (g : Diagnostic) : s.Calm (s.report g) :=
  ⟨⟨rfl, rfl, rfl, rfl, rfl, rfl⟩, rfl, rfl, rfl, ⟨rfl, rfl, rfl⟩⟩

/-- Both runs store related shapes of the compared file. -/
theorem addShape (w : Progress) (a b : Shape) (hab : a.Rel (d.Ids w) b)
    (hnew : a.IsNew (d.comparison.linked w)) (hloc : a.location = d.path) :
    d.comparison.Agree w (Load.addShape a) (Load.addShape b) d.comparison.fresh := by
  intro s t hs _
  rw [Load.addShape_apply, Load.addShape_apply]
  have hle : w ≤ { w with pairs := w.pairs ++ [(s.shapes.size, t.shapes.size)] } :=
    ⟨List.subset_append_left _ _, List.Subset.refl _⟩
  refine .ok hle (hs.addShape hab hloc hnew.declared.link) ?_
  exact List.mem_append_right _ (List.mem_singleton_self _)

/-- Declarations of the compared file are stored alike. -/
theorem declares (d : Duo) : d.comparison.Declares d.path where
  settings h := h.settings_eq
  target text h := by
    rw [follow, h.left.tracked.settings_eq]
    exact Path.follow_isNormal d.root _ text
  report _ g _ := agree_change fun s t h => h.calm (calm_report s g) (calm_report t g)
  makeOptional _ i j hij := agree_change fun _ _ h => h.makeOptional hij
  addShape w a b _ hab hnew hloc := addShape w a b hab hnew hloc
  loadExample _ _ hp := agree_of_ok fun _ _ _ _ _ _ h hx hy _ =>
    ⟨_, le_rfl, (h.loadExample hp hx hy).1, (h.loadExample hp hx hy).2⟩

/-! ## What is noted of the file -/

/-- It is a fault if the library of an annotation has no alias. Nothing else depends on the
store. -/
theorem bind_ok {a : AnnotationUse} {path : Path} {r : Except PlainFault AnnotationUse} {s' : Store}
    (ha : a.definedBy = none) (h : a.bind path s = (.ok r, s')) :
    s.Calm s' ∧ ∀ f, r = .error f ↔ a.target path s = .error f := by
  obtain ⟨r', ds, hr, hfault, -⟩ := AnnotationUse.exists_bind_run path a s
  cases hr.symm.trans h
  exact ⟨⟨⟨rfl, rfl, rfl, rfl, rfl, rfl⟩, rfl, rfl, rfl, ⟨rfl, rfl, rfl⟩⟩,
    fun f => (hfault f).trans (and_iff_right ha)⟩

section
variable (hleft : ¬ Dict.has d.path.key d.left.fragments)
  (hright : ¬ Dict.has d.path.key d.right.fragments)
include hleft hright

/-- A type of the compared file is noted in both. -/
theorem Together.declareType (h : d.Together w s t) (name : String) {i j : ShapeId}
    (hij : d.Ids w i j) :
    d.Together w (s.declareType d.path name i) (t.declareType d.path name j) :=
  { h with
    left := h.left.declareType d.begunLeft rfl hleft rfl name i
    right := h.right.declareType d.begunRight rfl hright rfl name j
    named := Dict.rel_adjust h.named d.path.key name hij }

/-- So is an annotation type. -/
theorem Together.declareAnnotationType (h : d.Together w s t) (name : String) {i j : ShapeId}
    (hij : d.Ids w i j) :
    d.Together w (s.declareAnnotationType d.path name i)
      (t.declareAnnotationType d.path name j) :=
  { h.declareType hleft hright name hij with
    left := h.left.declareAnnotationType d.begunLeft rfl hleft rfl name i
    right := h.right.declareAnnotationType d.begunRight rfl hright rfl name j
    annotationTypes := Dict.rel_adjust h.annotationTypes d.path.key name hij }

/-- So is the use of a library. -/
theorem Together.declareUse (h : d.Together w s t) (name : String) {p : Path} (hp : p ∈ w.linked) :
    d.Together w (s.declareUse d.path name p) (t.declareUse d.path name p) := by
  obtain ⟨hn, hs, ht⟩ := h.linked p hp
  exact
  { h with
    left := h.left.declareUse d.begunLeft rfl hleft rfl name ⟨hn, hs⟩
    right := h.right.declareUse d.begunRight rfl hright rfl name ⟨hn, ht⟩
    uses := by
      rw [Store.declareUse, Store.declareUse, Dict.adjust, Dict.adjust, Dict.find?_put,
        Dict.find?_put, h.uses] }

omit hleft hright in
/-- Where an annotation is bound, there is an alias for its library on both sides or on none. -/
theorem bind (w : Progress) (a : AnnotationUse) (ha : a.definedBy = none) :
    d.comparison.Agree w (a.bind d.path) (a.bind d.path) fun _ => Checked fun _ _ => True := by
  refine agree_of_ok fun s t r s' r' t' h hx hy _ => ?_
  obtain ⟨hs, hr⟩ := bind_ok ha hx
  obtain ⟨ht, hr'⟩ := bind_ok ha hy
  rw [AnnotationUse.target_congr h.uses (.same a)] at hr'
  refine ⟨w, le_rfl, h.calm hs ht, ?_⟩
  rcases r with f | b
  · obtain rfl := (hr' f).2 ((hr f).1 rfl)
    exact .error f
  · rcases r' with f | b'
    · cases (hr f).2 ((hr' f).1 rfl)
    · exact .ok trivial

/-- Reading a file that was not cached agrees. -/
theorem parses : d.comparison.Parses d.path where
  toDeclares := d.declares
  declareUse _ name _ _ hp := agree_change fun _ _ h => h.declareUse hleft hright name hp
  declareType _ name _ _ _ hij := agree_change fun _ _ h => h.declareType hleft hright name hij
  declareAnnotationType _ name _ _ _ hij :=
    agree_change fun _ _ h => h.declareAnnotationType hleft hright name hij
  bind w a _ ha := bind w a ha

end

end Duo

end RamlTypes
