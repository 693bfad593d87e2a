import RamlTypes.Proofs.Confluence.Renamings
import RamlTypes.Proofs.Relation.Annotations

/-!
# Binding annotations in two stores

Annotations are bound by what is noted of the files, and this is the same in both stores up to the
numbers of shapes. The shapes are bound in the order of their numbers, which differs between the
stores, but each of them is bound on its own (`Load.BoundFrom`).
-/

namespace RamlTypes

open Store

/-- What two stores have noted of the files that the first one has cached is the same. -/
structure Store.SameFiles (T : ShapeId → ShapeId → Prop) (s t : Store) : Prop where
  uses : ∀ k d, Dict.has k s.fragments → Dict.find? k s.uses = some d →
    ∀ n q, Dict.find? n d = some q → Dict.has q.key s.fragments
  index : ∀ k, Dict.has k s.fragments → IndexRel T k s t

/-- The annotation types and the aliases of the store `s` are those of `m`. -/
structure Store.BindsAs (m s : Store) : Prop where
  annotationTypes : s.annotationTypes = m.annotationTypes
  uses : s.uses = m.uses

section
variable {T : ShapeId → ShapeId → Prop} {s t : Store}

/-- Two runs that bind annotations. -/
def Store.binding (m n : Store) (T : ShapeId → ShapeId → Prop) : Comparison where
  World := Unit
  order :=
    { le _ _ := True
      lt _ _ := False
      le_refl _ := trivial
      le_trans _ _ _ _ _ := trivial
      lt_iff_le_not_ge := no_larger_world }
  stores _ s t := m.BindsAs s ∧ n.BindsAs t
  stopped _ _ _ := True
  final _ := True
  excused _ := True
  ignored _ := True
  ids _ := T
  fresh _ _ _ := False
  done _ _ _ := False
  begun _ p := Dict.has p.key m.fragments
  target _ := True
  linked _ _ := True
  bound _ _ _ := True
  stopped_of_stores _ _ := trivial
  stopped_fault h := h
  final_of_grows _ _ := trivial
  excused_fault h := h
  ignored_fault h := h
  ids_mono _ h := h
  fresh_mono _ h := h
  done_mono _ h := h
  begun_mono _ h := h
  linked_mono _ h := h
  bound_mono _ h := h
  ids_of_fresh h := h.elim
  bound_of_rel _ := trivial

variable {m n : Store} (h : m.SameFiles T n)
include h

/-- Related annotations are bound to annotation types that stand for each other. -/
theorem Store.SameFiles.type? {path : Path} (hk : Dict.has path.key m.fragments)
    {a b : AnnotationUse} (hab : a.Rel T b) (hs : m.BindsAs s) (ht : n.BindsAs t) :
    Checked (Option.Rel T) (a.type? path s) (b.type? path t) := by
  have huses : Dict.find? path.key t.uses = Dict.find? path.key s.uses := by
    rw [hs.uses, ht.uses]
    exact (h.index _ hk).uses
  rw [AnnotationUse.type?, AnnotationUse.type?, AnnotationUse.target_congr huses hab]
  rcases htarget : a.target path s with f | ⟨library, name⟩
  · exact .error f
  · have hlibrary : Dict.has library.key m.fragments := by
      rw [AnnotationUse.target] at htarget
      split at htarget
      · split at htarget
        · next hfind =>
          obtain ⟨d, hd, hq⟩ := Option.bind_eq_some_iff.1 hfind
          cases htarget
          rw [usesOf?, hs.uses] at hd
          exact h.uses _ d hk hd _ _ hq
        · cases htarget
      · cases htarget
        exact hk
    refine .ok ?_
    rw [annotationTypesIn?, annotationTypesIn?, hs.annotationTypes, ht.annotationTypes]
    exact Dict.Rel.bind_find? (h.index _ hlibrary).annotationTypes name

/-- Binding annotations agrees. -/
theorem Store.SameFiles.binds : (binding m n T).Binds where
  bind w path a b hk hab := by
    have hrest := hab.rest
    have hdefined : b.definedBy.isSome = a.definedBy.isSome := by
      have hrel := hab.definedBy
      generalize a.definedBy = x at hrel ⊢
      generalize b.definedBy = y at hrel ⊢
      cases hrel <;> rfl
    unfold AnnotationUse.bind
    rw [hdefined]
    split
    · exact .pure (.ok hab)
    · intro s t hst _
      have htype := h.type? hk hab hst.1 hst.2
      rw [Load.ask_bind, Load.ask_bind]
      generalize a.type? path s = x at htype ⊢
      generalize b.type? path t = y at htype ⊢
      cases htype with
      | error f => exact .ok le_rfl hst (.error f)
      | ok hij =>
        cases hij with
        | some hij =>
          refine .ok le_rfl hst (.ok ⟨?_, .some hij⟩)
          rw [hab.rest]
        | none =>
          have hname : b.name = a.name := by rw [hab.rest]
          rw [hname]
          exact .ok le_rfl ⟨{ hst.1 with }, { hst.2 with }⟩ (.ok hab)
  write _ _ _ _ _ _ _ hfresh := hfresh.elim

end

/-! ## One shape -/

/-- The shape `c` is `a` with its annotations bound by what is noted in `m`. -/
def Load.Bound (m : Store) (a c : Shape) : Prop :=
  ∃ d xs s t u, m.BindsAs s ∧
    AnnotationUse.bindAll a.location a.annotations s = (.ok (d, none), t) ∧
    m.BindsAs t ∧ Load.bindExamples a.location a.examples t = (.ok (xs, none), u) ∧
    c = { a with annotations := d, examples := xs }

/-- The shape `c` with the number `i` is `a`, with its annotations bound if it lies above the
mark. -/
structure Load.BoundFrom (m : Store) (i : ShapeId) (a c : Shape) : Prop where
  above : m.annotationsBound ≤ i → Bound m a c
  below : i < m.annotationsBound → c = a

/-- Binding leaves the number of a shape. -/
theorem Load.BoundFrom.id_eq {m : Store} {i : ShapeId} {a c : Shape} (h : BoundFrom m i a c) :
    c.id = a.id := by
  rcases Nat.lt_or_ge i m.annotationsBound with hi | hi
  · rw [h.below hi]
  · obtain ⟨d, xs, s, t, u, -, -, -, -, rfl⟩ := h.above hi
    rfl

/-- Related shapes are bound to related shapes. -/
theorem Store.SameFiles.bound {m n : Store} {T : ShapeId → ShapeId → Prop} (h : m.SameFiles T n)
    {a b c c' : Shape} (hk : Dict.has a.location.key m.fragments) (hab : a.Rel T b)
    (hc : Load.Bound m a c) (hc' : Load.Bound n b c') : c.Rel T c' := by
  obtain ⟨d, xs, s, t, u, hs, hd, ht, hx, rfl⟩ := hc
  obtain ⟨d', xs', s', t', u', hs', hd', ht', hx', rfl⟩ := hc'
  have hannotations :=
    h.binds.bindAll a.location a.annotations () hk hab.annotations s s' ⟨hs, hs'⟩ trivial
  have hexamples :=
    h.binds.bindExamples a.location a.examples () hk hab.examples t t' ⟨ht, ht'⟩ trivial
  rw [hd, ← hab.location, hd'] at hannotations
  rw [hx, ← hab.location, hx'] at hexamples
  cases hannotations with
  | ok _ _ hd =>
    cases hexamples with
    | ok _ _ hx =>
      exact { hab with
        rest := congrArg (fun e : Shape => { e with annotations := d', examples := xs' }) hab.rest
        annotations := hd.1
        examples := hx.1 }

/-- They are if both lie above the mark, or both below. -/
theorem Store.SameFiles.boundFrom {m n : Store} {T : ShapeId → ShapeId → Prop} (h : m.SameFiles T n)
    {i j : ShapeId} {a b c c' : Shape} (hk : Dict.has a.location.key m.fragments) (hab : a.Rel T b)
    (hmark : n.annotationsBound ≤ j ↔ m.annotationsBound ≤ i) (hc : Load.BoundFrom m i a c)
    (hc' : Load.BoundFrom n j b c') : c.Rel T c' := by
  rcases Nat.lt_or_ge i m.annotationsBound with hi | hi
  · have hj := Nat.lt_of_not_le fun hle => Nat.not_le_of_lt hi (hmark.1 hle)
    rwa [hc.below hi, hc'.below hj]
  · exact h.bound hk hab (hc.above hi) (hc'.above (hmark.2 hi))

/-! ## All shapes -/

namespace Load

variable {m s t : Store}

/-- Binding an annotation is calm. -/
theorem calm_bind {path : Path} {a : AnnotationUse} {r : Except PlainFault AnnotationUse}
    (h : a.bind path s = (.ok r, t)) : s.Calm t := by
  rw [AnnotationUse.bind] at h
  split at h
  · cases h
    exact .refl s
  · rw [Load.ask_bind] at h
    split at h
    · cases h
      exact .refl s
    · cases h
      exact .refl s
    · cases h
      exact Duo.calm_report s _

/-- So it is for a dictionary. -/
theorem calm_bindAll {path : Path} (d : Dict String AnnotationUse) :
    ∀ {s : Store} {r : Dict String AnnotationUse × Option PlainFault},
    AnnotationUse.bindAll path d s = (.ok r, t) → s.Calm t := by
  induction d with
  | nil =>
    intro s r h
    cases h
    exact .refl _
  | cons entry rest ih =>
    intro s r h
    rw [AnnotationUse.bindAll] at h
    obtain ⟨r', u, hbind, h⟩ := Load.bind_eq_ok.1 h
    have hcalm := calm_bind hbind
    rcases r' with f | a
    · cases h
      exact hcalm
    · obtain ⟨⟨rest', fault⟩, v, hrest, h⟩ := Load.bind_eq_ok.1 h
      cases h
      exact hcalm.trans (ih hrest)

/-- So it is for the examples of a shape. -/
theorem calm_bindExamples {path : Path} (xs : List Example) :
    ∀ {s : Store} {r : List Example × Option PlainFault},
    bindExamples path xs s = (.ok r, t) → s.Calm t := by
  induction xs with
  | nil =>
    intro s r h
    cases h
    exact .refl _
  | cons x rest ih =>
    intro s r h
    rw [bindExamples] at h
    obtain ⟨⟨d, fault⟩, u, hbind, h⟩ := Load.bind_eq_ok.1 h
    have hcalm := calm_bindAll _ hbind
    rcases fault with _ | f
    · obtain ⟨⟨rest', fault⟩, v, hrest, h⟩ := Load.bind_eq_ok.1 h
      cases h
      exact hcalm.trans (ih hrest)
    · cases h
      exact hcalm

/-- Binding the annotations of a shape changes this shape only. -/
theorem bound_of_bindShape {a : Shape} (hs : m.BindsAs s) (ha : s.shapes[a.id]? = some a)
    (h : bindShape a s = (.ok (), t)) :
    m.BindsAs t ∧ t.shapes.size = s.shapes.size ∧ t.resolved = s.resolved ∧
      (∃ c, t.shapes[a.id]? = some c ∧ Bound m a c) ∧
        ∀ i, a.id ≠ i → t.shapes[i]? = s.shapes[i]? := by
  obtain ⟨⟨d, fault⟩, u, hd, h⟩ := Load.bind_eq_ok.1 h
  have hu := calm_bindAll _ hd
  rcases fault with _ | f
  · obtain ⟨⟨xs, fault⟩, v, hx, h⟩ := Load.bind_eq_ok.1 h
    have hv := calm_bindExamples _ hx
    obtain ⟨_, w, hw, h⟩ := Load.bind_eq_ok.1 h
    rcases fault with _ | f
    · cases hw
      cases h
      have hbinds : m.BindsAs u :=
        ⟨hu.annotationTypes.trans hs.annotationTypes, hu.uses.trans hs.uses⟩
      have hshapes : v.shapes = s.shapes := hv.shapes.trans hu.shapes
      refine ⟨⟨hv.annotationTypes.trans hbinds.annotationTypes, hv.uses.trans hbinds.uses⟩, ?_,
        hv.lists.resolved.trans hu.lists.resolved, ⟨{ a with annotations := d, examples := xs }, ?_,
          d, xs, s, u, v, hs, hd, hbinds, hx, rfl⟩, fun i hi => ?_⟩
      · rw [size_mapShape, hshapes]
      · rw [getElem?_mapShape, if_pos rfl, hshapes, ha]
        rfl
      · rw [getElem?_mapShape, if_neg hi, hshapes]
    · cases h
  · obtain ⟨_, _, _, h⟩ := Load.bind_eq_ok.1 h
    cases h

/-- Shapes are bound one after the other, each on its own. -/
theorem bound_of_bindShapes (as : List Shape) : ∀ {s : Store}, m.BindsAs s → (as.map (·.id)).Nodup →
    (∀ a ∈ as, s.shapes[a.id]? = some a) → bindShapes as s = (.ok (), t) →
    t.shapes.size = s.shapes.size ∧ t.resolved = s.resolved ∧
      (∀ a ∈ as, ∃ c, t.shapes[a.id]? = some c ∧ Bound m a c) ∧
      ∀ i, (∀ a ∈ as, a.id ≠ i) → t.shapes[i]? = s.shapes[i]? := by
  induction as with
  | nil =>
    intro s _ _ _ h
    cases h
    exact ⟨rfl, rfl, List.forall_mem_nil _, fun _ _ => rfl⟩
  | cons a rest ih =>
    intro s hs hnodup hall h
    obtain ⟨_, u, hu, h⟩ := Load.bind_eq_ok.1 h
    obtain ⟨hnot, hnodup⟩ := List.nodup_cons.1 hnodup
    obtain ⟨hbinds, hsize, hresolved, ⟨c, hc, hbound⟩, hother⟩ :=
      bound_of_bindShape hs (hall a List.mem_cons_self) hu
    have hne {b : Shape} (hb : b ∈ rest) : a.id ≠ b.id :=
      fun heq => hnot (List.mem_map.2 ⟨b, hb, heq.symm⟩)
    obtain ⟨hsize', hresolved', hrest, hother'⟩ := ih hbinds hnodup (fun b hb => by
      rw [hother _ (hne hb), hall b (List.mem_cons_of_mem _ hb)]) h
    refine ⟨hsize'.trans hsize, hresolved'.trans hresolved,
      List.forall_mem_cons.2 ⟨⟨c, ?_, hbound⟩, hrest⟩, fun i hi => ?_⟩
    · rw [hother' _ fun b hb => (hne hb).symm, hc]
    · obtain ⟨hi, hi'⟩ := List.forall_mem_cons.1 hi
      rw [hother' i hi', hother i hi]

/-- When annotations have been bound, each shape above the mark is bound on its own. -/
theorem bound_of_bindAnnotations (hm : m.Closed) (hfailed : m.failed = [])
    (h : bindAnnotations m = (.ok (), t)) :
    t.shapes.size = m.shapes.size ∧ t.resolved = m.resolved ∧ t.annotationsBound = t.shapes.size ∧
      ∀ i a, m.shapes[i]? = some a → ∃ c, t.shapes[i]? = some c ∧ BoundFrom m i a c := by
  rw [bindAnnotations, Load.ask_bind] at h
  obtain ⟨_, u, hu, h⟩ := Load.bind_eq_ok.1 h
  cases h
  have hunbound : m.unbound = m.shapes.toList.drop m.annotationsBound := by
    refine List.filter_eq_self.2 fun a _ => ?_
    rw [isFailed, hfailed]
    rfl
  have hmem (a : Shape) : a ∈ m.unbound ↔ m.annotationsBound ≤ a.id ∧ m.shapes[a.id]? = some a := by
    rw [mem_unbound]
    constructor
    · rintro ⟨i, hle, ha, -⟩
      obtain rfl := hm.ids i a ha
      exact ⟨hle, ha⟩
    · rintro ⟨hle, ha⟩
      exact ⟨a.id, hle, ha, hfailed ▸ List.not_mem_nil⟩
  have hids : m.shapes.toList.map (·.id) = List.range m.shapes.size := by
    refine List.ext_getElem (by simp) fun i hi _ => ?_
    rw [List.getElem_map, Array.getElem_toList, List.getElem_range]
    exact hm.ids i _ (Array.getElem?_eq_getElem (by simpa using hi))
  have hnodup : (m.unbound.map (·.id)).Nodup := by
    rw [hunbound]
    exact (hids ▸ List.nodup_range : (m.shapes.toList.map (·.id)).Nodup).sublist
      ((List.drop_sublist _ _).map _)
  obtain ⟨hsize, hresolved, hbound, hother⟩ := bound_of_bindShapes m.unbound ⟨rfl, rfl⟩ hnodup
    (fun a ha => ((hmem a).1 ha).2) hu
  refine ⟨hsize, hresolved, rfl, fun i a ha => ?_⟩
  have hid := hm.ids i a ha
  rcases Nat.lt_or_ge i m.annotationsBound with hlt | hge
  · refine ⟨a, ?_, ⟨fun hle => absurd hlt (Nat.not_lt_of_le hle), fun _ => rfl⟩⟩
    have hsame := hother i fun b hb heq => Nat.not_lt_of_le ((hmem b).1 hb).1 (heq.symm ▸ hlt)
    exact hsame.trans ha
  · obtain ⟨c, hc, hac⟩ := hbound a ((hmem a).2 (hid.symm ▸ ⟨hge, ha⟩))
    exact ⟨c, hid ▸ hc, ⟨fun _ => hac, fun hlt => absurd hlt (Nat.not_lt_of_le hge)⟩⟩

end Load

end RamlTypes
