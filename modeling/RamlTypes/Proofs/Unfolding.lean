import Mathlib.Data.List.Nodup
import Mathlib.Data.List.Perm.Subperm
import RamlTypes.Proofs.Lifecycle.Lists
import RamlTypes.View

/-!
# The view of a shape as the unfolding of its graph

Shapes contain each other by number, so they form a graph, which may have circles and shared parts.
`View.Unfolds` is the unfolding of this graph from a shape: a shape is cut where it is already being
expanded higher up, and nowhere else. The view of a shape is this unfolding
(`View.unfolds_ofShape`). The set of the shapes that are being expanded is changed for each shape and
passed on from one part to the next; `View.expand_run` says that it is the path to the shape again
whenever a shape is finished.
-/

namespace RamlTypes

/-- The shapes that a body contains: items, properties and members. -/
def Body.parts (b : Body) : List ShapeId :=
  b.items?.toList ++ b.properties.map (·.2) ++ b.members

namespace View

/-- Every shape that is contained in another one is stored. -/
def Closed (shapes : Array Shape) : Prop :=
  ∀ a ∈ shapes, ∀ i ∈ a.body.parts, i < shapes.size

/-- The stores that requests leave are closed. -/
theorem closed_of_orderly {s : Store} (h : s.Orderly) : Closed s.shapes := by
  intro a ha i hi
  obtain ⟨j, hj, rfl⟩ := Array.mem_iff_getElem.1 ha
  refine h.shapes j _ (Array.getElem?_eq_getElem hj) i ?_
  rw [Body.parts] at hi
  simp only [Shape.handles, List.mem_append]
  simp only [List.mem_append] at hi
  exact .inl (.inl (.inl (.inl hi)))

/-- The tree of a shape below the shapes of a path, innermost first, which are being expanded. Each
part is unfolded below the same path, to which the shape is added. -/
inductive Unfolds (shapes : Array Shape) : List ShapeId → ShapeId → View → Prop
  | cut {path : List ShapeId} {id : ShapeId} (h : id ∈ path) : Unfolds shapes path id (.reference id)
  | expanded {path : List ShapeId} {id : ShapeId} {shape : Shape} (view : ShapeId → View)
      (h : id ∉ path) (hshape : shapes[id]? = some shape)
      (parts : ∀ i ∈ shape.body.parts, Unfolds shapes (id :: path) i (view i)) :
      Unfolds shapes path id (.expanded id shape (shape.body.items?.map view)
        (shape.body.properties.map fun p => (p.1, view p.2)) (shape.body.members.map view))

variable {shapes : Array Shape} {path : List ShapeId} {id : ShapeId} {v w : View}

/-! ## There is one unfolding -/

/-- Two ways to view the parts of a body that agree on them give the same views. -/
theorem map_parts {b : Body} {view view' : ShapeId → View} (h : ∀ i ∈ b.parts, view i = view' i) :
    b.items?.map view = b.items?.map view' ∧
      (b.properties.map fun p => (p.1, view p.2)) = b.properties.map (fun p => (p.1, view' p.2)) ∧
      b.members.map view = b.members.map view' := by
  simp only [Body.parts, List.mem_append, List.mem_map, Option.mem_toList] at h
  refine ⟨Option.map_congr fun i hi => ?_, List.map_congr_left fun p hp => ?_,
    List.map_congr_left fun i hi => ?_⟩
  · exact h i (.inl (.inl hi))
  · rw [h p.2 (.inl (.inr ⟨p, hp, rfl⟩))]
  · exact h i (.inr hi)

/-- Induction on the first view: a shape unfolds to one view only. -/
theorem Unfolds.unique (hv : Unfolds shapes path id v) : Unfolds shapes path id w → v = w := by
  induction hv generalizing w with
  | cut h =>
    intro hw
    cases hw with
    | cut => rfl
    | expanded _ hn => exact absurd h hn
  | expanded view h hshape _ ih =>
    intro hw
    cases hw with
    | cut hm => exact absurd hm h
    | expanded view' _ hshape' parts' =>
      cases hshape.symm.trans hshape'
      obtain ⟨hitems, hproperties, hmembers⟩ := map_parts fun i hi => ih i hi (parts' i hi)
      rw [hitems, hproperties, hmembers]

/-! ## Paths of expanded shapes -/

/-- A path that can be expanded: stored shapes, none of them twice. -/
structure Trail (shapes : Array Shape) (path : List ShapeId) : Prop where
  nodup : path.Nodup
  stored : ∀ i ∈ path, i < shapes.size

namespace Trail

/-- No shape has been passed. -/
theorem nil : Trail shapes [] := ⟨List.nodup_nil, List.forall_mem_nil _⟩

/-- A shape that is new on the path may be passed. -/
theorem cons (h : Trail shapes path) (hn : id ∉ path) (hid : id < shapes.size) :
    Trail shapes (id :: path) :=
  ⟨List.nodup_cons.2 ⟨hn, h.nodup⟩, List.forall_mem_cons.2 ⟨hid, h.stored⟩⟩

/-- A path is not longer than there are shapes. -/
theorem length_le (h : Trail shapes path) : path.length ≤ shapes.size := by
  have hsub : path ⊆ List.range shapes.size := fun i hi => List.mem_range.2 (h.stored i hi)
  have hlength := (h.nodup.subperm hsub).length_le
  rwa [List.length_range] at hlength

end Trail

/-! ## The set of the shapes that are being expanded -/

section
variable {α β : Type} {path' : List ShapeId}

/-- What follows runs on the path that the first run leaves. -/
theorem run_bind {x : Expanding α} {k : α → Expanding β} {a : α} (h : x.run path = (a, path')) :
    (x >>= k).run path = (k a).run path' := by
  rw [StateT.run_bind, h]
  rfl

/-- Actions that leave the set as it was leave it so one after the other. -/
theorem mapM_run {f : α → Expanding β} {g : α → β} {xs : List α}
    (h : ∀ x ∈ xs, (f x).run path = (g x, path)) : (xs.mapM f).run path = (xs.map g, path) := by
  induction xs with
  | nil => rfl
  | cons x xs ih =>
    have hx := h x List.mem_cons_self
    have hxs := ih fun y hy => h y (List.mem_cons_of_mem _ hy)
    rw [List.mapM_cons, run_bind hx, run_bind hxs]
    rfl

/-- The view of a part, if there is one. -/
theorem option_mapM_run {f : α → Expanding β} {g : α → β} {x? : Option α}
    (h : ∀ x ∈ x?, (f x).run path = (g x, path)) : (x?.mapM f).run path = (x?.map g, path) := by
  cases x? with
  | none => rfl
  | some x =>
    have hx : (f x).run path = (g x, path) := h x rfl
    show (some <$> f x).run path = _
    rw [StateT.run_map, hx]
    rfl

end

/-- A shape that is being expanded is cut; any other one is expanded. -/
theorem nested_run (expand : ShapeId → Expanding View) (id : ShapeId) (path : List ShapeId) :
    (nested expand id).run path =
      if id ∈ path then (.reference id, path) else (expand id).run path := by
  have hget : (get : Expanding (List ShapeId)).run path = (path, path) := rfl
  rw [nested, run_bind hget]
  split <;> rfl

variable {n : Nat}

/-- One level of an expansion, when all that the shape contains leaves the set as it was: the shape
is in the set for its parts, and afterwards the set is the old one. -/
theorem expand_succ_run {shape : Shape} {view : ShapeId → View} (hshape : shapes[id]? = some shape)
    (hn : id ∉ path)
    (h : ∀ i ∈ shape.body.parts,
      (nested (expand shapes n) i).run (id :: path) = (view i, id :: path)) :
    (expand shapes (n + 1) id).run path =
      (.expanded id shape (shape.body.items?.map view)
        (shape.body.properties.map fun p => (p.1, view p.2)) (shape.body.members.map view), path) := by
  simp only [Body.parts, List.mem_append, List.mem_map, Option.mem_toList] at h
  have hitems : (shape.body.items?.mapM (nested (expand shapes n))).run (id :: path) = _ :=
    option_mapM_run fun i hi => h i (.inl (.inl hi))
  have hproperties : (shape.body.properties.mapM fun p : String × ShapeId =>
      return (p.1, ← nested (expand shapes n) p.2) : Expanding _).run (id :: path) = _ :=
    mapM_run fun p hp => run_bind (h p.2 (.inl (.inr ⟨p, hp, rfl⟩)))
  have hmembers : (shape.body.members.mapM (nested (expand shapes n))).run (id :: path) = _ :=
    mapM_run fun i hi => h i (.inr hi)
  have hinsert : (modify (List.insert id) : Expanding PUnit).run path = ((), id :: path) :=
    congrArg (Prod.mk ()) (List.insert_of_not_mem hn)
  have herase : (modify (List.erase · id) : Expanding PUnit).run (id :: path) = ((), path) :=
    congrArg (Prod.mk ()) (List.erase_cons_head ..)
  rw [expand, hshape]
  rw [run_bind hinsert, run_bind hitems, run_bind hproperties, run_bind hmembers, run_bind herase]
  rfl

/-- If the path and the levels that are left account for all shapes, a shape is unfolded, and the set
of the shapes that are being expanded is the path again. -/
theorem expand_run (hshapes : Closed shapes) (hpath : Trail shapes path) (hn : id ∉ path)
    (hid : id < shapes.size) (hlevels : shapes.size ≤ n + path.length) :
    ∃ v, (expand shapes n id).run path = (v, path) ∧ Unfolds shapes path id v := by
  induction n generalizing path id with
  | zero =>
    have hlength := (hpath.cons hn hid).length_le
    rw [List.length_cons] at hlength
    omega
  | succ n ih =>
    obtain ⟨shape, hshape⟩ : ∃ shape, shapes[id]? = some shape := ⟨_, Array.getElem?_eq_getElem hid⟩
    have hcons := hpath.cons hn hid
    have hparts (i : ShapeId) (hi : i ∈ shape.body.parts) : ∃ v,
        (nested (expand shapes n) i).run (id :: path) = (v, id :: path) ∧
          Unfolds shapes (id :: path) i v := by
      rw [nested_run]
      split
      · next hm => exact ⟨_, rfl, .cut hm⟩
      · next hm =>
        have hstored := hshapes shape (Array.mem_of_getElem? hshape) i hi
        refine ih hcons hm hstored ?_
        rw [List.length_cons]
        omega
    let view (i : ShapeId) : View := ((nested (expand shapes n) i).run (id :: path)).1
    have hview (i : ShapeId) (hi : i ∈ shape.body.parts) :
        (nested (expand shapes n) i).run (id :: path) = (view i, id :: path) ∧
          Unfolds shapes (id :: path) i (view i) := by
      obtain ⟨v, hrun, hunfolds⟩ := hparts i hi
      have hv : view i = v := congrArg Prod.fst hrun
      exact ⟨hv ▸ hrun, hv ▸ hunfolds⟩
    exact ⟨_, expand_succ_run hshape hn fun i hi => (hview i hi).1,
      .expanded view hn hshape fun i hi => (hview i hi).2⟩

/-! ## The views inside a view -/

/-- The shape that a view stands for. -/
def shapeId : View → ShapeId
  | .reference i | .expanded i .. => i

/-- The second view is inside the first one, below the expanded shapes of a path, outermost first. -/
inductive Inside : View → List ShapeId → View → Prop
  | root {v : View} : Inside v [] v
  | part {id : ShapeId} {shape : Shape} {items : Option View} {properties : List (String × View)}
      {members : List View} {v w : View} {ids : List ShapeId}
      (mem : v ∈ items.toList ++ properties.map (·.2) ++ members) (h : Inside v ids w) :
      Inside (.expanded id shape items properties members) (id :: ids) w

/-- A back reference is written as its number, and no other view is written in this way. -/
theorem toJson_eq_reference_iff {v : View} {i : ShapeId} :
    v.toJson = .obj [("$ref", .int i)] ↔ v = .reference i := by
  cases v with
  | reference j =>
    simp only [toJson, Json.obj.injEq, List.cons.injEq, Prod.mk.injEq, Json.int.injEq,
      Int.ofNat_inj, reference.injEq, true_and, and_true]
  | expanded => simp [toJson, fieldsBefore]

/-- A view bears the number of its shape. -/
theorem Unfolds.shapeId_eq {i : ShapeId} (h : Unfolds shapes path i v) : v.shapeId = i := by
  cases h <;> rfl

/-- A reference is printed just for a shape that is already on the path. -/
theorem Unfolds.toJson_iff (h : Unfolds shapes path v.shapeId v) :
    v.toJson = .obj [("$ref", .int v.shapeId)] ↔ v.shapeId ∈ path := by
  rw [toJson_eq_reference_iff]
  revert h
  generalize hi : v.shapeId = i
  intro h
  cases h with
  | cut h => exact iff_of_true rfl h
  | expanded _ h => exact iff_of_false nofun h

/-- The views of the parts of a body come from its parts. -/
theorem exists_part {b : Body} {view : ShapeId → View}
    (h : v ∈ (b.items?.map view).toList ++ (b.properties.map fun p => (p.1, view p.2)).map (·.2) ++
      b.members.map view) : ∃ i ∈ b.parts, view i = v := by
  simp only [List.mem_append, Option.mem_toList, Option.map_eq_some_iff, List.mem_map] at h
  simp only [Body.parts, List.mem_append, Option.mem_toList, List.mem_map]
  rcases h with (⟨i, hi, rfl⟩ | ⟨_, ⟨p, hp, rfl⟩, rfl⟩) | ⟨i, hi, rfl⟩
  · exact ⟨i, .inl (.inl hi), rfl⟩
  · exact ⟨p.2, .inl (.inr ⟨p, hp, rfl⟩), rfl⟩
  · exact ⟨i, .inr hi, rfl⟩

/-- What is inside an unfolding is the unfolding of a shape below a longer path. -/
theorem Unfolds.inside {ids : List ShapeId} (hshapes : Closed shapes) (hinside : Inside v ids w) :
    ∀ {path : List ShapeId}, Trail shapes path → v.shapeId < shapes.size →
      Unfolds shapes path v.shapeId v →
      Trail shapes (ids.reverse ++ path) ∧ Unfolds shapes (ids.reverse ++ path) w.shapeId w := by
  induction hinside with
  | root => exact fun hpath _ h => ⟨hpath, h⟩
  | @part id shape items properties members v w ids mem _ ih =>
    intro path hpath hid h
    cases h with
    | expanded view hn hshape parts =>
    obtain ⟨i, hi, rfl⟩ := exists_part mem
    have hunfolds := parts i hi
    have hstored := hshapes shape (Array.mem_of_getElem? hshape) i hi
    have hi' := hunfolds.shapeId_eq
    rw [List.reverse_cons, List.append_assoc, List.singleton_append]
    exact ih (hpath.cons hn hid) (hi'.symm ▸ hstored) (hi'.symm ▸ hunfolds)

/-- The view of a shape is the one unfolding of its graph. It does not depend on how many levels are
allowed, as soon as there are more of them than shapes, and no shape is being expanded afterwards. A
view inside it is written as a back reference if and only if its shape is expanded on the path to it;
no path expands a shape twice, so none has more views than one more than there are shapes. -/
theorem unfolds_ofShape {i : ShapeId} (hshapes : Closed shapes) (hi : i < shapes.size) :
    (∀ n, shapes.size < n → (expand shapes n i).run [] = (ofShape shapes i, [])) ∧
      (∀ v, Unfolds shapes [] i v ↔ v = ofShape shapes i) ∧
      ∀ ids w, Inside (ofShape shapes i) ids w →
        ids.Nodup ∧ (ids ++ [w.shapeId]).length ≤ shapes.size + 1 ∧
          (w.toJson = .obj [("$ref", .int w.shapeId)] ↔ w.shapeId ∈ ids) := by
  have hrun (n : Nat) (hn : shapes.size ≤ n) :=
    expand_run hshapes .nil (List.not_mem_nil (a := i)) hi (Nat.le_add_right_of_le hn)
  obtain ⟨v, hv, hunfolds⟩ := hrun _ (Nat.le_succ _)
  have hofShape : ofShape shapes i = v := congrArg Prod.fst hv
  rw [hofShape]
  refine ⟨fun n hn => ?_, fun w => ⟨fun hw => hw.unique hunfolds, fun hw => hw ▸ hunfolds⟩,
    fun ids w hw => ?_⟩
  · obtain ⟨w, hw, hunfolds'⟩ := hrun n (Nat.le_of_lt hn)
    rw [hw, hunfolds'.unique hunfolds]
  · have hid := hunfolds.shapeId_eq
    obtain ⟨htrail, hinside⟩ := Unfolds.inside hshapes hw .nil (hid.symm ▸ hi) (hid.symm ▸ hunfolds)
    rw [List.append_nil] at htrail hinside
    have hlength := htrail.length_le
    rw [List.length_reverse] at hlength
    refine ⟨List.nodup_reverse.1 htrail.nodup, ?_, ?_⟩
    · rw [List.length_append, List.length_singleton]
      exact Nat.succ_le_succ hlength
    · rw [hinside.toJson_iff, List.mem_reverse]

/-- A type with two properties of one shared type and a property that is the type itself or nothing. -/
theorem unfolds_ofShape_of_circle :
    let shape (name : String) (body : Body) := Shape.plain name ⟨"/lib.raml"⟩ .unknown body
    let shapes : Array Shape := #[
      shape "Node" (.object ⟨[("value", 1), ("twin", 1), ("next", 2)], none, none, none, none, none⟩),
      shape "Value" (Body.arrayOf (some 3)), shape "next" (.union [0, 3]), shape "Nothing" .nil]
    Closed shapes ∧ 0 < shapes.size ∧
      (∀ n, shapes.size < n → (expand shapes n 0).run [] = (ofShape shapes 0, [])) ∧
      (∀ v, Unfolds shapes [] 0 v ↔ v = ofShape shapes 0) ∧
      ∀ ids w, Inside (ofShape shapes 0) ids w →
        ids.Nodup ∧ (ids ++ [w.shapeId]).length ≤ shapes.size + 1 ∧
          (w.toJson = .obj [("$ref", .int w.shapeId)] ↔ w.shapeId ∈ ids) := by
  intro shape shapes
  have hshapes : Closed shapes := by
    rw [Closed]
    decide
  exact ⟨hshapes, by decide, unfolds_ofShape hshapes (by decide)⟩

end View

end RamlTypes
