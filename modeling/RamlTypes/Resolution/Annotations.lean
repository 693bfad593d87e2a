import RamlTypes.Fragment.Load

/-!
# Binding annotations

The annotations of shapes and of their examples are bound when everything is resolved. A mark tells
which shapes are done; it stays where it was when a binding fails.
-/

namespace RamlTypes

/-- The shapes whose annotations are to be bound: those above the mark that did not fail. -/
def Store.unbound (s : Store) : List Shape :=
  (s.shapes.toList.drop s.annotationsBound).filter fun shape => !s.isFailed shape.id

namespace Load

/-- Binds the annotations of examples up to the first fault, which is returned beside them. -/
def bindExamples (location : Path) : List Example → Load (List Example × Option PlainFault)
  | [] => return ([], none)
  | e :: rest => do
    let (annotations, fault) ← AnnotationUse.bindAll location e.annotations
    let e := { e with annotations := annotations }
    match fault with
    | some fault => return (e :: rest, some fault)
    | none =>
      let (rest, fault) ← bindExamples location rest
      return (e :: rest, fault)

/-- Writes the annotations of a shape and its examples. -/
def writeAnnotations (id : ShapeId) (annotations : Dict String AnnotationUse)
    (examples : List Example) : Load Unit :=
  change (·.mapShape id fun s => { s with annotations := annotations, examples := examples })
    fun s => s.grows_mapShape id _ (fun _ => ⟨rfl, List.prefix_rfl⟩) fun _ => .inl ⟨rfl, rfl, rfl⟩

/-- Binds the annotations of a shape and of its examples, and keeps those bound before a fault. -/
def bindShape (shape : Shape) : Load Unit := do
  let (annotations, fault) ← AnnotationUse.bindAll shape.location shape.annotations
  match fault with
  | some fault =>
    writeAnnotations shape.id annotations shape.examples
    fail fault
  | none =>
    let (examples, fault) ← bindExamples shape.location shape.examples
    writeAnnotations shape.id annotations examples
    match fault with
    | some fault => fail fault
    | none => return

/-- Binds the annotations of shapes one after the other. -/
def bindShapes : List Shape → Load Unit
  | [] => return
  | shape :: rest => do
    bindShape shape
    bindShapes rest

/-- Binds the annotations of all shapes that are not done, except those that failed. -/
def bindAnnotations : Load Unit := do
  bindShapes (← ask (·.unbound))
  change (fun s => { s with annotationsBound := s.shapes.size }) fun s => { Store.Grows.refl s with }

end Load

end RamlTypes
