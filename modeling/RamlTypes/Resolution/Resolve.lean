import RamlTypes.Expr.Reader
import RamlTypes.Resolution.Annotations
import RamlTypes.Resolution.Potential

/-!
# Resolving shapes

A shape is resolved from its declaration. One that is declared by a name or an include takes the
body of the shape it names, and one with parents the kind of the first parent; these are resolved
before. The types inside a compound expression are only referred to, and are resolved afterwards, so
that a type may occur in its own items. A shape whose resolution fails stays failed.
-/

namespace RamlTypes

/-- The declaration that is being resolved. -/
structure Owner where
  name : String
  location : Path
  mark : Mark

/-- Where the shape stands that is being resolved. -/
def Owner.place (o : Owner) : Location := ⟨o.location, o.mark⟩

namespace Store

/-- The shape that a name denotes in a file, or in a library that the file uses. -/
def denoted? (s : Store) (location : Path) (library : Option String) (name : String) :
    Option ShapeId :=
  match library with
  | none => s.lookup? location name
  | some l => ((s.usesOf? location).bind (Dict.find? l)).bind (s.lookup? · name)

/-- The body of a shape; a number without a shape has none. -/
def bodyOf (s : Store) (id : ShapeId) : Body :=
  (s.shapes[id]?.map (·.body)).getD .any

/-- The body that a list of parents gives: one of the kind of the first. -/
def parentBody (s : Store) : List ShapeId → Body
  | first :: _ => (s.bodyOf first).blank
  | [] => .any

end Store

/-- What the resolution of a shape yields. -/
structure Resolution where
  body : Body
  /-- The shape whose body was taken. -/
  inherits : List ShapeId
  customFacets : Dict String Node
  /-- The types that the expression refers to inside of a compound. -/
  nested : List ShapeId

namespace Resolution

/-- A name with the alias of its library. -/
def fullName : Option String → String → String
  | some l, name => l ++ "." ++ name
  | none, name => name

/-- The shape that a name denotes in the file of its user, or in a library that the file uses. -/
def lookup (o : Owner) (library : Option String) (name : String) : Load ShapeId := do
  match ← Load.ask (·.denoted? o.location library name) with
  | some id => return id
  | none => Load.fail (.referenceNotFound (fullName library name) o.place)

/-- Stores a shape for a part of an expression. -/
def fresh (o : Owner) (body : Body) : Load ShapeId :=
  Load.addShape (Shape.plain o.name o.location o.mark body)

mutual

/-- The shape of a part of an expression, and the types that are referred to inside. A name stands
for the shape it denotes, and everything else for a new one. -/
def part (o : Owner) : Expr → Load (ShapeId × List ShapeId)
  | .ref library name => do
    let id ← lookup o library name
    return (id, [id])
  | .builtin k => do
    let id ← fresh o ((Body.empty? k).getD .any)
    return (id, [])
  | .array inner => do
    let (id, nested) ← part o inner
    return (← fresh o (Body.arrayOf id), nested)
  | .optional inner => do
    let (id, nested) ← part o inner
    let nil ← fresh o .nil
    return (← fresh o (.union [id, nil]), nested)
  | .union members => do
    let (ids, nested) ← parts o members
    return (← fresh o (.union ids), nested)

/-- The shapes of several parts, in their order. -/
def parts (o : Owner) : List Expr → Load (List ShapeId × List ShapeId)
  | [] => return ([], [])
  | e :: rest => do
    let (id, nested) ← part o e
    let (ids, more) ← parts o rest
    return (id :: ids, nested ++ more)

end

/-- Applies the raw facets of a declaration to a resolved body. -/
def overlay (o : Owner) (body : Body) (facets : List (String × Node)) :
    Load (Body × Dict String Node) :=
  if facets.isEmpty then return (body, [])
  else Facets.apply (Load.declare o.location) o.location o.name body facets

/-- The resolution to a body with the raw facets applied. -/
def finish (o : Owner) (facets : List (String × Node)) (inherits nested : List ShapeId)
    (body : Body) : Load Resolution := do
  let (body, custom) ← overlay o body facets
  return ⟨body, inherits, custom, nested⟩

/-- Resolves a declaration by an expression. -/
def ofExpr (resolve : ShapeId → Load Unit) (o : Owner) (facets : List (String × Node)) :
    Expr → Load Resolution
  | .ref library name => do
    let id ← lookup o library name
    resolve id
    finish o facets [id] [] (← Load.ask (·.bodyOf id))
  | .builtin k => finish o facets [] [] ((Body.empty? k).getD .any)
  | .array inner => do
    let (id, nested) ← part o inner
    finish o facets [] nested (Body.arrayOf id)
  | .optional inner => do
    let (id, nested) ← part o inner
    let nil ← fresh o .nil
    finish o facets [] nested (.union [id, nil])
  | .union members => do
    let (ids, nested) ← parts o members
    finish o facets [] nested (.union ids)

/-- Resolves a declaration by an include. -/
def ofLink (resolve : ShapeId → Load Unit) (o : Owner) (facets : List (String × Node))
    (link : Option Path) : Load Resolution := do
  match link with
  | none => Load.fail (.decode o.place .noLink)
  | some path =>
    let id := (← Load.dataType path).shape
    resolve id
    finish o facets [id] [] (← Load.ask (·.bodyOf id))

/-- Resolves shapes one after the other. -/
def each (resolve : ShapeId → Load Unit) : List ShapeId → Load Unit
  | [] => return
  | id :: rest => do
    resolve id
    each resolve rest

/-- The names of shapes and of their kinds. -/
def kinds (s : Store) (ids : List ShapeId) : List (String × String) :=
  ids.filterMap fun id => s.shapes[id]?.map fun shape => (shape.name, shape.kind.name)

/-- Whether two neighbours of a list of kinds differ. -/
def diverge : List (String × String) → Bool
  | a :: b :: rest => a.2 != b.2 || diverge (b :: rest)
  | _ => false

/-- Reports parents of different kinds. -/
def reportDivergence (o : Owner) (kinds : List (String × String)) : Load Unit :=
  if diverge kinds then
    Load.report (.divergentParents (o.location.text ++ "#" ++ o.name) kinds)
  else return

/-- Resolves a declaration by a list of parents. Parents of different kinds are reported. -/
def ofParents (resolve : ShapeId → Load Unit) (o : Owner) (facets : List (String × Node))
    (parents : List ShapeId) : Load Resolution := do
  each resolve parents
  reportDivergence o (← Load.ask (kinds · parents))
  finish o facets [] [] (← Load.ask (·.parentBody parents))

/-- Resolves a declaration. -/
def ofPending (resolve : ShapeId → Load Unit) (o : Owner) (shape : Shape) (p : Pending) :
    Load Resolution :=
  match p.declared with
  | .link => ofLink resolve o p.facets shape.link
  | .parents => ofParents resolve o p.facets shape.inherits
  | .expression text =>
    match Expr.parse text with
    | .ok e => ofExpr resolve o p.facets e
    | .error offset => Load.fail (.expressionSyntax text offset o.place)

end Resolution

namespace Store

/-- Notes that the resolution of a shape begins. -/
def beginResolution (s : Store) (id : ShapeId) : Store :=
  { s with inProgress := id :: s.inProgress }

/-- Notes that the resolution of a shape ends. -/
def endResolution (s : Store) (id : ShapeId) : Store :=
  { s with inProgress := s.inProgress.filter (· ≠ id) }

/-- Notes that a shape failed. -/
def markFailed (s : Store) (id : ShapeId) : Store :=
  { s with failed := if s.isFailed id then s.failed else id :: s.failed }

/-- Writes a resolution into its shape. -/
def writeResolution (s : Store) (id : ShapeId) (r : Resolution) : Store :=
  let s := s.mapShape id fun shape =>
    { shape with
      body := r.body
      inherits := shape.inherits ++ r.inherits
      customFacets := Dict.putAll shape.customFacets r.customFacets }
  { s with resolved := s.resolved ++ [id] }

/-- Takes the first shape from the work list. -/
def popUnresolved (s : Store) : Store :=
  { s with unresolved := s.unresolved.tail }

/-- The pending declaration of a shape whose resolution can begin. A shape that is resolved has
none. One that failed or whose resolution has begun cannot be resolved. -/
def claim (s : Store) (id : ShapeId) : Except Stop (Option (Shape × Pending)) :=
  match s.shapes[id]? with
  | none => .ok none
  | some shape =>
    match shape.body.pending? with
    | none => .ok none
    | some p =>
      let place : Location := ⟨shape.location, shape.mark⟩
      if s.isFailed id then .error (.fault (.unresolvable shape.name place))
      else if s.isInProgress id then .error (.cycle shape.name place)
      else .ok (some (shape, p))

variable {s s' : Store} {id : ShapeId}

/-- A shape is claimed only while it waits, and neither has failed nor is in progress. -/
theorem claim_of_shape {a : Shape} (h : s.shapes[id]? = some a) :
    s.claim id =
      match a.body.pending? with
      | none => .ok none
      | some p =>
        if s.isFailed id then .error (.fault (.unresolvable a.name ⟨a.location, a.mark⟩))
        else if s.isInProgress id then .error (.cycle a.name ⟨a.location, a.mark⟩)
        else .ok (some (a, p)) := by
  rw [claim, h]

/-- A shape whose resolution can begin waits for it. -/
theorem waits_of_claim {a : Shape} {p : Pending} (h : s.claim id = .ok (some (a, p))) :
    s.shapes[id]? = some a ∧ a.body.pending? = some p ∧ s.Waits id a := by
  rw [claim] at h
  split at h
  · cases h
  · next shape hs =>
    split at h
    · cases h
    · next q hq =>
      split at h
      · cases h
      · next hf =>
        split at h
        · cases h
        · next hi =>
          cases h
          refine ⟨hs, hq, ⟨?_, fun hmem => hi ?_, fun hmem => hf ?_⟩⟩
          · rw [Shape.isUnknown, hq]
            rfl
          · exact List.contains_iff_mem.2 hmem
          · exact List.contains_iff_mem.2 hmem

/-- What happens between the beginning and the end of the resolution of a shape is growth. -/
theorem grows_endResolution {a : Shape} (hw : s.Waits id a)
    (h : (s.beginResolution id).Grows s') : s.Grows (s'.endResolution id) :=
  { h with
    shapes := fun i b hb => by
      obtain ⟨c, hc, hbc, hkeep⟩ := h.shapes i b hb
      refine ⟨c, hc, hbc, hkeep.imp_right fun hw => ⟨hw.1, fun hmem => hw.2 ?_, hw.3⟩⟩
      exact List.mem_cons_of_mem _ hmem
    inProgress := by
      rw [endResolution, h.inProgress, beginResolution, List.filter_cons_of_neg (by simp)]
      exact List.filter_eq_self.2 fun i hi => by
        simpa using fun hne : i = id => hw.notInProgress (hne ▸ hi) }

/-- A shape that is marked as failed stays. -/
theorem grows_markFailed (s : Store) (id : ShapeId) : s.Grows (s.markFailed id) :=
  { Grows.refl s with
    failed := by
      rw [markFailed]
      split
      · exact List.Subset.refl _
      · exact List.subset_cons_self _ _ }

/-- A resolution may be written into a shape that waited before. -/
theorem grows_writeResolution {a : Shape} (ha : s.shapes[id]? = some a) (hw : s.Waits id a)
    (h : s.Grows s') (r : Resolution) : s.Grows (s'.writeResolution id r) :=
  { h with
    shapes := fun i b hb => by
      obtain ⟨c, hc, hbc, hkeep⟩ := h.shapes i b hb
      rw [writeResolution, getElem?_mapShape]
      split
      · next heq =>
        subst heq
        cases ha.symm.trans hb
        exact ⟨_, by rw [hc]; rfl, hbc.trans ⟨rfl, List.prefix_append _ _⟩, .inr hw⟩
      · exact ⟨c, hc, hbc, hkeep⟩
    ids := fun i b hi hb => by
      rw [writeResolution, getElem?_mapShape] at hb
      split at hb
      · next heq =>
        subst heq
        exact absurd (Array.getElem?_eq_some_iff.1 ha).1 (Nat.not_lt_of_le hi)
      · exact h.ids i b hi hb
    resolved := h.resolved.trans (List.prefix_append _ _) }

/-- So do the shapes that wait. -/
theorem grows_popUnresolved (s : Store) : s.Grows s.popUnresolved :=
  { Grows.refl s with }

end Store

namespace Load

/-- Evaluates the pending declaration of a shape between the beginning and the end of its resolution
and writes what that yields into the shape. Returns the shapes that are to be resolved afterwards. A
shape whose evaluation stops has failed; one that is resolved already stays as it is. -/
def resolving (id : ShapeId) (evaluate : Shape → Pending → Load Resolution) :
    Load (List ShapeId) where
  run s :=
    match s.claim id with
    | .error e => (.error e, s)
    | .ok none => (.ok [], s)
    | .ok (some (shape, p)) =>
      match evaluate shape p (s.beginResolution id) with
      | (.ok r, s') => (.ok r.nested, (s'.endResolution id).writeResolution id r)
      | (.error e, s') => (.error e, (s'.endResolution id).markFailed id)
  grows s := by
    split
    · exact .refl s
    · exact .refl s
    · next shape p h =>
      obtain ⟨ha, -, hw⟩ := Store.waits_of_claim h
      have hrun := (evaluate shape p).grows (s.beginResolution id)
      split
      · next r s' hr =>
        rw [hr] at hrun
        exact Store.grows_writeResolution ha hw (Store.grows_endResolution hw hrun) r
      · next e s' hr =>
        rw [hr] at hrun
        exact (Store.grows_endResolution hw hrun).trans (Store.grows_markFailed _ id)

/-- The claim, one level of resolution and the writing of its result, spelled out. -/
theorem resolving_apply (id : ShapeId) (evaluate : Shape → Pending → Load Resolution) (s : Store) :
    resolving id evaluate s =
      match s.claim id with
      | .error e => (.error e, s)
      | .ok none => (.ok [], s)
      | .ok (some (shape, p)) =>
        match evaluate shape p (s.beginResolution id) with
        | (.ok r, s') => (.ok r.nested, (s'.endResolution id).writeResolution id r)
        | (.error e, s') => (.error e, (s'.endResolution id).markFailed id) := rfl

/-- Resolves a shape unless its own resolution has begun. -/
def unlessResolving (id : ShapeId) (x : Load Unit) : Load Unit := do
  if !(← ask (·.isInProgress id)) then x

/-- Resolves those of the given shapes whose own resolution has not begun. -/
def resolveIdle (resolve : ShapeId → Load Unit) : List ShapeId → Load Unit
  | [] => return
  | id :: rest => do
    unlessResolving id (resolve id)
    resolveIdle resolve rest

/-- Resolves a shape with chains of dependencies of length `n` at most. Only an unresolved shape
changes. -/
def resolveWithin : Nat → ShapeId → Load Unit
  | 0, _ => exhaust
  | n + 1, id => do
    let nested ← resolving id fun shape p =>
      Resolution.ofPending (resolveWithin n) ⟨shape.name, shape.location, shape.mark⟩ shape p
    resolveIdle (resolveWithin n) nested

/-- Resolves a shape. -/
def resolve (id : ShapeId) : Load Unit := do
  resolveWithin ((← ask (·.potential)) + 1) id

/-- Resolves a shape unless it failed. -/
def unlessFailed (id : ShapeId) (x : Load Unit) : Load Unit := do
  if !(← ask (·.isFailed id)) then x

/-- Resolves the shapes of the work list, without those that failed, until it is empty. `n` bounds
their number and `depth` the length of chains of dependencies. -/
def drain (depth : Nat) : Nat → Load Unit
  | 0 => exhaust
  | n + 1 => do
    match ← ask (·.unresolved) with
    | [] => return
    | id :: _ =>
      change (·.popUnresolved) (·.grows_popUnresolved)
      unlessFailed id (resolveWithin depth id)
      drain depth n

/-- Resolves the whole work list. -/
def drainAll : Load Unit := do
  let potential ← ask (·.potential)
  drain (potential + 1) ((← ask (·.unresolved.length)) + potential + 1)

/-- Resolves the whole work list, and then binds annotations. -/
def resolveAll : Load Unit := do
  drainAll
  bindAnnotations

/-- Resolves the shape that a file declares under a name. -/
def resolveNamed (p : Path) (name : String) : Load ShapeId := do
  let path ← ask (·.normalize p)
  match ← ask (·.lookup? path name) with
  | none => fail (.referenceNotFound name (.file path))
  | some id =>
    resolve id
    return id

end Load

end RamlTypes
