import RamlTypes.Proofs.Equations.Requests

/-!
# What runs keep

Where an action stops, less may hold of the store than while it goes on. So a run keeps two
properties: one of the stores in which it goes on, and a weaker one of the store in which it stops.
`Store.KeptByRuns` collects what the actions of a request have to do for that, and
`Store.KeptByResolving` those of the resolution of a shape. The walk through the evaluation of a
declaration is made here, with the resolution of other shapes as a parameter.
-/

namespace RamlTypes

namespace Store

/-- The actions of resolving a shape keep the property `J` while the resolution goes on, and leave a
store with the property `E` where it stops. -/
structure KeptByResolving (J E : Store → Prop) : Prop where
  weaken (s : Store) : J s → E s
  evaluates (o : Owner) : (withInvariants J E (fun _ => True) weaken).Evaluates o
  beginResolution (i : ShapeId) {s : Store} : J s → J (s.beginResolution i)
  written (e : Evaluation) : e.start.Sound e.id → J e.start → J e.stop → J (written e)
  markFailed {s t : Store} {i : ShapeId} {a : Shape} {p : Pending} :
    s.claim i = .ok (some (a, p)) → J s → (s.beginResolution i).Grows t → E t →
    E ((t.endResolution i).markFailed i)

/-- The actions of a request keep the property `J` while the request goes on, and leave a store with
the property `E` where it stops. -/
structure KeptByRuns (J E : Store → Prop) : Prop
    extends KeptByResolving J E, KeptByLoads J E where
  popUnresolved {s : Store} : J s → J s.popUnresolved
  bindAnnotations {s : Store} : J s → Load.bindAnnotations.EndsIn s (fun _ => J) E

/-- A property that loading keeps is kept by runs if the changes that resolution makes keep it. -/
theorem KeptByLoading.keptByRuns {I : Store → Prop} (h : KeptByLoading I)
    (beginResolution : ∀ (i : ShapeId) {s : Store}, I s → I (s.beginResolution i))
    (written : ∀ e : Evaluation, e.start.Sound e.id → I e.start → I e.stop → I (written e))
    (markFailed : ∀ {s t : Store} {i : ShapeId} {a : Shape} {p : Pending},
      s.claim i = .ok (some (a, p)) → I s → (s.beginResolution i).Grows t → I t →
      I ((t.endResolution i).markFailed i))
    (popUnresolved : ∀ {s : Store}, I s → I s.popUnresolved) : KeptByRuns I I where
  toKeptByLoads := h.keptByLoads
  weaken _ hs := hs
  evaluates := h.evaluates
  beginResolution := beginResolution
  written := written
  markFailed := markFailed
  popUnresolved := popUnresolved
  bindAnnotations := h.bindAnnotations fun _ hs => hs

end Store

/-! ## The evaluation of a declaration -/

namespace Resolution

open Store

variable {J E : Store → Prop} {target : Path → Prop} {hJE : ∀ s, J s → E s}
  {resolve : ShapeId → Load Unit} {a : Shape} {p : Pending} {s t : Store}

/-- Finishing a shape keeps the invariant. -/
theorem endsIn_finish {o : Owner} (hlaws : (withInvariants J E target hJE).Evaluates o)
    (facets : List (String × Node)) (is ns : List ShapeId) (body : Body) (hs : J s) :
    (finish o facets is ns body).EndsIn s (fun _ => J) E :=
  (keeps_of_agree (hlaws.overlay () trivial (.same body) facets) hs).bind fun _ _ ht => .pure ht

section
variable (hlaws : (withInvariants J E target hJE).Evaluates a.owner)
  (hr : ∀ j t, Asks resolve a p s j t → J t → (resolve j).EndsIn t (fun _ => J) E)

include hlaws hr in
/-- So does taking over the body of a shape, if resolving that one keeps it. -/
theorem endsIn_takeOver {j : ShapeId} (h : Asks resolve a p s j t) (ht : J t) :
    (do resolve j; finish a.owner p.facets [j] [] (← Load.ask (·.bodyOf j)) : Load Resolution).EndsIn
      t (fun _ => J) E :=
  (hr j t h ht).bind fun _ _ hu => .ask (endsIn_finish hlaws _ _ _ _ hu)

include hlaws hr in
/-- So does a type expression. -/
theorem endsIn_ofExpr {text : String} {e : Expr} (hp : p.declared = .expression text)
    (he : Expr.parse text = .ok e) (hs : J s) :
    (ofExpr resolve a.owner p.facets e).EndsIn s (fun _ => J) E := by
  cases e with
  | ref library name =>
    refine (keeps_of_agree (hlaws.lookup () library name trivial) hs).bind_run fun j t hj ht => ?_
    rw [lookup, Load.ask_bind] at hj
    split at hj
    · next hd =>
      cases hj
      exact endsIn_takeOver hlaws hr (.reference hp he hd) ht
    · cases hj
  | builtin k => exact endsIn_finish hlaws _ _ _ _ hs
  | array inner =>
    refine (keeps_of_agree (hlaws.part inner () trivial) hs).bind fun _ _ ht => ?_
    exact endsIn_finish hlaws _ _ _ _ ht
  | optional inner =>
    refine (keeps_of_agree (hlaws.part inner () trivial) hs).bind fun _ t ht => ?_
    have hnil : Body.nil.kind ≠ .unknown := by decide
    refine (keeps_of_agree (hlaws.fresh () trivial .nil hnil) ht).bind fun _ _ hu => ?_
    exact endsIn_finish hlaws _ _ _ _ hu
  | union members =>
    refine (keeps_of_agree (hlaws.parts members () trivial) hs).bind fun _ _ ht => ?_
    exact endsIn_finish hlaws _ _ _ _ ht

include hlaws hr in
/-- So does a reference to a file. -/
theorem endsIn_ofLink (hp : p.declared = .link) (hs : J s) :
    (ofLink resolve a.owner p.facets a.link).EndsIn s (fun _ => J) E := by
  unfold ofLink
  rcases hl : a.link with _ | path
  · exact .stop (hJE s hs)
  · refine (keeps_of_agree (hlaws.dataType () path trivial trivial) hs).bind_run fun d t hd ht => ?_
    exact endsIn_takeOver hlaws hr (.link hp hl hd) ht

include hr in
/-- Some of the parents are resolved, after others and before others. -/
theorem endsIn_each (hp : p.declared = .parents) (ids after : List ShapeId) :
    ∀ (before : List ShapeId) {t : Store}, a.inherits = before ++ (ids ++ after) →
    each resolve before s = (.ok (), t) → J t → (each resolve ids).EndsIn t (fun _ => J) E := by
  induction ids with
  | nil => exact fun _ _ _ _ ht => .pure ht
  | cons j rest ih =>
    intro before t hparents hbefore ht
    refine (hr j t (.parent hp hparents hbefore) ht).bind_run fun _ u hu hJ => ?_
    exact ih _ (by rw [hparents, List.append_assoc]; rfl) (each_concat hbefore hu) hJ

include hlaws hr in
/-- So does a list of parents. -/
theorem endsIn_ofParents (hp : p.declared = .parents) (hs : J s) :
    (ofParents resolve a.owner p.facets a.inherits).EndsIn s (fun _ => J) E := by
  have hall : a.inherits = [] ++ (a.inherits ++ []) := by rw [List.append_nil, List.nil_append]
  refine (endsIn_each hr hp a.inherits [] [] hall rfl hs).bind fun _ t ht => .ask ?_
  refine (keeps_of_agree (hlaws.reportDivergence () _) ht).bind fun _ u hu => .ask ?_
  exact endsIn_finish hlaws _ _ _ _ hu

include hlaws hr in
/-- Evaluating a declaration keeps the properties if the resolutions that it asks for do. -/
theorem endsIn_ofPending (hs : J s) : (ofPending resolve a.owner a p).EndsIn s (fun _ => J) E := by
  rw [ofPending]
  split
  · next hp => exact endsIn_ofLink hlaws hr hp hs
  · next hp => exact endsIn_ofParents hlaws hr hp hs
  · next text hp =>
    split
    · next e he => exact endsIn_ofExpr hlaws hr hp he hs
    · exact .stop (hJE s hs)

end

end Resolution

end RamlTypes
