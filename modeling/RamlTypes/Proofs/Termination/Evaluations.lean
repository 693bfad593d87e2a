import RamlTypes.Proofs.Equations.Evaluation
import RamlTypes.Proofs.Termination.Files

/-!
# An evaluation costs the raw facets

To evaluate a declaration other shapes are resolved, expressions are expanded, which costs nothing,
and raw facets are applied. So if the resolutions that a declaration asks for leave the work as it
is, evaluating it costs its raw facets (`Resolution.finishes_ofPending`).
-/

namespace RamlTypes

namespace Store

/-- A store in which no file is being read, with at least `q` shapes in the work list and at most
`b` left of work. -/
structure Within (q b : Nat) (s : Store) : Prop where
  root : s.settings.root.isAbsolute
  loading : s.loading = []
  queue : q ≤ s.unresolved.length
  work : s.work ≤ b

section
variable {s t : Store} {q b c : Nat}

/-- A larger bound is kept as well. -/
theorem Within.mono (h : s.Within q b) (hb : b ≤ c) : s.Within q c :=
  { h with work := Nat.le_trans h.work hb }

/-- What is not in the work list is debt. -/
theorem Within.debt_add_le (h : s.Within q b) : s.debt + q ≤ b := by
  have hqueue := h.queue
  have hwork := h.work
  rw [Store.work] at hwork
  omega

/-- What is spent is taken from the bound. -/
theorem Within.spends (h : s.Within q b) (hg : s.Grows t) (ht : s.Spends c t 0) :
    t.Within q (b + c) where
  root := hg.settings ▸ h.root
  loading := List.subset_nil.1 (h.loading ▸ hg.loading)
  queue := Nat.le_trans h.queue ht.queue
  work := by
    have hwork := h.work
    have hspent := ht.work
    omega

end

end Store

namespace Load

variable {α : Type} {x : Load α} {s : Store} {q b c : Nat}

/-- A load that leaves the work as it is. -/
theorem IsFreeAt.within (hx : x.IsFreeAt s) (hs : s.Within q b) :
    x.Finishes s fun _ => Store.Within q b :=
  hx.imp_run fun _ _ hr ht => hs.spends (grows_of_apply hr) ht

/-- A load with a cost. -/
theorem Pays.within (hx : ∀ d, x.Pays d c fun _ => 0) (hs : s.Within q b) :
    x.Finishes s fun _ => Store.Within q (b + c) :=
  (hx _ s hs.root (Nat.lt_succ_self _)).imp_run fun _ _ hr ht => hs.spends (grows_of_apply hr) ht

end Load

namespace Resolution

open Load (Pays IsFree)

variable {d : Nat} {o : Owner}

/-! ## Expressions -/

/-- Looking a name up costs nothing. -/
theorem isFree_lookup (library : Option String) (name : String) :
    (lookup o library name).IsFree d := by
  refine .ask fun found => ?_
  cases found with
  | some id => exact .pure (Nat.le_refl _)
  | none => exact .fail _

/-- Storing a shape with a known body costs nothing. -/
theorem isFree_fresh {body : Body} (hk : body.kind ≠ .unknown) : (fresh o body).IsFree d := by
  have hknown : (Shape.plain o.name o.location o.mark body).isUnknown = false :=
    Shape.isUnknown_eq_false_iff.2 hk
  exact (Pays.addShape _).of_le (Nat.le_of_eq (Shape.price_of_not_isUnknown hknown))

mutual

/-- The shapes for the parts of an expression have kinds of their own, so nothing is left to be
resolved. -/
theorem isFree_part (o : Owner) (d : Nat) : ∀ e : Expr, (part o e).IsFree d
  | .ref library name => by
    unfold part
    exact .bind (isFree_lookup library name) fun _ => .pure (Nat.le_refl _)
  | .builtin k => by
    unfold part
    exact .bind (isFree_fresh (Body.emptyD_kind k)) fun _ => .pure (Nat.le_refl _)
  | .array inner => by
    unfold part
    exact .bind (isFree_part o d inner) fun _ => .bind (isFree_fresh nofun) fun _ =>
      .pure (Nat.le_refl _)
  | .optional inner => by
    unfold part
    exact .bind (isFree_part o d inner) fun _ => .bind (isFree_fresh nofun) fun _ =>
      .bind (isFree_fresh nofun) fun _ => .pure (Nat.le_refl _)
  | .union members => by
    unfold part
    exact .bind (isFree_parts o d members) fun _ => .bind (isFree_fresh nofun) fun _ =>
      .pure (Nat.le_refl _)

/-- By recursion on the expressions, expanding them costs nothing. -/
theorem isFree_parts (o : Owner) (d : Nat) : ∀ es : List Expr, (parts o es).IsFree d
  | [] => by
    unfold parts
    exact .pure (Nat.le_refl _)
  | e :: rest => by
    unfold parts
    exact .bind (isFree_part o d e) fun _ => .bind (isFree_parts o d rest) fun _ =>
      .pure (Nat.le_refl _)

end

/-! ## Raw facets -/

/-- Applying raw facets costs what they weigh. -/
theorem pays_overlay (body : Body) (facets : List (String × Node)) :
    (overlay o body facets).Pays d (facetsWeight facets) fun _ => 0 := by
  unfold overlay
  split
  · exact .pure (Nat.zero_le _)
  · have hdeclare : Facets.Affords (Load.declare o.location) d
        (Node.heightItems (facets.map (·.2))) :=
      fun name node _ => Load.pays_declare o.location name node
    exact Facets.pays_apply facets hdeclare (fun _ hv => Node.height_le_heightItems hv) body

/-- So does finishing a shape. -/
theorem pays_finish (facets : List (String × Node)) (is ns : List ShapeId) (body : Body) :
    (finish o facets is ns body).Pays d (facetsWeight facets) fun _ => 0 :=
  .bind (pays_overlay body facets) fun _ => .pure (Nat.le_refl _)

/-- Reports cost nothing. -/
theorem isFree_reportDivergence (kinds : List (String × String)) :
    (reportDivergence o kinds).IsFree d := by
  unfold reportDivergence
  split
  · exact .report _
  · exact .pure (Nat.le_refl _)

/-! ## Declarations -/

section
variable {resolve : ShapeId → Load Unit} {a : Shape} {p : Pending} {s t : Store} {q b : Nat}
  (hr : ∀ j t, Asks resolve a p s j t → t.Within q b →
    (resolve j).Finishes t fun _ => Store.Within q b)
include hr

/-- To take over the body of another shape costs that shape and the raw facets. -/
theorem finishes_takeOver {j : ShapeId} (h : Asks resolve a p s j t) (ht : t.Within q b) :
    (do
      resolve j
      finish a.owner p.facets [j] [] (← Load.ask (·.bodyOf j)) : Load Resolution).Finishes t
      fun _ => Store.Within q (b + facetsWeight p.facets) :=
  (hr j t h ht).bind fun _ _ hu => .ask (Pays.within (fun _ => pays_finish _ _ _ _) hu)

/-- A type expression ends: each shape that it asks for has less work left. -/
theorem finishes_ofExpr {text : String} {e : Expr} (hp : p.declared = .expression text)
    (he : Expr.parse text = .ok e) (hs : s.Within q b) :
    (ofExpr resolve a.owner p.facets e).Finishes s
      fun _ => Store.Within q (b + facetsWeight p.facets) := by
  have hfinish (is ns : List ShapeId) (body : Body) {t : Store} (ht : t.Within q b) :
      (finish a.owner p.facets is ns body).Finishes t
        fun _ => Store.Within q (b + facetsWeight p.facets) :=
    Pays.within (fun _ => pays_finish _ _ _ _) ht
  cases e with
  | ref library name =>
    refine (Pays.within (fun _ => isFree_lookup library name) hs).bind_run fun j t hj ht => ?_
    rw [lookup, Load.ask_bind] at hj
    split at hj
    · next hd =>
      cases hj
      exact finishes_takeOver hr (.reference hp he hd) ht
    · cases hj
  | builtin k => exact hfinish _ _ _ hs
  | array inner =>
    refine (Pays.within (fun d => isFree_part _ d inner) hs).bind fun _ _ ht => ?_
    exact hfinish _ _ _ ht
  | optional inner =>
    refine (Pays.within (fun d => isFree_part _ d inner) hs).bind fun _ t ht => ?_
    have hnil : Body.nil.kind ≠ .unknown := nofun
    refine (Pays.within (fun _ => isFree_fresh hnil) ht).bind fun _ _ hu => ?_
    exact hfinish _ _ _ hu
  | union members =>
    refine (Pays.within (fun d => isFree_parts _ d members) hs).bind fun _ _ ht => ?_
    exact hfinish _ _ _ ht

/-- So does a reference to a file. -/
theorem finishes_ofLink (hp : p.declared = .link) (hs : s.Within q b) :
    (ofLink resolve a.owner p.facets a.link).Finishes s
      fun _ => Store.Within q (b + facetsWeight p.facets) := by
  unfold ofLink
  rcases hl : a.link with _ | path
  · exact .fail _
  · have hload := (Load.isFreeAt_dataType hs.root hs.loading path).within hs
    exact hload.bind_run fun d t hd ht => finishes_takeOver hr (.link hp hl hd) ht

/-- Some of the parents are resolved, after others and before others. -/
theorem finishes_each (hp : p.declared = .parents) (ids after : List ShapeId) :
    ∀ (before : List ShapeId) {t : Store}, a.inherits = before ++ (ids ++ after) →
    each resolve before s = (.ok (), t) → t.Within q b →
    (each resolve ids).Finishes t fun _ => Store.Within q b := by
  induction ids with
  | nil => exact fun _ _ _ _ ht => .pure ht
  | cons j rest ih =>
    intro before t hparents hbefore ht
    refine (hr j t (.parent hp hparents hbefore) ht).bind_run fun _ u hu hw => ?_
    exact ih _ (by rw [hparents, List.append_assoc]; rfl) (each_concat hbefore hu) hw

/-- And so does a list of parents. -/
theorem finishes_ofParents (hp : p.declared = .parents) (hs : s.Within q b) :
    (ofParents resolve a.owner p.facets a.inherits).Finishes s
      fun _ => Store.Within q (b + facetsWeight p.facets) := by
  have hall : a.inherits = [] ++ (a.inherits ++ []) := by rw [List.append_nil, List.nil_append]
  refine (finishes_each hr hp a.inherits [] [] hall rfl hs).bind fun _ t ht => .ask ?_
  refine (Pays.within (fun _ => isFree_reportDivergence _) ht).bind fun _ u hu => .ask ?_
  exact Pays.within (fun _ => pays_finish _ _ _ _) hu

/-- Evaluating a declaration costs its raw facets if the resolutions that it asks for leave the work
as it is. -/
theorem finishes_ofPending (hs : s.Within q b) : (ofPending resolve a.owner a p).Finishes s
    fun _ => Store.Within q (b + facetsWeight p.facets) := by
  rw [ofPending]
  split
  · next hp => exact finishes_ofLink hr hp hs
  · next hp => exact finishes_ofParents hr hp hs
  · next text hp =>
    split
    · next e he => exact finishes_ofExpr hr hp he hs
    · exact .fail _

end

end Resolution

end RamlTypes
