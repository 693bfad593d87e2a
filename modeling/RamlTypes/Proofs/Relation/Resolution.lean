import RamlTypes.Proofs.Relation.Fragment
import RamlTypes.Proofs.Resolved

/-!
# Evaluating declarations agrees

Two runs that evaluate the same pending declaration, with the resolution of other shapes as a
parameter, yield related resolutions.
-/

namespace RamlTypes.Comparison

/-- The actions of storing the parts of an expression of the owner `o` agree. -/
structure Expands (C : Comparison) (o : Owner) : Prop where
  addShape (w : C.World) (a b : Shape) : C.begun w o.location → a.Rel (C.ids w) b →
    a.IsNew (C.linked w) → a.location = o.location →
    C.Agree w (Load.addShape a) (Load.addShape b) C.fresh
  lookup (w : C.World) (library : Option String) (name : String) : C.begun w o.location →
    C.Agree w (Resolution.lookup o library name) (Resolution.lookup o library name) C.ids

/-- The actions of applying facets to a body of the owner `o` agree. -/
structure Overlays (C : Comparison) (o : Owner) : Prop extends C.Declares o.location where
  declare (w : C.World) (name : String) (node : Node) : C.begun w o.location →
    C.Agree w (Load.declare o.location name node) (Load.declare o.location name node) C.fresh

/-- The actions of evaluating a declaration of the owner `o` agree. -/
structure Evaluates (C : Comparison) (o : Owner) : Prop extends C.Overlays o, C.Expands o where
  dataType (w : C.World) (p : Path) : C.begun w o.location → C.linked w p →
    C.Agree w (Load.dataType p) (Load.dataType p) fun w' a b => C.ids w' a.shape b.shape
  body {w s t i j} : C.stores w s t → C.done w i j →
    (s.bodyOf i).Rel (C.ids w) (t.bodyOf j) ∧ (s.bodyOf i).kind ≠ .unknown
  kinds {w s t is js} : C.stores w s t → List.Forall₂ (C.done w) is js →
    Resolution.kinds t js = Resolution.kinds s is

/-- Two ways to resolve other shapes agree. -/
abbrev ResolveAgree (C : Comparison) (r r' : ShapeId → Load Unit) : Prop :=
  ∀ w i j, C.ids w i j → C.Agree w (r i) (r' j) fun w' _ _ => C.done w' i j

/-- Related results of a part of an expression. -/
abbrev PartRel (C : Comparison) (w : C.World) (a b : ShapeId × List ShapeId) : Prop :=
  C.ids w a.1 b.1 ∧ List.Forall₂ (C.ids w) a.2 b.2

/-- Related results of several parts of an expression. -/
abbrev PartsRel (C : Comparison) (w : C.World) (a b : List ShapeId × List ShapeId) : Prop :=
  List.Forall₂ (C.ids w) a.1 b.1 ∧ List.Forall₂ (C.ids w) a.2 b.2

/-- Related bodies, which have a kind of their own. -/
abbrev BodyOfRel (C : Comparison) (w : C.World) (a b : Body) : Prop :=
  a.Rel (C.ids w) b ∧ a.kind ≠ .unknown

/-- Related resolutions, which have a kind of their own. -/
abbrev ResolutionRel (C : Comparison) (w : C.World) (a b : Resolution) : Prop :=
  a.Rel (C.ids w) b ∧ a.body.kind ≠ .unknown

/-- Numbers that stand for each other do so in later worlds. -/
theorem allIds_mono {C : Comparison} {w w' : C.World} (hw : w ≤ w') {is js : List ShapeId}
    (h : List.Forall₂ (C.ids w) is js) : List.Forall₂ (C.ids w') is js :=
  h.imp fun _ _ => C.ids_mono hw

/-! ## Expressions -/

namespace Expands

variable {C : Comparison} {o : Owner} (hC : C.Expands o)

include hC in
/-- Storing a shape for a part of an expression agrees. -/
theorem fresh (w : C.World) (hw : C.begun w o.location) {a b : Body} (h : a.Rel (C.ids w) b)
    (hk : a.kind ≠ .unknown) :
    C.Agree w (Resolution.fresh o a) (Resolution.fresh o b) fun w' i j => C.ids w' i j := by
  have new : (Shape.plain o.name o.location o.mark a).IsNew (C.linked w) :=
    Shape.isNew_plain (Body.pending_eq_none_iff.2 hk)
  have rel : (Shape.plain o.name o.location o.mark a).Rel (C.ids w)
      (Shape.plain o.name o.location o.mark b) := ⟨rfl, .nil, .nil, .nil, .nil, h⟩
  exact (hC.addShape w _ _ hw rel new rfl).imp fun _ _ _ _ => C.ids_of_fresh

mutual

/-- By recursion on the expression, an operand is expanded alike. -/
theorem part (hC : C.Expands o) : ∀ (e : Expr) (w : C.World), C.begun w o.location →
    C.Agree w (Resolution.part o e) (Resolution.part o e) C.PartRel
  | .ref library name, w, hw => by
    unfold Resolution.part
    exact .bind (hC.lookup w library name hw) fun w' i j _ h => .pure ⟨h, .cons h .nil⟩
  | .builtin k, w, hw => by
    unfold Resolution.part
    exact .bind (fresh hC w hw (.emptyD k) (Body.emptyD_kind k)) fun w' i j _ h => .pure ⟨h, .nil⟩
  | .array inner, w, hw => by
    unfold Resolution.part
    refine .bind (part hC inner w hw) fun w₁ ⟨i, is⟩ ⟨j, js⟩ hw₁ ⟨hi, his⟩ => ?_
    refine .bind (fresh hC w₁ (C.begun_mono hw₁ hw) (.array _ (.some hi)) nofun)
      fun w₂ k l hw₂ hk => ?_
    exact .pure ⟨hk, allIds_mono hw₂ his⟩
  | .optional inner, w, hw => by
    unfold Resolution.part
    refine .bind (part hC inner w hw) fun w₁ ⟨i, is⟩ ⟨j, js⟩ hw₁ ⟨hi, his⟩ => ?_
    have hb₁ := C.begun_mono hw₁ hw
    refine .bind (fresh hC w₁ hb₁ .nil nofun) fun w₂ n m hw₂ hn => ?_
    have hi₂ := C.ids_mono hw₂ hi
    refine .bind (fresh hC w₂ (C.begun_mono hw₂ hb₁) (.union (.cons hi₂ (.cons hn .nil))) nofun)
      fun w₃ k l hw₃ hk => ?_
    exact .pure ⟨hk, allIds_mono (le_trans hw₂ hw₃) his⟩
  | .union members, w, hw => by
    unfold Resolution.part
    refine .bind (parts hC members w hw) fun w₁ ⟨is, ns⟩ ⟨js, ms⟩ hw₁ ⟨hi, hn⟩ => ?_
    refine .bind (fresh hC w₁ (C.begun_mono hw₁ hw) (.union hi) nofun) fun w₂ k l hw₂ hk => ?_
    exact .pure ⟨hk, allIds_mono hw₂ hn⟩

/-- So are the members of a union. -/
theorem parts (hC : C.Expands o) : ∀ (es : List Expr) (w : C.World), C.begun w o.location →
    C.Agree w (Resolution.parts o es) (Resolution.parts o es) C.PartsRel
  | [], w, hw => by
    unfold Resolution.parts
    exact .pure ⟨.nil, .nil⟩
  | e :: rest, w, hw => by
    unfold Resolution.parts
    refine .bind (part hC e w hw) fun w₁ ⟨i, is⟩ ⟨j, js⟩ hw₁ ⟨hi, his⟩ => ?_
    refine .bind (parts hC rest w₁ (C.begun_mono hw₁ hw)) fun w₂ ⟨ks, ns⟩ ⟨ls, ms⟩ hw₂ ⟨hk, hn⟩ => ?_
    exact .pure ⟨.cons (C.ids_mono hw₂ hi) hk, List.rel_append (allIds_mono hw₂ his) hn⟩

end

end Expands

/-! ## Facets -/

namespace Overlays

variable {C : Comparison} {o : Owner} (hC : C.Overlays o)

include hC in
/-- Raw facets are applied alike to related bodies. -/
theorem overlay (w : C.World) (hw : C.begun w o.location) {a b : Body} (h : a.Rel (C.ids w) b)
    (facets : List (String × Node)) :
    C.Agree w (Resolution.overlay o a facets) (Resolution.overlay o b facets)
      fun w' x y => C.AppliedRel w' x y ∧ x.1.kind = a.kind := by
  unfold Resolution.overlay
  split
  · exact .pure ⟨⟨h, rfl⟩, rfl⟩
  · have hd := fun w name node hw => hC.declare w name node hw
    exact (hC.toDeclares.applyFacets hd w hw _ h facets).yields
      (Facets.apply_kind _ _ _ _ facets)

include hC in
/-- Related bodies are finished to related results. -/
theorem finish (w : C.World) (hw : C.begun w o.location) (facets : List (String × Node))
    {is js ns ms : List ShapeId} (hi : List.Forall₂ (C.ids w) is js)
    (hn : List.Forall₂ (C.ids w) ns ms) {a b : Body} (h : a.Rel (C.ids w) b)
    (hk : a.kind ≠ .unknown) :
    C.Agree w (Resolution.finish o facets is ns a) (Resolution.finish o facets js ms b)
      C.ResolutionRel := by
  unfold Resolution.finish
  refine .bind (overlay hC w hw h facets) ?_
  rintro w' ⟨c, left⟩ ⟨d, left'⟩ hw' ⟨⟨hc, rfl⟩, hkind⟩
  refine .pure ⟨⟨hc, allIds_mono hw' hi, rfl, allIds_mono hw' hn⟩, ?_⟩
  exact fun hu => hk (hkind ▸ hu)

end Overlays

/-! ## Declarations -/

namespace Evaluates

variable {C : Comparison} {o : Owner} (hC : C.Evaluates o)

section
variable {r r' : ShapeId → Load Unit} (hr : C.ResolveAgree r r')

include hC hr in
/-- Taking over the body of a shape, once it is resolved, agrees. -/
theorem takeOver (w : C.World) (hw : C.begun w o.location) (facets : List (String × Node))
    {i j : ShapeId} (h : C.ids w i j) :
    C.Agree w
      (do r i; Resolution.finish o facets [i] [] (← Load.ask (·.bodyOf i)))
      (do r' j; Resolution.finish o facets [j] [] (← Load.ask (·.bodyOf j)))
      C.ResolutionRel := by
  refine .bind (hr w i j h) fun w' _ _ hw' hdone => ?_
  refine .bind (.ask (Q := C.BodyOfRel) fun s t hst => hC.body hst hdone) ?_
  rintro w'' a b hw'' ⟨hab, hk⟩
  refine hC.finish w'' (C.begun_mono (le_trans hw' hw'') hw) facets (.cons ?_ .nil) .nil hab hk
  exact C.ids_mono (le_trans hw' hw'') h

include hC hr in
/-- A type expression resolves alike. -/
theorem ofExpr (w : C.World) (hw : C.begun w o.location) (facets : List (String × Node)) (e : Expr) :
    C.Agree w (Resolution.ofExpr r o facets e) (Resolution.ofExpr r' o facets e)
      C.ResolutionRel := by
  cases e with
  | ref library name =>
    refine .bind (hC.lookup w library name hw) fun w' i j hw' h => ?_
    exact takeOver hC hr w' (C.begun_mono hw' hw) facets h
  | builtin k => exact hC.finish w hw facets .nil .nil (.emptyD k) (Body.emptyD_kind k)
  | array inner =>
    refine .bind (hC.part inner w hw) fun w' ⟨i, ns⟩ ⟨j, ms⟩ hw' ⟨hi, hn⟩ => ?_
    exact hC.finish w' (C.begun_mono hw' hw) facets .nil hn (.array _ (.some hi)) nofun
  | optional inner =>
    refine .bind (hC.part inner w hw) fun w₁ ⟨i, ns⟩ ⟨j, ms⟩ hw₁ ⟨hi, hn⟩ => ?_
    have hb₁ := C.begun_mono hw₁ hw
    refine .bind (hC.fresh w₁ hb₁ .nil nofun) fun w₂ k l hw₂ hk => ?_
    exact hC.finish w₂ (C.begun_mono hw₂ hb₁) facets .nil (allIds_mono hw₂ hn)
      (.union (.cons (C.ids_mono hw₂ hi) (.cons hk .nil))) nofun
  | union members =>
    refine .bind (hC.parts members w hw) fun w' ⟨is, ns⟩ ⟨js, ms⟩ hw' ⟨hi, hn⟩ => ?_
    exact hC.finish w' (C.begun_mono hw' hw) facets .nil hn (.union hi) nofun

include hC hr in
/-- So does a reference to a file. -/
theorem ofLink (w : C.World) (hw : C.begun w o.location) (facets : List (String × Node))
    {link : Option Path} (hl : ∀ p ∈ link, C.linked w p) :
    C.Agree w (Resolution.ofLink r o facets link) (Resolution.ofLink r' o facets link)
      C.ResolutionRel := by
  cases link with
  | none => exact .fail _
  | some p =>
    refine .bind (hC.dataType w p hw (hl p rfl)) fun w' d e hw' h => ?_
    exact takeOver hC hr w' (C.begun_mono hw' hw) facets h

include hr in
/-- The shapes of two lists are resolved one after the other. -/
theorem each (is : List ShapeId) : ∀ (w : C.World) {js : List ShapeId},
    List.Forall₂ (C.ids w) is js →
    C.Agree w (Resolution.each r is) (Resolution.each r' js)
      fun w' _ _ => List.Forall₂ (C.done w') is js := by
  induction is with
  | nil =>
    intro w js h
    cases h
    exact .pure .nil
  | cons i rest ih =>
    intro w js h
    cases h with
    | cons hij hrest =>
      refine .bind (hr w i _ hij) fun w' _ _ hw' hdone => ?_
      refine (ih w' (allIds_mono hw' hrest)).imp fun w'' _ _ hw'' hall => ?_
      exact .cons (C.done_mono hw'' hdone) hall

include hC in
/-- Parents of different kinds are reported alike. -/
theorem reportDivergence (w : C.World) (kinds : List (String × String)) :
    C.Agree w (Resolution.reportDivergence o kinds) (Resolution.reportDivergence o kinds)
      fun _ _ _ => True := by
  unfold Resolution.reportDivergence
  split
  · exact hC.report w _ nofun
  · exact .pure trivial

include hC in
/-- Resolved parents give related bodies. -/
theorem parentBody {w : C.World} {s t : Store} (hst : C.stores w s t) {is js : List ShapeId}
    (h : List.Forall₂ (C.done w) is js) : C.BodyOfRel w (s.parentBody is) (t.parentBody js) := by
  cases h with
  | nil => exact ⟨.any, nofun⟩
  | cons hij _ =>
    obtain ⟨hab, hk⟩ := hC.body hst hij
    exact ⟨hab.blank, fun hu => hk (Body.blank_kind _ ▸ hu)⟩

include hC hr in
/-- A list of parents resolves alike. -/
theorem ofParents (w : C.World) (hw : C.begun w o.location) (facets : List (String × Node))
    {is js : List ShapeId} (h : List.Forall₂ (C.ids w) is js) :
    C.Agree w (Resolution.ofParents r o facets is) (Resolution.ofParents r' o facets js)
      C.ResolutionRel := by
  refine .bind (each hr is w h) fun w₁ _ _ hw₁ hdone => ?_
  refine .see (P := fun _ => True) (fun s t hst => ⟨hC.kinds hst hdone, trivial⟩) fun kinds _ => ?_
  refine .bind (reportDivergence hC w₁ kinds) fun w₂ _ _ hw₂ _ => ?_
  have hdone₂ : List.Forall₂ (C.done w₂) is js := hdone.imp fun _ _ => C.done_mono hw₂
  refine .bind (.ask (Q := C.BodyOfRel) fun s t hst => parentBody hC hst hdone₂) ?_
  rintro w₃ a b hw₃ ⟨hab, hk⟩
  exact hC.finish w₃ (C.begun_mono (le_trans hw₁ (le_trans hw₂ hw₃)) hw) facets .nil .nil hab hk

include hC hr in
/-- Evaluating a pending declaration agrees. -/
theorem ofPending (w : C.World) (hw : C.begun w o.location) {a b : Shape} (h : a.Rel (C.ids w) b)
    (hl : ∀ p ∈ a.link, C.linked w p) (p : Pending) :
    C.Agree w (Resolution.ofPending r o a p) (Resolution.ofPending r' o b p) C.ResolutionRel := by
  unfold Resolution.ofPending
  split
  · rw [h.link]
    exact ofLink hC hr w hw p.facets hl
  · exact ofParents hC hr w hw p.facets h.inherits
  · split
    · exact ofExpr hC hr w hw p.facets _
    · exact .fail _

end

end Evaluates

/-- The resolution of shapes agrees. -/
structure Resolves (C : Comparison) : Prop where
  evaluates (o : Owner) : C.Evaluates o
  inProgress {w s t i j} : C.stores w s t → C.ids w i j → t.isInProgress j = s.isInProgress i
  resolving (w : C.World) (i j : ShapeId) (e e' : Shape → Pending → Load Resolution) :
    C.ids w i j →
    (∀ w' a b p, w ≤ w' → a.Rel (C.ids w') b → (∀ l ∈ a.link, C.linked w' l) →
      C.begun w' a.location → C.Agree w' (e a p) (e' b p) C.ResolutionRel) →
    C.Agree w (Load.resolving i e) (Load.resolving j e') fun w' is js =>
      List.Forall₂ (C.ids w') is js ∧ C.done w' i j

namespace Resolves

variable {C : Comparison} (hC : C.Resolves)

include hC in
/-- The shapes that nothing is in progress for are resolved alike. -/
theorem resolveIdle {r r' : ShapeId → Load Unit} (hr : C.ResolveAgree r r') (is : List ShapeId) :
    ∀ (w : C.World) {js : List ShapeId}, List.Forall₂ (C.ids w) is js →
    C.Agree w (Load.resolveIdle r is) (Load.resolveIdle r' js) fun _ _ _ => True := by
  induction is with
  | nil =>
    intro w js h
    cases h
    exact .pure trivial
  | cons i rest ih =>
    intro w js h
    cases h with
    | @cons _ j _ _ hij hrest =>
      have hidle : C.Agree w (Load.unlessResolving i (r i)) (Load.unlessResolving j (r' j))
          fun _ _ _ => True := by
        refine .see (P := fun _ => True) (fun s t hst => ⟨hC.inProgress hst hij, trivial⟩)
          fun busy _ => ?_
        split
        · exact (hr w i j hij).imp fun _ _ _ _ _ => trivial
        · exact .pure trivial
      exact .bind hidle fun w' _ _ hw' _ => ih w' (allIds_mono hw' hrest)

include hC in
/-- The resolution of a shape up to the point where the types inside its expression are left. -/
theorem resolvingWithin {r r' : ShapeId → Load Unit} (hr : C.ResolveAgree r r') (w : C.World)
    {i j : ShapeId} (hij : C.ids w i j) :
    C.Agree w
      (Load.resolving i fun a p => Resolution.ofPending r ⟨a.name, a.location, a.mark⟩ a p)
      (Load.resolving j fun a p => Resolution.ofPending r' ⟨a.name, a.location, a.mark⟩ a p)
      fun w' is js => List.Forall₂ (C.ids w') is js ∧ C.done w' i j := by
  refine hC.resolving w i j _ _ hij fun w' a b p hw' hab hl hb => ?_
  have ho : (⟨b.name, b.location, b.mark⟩ : Owner) = ⟨a.name, a.location, a.mark⟩ := by
    rw [hab.name, hab.location, hab.mark]
  rw [ho]
  exact (hC.evaluates _).ofPending hr w' hb hab hl p

include hC in
/-- Resolving shapes agrees. The depths to go may differ if both runs may give up. -/
theorem resolveWithin (n : Nat) : ∀ m, m = n ∨ C.excused .exhausted ∧ C.ignored .exhausted →
    C.ResolveAgree (Load.resolveWithin n) (Load.resolveWithin m) := by
  induction n with
  | zero =>
    intro m hm w i j _
    rcases hm with rfl | ⟨hex, -⟩
    · exact .exhaust
    · exact fun s t _ _ => .excusedLeft hex _
  | succ n ih =>
    intro m hm w i j hij
    cases m with
    | zero =>
      obtain ⟨-, hig⟩ := hm.resolve_left nofun
      exact fun s t _ _ => .ignoredRight hig _
    | succ m =>
      have hr := ih m (hm.imp_left Nat.succ.inj)
      refine .bind (resolvingWithin hC hr w hij) fun w' is js hw' ⟨his, hdone⟩ => ?_
      exact (resolveIdle hC hr is w' his).imp fun w'' _ _ hw'' _ => C.done_mono hw'' hdone

end Resolves

end RamlTypes.Comparison
