import RamlTypes.Proofs.Declarations.Places
import RamlTypes.Proofs.Expr.Mentions
import RamlTypes.Proofs.Expr.RoundTrip
import RamlTypes.Proofs.Lifecycle.Lists
import RamlTypes.Proofs.Preservation.Indexes
import RamlTypes.Proofs.Termination.Sessions

/-!
# Declarations that wait

A declaration whose type is the name of a built-in kind is completed where it is read. If the type is
the same name in parentheses, or a reference to a type that is declared as just this kind, the facets
wait until the shape is resolved. Then they are applied in a store that has one more shape, the one that
waits, and nothing else has changed that a declaration depends on (`Store.Coherent.beside_beginNew`). So
both declarations come out alike (`Session.alike_of_deferred`).
-/

namespace RamlTypes

namespace Expr

/-- The name of a built-in kind in parentheses is an expression for the same kind. -/
theorem parse_parenthesized {k : Kind} (hk : k ∈ Kind.builtins) :
    parse ("(" ++ k.name ++ ")") = .ok (.builtin k) := by
  have hgroup := Operand.group blank_nil (.one (operand_builtin hk)) blank_nil
  have hderives := Derives.mk blank_nil (.one hgroup) blank_nil
  refine parse_of_derives ?_
  simpa [ofMembers] using hderives

end Expr

/-- The store in which the resolution of one more shape begins. -/
abbrev Store.beginNew (s : Store) (w : Shape) : Store := (s.addShape w).beginResolution s.shapes.size

namespace Declaration

/-! ## Declarations with a type and facets -/

/-- The keys of the entries that belong to the envelope of a shape, or are reserved. -/
def envelopeKeys : List String :=
  ["type", "schema", "displayName", "description", "required", "default", "facets", "example",
    "examples", "allowedTargets"]

/-- The entry of a facet is no annotation and does not belong to the envelope. -/
def IsFacet (pair : Node × Node) : Prop :=
  ∃ key, pair.1.text? = some key ∧ annotationName? key = none ∧ key ∉ envelopeKeys

/-- The entries of a mapping under the texts of their keys. -/
def facetsOf (pairs : List (Node × Node)) : List (String × Node) :=
  pairs.filterMap fun pair => pair.1.text?.map fun key => (key, pair.2)

/-- A declaration with a type and, before and after it, other entries. -/
def HasType (text : String) (before after : List (Node × Node)) (node : Node) : Prop :=
  ∃ key type mark, key.text? = some "type" ∧ (type = .string ∨ type = .null) ∧
    node.pairs? = some (before ++ (key, .scalar text type mark false) :: after)

/-- The text of a type by which a declaration for the built-in kind `k` has to wait: the name of the kind
in parentheses, or the name of a type that is declared as just this kind. -/
inductive Defers (s : Store) (path : Path) (k : Kind) (text : String) : Prop
  | parenthesized (h : Text.trim text = "(" ++ k.name ++ ")")
  | reference {library : Option String} {name : String} {j : ShapeId} {a : Shape}
      (parsed : Expr.parse (Text.trim text) = .ok (.ref library name))
      (denoted : s.denoted? path library name = some j) (ha : s.shapes[j]? = some a)
      (body : Body.empty? k = some a.body)

variable {c : Context} {path : Path} {name : String} {before after : List (Node × Node)} {node : Node}
  {text : String} {k : Kind} {body : Body} {s : Store}

/-- Facets are only noted. -/
theorem addEntries_of_facets {pairs : List (Node × Node)} (rest : List (Node × Node)) :
    ∀ d : Draft, (∀ pair ∈ pairs, IsFacet pair) → addEntries c name d (pairs ++ rest) =
      addEntries c name { d with raw := d.raw ++ facetsOf pairs } rest := by
  induction pairs with
  | nil => exact fun d _ => by rw [facetsOf, List.filterMap_nil, List.append_nil, List.nil_append]
  | cons pair pairs ih =>
    intro d h
    obtain ⟨key, hkey, hname, hknown⟩ := h pair List.mem_cons_self
    have hadd : addKnown c name d key pair.2 = pure { d with raw := d.raw ++ [(key, pair.2)] } := by
      unfold addKnown
      split <;> first | rfl | exact absurd (by decide) hknown
    have hstep : addEntries c name d (pair :: (pairs ++ rest)) =
        addEntries c name { d with raw := d.raw ++ [(key, pair.2)] } (pairs ++ rest) := by
      rw [addEntries, Entry.keyText, hkey, Load.ofExcept, pure_bind, hname, hadd]
      exact pure_bind _ _
    have hfacets : facetsOf (pair :: pairs) = (key, pair.2) :: facetsOf pairs := by
      rw [facetsOf, List.filterMap_cons, hkey]
      rfl
    have hrest : ∀ other ∈ pairs, IsFacet other := fun other hother =>
      h other (List.mem_cons_of_mem _ hother)
    rw [List.cons_append, hstep, ih _ hrest, hfacets, List.append_assoc]
    rfl

section
variable (h : ∀ pair ∈ before ++ after, IsFacet pair)
include h

/-- A type between facets leaves a draft with these. -/
theorem draft_of_hasType (hnode : HasType text before after node) :
    ∃ type mark, (type = .string ∨ type = .null) ∧
      draft c name node = pure ⟨Shape.plain name c.path node.mark .any, facetsOf (before ++ after),
        some (.scalar text type mark false)⟩ := by
  obtain ⟨key, type, mark, hkey, htype, hpairs⟩ := hnode
  refine ⟨type, mark, htype, ?_⟩
  have hname : annotationName? "type" = none := by decide
  rw [draft, hpairs]
  dsimp only
  rw [addEntries_of_facets _ _ fun pair hp => h pair (List.mem_append_left _ hp), addEntries,
    Entry.keyText, hkey, Load.ofExcept, pure_bind, hname]
  dsimp only
  rw [addKnown]
  dsimp only
  rw [pure_bind, ← List.append_nil after,
    addEntries_of_facets [] _ fun pair hp => h pair (List.mem_append_right _ hp), addEntries,
    List.append_nil, facetsOf, facetsOf, facetsOf, List.filterMap_append]
  rfl

/-- A declaration with a type that is a text is completed as the text says. -/
theorem decode_of_hasType (hnode : HasType text before after node) (hblank : Text.trim text ≠ "") :
    decode c name node = (do
      let shape := { Shape.plain name c.path node.mark .any with declaration := some (Text.trim text) }
      Load.addShape (← complete c name shape (facetsOf (before ++ after))
        (planText text (Text.trim text)))) := by
  obtain ⟨type, mark, htype, hdraft⟩ := draft_of_hasType (c := c) h hnode
  rw [decode, hdraft, pure_bind]
  dsimp only
  rw [plan, classify]
  dsimp only
  rw [if_neg Bool.false_ne_true, if_pos htype, if_neg hblank, pure_bind]

end

/-- The name of a built-in kind is planned to be completed at once. -/
theorem planText_name (hk : k ∈ Kind.builtins) (raw : String) (hbody : Body.empty? k = some body) :
    planText raw k.name = .concrete body := by
  have hbrace : ∀ k ∈ Kind.builtins, Text.startsWith "\x7b" k.name = false := by decide
  rw [planText, if_neg (by rw [hbrace k hk]; exact Bool.false_ne_true),
    Kind.ofName?_eq_some_iff.2 ⟨hk, rfl⟩, Option.bind_some, hbody]

/-- An expression other than the name of a built-in kind is planned to wait. -/
theorem planText_expr {raw : String} {e : Expr} (h : Expr.parse text = .ok e)
    (hname : ∀ k ∈ Kind.builtins, k.name ≠ text) :
    planText raw text = .pending (.expression text) := by
  rw [planText, if_neg fun hbrace => Expr.parse_ne_ok_of_brace hbrace e h]
  rcases hk : Kind.ofName? text with _ | k
  · rfl
  · obtain ⟨hk, hkname⟩ := Kind.ofName?_eq_some_iff.1 hk
    exact absurd hkname (hname k hk)

/-- A text by which a declaration has to wait is an expression and not the name of a kind. -/
theorem Defers.exists_parse (hk : k ∈ Kind.builtins) (h : Defers s path k text) :
    (∃ e, Expr.parse (Text.trim text) = .ok e) ∧ ∀ l ∈ Kind.builtins, l.name ≠ Text.trim text := by
  cases h with
  | parenthesized h =>
    have hnames : ∀ k ∈ Kind.builtins, ∀ l ∈ Kind.builtins, l.name ≠ "(" ++ k.name ++ ")" := by decide
    rw [h]
    exact ⟨⟨_, Expr.parse_parenthesized hk⟩, hnames k hk⟩
  | reference parsed =>
    refine ⟨⟨_, parsed⟩, fun l hl hname => ?_⟩
    rw [← hname, Expr.parse_name hl] at parsed
    cases parsed

/-! ## Both declarations where they are read -/

theorem exists_declare_eq (path : Path) (name : String) {pairs : List (Node × Node)}
    (hpairs : node.pairs? = some pairs) (s : Store) : ∃ n, Load.declare path name node s =
      Load.mapFault (PlainFault.declaration name ⟨path, node.mark⟩)
        (decode ⟨path, (Fragment.loaders s.loadDepth).dataType,
          buildLevels (Fragment.loaders s.loadDepth).dataType path n⟩ name node) s := by
  obtain ⟨n, hn⟩ := Node.exists_height hpairs
  exact ⟨n, by rw [Load.declare, Load.withLoaders, Load.ask_bind, build, hn, buildLevels]⟩

/-- The shape of a declaration that waits. -/
def waiting (path : Path) (name : String) (mark : Mark) (text : String) (raw : List (String × Node)) :
    Shape :=
  { Shape.plain name path mark (.unknown ⟨.expression (Text.trim text), raw⟩) with
    declaration := some (Text.trim text) }

section
variable (h : ∀ pair ∈ before ++ after, IsFacet pair) (hnode : HasType text before after node)
include h hnode

/-- A declaration by the name of a kind has its facets applied. -/
theorem declare_of_name (path : Path) (name : String) (s : Store) (hk : k ∈ Kind.builtins)
    (hbody : Body.empty? k = some body) (htext : Text.trim text = k.name) :
    ∃ n, Load.declare path name node s =
      match Facets.apply (buildLevels (Fragment.loaders s.loadDepth).dataType path n) path name body
        (facetsOf (before ++ after)) s with
      | (.ok (body, left), u) =>
        (.ok u.shapes.size, u.addShape { Shape.plain name path node.mark body with
          declaration := some k.name, customFacets := Dict.putAll [] left })
      | (.error (.fault f), u) => (.error (.fault (.declaration name ⟨path, node.mark⟩ f)), u)
      | (.error e, u) => (.error e, u) := by
  obtain ⟨_, _, _, _, _, hpairs⟩ := id hnode
  obtain ⟨n, hn⟩ := exists_declare_eq path name hpairs s
  have hblank : k.name ≠ "" := by
    have hnames : ∀ k ∈ Kind.builtins, k.name ≠ "" := by decide
    exact hnames k hk
  refine ⟨n, ?_⟩
  rw [hn, decode_of_hasType h hnode (htext ▸ hblank), htext, planText_name hk text hbody]
  dsimp only
  rw [complete, withFacets, bind_assoc, Load.mapFault]
  dsimp only
  rw [Load.bind_apply]
  generalize Facets.apply _ path name body (facetsOf (before ++ after)) s = x
  rcases x with ⟨(_ | _ | _) | _, u⟩ <;> rfl

/-- A declaration by an expression waits. -/
theorem declare_of_defers (path : Path) (name : String) (s : Store) (hk : k ∈ Kind.builtins)
    (hdefers : Defers s path k text) : Load.declare path name node s =
      (.ok s.shapes.size, s.addShape (waiting path name node.mark text (facetsOf (before ++ after)))) := by
  obtain ⟨_, _, _, _, _, hpairs⟩ := id hnode
  obtain ⟨n, hn⟩ := exists_declare_eq path name hpairs s
  obtain ⟨⟨e, he⟩, hnames⟩ := hdefers.exists_parse hk
  have hblank : Text.trim text ≠ "" := by
    intro hblank
    rw [hblank] at he
    cases he
  rw [hn, decode_of_hasType h hnode hblank, planText_expr he hnames]
  rfl

end

/-! ## The declaration that waits where its shape is resolved -/

section
variable {raw : List (String × Node)}

/-- A shape that is new does not change what a name denotes. -/
theorem denoted?_beginNew {w : Shape} {j : ShapeId} {library : Option String}
    (hj : s.denoted? path library name = some j) :
    (s.beginNew w).denoted? path library name = some j := by
  have hlookup {p : Path} (hj : s.lookup? p name = some j) :
      (s.beginNew w).lookup? p name = some j :=
    Store.lookup?_of_eq (s := s) (t := s.beginNew w) rfl (s.grows_addShape w).nameOf? rfl rfl hj
  cases library with
  | none => exact hlookup hj
  | some l =>
    obtain ⟨q, hq, hj⟩ := Option.bind_eq_some_iff.1 hj
    exact Option.bind_eq_some_iff.2 ⟨q, hq, hlookup hj⟩

/-- In a store with one more shape, an evaluation applies the facets to the body of the kind, as long as
it does not reach a bound. -/
theorem evaluate_of_defers {n : Nat} {a w : Shape} {t : Store} {r : Except Stop Resolution}
    (raw : List (String × Node)) (hk : k ∈ Kind.builtins) (hbody : Body.empty? k = some body)
    (hdefers : Defers s a.location k text)
    (h : Resolution.ofPending (Load.resolveWithin n) a.owner a ⟨.expression (Text.trim text), raw⟩
      (s.beginNew w) = (r, t)) (hr : r ≠ .error .exhausted) :
    ∃ is, Resolution.finish a.owner raw is [] body (s.beginNew w) = (r, t) := by
  cases hdefers with
  | parenthesized ht =>
    rw [Resolution.ofPending, ht] at h
    dsimp only at h
    rw [Expr.parse_parenthesized hk] at h
    dsimp only at h
    rw [Resolution.ofExpr, hbody, Option.getD_some] at h
    exact ⟨[], h⟩
  | @reference library name j b parsed denoted hb hbodyOf =>
    rw [Resolution.ofPending] at h
    dsimp only at h
    rw [parsed] at h
    dsimp only at h
    have hlookup : Resolution.lookup a.owner library name (s.beginNew w) =
        (.ok j, s.beginNew w) := by
      have hj : (s.beginNew w).denoted? a.owner.location library name = some j :=
        denoted?_beginNew denoted
      rw [Resolution.lookup, Load.ask_bind, hj]
      rfl
    have hlt : j < s.shapes.size := (Array.getElem?_eq_some_iff.1 hb).1
    have hb' : (s.beginNew w).shapes[j]? = some b := by
      show (s.addShape w).shapes[j]? = some b
      rw [Store.getElem?_addShape, if_neg (Nat.ne_of_lt hlt), hb]
    rw [Resolution.ofExpr, Load.bind_of_ok hlookup] at h
    cases n with
    | zero =>
      cases h
      exact absurd rfl hr
    | succ n =>
      have hresolve : Load.resolveWithin (n + 1) j (s.beginNew w) =
          (.ok (), s.beginNew w) := by
        have hclaim : (s.beginNew w).claim j = .ok none := by
          rw [Store.claim_of_shape hb', Body.pending_eq_none_iff.2]
          rw [Body.empty_kind hbodyOf]
          rintro rfl
          cases hbodyOf
        rw [Load.resolveWithin, Load.bind_apply, Load.resolving_apply, hclaim]
        rfl
      have hbodyOf' : (s.beginNew w).bodyOf j = body := by
        rw [Store.bodyOf, hb', Option.map_some, Option.getD_some]
        exact Option.some.inj (hbodyOf.symm.trans hbody)
      rw [Load.bind_of_ok hresolve, Load.ask_bind, hbodyOf'] at h
      exact ⟨[j], h⟩

/-- What the resolution of a shape does that waits. -/
theorem resolve_of_claim {i : ShapeId} {a : Shape} {p : Pending}
    (h : s.claim i = .ok (some (a, p))) : Load.resolve i s =
      match Resolution.ofPending (Load.resolveWithin s.potential) a.owner a p (s.beginResolution i) with
      | (.ok r, t) => Load.resolveIdle (Load.resolveWithin s.potential) r.nested
          ((t.endResolution i).writeResolution i r)
      | (.error e, t) => (.error e, (t.endResolution i).markFailed i) := by
  rw [Load.resolve, Load.ask_bind, Load.resolveWithin, Load.bind_apply, Load.resolving_apply, h]
  dsimp only [Shape.owner]
  generalize Resolution.ofPending (Load.resolveWithin s.potential) ⟨a.name, a.location, a.mark⟩ a p
    (s.beginResolution i) = x
  rcases x with ⟨_ | r, t⟩ <;> rfl

/-- Where its shape is resolved, a declaration that waits has its facets applied. -/
theorem resolve_of_defers (hk : k ∈ Kind.builtins) (hbody : Body.empty? k = some body) {w : Shape}
    (hw : w.body = .unknown ⟨.expression (Text.trim text), raw⟩) (hdefers : Defers s w.location k text)
    (hfailed : s.shapes.size ∉ s.failed) (hidle : s.inProgress = [])
    (hfinishes : ∀ t, Load.resolve s.shapes.size (s.addShape w) ≠ (.error .exhausted, t)) :
    ∃ is, Load.resolve s.shapes.size (s.addShape w) =
      match Facets.apply (Load.declare w.location) w.location w.name body raw (s.beginNew w) with
      | (.ok (body, left), u) =>
        (.ok (), (u.endResolution s.shapes.size).writeResolution s.shapes.size ⟨body, is, left, []⟩)
      | (.error e, u) => (.error e, (u.endResolution s.shapes.size).markFailed s.shapes.size) := by
  have ha : (s.addShape w).shapes[s.shapes.size]? = some { w with id := s.shapes.size } := by
    rw [Store.getElem?_addShape, if_pos rfl]
  have hclaim : (s.addShape w).claim s.shapes.size =
      .ok (some ({ w with id := s.shapes.size }, ⟨.expression (Text.trim text), raw⟩)) := by
    have hnotFailed : (s.addShape w).isFailed s.shapes.size = false :=
      Bool.eq_false_iff.2 fun h => hfailed (List.contains_iff_mem.1 h)
    have hnotInProgress : (s.addShape w).isInProgress s.shapes.size = false := by
      rw [Store.isInProgress, Store.addShape, hidle]
      rfl
    rw [Store.claim_of_shape ha, hnotFailed, hnotInProgress]
    dsimp only
    rw [hw]
    rfl
  rw [resolve_of_claim hclaim] at hfinishes ⊢
  have heval {r : Except Stop Resolution} {u : Store} :=
    evaluate_of_defers (a := { w with id := s.shapes.size }) (w := w) (n := (s.addShape w).potential)
      (r := r) (t := u) raw hk hbody hdefers
  generalize Resolution.ofPending (Load.resolveWithin (s.addShape w).potential)
    (Shape.owner { w with id := s.shapes.size }) { w with id := s.shapes.size }
    ⟨.expression (Text.trim text), raw⟩ (s.beginNew w) = x at hfinishes heval ⊢
  rcases x with ⟨e | r, u⟩
  · obtain ⟨is, hfinish⟩ := heval rfl (fun h => hfinishes _ (by cases h; rfl))
    rw [Resolution.finish, Resolution.overlay_eq] at hfinish
    have happly : Facets.apply (Load.declare w.location) w.location w.name body raw (s.beginNew w) =
        (.error e, u) := by
      obtain h | ⟨_, _, -, h⟩ := Load.bind_eq_error.1 hfinish
      · exact h
      · cases h
    exact ⟨is, by rw [happly]⟩
  · obtain ⟨is, hfinish⟩ := heval rfl (fun h => by cases h)
    obtain ⟨rbody, ris, custom, nested⟩ := r
    obtain ⟨rfl, rfl, hoverlay⟩ := Resolution.overlay_of_finish hfinish
    rw [Resolution.overlay_eq] at hoverlay
    have happly : Facets.apply (Load.declare w.location) w.location w.name body raw (s.beginNew w) =
        (.ok (rbody, custom), u) := hoverlay
    exact ⟨_, by rw [happly]; rfl⟩

end

end Declaration

/-! ## Both declarations in a session -/

namespace Store

/-- Between requests, the store in which the resolution of a new shape begins is the store without this
shape in all that a declaration depends on. -/
theorem Coherent.beside_beginNew {s : Store} (hs : s.Coherent) (w : Shape) :
    Beside s.shapes.size 1 (s.beginNew w) s (s.beginNew w) s := by
  have below (i j : ShapeId) (h : Below s.shapes.size i j) : Displaced s.shapes.size 1 i j :=
    h.1.trans (displace_of_lt (h.1 ▸ h.2) 1).symm
  exact
  { size := Array.size_push ..
    size_le := Nat.le_refl _
    old := fun _ _ => rfl
    old' := fun _ _ => rfl
    shapes := fun j c hj hc => absurd (Array.getElem?_eq_some_iff.1 hc).1 (Nat.not_lt_of_le hj)
    settings := rfl
    files := rfl
    files_eq := rfl
    loading := rfl
    examples := rfl
    uses := rfl
    fragments := fun key => by
      show Option.Rel _ (Dict.find? key s.fragments) (Dict.find? key s.fragments)
      rcases hf : Dict.find? key s.fragments with _ | f
      · exact .none
      · exact .some ((hs.fragments key f hf).mono below fun _ _ h => h.mono below)
    annotationTypes := fun key => by
      show Option.Rel _ (Dict.find? key s.annotationTypes) (Dict.find? key s.annotationTypes)
      rcases hd : Dict.find? key s.annotationTypes with _ | d
      · exact .none
      · exact .some ((hs.annotationTypes key d hd).mono below) }

end Store

namespace Session

open Store

/-- The outcome of a declaration that is read is like that of one whose shape, with the number `n`, is
resolved: both have failed with the same root cause, or both shapes have the same body and the same
custom facets. The numbers inside the body are renamed. A shape that is nested in a facet has the
next number where the declaration had to wait, since the shape of the declaration was stored
before. -/
inductive Alike (n : Nat) : Answer × Store → Answer × Store → Prop
  | failed {f g : Fault} {s t : Store} (cause : g.rootCause = f.rootCause) :
      Alike n (.fault f, s) (.fault g, t)
  | shape {s t : Store} {i : ShapeId} {a b : Shape} (ha : s.shapes[i]? = some a)
      (hb : t.shapes[n]? = some b) (body : b.body.Rel (Displaced n 1) a.body)
      (custom : b.customFacets = a.customFacets) (last : s.shapes.size = i + 1)
      (size : t.shapes.size = s.shapes.size) (old : ∀ j < n, t.shapes[j]? = s.shapes[j]?)
      (nested : ∀ j c, n ≤ j → j < i → s.shapes[j]? = some c →
        ∃ d, t.shapes[j + 1]? = some d ∧ d.Rel (Displaced n 1) c) :
      Alike n (.shape i, s) (.shape n, t)

/-- Facets that are applied where a declaration is read, and where its shape is resolved, yield outcomes
that are alike. -/
theorem alike_of_applied {s t : Store} (hs : s.Coherent) {path : Path} {name : String}
    {direct : Node} {k : Kind} {body : Body} (hbody : Body.empty? k = some body) {w : Shape}
    (hcustom : w.customFacets = []) {raw : List (String × Node)} {n : Nat} {is : List ShapeId}
    (hread : Load.declare path name direct s =
      match Facets.apply (Declaration.buildLevels (Fragment.loaders s.loadDepth).dataType path n) path
        name body raw s with
      | (.ok (body, left), u) =>
        (.ok u.shapes.size, u.addShape { Shape.plain name path direct.mark body with
          declaration := some k.name, customFacets := Dict.putAll [] left })
      | (.error (.fault f), u) => (.error (.fault (.declaration name ⟨path, direct.mark⟩ f)), u)
      | (.error e, u) => (.error e, u))
    (hreadFinishes : ∀ t, Load.declare path name direct s ≠ (.error .exhausted, t))
    (hresolve : Load.resolve s.shapes.size t =
      match Facets.apply (Load.declare path) path name body raw (s.beginNew w) with
      | (.ok (body, left), u) =>
        (.ok (), (u.endResolution s.shapes.size).writeResolution s.shapes.size ⟨body, is, left, []⟩)
      | (.error e, u) => (.error e, (u.endResolution s.shapes.size).markFailed s.shapes.size))
    (hresolveFinishes : ∀ u, Load.resolve s.shapes.size t ≠ (.error .exhausted, u)) :
    Alike s.shapes.size (step s (.declare path name direct)) (step t (.resolve s.shapes.size)) := by
  -- The facets are applied in two stores, of which the first has the waiting shape besides.
  have hdeclares := beside_declares (n := s.shapes.size) (k := 1) (u := s.beginNew w) (b := s) path
  have hends := hdeclares.applyFacets (fun x name node _ => beside_declare path n x name node) ()
    trivial name (Body.Rel.empty hbody) raw (s.beginNew w) s (hs.beside_beginNew w) trivial
  rw [step, step, perform, perform]
  rw [hread] at hreadFinishes ⊢
  rw [hresolve] at hresolveFinishes ⊢
  generalize Facets.apply (Load.declare path) path name body raw (s.beginNew w) = x at *
  generalize Facets.apply (Declaration.buildLevels _ path n) path name body raw s = y at *
  cases hends with
  | @ok _ u v deferred direct _ stores result =>
    obtain ⟨hbodies, hleft⟩ := result
    have hwaiting : u.shapes[s.shapes.size]? = some { w with id := s.shapes.size } := by
      rw [stores.old _ (Nat.lt_succ_self _)]
      show (s.addShape w).shapes[s.shapes.size]? = _
      rw [getElem?_addShape, if_pos rfl]
    have hstored {a : Shape} :
        (v.addShape a).shapes[v.shapes.size]? = some { a with id := v.shapes.size } := by
      rw [getElem?_addShape, if_pos rfl]
    -- Nothing but the shape itself is written, so the others are found as the facets left them.
    have hothers (r : Resolution) {j : ShapeId} (hj : j ≠ s.shapes.size) :
        ((u.endResolution s.shapes.size).writeResolution s.shapes.size r).shapes[j]? = u.shapes[j]? := by
      rw [writeResolution, getElem?_mapShape, if_neg (Ne.symm hj)]
      rfl
    refine .shape (b := { w with
      id := s.shapes.size
      body := deferred.1
      inherits := w.inherits ++ is
      customFacets := Dict.putAll w.customFacets deferred.2 })
      hstored ?_ hbodies ?_ ?_ ?_ (fun j hj => ?_) fun j c hj hji hc => ?_
    · rw [writeResolution, getElem?_mapShape, if_pos rfl, endResolution, hwaiting]
      rfl
    · dsimp only
      rw [hcustom, hleft]
    · exact Array.size_push ..
    · rw [writeResolution, size_mapShape, endResolution, addShape, Array.size_push, stores.size]
    · have hlt : j < v.shapes.size := Nat.lt_of_lt_of_le hj stores.size_le
      rw [hothers _ (Nat.ne_of_lt hj), stores.old j (Nat.lt_succ_of_lt hj), getElem?_addShape,
        if_neg (Nat.ne_of_lt hlt), stores.old' j hj]
      show (s.addShape w).shapes[j]? = _
      rw [getElem?_addShape, if_neg (Nat.ne_of_lt hj)]
    · rw [getElem?_addShape, if_neg (Nat.ne_of_lt hji)] at hc
      obtain ⟨d, hd, hdc, -, -⟩ := stores.shapes j c hj hc
      exact ⟨d, by rw [hothers _ (Nat.ne_of_gt (Nat.lt_succ_of_le hj)), hd], hdc⟩
  | error e _ =>
    cases e with
    | fault f => exact .failed rfl
    | cycle name place => exact .failed rfl
    | exhausted => exact (hreadFinishes _ rfl).elim
  | excusedLeft h =>
    cases h
    exact (hresolveFinishes _ rfl).elim
  | ignoredRight h =>
    cases h
    exact (hreadFinishes _ rfl).elim

/-- Whether a declaration for a built-in kind is completed where it is read or has to wait until its shape
is resolved, it comes out alike. -/
theorem alike_of_deferred (settings : LoadSettings) (files : Files)
    (hroot : settings.root.isAbsolute) (requests : List Request) (path : Path) (name : String) {k : Kind}
    (hk : k ∈ Kind.builtins) {before after : List (Node × Node)}
    (hfacets : ∀ pair ∈ before ++ after, Declaration.IsFacet pair) {text text' : String}
    {direct deferred : Node} (hdirect : Declaration.HasType text before after direct)
    (htext : Text.trim text = k.name) (hdeferred : Declaration.HasType text' before after deferred)
    (hdefers : Declaration.Defers (run (.empty settings files) requests) path k text') :
    let s := run (.empty settings files) requests
    ∃ t w, step s (.declare path name deferred) = (.shape s.shapes.size, t) ∧
      t.shapes[s.shapes.size]? = some w ∧ w.isUnknown = true ∧
      Alike s.shapes.size (step s (.declare path name direct)) (step t (.resolve s.shapes.size)) := by
  intro s
  obtain ⟨hs, hsettings⟩ : s.Coherent ∧ s.settings = settings :=
    coherent_run requests (coherent_empty settings files)
  have hroot' : s.settings.root.isAbsolute := hsettings ▸ hroot
  have hordered : s.Ordered :=
    ordered_run requests (coherent_empty settings files) (ordered_empty settings files)
  have hfailed : s.shapes.size ∉ s.failed := fun h => Nat.lt_irrefl _ (hordered.failed_lt _ h)
  obtain ⟨body, hbody⟩ := Body.exists_empty hk
  obtain ⟨n, hread⟩ := Declaration.declare_of_name hfacets hdirect path name s hk hbody htext
  have hreadFinishes := Load.pays_declare path name direct s hroot' (Nat.lt_succ_self _)
  have hwaits := Declaration.declare_of_defers hfacets hdeferred path name s hk hdefers
  generalize hw : Declaration.waiting path name deferred.mark text' _ = w at hwaits
  have hstep : step s (.declare path name deferred) = (.shape s.shapes.size, s.addShape w) := by
    rw [step, perform, hwaits]
  have ht : (s.addShape w).Coherent := by
    have hkeeps : (step s (.declare path name deferred)).2.Coherent := (keeps_step hs _).coherent
    rwa [hstep] at hkeeps
  have hresolveFinishes := finishes_resolve ht hroot' s.shapes.size
  subst hw
  obtain ⟨is, hresolve⟩ := Declaration.resolve_of_defers hk hbody rfl hdefers hfailed hs.inProgress
    fun _ => hresolveFinishes.not_exhausted
  exact ⟨_, _, hstep, by rw [getElem?_addShape, if_pos rfl], rfl, alike_of_applied hs hbody rfl hread
    (fun _ => hreadFinishes.not_exhausted) hresolve fun _ => hresolveFinishes.not_exhausted⟩

/-- An object with a property and a custom facet, declared by the name of a type that is just an
object. -/
theorem alike_of_deferred_reference :
    let lib : Path := ⟨"/lib.raml"⟩
    let settings : LoadSettings := ⟨⟨"/"⟩, false, false⟩
    let files : Files := .memory [(lib, "#%RAML 1.0 Library\ntypes:\n  B: object\n")]
    let s := run (.empty settings files) [.parse lib]
    let text (t : String) : Node := .scalar t .string .unknown false
    let facets := [(text "properties", .mapping [(text "a?", text "string")] .unknown false),
      (text "unit", text "mm")]
    let typed (type : String) : Node := .mapping ((text "type", text type) :: facets) .unknown false
    settings.root.isAbsolute ∧ Kind.object ∈ Kind.builtins ∧
      (∀ pair ∈ facets, Declaration.IsFacet pair) ∧ Declaration.Defers s lib .object "B" ∧
      ∃ t w, step s (.declare lib "T" (typed "B")) = (.shape s.shapes.size, t) ∧
        t.shapes[s.shapes.size]? = some w ∧ w.isUnknown = true ∧
        Alike s.shapes.size (step s (.declare lib "T" (typed "object")))
          (step t (.resolve s.shapes.size)) := by
  intro lib settings files s text facets typed
  have hroot : settings.root.isAbsolute := by decide
  have hfacets : ∀ pair ∈ facets, Declaration.IsFacet pair := by
    intro pair hp
    obtain rfl | rfl : pair = _ ∨ pair = _ := by simpa [facets] using hp
    · exact ⟨"properties", rfl, by decide, by decide⟩
    · exact ⟨"unit", rfl, by decide, by decide⟩
  have hdefers : Declaration.Defers s lib .object "B" := by
    have hdenoted : s.denoted? lib none "B" = some 0 := by decide +kernel
    have hobject : (s.shapes[0]?.any fun a => a.kind == .object && a.body.properties.isEmpty &&
        Kind.object.singleFacets.all fun key => (a.body.single? key).isNone) = true := by decide +kernel
    obtain ⟨a, ha, hbody⟩ := (Option.any_eq_true _ _).1 hobject
    rw [Bool.and_eq_true, Bool.and_eq_true, beq_iff_eq, List.isEmpty_iff, List.all_eq_true] at hbody
    exact .reference (by rfl) hdenoted ha (Body.empty?_of_object hbody.1.1 hbody.1.2 fun key hkey =>
      Option.isNone_iff_eq_none.1 (hbody.2 key hkey))
  have htyped (type : String) : Declaration.HasType type [] facets (typed type) :=
    ⟨_, _, _, rfl, .inl rfl, rfl⟩
  exact ⟨hroot, by decide, hfacets, hdefers, alike_of_deferred settings files hroot [.parse lib] lib "T"
    (by decide) hfacets (htyped "object") (by decide) (htyped "B") hdefers⟩

end Session

end RamlTypes
