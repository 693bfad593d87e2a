import RamlTypes.Proofs.Equations.Facets
import RamlTypes.Proofs.Equations.Parts
import RamlTypes.Proofs.Equations.Requests
import RamlTypes.Proofs.Facets.Readers

/-!
# The equations of resolved shapes

A resolved shape satisfies an equation that its declaration states about the shapes it refers to
(`Store.Solves`). It is satisfied when the shape is written, and ever after, whatever else the session
does: all shapes that it speaks about are resolved by then, and resolved shapes stay as they are
(`Store.solves_of_wrote`).
-/

namespace RamlTypes

theorem Shape.exists_pending {a : Shape} (h : a.isUnknown) : ∃ p, a.body = .unknown p := by
  rw [isUnknown] at h
  rcases hb : a.body with _ | _
  case unknown p => exact ⟨p, rfl⟩
  all_goals
    rw [hb] at h
    cases h

/-- The shape `c` of the store `t` refines a base. When its resolution began, in the store `m`, it was
`a` and waited with the declaration `p`. -/
structure Refines (m t : Store) (i : ShapeId) (a : Shape) (p : Pending) (base : Body) (c : Shape) :
    Prop where
  /-- The raw facets have been applied to the base, and what was left over has been merged with the
  custom facets. -/
  applied : ∃ u v custom, (m.beginResolution i).Grows u ∧
    Facets.Applied (Load.declare a.location) a.name u (base, []) p.facets (c.body, custom) v ∧
    v.Keeps t ∧ Dict.Merges a.customFacets custom c.customFacets
  kind : c.body.kind = base.kind
  /-- The body agrees with the base in all that the facets do not name. -/
  rest : c.body.forget p.keys = base.forget p.keys

namespace Store

/-- The store has a resolved shape under this number. -/
def HasResolved (t : Store) (i : ShapeId) (d : Shape) : Prop :=
  t.shapes[i]? = some d ∧ d.isUnknown = false

/-- The shape `c`, which has the number `i` in the store `t`, satisfies the equation of its
declaration. When its resolution began, in the store `m`, it was `a` and waited with the declaration
`p`. -/
inductive Solves (m t : Store) (i : ShapeId) (a : Shape) (p : Pending) (c : Shape) : Prop
  /-- One that is declared by a name inherits the shape that the name denoted, and refines its
  body. -/
  | reference {text : String} {library : Option String} {name : String} {j : ShapeId} {d : Shape}
      (declared : p.declared = .expression text)
      (parsed : Expr.parse text = .ok (.ref library name))
      (denoted : m.denoted? a.location library name = some j) (inherits : c.inherits = [j])
      (target : t.HasResolved j d) (body : Refines m t i a p d.body c)
  /-- One that is declared by any other expression refines the body of the expression. -/
  | expression {text : String} {e : Expr} {base : Body} (declared : p.declared = .expression text)
      (parsed : Expr.parse text = .ok e) (inherits : c.inherits = [])
      (hasBody : m.HasBody t a.location e base) (body : Refines m t i a p base c)
  /-- One with parents inherits them, and refines the kind of the first, or its JSON schema. -/
  | parents (declared : p.declared = .parents) (inherits : c.inherits = a.inherits)
      (parents : ∀ j ∈ a.inherits, ∃ d, t.HasResolved j d)
      (body : ∀ first rest, a.inherits = first :: rest → ∃ d base, t.HasResolved first d ∧
        base.Bare d.body.kind ∧ (d.body.kind = .json → base = d.body) ∧ Refines m t i a p base c)
  /-- One that is an include inherits the shape of the data type, and refines its body. -/
  | link {path : Path} {f : DataType} {u : Store} {d : Shape} (declared : p.declared = .link)
      (linked : a.link = some path)
      (loaded : Load.dataType path (m.beginResolution i) = (.ok f, u))
      (inherits : c.inherits = [f.shape]) (target : t.HasResolved f.shape d)
      (body : Refines m t i a p d.body c)

variable {s t u : Store} {i j : ShapeId} {n : Nat} {a c : Shape} {e : Evaluation}

/-- A shape that a call has resolved is resolved. -/
theorem Sound.resolved_of_ok (h : s.Sound j) (hr : Load.resolveWithin n j s = (.ok (), t)) :
    ∃ d, t.HasResolved j d := by
  obtain ⟨b, known, phase, w, hp, hs, hj⟩ := h
  have hlaws : (b.since known phase).Resolves := since_resolves hp
  have hends := hs.endsIn (hlaws.resolveWithin n n (.inl rfl) w j j ⟨rfl, hj⟩)
  obtain ⟨w', -, ht, -, hdone⟩ := hends.of_ok hr
  obtain ⟨hlt, hres⟩ := ht.concrete j hdone
  have hd := Array.getElem?_eq_getElem (h := ht.size ▸ hlt)
  exact ⟨_, hd, hres _ hd⟩

/-- A resolved shape stays, and so does its body. -/
theorem Keeps.hasResolved (h : s.Keeps t) {d : Shape} (hd : s.HasResolved j d) :
    ∃ d', t.HasResolved j d' ∧ d'.body = s.bodyOf j := by
  obtain ⟨d', hd', hstays⟩ := h j d hd.1 hd.2
  refine ⟨d', ⟨hd', hstays.kept.isUnknown.trans hd.2⟩, ?_⟩
  rw [bodyOf, hd.1]
  exact hstays.kept.body

/-- One of several shapes that are resolved one after the other. -/
theorem exists_of_each {resolve : ShapeId → Load Unit} {ids : List ShapeId} (hj : j ∈ ids) :
    ∀ {s : Store}, Resolution.each resolve ids s = (.ok (), u) → ∃ before after v v',
      ids = before ++ j :: after ∧ Resolution.each resolve before s = (.ok (), v) ∧
      resolve j v = (.ok (), v') ∧ v'.Grows u := by
  induction ids with
  | nil => cases hj
  | cons i rest ih =>
    intro s h
    obtain ⟨_, v, hv, hrest⟩ := Load.bind_eq_ok.1 h
    rcases List.mem_cons.1 hj with rfl | hj
    · exact ⟨[], rest, s, v, rfl, rfl, hv, Load.grows_of_apply hrest⟩
    · obtain ⟨before, after, v₁, v₂, rfl, hbefore, hres, hgrows⟩ := ih hj hrest
      exact ⟨i :: before, after, v₁, v₂, rfl, Load.bind_eq_ok.2 ⟨(), v, hv, hbefore⟩, hres, hgrows⟩

/-- A shape that is declared by an expression or an include inherits nothing while it waits. -/
theorem Sound.inherits_eq_nil (h : e.start.Sound e.id) (hp : e.pending.declared ≠ .parents) :
    e.shape.inherits = [] := by
  obtain ⟨b, known, phase, w, w', -, hs, -⟩ := h.evaluation
  obtain ⟨ha, hpending, hwait⟩ := waits_of_claim e.claimed
  have hdeclared := hs.declared _ _ ha hwait.isUnknown
  rw [Shape.IsDeclared, hpending] at hdeclared
  dsimp only at hdeclared
  split at hdeclared
  · exact hdeclared.2.2
  · next hd => exact absurd hd hp
  · exact hdeclared.1

/-- Names denote the same in the store in which an evaluation begins as before. -/
theorem Sound.expands (h : e.start.Sound e.id) : e.start.Expands (e.start.beginResolution e.id) where
  size_le := Nat.le_refl _
  denoted _ _ _ := rfl
  dataTypes k d hd := by
    obtain ⟨b, known, phase, w, w', -, hs, -⟩ := h.evaluation
    cases hs.fragments k _ hd with
    | dataType hrel =>
      show d.shape < e.start.shapes.size
      rw [hs.size]
      exact hrel.shape.2

/-- What an evaluation has written satisfies the equation of the declaration. -/
theorem solves_of_wrote (h : e.start.Sound e.id) (hw : Wrote e a c t) :
    e.start.Solves t e.id e.shape e.pending c := by
  obtain ⟨base, u, hbase, hoverlay⟩ := Resolution.exists_based e.evaluated
  have hkeeps : u.Keeps t := (Load.grows_of_apply hoverlay).keeps.trans hw.keeps
  have hrest := Resolution.overlay_forget e.shape.owner base e.pending _ _ _ hoverlay
  have hmerges := hw.customFacets ▸ Dict.merges_putAll e.result.customFacets e.shape.customFacets
  have happlied := Resolution.applied_of_overlay hoverlay
  rw [← hw.body] at hrest happlied
  have hrefines : Refines e.start t e.id e.shape e.pending base c :=
    ⟨⟨u, e.stop, _, hbase.grows, happlied, hw.keeps, hmerges⟩, Body.kind_of_forget _ hrest, hrest⟩
  have hinherits {is : List ShapeId} (hp : e.pending.declared ≠ .parents)
      (his : e.result.inherits = is) : c.inherits = is := by
    rw [hw.inherits, h.inherits_eq_nil hp, List.nil_append, his]
  -- What the declaration asks for is resolved when the base is found, and so it is in `t`.
  have target {j : ShapeId} {v v' : Store} (hasks : Resolution.Asks
      (Load.resolveWithin e.depth) e.shape e.pending (e.start.beginResolution e.id) j v)
      (hres : Load.resolveWithin e.depth j v = (.ok (), v')) (hv : v'.Grows u) :
      ∃ d, t.HasResolved j d ∧ d.body = u.bodyOf j := by
    have hcall : v.Sound j :=
      Sound.makes (c := ⟨e.depth + 1, e.id, e.start⟩) h (.dependency e.claimed hasks)
    obtain ⟨d, hd⟩ := hcall.resolved_of_ok hres
    obtain ⟨d', hd', -⟩ := hv.keeps.hasResolved hd
    exact hkeeps.hasResolved hd'
  generalize hi : e.result.inherits = is at hbase hinherits
  generalize e.result.nested = ns at hbase
  cases hbase with
  | reference hp he hdenoted hres =>
    obtain ⟨d, hd, hbody⟩ := target (.reference hp he hdenoted) hres (.refl _)
    exact .reference hp he hdenoted (hinherits (by simp [hp]) rfl) hd (hbody ▸ hrefines)
  | builtin hp he =>
    obtain ⟨b, hb⟩ := Body.exists_empty (Expr.namesBuiltins_of_parse he)
    rw [hb] at hrefines
    exact .expression hp he (hinherits (by simp [hp]) rfl) (.builtin (Body.bare_of_empty? hb)) hrefines
  | @array _ inner _ _ _ hp he hinside =>
    have hnames : (Expr.array inner).NamesBuiltins := Expr.namesBuiltins_of_parse he
    obtain ⟨-, -, hpart⟩ := Resolution.hasPart_of_part inner hnames h.expands hinside
    exact .expression hp he (hinherits (by simp [hp]) rfl) (.array (hpart t hkeeps)) hrefines
  | @optional _ inner _ _ _ _ _ hp he hinside hnil =>
    have hnames : (Expr.optional inner).NamesBuiltins := Expr.namesBuiltins_of_parse he
    obtain ⟨hexpands, -, hpart⟩ := Resolution.hasPart_of_part inner hnames h.expands hinside
    obtain ⟨-, hkeeps', hstored⟩ := Resolution.stored_of_fresh hexpands hnil rfl
    exact .expression hp he (hinherits (by simp [hp]) rfl)
      (.optional (hpart t (hkeeps'.trans hkeeps)) (hstored t hkeeps)) hrefines
  | @union _ members _ _ _ hp he hinside =>
    have hnames : (Expr.union members).NamesBuiltins := Expr.namesBuiltins_of_parse he
    obtain ⟨-, -, hparts⟩ := Resolution.hasParts_of_parts members hnames h.expands hinside
    exact .expression hp he (hinherits (by simp [hp]) rfl) (.union (hparts t hkeeps)) hrefines
  | link hp hl hloaded hres =>
    obtain ⟨d, hd, hbody⟩ := target (.link hp hl hloaded) hres (.refl _)
    exact .link hp hl hloaded (hinherits (by simp [hp]) rfl) hd (hbody ▸ hrefines)
  | parents hp hres hreport =>
    have parent {j : ShapeId} (hj : j ∈ e.shape.inherits) :
        ∃ d, t.HasResolved j d ∧ d.body = u.bodyOf j := by
      obtain ⟨before, after, v, v', hsplit, hbefore, hres, hgrows⟩ := exists_of_each hj hres
      exact target (.parent hp hsplit hbefore) hres (hgrows.trans (Load.grows_of_apply hreport))
    have hsame : c.inherits = e.shape.inherits := by rw [hw.inherits, hi, List.append_nil]
    refine .parents hp hsame (fun j hj => ?_) fun first rest hfirst => ?_
    · obtain ⟨d, hd, -⟩ := parent hj
      exact ⟨d, hd⟩
    · obtain ⟨d, hd, hbody⟩ := parent (hfirst ▸ List.mem_cons_self)
      rw [hfirst, parentBody, ← hbody] at hrefines
      have hkind : d.body.kind ≠ .unknown := Shape.isUnknown_eq_false_iff.1 hd.2
      exact ⟨d, d.body.blank, hd, Body.bare_blank hkind, Body.blank_of_json, hrefines⟩

/-- The equation speaks of the shape as it was declared, and not of what has changed in it since. -/
theorem Solves.of_stays {m : Store} {p : Pending} {b : Shape} (h : m.Solves t i b p c)
    (hab : a.Stays b) : m.Solves t i a p c := by
  have hlocation := hab.grows.location_eq
  have hrefines {base : Body} (hr : Refines m t i b p base c) : Refines m t i a p base c := by
    obtain ⟨⟨u, v, custom, hu, happlied, hv, hmerges⟩, hkind, hrest⟩ := hr
    rw [hlocation, hab.grows.name_eq] at happlied
    rw [hab.kept.customFacets] at hmerges
    exact ⟨⟨u, v, custom, hu, happlied, hv, hmerges⟩, hkind, hrest⟩
  cases h with
  | reference hp he hd hi ht hb => exact .reference hp he (hlocation ▸ hd) hi ht (hrefines hb)
  | expression hp he hi hbase hb => exact .expression hp he hi (hlocation ▸ hbase) (hrefines hb)
  | parents hp hi hall hb =>
    rw [hab.kept.inherits] at hi hall hb
    refine .parents hp hi hall fun first rest hfirst => ?_
    obtain ⟨d, base, hd, hbare, hjson, hbody⟩ := hb first rest hfirst
    exact ⟨d, base, hd, hbare, hjson, hrefines hbody⟩
  | link hp hl hf hi ht hb => exact .link hp (hab.grows.link_eq ▸ hl) hf hi ht (hrefines hb)

end Store

end RamlTypes
