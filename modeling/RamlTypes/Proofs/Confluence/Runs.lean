import RamlTypes.Proofs.Confluence.Settlings
import RamlTypes.Proofs.Lifecycle.Dependencies

/-!
# What a run of the resolution settles

A call that ends well has settled shapes one after the other (`Store.Sound.settles`): those that the
declaration depends on, the shape of the call, and those that its expression refers to.
-/

namespace RamlTypes

open Store Comparison

variable {settings : LoadSettings}

/-! ## Dependencies -/

namespace Resolution

variable {resolve : ShapeId → Load Unit} {a : Shape} {p : Pending} {s t u : Store} {i j : ShapeId}

/-- A name that denotes a shape is found. -/
theorem lookup_of_denoted {o : Owner} {library : Option String} {name : String}
    (h : s.denoted? o.location library name = some i) : lookup o library name s = (.ok i, s) := by
  rw [lookup, Load.ask_bind, h]
  rfl

/-- A shape is finished once its raw facets have been applied. -/
theorem finish_of_overlay {o : Owner} {facets : List (String × Node)} {is ns : List ShapeId}
    {base body : Body} {custom : Dict String Node}
    (h : overlay o base facets s = (.ok (body, custom), t)) :
    finish o facets is ns base s = (.ok ⟨body, is, custom, ns⟩, t) := by
  rw [finish, Load.bind_of_ok h]
  rfl

section
variable {o : Owner}

/-- What waits with an expression is resolved by it. -/
theorem ofPending_expression {text : String} {e : Expr} (hp : p.declared = .expression text)
    (he : Expr.parse text = .ok e) : ofPending resolve o a p = ofExpr resolve o p.facets e := by
  rw [ofPending, hp]
  dsimp only
  rw [he]

/-- What waits with a reference is resolved by it. -/
theorem ofPending_link (hp : p.declared = .link) :
    ofPending resolve o a p = ofLink resolve o p.facets a.link := by
  rw [ofPending, hp]

/-- What waits with parents is resolved by them. -/
theorem ofPending_parents (hp : p.declared = .parents) :
    ofPending resolve o a p = ofParents resolve o p.facets a.inherits := by
  rw [ofPending, hp]

end

/-- A resolution that ends well has settled shapes, the given one among them unless it was
resolved. -/
def Settled (settings : LoadSettings) (resolve : ShapeId → Load Unit) (j : ShapeId) (u : Store) :
    Prop :=
  u.Ready settings → ∀ v, resolve j u = (.ok (), v) →
    (∃ es : List (Settling settings), u.Settlings es v) ∧ ∃ d, v.HasResolved j d

section
variable (hroot : settings.root.isAbsolute)
  (hr : ∀ j u, Asks resolve a p s j u → Settled settings resolve j u)
include hroot hr

/-- Some of the parents are resolved, after others and before others. -/
theorem settles_each (hp : p.declared = .parents) (ids after : List ShapeId) :
    ∀ (before : List ShapeId) {t u : Store}, a.inherits = before ++ (ids ++ after) →
    each resolve before s = (.ok (), t) → t.Ready settings → each resolve ids t = (.ok (), u) →
    ∃ es : List (Settling settings), t.Settlings es u ∧ ∀ j ∈ ids, ∃ d, u.HasResolved j d := by
  induction ids with
  | nil =>
    intro before t u _ _ _ h
    cases h
    exact ⟨[], .nil (.refl t), List.forall_mem_nil _⟩
  | cons j rest ih =>
    intro before t u hparents hbefore ht h
    obtain ⟨_, v, hv, hrest⟩ := Load.bind_eq_ok.1 h
    obtain ⟨⟨es, hes⟩, d, hd, hres⟩ := hr j t (.parent hp hparents hbefore) ht v hv
    obtain ⟨es', hes', hall⟩ := ih (before ++ [j]) (by rw [hparents, List.append_assoc]; rfl)
      (each_concat hbefore hv) (hes.ready hroot ht) hrest
    refine ⟨es ++ es', hes.append hes', List.forall_mem_cons.2 ⟨⟨d, ?_, hres⟩, hall⟩⟩
    exact (hes'.later hroot).resolved hd hres

/-- When a declaration was evaluated, shapes have been settled, and evaluating it again after that
resolves no more shapes. -/
theorem settles_of_based (hs : s.Ready settings) (ha : s.shapes[i]? = some a) {base body : Body}
    {is ns : List ShapeId} {custom : Dict String Node} (hbase : Based resolve a p s base is ns u)
    (hoverlay : overlay a.owner base p.facets u = (.ok (body, custom), t)) :
    ∃ (es : List (Settling settings)) (m : Store), s.Settlings es m ∧
      ofPending Load.ifResolved a.owner a p m = (.ok ⟨body, is, custom, ns⟩, t) := by
  have isResolved {v : Store} {j : ShapeId} {d : Shape} (hd : v.HasResolved j d) :
    v.IsResolved j := by
    intro b hb
    cases hb.symm.trans hd.1
    exact hd.2
  have hfinish : finish a.owner p.facets is ns base u = (.ok ⟨body, is, custom, ns⟩, t) :=
    finish_of_overlay hoverlay
  obtain ⟨hnormal, hbegun⟩ := hs.tracked.locations i a ha
  -- What the declaration asks for settles first, and then the declaration finds its base at once.
  cases hbase with
  | @reference _ library name j u declared parsed denoted resolved =>
    obtain ⟨⟨es, hes⟩, d, hd⟩ := hr j s (.reference declared parsed denoted) hs _ resolved
    have hdenoted := ((hes.later hroot).denoted? hs hnormal (hs.cached hbegun) _ _).trans denoted
    have hlookup : lookup a.owner library name u = (.ok j, u) := lookup_of_denoted hdenoted
    refine ⟨es, u, hes, ?_⟩
    rw [ofPending_expression declared parsed, ofExpr, Load.bind_of_ok hlookup,
      Load.bind_of_ok (Load.ifResolved_apply (isResolved hd)), Load.ask_bind]
    exact hfinish
  | builtin declared parsed =>
    exact ⟨[], s, .nil (.refl s), ofPending_expression declared parsed ▸ hfinish⟩
  | array declared parsed inside =>
    refine ⟨[], s, .nil (.refl s), ?_⟩
    rw [ofPending_expression declared parsed, ofExpr, Load.bind_of_ok inside]
    exact hfinish
  | optional declared parsed inside nil =>
    refine ⟨[], s, .nil (.refl s), ?_⟩
    rw [ofPending_expression declared parsed, ofExpr, Load.bind_of_ok inside]
    dsimp only
    rw [Load.bind_of_ok nil]
    exact hfinish
  | union declared parsed inside =>
    refine ⟨[], s, .nil (.refl s), ?_⟩
    rw [ofPending_expression declared parsed, ofExpr, Load.bind_of_ok inside]
    exact hfinish
  | @link path f v u declared linked loaded resolved =>
    obtain ⟨hp, hk⟩ := hs.tracked.links i a path ha linked
    have hnorm {w : Store} (hw : s.Later w) : w.normalize path = path :=
      normalize_of_isNormal (hw.settings_eq.trans hs.tracked.settings_eq) hp
    obtain ⟨hcached, rfl⟩ := Load.cached_of_dataType (hnorm (.refl s)) (hs.cached hk) loaded
    obtain ⟨⟨es, hes⟩, d, hd⟩ := hr f.shape _ (.link declared linked loaded) hs _ resolved
    have hlater := hes.later hroot
    have hloaded : Load.dataType path u = (.ok f, u) := by
      refine dataType_of_cached ?_
      rw [fragment?, hnorm hlater]
      exact hlater.fragments _ _ hcached
    refine ⟨es, u, hes, ?_⟩
    rw [ofPending_link declared, linked]
    unfold ofLink
    rw [Load.bind_of_ok hloaded, Load.bind_of_ok (Load.ifResolved_apply (isResolved hd)),
      Load.ask_bind]
    exact hfinish
  | @parents v u declared resolved reported =>
    have hall : a.inherits = [] ++ (a.inherits ++ []) := by rw [List.append_nil, List.nil_append]
    obtain ⟨es, hes, hparents⟩ :=
      settles_each hroot hr declared a.inherits [] [] hall rfl hs resolved
    refine ⟨es, v, hes, ?_⟩
    have heach := each_ifResolved fun j hj => (hparents j hj).elim fun _ => isResolved
    rw [ofPending_parents declared, ofParents, Load.bind_of_ok heach, Load.ask_bind,
      Load.bind_of_ok reported, Load.ask_bind]
    exact hfinish

end

end Resolution

/-! ## Calls -/

namespace Store

variable {b s t u : Store} {i : ShapeId} {n : Nat} {ns : List ShapeId}

/-- The beginning and the end of a resolution are noted apart from what is stored. -/
theorem calm_beginResolution (s : Store) (i : ShapeId) : s.Calm (s.beginResolution i) :=
  { Calm.refl s with lists := ⟨rfl, rfl, rfl⟩ }

/-- To end a resolution is calm. -/
theorem calm_written (e : Evaluation) : (written e).Calm (e.stop.writeResolution e.id e.result) :=
  { Calm.refl (written e) with lists := ⟨rfl, rfl, rfl⟩ }

/-- After the evaluation of the declaration of a shape, the numbers that the store holds belong to
shapes. -/
theorem Sound.closed_of_resolving (hs : s.Sound i)
    (h : Load.resolving i (Load.evaluateWithin n) s = (.ok ns, t)) : t.Closed := by
  obtain ⟨b, known, phase, w, hp, hw, hi⟩ := hs
  have hlaws : (b.since known phase).Resolves := since_resolves hp
  have hr := hlaws.resolveWithin n n (.inl rfl)
  obtain ⟨w', -, ht, -⟩ := (hw.endsIn (hlaws.resolvingWithin hr w ⟨rfl, hi⟩)).of_ok h
  exact ht.closed

section
variable (hroot : settings.root.isAbsolute)
  (ih : ∀ j u, u.Sound j → Resolution.Settled settings (Load.resolveWithin n) j u)
include hroot ih

/-- A shape that is resolved settles after those that it asks for. -/
theorem settles_resolving (hs : s.Sound i) (hready : s.Ready settings)
    (h : Load.resolving i (Load.evaluateWithin n) s = (.ok ns, t)) :
    ∃ es : List (Settling settings), s.Settlings es t := by
  have hclosed := hs.closed_of_resolving h
  rw [Load.resolving_apply] at h
  rcases hclaim : s.claim i with f | (_ | ⟨a, p⟩)
  all_goals rw [hclaim] at h
  · cases h
  · cases h
    exact ⟨[], .nil (.refl s)⟩
  · obtain ⟨ha, hpending, hwait⟩ := waits_of_claim hclaim
    dsimp only at h
    rcases hr : Load.evaluateWithin n a p (s.beginResolution i) with ⟨f | r, stop⟩
    all_goals rw [hr] at h
    · cases h
    · cases h
      let e : Evaluation := ⟨i, n, s, a, p, r, stop, hclaim, hr⟩
      obtain ⟨base, u, hbase, hoverlay⟩ := Resolution.exists_based hr
      obtain ⟨es, m, hes, heval⟩ := Resolution.settles_of_based hroot
        (fun j u hasks => ih j u (Sound.makes (c := ⟨n + 1, i, s⟩) hs (.dependency hclaim hasks)))
        (hready.calm (calm_beginResolution s i)) ha hbase hoverlay
      have hm := hes.ready hroot (hready.calm (calm_beginResolution s i))
      -- While its declaration is evaluated, the shape stays unresolved.
      have hfound : m.shapes[i]? = some a := by
        rcases (hes.later hroot).shapes i a ha with hfound | ⟨-, c, hc, hcr, -⟩
        · exact hfound
        · obtain ⟨d, hd, -, hkept⟩ := (Load.grows_of_apply heval).kept hc hcr
          obtain ⟨d', hd', hstays⟩ := exists_stop e
          cases hd.symm.trans hd'
          rw [hkept.isUnknown.symm.trans hstays.kept.isUnknown, hwait.isUnknown] at hcr
          cases hcr
      let f : Settling settings := ⟨i, m, a, p, r, stop, hm, hfound, hpending, heval⟩
      have hcalm : (written e).Calm f.after := calm_written e
      exact ⟨es ++ [f],
        .snoc (hes.of_calm (calm_beginResolution s i)) (.refl m) (hclosed.calm hcalm) hcalm.symm⟩

/-- Some of the types inside an expression are resolved, after others and before others. -/
theorem settles_resolveIdle (hs : s.Sound i) {m : Store} (ids after : List ShapeId) :
    ∀ (before : List ShapeId) {t u : Store},
    Load.resolving i (Load.evaluateWithin n) s = (.ok (before ++ (ids ++ after)), m) →
    Load.resolveIdle (Load.resolveWithin n) before m = (.ok (), t) → t.Ready settings →
    Load.resolveIdle (Load.resolveWithin n) ids t = (.ok (), u) →
    ∃ es : List (Settling settings), t.Settlings es u := by
  induction ids with
  | nil =>
    intro before t u _ _ _ h
    cases h
    exact ⟨[], .nil (.refl t)⟩
  | cons j rest ihrest =>
    intro before t u heval hbefore ht h
    obtain ⟨_, v, hv, hrest⟩ := Load.bind_eq_ok.1 h
    have hidle : ∃ es : List (Settling settings), t.Settlings es v := by
      rw [Load.unlessResolving, Load.ask_bind] at hv
      cases hidle : t.isInProgress j with
      | true =>
        rw [hidle] at hv
        cases hv
        exact ⟨[], .nil (.refl t)⟩
      | false =>
        rw [hidle] at hv
        have hm : Call.Makes ⟨n + 1, i, s⟩ ⟨n, j, t⟩ := .nested heval hbefore hidle
        exact (ih j t (hs.makes hm) ht v hv).1
    obtain ⟨es, hes⟩ := hidle
    obtain ⟨es', hes'⟩ := ihrest (before ++ [j]) (by rwa [List.append_assoc])
      (resolveIdle_concat hbefore hv) (hes.ready hroot ht) hrest
    exact ⟨es ++ es', hes.append hes'⟩

end

/-- A call that ends well has settled shapes. -/
theorem Sound.settles (hroot : settings.root.isAbsolute) (n : Nat) : ∀ (i : ShapeId) (s : Store),
    s.Sound i → Resolution.Settled settings (Load.resolveWithin n) i s := by
  induction n with
  | zero => exact fun i s _ _ v h => nomatch h
  | succ n ih =>
    intro i s hs hready v h
    refine ⟨?_, hs.resolved_of_ok h⟩
    obtain ⟨ns, m, hm, hidle⟩ := Load.bind_eq_ok.1 h
    obtain ⟨es, hes⟩ := settles_resolving hroot ih hs hready hm
    have hall : Load.resolving i (Load.evaluateWithin n) s = (.ok ([] ++ (ns ++ [])), m) := by
      rwa [List.append_nil]
    obtain ⟨es', hes'⟩ :=
      settles_resolveIdle hroot ih hs ns [] [] hall rfl (hes.ready hroot hready) hidle
    exact ⟨es ++ es', hes.append hes'⟩

end Store

end RamlTypes
