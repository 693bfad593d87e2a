import RamlTypes.Proofs.Equations.Evaluation

/-!
# What a declaration is evaluated to

An evaluation finds a base for the declaration, which is a body, and applies the raw facets to it.
`Resolution.Based` lists what the base of each kind of declaration is, and `exists_based` says that an
evaluation that ends well has one.
-/

namespace RamlTypes.Resolution

/-- The base of a declaration that is evaluated from `s`, the shapes that are inherited with it, those
that are to be resolved afterwards, and the store in which it is found. -/
inductive Based (resolve : ShapeId → Load Unit) (a : Shape) (p : Pending) (s : Store) :
    Body → List ShapeId → List ShapeId → Store → Prop
  | reference {text : String} {library : Option String} {name : String} {j : ShapeId} {t : Store}
      (declared : p.declared = .expression text)
      (parsed : Expr.parse text = .ok (.ref library name))
      (denoted : s.denoted? a.location library name = some j) (resolved : resolve j s = (.ok (), t)) :
      Based resolve a p s (t.bodyOf j) [j] [] t
  | builtin {text : String} {k : Kind} (declared : p.declared = .expression text)
      (parsed : Expr.parse text = .ok (.builtin k)) :
      Based resolve a p s ((Body.empty? k).getD .any) [] [] s
  | array {text : String} {inner : Expr} {i : ShapeId} {ns : List ShapeId} {t : Store}
      (declared : p.declared = .expression text) (parsed : Expr.parse text = .ok (.array inner))
      (inside : part a.owner inner s = (.ok (i, ns), t)) :
      Based resolve a p s (Body.arrayOf i) [] ns t
  | optional {text : String} {inner : Expr} {i n : ShapeId} {ns : List ShapeId} {t u : Store}
      (declared : p.declared = .expression text) (parsed : Expr.parse text = .ok (.optional inner))
      (inside : part a.owner inner s = (.ok (i, ns), t)) (nil : fresh a.owner .nil t = (.ok n, u)) :
      Based resolve a p s (.union [i, n]) [] ns u
  | union {text : String} {members : List Expr} {is ns : List ShapeId} {t : Store}
      (declared : p.declared = .expression text) (parsed : Expr.parse text = .ok (.union members))
      (inside : parts a.owner members s = (.ok (is, ns), t)) :
      Based resolve a p s (.union is) [] ns t
  | link {path : Path} {d : DataType} {t u : Store} (declared : p.declared = .link)
      (linked : a.link = some path) (loaded : Load.dataType path s = (.ok d, t))
      (resolved : resolve d.shape t = (.ok (), u)) :
      Based resolve a p s (u.bodyOf d.shape) [d.shape] [] u
  | parents {t u : Store} (declared : p.declared = .parents)
      (resolved : each resolve a.inherits s = (.ok (), t))
      (reported : reportDivergence a.owner (kinds t a.inherits) t = (.ok (), u)) :
      Based resolve a p s (u.parentBody a.inherits) [] [] u

variable {resolve : ShapeId → Load Unit} {a : Shape} {p : Pending} {s t u : Store} {r : Resolution}

/-- The base is found in a later store. -/
theorem Based.grows {base : Body} {is ns : List ShapeId} (h : Based resolve a p s base is ns t) :
    s.Grows t := by
  cases h with
  | reference _ _ _ resolved => exact Load.grows_of_apply resolved
  | builtin => exact .refl s
  | array _ _ inside | union _ _ inside => exact Load.grows_of_apply inside
  | optional _ _ inside nil => exact (Load.grows_of_apply inside).trans (Load.grows_of_apply nil)
  | link _ _ loaded resolved => exact (Load.grows_of_apply loaded).trans (Load.grows_of_apply resolved)
  | parents _ resolved reported =>
    exact (Load.grows_of_apply resolved).trans (Load.grows_of_apply reported)

/-- The raw facets are applied to the base at last. -/
theorem overlay_of_finish {o : Owner} {facets : List (String × Node)} {is ns : List ShapeId}
    {base : Body} (h : finish o facets is ns base s = (.ok r, t)) :
    r.inherits = is ∧ r.nested = ns ∧
      overlay o base facets s = (.ok (r.body, r.customFacets), t) := by
  obtain ⟨⟨body, custom⟩, u, hu, h⟩ := Load.bind_eq_ok.1 h
  cases h
  exact ⟨rfl, rfl, hu⟩

/-- An evaluation that ends well has found a base and has applied the raw facets to it. -/
theorem exists_based (h : ofPending resolve a.owner a p s = (.ok r, t)) :
    ∃ base u, Based resolve a p s base r.inherits r.nested u ∧
      overlay a.owner base p.facets u = (.ok (r.body, r.customFacets), t) := by
  have done {is ns : List ShapeId} {base : Body} {u : Store}
      (hb : Based resolve a p s base is ns u)
      (hf : finish a.owner p.facets is ns base u = (.ok r, t)) :
      ∃ base u, Based resolve a p s base r.inherits r.nested u ∧
        overlay a.owner base p.facets u = (.ok (r.body, r.customFacets), t) := by
    obtain ⟨hi, hn, ho⟩ := overlay_of_finish hf
    exact ⟨base, u, hi ▸ hn ▸ hb, ho⟩
  rw [ofPending] at h
  split at h
  · next hp =>
    unfold ofLink at h
    rcases hl : a.link with _ | path <;> rw [hl] at h
    · cases h
    · obtain ⟨d, u, hd, h⟩ := Load.bind_eq_ok.1 h
      obtain ⟨_, v, hv, h⟩ := Load.bind_eq_ok.1 h
      exact done (.link hp hl hd hv) h
  · next hp =>
    obtain ⟨_, u, hu, h⟩ := Load.bind_eq_ok.1 h
    obtain ⟨_, v, hv, h⟩ :=
      Load.bind_eq_ok.1 (h : (do reportDivergence a.owner (kinds u a.inherits); _) u = _)
    exact done (.parents hp hu hv) h
  · next text hp =>
    split at h
    · next e he =>
      cases e with
      | ref library name =>
        obtain ⟨j, u, hj, h⟩ := Load.bind_eq_ok.1 h
        rw [lookup, Load.ask_bind] at hj
        split at hj
        · next hd =>
          cases hj
          obtain ⟨_, v, hv, h⟩ := Load.bind_eq_ok.1 h
          exact done (.reference hp he hd hv) h
        · cases hj
      | builtin k => exact done (.builtin hp he) h
      | array inner =>
        obtain ⟨⟨i, ns⟩, u, hu, h⟩ := Load.bind_eq_ok.1 h
        exact done (.array hp he hu) h
      | optional inner =>
        obtain ⟨⟨i, ns⟩, u, hu, h⟩ := Load.bind_eq_ok.1 h
        obtain ⟨n, v, hv, h⟩ := Load.bind_eq_ok.1 h
        exact done (.optional hp he hu hv) h
      | union members =>
        obtain ⟨⟨is, ns⟩, u, hu, h⟩ := Load.bind_eq_ok.1 h
        exact done (.union hp he hu) h
    · cases h

end RamlTypes.Resolution
