import RamlTypes.Proofs.Equations.Solutions
import RamlTypes.Proofs.Expr.Mentions

/-!
# The types that an expression names

A compound expression refers to the types that it names inside, under any nesting of its operators
(`Expr.Mentions`). The evaluation of a declaration returns the shapes that these names denote, to be
resolved afterwards, and no others (`Evaluation.names_nested`).
-/

namespace RamlTypes

namespace Store

/-- The shapes `ns` are those that the names denote that have the property `mentioned`. -/
structure Names (m : Store) (location : Path) (mentioned : Option String → String → Prop)
    (ns : List ShapeId) : Prop where
  all : ∀ library name, mentioned library name → ∃ j ∈ ns, m.denoted? location library name = some j
  only : ∀ j ∈ ns, ∃ library name, mentioned library name ∧ m.denoted? location library name = some j

variable {m : Store} {location : Path} {mentioned : Option String → String → Prop}
  {ns ms : List ShapeId}

theorem Names.of_iff (h : m.Names location mentioned ns) {mentioned' : Option String → String → Prop}
    (hiff : ∀ library name, mentioned' library name ↔ mentioned library name) :
    m.Names location mentioned' ns where
  all library name hm := h.all library name ((hiff library name).1 hm)
  only j hj := by
    obtain ⟨library, name, hm, hd⟩ := h.only j hj
    exact ⟨library, name, (hiff library name).2 hm, hd⟩

theorem names_none (m : Store) (location : Path) : m.Names location (fun _ _ => False) [] where
  all _ _ h := h.elim
  only _ h := nomatch h

theorem Names.append {mentioned' : Option String → String → Prop} (h : m.Names location mentioned ns)
    (h' : m.Names location mentioned' ms) :
    m.Names location (fun library name => mentioned library name ∨ mentioned' library name)
      (ns ++ ms) where
  all library name hm := by
    rcases hm with hm | hm
    · obtain ⟨j, hj, hd⟩ := h.all library name hm
      exact ⟨j, List.mem_append_left _ hj, hd⟩
    · obtain ⟨j, hj, hd⟩ := h'.all library name hm
      exact ⟨j, List.mem_append_right _ hj, hd⟩
  only j hj := by
    rcases List.mem_append.1 hj with hj | hj
    · obtain ⟨library, name, hm, hd⟩ := h.only j hj
      exact ⟨library, name, .inl hm, hd⟩
    · obtain ⟨library, name, hm, hd⟩ := h'.only j hj
      exact ⟨library, name, .inr hm, hd⟩

end Store

namespace Resolution

open Store

variable {o : Owner} {m s t : Store} {i : ShapeId} {is ns : List ShapeId}

mutual

/-- A part of an expression refers to what its names denote. -/
theorem names_part : ∀ (e : Expr), e.NamesBuiltins → ∀ {s t : Store} {i : ShapeId}
    {ns : List ShapeId}, m.Expands s → part o e s = (.ok (i, ns), t) →
    m.Names o.location (fun library name => e.Mentions library name) ns
  | .ref library name, _, s, t, i, ns, hs, h => by
    unfold part at h
    obtain ⟨j, u, hj, h⟩ := Load.bind_eq_ok.1 h
    cases h
    rw [lookup, Load.ask_bind] at hj
    split at hj
    · next hd =>
      cases hj
      have hdenoted : m.denoted? o.location library name = some i := hs.denoted _ _ _ ▸ hd
      refine ⟨fun library' name' hm => ⟨i, List.mem_singleton_self i, ?_⟩, fun k hk => ?_⟩
      · obtain ⟨rfl, rfl⟩ := Expr.mentions_ref_iff.1 hm
        exact hdenoted
      · exact ⟨library, name, .ref, List.mem_singleton.1 hk ▸ hdenoted⟩
    · cases hj
  | .builtin k, _, s, t, i, ns, _, h => by
    unfold part at h
    obtain ⟨j, u, -, h⟩ := Load.bind_eq_ok.1 h
    cases h
    exact (names_none m o.location).of_iff fun _ _ => iff_of_false Expr.not_mentions_builtin not_false
  | .array inner, hk, s, t, i, ns, hs, h => by
    unfold part at h
    obtain ⟨⟨j, js⟩, u, hj, h⟩ := Load.bind_eq_ok.1 h
    obtain ⟨k, v, -, h⟩ := Load.bind_eq_ok.1 h
    cases h
    exact (names_part inner hk hs hj).of_iff fun _ _ => Expr.mentions_array_iff
  | .optional inner, hk, s, t, i, ns, hs, h => by
    unfold part at h
    obtain ⟨⟨j, js⟩, u, hj, h⟩ := Load.bind_eq_ok.1 h
    obtain ⟨n, v, -, h⟩ := Load.bind_eq_ok.1 h
    obtain ⟨k, v', -, h⟩ := Load.bind_eq_ok.1 h
    cases h
    exact (names_part inner hk hs hj).of_iff fun _ _ => Expr.mentions_optional_iff
  | .union members, hk, s, t, i, ns, hs, h => by
    unfold part at h
    obtain ⟨⟨js, ms⟩, u, hj, h⟩ := Load.bind_eq_ok.1 h
    obtain ⟨k, v, -, h⟩ := Load.bind_eq_ok.1 h
    cases h
    exact (names_parts members hk hs hj).of_iff fun _ _ => Expr.mentions_union_iff

/-- Several parts of an expression refer to what their names denote. -/
theorem names_parts : ∀ (es : List Expr), Expr.AllNameBuiltins es → ∀ {s t : Store}
    {is ns : List ShapeId}, m.Expands s → parts o es s = (.ok (is, ns), t) →
    m.Names o.location (fun library name => ∃ e ∈ es, e.Mentions library name) ns
  | [], _, s, t, is, ns, _, h => by
    unfold parts at h
    cases h
    exact (names_none m o.location).of_iff fun _ _ => iff_of_false (by simp) not_false
  | e :: rest, hk, s, t, is, ns, hs, h => by
    unfold parts at h
    obtain ⟨⟨j, js⟩, u, hj, h⟩ := Load.bind_eq_ok.1 h
    obtain ⟨hu, -, -⟩ := hasPart_of_part e hk.1 hs hj
    obtain ⟨⟨ks, ms⟩, v, hks, h⟩ := Load.bind_eq_ok.1 h
    cases h
    refine ((names_part e hk.1 hs hj).append (names_parts rest hk.2 hu hks)).of_iff fun _ _ => ?_
    simp only [List.mem_cons, exists_eq_or_imp]

end

end Resolution

open Store

/-- The name stands in the expression of the declaration, which is no name itself. -/
def Pending.MentionsInside (p : Pending) (library : Option String) (name : String) : Prop :=
  ∃ text x, p.declared = .expression text ∧ Expr.parse text = .ok x ∧ x.Mentions library name ∧
    x ≠ .ref library name

namespace Evaluation

/-- What is to be resolved after an evaluation is what the names inside the expression denoted when the
evaluation began. -/
theorem names_nested (e : Evaluation) (h : e.start.Sound e.id) :
    e.start.Names e.shape.location e.pending.MentionsInside e.result.nested := by
  obtain ⟨base, u, hbase, -⟩ := Resolution.exists_based e.evaluated
  generalize e.result.inherits = is at hbase
  generalize e.result.nested = ns at hbase ⊢
  -- Names are mentioned by the expression that the declaration is parsed to.
  have inside {text : String} {x : Expr} (hp : e.pending.declared = .expression text)
      (he : Expr.parse text = .ok x) (hx : ∀ library name, x ≠ .ref library name)
      (library : Option String) (name : String) :
      e.pending.MentionsInside library name ↔ x.Mentions library name := by
    constructor
    · rintro ⟨text', x', hp', he', hm, -⟩
      cases hp.symm.trans hp'
      cases he.symm.trans he'
      exact hm
    · exact fun hm => ⟨text, x, hp, he, hm, hx library name⟩
  have outside (hp : ∀ text, e.pending.declared ≠ .expression text) :
      e.start.Names e.shape.location e.pending.MentionsInside [] := by
    refine (names_none _ _).of_iff fun _ _ => iff_of_false ?_ not_false
    rintro ⟨text, -, hp', -⟩
    exact hp text hp'
  cases hbase with
  | reference hp he _ _ =>
    refine (names_none _ _).of_iff fun _ _ => iff_of_false ?_ not_false
    rintro ⟨text', x', hp', he', hm, hne⟩
    cases hp.symm.trans hp'
    cases he.symm.trans he'
    obtain ⟨rfl, rfl⟩ := Expr.mentions_ref_iff.1 hm
    exact hne rfl
  | builtin hp he =>
    refine (names_none _ _).of_iff fun _ _ => ?_
    exact (inside hp he nofun _ _).trans (iff_of_false Expr.not_mentions_builtin not_false)
  | @array _ inner _ _ _ hp he hinside =>
    have hnames : (Expr.array inner).NamesBuiltins := Expr.namesBuiltins_of_parse he
    refine (Resolution.names_part inner hnames h.expands hinside).of_iff fun _ _ => ?_
    exact (inside hp he nofun _ _).trans Expr.mentions_array_iff
  | @optional _ inner _ _ _ _ _ hp he hinside _ =>
    have hnames : (Expr.optional inner).NamesBuiltins := Expr.namesBuiltins_of_parse he
    refine (Resolution.names_part inner hnames h.expands hinside).of_iff fun _ _ => ?_
    exact (inside hp he nofun _ _).trans Expr.mentions_optional_iff
  | @union _ members _ _ _ hp he hinside =>
    have hnames : (Expr.union members).NamesBuiltins := Expr.namesBuiltins_of_parse he
    refine (Resolution.names_parts members hnames h.expands hinside).of_iff fun _ _ => ?_
    exact (inside hp he nofun _ _).trans Expr.mentions_union_iff
  | link hp _ _ _ => exact outside fun text hp' => by cases hp.symm.trans hp'
  | parents hp _ _ => exact outside fun text hp' => by cases hp.symm.trans hp'

end Evaluation

end RamlTypes
