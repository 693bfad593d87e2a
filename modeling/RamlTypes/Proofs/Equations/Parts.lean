import RamlTypes.Proofs.Equations.Bases
import RamlTypes.Proofs.Equations.Builtins
import RamlTypes.Proofs.Facets.Basic

/-!
# The shapes of the parts of an expression

A compound expression refers to the shapes of its parts. A name stands for the shape that it denotes,
and everything else for a shape that is stored for it. `Store.HasBody` and `Store.HasPart` state this
rule for every expression, and the evaluation of an expression follows it
(`Resolution.hasPart_of_part`).
-/

namespace RamlTypes

namespace Store

/-- In the store `t` there is a shape of a given body that was not yet in `m`. -/
def Stored (m t : Store) (i : ShapeId) (b : Body) : Prop :=
  m.shapes.size ≤ i ∧ ∃ a, t.shapes[i]? = some a ∧ a.body = b

mutual

/-- The body of a compound expression, or of a built-in kind, in the store `t`. The names inside stand
for what they denoted in the file `location` in the store `m`. -/
inductive HasBody (m t : Store) (location : Path) : Expr → Body → Prop
  | builtin {k : Kind} {b : Body} (bare : b.Bare k) : HasBody m t location (.builtin k) b
  | array {inner : Expr} {i : ShapeId} (items : HasPart m t location inner i) :
      HasBody m t location (.array inner) (.array ⟨some i, none, none, none⟩)
  | optional {inner : Expr} {i n : ShapeId} (value : HasPart m t location inner i)
      (nil : m.Stored t n .nil) : HasBody m t location (.optional inner) (.union [i, n])
  | union {es : List Expr} {is : List ShapeId} (members : HasParts m t location es is) :
      HasBody m t location (.union es) (.union is)

/-- The shape of a part of an expression. -/
inductive HasPart (m t : Store) (location : Path) : Expr → ShapeId → Prop
  | reference {library : Option String} {name : String} {i : ShapeId}
      (denoted : m.denoted? location library name = some i) :
      HasPart m t location (.ref library name) i
  | stored {e : Expr} {b : Body} {i : ShapeId} (body : HasBody m t location e b)
      (stored : m.Stored t i b) : HasPart m t location e i

/-- The shapes of several parts in their order. -/
inductive HasParts (m t : Store) (location : Path) : List Expr → List ShapeId → Prop
  | nil : HasParts m t location [] []
  | cons {e : Expr} {i : ShapeId} {es : List Expr} {is : List ShapeId}
      (head : HasPart m t location e i) (tail : HasParts m t location es is) :
      HasParts m t location (e :: es) (i :: is)

end

/-- Names denote the same in `s` as in `m`, which is older, and continue to do so when shapes are
added. -/
structure Expands (m s : Store) : Prop where
  size_le : m.shapes.size ≤ s.shapes.size
  denoted (location : Path) (library : Option String) (name : String) :
    s.denoted? location library name = m.denoted? location library name
  dataTypes : ∀ k d, Dict.find? k s.fragments = some (.dataType d) → d.shape < s.shapes.size

variable {m s : Store}

theorem Expands.lookup_addShape (h : m.Expands s) (a : Shape) (p : Path) (name : String) :
    (s.addShape a).lookup? p name = s.lookup? p name := by
  have hpath : (s.addShape a).normalize p = s.normalize p := rfl
  have hnamed : (s.addShape a).named = s.named := rfl
  have hfragments : (s.addShape a).fragments = s.fragments := rfl
  rw [lookup?, lookup?, hpath, hnamed, hfragments]
  rcases (Dict.find? (s.normalize p).key s.named).bind (Dict.find? name) with _ | i
  · rcases hf : Dict.find? (s.normalize p).key s.fragments with _ | (l | d)
    · rfl
    · rfl
    · have hne := Nat.ne_of_lt (h.dataTypes _ d hf)
      dsimp only
      rw [nameOf?, nameOf?, getElem?_addShape, if_neg hne]
  · rfl

/-- Another shape changes nothing of what names denote. -/
theorem Expands.addShape (h : m.Expands s) (a : Shape) : m.Expands (s.addShape a) where
  size_le := Nat.le_trans h.size_le (s.grows_addShape a).size_le
  denoted location library name := by
    rw [← h.denoted]
    cases library with
    | none => exact h.lookup_addShape a location name
    | some l =>
      have hlookup : ((s.addShape a).lookup? · name) = (s.lookup? · name) :=
        funext fun p => h.lookup_addShape a p name
      rw [denoted?, denoted?, hlookup]
      rfl
  dataTypes k d hd := Nat.lt_of_lt_of_le (h.dataTypes k d hd) (s.grows_addShape a).size_le

end Store

namespace Resolution

open Store

variable {o : Owner} {m : Store}

/-- The shape that is stored for a part stays in the store. -/
theorem stored_of_fresh {b : Body} {s t : Store} {i : ShapeId} (hs : m.Expands s)
    (h : fresh o b s = (.ok i, t)) (hb : b.pending? = none) :
    m.Expands t ∧ s.Keeps t ∧ ∀ u, t.Keeps u → m.Stored u i b := by
  rw [fresh, Load.addShape_apply] at h
  cases h
  refine ⟨hs.addShape _, (s.grows_addShape _).keeps, fun u hu => ⟨hs.size_le, ?_⟩⟩
  have hnew := (s.getElem?_addShape (Shape.plain o.name o.location o.mark b) s.shapes.size).trans
    (if_pos rfl)
  obtain ⟨c, hc, hstays⟩ := hu _ _ hnew (congrArg Option.isSome hb)
  exact ⟨c, hc, hstays.kept.body⟩

mutual

/-- Evaluating a part of an expression follows the rule. -/
theorem hasPart_of_part : ∀ (e : Expr), e.NamesBuiltins → ∀ {s t : Store} {i : ShapeId}
    {ns : List ShapeId}, m.Expands s → part o e s = (.ok (i, ns), t) →
    m.Expands t ∧ s.Keeps t ∧ ∀ u, t.Keeps u → m.HasPart u o.location e i
  | .ref library name, _, s, t, i, ns, hs, h => by
    unfold part at h
    obtain ⟨j, u, hj, h⟩ := Load.bind_eq_ok.1 h
    cases h
    rw [lookup, Load.ask_bind] at hj
    split at hj
    · next hd =>
      cases hj
      exact ⟨hs, (Grows.refl _).keeps, fun u _ => .reference (hs.denoted _ _ _ ▸ hd)⟩
    · cases hj
  | .builtin k, hk, s, t, i, ns, hs, h => by
    unfold part at h
    obtain ⟨j, u, hj, h⟩ := Load.bind_eq_ok.1 h
    cases h
    obtain ⟨b, hb⟩ := Body.exists_empty hk
    obtain ⟨ht, hkeeps, hstored⟩ :=
      stored_of_fresh hs hj (Body.pending_eq_none_iff.2 (Body.emptyD_kind k))
    rw [hb] at hstored
    exact ⟨ht, hkeeps, fun u hu => .stored (.builtin (Body.bare_of_empty? hb)) (hstored u hu)⟩
  | .array inner, hk, s, t, i, ns, hs, h => by
    unfold part at h
    obtain ⟨⟨j, js⟩, u, hj, h⟩ := Load.bind_eq_ok.1 h
    obtain ⟨hu, hsu, hinner⟩ := hasPart_of_part inner hk hs hj
    obtain ⟨k, v, hk, h⟩ := Load.bind_eq_ok.1 h
    cases h
    obtain ⟨hv, huv, hstored⟩ := stored_of_fresh hu hk rfl
    refine ⟨hv, hsu.trans huv, fun u' hu' => ?_⟩
    exact .stored (.array (hinner u' (huv.trans hu'))) (hstored u' hu')
  | .optional inner, hk, s, t, i, ns, hs, h => by
    unfold part at h
    obtain ⟨⟨j, js⟩, u, hj, h⟩ := Load.bind_eq_ok.1 h
    obtain ⟨hu, hsu, hinner⟩ := hasPart_of_part inner hk hs hj
    obtain ⟨n, v, hn, h⟩ := Load.bind_eq_ok.1 h
    obtain ⟨hv, huv, hnil⟩ := stored_of_fresh hu hn rfl
    obtain ⟨k, v', hk, h⟩ := Load.bind_eq_ok.1 h
    cases h
    obtain ⟨hv', hvv', hstored⟩ := stored_of_fresh hv hk rfl
    refine ⟨hv', hsu.trans (huv.trans hvv'), fun u' hu' => ?_⟩
    have hvu' := hvv'.trans hu'
    exact .stored (.optional (hinner u' (huv.trans hvu')) (hnil u' hvu')) (hstored u' hu')
  | .union members, hk, s, t, i, ns, hs, h => by
    unfold part at h
    obtain ⟨⟨js, ms⟩, u, hj, h⟩ := Load.bind_eq_ok.1 h
    obtain ⟨hu, hsu, hmembers⟩ := hasParts_of_parts members hk hs hj
    obtain ⟨k, v, hk, h⟩ := Load.bind_eq_ok.1 h
    cases h
    obtain ⟨hv, huv, hstored⟩ := stored_of_fresh hu hk rfl
    refine ⟨hv, hsu.trans huv, fun u' hu' => ?_⟩
    exact .stored (.union (hmembers u' (huv.trans hu'))) (hstored u' hu')

/-- Evaluating several parts follows the rule. -/
theorem hasParts_of_parts : ∀ (es : List Expr), Expr.AllNameBuiltins es → ∀ {s t : Store}
    {is ns : List ShapeId}, m.Expands s → parts o es s = (.ok (is, ns), t) →
    m.Expands t ∧ s.Keeps t ∧ ∀ u, t.Keeps u → m.HasParts u o.location es is
  | [], _, s, t, is, ns, hs, h => by
    unfold parts at h
    cases h
    exact ⟨hs, (Grows.refl _).keeps, fun _ _ => .nil⟩
  | e :: rest, hk, s, t, is, ns, hs, h => by
    unfold parts at h
    obtain ⟨⟨j, js⟩, u, hj, h⟩ := Load.bind_eq_ok.1 h
    obtain ⟨hu, hsu, hhead⟩ := hasPart_of_part e hk.1 hs hj
    obtain ⟨⟨ks, ms⟩, v, hks, h⟩ := Load.bind_eq_ok.1 h
    cases h
    obtain ⟨hv, huv, htail⟩ := hasParts_of_parts rest hk.2 hu hks
    exact ⟨hv, hsu.trans huv, fun u' hu' => .cons (hhead u' (huv.trans hu')) (htail u' hu')⟩

end

end Resolution

end RamlTypes
