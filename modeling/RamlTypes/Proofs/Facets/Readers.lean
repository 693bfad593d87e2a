import RamlTypes.Proofs.Facets.Applied

/-!
# What is applied where declarations are read

The facets of a declaration are applied where its file is read, with what bounds the nesting there, and
where its shape is resolved, with the loaders of the store. Both readers store every shape in a new
place (`IsReader.stores`), so what they apply is applied as `Facets.Applied` says.
-/

namespace RamlTypes

theorem Load.mapFault_eq_ok {α : Type} {f : PlainFault → PlainFault} {x : Load α} {s t : Store} {a : α} :
    mapFault f x s = (.ok a, t) ↔ x s = (.ok a, t) := by
  dsimp only [mapFault]
  rcases x s with ⟨(_ | _ | _) | _, _⟩ <;> simp

/-- A mapping has one level more than its entries. -/
theorem Node.exists_height {node : Node} {pairs : List (Node × Node)}
    (h : node.pairs? = some pairs) : ∃ n, node.height = n + 1 := by
  cases node with
  | scalar => cases h
  | sequence => cases h
  | mapping pairs _ _ => exact ⟨Node.heightPairs pairs, Nat.add_comm ..⟩

namespace Declaration

/-- A declaration that is read has been drafted, planned and completed, and its shape is stored last. -/
theorem decode_eq_ok {c : Context} {name : String} {node : Node} {s t : Store} {i : ShapeId}
    (h : decode c name node s = (.ok i, t)) :
    ∃ d m₁ r m₂ a m, draft c name node s = (.ok d, m₁) ∧ plan c d.shape d.type m₁ = (.ok r, m₂) ∧
      complete c name r.1 d.raw r.2 m₂ = (.ok a, m) ∧ i = m.shapes.size ∧ t = m.addShape a := by
  obtain ⟨d, m₁, hdraft, h⟩ := Load.bind_eq_ok.1 h
  obtain ⟨r, m₂, hplan, h⟩ := Load.bind_eq_ok.1 h
  obtain ⟨a, m, hcomplete, h⟩ := Load.bind_eq_ok.1 h
  cases h
  exact ⟨d, m₁, r, m₂, a, m, hdraft, hplan, hcomplete, rfl, rfl⟩

end Declaration

namespace Facets

variable {declare : Declare} {path : Path}

/-- The readers of the declarations inside a declaration of the file `path`: the one where the file is
read, and the one where the shape is resolved. -/
inductive IsReader (path : Path) : Declare → Prop
  | whileReading (depth levels : Nat) :
    IsReader path (Declaration.buildLevels (Fragment.loaders depth).dataType path levels)
  | whileResolving : IsReader path (Load.declare path)

/-- What is read with any bounds is stored. -/
theorem stores_buildLevels (path : Path) (depth levels : Nat) :
    Stores (Declaration.buildLevels (Fragment.loaders depth).dataType path levels) where
  extended {name node s i t} h :=
    (Store.extends_of_agree (Store.beside_buildLevels path depth levels levels () name node) h).1
  fresh {name node s i t} h := by
    have hagree := Store.beside_buildLevels (n := s.shapes.size) (k := 0) (u := s) (b := s) path depth
      levels levels () name node
    refine ⟨(Store.extends_of_agree hagree h).2.1, ?_⟩
    cases levels with
    | zero => cases h
    | succ levels =>
      obtain ⟨_, _, _, _, a, m, _, _, _, rfl, rfl⟩ := Declaration.decode_eq_ok (Load.mapFault_eq_ok.1 h)
      show m.shapes.size < (m.shapes.push _).size
      rw [Array.size_push]
      exact Nat.lt_succ_self _

theorem IsReader.stores (h : IsReader path declare) : Stores declare := by
  cases h with
  | whileReading depth levels => exact stores_buildLevels path depth levels
  | whileResolving =>
    exact
    { extended := fun {_ node s _ _} h =>
        (stores_buildLevels path s.loadDepth node.height).extended h
      fresh := fun {_ node s _ _} h => (stores_buildLevels path s.loadDepth node.height).fresh h }

variable {owner : String} {body : Body} {facets : List (String × Node)}
  {result : Body × Dict String Node} {s t : Store}

/-- Applying facets to a body of any kind does what `Applied` says, wherever it is done. -/
theorem applied_of_apply (hd : IsReader path declare)
    (h : apply declare path owner body facets s = (.ok result, t)) :
    Applied declare owner s (body, []) facets result t :=
  applied_of_stores hd.stores h

/-- An object that has a property gets another one that is optional, and the last bound. -/
theorem applied_of_apply_object :
    let path : Path := ⟨"/lib.raml"⟩
    let s : Store := .empty ⟨⟨"/"⟩, false, false⟩ (.memory [])
    let text (t : String) : Node := .scalar t .string .unknown false
    let count (t : String) : Node := .scalar t .int .unknown false
    let body : Body := .object ⟨[("a", 7)], none, none, some 5, none, none⟩
    let facets := [("minProperties", count "1"), ("note", text "x"),
      ("properties", .mapping [(text "b?", text "integer"), (text "a", .null)] .unknown false),
      ("minProperties", count "2")]
    ∃ result t, IsReader path (Load.declare path) ∧
      apply (Load.declare path) path "T" body facets s = (.ok result, t) ∧
      Applied (Load.declare path) "T" s (body, []) facets result t := by
  intro path s text count body facets
  have hrun : (apply (Load.declare path) path "T" body facets s).1.isOk = true := by decide +kernel
  rcases h : apply (Load.declare path) path "T" body facets s with ⟨_ | result, t⟩
  · rw [h] at hrun
    cases hrun
  · exact ⟨result, t, .whileResolving, rfl, applied_of_apply .whileResolving h⟩

end Facets

/-- The facets that wait are applied to a body with the loaders of the store. -/
theorem Resolution.overlay_eq (o : Owner) (body : Body) (facets : List (String × Node)) :
    overlay o body facets = Facets.apply (Load.declare o.location) o.location o.name body facets := by
  rw [overlay]
  split
  · next h =>
    rw [List.isEmpty_iff.1 h]
    rfl
  · rfl

/-- The facets that wait are applied when the shape is resolved. -/
theorem Resolution.applied_of_overlay {o : Owner} {body : Body} {facets : List (String × Node)}
    {result : Body × Dict String Node} {s t : Store} (h : overlay o body facets s = (.ok result, t)) :
    Facets.Applied (Load.declare o.location) o.name s (body, []) facets result t := by
  rw [overlay_eq] at h
  exact Facets.applied_of_stores Facets.IsReader.whileResolving.stores h

end RamlTypes
