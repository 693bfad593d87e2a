import RamlTypes.Proofs.Termination.Costs
import RamlTypes.Proofs.Termination.Nodes

/-!
# Facets cost their values

A facet may hold declarations, which are parts of its value. So if reading a declaration costs its
node, applying facets to a body costs their values (`Facets.pays_apply`). An example costs nothing.
-/

namespace RamlTypes

/-! ## Facets -/

namespace Facets

open Load (Pays IsFree)

/-- A declaration of at most `n` levels costs its node. -/
abbrev Affords (declare : Declare) (d n : Nat) : Prop :=
  ∀ name (node : Node), node.height ≤ n → (declare name node).Pays d (2 * node.size) fun _ => 0

variable {declare : Declare} {d n : Nat} {path : Path} {owner key : String} {value : Node}

/-- A pattern costs nothing. -/
theorem pays_pattern : (pattern path owner value).IsFree d := by
  refine .check fun text _ => .bind ?_ fun _ => .pure (Nat.le_refl _)
  unfold checkPattern
  split
  · exact .report _
  · exact .pure (Nat.le_refl _)

/-- Nor does any facet of a string. -/
theorem pays_string (f : StringFacets) (c : Nat) :
    (string path owner f key value).Pays d c fun _ => 0 := by
  unfold string
  split
  case h_3 => exact .bind (pays_pattern.of_le (Nat.zero_le c)) fun _ => .pure (Nat.zero_le _)
  case h_5 => exact .pure (Nat.zero_le _)
  all_goals exact .check fun _ _ => .pure (Nat.zero_le _)

/-- The items of an array cost their node. -/
theorem pays_array (hd : Affords declare d n) (hn : value.height ≤ n) (f : ArrayFacets) :
    (array declare path owner f key value).Pays d (2 * value.size) fun _ => 0 := by
  unfold array
  split
  case h_1 => exact .bind (hd owner value hn) fun _ => .pure (Nat.zero_le _)
  case h_5 => exact .pure (Nat.zero_le _)
  all_goals exact .check fun _ _ => .pure (Nat.zero_le _)

/-- A property costs its node. -/
theorem pays_property (hd : Affords declare d n) (hn : value.height ≤ n) (name : String)
    (optional : Bool) :
    (property declare name optional value).Pays d (2 * value.size) fun _ => 0 := by
  refine .bind (hd name value hn) fun id => ?_
  split
  · refine .bind (.change fun s => .mapShape s id fun _ => rfl) fun _ => .pure (Nat.le_refl _)
  · exact .pure (Nat.le_refl _)

/-- By induction on the entries, properties cost what their nodes weigh together. -/
theorem pays_properties (hd : Affords declare d n) (entries : List (String × Node)) :
    ∀ known, (∀ v ∈ entries.map (·.2), v.height ≤ n) →
    (properties declare known entries).Pays d (facetsWeight entries) fun _ => 0 := by
  induction entries with
  | nil => exact fun _ _ => .pure (Nat.le_refl _)
  | cons entry rest ih =>
    intro known hn
    rw [List.map_cons, List.forall_mem_cons] at hn
    refine .bind ((pays_property hd hn.1 _ _).leaving (Nat.le_refl _)) fun _ => ?_
    exact ih _ hn.2

/-- A facet of an object costs its node. -/
theorem pays_object (hd : Affords declare d n) (hn : value.height ≤ n) (f : ObjectFacets) :
    (object declare path f key value).Pays d (2 * value.size) fun _ => 0 := by
  unfold object
  split
  case h_1 =>
    refine .check fun entries he => ?_
    have hparts := (Entry.hasEntries_of_named he).holds
    have hall := pays_properties hd entries f.properties fun v hv =>
      Nat.le_trans (Nat.le_of_lt (hparts.height v hv)) hn
    have hsize := hparts.size
    rw [← facetsWeight_eq] at hsize
    exact .bind (hall.of_le (by omega)) fun _ => .pure (Nat.zero_le _)
  case h_6 => exact .pure (Nat.zero_le _)
  case h_7 => exact .pure (Nat.zero_le _)
  all_goals exact .check fun _ _ => .pure (Nat.zero_le _)

/-- The members of a union cost what their nodes weigh together. -/
theorem pays_members (hd : Affords declare d n) (owner : String) (nodes : List Node) :
    ∀ known, (∀ v ∈ nodes, v.height ≤ n) →
    (members declare owner known nodes).Pays d (nodesWeight nodes) fun _ => 0 := by
  induction nodes with
  | nil => exact fun _ _ => .pure (Nat.le_refl _)
  | cons node rest ih =>
    intro known hn
    rw [List.forall_mem_cons] at hn
    refine .bind ((hd owner node hn.1).leaving (Nat.le_refl _)) fun _ => ?_
    exact ih _ hn.2

/-- A facet costs its value. -/
theorem pays_applyOne (hd : Affords declare d n) (hn : value.height ≤ n) (body : Body) :
    (applyOne declare path owner body key value).Pays d (2 * value.size) fun _ => 0 := by
  cases body with
  | string f => exact pays_string f _
  | array f => exact pays_array hd hn f
  | object f => exact pays_object hd hn f
  | integer f => exact .check fun _ _ => .pure (Nat.zero_le _)
  | number f => exact .check fun _ _ => .pure (Nat.zero_le _)
  | file f => exact .check fun _ _ => .pure (Nat.zero_le _)
  | boolean values =>
    unfold applyOne
    dsimp only
    split
    · exact .check fun _ _ => .pure (Nat.zero_le _)
    · exact .pure (Nat.zero_le _)
  | datetime format =>
    unfold applyOne
    dsimp only
    split
    · exact .check fun _ _ => .pure (Nat.zero_le _)
    · exact .pure (Nat.zero_le _)
  | union ms =>
    unfold applyOne
    dsimp only
    split
    · refine .check fun nodes hnodes => ?_
      have hparts := Entry.holds_of_items hnodes
      have hall := pays_members hd owner nodes ms fun v hv =>
        Nat.le_trans (Nat.le_of_lt (hparts.height v hv)) hn
      have hsize := hparts.size
      exact .bind (hall.of_le (by omega)) fun _ => .pure (Nat.zero_le _)
    · exact .pure (Nat.zero_le _)
  | _ => exact .pure (Nat.zero_le _)

/-- Facets cost their values. -/
theorem pays_apply (facets : List (String × Node)) (hd : Affords declare d n)
    (hn : ∀ v ∈ facets.map (·.2), v.height ≤ n) (body : Body) :
    (apply declare path owner body facets).Pays d (facetsWeight facets) fun _ => 0 := by
  have from' : ∀ (facets : List (String × Node)) (body : Body) (left : Dict String Node),
      (∀ v ∈ facets.map (·.2), v.height ≤ n) →
      (applyFrom declare path owner body left facets).Pays d (facetsWeight facets) fun _ => 0 := by
    intro facets
    induction facets with
    | nil => exact fun _ _ _ => .pure (Nat.le_refl _)
    | cons entry rest ih =>
      intro body left hn
      rw [List.map_cons, List.forall_mem_cons] at hn
      refine .bind ((pays_applyOne hd hn.1 body).leaving (Nat.le_refl _)) fun o => ?_
      cases o with
      | none => exact ih body _ hn.2
      | some b => exact ih b left hn.2
  exact from' facets body [] hn

end Facets

/-! ## Examples -/

section
variable {d : Nat}

/-- Reading a file costs nothing by itself: its work is counted when it is opened. -/
theorem Load.Pays.readFile (purpose : Purpose) (p : Path) : (Load.readFile purpose p).IsFree d := by
  refine .bind (.change fun s => { Store.Settles.refl s with }) fun _ => .ask fun r => ?_
  cases r with
  | ok text => exact .pure (Nat.le_refl _)
  | error e => exact .fail _

/-- An example costs nothing. -/
theorem pays_loadExample (p : Path) : (loadExample p).IsFree d := by
  refine .ask fun r => ?_
  cases r with
  | some e => exact .pure (Nat.le_refl _)
  | none =>
    refine .bind (.readFile _ p) fun text => .check fun e _ => ?_
    exact .bind (.change fun s => { Store.Settles.refl s with }) fun _ => .pure (Nat.le_refl _)

/-- So does a named example, written or included. -/
theorem Example.pays_read (path : Path) (owner : String) (name : Option String) (node : Node) :
    (Example.read path owner name node).IsFree d := by
  unfold Example.read
  dsimp only
  split
  · split
    · exact .fail _
    · exact .ask fun p => .bind (pays_loadExample p) fun _ => .pure (Nat.le_refl _)
  · split
    · exact .check fun _ _ => .pure (Nat.le_refl _)
    · exact .pure (Nat.le_refl _)

end

end RamlTypes
