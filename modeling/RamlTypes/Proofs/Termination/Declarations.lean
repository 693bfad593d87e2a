import RamlTypes.Proofs.NormalForm
import RamlTypes.Proofs.Relation.Declaration
import RamlTypes.Proofs.Resolved
import RamlTypes.Proofs.Termination.Facets

/-!
# A declaration costs its node

The raw facets of a declaration and the declarations inside of it are parts of its node. So reading
it costs no more than the node weighs (`Declaration.pays_build`), and the recursion over the levels
of the node reaches its end.
-/

namespace RamlTypes

/-- The load leaves the work as it is. -/
abbrev Load.IsFreeAt {α : Type} (x : Load α) (s : Store) : Prop :=
  x.Finishes s fun _ t => s.Spends 0 t 0

/-- The files that a file refers to can be loaded where fewer than `d` files can be read. -/
abbrev Load.Descends (load : Path → Load Unit) (d : Nat) : Prop :=
  ∀ s : Store, s.settings.root.isAbsolute → s.unread.length < d →
    ∀ p : Path, p.IsNormal s.settings.root → (Load.unlessLoading p (load p)).IsFreeAt s

namespace Declaration

open Load (Pays IsFree Yields)

variable {c : Context} {d n : Nat} {name : String}

/-! ## Envelopes -/

/-- The declarations in a section of custom facets cost what their nodes weigh. -/
theorem pays_facetDefinitions (hd : Facets.Affords c.declare d n) (entries : List (String × Node)) :
    ∀ known, (∀ v ∈ entries.map (·.2), v.height ≤ n) →
    (facetDefinitions c known entries).Pays d (facetsWeight entries) fun _ => 0 := by
  induction entries with
  | nil => exact fun _ _ => .pure (Nat.le_refl _)
  | cons entry rest ih =>
    intro known hn
    rw [List.map_cons, List.forall_mem_cons] at hn
    refine .bind ((hd entry.1 entry.2 hn.1).leaving (Nat.le_refl _)) fun _ => ?_
    exact ih _ hn.2

/-- The entries of an examples section leave nothing to be done. -/
theorem pays_examples (owner : String) (entries : List (String × Node)) :
    ∀ known, (examples c owner known entries).IsFree d := by
  induction entries with
  | nil => exact fun _ => .pure (Nat.le_refl _)
  | cons entry rest ih =>
    exact fun known => .bind (Example.pays_read _ _ _ _) fun e => ih _

/-- What a type costs beside the shape that it declares. -/
def typeWeight (type : Option Node) : Nat :=
  type.elim 0 fun node => 2 * node.size - 2

/-- What it costs to complete a draft and to store its shape. -/
def Draft.weight (d : Draft) : Nat := 2 + facetsWeight d.raw + typeWeight d.type

/-- The raw facets of a draft have at most `n` levels, and its type one more. -/
structure Draft.Within (n : Nat) (d : Draft) : Prop where
  raw : ∀ v ∈ d.raw.map (·.2), v.height ≤ n
  type : ∀ node ∈ d.type, node.height ≤ n + 1

/-- The weight of raw facets is the sum over them. -/
theorem facetsWeight_append (facets more : List (String × Node)) :
    facetsWeight (facets ++ more) = facetsWeight facets + facetsWeight more :=
  totalWeight_append _ _ _

/-- One entry costs its value: either it is read, or it is kept as a type or a raw facet. -/
theorem pays_addKnown (hd : Facets.Affords c.declare d n) (e : Draft) (key : String) {value : Node}
    (hn : value.height ≤ n) :
    (addKnown c name e key value).Pays d (e.weight + 2 * value.size) Draft.weight := by
  have hle : e.weight ≤ e.weight + 2 * value.size := Nat.le_add_right _ _
  have htype : (Draft.mk e.shape e.raw value).weight ≤ e.weight + 2 * value.size := by
    rw [Draft.weight, Draft.weight, typeWeight, Option.elim_some]
    dsimp only
    omega
  have hraw (key : String) : (Draft.mk e.shape (e.raw ++ [(key, value)]) e.type).weight ≤
      e.weight + 2 * value.size := by
    rw [Draft.weight, Draft.weight, facetsWeight_append, facetsWeight_cons]
    have hnil : facetsWeight [] = 0 := rfl
    dsimp only
    omega
  unfold addKnown
  dsimp only
  split
  case h_1 | h_2 => exact .pure htype
  case h_6 | h_10 => exact .pure hle
  case h_7 =>
    refine .check fun entries he => ?_
    have hparts := (Entry.hasEntries_of_named he).holds
    have hall := pays_facetDefinitions hd entries e.shape.facetDefinitions fun v hv =>
      Nat.le_trans (Nat.le_of_lt (hparts.height v hv)) hn
    have hsize := hparts.size
    rw [← facetsWeight_eq] at hsize
    exact .bind (hall.leaving (n := e.weight) (by omega)) fun _ => .pure (Nat.le_refl _)
  case h_8 =>
    refine .bind ((Example.pays_read _ _ _ _).leaving (n := e.weight) ?_) fun _ =>
      .pure (Nat.le_refl _)
    rwa [Nat.zero_add]
  case h_9 =>
    refine .check fun entries _ => .bind ((pays_examples _ _ _).leaving (n := e.weight) ?_) fun _ =>
      .pure (Nat.le_refl _)
    rwa [Nat.zero_add]
  case h_11 => exact .pure (hraw _)
  all_goals exact .check fun _ _ => .pure hle

/-- One entry of a low node keeps the draft low. -/
theorem addKnown_within {e : Draft} (he : e.Within n) (key : String) {value : Node}
    (hn : value.height ≤ n) : (addKnown c name e key value).Yields (Draft.Within n) := by
  have htype (shape : Shape) : (Draft.mk shape e.raw value).Within n :=
    ⟨he.raw, fun node hnode => by cases hnode; exact Nat.le_succ_of_le hn⟩
  have hraw (key : String) : (Draft.mk e.shape (e.raw ++ [(key, value)]) e.type).Within n := by
    refine ⟨fun v hv => ?_, he.type⟩
    rw [List.map_append, List.mem_append] at hv
    rcases hv with hv | hv
    · exact he.raw v hv
    · cases List.mem_singleton.1 hv
      exact hn
  have hsame (shape : Shape) : (Draft.mk shape e.raw e.type).Within n := ⟨he.raw, he.type⟩
  unfold addKnown
  dsimp only
  split
  case h_1 | h_2 => exact .pure (htype _)
  case h_6 | h_10 => exact .pure (hsame _)
  case h_7 | h_9 => exact .next fun _ => .next fun _ => .pure (hsame _)
  case h_11 => exact .pure (hraw _)
  all_goals exact .next fun _ => .pure (hsame _)

/-- The entries of a declaration cost their values. -/
theorem pays_addEntries (hd : Facets.Affords c.declare d n) (pairs : List (Node × Node)) :
    ∀ e : Draft, (∀ v ∈ pairs.map (·.2), v.height ≤ n) →
    (addEntries c name e pairs).Pays d (e.weight + nodesWeight (pairs.map (·.2))) Draft.weight := by
  induction pairs with
  | nil => exact fun e _ => .pure (Nat.le_refl _)
  | cons pair rest ih =>
    intro e hn
    rw [List.map_cons, List.forall_mem_cons] at hn
    rw [List.map_cons, nodesWeight_cons, ← Nat.add_assoc]
    refine .check fun key _ => ?_
    split
    · refine .check fun a _ => (ih _ hn.2).of_le ?_
      exact Nat.add_le_add_right (Nat.le_add_right e.weight _) _
    · exact .bind ((pays_addKnown hd e key hn.1).add _) fun e' => ih e' hn.2

/-- So do all entries of the node. -/
theorem addEntries_within (pairs : List (Node × Node)) : ∀ {e : Draft}, e.Within n →
    (∀ v ∈ pairs.map (·.2), v.height ≤ n) →
    (addEntries c name e pairs).Yields (Draft.Within n) := by
  induction pairs with
  | nil => exact fun he _ => .pure he
  | cons pair rest ih =>
    intro e he hn
    rw [List.map_cons, List.forall_mem_cons] at hn
    unfold addEntries
    refine .next fun key => ?_
    split
    · exact .next fun a => ih ⟨he.raw, he.type⟩ hn.2
    · exact .bind (addKnown_within he key hn.1) fun e' he' => ih he' hn.2

section
variable {node : Node}

/-- A draft weighs no more than the node that it has been read from. -/
theorem pays_draft (hd : Facets.Affords c.declare d n) (hn : node.height ≤ n + 1) :
    (draft c name node).Pays d (2 * node.size) Draft.weight := by
  unfold draft
  dsimp only
  split
  · next pairs hp =>
    have hparts := Node.holds_pairs hp
    have hstart : (Draft.mk (Shape.plain name c.path node.mark .any) [] none).weight = 2 := rfl
    refine (pays_addEntries hd pairs _ fun v hv => ?_).of_le ?_
    · exact Nat.le_of_lt_succ (Nat.lt_of_lt_of_le (hparts.height v hv) hn)
    · rw [hstart, Nat.add_comm]
      exact hparts.size
  · refine .pure ?_
    have hsize := node.one_le_size
    rw [Draft.weight, typeWeight, Option.elim_some]
    have hnil : facetsWeight [] = 0 := rfl
    dsimp only
    omega

/-- The nodes of a draft are lower than the node that it has been read from. -/
theorem draft_within (hn : node.height ≤ n + 1) : (draft c name node).Yields (Draft.Within n) := by
  unfold draft
  dsimp only
  split
  · next pairs hp =>
    have hparts := Node.holds_pairs hp
    refine addEntries_within pairs ⟨List.forall_mem_nil _, nofun⟩ fun v hv => ?_
    exact Nat.le_of_lt_succ (Nat.lt_of_lt_of_le (hparts.height v hv) hn)
  · refine .pure ⟨List.forall_mem_nil _, fun m hm => ?_⟩
    cases hm
    exact hn

end

/-! ## Types -/

/-- Parents that are written as declarations cost what their nodes weigh. -/
theorem pays_parents (hd : Facets.Affords c.declare d n) (items : List Node) :
    (∀ v ∈ items, v.height ≤ n) → (parents c items).Pays d (nodesWeight items) fun _ => 0 := by
  induction items with
  | nil => exact fun _ => .pure (Nat.le_refl _)
  | cons item rest ih =>
    intro hn
    rw [List.forall_mem_cons] at hn
    unfold parents
    split
    · refine .bind ((hd _ item hn.1).leaving (Nat.le_refl _)) fun id => ?_
      exact .bind (ih hn.2) fun _ => .pure (Nat.le_refl _)
    · exact .fail _

/-- A plan that applies facets at once does so to a body with a kind of its own. -/
structure Plan.IsSound (plan : Plan) : Prop where
  concrete {body : Body} : plan = .concrete body → body.kind ≠ .unknown

/-- A type that is given by a text is planned soundly. -/
theorem planText_isSound (raw trimmed : String) : (planText raw trimmed).IsSound := by
  rcases planText_cases raw trimmed with ⟨-, h⟩ | ⟨k, -, body, -, hk, h⟩ | ⟨-, -, h⟩
  all_goals rw [h]
  · exact ⟨nofun⟩
  · constructor
    rintro _ ⟨⟩
    rw [Body.empty_kind hk]
    rintro rfl
    cases hk
  · exact ⟨nofun⟩

/-- Planning a type that is written costs its node, less the node itself. -/
theorem pays_classify (hd : Facets.Affords c.declare d n) (hl : Load.Descends c.loadType d)
    (shape : Shape) {type : Node} (hn : type.height ≤ n + 1) :
    (classify c shape type).Pays d (2 * type.size - 2) fun _ => 0 := by
  unfold classify
  cases type with
  | scalar text scalarType mark isInclude =>
    dsimp only
    split
    · intro s hroot hs
      refine .ask ((hl s hroot hs _ (Path.follow_isNormal hroot _ _)).bind fun _ t ht => .pure ?_)
      exact ht
    · split
      · split
        · exact .pure (Nat.zero_le _)
        · exact .pure (Nat.zero_le _)
      · exact .fail _
  | sequence items mark isInclude =>
    dsimp only
    split
    · exact .fail _
    · have hparts : (Node.sequence items mark isInclude).Holds items := Node.holds_items rfl
      have hall := pays_parents hd items fun v hv =>
        Nat.le_of_lt_succ (Nat.lt_of_lt_of_le (hparts.height v hv) hn)
      have hsize := hparts.size
      exact .bind (hall.of_le (by omega)) fun _ => .pure (Nat.le_refl _)
  | mapping pairs mark isInclude => exact .fail _

/-- Whatever the written type is, the plan for it is sound. -/
theorem classify_isSound (shape : Shape) (type : Node) :
    (classify c shape type).Yields fun r => r.2.IsSound := by
  have hpure (a : Shape) {p : Plan} (hp : p.IsSound) :
      Yields (pure (a, p)) fun r => r.2.IsSound := .pure hp
  unfold classify
  cases type with
  | scalar text scalarType mark isInclude =>
    dsimp only
    split
    · exact .next fun _ => .next fun _ => .pure ⟨nofun⟩
    · split
      · split
        · exact .pure ⟨nofun⟩
        · exact hpure _ (planText_isSound text (Text.trim text))
      · exact .fail _
  | sequence items mark isInclude =>
    dsimp only
    split
    · exact .fail _
    · exact .next fun _ => .pure ⟨nofun⟩
  | mapping pairs mark isInclude => exact .fail _

/-- So for the type of a declaration, if there is one. -/
theorem pays_plan (hd : Facets.Affords c.declare d n) (hl : Load.Descends c.loadType d)
    (shape : Shape) {type : Option Node} (hn : ∀ node ∈ type, node.height ≤ n + 1) :
    (plan c shape type).Pays d (typeWeight type) fun _ => 0 := by
  cases type with
  | none => exact .pure (Nat.le_refl _)
  | some type => exact pays_classify hd hl shape (hn type rfl)

/-- A declaration without a type is planned soundly as well. -/
theorem plan_isSound (shape : Shape) (type : Option Node) :
    (plan c shape type).Yields fun r => r.2.IsSound := by
  cases type with
  | none => exact .pure ⟨nofun⟩
  | some type => exact classify_isSound shape type

/-! ## Declarations -/

/-- A shape with a body of a known kind costs the raw facets that are applied to it. -/
theorem pays_withFacets (hd : Facets.Affords c.declare d n) (shape : Shape) {body : Body}
    (hk : body.kind ≠ .unknown) {raw : List (String × Node)}
    (hn : ∀ v ∈ raw.map (·.2), v.height ≤ n) :
    (withFacets c name shape body raw).Pays d (facetsWeight raw) Shape.price := by
  refine (Facets.pays_apply raw hd hn body).bind_yields (Facets.apply_kind _ _ _ body raw) ?_
  intro r hr
  refine .pure (Nat.le_of_eq (Shape.price_of_not_isUnknown (Shape.isUnknown_eq_false_iff.2 ?_)))
  exact fun hu => hk (hr ▸ hu)

/-- Completing a shape leaves what storing it costs. -/
theorem pays_complete (hd : Facets.Affords c.declare d n) (shape : Shape)
    {raw : List (String × Node)} (hn : ∀ v ∈ raw.map (·.2), v.height ≤ n) {plan : Plan}
    (hp : plan.IsSound) :
    (complete c name shape raw plan).Pays d (2 + facetsWeight raw) Shape.price := by
  cases plan with
  | sniff =>
    exact (pays_withFacets hd shape (Body.emptyD_kind _) hn).of_le (Nat.le_add_left _ _)
  | concrete body =>
    exact (pays_withFacets hd shape (hp.concrete rfl) hn).of_le (Nat.le_add_left _ _)
  | json schema => exact .pure (Nat.zero_le _)
  | pending declared =>
    refine .pure ?_
    rw [Shape.price, Shape.weight_of_pending rfl]
    exact Nat.le_of_eq (Nat.add_assoc _ _ _).symm

/-- One level of a declaration costs its node, if the levels below cost theirs. -/
theorem pays_decode (hd : Facets.Affords c.declare d n) (hl : Load.Descends c.loadType d)
    {node : Node} (hn : node.height ≤ n + 1) :
    (decode c name node).Pays d (2 * node.size) fun _ => 0 := by
  refine (pays_draft hd hn).bind_yields (draft_within hn) fun e he => ?_
  have hplan : (plan c e.shape e.type).Pays d e.weight fun _ => 2 + facetsWeight e.raw :=
    (pays_plan hd hl e.shape he.type).leaving (Nat.le_of_eq (Nat.add_comm _ _))
  refine hplan.bind_yields (plan_isSound _ _) fun r hr => ?_
  exact .bind (pays_complete hd r.1 he.raw hr) fun shape => .addShape shape

/-- By induction on the levels, a declaration that is no higher costs its node. -/
theorem pays_buildLevels {loadType : Path → Load Unit} (hl : Load.Descends loadType d) (path : Path)
    (n : Nat) : ∀ name node, node.height ≤ n →
    (buildLevels loadType path n name node).Pays d (2 * node.size) fun _ => 0 := by
  induction n with
  | zero =>
    intro _ node hn
    have hpos : 0 < node.height := node.height_pos
    omega
  | succ n ih =>
    intro name node hn
    exact (pays_decode (c := ⟨path, loadType, buildLevels loadType path n⟩) ih hl hn).mapFault _

/-- Reading a declaration costs its node. -/
theorem pays_build {loadType : Path → Load Unit} (hl : Load.Descends loadType d) (path : Path)
    (name : String) (node : Node) :
    (build loadType path name node).Pays d (2 * node.size) fun _ => 0 :=
  pays_buildLevels hl path node.height name node (Nat.le_refl _)

end Declaration

end RamlTypes
