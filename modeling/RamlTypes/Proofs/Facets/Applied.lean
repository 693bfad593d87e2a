import RamlTypes.Proofs.Facets.Basic

/-!
# Applying facets does what it means

One facet is applied as `Facets.Applied` says (`applyOne_gives`), and what is applied in two parts is
applied as a whole (`Applied.trans`), so a list of facets is applied as it says too.
-/

namespace RamlTypes

/-- The load, started in `s`, stops, or it ends with a result and a store with the property `P`. -/
abbrev Load.Gives {α : Type} (x : Load α) (s : Store) (P : α → Store → Prop) : Prop :=
  x.EndsIn s P fun _ => True

namespace Facets

variable {declare : Declare} {path : Path} {owner : String} {s m t : Store}

/-! ## Shapes that are stored meanwhile -/

section
variable {change : Shape → Shape} {name key : String} {node value : Node} {i : ShapeId}
  {v : FacetValue} {entry : String × Node} {property : String × ShapeId}

/-- A run of the builder that ends stores the declaration. -/
theorem Stored.of_run (hd : Stores declare) (h : declare name node s = (.ok i, t)) :
    Stored declare id s t name node i := by
  obtain ⟨hle, hlt⟩ := hd.fresh h
  have hi := Array.getElem?_eq_getElem hlt
  exact ⟨hle, s, t, _, .refl s, h, hi, .refl t, hi⟩

/-- A shape that was stored later. -/
theorem Stored.later (hs : s.Extends m) (h : Stored declare change m t name node i) :
    Stored declare change s t name node i := by
  obtain ⟨hle, u, u', a, hu, hrun, ha, hgrows, hat⟩ := h
  exact ⟨Nat.le_trans hs.grows.size_le hle, u, u', a, hs.trans hu, hrun, ha, hgrows, hat⟩

/-- A shape that was stored before stays as it is. -/
theorem Stored.stays (h : Stored declare change s m name node i) (ht : m.Extends t) :
    Stored declare change s t name node i := by
  obtain ⟨hle, u, u', a, hu, hrun, ha, hgrows, ham⟩ := h
  have hi := (Array.getElem?_eq_some_iff.1 ham).1
  exact ⟨hle, u, u', a, hu, hrun, ha, hgrows.trans ht.grows, (ht.kept i hi).trans ham⟩

/-- The facet may be read in a store that comes later. -/
theorem Reads.later (hs : s.Extends m) (h : Reads declare owner m t key value v) :
    Reads declare owner s t key value v := by
  cases h with
  | count hkey h => exact .count hkey h
  | flag hkey h => exact .flag hkey h
  | double hkey h => exact .double hkey h
  | text hkey h => exact .text hkey h
  | texts h => exact .texts h
  | node => exact .node _
  | nodes h => exact .nodes h
  | shape h => exact .shape (h.later hs)

/-- What has been read stays in later stores. -/
theorem Reads.stays (h : Reads declare owner s m key value v) (ht : m.Extends t) :
    Reads declare owner s t key value v := by
  cases h with
  | count hkey h => exact .count hkey h
  | flag hkey h => exact .flag hkey h
  | double hkey h => exact .double hkey h
  | text hkey h => exact .text hkey h
  | texts h => exact .texts h
  | node => exact .node _
  | nodes h => exact .nodes h
  | shape h => exact .shape (h.stays ht)

/-- A property may be declared in a store that comes later. -/
theorem Declares.later (hs : s.Extends m) (h : Declares declare m t entry property) :
    Declares declare s t entry property :=
  h.imp (And.imp_right (.later hs)) fun ⟨hmark, hname, hstored⟩ => ⟨hmark, hname, hstored.later hs⟩

/-- A declared property stays in later stores. -/
theorem Declares.stays (h : Declares declare s m entry property) (ht : m.Extends t) :
    Declares declare s t entry property :=
  h.imp (And.imp_right (·.stays ht)) fun ⟨hmark, hname, hstored⟩ => ⟨hmark, hname, hstored.stays ht⟩

end

/-! ## Facets in two parts -/

namespace Applied

variable {start mid result : Body × Dict String Node} {facets more : List (String × Node)}

/-- Without any facet a body stays as it is. -/
theorem of_none (hst : s.Extends t) (start : Body × Dict String Node) :
    Applied declare owner s start [] start t where
  extended := hst
  kind := rfl
  single _ _ _ hv := by cases hv
  unchanged _ _ := rfl
  properties _ := ⟨[], [], .nil, .nil, .refl _⟩
  members _ := ⟨[], [], .nil, .nil, (List.append_nil _).symm⟩
  same _ := rfl
  left := .refl _

/-- What is applied in two parts is applied as a whole. -/
theorem trans (h : Applied declare owner s start facets mid m)
    (h' : Applied declare owner m mid more result t) :
    Applied declare owner s start (facets ++ more) result t where
  extended := h.extended.trans h'.extended
  kind := h'.kind.trans h.kind
  single key hkey value hvalue := by
    rw [Dict.valuesOf_append, List.getLast?_append] at hvalue
    have hkey' : key ∈ mid.1.kind.singleFacets := h.kind ▸ hkey
    -- The last occurrence is a later one, or else the last of the earlier ones.
    rcases hlast : (Dict.valuesOf key more).getLast? with _ | last
    · rw [hlast, Option.none_or] at hvalue
      obtain ⟨v, hread, hv⟩ := h.single key hkey value hvalue
      have hnone : Dict.valuesOf key more = [] := List.getLast?_eq_none_iff.1 hlast
      exact ⟨v, hread.stays h'.extended, (h'.unchanged key fun _ => hnone).trans hv⟩
    · rw [hlast] at hvalue
      obtain ⟨v, hread, hv⟩ := h'.single key hkey' value (hlast.trans hvalue)
      exact ⟨v, hread.later h.extended, hv⟩
  unchanged key hkey := by
    rw [Dict.valuesOf_append] at hkey
    have hfirst := h.unchanged key fun hk => (List.append_eq_nil_iff.1 (hkey hk)).1
    refine (h'.unchanged key fun hk => ?_).trans hfirst
    exact (List.append_eq_nil_iff.1 (hkey (h.kind ▸ hk))).2
  properties hkind := by
    obtain ⟨sections, declared, hs, hd, hm⟩ := h.properties hkind
    obtain ⟨sections', declared', hs', hd', hm'⟩ := h'.properties (h.kind.trans hkind)
    refine ⟨sections ++ sections', declared ++ declared', ?_, ?_, hm.trans hm'⟩
    · rw [Dict.valuesOf_append]
      exact List.rel_append hs hs'
    · rw [List.flatten_append]
      exact List.rel_append (hd.imp fun _ _ hp => hp.stays h'.extended)
        (hd'.imp fun _ _ hp => hp.later h.extended)
  members hkind := by
    obtain ⟨lists, ids, hs, hd, hm⟩ := h.members hkind
    obtain ⟨lists', ids', hs', hd', hm'⟩ := h'.members (h.kind.trans hkind)
    refine ⟨lists ++ lists', ids ++ ids', ?_, ?_, by rw [hm', hm, List.append_assoc]⟩
    · rw [Dict.valuesOf_append]
      exact List.rel_append hs hs'
    · rw [List.flatten_append]
      exact List.rel_append (hd.imp fun _ _ hp => hp.stays h'.extended)
        (hd'.imp fun _ _ hp => hp.later h.extended)
  same hkind := (h'.same (h.kind ▸ hkind)).trans (h.same hkind)
  left := by
    have hleft := h'.left
    rw [h.kind] at hleft
    rw [List.filter_append]
    exact h.left.trans hleft

end Applied

/-! ## One facet -/

/-- The body and the left-over facets after one facet: the kind owns it, and there is a new body, or it
is left over. -/
def afterOne (start : Body × Dict String Node) (key : String) (value : Node) :
    Option Body → Body × Dict String Node
  | some b => (b, start.2)
  | none => (start.1, Dict.put key value start.2)

/-- One facet is applied. -/
abbrev AppliedOne (declare : Declare) (owner : String) (s : Store) (start : Body × Dict String Node)
    (key : String) (value : Node) (o : Option Body) (t : Store) : Prop :=
  Applied declare owner s start [(key, value)] (afterOne start key value o) t

namespace AppliedOne

variable {body b : Body} {left : Dict String Node} {key : String} {value : Node} {k : Kind}

/-- A facet that the kind does not own is left over. -/
theorem unowned (h : key ∉ body.kind.ownFacets) :
    AppliedOne declare owner s (body, left) key value none s where
  extended := .refl s
  kind := rfl
  single other hother last hlast := by
    have hne : key ≠ other := fun he => h (he ▸ Kind.mem_ownFacets_of_single hother)
    rw [Dict.valuesOf_singleton_of_ne hne] at hlast
    cases hlast
  unchanged _ _ := rfl
  properties hkind := by
    have hown : "properties" ∈ body.kind.ownFacets := hkind ▸ by decide
    have hne : key ≠ "properties" := fun he => h (he ▸ hown)
    refine ⟨[], [], ?_, .nil, .refl _⟩
    rw [Dict.valuesOf_singleton_of_ne hne]
    exact .nil
  members hkind := by
    have hown : "anyOf" ∈ body.kind.ownFacets := hkind ▸ by decide
    have hne : key ≠ "anyOf" := fun he => h (he ▸ hown)
    refine ⟨[], [], ?_, .nil, (List.append_nil _).symm⟩
    rw [Dict.valuesOf_singleton_of_ne hne]
    exact .nil
  same _ := rfl
  left := by
    rw [List.filter_cons_of_pos (by simpa using h)]
    exact .put key value left

/-- A facet with one value is given the value `v`. -/
theorem single (hbody : body.kind = k) (hkey : key ∈ k.singleFacets) (hkind : b.kind = k)
    {v : FacetValue} (hread : Reads declare owner s t key value v) (hst : s.Extends t)
    (hv : ∀ other, b.single? other = if other = key then some v else body.single? other)
    (hproperties : b.properties = body.properties) (hmembers : b.members = body.members) :
    AppliedOne declare owner s (body, left) key value (some b) t where
  extended := hst
  kind := hkind.trans hbody.symm
  single other hother last hlast := by
    rw [Dict.valuesOf_singleton] at hlast
    split at hlast
    · next heq =>
      subst heq
      cases hlast
      exact ⟨v, hread, (hv key).trans (if_pos rfl)⟩
    · cases hlast
  unchanged other hother := by
    refine (hv other).trans (if_neg ?_)
    rintro rfl
    have hnone := hother (hbody ▸ hkey)
    rw [Dict.valuesOf_singleton, if_pos rfl] at hnone
    cases hnone
  properties _ := by
    have hne : key ≠ "properties" := fun he => k.properties_not_single (he ▸ hkey)
    refine ⟨[], [], ?_, .nil, ?_⟩
    · rw [Dict.valuesOf_singleton_of_ne hne]
      exact .nil
    · show Dict.Merges body.properties [] b.properties
      rw [hproperties]
      exact .refl _
  members _ := by
    have hne : key ≠ "anyOf" := fun he => k.anyOf_not_single (he ▸ hkey)
    refine ⟨[], [], ?_, .nil, hmembers.trans (List.append_nil _).symm⟩
    rw [Dict.valuesOf_singleton_of_ne hne]
    exact .nil
  same hnone := by
    have hown := Kind.mem_ownFacets_of_single hkey
    rw [← hbody, hnone] at hown
    cases hown
  left := by
    have hown : key ∈ body.kind.ownFacets := hbody ▸ Kind.mem_ownFacets_of_single hkey
    rw [List.filter_cons_of_neg (by simpa using hown)]
    exact .refl _

end AppliedOne

/-! ## The facets of each kind -/

section
variable {key : String} {value : Node} (left : Dict String Node)

/-- A pattern is the text of its node. -/
theorem pattern_gives : (pattern path owner value).Gives s fun text t =>
    value.HasText text ∧ s.Extends t := by
  refine .check trivial fun text htext => ?_
  refine .bind (P := fun _ t => s.Extends t) ?_ fun _ t ht =>
    .pure ⟨Entry.hasText_of_text htext, ht⟩
  unfold checkPattern
  split
  · exact .of_run_ok rfl ⟨s.grows_report _, fun _ _ => rfl⟩
  · exact .pure (.refl s)

/-- One facet of a string. -/
theorem string_gives (f : StringFacets) :
    (string path owner f key value).Gives s
      (AppliedOne declare owner s (.string f, left) key value) := by
  unfold string
  split
  case h_3 =>
    refine pattern_gives.bind fun text t ht => .pure ?_
    refine .single (k := .string) rfl (by decide) rfl (.text (by decide) ht.1) ht.2
      (fun _ => ?_) rfl rfl
    simp only [Body.single?, StringFacets.single?]
    split <;> simp_all
  case h_4 =>
    refine .check trivial fun nodes h => .pure ?_
    refine .single (k := .string) rfl (by decide) rfl (.nodes (Entry.hasItems_of_items h))
      (.refl s) (fun _ => ?_) rfl rfl
    simp only [Body.single?, StringFacets.single?]
    split <;> simp_all
  case h_5 =>
    refine .pure (.unowned ?_)
    simp_all [Body.kind, Kind.ownFacets, Kind.singleFacets, Kind.addedFacets]
  all_goals
    refine .check trivial fun n h => .pure ?_
    have hcount := Entry.hasCount_of_unsigned h
    refine .single (k := .string) rfl (by decide) rfl (.count (by decide) hcount) (.refl s)
      (fun _ => ?_) rfl rfl
    simp only [Body.single?, StringFacets.single?]
    split <;> simp_all

/-- A number either does not own a facet, or takes its value. -/
theorem number_cases (declare : Declare) (owner : String) (s : Store) {isInteger : Bool}
    {f : NumberFacets} {o : Option NumberFacets} (h : number path isInteger f key value = .ok o) :
    let k := if isInteger then Kind.integer else Kind.number
    (o = none ∧ key ∉ k.ownFacets) ∨
    ∃ g v, o = some g ∧ key ∈ k.singleFacets ∧ Reads declare owner s s key value v ∧
      ∀ other, g.single? other = if other = key then some v else f.single? other := by
  unfold number at h
  split at h
  case h_3 =>
    split at h
    · next hint =>
      cases h
      subst hint
      exact .inl ⟨rfl, by decide⟩
    · next hint =>
      obtain ⟨x, hx, h⟩ := exists_ok_of_bind h
      cases h
      refine .inr ⟨_, _, rfl, ?_, .double (by decide) (Entry.expect_eq_ok.1 hx), fun _ => ?_⟩
      · simp [hint, Kind.singleFacets]
      · simp only [NumberFacets.single?]
        split <;> simp_all
  case h_6 =>
    cases h
    refine .inl ⟨rfl, ?_⟩
    cases isInteger <;> simp_all [Kind.ownFacets, Kind.singleFacets, Kind.addedFacets]
  case h_4 =>
    obtain ⟨x, hx, h⟩ := exists_ok_of_bind h
    cases h
    refine .inr ⟨_, _, rfl, ?_, .text (by decide) (Entry.hasText_of_text hx), fun _ => ?_⟩
    · cases isInteger <;> decide
    · simp only [NumberFacets.single?]
      split <;> simp_all
  case h_5 =>
    obtain ⟨x, hx, h⟩ := exists_ok_of_bind h
    cases h
    refine .inr ⟨_, _, rfl, ?_, .nodes (Entry.hasItems_of_items hx), fun _ => ?_⟩
    · cases isInteger <;> decide
    · simp only [NumberFacets.single?]
      split <;> simp_all
  all_goals
    obtain ⟨x, hx, h⟩ := exists_ok_of_bind h
    cases h
    refine .inr ⟨_, _, rfl, ?_, .double (by decide) (Entry.expect_eq_ok.1 hx), fun _ => ?_⟩
    · cases isInteger <;> decide
    · simp only [NumberFacets.single?]
      split <;> simp_all

/-- One facet of a number or an integer, which share their reader. -/
theorem number_gives {isInteger : Bool} {f : NumberFacets} {body : NumberFacets → Body} {k : Kind}
    (hk : k = if isInteger then .integer else .number) (hbody : ∀ f, (body f).kind = k)
    (hsingle : ∀ f other, (body f).single? other = f.single? other)
    (hproperties : ∀ f, (body f).properties = []) (hmembers : ∀ f, (body f).members = []) :
    (Load.ofExcept (number path isInteger f key value) >>= fun o => Pure.pure (o.map body)).Gives s
      (AppliedOne declare owner s (body f, left) key value) := by
  refine .check trivial fun o ho => .pure ?_
  have hcases := number_cases declare owner s ho
  rw [← hk] at hcases
  rcases hcases with ⟨rfl, hown⟩ | ⟨g, v, rfl, hkey, hread, hv⟩
  · exact .unowned (hbody f ▸ hown)
  · refine .single (hbody f) hkey (hbody g) hread (.refl s) (fun other => ?_)
      ((hproperties g).trans (hproperties f).symm) ((hmembers g).trans (hmembers f).symm)
    rw [hsingle, hsingle, hv]

/-- A file either does not own a facet, or takes its value. -/
theorem file_gives (f : FileFacets) :
    (Load.ofExcept (file path f key value) >>= fun o => Pure.pure (o.map Body.file)).Gives s
      (AppliedOne declare owner s (.file f, left) key value) := by
  refine .check trivial fun o h => .pure ?_
  unfold file at h
  split at h
  case h_3 =>
    obtain ⟨x, hx, h⟩ := exists_ok_of_bind h
    cases h
    refine .single (k := .file) rfl (by decide) rfl (.texts (Entry.hasTexts_of_texts hx))
      (.refl s) (fun _ => ?_) rfl rfl
    simp only [Body.single?, FileFacets.single?]
    split <;> simp_all
  case h_4 =>
    cases h
    refine .unowned ?_
    simp_all [Body.kind, Kind.ownFacets, Kind.singleFacets, Kind.addedFacets]
  all_goals
    obtain ⟨x, hx, h⟩ := exists_ok_of_bind h
    cases h
    refine .single (k := .file) rfl (by decide) rfl (.count (by decide) (Entry.hasCount_of_unsigned hx))
      (.refl s) (fun _ => ?_) rfl rfl
    simp only [Body.single?, FileFacets.single?]
    split <;> simp_all

section
variable (hd : Stores declare)
include hd

/-- The builder stores what it is given. -/
theorem Stores.gives (name : String) (node : Node) :
    (declare name node).Gives s fun i t => s.Extends t ∧ Stored declare id s t name node i where
  of_ok h := ⟨hd.extended h, .of_run hd h⟩
  of_error _ := trivial

/-- One facet of an array. -/
theorem array_gives (f : ArrayFacets) :
    (array declare path owner f key value).Gives s
      (AppliedOne declare owner s (.array f, left) key value) := by
  unfold array
  split
  case h_1 =>
    refine (hd.gives owner value).bind fun i t ⟨hst, hi⟩ => .pure ?_
    refine .single (k := .array) rfl (by decide) rfl (.shape hi) hst (fun _ => ?_) rfl rfl
    simp only [Body.single?, ArrayFacets.single?]
    split <;> simp_all
  case h_4 =>
    refine .check trivial fun n h => .pure ?_
    refine .single (k := .array) rfl (by decide) rfl (.flag (by decide) (Entry.hasFlag_of_boolean h))
      (.refl s) (fun _ => ?_) rfl rfl
    simp only [Body.single?, ArrayFacets.single?]
    split <;> simp_all
  case h_5 =>
    refine .pure (.unowned ?_)
    simp_all [Body.kind, Kind.ownFacets, Kind.singleFacets, Kind.addedFacets]
  all_goals
    refine .check trivial fun n h => .pure ?_
    refine .single (k := .array) rfl (by decide) rfl (.count (by decide) (Entry.hasCount_of_unsigned h))
      (.refl s) (fun _ => ?_) rfl rfl
    simp only [Body.single?, ArrayFacets.single?]
    split <;> simp_all

/-- A property is declared under its name without the mark of an optional one. -/
theorem property_gives (entry : String × Node) {name : String} {optional : Bool}
    (hname : propertyName entry.1 = (name, optional)) :
    (property declare name optional entry.2).Gives s fun i t =>
      s.Extends t ∧ Declares declare s t entry (name, i) := by
  refine (hd.gives name entry.2).bind fun i m ⟨hsm, hi⟩ => ?_
  rcases propertyName_cases entry.1 with ⟨_, hkey, hp⟩ | ⟨hkey, hp⟩
  · cases hname.symm.trans hp
    obtain ⟨hle, u, u', a, hu, hrun, ha, hgrows, ham⟩ := hi
    have hmark : m.Grows (m.mapShape i Shape.optional) :=
      m.grows_mapShape i _ (fun _ => ⟨rfl, List.prefix_rfl⟩) fun _ => .inl ⟨rfl, rfl, rfl⟩
    refine .change (.pure ⟨hsm.mapShape hle hmark, .inl ⟨hkey, ?_⟩⟩)
    refine ⟨hle, u, u', a, hu, hrun, ha, hgrows.trans hmark, ?_⟩
    rw [Store.getElem?_mapShape, if_pos rfl, ham]
    exact congrArg some (Shape.optional_eq a)
  · cases hname.symm.trans hp
    exact .pure ⟨hsm, .inr ⟨hkey, rfl, hi⟩⟩

/-- The properties of a section are merged with those that there were. -/
theorem properties_gives (entries : List (String × Node)) : ∀ (s : Store)
    (known : Dict String ShapeId), (properties declare known entries).Gives s fun new t =>
      s.Extends t ∧ ∃ declared, List.Forall₂ (Declares declare s t) entries declared ∧
        Dict.Merges known declared new := by
  induction entries with
  | nil => exact fun s known => .pure ⟨.refl s, [], .nil, .refl _⟩
  | cons entry rest ih =>
    intro s known
    refine (property_gives hd entry rfl).bind fun i m ⟨hsm, hp⟩ => ?_
    refine (ih m _).imp ?_ fun _ h => h
    rintro new t ⟨hmt, declared, hdeclared, hmerges⟩
    refine ⟨hsm.trans hmt, ((propertyName entry.1).1, i) :: declared, ?_,
      (Dict.Merges.put _ i known).trans hmerges⟩
    exact .cons (hp.stays hmt) (hdeclared.imp fun _ _ h => h.later hsm)

/-- The members of a list follow those that there were. -/
theorem members_gives (nodes : List Node) : ∀ (s : Store) (known : List ShapeId),
    (members declare owner known nodes).Gives s fun new t =>
      s.Extends t ∧ ∃ ids, List.Forall₂ (Stored declare id s t owner) nodes ids ∧
        new = known ++ ids := by
  induction nodes with
  | nil => exact fun s known => .pure ⟨.refl s, [], .nil, (List.append_nil _).symm⟩
  | cons node rest ih =>
    intro s known
    refine (hd.gives owner node).bind fun i m ⟨hsm, hi⟩ => ?_
    refine (ih m _).imp ?_ fun _ h => h
    rintro new t ⟨hmt, ids, hids, rfl⟩
    refine ⟨hsm.trans hmt, i :: ids, ?_, List.append_assoc ..⟩
    exact .cons (hi.stays hmt) (hids.imp fun _ _ h => h.later hsm)

/-- One facet of an object. -/
theorem object_gives (f : ObjectFacets) :
    (object declare path f key value).Gives s
      (AppliedOne declare owner s (.object f, left) key value) := by
  unfold object
  split
  case h_1 =>
    refine .check trivial fun entries hentries => ?_
    refine (properties_gives hd entries s f.properties).bind fun new t h => .pure ?_
    obtain ⟨hst, declared, hdeclared, hmerges⟩ := h
    exact
    { extended := hst
      kind := rfl
      single := fun other hother last hlast => by
        have hne : "properties" ≠ other := fun he => Kind.properties_not_single _ (he ▸ hother)
        rw [Dict.valuesOf_singleton_of_ne hne] at hlast
        cases hlast
      unchanged := fun _ _ => rfl
      properties := fun _ =>
        ⟨[entries], declared, .cons (Entry.hasEntries_of_named hentries) .nil,
          by simpa using hdeclared, hmerges⟩
      members := fun h => by cases h
      same := fun h => by cases h
      left := .refl _ }
  case h_6 =>
    refine .pure ?_
    refine .single (k := .object) rfl (by decide) rfl (.node _) (.refl s) (fun _ => ?_) rfl rfl
    simp only [Body.single?, ObjectFacets.single?]
    split <;> simp_all
  case h_7 =>
    refine .pure (.unowned ?_)
    simp_all [Body.kind, Kind.ownFacets, Kind.singleFacets, Kind.addedFacets]
  case h_2 =>
    refine .check trivial fun b h => .pure ?_
    refine .single (k := .object) rfl (by decide) rfl (.flag (by decide) (Entry.hasFlag_of_boolean h))
      (.refl s) (fun _ => ?_) rfl rfl
    simp only [Body.single?, ObjectFacets.single?]
    split <;> simp_all
  case h_5 =>
    refine .check trivial fun b h => .pure ?_
    refine .single (k := .object) rfl (by decide) rfl (.text (by decide) (Entry.hasText_of_text h))
      (.refl s) (fun _ => ?_) rfl rfl
    simp only [Body.single?, ObjectFacets.single?]
    split <;> simp_all
  all_goals
    refine .check trivial fun b h => .pure ?_
    have hcount := Entry.hasCount_of_unsigned h
    refine .single (k := .object) rfl (by decide) rfl (.count (by decide) hcount) (.refl s)
      (fun _ => ?_) rfl rfl
    simp only [Body.single?, ObjectFacets.single?]
    split <;> simp_all

/-! ## Any facets -/

/-- One facet is applied to any body. -/
theorem applyOne_gives (body : Body) :
    (applyOne declare path owner body key value).Gives s
      (AppliedOne declare owner s (body, left) key value) := by
  cases body with
  | string f => exact string_gives left f
  | integer f => exact number_gives left rfl (fun _ => rfl) (fun _ _ => rfl) (fun _ => rfl) fun _ => rfl
  | number f => exact number_gives left rfl (fun _ => rfl) (fun _ _ => rfl) (fun _ => rfl) fun _ => rfl
  | file f => exact file_gives left f
  | array f => exact array_gives left hd f
  | object f => exact object_gives left hd f
  | boolean values =>
    unfold applyOne
    dsimp only
    split
    · next hkey =>
      subst hkey
      refine .check trivial fun nodes h => .pure ?_
      refine .single (k := .boolean) rfl (by decide) rfl (.nodes (Entry.hasItems_of_items h))
        (.refl s) (fun _ => ?_) rfl rfl
      simp only [Body.single?]
      split <;> rfl
    · next hkey =>
      refine .pure (.unowned ?_)
      simpa [Body.kind, Kind.ownFacets, Kind.singleFacets, Kind.addedFacets] using hkey
  | datetime format =>
    unfold applyOne
    dsimp only
    split
    · next hkey =>
      subst hkey
      refine .check trivial fun text h => .pure ?_
      refine .single (k := .datetime) rfl (by decide) rfl (.text (by decide) (Entry.hasText_of_text h))
        (.refl s) (fun _ => ?_) rfl rfl
      simp only [Body.single?]
      split <;> rfl
    · next hkey =>
      refine .pure (.unowned ?_)
      simpa [Body.kind, Kind.ownFacets, Kind.singleFacets, Kind.addedFacets] using hkey
  | union ms =>
    unfold applyOne
    dsimp only
    split
    · next hkey =>
      subst hkey
      refine .check trivial fun nodes hnodes => ?_
      refine (members_gives hd nodes s ms).bind fun new t h => .pure ?_
      obtain ⟨hst, ids, hids, hnew⟩ := h
      exact
      { extended := hst
        kind := rfl
        single := fun _ hkey => absurd hkey List.not_mem_nil
        unchanged := fun _ _ => rfl
        properties := fun h => by cases h
        members := fun _ =>
          ⟨[nodes], ids, .cons (Entry.hasItems_of_items hnodes) .nil, by simpa using hids, hnew⟩
        same := fun h => by cases h
        left := .refl _ }
    · next hkey =>
      refine .pure (.unowned ?_)
      simpa [Body.kind, Kind.ownFacets, Kind.singleFacets, Kind.addedFacets] using hkey
  | _ => exact .pure (.unowned List.not_mem_nil)

/-- Facets are applied one after the other. -/
theorem applyFrom_gives (facets : List (String × Node)) : ∀ (s : Store) (body : Body)
    (left : Dict String Node), (applyFrom declare path owner body left facets).Gives s
      (Applied declare owner s (body, left) facets) := by
  induction facets with
  | nil => exact fun s body left => .pure (.of_none (.refl s) _)
  | cons entry rest ih =>
    intro s body left
    refine (applyOne_gives left hd body).bind fun o m hone => ?_
    cases o with
    | none => exact (ih m _ _).imp (fun _ _ h => hone.trans h) fun _ h => h
    | some b => exact (ih m _ _).imp (fun _ _ h => hone.trans h) fun _ h => h

/-- What a reader that stores its shapes applies is applied. -/
theorem applied_of_stores {body : Body} {facets : List (String × Node)}
    {result : Body × Dict String Node} (h : apply declare path owner body facets s = (.ok result, t)) :
    Applied declare owner s (body, []) facets result t :=
  (applyFrom_gives hd facets s body []).of_ok h

end

end

end Facets

end RamlTypes
