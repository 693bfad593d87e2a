import RamlTypes.Proofs.Expr.Mentions
import RamlTypes.Proofs.Relation.Comparison
import RamlTypes.Proofs.Resolved

/-!
# Reading declarations agrees

Two runs that read the same declaration store related shapes, whatever the comparison, if the few
actions that touch the store do so (`Comparison.Declares`).
-/

namespace RamlTypes

/-- Annotations of which none is bound. -/
abbrev Unbound (d : Dict String AnnotationUse) : Prop := ∀ x ∈ d, x.2.definedBy = none

/-- How a shape that is not resolved yet, or never has to be, was declared. `linked` holds of the
file of an include. -/
def Shape.IsDeclared (linked : Path → Prop) (a : Shape) : Prop :=
  match a.body.pending? with
  | none => a.link = none ∧ a.inherits = []
  | some p =>
    match p.declared with
    | .expression text => a.declaration = some text ∧ a.link = none ∧ a.inherits = []
    | .parents => a.link = none
    | .link => a.inherits = [] ∧ ∃ p, a.link = some p ∧ linked p

/-- The name stands in the type expression by which the shape was declared. -/
def Shape.Mentions (a : Shape) (library : Option String) (name : String) : Prop :=
  a.link = none ∧ ∃ text e, a.declaration = some text ∧ Expr.parse text = .ok e ∧
    e.Mentions library name

/-- No name stands in the declaration of the shape. -/
abbrev Shape.NamesNothing (a : Shape) : Prop := ∀ library name, ¬ a.Mentions library name

/-- The shape waits with a type expression. -/
abbrev Shape.AwaitsExpression (a : Shape) : Prop :=
  ∃ text facets, a.body = .unknown ⟨.expression text, facets⟩

/-- The shape waits with a type expression, or it was declared without any name. -/
def Shape.IsSpelled (a : Shape) : Prop := a.AwaitsExpression ∨ a.NamesNothing

/-- The shape was declared by what has to be resolved: by an include, by a list of parents, or by an
expression other than the name of a built-in kind. -/
def Shape.IsDerived (a : Shape) : Prop :=
  a.link ≠ none ∨ ∃ text, a.declaration = some text ∧ ¬ Text.startsWith "\x7b" text ∧
    ∀ k ∈ Kind.builtins, k.name ≠ text

/-- What holds of a shape while its declaration in the file `path` is read. -/
structure Shape.IsDraft (path : Path) (a : Shape) : Prop where
  location : a.location = path
  declaration : a.declaration = none
  link : a.link = none
  inherits : a.inherits = []
  annotations : Unbound a.annotations
  examples : ∀ e ∈ a.examples, Unbound e.annotations

/-- What holds of a shape when it is stored. -/
structure Shape.IsNew (linked : Path → Prop) (a : Shape) : Prop where
  annotations : Unbound a.annotations
  examples : ∀ e ∈ a.examples, Unbound e.annotations
  declared : a.IsDeclared linked
  spelled : a.IsSpelled
  derived : a.IsDerived ↔ a.isUnknown

/-- Only the file of an include is linked. -/
theorem Shape.IsDeclared.link {linked : Path → Prop} {a : Shape} (h : a.IsDeclared linked) :
    ∀ p ∈ a.link, linked p := by
  intro p hp
  rw [IsDeclared] at h
  split at h
  · rw [h.1] at hp
    cases hp
  · split at h
    · rw [h.2.1] at hp
      cases hp
    · rw [h] at hp
      cases hp
    · obtain ⟨-, q, hq, hlinked⟩ := h
      cases hq.symm.trans hp
      exact hlinked

/-- A shape without a declaration names no type. -/
theorem Shape.namesNothing_of_declaration {a : Shape} (h : a.declaration = none) : a.NamesNothing := by
  rintro library name ⟨-, text, e, htext, -⟩
  cases h.symm.trans htext

/-- An include names no type. -/
theorem Shape.namesNothing_of_link {a : Shape} {p : Path} (h : a.link = some p) : a.NamesNothing := by
  rintro library name ⟨hlink, -⟩
  cases h.symm.trans hlink

/-- A declaration that is no expression names nothing. -/
theorem Shape.namesNothing_of_parse {a : Shape} {text : String} (h : a.declaration = some text)
    (hparse : ∀ e, Expr.parse text = .ok e → ∀ library name, ¬ e.Mentions library name) :
    a.NamesNothing := by
  rintro library name ⟨-, text', e, htext, he, hm⟩
  cases h.symm.trans htext
  exact hparse e he library name hm

/-- How a shape was declared does not change. -/
theorem Shape.Grows.isDerived_iff {a c : Shape} (h : a.Grows c) : c.IsDerived ↔ a.IsDerived := by
  rw [IsDerived, IsDerived, h.link_eq, h.declaration_eq]

/-- A shape that is declared by a schema or by a kind asks for no resolution. -/
theorem Shape.not_isDerived {a : Shape} (hlink : a.link = none)
    (h : ∀ text, a.declaration = some text → Text.startsWith "\x7b" text ∨
      ∃ k ∈ Kind.builtins, k.name = text) : ¬ a.IsDerived := by
  rintro (hsome | ⟨text, htext, hbrace, hname⟩)
  · exact hsome hlink
  · obtain hb | ⟨k, hk, hkname⟩ := h text htext
    · exact hbrace hb
    · exact hname k hk hkname

/-- A list of parents is neither a schema nor the name of a kind. -/
theorem Shape.isDerived_of_bracket {a : Shape} {parents : String}
    (h : a.declaration = some ("[" ++ parents ++ "]")) : a.IsDerived := by
  have htext : ("[" ++ parents ++ "]").toList = '[' :: (parents.toList ++ [']']) := by
    rw [String.toList_append, String.toList_append]
    rfl
  refine .inr ⟨_, h, ?_, fun k hk hname => ?_⟩
  · rw [Text.startsWith, htext]
    exact Bool.false_ne_true
  · have hnames : ∀ k ∈ Kind.builtins, k.name.toList.head? ≠ some '[' := by decide
    refine hnames k hk ?_
    rw [hname, htext]
    rfl

/-- A shape that is stored with nothing but a body. -/
theorem Shape.isNew_plain {linked : Path → Prop} {name : String} {location : Path} {mark : Mark}
    {body : Body} (h : body.pending? = none) : (plain name location mark body).IsNew linked where
  annotations := List.forall_mem_nil _
  examples := List.forall_mem_nil _
  declared := by
    rw [IsDeclared]
    dsimp only [plain]
    rw [h]
    exact ⟨rfl, rfl⟩
  spelled := .inr (namesNothing_of_declaration rfl)
  derived := by
    refine iff_of_false (not_isDerived rfl fun text htext => ?_) ?_
    · cases htext
    · rw [isUnknown]
      dsimp only [plain]
      rw [h]
      exact Bool.false_ne_true

/-- An annotation without a type can be put to others without types. -/
theorem Unbound.put {d : Dict String AnnotationUse} (h : Unbound d) {key : String}
    {a : AnnotationUse} (ha : a.definedBy = none) : Unbound (Dict.put key a d) := by
  intro x hx
  rcases Dict.mem_put hx with rfl | hx
  · exact ha
  · exact h x hx

/-- An annotation that is read is not bound. -/
theorem unbound_of_readAnnotationUse {path : Path} {name : String} {value : Node}
    {a : AnnotationUse} (h : readAnnotationUse path name value = .ok a) : a.definedBy = none := by
  rw [readAnnotationUse] at h
  split at h
  · cases h
  · cases h
    rfl

/-- Annotations that are not bound agree with themselves. -/
theorem Unbound.rel {R : ShapeId → ShapeId → Prop} {d : Dict String AnnotationUse}
    (h : Unbound d) : Dict.Rel (AnnotationUse.Rel R) d d :=
  List.forall₂_same.2 fun x hx => ⟨rfl, rfl, by rw [h x hx]; exact .none⟩

namespace Example

/-- An entry of an example brings no annotation that has a type. -/
theorem unbound_of_addEntry {path : Path} {e e' : Example} {key value : Node}
    (h : addEntry path e key value = .ok e') (hu : Unbound e.annotations) :
    Unbound e'.annotations := by
  simp only [addEntry, bind, Except.bind] at h
  split at h
  · cases h
  · split at h
    · split at h
      · cases h
      · next ha =>
        cases h
        exact hu.put (unbound_of_readAnnotationUse ha)
    · split at h
      all_goals
        first
        | cases h; exact hu
        | split at h
          · cases h
          · cases h
            exact hu

/-- The annotations that are read in an example are not bound. -/
theorem unbound_of_addEntries {path : Path} {pairs : List (Node × Node)} :
    ∀ {e e' : Example}, addEntries path e pairs = .ok e' → Unbound e.annotations →
    Unbound e'.annotations := by
  induction pairs with
  | nil =>
    intro e e' h hu
    cases h
    exact hu
  | cons pair rest ih =>
    intro e e' h hu
    simp only [addEntries, bind, Except.bind] at h
    split at h
    · cases h
    · next hf => exact ih h (unbound_of_addEntry hf hu)

/-- An example without bound annotations agrees with itself. -/
theorem Rel.of_unbound {R : ShapeId → ShapeId → Prop} {e : Example} (h : Unbound e.annotations) :
    e.Rel R e :=
  ⟨rfl, h.rel⟩

end Example

/-- A text declares a schema, a built-in kind, or an expression. -/
theorem Declaration.planText_cases (raw trimmed : String) :
    Text.startsWith "\x7b" trimmed ∧ planText raw trimmed = .json raw ∨
    (∃ k ∈ Kind.builtins, ∃ body, k.name = trimmed ∧ Body.empty? k = some body ∧
      planText raw trimmed = .concrete body) ∨
    ¬ Text.startsWith "\x7b" trimmed ∧ (∀ k ∈ Kind.builtins, k.name ≠ trimmed) ∧
      planText raw trimmed = .pending (.expression trimmed) := by
  rw [planText]
  split
  · next hs => exact .inl ⟨hs, rfl⟩
  · next hs =>
    rcases h : (Kind.ofName? trimmed).bind Body.empty? with _ | body
    · refine .inr (.inr ⟨hs, fun k hk hname => ?_, rfl⟩)
      obtain ⟨body, hbody⟩ := Body.exists_empty hk
      rw [Kind.ofName?_eq_some_iff.2 ⟨hk, hname⟩, Option.bind_some, hbody] at h
      cases h
    · obtain ⟨k, hname, hk⟩ := Option.bind_eq_some_iff.1 h
      obtain ⟨hbuiltin, hkname⟩ := Kind.ofName?_eq_some_iff.1 hname
      exact .inr (.inl ⟨k, hbuiltin, body, hkname, hk, rfl⟩)

namespace Comparison

/-- The actions of reading a declaration in the file `path` agree. -/
structure Declares (C : Comparison) (path : Path) : Prop where
  settings {w s t} : C.stores w s t → t.settings = s.settings
  target {w s t} (text : String) : C.stores w s t → C.target (s.follow path text)
  report (w : C.World) (d : Diagnostic) : d.finding ≠ .annotationUnbound →
    C.Agree w (Load.report d) (Load.report d) fun _ _ _ => True
  makeOptional (w : C.World) (i j : ShapeId) : C.fresh w i j →
    C.Agree w (Facets.makeOptional i) (Facets.makeOptional j) fun _ _ _ => True
  addShape (w : C.World) (a b : Shape) : C.begun w path → a.Rel (C.ids w) b →
    a.IsNew (C.linked w) → a.location = path →
    C.Agree w (Load.addShape a) (Load.addShape b) C.fresh
  loadExample (w : C.World) (p : Path) : C.target p →
    C.Agree w (loadExample p) (loadExample p) fun _ a b => a = b

/-- Two bodies, or none on both sides, that hold related numbers. -/
abbrev BodyRel (C : Comparison) (w : C.World) : Option Body → Option Body → Prop :=
  Option.Rel (Body.Rel (C.ids w))

/-- Related bodies beside the same facets that are left over. -/
abbrev AppliedRel (C : Comparison) (w : C.World) (a b : Body × Dict String Node) : Prop :=
  a.1.Rel (C.ids w) b.1 ∧ b.2 = a.2

namespace Declares

variable {C : Comparison} {path : Path} (hC : C.Declares path)
  {loadType loadType' : Path → Load Unit} {declare declare' : Facets.Declare}

include hC in
/-- Both runs follow a target to the same place. -/
theorem follow {w : C.World} {s t : Store} (hs : C.stores w s t) (text : String) :
    t.follow path text = s.follow path text ∧ C.target (s.follow path text) :=
  ⟨by rw [Store.follow, Store.follow, hC.settings hs], hC.target text hs⟩

/-! ## Facets -/

section
variable (hd : ∀ w name node, C.begun w path → C.Agree w (declare name node) (declare' name node) C.fresh)

include hC in
/-- Patterns are checked alike. -/
theorem checkPattern (w : C.World) (owner text : String) :
    C.Agree w (Facets.checkPattern path owner text) (Facets.checkPattern path owner text)
      fun _ _ _ => True := by
  rw [Facets.checkPattern]
  split
  · exact hC.report _ _ nofun
  · exact .pure trivial

include hC in
/-- A facet of a string is applied alike: it has no numbers. -/
theorem string (w : C.World) (owner : String) (f : StringFacets) (key : String) (value : Node) :
    C.Agree w (Facets.string path owner f key value) (Facets.string path owner f key value)
      C.BodyRel := by
  unfold Facets.string
  split
  · exact .check fun _ _ => .pure (.some (.string _))
  · exact .check fun _ _ => .pure (.some (.string _))
  · refine .bind (Q := fun _ a b => a = b) ?_ ?_
    · refine .check fun text _ => ?_
      exact .bind (checkPattern hC w owner text) fun _ _ _ _ _ => .pure rfl
    · rintro w' a _ _ rfl
      exact .pure (.some (.string _))
  · exact .check fun _ _ => .pure (.some (.string _))
  · exact .pure .none

include hd in
/-- A facet of an array is applied alike if its items are declared alike. -/
theorem array (w : C.World) (hw : C.begun w path) (owner : String) (f : ArrayFacets)
    {i : Option ShapeId} (hi : Option.Rel (C.ids w) f.items i) (key : String) (value : Node) :
    C.Agree w (Facets.array declare path owner f key value)
      (Facets.array declare' path owner { f with items := i } key value) C.BodyRel := by
  unfold Facets.array
  split
  · exact .bind (hd w owner value hw) fun w' _ _ _ hij =>
      .pure (.some (.array { f with items := _ } (.some (C.ids_of_fresh hij))))
  · exact .check fun n _ => .pure (.some (.array { f with minItems := some n } hi))
  · exact .check fun n _ => .pure (.some (.array { f with maxItems := some n } hi))
  · exact .check fun b _ => .pure (.some (.array { f with uniqueItems := some b } hi))
  · exact .pure .none

include hC hd in
/-- A property is declared alike, and so it is made optional alike. -/
theorem property (w : C.World) (hw : C.begun w path) (name : String) (optional : Bool)
    (value : Node) :
    C.Agree w (Facets.property declare name optional value)
      (Facets.property declare' name optional value) C.ids := by
  refine .bind (hd w name value hw) fun w' i j _ hij => ?_
  split
  · refine .bind (hC.makeOptional w' i j hij) fun w'' _ _ hw'' _ => ?_
    exact .pure (C.ids_mono hw'' (C.ids_of_fresh hij))
  · exact .pure (C.ids_of_fresh hij)

include hC hd in
/-- The properties of a section are declared alike, one after the other. -/
theorem properties (entries : List (String × Node)) : ∀ (w : C.World), C.begun w path →
    ∀ {known known' : Dict String ShapeId}, Dict.Rel (C.ids w) known known' →
    C.Agree w (Facets.properties declare known entries) (Facets.properties declare' known' entries)
      fun w' => Dict.Rel (C.ids w') := by
  induction entries with
  | nil => exact fun _ _ _ _ h => .pure h
  | cons entry rest ih =>
    intro w hw known known' h
    refine .bind (property hC hd w hw _ _ _) fun w' i j hw' hij => ?_
    exact ih w' (C.begun_mono hw' hw) ((h.mono fun _ _ => C.ids_mono hw').put _ hij)

include hd in
/-- The members of a union are declared alike, one after the other. -/
theorem members (owner : String) (nodes : List Node) : ∀ (w : C.World), C.begun w path →
    ∀ {known known' : List ShapeId}, List.Forall₂ (C.ids w) known known' →
    C.Agree w (Facets.members declare owner known nodes) (Facets.members declare' owner known' nodes)
      fun w' => List.Forall₂ (C.ids w') := by
  induction nodes with
  | nil => exact fun _ _ _ _ h => .pure h
  | cons node rest ih =>
    intro w hw known known' h
    refine .bind (hd w owner node hw) fun w' i j hw' hij => ?_
    refine ih w' (C.begun_mono hw' hw) ?_
    exact List.rel_append (h.imp fun _ _ => C.ids_mono hw') (.cons (C.ids_of_fresh hij) .nil)

include hC hd in
/-- A facet of an object is applied alike if its properties are declared alike. -/
theorem object (w : C.World) (hw : C.begun w path) (f : ObjectFacets) {ps : Dict String ShapeId}
    (h : Dict.Rel (C.ids w) f.properties ps) (key : String) (value : Node) :
    C.Agree w (Facets.object declare path f key value)
      (Facets.object declare' path { f with properties := ps } key value) C.BodyRel := by
  unfold Facets.object
  split
  · refine .check fun entries _ => ?_
    exact .bind (properties hC hd entries w hw h) fun w' _ _ _ hps =>
      .pure (.some (.object { f with properties := _ } hps))
  · exact .check fun b _ => .pure (.some (.object { f with additionalProperties := some b } h))
  · exact .check fun n _ => .pure (.some (.object { f with minProperties := some n } h))
  · exact .check fun n _ => .pure (.some (.object { f with maxProperties := some n } h))
  · exact .check fun t _ => .pure (.some (.object { f with discriminator := some t } h))
  · exact .pure (.some (.object { f with discriminatorValue := some value } h))
  · exact .pure .none

include hC hd in
/-- Each facet is applied alike to related bodies, whatever their kind. -/
theorem applyOne (w : C.World) (hw : C.begun w path) (owner : String) {a b : Body}
    (h : a.Rel (C.ids w) b) (key : String) (value : Node) :
    C.Agree w (Facets.applyOne declare path owner a key value)
      (Facets.applyOne declare' path owner b key value) C.BodyRel := by
  cases h with
  | object f properties => exact object hC hd w hw f properties key value
  | array f items => exact array hd w hw owner f items key value
  | union h =>
    unfold Facets.applyOne
    dsimp only
    split
    · refine .check fun nodes _ => ?_
      exact .bind (members hd owner nodes w hw h) fun _ _ _ _ hms => .pure (.some (.union hms))
    · exact .pure .none
  | string f => exact string hC w owner f key value
  | integer f =>
    refine .check fun g _ => .pure ?_
    cases g with
    | none => exact .none
    | some g => exact .some (.integer g)
  | number f =>
    refine .check fun g _ => .pure ?_
    cases g with
    | none => exact .none
    | some g => exact .some (.number g)
  | file f =>
    refine .check fun g _ => .pure ?_
    cases g with
    | none => exact .none
    | some g => exact .some (.file g)
  | boolean values =>
    unfold Facets.applyOne
    dsimp only
    split
    · exact .check fun _ _ => .pure (.some (.boolean _))
    · exact .pure .none
  | datetime format =>
    unfold Facets.applyOne
    dsimp only
    split
    · exact .check fun _ _ => .pure (.some (.datetime _))
    · exact .pure .none
  | _ => exact .pure .none

include hC hd in
/-- Facets are applied alike to related bodies, one after the other. -/
theorem applyFrom (owner : String) (facets : List (String × Node)) : ∀ (w : C.World),
    C.begun w path → ∀ {a b : Body}, a.Rel (C.ids w) b → ∀ left : Dict String Node,
    C.Agree w (Facets.applyFrom declare path owner a left facets)
      (Facets.applyFrom declare' path owner b left facets) C.AppliedRel := by
  induction facets with
  | nil => exact fun _ _ _ _ h _ => .pure ⟨h, rfl⟩
  | cons entry rest ih =>
    intro w hw a b h left
    refine .bind (applyOne hC hd w hw owner h entry.1 entry.2) fun w' o o' hw' ho => ?_
    cases ho with
    | none => exact ih w' (C.begun_mono hw' hw) (h.mono fun _ _ => C.ids_mono hw') _
    | some h => exact ih w' (C.begun_mono hw' hw) h left

include hC hd in
/-- Applying facets to related bodies agrees. -/
theorem applyFacets (w : C.World) (hw : C.begun w path) (owner : String) {a b : Body}
    (h : a.Rel (C.ids w) b) (facets : List (String × Node)) :
    C.Agree w (Facets.apply declare path owner a facets) (Facets.apply declare' path owner b facets)
      C.AppliedRel :=
  applyFrom hC hd owner facets w hw h []

end

/-! ## Examples -/

include hC in
/-- An example that is read has no annotation that is bound. -/
theorem readExample (w : C.World) (owner : String) (name : Option String) (node : Node) :
    C.Agree w (Example.read path owner name node) (Example.read path owner name node)
      fun _ a b => a = b ∧ Unbound a.annotations := by
  have blank : Unbound (Example.blank path owner name).annotations := by simp [Example.blank]
  rw [Example.read]
  split
  · split
    · exact .fail _
    · refine .see (fun s t hs => hC.follow hs _) fun target ht => ?_
      refine .bind (hC.loadExample w target ht) ?_
      rintro w' file _ _ rfl
      exact .pure ⟨rfl, blank⟩
  · split
    · refine .check fun e he => .pure ⟨rfl, ?_⟩
      have hu := Example.unbound_of_addEntries he blank
      exact hu
    · exact .pure ⟨rfl, blank⟩

/-- Related examples without bound annotations. -/
abbrev ExamplesRel (C : Comparison) (w : C.World) (a b : List Example) : Prop :=
  List.Forall₂ (Example.Rel (C.ids w)) a b ∧ ∀ e ∈ a, Unbound e.annotations

/-- An example without numbers can follow related ones. -/
theorem ExamplesRel.append {w w' : C.World} (hw : w ≤ w') {a b : List Example}
    (h : ExamplesRel C w a b) {e : Example} (he : Unbound e.annotations) :
    ExamplesRel C w' (a ++ [e]) (b ++ [e]) := by
  refine ⟨List.rel_append (h.1.imp fun _ _ => Example.Rel.mono fun _ _ => C.ids_mono hw)
    (.cons (.of_unbound he) .nil), ?_⟩
  intro x hx
  rcases List.mem_append.1 hx with hx | hx
  · exact h.2 x hx
  · exact List.mem_singleton.1 hx ▸ he

include hC in
/-- Named examples are read alike, one after the other. -/
theorem examples (owner : String) (entries : List (String × Node)) : ∀ (w : C.World)
    {known known' : List Example}, ExamplesRel C w known known' →
    C.Agree w (Declaration.examples ⟨path, loadType, declare⟩ owner known entries)
      (Declaration.examples ⟨path, loadType', declare'⟩ owner known' entries)
      (ExamplesRel C) := by
  induction entries with
  | nil => exact fun _ _ _ h => .pure h
  | cons entry rest ih =>
    intro w known known' h
    refine .bind (readExample hC w owner _ entry.2) ?_
    rintro w' e _ hw' ⟨rfl, he⟩
    exact ih w' (h.append hw' he)

/-! ## Drafts -/

/-- The same draft with related shapes. -/
structure DraftRel (C : Comparison) (path : Path) (w : C.World) (d d' : Declaration.Draft) :
    Prop where
  rest : d' = { d with shape := d'.shape }
  shape : d.shape.Rel (C.ids w) d'.shape
  draft : d.shape.IsDraft path

namespace DraftRel

variable {w w' : C.World} {d d' : Declaration.Draft} (h : DraftRel C path w d d')
include h

/-- Drafts stay related in later worlds. -/
theorem mono (hw : w ≤ w') : DraftRel C path w' d d' :=
  ⟨h.rest, h.shape.mono fun _ _ => C.ids_mono hw, h.draft⟩

/-- The same change of both shapes in what does not concern other shapes. -/
theorem withShape {a b : Shape} (hab : a.Rel (C.ids w) b) (ha : a.IsDraft path) :
    DraftRel C path w { d with shape := a } { d' with shape := b } :=
  ⟨by rw [h.rest], hab, ha⟩

end DraftRel

section
variable (hd : ∀ w name node, C.begun w path → C.Agree w (declare name node) (declare' name node) C.fresh)

include hd in
/-- The types of custom facets are declared alike, one after the other. -/
theorem facetDefinitions (entries : List (String × Node)) : ∀ (w : C.World), C.begun w path →
    ∀ {known known' : Dict String ShapeId}, Dict.Rel (C.ids w) known known' →
    C.Agree w (Declaration.facetDefinitions ⟨path, loadType, declare⟩ known entries)
      (Declaration.facetDefinitions ⟨path, loadType', declare'⟩ known' entries)
      fun w' => Dict.Rel (C.ids w') := by
  induction entries with
  | nil => exact fun _ _ _ _ h => .pure h
  | cons entry rest ih =>
    intro w hw known known' h
    refine .bind (hd w _ _ hw) fun w' i j hw' hij => ?_
    exact ih w' (C.begun_mono hw' hw) ((h.mono fun _ _ => C.ids_mono hw').put _ (C.ids_of_fresh hij))

include hC hd in
/-- An entry that is no annotation is read alike into related drafts. -/
theorem addKnown (w : C.World) (hw : C.begun w path) (name : String) {d d' : Declaration.Draft}
    (h : DraftRel C path w d d') (key : String) (value : Node) :
    C.Agree w (Declaration.addKnown ⟨path, loadType, declare⟩ name d key value)
      (Declaration.addKnown ⟨path, loadType', declare'⟩ name d' key value)
      (DraftRel C path) := by
  have hs := h.shape
  have hn := h.draft
  unfold Declaration.addKnown
  dsimp only
  split
  · exact .pure ⟨by rw [h.rest], hs, hn⟩
  · exact .pure ⟨by rw [h.rest], hs, hn⟩
  · exact .check fun t _ => .pure (h.withShape
      { hs with rest := congrArg (fun a : Shape => { a with displayName := some t }) hs.rest }
      { hn with })
  · exact .check fun t _ => .pure (h.withShape
      { hs with rest := congrArg (fun a : Shape => { a with description := some t }) hs.rest }
      { hn with })
  · exact .check fun b _ => .pure (h.withShape
      { hs with rest := congrArg (fun a : Shape => { a with required := some b }) hs.rest }
      { hn with })
  · exact .pure (h.withShape
      { hs with rest := congrArg (fun a : Shape => { a with default := some value }) hs.rest }
      { hn with })
  · refine .check fun entries _ => ?_
    refine .bind (facetDefinitions hd entries w hw hs.facetDefinitions) fun w' ds ds' hw' hds => ?_
    have h' := h.mono hw'
    exact .pure (h'.withShape { h'.shape with
      rest := congrArg (fun a : Shape => { a with facetDefinitions := ds' }) hs.rest
      facetDefinitions := hds } { hn with })
  · refine .bind (readExample hC w name none value) ?_
    rintro w' e _ hw' ⟨rfl, he⟩
    have h' := h.mono hw'
    have hes := ExamplesRel.append hw' ⟨hs.examples, hn.examples⟩ he
    exact .pure (h'.withShape { h'.shape with
      rest := congrArg (fun a : Shape => { a with examples := a.examples ++ [e] }) hs.rest
      examples := hes.1 } { hn with examples := hes.2 })
  · refine .check fun entries _ => ?_
    refine .bind (examples hC name entries w ⟨hs.examples, hn.examples⟩) fun w' es es' hw' hes => ?_
    have h' := h.mono hw'
    exact .pure (h'.withShape { h'.shape with
      rest := congrArg (fun a : Shape => { a with examples := es' }) hs.rest
      examples := hes.1 } { hn with examples := hes.2 })
  · exact .pure h
  · exact .pure ⟨by rw [h.rest], hs, hn⟩

include hC hd in
/-- The entries of a declaration are read alike into related drafts, one after the other. -/
theorem addEntries (name : String) (pairs : List (Node × Node)) : ∀ (w : C.World),
    C.begun w path → ∀ {d d' : Declaration.Draft}, DraftRel C path w d d' →
    C.Agree w (Declaration.addEntries ⟨path, loadType, declare⟩ name d pairs)
      (Declaration.addEntries ⟨path, loadType', declare'⟩ name d' pairs) (DraftRel C path) := by
  induction pairs with
  | nil => exact fun _ _ _ _ h => .pure h
  | cons pair rest ih =>
    intro w hw d d' h
    unfold Declaration.addEntries
    dsimp only
    refine .check fun key _ => ?_
    split
    · refine .check fun a ha => ih w hw (h.withShape { h.shape with
        rest := congrArg (fun b : Shape => { b with annotations := Dict.put a.name a b.annotations })
          h.shape.rest
        annotations := h.shape.annotations.put _ ?_ } { h.draft with annotations := ?_ })
      · exact ⟨rfl, by rw [unbound_of_readAnnotationUse ha]; exact .none⟩
      · exact h.draft.annotations.put (unbound_of_readAnnotationUse ha)
    · refine .bind (addKnown hC hd w hw name h key pair.2) fun w' e e' hw' he => ?_
      exact ih w' (C.begun_mono hw' hw) he

include hC hd in
/-- A declaration is drafted alike. -/
theorem draft (w : C.World) (hw : C.begun w path) (name : String) (node : Node) :
    C.Agree w (Declaration.draft ⟨path, loadType, declare⟩ name node)
      (Declaration.draft ⟨path, loadType', declare'⟩ name node) (DraftRel C path) := by
  have blank (type : Option Node) : DraftRel C path w
      ⟨Shape.plain name path node.mark .any, [], type⟩
      ⟨Shape.plain name path node.mark .any, [], type⟩ :=
    ⟨rfl, ⟨rfl, .nil, .nil, .nil, .nil, .any⟩,
      ⟨rfl, rfl, rfl, rfl, List.forall_mem_nil _, List.forall_mem_nil _⟩⟩
  unfold Declaration.draft
  dsimp only
  split
  · exact addEntries hC hd name _ w hw (blank none)
  · exact .pure (blank (some node))

end

/-! ## Types -/

/-- The envelope of a shape that is to be completed as planned. -/
structure IsPlanned (C : Comparison) (path : Path) (w : C.World) (a : Shape)
    (plan : Declaration.Plan) : Prop where
  location : a.location = path
  annotations : Unbound a.annotations
  examples : ∀ e ∈ a.examples, Unbound e.annotations
  /-- The declaration that the plan leads to. -/
  declared : match plan with
    | .sniff | .json _ => a.link = none ∧ a.inherits = []
    | .concrete body => a.link = none ∧ a.inherits = [] ∧ ∃ k, Body.empty? k = some body
    | .pending declared => ({ a with body := .unknown ⟨declared, []⟩ } : Shape).IsDeclared (C.linked w)
  /-- Only an expression names anything. -/
  spelled : (∃ text, plan = .pending (.expression text)) ∨ a.NamesNothing
  /-- What has to be resolved is planned to wait. -/
  derived : a.IsDerived ↔ ∃ d, plan = .pending d

/-- A declaration without a type is completed as its facets say. -/
theorem isPlanned_sniff {w : C.World} {a : Shape} (ha : a.IsDraft path) :
    IsPlanned C path w a .sniff where
  location := ha.location
  annotations := ha.annotations
  examples := ha.examples
  declared := ⟨ha.link, ha.inherits⟩
  spelled := .inr (Shape.namesNothing_of_declaration ha.declaration)
  derived := by
    refine iff_of_false (Shape.not_isDerived ha.link fun text htext => ?_) (by rintro ⟨_, ⟨⟩⟩)
    cases ha.declaration.symm.trans htext

/-- The same plan for related shapes. -/
abbrev PlanRel (C : Comparison) (path : Path) (w : C.World) (a b : Shape × Declaration.Plan) :
    Prop :=
  a.1.Rel (C.ids w) b.1 ∧ a.2 = b.2 ∧ IsPlanned C path w a.1 a.2

section
variable (hd : ∀ w name node, C.begun w path →
    C.Agree w (declare name node) (declare' name node) C.fresh)
  (hl : ∀ w p, C.target p →
    C.Agree w (Load.unlessLoading p (loadType p)) (Load.unlessLoading p (loadType' p))
      fun w' _ _ => C.linked w' p)

include hd in
/-- Parents are declared alike, one after the other. -/
theorem parents (items : List Node) : ∀ (w : C.World), C.begun w path →
    C.Agree w (Declaration.parents ⟨path, loadType, declare⟩ items)
      (Declaration.parents ⟨path, loadType', declare'⟩ items)
      fun w' a b => List.Forall₂ (C.ids w') a.1 b.1 ∧ a.2 = b.2 := by
  induction items with
  | nil => exact fun _ _ => .pure ⟨.nil, rfl⟩
  | cons item rest ih =>
    intro w hw
    unfold Declaration.parents
    split
    · refine .bind (hd w _ item hw) fun w' i j hw' hij => ?_
      refine .bind (ih w' (C.begun_mono hw' hw)) ?_
      rintro w'' ⟨ids, names⟩ ⟨ids', names'⟩ hw'' ⟨hids, rfl⟩
      exact .pure ⟨.cons (C.ids_mono hw'' (C.ids_of_fresh hij)) hids, rfl⟩
    · exact .fail _

include hC hd hl in
/-- A type is planned alike for related drafts. -/
theorem classify (w : C.World) (hw : C.begun w path) {a b : Shape} (h : a.Rel (C.ids w) b)
    (ha : a.IsDraft path) (type : Node) :
    C.Agree w (Declaration.classify ⟨path, loadType, declare⟩ a type)
      (Declaration.classify ⟨path, loadType', declare'⟩ b type) (PlanRel C path) := by
  have fill (t : String) : Shape.Rel (C.ids w) { a with declaration := some t }
      { b with declaration := some t } :=
    { h with rest := congrArg (fun c : Shape => { c with declaration := some t }) h.rest }
  unfold Declaration.classify
  cases type with
  | scalar text scalarType mark isInclude =>
    dsimp only
    split
    · refine .see (fun s t hs => hC.follow hs text) fun target ht => ?_
      refine .bind (hl w target ht) fun w' _ _ hw' ht => .pure ⟨?_, rfl, ?_⟩
      · exact { h.mono fun _ _ => C.ids_mono hw' with
          rest := congrArg (fun c : Shape => { c with declaration := text, link := target }) h.rest }
      · exact ⟨ha.location, ha.annotations, ha.examples, ⟨ha.inherits, target, rfl, ht⟩,
          .inr (Shape.namesNothing_of_link rfl), iff_of_true (.inl (Option.some_ne_none _)) ⟨_, rfl⟩⟩
    · split
      · split
        · exact .pure ⟨h, rfl, isPlanned_sniff ha⟩
        · have hp := Declaration.planText_cases text (Text.trim text)
          generalize Declaration.planText text (Text.trim text) = plan at hp ⊢
          generalize Text.trim text = trimmed at hp ⊢
          refine .pure ⟨fill trimmed, rfl, ?_⟩
          rcases hp with ⟨hs, rfl⟩ | ⟨k, hbuiltin, body, hname, hk, rfl⟩ | ⟨hs, hname, rfl⟩
          · refine ⟨ha.location, ha.annotations, ha.examples, ⟨ha.link, ha.inherits⟩, .inr ?_,
              iff_of_false (Shape.not_isDerived ha.link fun text htext => ?_) (by rintro ⟨_, ⟨⟩⟩)⟩
            · exact Shape.namesNothing_of_parse rfl fun e he => absurd he (Expr.parse_ne_ok_of_brace hs e)
            · cases htext
              exact .inl hs
          · refine ⟨ha.location, ha.annotations, ha.examples, ⟨ha.link, ha.inherits, k, hk⟩, .inr ?_,
              iff_of_false (Shape.not_isDerived ha.link fun text htext => ?_) (by rintro ⟨_, ⟨⟩⟩)⟩
            · subst hname
              refine Shape.namesNothing_of_parse rfl fun e he => ?_
              cases (Expr.parse_name hbuiltin).symm.trans he
              exact fun _ _ => Expr.not_mentions_builtin
            · cases htext
              exact .inr ⟨k, hbuiltin, hname⟩
          · exact ⟨ha.location, ha.annotations, ha.examples, ⟨rfl, ha.link, ha.inherits⟩,
              .inl ⟨trimmed, rfl⟩, iff_of_true (.inr ⟨trimmed, rfl, hs, hname⟩) ⟨_, rfl⟩⟩
      · exact .fail _
  | sequence items mark isInclude =>
    dsimp only
    split
    · exact .fail _
    · refine .bind (parents hd _ w hw) ?_
      rintro w' ⟨ids, names⟩ ⟨ids', names'⟩ hw' ⟨hids, rfl⟩
      refine .pure ⟨?_, rfl, ha.location, ha.annotations, ha.examples, ha.link, .inr ?_,
        iff_of_true (Shape.isDerived_of_bracket rfl) ⟨_, rfl⟩⟩
      rotate_left
      · exact Shape.namesNothing_of_parse rfl fun e he => absurd he (Expr.parse_ne_ok_of_bracket _ e)
      exact { h.mono fun _ _ => C.ids_mono hw' with
        rest := congrArg (fun c : Shape => { c with
          declaration := some ("[" ++ ", ".intercalate names ++ "]"), inherits := ids' }) h.rest
        inherits := hids }
  | mapping pairs mark isInclude => exact .fail _

include hC hd hl in
/-- The type of a declaration, or its absence, is planned alike for related drafts. -/
theorem plan (w : C.World) (hw : C.begun w path) {a b : Shape} (h : a.Rel (C.ids w) b)
    (ha : a.IsDraft path) (type : Option Node) :
    C.Agree w (Declaration.plan ⟨path, loadType, declare⟩ a type)
      (Declaration.plan ⟨path, loadType', declare'⟩ b type) (PlanRel C path) := by
  cases type with
  | some type => exact classify hC hd hl w hw h ha type
  | none =>
    exact .pure ⟨h, rfl, isPlanned_sniff ha⟩

/-- Related shapes that can be stored in the file `path`. -/
abbrev NewRel (C : Comparison) (path : Path) (w : C.World) (a b : Shape) : Prop :=
  a.Rel (C.ids w) b ∧ a.IsNew (C.linked w) ∧ a.location = path

include hC hd in
/-- Facets are applied alike to the body of a related shape, which is a new one then. -/
theorem withFacets (w : C.World) (hw : C.begun w path) (name : String) {a b : Shape}
    (h : a.Rel (C.ids w) b) (location : a.location = path) (link : a.link = none)
    (inherits : a.inherits = []) (annotations : Unbound a.annotations)
    (examples : ∀ e ∈ a.examples, Unbound e.annotations) (names : a.NamesNothing)
    (derived : ¬ a.IsDerived) {body : Body}
    (hb : body.Rel (C.ids w) body) (hk : body.kind ≠ .unknown) (raw : List (String × Node)) :
    C.Agree w (Declaration.withFacets ⟨path, loadType, declare⟩ name a body raw)
      (Declaration.withFacets ⟨path, loadType', declare'⟩ name b body raw) (NewRel C path) := by
  have apply := (applyFacets hC hd w hw name hb raw).yields
    (Facets.apply_kind declare path name body raw)
  refine .bind apply ?_
  rintro w' ⟨c, left⟩ ⟨c', left'⟩ hw' ⟨⟨hc, rfl⟩, hkind⟩
  have hp : c.pending? = none := Body.pending_eq_none_iff.2 (hkind ▸ hk)
  have new : ({ a with body := c, customFacets := Dict.putAll a.customFacets left' } :
      Shape).IsDeclared (C.linked w') := by
    rw [Shape.IsDeclared]
    dsimp only
    rw [hp]
    exact ⟨link, inherits⟩
  have resolved : ¬ c.pending?.isSome := by
    rw [hp]
    exact Bool.false_ne_true
  refine .pure ⟨?_, ⟨annotations, examples, new, .inr names, iff_of_false derived resolved⟩, location⟩
  exact { h.mono fun _ _ => C.ids_mono hw' with
    rest := congrArg (fun s : Shape => { s with
      body := c', customFacets := Dict.putAll s.customFacets left' }) h.rest
    body := hc }

include hC hd in
/-- Related shapes are completed alike, as they are planned. -/
theorem complete (w : C.World) (hw : C.begun w path) (name : String) {a b : Shape}
    (h : a.Rel (C.ids w) b) (raw : List (String × Node)) {plan : Declaration.Plan}
    (hp : IsPlanned C path w a plan) :
    C.Agree w (Declaration.complete ⟨path, loadType, declare⟩ name a raw plan)
      (Declaration.complete ⟨path, loadType', declare'⟩ name b raw plan) (NewRel C path) := by
  obtain ⟨location, annotations, examples, declared, spelled, derived⟩ := hp
  cases plan with
  | sniff =>
    have underived : ¬ a.IsDerived := derived.not.2 (by rintro ⟨_, ⟨⟩⟩)
    refine withFacets hC hd w hw name h location declared.1 declared.2 annotations examples
      (spelled.resolve_left nofun) underived (.emptyD _) ?_ raw
    generalize Kind.sniff _ = k
    cases k <;> decide
  | concrete body =>
    obtain ⟨link, inherits, k, hk⟩ := declared
    have underived : ¬ a.IsDerived := derived.not.2 (by rintro ⟨_, ⟨⟩⟩)
    refine withFacets hC hd w hw name h location link inherits annotations examples
      (spelled.resolve_left nofun) underived (.empty hk) ?_ raw
    cases k <;> cases hk <;> decide
  | json schema =>
    have names := spelled.resolve_left nofun
    have underived : ¬ a.IsDerived := derived.not.2 (by rintro ⟨_, ⟨⟩⟩)
    refine .pure ⟨?_, ⟨annotations, examples, declared, .inr names,
      iff_of_false underived Bool.false_ne_true⟩, location⟩
    exact { h with
      rest := congrArg (fun s : Shape => { s with
        body := .json schema, customFacets := Dict.putAll s.customFacets raw }) h.rest
      body := .json schema }
  | pending d =>
    have waits : ({ a with body := .unknown ⟨d, raw⟩ } : Shape).IsSpelled := by
      refine spelled.imp_left ?_
      rintro ⟨text, ⟨⟩⟩
      exact ⟨text, raw, rfl⟩
    refine .pure ⟨?_, ⟨annotations, examples, declared, waits,
      iff_of_true (derived.2 ⟨d, rfl⟩) rfl⟩, location⟩
    exact { h with
      rest := congrArg (fun s : Shape => { s with body := .unknown ⟨d, raw⟩ }) h.rest
      body := .unknown ⟨d, raw⟩ }

include hC hd hl in
/-- A declaration is read alike. -/
theorem decode (w : C.World) (hw : C.begun w path) (name : String) (node : Node) :
    C.Agree w (Declaration.decode ⟨path, loadType, declare⟩ name node)
      (Declaration.decode ⟨path, loadType', declare'⟩ name node) C.fresh := by
  refine .bind (draft hC hd w hw name node) fun w₁ d d' hw₁ h => ?_
  have hl₁ := C.begun_mono hw₁ hw
  rw [h.rest]
  refine .bind (plan hC hd hl w₁ hl₁ h.shape h.draft d.type) ?_
  rintro w₂ ⟨a, p⟩ ⟨b, q⟩ hw₂ ⟨hab, rfl, hp⟩
  have hl₂ := C.begun_mono hw₂ hl₁
  refine .bind (complete hC hd w₂ hl₂ name hab d.raw hp) fun w₃ a' b' hw₃ ⟨hab', new, location⟩ => ?_
  exact hC.addShape w₃ a' b' (C.begun_mono hw₃ hl₂) hab' new location

include hC hl in
/-- Declarations are read alike, down to any level. -/
theorem buildLevels (n : Nat) : ∀ w name node, C.begun w path →
    C.Agree w (Declaration.buildLevels loadType path n name node)
      (Declaration.buildLevels loadType' path n name node) C.fresh := by
  induction n with
  | zero => exact fun _ _ _ _ => .exhaust
  | succ n ih => exact fun w name node hw => .mapFault _ (decode hC ih hl w hw name node)

include hC hl in
/-- Reading a declaration agrees. -/
theorem build (w : C.World) (hw : C.begun w path) (name : String) (node : Node) :
    C.Agree w (Declaration.build loadType path name node)
      (Declaration.build loadType' path name node) C.fresh :=
  buildLevels hC hl node.height w name node hw

end

end Declares

end Comparison

end RamlTypes
