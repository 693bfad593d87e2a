import Mathlib.Data.List.Forall2
import RamlTypes.Resolution.Resolve

/-!
# Values that agree up to the numbers of shapes

Two runs of the same load differ in the numbers of the shapes that they store. The relations of this
module lift a relation `R` of shape numbers to the values that hold such numbers: bodies, shapes,
annotations, examples and fragments agree if they are equal in everything else, and hold related
numbers in the same places.
-/

/-- Options with related values are related by every weaker relation. -/
theorem Option.Rel.imp {α β : Type} {S T : α → β → Prop} (h : ∀ a b, S a b → T a b)
    {o : Option α} {p : Option β} (ho : Option.Rel S o p) : Option.Rel T o p := by
  cases ho with
  | none => exact .none
  | some hab => exact .some (h _ _ hab)

/-- An option is related to itself if its value is. -/
theorem Option.Rel.refl_of_mem {α : Type} {S : α → α → Prop} {o : Option α} (h : ∀ a ∈ o, S a a) :
    Option.Rel S o o := by
  cases o with
  | none => exact .none
  | some a => exact .some (h a rfl)

namespace RamlTypes

variable {κ α β : Type}

/-! ## Dictionaries -/

section
variable {S : α → β → Prop}

/-- Two dictionaries with the same keys in the same order and related values. -/
def Dict.Rel (S : α → β → Prop) (d : Dict κ α) (e : Dict κ β) : Prop :=
  List.Forall₂ (fun a b => a.1 = b.1 ∧ S a.2 b.2) d e

namespace Dict.Rel

/-- Empty dictionaries are related. -/
theorem nil : Dict.Rel S ([] : Dict κ α) [] := List.Forall₂.nil

/-- Dictionaries stay related when the relation of their values grows. -/
theorem mono {T : α → β → Prop} (h : ∀ a b, S a b → T a b) {d : Dict κ α} {e : Dict κ β}
    (hd : Dict.Rel S d e) : Dict.Rel T d e :=
  List.Forall₂.imp (fun _ _ hab => ⟨hab.1, h _ _ hab.2⟩) hd

variable [DecidableEq κ]

/-- A key has related values in related dictionaries, or none in either. -/
theorem find? {d : Dict κ α} {e : Dict κ β} (hd : Dict.Rel S d e) (k : κ) :
    Option.Rel S (Dict.find? k d) (Dict.find? k e) := by
  induction hd with
  | nil => exact .none
  | cons hab _ ih =>
    obtain ⟨hk, hv⟩ := hab
    rw [Dict.find?, Dict.find?, hk]
    split
    · exact .some hv
    · exact ih

/-- Related dictionaries, which may both be missing, have related values of a key. -/
theorem bind_find? {x : Option (Dict κ α)} {y : Option (Dict κ β)} (h : Option.Rel (Dict.Rel S) x y)
    (k : κ) : Option.Rel S (x.bind (Dict.find? k)) (y.bind (Dict.find? k)) := by
  cases h with
  | none => exact .none
  | some hd => exact hd.find? k

/-- Related values can be put under one key. -/
theorem put {d : Dict κ α} {e : Dict κ β} (hd : Dict.Rel S d e) (k : κ) {a : α} {b : β}
    (hab : S a b) : Dict.Rel S (Dict.put k a d) (Dict.put k b e) := by
  induction hd with
  | nil => exact .cons ⟨rfl, hab⟩ .nil
  | @cons x y _ _ hxy hrest ih =>
    obtain ⟨⟨_, v⟩, ⟨_, v'⟩⟩ := x, y
    obtain ⟨rfl, hv⟩ := hxy
    rw [Dict.put, Dict.put]
    split
    · exact .cons ⟨rfl, hab⟩ hrest
    · exact .cons ⟨rfl, hv⟩ ih

end Dict.Rel

end

/-! ## Indexes -/

section
variable [DecidableEq κ] {S : α → β → Prop}

/-- Related dictionaries of two indexes stay related if one of the index gets related entries. -/
theorem Dict.rel_adjust {d : Dict κ (Dict String α)} {e : Dict κ (Dict String β)} {k : κ}
    (h : Option.Rel (Dict.Rel S) (find? k d) (find? k e)) (l : κ) (name : String) {a : α} {b : β}
    (hab : S a b) : Option.Rel (Dict.Rel S) (find? k (adjust l [] (put name a) d))
      (find? k (adjust l [] (put name b) e)) := by
  rw [adjust, adjust, find?_put, find?_put]
  split
  · next hlk =>
    subst hlk
    generalize find? l d = x at h ⊢
    generalize find? l e = y at h ⊢
    cases h with
    | none => exact .some (Dict.Rel.nil.put name hab)
    | some hxy => exact .some (hxy.put name hab)
  · exact h

/-- Related values of two indexes stay related if the indexes get related values. -/
theorem Dict.rel_putNew {d : Dict κ α} {e : Dict κ β} {k : κ}
    (h : Option.Rel S (find? k d) (find? k e)) (l : κ) {a : α} {b : β} (hab : S a b) :
    Option.Rel S (find? k (putNew l a d)) (find? k (putNew l b e)) := by
  rw [find?_putNew, find?_putNew]
  generalize find? k d = x at h ⊢
  generalize find? k e = y at h ⊢
  cases h with
  | some hxy => exact .some hxy
  | none =>
    rw [Option.none_or, Option.none_or]
    split
    · exact .some hab
    · exact .none

end

/-! ## Values with numbers of shapes -/

section
variable (R : ShapeId → ShapeId → Prop)

/-- The same annotation with related types. -/
structure AnnotationUse.Rel (a b : AnnotationUse) : Prop where
  rest : b = { a with definedBy := b.definedBy }
  definedBy : Option.Rel R a.definedBy b.definedBy

/-- The same example with related annotations. -/
structure Example.Rel (a b : Example) : Prop where
  rest : b = { a with annotations := b.annotations }
  annotations : Dict.Rel (AnnotationUse.Rel R) a.annotations b.annotations

/-- Bodies with the same facets and related items, properties and members. -/
inductive Body.Rel : Body → Body → Prop
  | object (f : ObjectFacets) {ps : Dict String ShapeId} (properties : Dict.Rel R f.properties ps) :
      Body.Rel (.object f) (.object { f with properties := ps })
  | array (f : ArrayFacets) {i : Option ShapeId} (items : Option.Rel R f.items i) :
      Body.Rel (.array f) (.array { f with items := i })
  | union {ms ns : List ShapeId} (members : List.Forall₂ R ms ns) : Body.Rel (.union ms) (.union ns)
  | any : Body.Rel .any .any
  | nil : Body.Rel .nil .nil
  | string (f : StringFacets) : Body.Rel (.string f) (.string f)
  | integer (f : NumberFacets) : Body.Rel (.integer f) (.integer f)
  | number (f : NumberFacets) : Body.Rel (.number f) (.number f)
  | boolean (values : Option (List Node)) : Body.Rel (.boolean values) (.boolean values)
  | datetime (format : Option String) : Body.Rel (.datetime format) (.datetime format)
  | datetimeOnly : Body.Rel .datetimeOnly .datetimeOnly
  | dateOnly : Body.Rel .dateOnly .dateOnly
  | timeOnly : Body.Rel .timeOnly .timeOnly
  | file (f : FileFacets) : Body.Rel (.file f) (.file f)
  | json (schema : String) : Body.Rel (.json schema) (.json schema)
  | unknown (p : Pending) : Body.Rel (.unknown p) (.unknown p)

/-- Shapes that differ in their own numbers and hold related numbers. -/
structure Shape.Rel (a b : Shape) : Prop where
  rest : b = { a with
    id := b.id, inherits := b.inherits, examples := b.examples,
    facetDefinitions := b.facetDefinitions, annotations := b.annotations, body := b.body }
  inherits : List.Forall₂ R a.inherits b.inherits
  examples : List.Forall₂ (Example.Rel R) a.examples b.examples
  facetDefinitions : Dict.Rel R a.facetDefinitions b.facetDefinitions
  annotations : Dict.Rel (AnnotationUse.Rel R) a.annotations b.annotations
  body : a.body.Rel R b.body

/-- The same library with related types, and annotations related by `A`. -/
structure Library.Rel (A : AnnotationUse → AnnotationUse → Prop) (a b : Library) : Prop where
  rest : b = { a with
    types := b.types, annotationTypes := b.annotationTypes, annotations := b.annotations }
  types : Dict.Rel R a.types b.types
  annotationTypes : Dict.Rel R a.annotationTypes b.annotationTypes
  annotations : Dict.Rel A a.annotations b.annotations

/-- The same data type with related shapes. -/
structure DataType.Rel (a b : DataType) : Prop where
  rest : b = { a with shape := b.shape }
  shape : R a.shape b.shape

/-- Fragments of the same kind that are related. -/
inductive Fragment.Rel (A : AnnotationUse → AnnotationUse → Prop) : Fragment → Fragment → Prop
  | library {l m : Library} (h : l.Rel R A m) : Fragment.Rel A (.library l) (.library m)
  | dataType {d e : DataType} (h : d.Rel R e) : Fragment.Rel A (.dataType d) (.dataType e)

/-- Resolutions with the same custom facets and related shapes. -/
structure Resolution.Rel (a b : Resolution) : Prop where
  body : a.body.Rel R b.body
  inherits : List.Forall₂ R a.inherits b.inherits
  customFacets : b.customFacets = a.customFacets
  nested : List.Forall₂ R a.nested b.nested

end

/-! ## Weaker relations -/

section
variable {R T : ShapeId → ShapeId → Prop} (hR : ∀ i j, R i j → T i j)
include hR

/-- Uses of annotations stay related when the relation of numbers grows. -/
theorem AnnotationUse.Rel.mono {a b : AnnotationUse} (h : a.Rel R b) : a.Rel T b :=
  ⟨h.rest, h.definedBy.imp hR⟩

/-- Examples stay related when the relation of numbers grows. -/
theorem Example.Rel.mono {a b : Example} (h : a.Rel R b) : a.Rel T b :=
  ⟨h.rest, h.annotations.mono fun _ _ => AnnotationUse.Rel.mono hR⟩

/-- Bodies stay related when the relation of numbers grows. -/
theorem Body.Rel.mono {a b : Body} (h : a.Rel R b) : a.Rel T b := by
  cases h with
  | object f properties => exact .object f (properties.mono hR)
  | array f items => exact .array f (items.imp hR)
  | union members => exact .union (members.imp hR)
  | _ => constructor

/-- Shapes stay related when the relation of numbers grows. -/
theorem Shape.Rel.mono {a b : Shape} (h : a.Rel R b) : a.Rel T b where
  rest := h.rest
  inherits := h.inherits.imp hR
  examples := h.examples.imp fun _ _ => Example.Rel.mono hR
  facetDefinitions := h.facetDefinitions.mono hR
  annotations := h.annotations.mono fun _ _ => AnnotationUse.Rel.mono hR
  body := h.body.mono hR

/-- Data types stay related when the relation of numbers grows. -/
theorem DataType.Rel.mono {a b : DataType} (h : a.Rel R b) : a.Rel T b :=
  ⟨h.rest, hR _ _ h.shape⟩

/-- Libraries stay related when the relations of numbers and of annotations grow. -/
theorem Library.Rel.mono {A B : AnnotationUse → AnnotationUse → Prop} (hA : ∀ a b, A a b → B a b)
    {a b : Library} (h : a.Rel R A b) : a.Rel T B b :=
  ⟨h.rest, h.types.mono hR, h.annotationTypes.mono hR, h.annotations.mono hA⟩

/-- Fragments stay related when the relations of numbers and of annotations grow. -/
theorem Fragment.Rel.mono {A B : AnnotationUse → AnnotationUse → Prop} (hA : ∀ a b, A a b → B a b)
    {f g : Fragment} (h : f.Rel R A g) : f.Rel T B g := by
  cases h with
  | library h => exact .library (h.mono hR hA)
  | dataType h => exact .dataType (h.mono hR)

end

/-! ## Values related by equality -/

section

/-- Dictionaries with equal values are equal. -/
theorem Dict.Rel.eq {S : α → α → Prop} (hS : ∀ a b, S a b → a = b) {d e : Dict κ α}
    (h : Dict.Rel S d e) : d = e := by
  induction h with
  | nil => rfl
  | cons hab _ ih => rw [Prod.ext hab.1 (hS _ _ hab.2), ih]

/-- Lists of equal values are equal. -/
theorem eq_of_forall₂ {S : α → α → Prop} (hS : ∀ a b, S a b → a = b) {l m : List α}
    (h : List.Forall₂ S l m) : l = m := by
  induction h with
  | nil => rfl
  | cons hab _ ih => rw [hS _ _ hab, ih]

/-- Optional values that are related by an equality are equal. -/
theorem eq_of_optionRel {S : α → α → Prop} (hS : ∀ a b, S a b → a = b) {o p : Option α}
    (h : Option.Rel S o p) : o = p := by
  cases h with
  | none => rfl
  | some hab => rw [hS _ _ hab]

variable {R : ShapeId → ShapeId → Prop} (hR : ∀ i j, R i j → i = j)
include hR

/-- Uses of annotations that are related by an equality of numbers are equal. -/
theorem AnnotationUse.Rel.eq {a b : AnnotationUse} (h : a.Rel R b) : a = b := by
  rw [h.rest, ← eq_of_optionRel hR h.definedBy]

/-- Examples that are related by an equality of numbers are equal. -/
theorem Example.Rel.eq {a b : Example} (h : a.Rel R b) : a = b := by
  rw [h.rest, ← h.annotations.eq fun _ _ => AnnotationUse.Rel.eq hR]

/-- Bodies that are related by an equality of numbers are equal. -/
theorem Body.Rel.eq {a b : Body} (h : a.Rel R b) : a = b := by
  cases h with
  | object f properties => rw [← properties.eq hR]
  | array f items => rw [← eq_of_optionRel hR items]
  | union members => rw [eq_of_forall₂ hR members]
  | _ => rfl

/-- Shapes with equal contents are equal but for their own numbers. -/
theorem Shape.Rel.eq {a b : Shape} (h : a.Rel R b) : b = { a with id := b.id } := by
  rw [h.rest, ← eq_of_forall₂ hR h.inherits, ← eq_of_forall₂ (fun _ _ => Example.Rel.eq hR) h.examples,
    ← h.facetDefinitions.eq hR, ← h.annotations.eq fun _ _ => AnnotationUse.Rel.eq hR, ← h.body.eq hR]

/-- Data types that are related by an equality of numbers are equal. -/
theorem DataType.Rel.eq {a b : DataType} (h : a.Rel R b) : a = b := by
  rw [h.rest, ← hR _ _ h.shape]

/-- Libraries that are related by equalities are equal. -/
theorem Library.Rel.eq {A : AnnotationUse → AnnotationUse → Prop} (hA : ∀ a b, A a b → a = b)
    {a b : Library} (h : a.Rel R A b) : a = b := by
  rw [h.rest, ← h.types.eq hR, ← h.annotationTypes.eq hR, ← h.annotations.eq hA]

/-- Fragments that are related by equalities are equal. -/
theorem Fragment.Rel.eq {A : AnnotationUse → AnnotationUse → Prop} (hA : ∀ a b, A a b → a = b)
    {f g : Fragment} (h : f.Rel R A g) : f = g := by
  cases h with
  | library h => rw [h.eq hR hA]
  | dataType h => rw [h.eq hR]

/-- Results of resolutions that are related by an equality of numbers are equal. -/
theorem Resolution.Rel.eq {a b : Resolution} (h : a.Rel R b) : a = b := by
  obtain ⟨⟩ := a
  obtain ⟨⟩ := b
  cases h.body.eq hR
  cases eq_of_forall₂ hR h.inherits
  cases h.customFacets
  cases eq_of_forall₂ hR h.nested
  rfl

end

/-! ## What related values have in common -/

section
variable {R : ShapeId → ShapeId → Prop}

/-- Related bodies have one kind. -/
theorem Body.Rel.kind {a b : Body} (h : a.Rel R b) : b.kind = a.kind := by
  cases h <;> rfl

/-- Related bodies wait with one declaration, or neither of them waits. -/
theorem Body.Rel.pending {a b : Body} (h : a.Rel R b) : b.pending? = a.pending? := by
  cases h <;> rfl

/-- A body without facets is related to itself. -/
theorem Body.Rel.empty {k : Kind} {b : Body} (h : Body.empty? k = some b) : b.Rel R b := by
  cases k <;> cases h
  case object => exact .object _ .nil
  case array => exact .array _ .none
  case union => exact .union .nil
  all_goals constructor

/-- The body of a kind without facets has no numbers, so that it is related to itself. -/
theorem Body.Rel.emptyD (k : Kind) : ((Body.empty? k).getD .any).Rel R ((Body.empty? k).getD .any) := by
  rcases h : Body.empty? k with _ | b
  · exact .any
  · exact .empty h

/-- Related bodies stay related without their facets. -/
theorem Body.Rel.blank {a b : Body} (h : a.Rel R b) : a.blank.Rel R b.blank := by
  rw [Body.blank, Body.blank, h.kind]
  rcases he : Body.empty? a.kind with _ | c
  · exact h
  · exact .empty he

/-- Related bodies have related items. -/
theorem Body.Rel.items {a b : Body} (h : a.Rel R b) : Option.Rel R a.items? b.items? := by
  cases h
  case array items => exact items
  all_goals exact .none

/-- Related bodies have related properties. -/
theorem Body.Rel.properties {a b : Body} (h : a.Rel R b) : Dict.Rel R a.properties b.properties := by
  cases h
  case object properties => exact properties
  all_goals exact .nil

/-- Related bodies have related members. -/
theorem Body.Rel.members {a b : Body} (h : a.Rel R b) : List.Forall₂ R a.members b.members := by
  cases h
  case union members => exact members
  all_goals exact .nil

/-- Where the file has the same aliases, the same annotation has the same library and the same name
there, or the same fault. -/
theorem AnnotationUse.target_congr {s t : Store} {path : Path} {a b : AnnotationUse}
    (huses : Dict.find? path.key t.uses = Dict.find? path.key s.uses) (hab : a.Rel R b) :
    b.target path t = a.target path s := by
  rw [target, target, Store.usesOf?, Store.usesOf?, huses, hab.rest]

/-- Related fragments have one location. -/
theorem Fragment.Rel.location {A : AnnotationUse → AnnotationUse → Prop} {f g : Fragment}
    (h : f.Rel R A g) : g.location = f.location := by
  cases h with
  | library h => rw [Fragment.location, Fragment.location, h.rest]
  | dataType h => rw [Fragment.location, Fragment.location, h.rest]

namespace Shape.Rel

variable {a b : Shape} (h : a.Rel R b)
include h

/-- Related shapes have one name. -/
theorem name : b.name = a.name := by rw [h.rest]

/-- Related shapes are declared in one file. -/
theorem location : b.location = a.location := by rw [h.rest]

/-- Related shapes are declared at one position. -/
theorem mark : b.mark = a.mark := by rw [h.rest]

/-- Related shapes include one file, or neither of them includes one. -/
theorem link : b.link = a.link := by rw [h.rest]

/-- Related shapes are both resolved, or neither of them is. -/
theorem isUnknown : b.isUnknown = a.isUnknown := by
  rw [Shape.isUnknown, Shape.isUnknown, h.body.pending]

/-- Their own numbers do not matter. -/
theorem setIds (i j : ShapeId) : Shape.Rel R { a with id := i } { b with id := j } :=
  { h with rest := congrArg (fun x : Shape => { x with id := j }) h.rest }

end Shape.Rel

/-! ## Stores with related values -/

namespace Store

variable {A : AnnotationUse → AnnotationUse → Prop} {s t : Store} {p : Path} {k : PathKey}

/-- A name denotes shapes with related numbers if the files declare related names, or if they are
related data types with the same name. -/
theorem lookup_rel (hs : (s.normalize p).key = k) (ht : (t.normalize p).key = k)
    (named : Option.Rel (Dict.Rel R) (Dict.find? k s.named) (Dict.find? k t.named))
    (fragments : Option.Rel (Fragment.Rel R A) (Dict.find? k s.fragments) (Dict.find? k t.fragments))
    (names : ∀ d e : DataType, Dict.find? k s.fragments = some (.dataType d) →
      Dict.find? k t.fragments = some (.dataType e) → R d.shape e.shape →
      t.nameOf? e.shape = s.nameOf? d.shape) (name : String) :
    Option.Rel R (s.lookup? p name) (t.lookup? p name) := by
  have hnamed := Dict.Rel.bind_find? named name
  rw [lookup?, lookup?, hs, ht]
  generalize (Dict.find? k s.named).bind (Dict.find? name) = x at hnamed ⊢
  generalize (Dict.find? k t.named).bind (Dict.find? name) = y at hnamed ⊢
  cases hnamed with
  | some hij => exact .some hij
  | none =>
    generalize Dict.find? k s.fragments = f at fragments names ⊢
    generalize Dict.find? k t.fragments = g at fragments names ⊢
    cases fragments with
    | none => exact .none
    | some hfg =>
      cases hfg with
      | library => exact .none
      | dataType hd =>
        dsimp only
        rw [names _ _ rfl rfl hd.shape]
        split
        · exact .some hd.shape
        · exact .none

/-- So the number that a name denotes is related to itself if all numbers in the indexes are. -/
theorem rel_of_lookup (named : ∀ k d, Dict.find? k s.named = some d → Dict.Rel R d d)
    (fragments : ∀ k f, Dict.find? k s.fragments = some f → f.Rel R A f) {name : String} {i : ShapeId}
    (h : s.lookup? p name = some i) : R i i := by
  have hrel : Option.Rel R (s.lookup? p name) (s.lookup? p name) := by
    refine lookup_rel rfl rfl (.refl_of_mem (named _)) (.refl_of_mem (fragments _))
      (fun d e hd he _ => ?_) name
    cases hd.symm.trans he
    rfl
  rw [h] at hrel
  exact Option.rel_some_some.1 hrel

/-- Shapes with the same names and kinds have the same list of kinds. -/
theorem kinds_congr (h : ∀ i j, R i j → ∃ a b, s.shapes[i]? = some a ∧ t.shapes[j]? = some b ∧
    b.name = a.name ∧ b.kind = a.kind) {is js : List ShapeId} (hij : List.Forall₂ R is js) :
    Resolution.kinds t js = Resolution.kinds s is := by
  rw [Resolution.kinds, Resolution.kinds]
  induction hij with
  | nil => rfl
  | cons hij _ ih =>
    obtain ⟨a, b, ha, hb, hname, hkind⟩ := h _ _ hij
    rw [List.filterMap_cons, List.filterMap_cons, ha, hb, ih, Option.map_some, Option.map_some, hname,
      hkind]

end Store

end

end RamlTypes
