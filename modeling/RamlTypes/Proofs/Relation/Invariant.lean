import RamlTypes.Proofs.EndsIn
import RamlTypes.Proofs.Relation.Annotations

/-!
# Invariants of loading

What every change of the store keeps that loading makes holds after each load. A load is compared
with itself for that (`KeptByLoading.loads`), so the functions of the loader are not walked through
again. Where a load stops, less may hold than while it goes on, so there are two properties in
general (`withInvariants`).
-/

namespace RamlTypes

/-! ## Values are related to themselves -/

section
variable {κ α : Type}

/-- An optional value is related to itself if all values are. -/
theorem Option.Rel.same {S : α → α → Prop} (hS : ∀ a, S a a) (o : Option α) : Option.Rel S o o :=
  .refl_of_mem fun a _ => hS a

/-- A dictionary is related to itself if all values are. -/
theorem Dict.Rel.same {S : α → α → Prop} (hS : ∀ a, S a a) (d : Dict κ α) : Dict.Rel S d d :=
  List.forall₂_same.2 fun _ _ => ⟨rfl, hS _⟩

/-- A use of an annotation is related to itself. -/
theorem AnnotationUse.Rel.same (a : AnnotationUse) : a.Rel Eq a :=
  ⟨rfl, Option.Rel.same Eq.refl _⟩

/-- A body is related to itself. -/
theorem Body.Rel.same (b : Body) : b.Rel Eq b := by
  cases b with
  | object f => exact .object f (.same Eq.refl _)
  | array f => exact .array f (Option.Rel.same Eq.refl _)
  | union members => exact .union (List.forall₂_same.2 fun _ _ => rfl)
  | _ => constructor

/-- An example is related to itself. -/
theorem Example.Rel.same (e : Example) : e.Rel Eq e := ⟨rfl, .same AnnotationUse.Rel.same _⟩

/-- A shape is related to itself. -/
theorem Shape.Rel.same (a : Shape) : a.Rel Eq a where
  rest := rfl
  inherits := List.forall₂_same.2 fun _ _ => rfl
  examples := List.forall₂_same.2 fun e _ => .same e
  facetDefinitions := .same Eq.refl _
  annotations := .same AnnotationUse.Rel.same _
  body := .same _

/-- A fragment is related to itself. -/
theorem Fragment.Rel.same (f : Fragment) : f.Rel Eq Eq f := by
  cases f with
  | library l => exact .library ⟨rfl, .same Eq.refl _, .same Eq.refl _, .same Eq.refl _⟩
  | dataType d => exact .dataType ⟨rfl, rfl⟩

end

namespace Store

/-- The changes that are made to a store while a declaration is read keep the property `I`. -/
structure KeptByDeclaring (I : Store → Prop) : Prop where
  report {s} (d : Diagnostic) : d.finding ≠ .annotationUnbound → I s → I (s.report d)
  addShape {s} (a : Shape) : a.IsNew (fun _ => True) → I s → I (s.addShape a)
  makeOptional {s} (i : ShapeId) : I s → I (s.mapShape i Shape.optional)

/-- The changes that are made to a store while the annotations of shapes are bound keep the property
`I`. -/
structure KeptByBinding (I : Store → Prop) : Prop where
  reportUnbound {s} (subject name : String) : I s → I (s.report (.annotationUnbound subject name))
  writeAnnotations {s} (i : ShapeId) (d : Dict String AnnotationUse) (xs : List Example) :
    I s → I (s.mapShape i fun a => { a with annotations := d, examples := xs })
  markBound {s} : I s → I { s with annotationsBound := s.shapes.size }

/-- The changes that are made to a store while a file is read keep the property `I`. -/
structure KeptByReading (I : Store → Prop) : Prop extends KeptByDeclaring I where
  reportUnbound {s} (subject name : String) : I s → I (s.report (.annotationUnbound subject name))
  declareUse {s} (p : Path) (name : String) (library : Path) : I s → I (s.declareUse p name library)
  declareType {s} (p : Path) (name : String) (i : ShapeId) : I s → I (s.declareType p name i)
  declareAnnotationType {s} (p : Path) (name : String) (i : ShapeId) :
    I s → I (s.declareAnnotationType p name i)

/-- The changes that loading makes to a store keep the property `I`. -/
structure KeptByFetching (I : Store → Prop) : Prop extends KeptByReading I where
  countRead {s} (purpose : Purpose) (p : Path) : I s → I (s.countRead purpose p)
  cacheExample {s} (p : Path) (e : ExampleFile) : I s → I (s.cacheExample p e)
  beginLoading {s} (p : Path) : I s → I (s.beginLoading p)
  endLoading {s} (p : Path) : I s → I (s.endLoading p)
  cacheFragment {s} (f : Fragment) : I s → I (s.cacheFragment f)

/-- Loads keep the property `J`, and leave a store with the property `E` where they stop. -/
structure KeptByLoads (J E : Store → Prop) : Prop where
  loadExample (p : Path) {s : Store} : J s → (loadExample p).EndsIn s (fun _ => J) E
  fragment (p : Path) {s : Store} : J s → (Load.fragment p).EndsIn s (fun _ => J) E
  library (p : Path) {s : Store} : J s → (Load.library p).EndsIn s (fun _ => J) E
  dataType (p : Path) {s : Store} : J s → (Load.dataType p).EndsIn s (fun _ => J) E
  declare (p : Path) (name : String) (node : Node) {s : Store} : J s →
    (Load.declare p name node).EndsIn s (fun _ => J) E

/-- The changes that loading and the binding of annotations make to a store keep the property
`I`. -/
structure KeptByLoading (I : Store → Prop) : Prop extends KeptByFetching I, KeptByBinding I

/-- A run as it is. While it goes on the store has the property `J`, and where it stops `E`. The
paths that an alias or an include stands for have the property `target`. -/
def withInvariants (J E : Store → Prop) (target : Path → Prop) (hJE : ∀ s, J s → E s) :
    Comparison where
  World := Unit
  order :=
    { le _ _ := True
      lt _ _ := False
      le_refl _ := trivial
      le_trans _ _ _ _ _ := trivial
      lt_iff_le_not_ge _ _ := ⟨False.elim, fun h => h.2 trivial⟩ }
  stores _ s t := s = t ∧ J s
  stopped _ s t := s = t ∧ E s
  final _ := True
  excused _ := False
  ignored _ := False
  ids _ := Eq
  fresh _ := Eq
  done _ _ _ := False
  begun _ _ := True
  target := target
  linked _ _ := True
  bound _ := Eq
  stopped_of_stores _ h := ⟨h.1, hJE _ h.2⟩
  stopped_fault h := h
  final_of_grows _ _ := trivial
  excused_fault h := h
  ignored_fault h := h
  ids_mono _ h := h
  fresh_mono _ h := h
  done_mono _ h := h
  begun_mono _ h := h
  linked_mono _ h := h
  bound_mono _ h := h
  ids_of_fresh h := h
  bound_of_rel h := h.eq fun _ _ h => h

/-- A run as it is, in stores with the property `I`. -/
abbrev withInvariant (I : Store → Prop) : Comparison :=
  withInvariants I I (fun _ => True) fun _ h => h

section
variable {α : Type} {J E : Store → Prop} {target : Path → Prop} {hJE : ∀ s, J s → E s} {s : Store}

/-- A run that obeys the laws of comparison keeps the properties. -/
theorem endsIn_of_agree {x : Load α} {Q : Unit → α → α → Prop}
    (hx : (withInvariants J E target hJE).Agree () x x Q) (hs : J s) :
    x.EndsIn s (fun a t => J t ∧ Q () a a) E := by
  have h := hx s s ⟨rfl, hs⟩ trivial
  rcases hr : x s with ⟨e | a, t⟩
  · rw [hr] at h
    cases h with
    | error _ stopped => exact .of_run_error hr stopped.2
    | excusedLeft h => exact h.elim
    | ignoredRight h => exact h.elim
  · rw [hr] at h
    cases h with
    | ok _ stores result => exact .of_run_ok hr ⟨stores.2, result⟩

/-- A load that agrees with itself keeps the properties. -/
theorem keeps_of_agree {x : Load α} {Q : Unit → α → α → Prop}
    (hx : (withInvariants J E target hJE).Agree () x x Q) (hs : J s) :
    x.EndsIn s (fun _ => J) E :=
  (endsIn_of_agree hx hs).imp (fun _ _ h => h.1) fun _ h => h

/-- A run that keeps the properties obeys the laws of comparison. -/
theorem agree_of_endsIn {x : Load α} {Q : Unit → α → α → Prop}
    (hx : ∀ s, J s → x.EndsIn s (fun a t => J t ∧ Q () a a) E) :
    (withInvariants J E target hJE).Agree () x x Q := by
  rintro s _ ⟨rfl, hs⟩ -
  rcases hr : x s with ⟨e | a, t⟩
  · exact .error e ⟨rfl, (hx s hs).of_error hr⟩
  · obtain ⟨ht, hq⟩ := (hx s hs).of_ok hr
    exact .ok trivial ⟨rfl, ht⟩ hq

/-- A run that obeys the laws of comparison keeps the property. -/
theorem holds_of_agree {I : Store → Prop} {x : Load α} {Q : Unit → α → α → Prop}
    (hx : (withInvariant I).Agree () x x Q) (hs : I s) : I (x s).2 :=
  (keeps_of_agree hx hs).holds

/-- A change that keeps the property. -/
theorem agree_change {f : Store → Store} {hf : ∀ s : Store, s.Grows (f s)} (hJ : ∀ {s}, J s → J (f s)) :
    (withInvariants J E target hJE).Agree () (Load.change f hf) (Load.change f hf)
      fun _ _ _ => True := by
  refine .change () le_rfl ?_ trivial
  rintro s _ ⟨rfl, hs⟩
  exact ⟨rfl, hJ hs⟩

/-- Both sides of a run see the same. -/
theorem agree_see {β : Type} {f : Store → α} {k : α → Load β} {Q : Unit → β → β → Prop}
    (hk : ∀ a, (withInvariants J E target hJE).Agree () (k a) (k a) Q) :
    (withInvariants J E target hJE).Agree () (Load.ask f >>= k) (Load.ask f >>= k) Q := by
  refine .see (P := fun _ => True) ?_ fun a _ => hk a
  rintro s _ ⟨rfl, _⟩
  exact ⟨rfl, trivial⟩

/-- Loading an example keeps the properties if counting its file and caching it do. -/
theorem endsIn_loadExample (hJE : ∀ s, J s → E s) (p : Path)
    (countRead : ∀ {s}, J s → J (s.countRead .exampleFile p))
    (cacheExample : ∀ {s} (e : ExampleFile), J s → J (s.cacheExample p e)) (hs : J s) :
    (loadExample p).EndsIn s (fun _ => J) E := by
  refine .ask ?_
  cases Dict.find? p.key s.examples with
  | some e => exact .pure hs
  | none =>
    have hread : (Load.readFile .exampleFile p).EndsIn s (fun _ => J) E := by
      refine .change (.ask ?_)
      split
      · exact .pure (countRead hs)
      · exact .stop (hJE _ (countRead hs))
    refine hread.bind fun text t ht => .check (hJE t ht) fun e _ => ?_
    exact .change (.pure (cacheExample e ht))

section
variable (reportUnbound : ∀ {s : Store} (subject name : String), J s →
  J (s.report (.annotationUnbound subject name)))
include reportUnbound

/-- An annotation that cannot be bound is reported. -/
theorem agree_bind (path : Path) (a : AnnotationUse) :
    (withInvariants J E target hJE).Agree () (a.bind path) (a.bind path) fun _ => Checked Eq := by
  unfold AnnotationUse.bind
  split
  · exact .pure (.ok rfl)
  · refine agree_see fun r => ?_
    rcases r with f | (_ | id)
    · exact .pure (.error f)
    · exact .bind (agree_change (reportUnbound _ _)) fun _ _ _ _ _ => .pure (.ok rfl)
    · exact .pure (.ok rfl)

end

/-- Evaluating a declaration keeps the properties if loading does. -/
theorem evaluates_of_declares {o : Owner} (hd : (withInvariants J E target hJE).Declares o.location)
    (declare : ∀ name node, (withInvariants J E target hJE).Agree ()
      (Load.declare o.location name node) (Load.declare o.location name node) fun _ => Eq)
    (dataType : ∀ p, (withInvariants J E target hJE).Agree () (Load.dataType p) (Load.dataType p)
      fun _ a b => a.shape = b.shape) : (withInvariants J E target hJE).Evaluates o where
  toDeclares := hd
  declare _ name node _ := declare name node
  lookup _ library name _ := by
    refine agree_see fun found => ?_
    cases found with
    | none => exact .fail _
    | some id => exact .pure rfl
  dataType _ p _ _ := dataType p
  body _ hdone := hdone.elim
  kinds := by
    rintro _ s _ is js ⟨rfl, _⟩ hdone
    cases hdone with
    | nil => rfl
    | cons hij _ => exact hij.elim

end

open Comparison

section
variable {J E : Store → Prop} {target : Path → Prop} {hJE : ∀ s, J s → E s}

namespace KeptByDeclaring

variable (h : KeptByDeclaring J)
include h

variable (htarget : ∀ {s : Store} (p : Path) (text : String), J s → target (s.follow p text))
  (hexample : ∀ p, (withInvariants J E target hJE).Agree () (loadExample p) (loadExample p)
    fun _ a b => a = b)
include htarget hexample

/-- Reading a declaration keeps the properties if the changes do that it makes. -/
theorem declares (path : Path) : (withInvariants J E target hJE).Declares path where
  settings := by
    rintro _ s _ ⟨rfl, _⟩
    rfl
  target := by
    rintro _ s _ text ⟨rfl, hs⟩
    exact htarget path text hs
  report _ d hd := agree_change (h.report d hd)
  makeOptional := by
    rintro _ i _ rfl
    exact agree_change (h.makeOptional i)
  addShape := by
    rintro _ a b - hab hnew -
    have hb := hab.eq fun _ _ h => h
    rintro s _ ⟨rfl, hs⟩ -
    have heq : s.addShape b = s.addShape a := by
      rw [hb]
      rfl
    rw [Load.addShape_apply, Load.addShape_apply, heq]
    exact .ok le_rfl ⟨rfl, h.addShape a hnew hs⟩ rfl
  loadExample _ p _ := hexample p

omit htarget hexample in
/-- Evaluating a declaration keeps the properties if loads do. -/
theorem evaluates {hJE : ∀ s, J s → E s} (hloads : KeptByLoads J E) (o : Owner) :
    (withInvariants J E (fun _ => True) hJE).Evaluates o := by
  have same {α β : Type} {x : Load α} (y : α → β)
      (hx : ∀ s, J s → x.EndsIn s (fun _ => J) E) :
      (withInvariants J E (fun _ => True) hJE).Agree () x x fun _ a c => y a = y c :=
    agree_of_endsIn fun s hs => (hx s hs).imp (fun _ _ ht => ⟨ht, rfl⟩) fun _ ht => ht
  exact evaluates_of_declares
    (h.declares (fun _ _ _ => trivial) (fun p => same id fun _ => hloads.loadExample p) o.location)
    (fun name node => same id fun _ => hloads.declare o.location name node)
    fun p => same DataType.shape fun _ => hloads.dataType p

end KeptByDeclaring

namespace KeptByBinding

variable (h : KeptByBinding J)
include h

/-- Binding annotations keeps the properties if a written shape and a report do. -/
theorem binds : (withInvariants J E target hJE).Binds where
  bind _ path a b _ hab := by
    obtain rfl := hab.eq fun _ _ h => h
    refine (agree_bind h.reportUnbound path a).imp fun _ _ _ _ hr => ?_
    cases hr with
    | ok hr =>
      cases hr
      exact .ok (.same _)
    | error f => exact .error f
  write := by
    rintro _ i _ d e xs ys rfl hd hx
    obtain rfl := hd.eq fun _ _ => AnnotationUse.Rel.eq fun _ _ h => h
    obtain rfl := eq_of_forall₂ (fun _ _ => Example.Rel.eq fun _ _ h => h) hx
    exact agree_change (h.writeAnnotations i d xs)

/-- Binding annotations keeps the properties. -/
theorem bindAnnotations (hJE : ∀ s, J s → E s) {s : Store} (hs : J s) :
    Load.bindAnnotations.EndsIn s (fun _ => J) E := by
  have hbind : (withInvariants J E (fun _ => True) hJE).Agree () Load.bindAnnotations
      Load.bindAnnotations fun _ _ _ => True := by
    refine agree_see fun unbound => ?_
    refine .bind (h.binds.bindShapes unbound () (List.forall₂_same.2 fun a _ => ?_)) ?_
    · exact ⟨.same a, rfl, trivial⟩
    · exact fun _ _ _ _ _ => agree_change h.markBound
  exact keeps_of_agree hbind hs

end KeptByBinding

/-- Reading the sections of a file keeps the properties if its notes do. -/
theorem KeptByReading.parses (h : KeptByReading J) {path : Path}
    (hd : (withInvariants J E target hJE).Declares path) :
    (withInvariants J E target hJE).Parses path where
  toDeclares := hd
  declareUse _ name p _ _ := agree_change (h.declareUse path name p)
  declareType := by
    rintro _ name i _ - rfl
    exact agree_change (h.declareType path name i)
  declareAnnotationType := by
    rintro _ name i _ - rfl
    exact agree_change (h.declareAnnotationType path name i)
  bind _ a _ _ := agree_bind h.reportUnbound path a

end

namespace KeptByFetching

variable {I : Store → Prop} (h : KeptByFetching I)
include h

/-- Reading a file keeps the property. -/
theorem readFile (purpose : Purpose) (p : Path) :
    (withInvariant I).Agree () (Load.readFile purpose p) (Load.readFile purpose p)
      fun _ a b => a = b := by
  refine .readFile ?_ ?_
  · rintro _ s _ ⟨rfl, _⟩
    rfl
  · rintro _ s _ ⟨rfl, hs⟩
    exact ⟨rfl, h.countRead purpose p hs⟩

/-- Loading an example file keeps the property. -/
theorem loadExample (p : Path) :
    (withInvariant I).Agree () (loadExample p) (loadExample p) fun _ a b => a = b := by
  refine .loadExample ?_ (h.readFile _ p) ?_
  · rintro _ s _ ⟨rfl, _⟩
    rfl
  · rintro _ s _ e ⟨rfl, hs⟩
    exact ⟨rfl, h.cacheExample p e hs⟩

/-- Reading a declaration keeps the property. -/
theorem declares (path : Path) : (withInvariant I).Declares path :=
  h.toKeptByReading.declares (fun _ _ _ => trivial) h.loadExample path

/-- Reading a file and caching its fragment. -/
theorem reading {α β : Type} (path : Path) (x : Load α) (y : Load β) (f : α → Fragment)
    (g : β → Fragment) (hxy : (withInvariant I).Agree () x y fun _ a b =>
      (withInvariant I).FragmentRel () (f a) (g b) ∧ (f a).location = path) :
    (withInvariant I).Agree () (Fragment.reading path x f) (Fragment.reading path y g)
      (withInvariant I).FragmentRel := by
  rintro s _ ⟨rfl, hs⟩ -
  have hr := hxy _ _ ⟨rfl, h.beginLoading path hs⟩ trivial
  rw [Fragment.reading, Fragment.reading, Load.bind_apply, Load.bind_apply, Load.whileLoading_apply,
    Load.whileLoading_apply]
  generalize x (s.beginLoading path) = r at hr ⊢
  generalize y (s.beginLoading path) = r' at hr ⊢
  cases hr with
  | @ok _ t _ a b _ hst hq =>
    obtain ⟨rfl, ht⟩ := hst
    have heq : g b = f a := (hq.1.eq (fun _ _ h => h) fun _ _ h => h).symm
    dsimp only
    rw [Load.cacheFragment_apply, Load.cacheFragment_apply, heq]
    exact .ok le_rfl ⟨rfl, h.cacheFragment _ (h.endLoading path ht)⟩ (.same _)
  | error _ stopped =>
    obtain ⟨rfl, ht⟩ := stopped
    exact .error _ ⟨rfl, h.endLoading path ht⟩
  | excusedLeft h => exact h.elim
  | ignoredRight h => exact h.elim

/-- Loading files keeps the property. -/
theorem loads : (withInvariant I).Loads fun _ => True where
  settings := by
    rintro _ s _ ⟨rfl, _⟩
    rfl
  files := by
    rintro _ s _ ⟨rfl, _⟩
    rfl
  parses path _ := h.toKeptByReading.parses (h.declares path)
  cached := by
    rintro _ s _ p ⟨rfl, _⟩
    rcases hf : Dict.find? (s.normalize p).key s.fragments with _ | f
    · exact .inl ⟨rfl, rfl⟩
    · exact .inr (.inl ⟨f, f, rfl, rfl, .same f⟩)
  readFile := by
    rintro _ s _ p ⟨rfl, hs⟩ - - -
    exact ((h.readFile _ _).imp fun _ _ _ _ hab => ⟨hab, trivial⟩) s s ⟨rfl, hs⟩ trivial
  reading _ path x y f g _ hxy := h.reading path x y f g (hxy () le_rfl trivial)
  loading := by
    rintro _ s _ p ⟨rfl, _⟩
    rfl
  linked_of_loading _ _ _ := trivial
  linked_of_cached _ _ _ _ := trivial

/-- A property that loading keeps is kept by loads of any files. -/
theorem keptByLoads : KeptByLoads I I where
  loadExample p _ hs := keeps_of_agree (h.loadExample p) hs
  fragment p _ hs := keeps_of_agree (h.loads.fragment () p) hs
  library p _ hs := by
    have hlibrary := h.loads.withLoaders () fun _ hl => h.loads.libraryWith hl () p
    exact keeps_of_agree hlibrary hs
  dataType p _ hs := keeps_of_agree (h.loads.dataType () p) hs
  declare p name node _ hs := by
    have hdeclare := h.loads.declare (h.declares p) () trivial name node
    exact keeps_of_agree hdeclare hs

/-- What an evaluation asks for keeps the property. -/
theorem evaluates (o : Owner) : (withInvariant I).Evaluates o :=
  h.toKeptByDeclaring.evaluates h.keptByLoads o

end KeptByFetching

end Store

end RamlTypes
