import RamlTypes.Proofs.Relation.Invariant

/-!
# Loads beside other shapes

The same load is made of two stores that differ by `k` shapes: one of them has these shapes after
its first `n`, the other one goes on with the number `n` at once. `Store.Beside` says how the two
stores correspond while the load goes on. It does the same in both, and the shapes that it stores
have numbers that are displaced by `k` (`beside_loads`). With `k = 0` the two stores are one, and the
comparison says that the load leaves alone the shapes that are there (`extends_of_agree`).

The bounds on the recursions may differ on both sides (`beside_buildLevels`), as a run that reaches
its bound is not compared.
-/

namespace RamlTypes

/-- The number of a shape once `k` shapes are put in after the first `n`. -/
def displace (n k j : Nat) : Nat := if j < n then j else j + k

/-- Numbers below the mark stay. -/
theorem displace_of_lt {n j : Nat} (h : j < n) (k : Nat) : displace n k j = j := if_pos h

/-- Numbers from the mark on move up. -/
theorem displace_of_le {n j : Nat} (h : n ≤ j) (k : Nat) : displace n k j = j + k :=
  if_neg (Nat.not_lt_of_le h)

/-- Moving by nothing leaves all numbers. -/
theorem displace_zero (n j : Nat) : displace n 0 j = j := by
  rw [displace, Nat.add_zero, ite_self]

/-- The store `t` has the shapes of `s`, as they are, and may have more. -/
structure Store.Extends (s t : Store) : Prop where
  grows : s.Grows t
  kept : ∀ i < s.shapes.size, t.shapes[i]? = s.shapes[i]?

namespace Store.Extends

variable {s m t : Store}

/-- A store extends itself. -/
theorem refl (s : Store) : s.Extends s := ⟨.refl s, fun _ _ => rfl⟩

/-- What extends an extension extends the store. -/
theorem trans (h : s.Extends m) (h' : m.Extends t) : s.Extends t where
  grows := h.grows.trans h'.grows
  kept i hi := (h'.kept i (Nat.lt_of_lt_of_le hi h.grows.size_le)).trans (h.kept i hi)

/-- A new shape may change. -/
theorem mapShape (h : s.Extends m) {i : ShapeId} (hi : s.shapes.size ≤ i) {f : Shape → Shape}
    (hf : m.Grows (m.mapShape i f)) : s.Extends (m.mapShape i f) where
  grows := h.grows.trans hf
  kept j hj := by
    rw [getElem?_mapShape, if_neg (Nat.ne_of_gt (Nat.lt_of_lt_of_le hj hi)), h.kept j hj]

/-- One more shape leaves alone those that there are. -/
theorem addShape (s : Store) (shape : Shape) : s.Extends (s.addShape shape) where
  grows := s.grows_addShape shape
  kept i hi := by rw [getElem?_addShape, if_neg (Nat.ne_of_lt hi)]

end Store.Extends

namespace Store

/-- The numbers of a shape with `k` more shapes after the first `n`, and without. -/
abbrev Displaced (n k : Nat) (i j : ShapeId) : Prop := i = displace n k j

/-- The numbers of a shape that was stored after the runs began. -/
abbrev StoredBeside (n k : Nat) (i j : ShapeId) : Prop := n ≤ j ∧ i = j + k

/-- A shape that is stored beside the old ones is displaced by as many. -/
theorem StoredBeside.displaced {n k : Nat} {i j : ShapeId} (h : StoredBeside n k i j) :
    Displaced n k i j :=
  h.2.trans (displace_of_le h.1 k).symm

/-- The store `s` is what `t` is, with `k` more shapes after the first `n`. The runs began with the
stores `u` and `b`. -/
structure Beside (n k : Nat) (u b s t : Store) : Prop where
  size : s.shapes.size = t.shapes.size + k
  size_le : n ≤ t.shapes.size
  old : ∀ i < n + k, s.shapes[i]? = u.shapes[i]?
  old' : ∀ j < n, t.shapes[j]? = b.shapes[j]?
  shapes : ∀ (j : ShapeId) (c : Shape), n ≤ j → t.shapes[j]? = some c →
    ∃ a, s.shapes[j + k]? = some a ∧ a.Rel (Displaced n k) c ∧ a.id = j + k ∧ c.id = j
  settings : t.settings = s.settings
  files : t.files = s.files
  files_eq : t.files = b.files
  loading : t.loading = s.loading
  examples : t.examples = s.examples
  uses : t.uses = s.uses
  fragments : ∀ key, Option.Rel (Fragment.Rel (Displaced n k) (AnnotationUse.Rel (Displaced n k)))
    (Dict.find? key s.fragments) (Dict.find? key t.fragments)
  annotationTypes : ∀ key, Option.Rel (Dict.Rel (Displaced n k))
    (Dict.find? key s.annotationTypes) (Dict.find? key t.annotationTypes)

/-- A store stands beside itself. -/
theorem beside_self (s : Store) : Beside s.shapes.size 0 s s s s := by
  have same : ∀ i j : ShapeId, i = j → Displaced s.shapes.size 0 i j :=
    fun i j h => h.trans (displace_zero _ j).symm
  exact
  { size := rfl
    size_le := Nat.le_refl _
    old := fun _ _ => rfl
    old' := fun _ _ => rfl
    shapes := fun j c hj hc => absurd (Array.getElem?_eq_some_iff.1 hc).1 (Nat.not_lt_of_le hj)
    settings := rfl
    files := rfl
    files_eq := rfl
    loading := rfl
    examples := rfl
    uses := rfl
    fragments := fun key => Option.Rel.same
      (fun f => (Fragment.Rel.same f).mono same fun _ _ h => h ▸ (AnnotationUse.Rel.same _).mono same) _
    annotationTypes := fun key => Option.Rel.same (fun d => (Dict.Rel.same Eq.refl d).mono same) _ }

/-- Loads of two stores that differ by `k` shapes. A run that reaches the bound on a recursion is not
compared; one that stops for another reason has left alone the shapes that there were. -/
def beside (n k : Nat) (u b : Store) : Comparison where
  World := Unit
  order :=
    { le _ _ := True
      lt _ _ := False
      le_refl _ := trivial
      le_trans _ _ _ _ _ := trivial
      lt_iff_le_not_ge := no_larger_world }
  stores _ := Beside n k u b
  stopped _ _ t := ∀ j < n, t.shapes[j]? = b.shapes[j]?
  final _ := True
  excused e := e = .exhausted
  ignored e := e = .exhausted
  ids _ := Displaced n k
  fresh _ := StoredBeside n k
  done _ _ _ := False
  begun _ _ := True
  target _ := True
  linked _ _ := True
  bound _ := AnnotationUse.Rel (Displaced n k)
  stopped_of_stores _ h := h.old'
  stopped_fault h := h
  final_of_grows _ _ := trivial
  excused_fault h := exhausted_of_fault h
  ignored_fault h := exhausted_of_fault h
  ids_mono _ h := h
  fresh_mono _ h := h
  done_mono _ h := h
  begun_mono _ h := h
  linked_mono _ h := h
  bound_mono _ h := h
  ids_of_fresh h := h.displaced
  bound_of_rel h := h

/-! ## Changes of both stores -/

namespace Beside

variable {n k : Nat} {u b s t : Store} (h : Beside n k u b s t)
include h

/-- Corresponding shapes are stored. -/
theorem addShape {a c : Shape} (hac : a.Rel (Displaced n k) c) :
    Beside n k u b (s.addShape a) (t.addShape c) :=
  { h with
    size := by
      show (s.shapes.push _).size = (t.shapes.push _).size + k
      rw [Array.size_push, Array.size_push, h.size, Nat.add_right_comm]
    size_le := Nat.le_trans h.size_le (t.grows_addShape c).size_le
    old := fun i hi => by
      have hlt : i < s.shapes.size := by
        rw [h.size]
        exact Nat.lt_of_lt_of_le hi (Nat.add_le_add_right h.size_le k)
      rw [getElem?_addShape, if_neg (Nat.ne_of_lt hlt), h.old i hi]
    old' := fun j hj => by
      have hlt : j < t.shapes.size := Nat.lt_of_lt_of_le hj h.size_le
      rw [getElem?_addShape, if_neg (Nat.ne_of_lt hlt), h.old' j hj]
    shapes := fun j d hj hd => by
      rw [getElem?_addShape] at hd ⊢
      split at hd
      · next hnew =>
        cases hd
        rw [if_pos (by rw [hnew, h.size])]
        exact ⟨_, rfl, hac.setIds _ _, by rw [hnew, h.size], hnew.symm⟩
      · next hold =>
        rw [if_neg (by rw [h.size]; exact fun he => hold (Nat.add_right_cancel he))]
        exact h.shapes j d hj hd }

/-- The next shapes have displaced numbers. -/
theorem storedBeside_next : StoredBeside n k s.shapes.size t.shapes.size :=
  ⟨h.size_le, h.size⟩

/-- Corresponding new shapes are made optional. -/
theorem makeOptional {i j : ShapeId} (hij : StoredBeside n k i j) :
    Beside n k u b (s.mapShape i Shape.optional) (t.mapShape j Shape.optional) := by
  obtain ⟨hj, rfl⟩ := hij
  exact
  { h with
    size := by rw [size_mapShape, size_mapShape, h.size]
    size_le := by
      rw [size_mapShape]
      exact h.size_le
    old := fun i hi => by
      have hne : ¬ j + k = i := by
        rintro rfl
        exact Nat.not_lt_of_le (Nat.add_le_add_right hj k) hi
      rw [getElem?_mapShape, if_neg hne, h.old i hi]
    old' := fun i hi => by
      rw [getElem?_mapShape, if_neg (Nat.ne_of_gt (Nat.lt_of_lt_of_le hi hj)), h.old' i hi]
    shapes := fun i d hi hd => by
      rw [getElem?_mapShape] at hd ⊢
      split at hd
      · next hji =>
        subst hji
        obtain ⟨c, hc, rfl⟩ := Option.map_eq_some_iff.1 hd
        obtain ⟨a, ha, hrel, hid, hid'⟩ := h.shapes j c hj hc
        rw [if_pos rfl, ha]
        refine ⟨a.optional, rfl, ?_, hid, hid'⟩
        exact { hrel with rest := congrArg (fun x : Shape => x.optional) hrel.rest }
      · next hji =>
        rw [if_neg fun he => hji (Nat.add_right_cancel he)]
        exact h.shapes i d hi hd }

/-- Noting an annotation type keeps the stores beside each other. -/
theorem declareAnnotationType (p : Path) (name : String) {i j : ShapeId} (hij : Displaced n k i j) :
    Beside n k u b (s.declareAnnotationType p name i) (t.declareAnnotationType p name j) :=
  { h with
    annotationTypes := fun key => Dict.rel_adjust (h.annotationTypes key) p.key name hij }

/-- So does caching a fragment. -/
theorem cacheFragment {f g : Fragment} (location : g.location = f.location)
    (hfg : f.Rel (Displaced n k) (AnnotationUse.Rel (Displaced n k)) g) :
    Beside n k u b (s.cacheFragment f) (t.cacheFragment g) :=
  { h with
    fragments := fun key => by
      rw [Store.cacheFragment, Store.cacheFragment, location]
      exact Dict.rel_putNew (h.fragments key) f.location.key hfg }

/-- Both stores have the same type for an annotation. -/
theorem type? (path : Path) (a : AnnotationUse) :
    Checked (Option.Rel (Displaced n k)) (a.type? path s) (a.type? path t) := by
  have htarget : a.target path t = a.target path s :=
    AnnotationUse.target_congr (congrArg (Dict.find? path.key) h.uses) (.same a)
  rw [AnnotationUse.type?, AnnotationUse.type?, htarget]
  rcases a.target path s with f | ⟨library, name⟩
  · exact .error f
  · refine .ok ?_
    rw [annotationTypesIn?, annotationTypesIn?]
    exact Dict.Rel.bind_find? (h.annotationTypes library.key) name

end Beside

/-! ## The laws of comparison -/

section
open Comparison

variable {n k : Nat} {u b : Store}

/-- A change that keeps the stores beside each other runs alike in both. -/
theorem beside_change {f g : Store → Store} {hf : ∀ s : Store, s.Grows (f s)}
    {hg : ∀ s : Store, s.Grows (g s)} {w : Unit}
    (h : ∀ s t, Beside n k u b s t → Beside n k u b (f s) (g t)) :
    (beside n k u b).Agree w (Load.change f hf) (Load.change g hg) fun _ _ _ => True :=
  .change w le_rfl h trivial

/-- Both stores have the same files to read. -/
theorem beside_readFile (w : Unit) (purpose : Purpose) (p : Path) :
    (beside n k u b).Agree w (Load.readFile purpose p) (Load.readFile purpose p)
      fun _ a c => a = c :=
  .readFile (fun h => h.files) fun h => { h with }

/-- Declarations are stored alike in both. -/
theorem beside_declares (path : Path) : (beside n k u b).Declares path where
  settings h := h.settings
  target _ _ := trivial
  report w d _ := beside_change fun _ _ h => { h with }
  makeOptional w i j hij := beside_change fun _ _ h => h.makeOptional hij
  addShape := by
    rintro w a c - hac - - s t h -
    rw [Load.addShape_apply, Load.addShape_apply]
    exact .ok le_rfl (h.addShape hac) h.storedBeside_next
  loadExample w p _ := .loadExample (fun h => h.examples) (beside_readFile w _ p) fun e h =>
    { h with examples := congrArg (Dict.putNew p.key e) h.examples }

/-- An annotation is bound alike in both. -/
theorem beside_bind (w : Unit) (path : Path) (a : AnnotationUse) (ha : a.definedBy = none) :
    (beside n k u b).Agree w (a.bind path) (a.bind path)
      fun _ => Checked (AnnotationUse.Rel (Displaced n k)) := by
  have same : a.Rel (Displaced n k) a := ⟨rfl, by rw [ha]; exact .none⟩
  have hask : (beside n k u b).Agree w (Load.ask (a.type? path)) (Load.ask (a.type? path))
      fun _ => Checked (Option.Rel (Displaced n k)) := .ask fun _ _ h => h.type? path a
  unfold AnnotationUse.bind
  split
  · exact .pure (.ok same)
  · refine .bind hask fun w' r r' _ hrr' => ?_
    cases hrr' with
    | error f => exact .pure (.error f)
    | ok hij =>
      cases hij with
      | some hij => exact .pure (.ok ⟨rfl, .some hij⟩)
      | none =>
        exact .bind (beside_change fun _ _ h => { h with }) fun _ _ _ _ _ => .pure (.ok same)

/-- Files are parsed alike in both. -/
theorem beside_parses (path : Path) : (beside n k u b).Parses path where
  toDeclares := beside_declares path
  declareUse _ name p _ _ := beside_change fun _ _ h =>
    { h with uses := congrArg (Dict.adjust path.key [] (Dict.put name p)) h.uses }
  declareType _ _ _ _ _ _ := beside_change fun _ _ h => { h with }
  declareAnnotationType _ name _ _ _ hij :=
    beside_change fun _ _ h => h.declareAnnotationType path name hij
  bind w a _ ha := beside_bind w path a ha

/-- Reading a file and caching its fragment. -/
theorem beside_reading {α β : Type} (w : Unit) (path : Path) (x : Load α) (y : Load β)
    (f : α → Fragment) (g : β → Fragment)
    (hxy : (beside n k u b).Agree w x y fun w' a c =>
      (beside n k u b).FragmentRel w' (f a) (g c) ∧ (f a).location = path) :
    (beside n k u b).Agree w (Fragment.reading path x f) (Fragment.reading path y g)
      (beside n k u b).FragmentRel := by
  refine .reading (fun h => { h with loading := congrArg (path.key :: ·) h.loading })
    (fun h => { h with loading := congrArg (List.filter (· ≠ path.key)) h.loading })
    (fun stopped => stopped) (fun h hfg _ => ?_) hxy
  have hcached := h.cacheFragment hfg.location hfg
  exact ⟨hcached, hcached.fragments path.key⟩

/-- Loads of stores that differ by `k` shapes do the same. -/
theorem beside_loads : (beside n k u b).Loads fun _ => True where
  settings h := h.settings
  files h := h.files
  parses path _ := beside_parses path
  cached {w s t} p h := by
    have hfind := h.fragments (s.normalize p).key
    generalize Dict.find? (s.normalize p).key s.fragments = x at hfind ⊢
    generalize Dict.find? (s.normalize p).key t.fragments = y at hfind ⊢
    cases hfind with
    | none => exact .inl ⟨rfl, rfl⟩
    | some hfg => exact .inr (.inl ⟨_, _, rfl, rfl, hfg⟩)
  readFile {w s t} p h _ _ _ :=
    ((beside_readFile w _ _).imp fun _ _ _ _ heq => ⟨heq, trivial⟩) s t h trivial
  reading w path x y f g _ hxy := beside_reading w path x y f g (hxy w le_rfl trivial)
  loading p h := congrArg (·.contains p.key) h.loading
  linked_of_loading _ _ _ := trivial
  linked_of_cached _ _ _ _ := trivial

/-- Reading a declaration does the same, whatever the bounds are on both sides. -/
theorem beside_buildLevels (path : Path) (d n₁ : Nat) : ∀ (n₂ : Nat) (w : Unit) (name : String)
    (node : Node), (beside n k u b).Agree w
      (Declaration.buildLevels (Fragment.loaders d).dataType path n₁ name node)
      (Declaration.buildLevels (Fragment.loaders d).dataType path n₂ name node)
      fun _ => StoredBeside n k := by
  induction n₁ with
  | zero => exact fun _ _ _ _ _ _ _ _ => .excusedLeft rfl _
  | succ n₁ ih =>
    intro n₂
    cases n₂ with
    | zero => exact fun _ _ _ _ _ _ _ => .ignoredRight rfl _
    | succ n₂ =>
      refine fun w name node => .mapFault _ ?_
      exact (beside_declares path).decode (fun w name node _ => ih n₂ w name node)
        (beside_loads.loaders d).dataType w trivial name node

/-- The declarations inside a file are read with the loaders of the store. -/
theorem beside_declare (path : Path) (m : Nat) (w : Unit) (name : String) (node : Node) :
    (beside n k u b).Agree w (Load.declare path name node)
      (Declaration.buildLevels (Fragment.loaders b.loadDepth).dataType path m name node)
      fun _ => StoredBeside n k := by
  intro s t h final
  have hdepth : s.loadDepth = b.loadDepth := by
    rw [loadDepth, loadDepth, ← h.files, h.files_eq]
  rw [Load.declare, Load.withLoaders, Load.ask_bind, hdepth]
  exact beside_buildLevels path _ _ m w name node s t h final

/-- A load that does the same beside other shapes leaves alone the shapes that there are. -/
theorem extends_of_agree {α : Type} {x : Load α} {Q : Unit → α → α → Prop} {s t : Store} {a : α}
    (hx : (beside s.shapes.size 0 s s).Agree () x x Q) (h : x s = (.ok a, t)) :
    s.Extends t ∧ Q () a a := by
  have hends := hx s s (beside_self s) trivial
  rw [h] at hends
  cases hends with
  | ok _ stores result => exact ⟨⟨Load.grows_of_apply h, stores.old'⟩, result⟩

/-- It does so as well if it stops. -/
theorem extends_of_agree_error {α : Type} {x : Load α} {Q : Unit → α → α → Prop} {s t : Store}
    {e : Stop} (hx : (beside s.shapes.size 0 s s).Agree () x x Q) (h : x s = (.error e, t))
    (he : e ≠ .exhausted) : s.Extends t := by
  have hends := hx s s (beside_self s) trivial
  rw [h] at hends
  cases hends with
  | error _ stopped => exact ⟨Load.grows_of_apply h, stopped⟩
  | excusedLeft hexhausted => exact absurd hexhausted he
  | ignoredRight hexhausted => exact absurd hexhausted he

end

end Store

end RamlTypes
