import RamlTypes.Proofs.Coherence.Steps

/-!
# A request of a coherent store obeys the laws of comparison

The actions of a request keep `Store.Underway`, so every function of the loader and of the resolver
does (`since_loads`, `since_resolves`, `since_binds`).
-/

namespace RamlTypes.Store

open Comparison

variable {b : Store} {known : PathKey → Prop} {phase : Phase}

/-- A change that keeps the invariant of a request. -/
theorem since_change {w w' : Extent b} {f : Store → Store} {hf : ∀ s : Store, s.Grows (f s)}
    {Q : Extent b → Unit → Unit → Prop} (hw : w ≤ w')
    (h : ∀ s, b.Underway known phase w s → b.Underway known phase w' (f s)) (hq : Q w' () ()) :
    (b.since known phase).Agree w (Load.change f hf) (Load.change f hf) Q := by
  refine .change w' hw ?_ hq
  rintro s _ ⟨rfl, hs⟩
  exact ⟨rfl, h s hs⟩

/-- Both sides of a run see the same. -/
theorem since_see {α β γ : Type} {w : Extent b} {f : Store → α} {P : α → Prop} {k : α → Load β}
    {l : α → Load γ} {Q : Extent b → β → γ → Prop}
    (hP : ∀ s, b.Underway known phase w s → P (f s))
    (h : ∀ a, P a → (b.since known phase).Agree w (k a) (l a) Q) :
    (b.since known phase).Agree w (Load.ask f >>= k) (Load.ask f >>= l) Q := by
  refine .see ?_ h
  rintro s _ ⟨rfl, hs⟩
  exact ⟨rfl, hP s hs⟩

/-! ## Declarations -/

/-- Reports store no number. -/
theorem since_report (w : Extent b) (d : Diagnostic) :
    (b.since known phase).Agree w (Load.report d) (Load.report d) fun _ _ _ => True :=
  since_change le_rfl (fun _ h => { h with same := { h.same with } }) trivial

/-- Reading a file only counts the request. -/
theorem since_readFile (w : Extent b) (purpose : Purpose) (p : Path) :
    (b.since known phase).Agree w (Load.readFile purpose p) (Load.readFile purpose p)
      fun _ a c => a = c := by
  refine .readFile ?_ ?_
  · rintro _ s _ ⟨rfl, _⟩
    rfl
  · rintro _ s _ ⟨rfl, h⟩
    exact ⟨rfl, { h with same := { h.same with } }⟩

/-- Nor do examples. -/
theorem since_loadExample (w : Extent b) (p : Path) :
    (b.since known phase).Agree w (loadExample p) (loadExample p) fun _ a c => a = c := by
  refine .loadExample ?_ (since_readFile w _ p) ?_
  · rintro _ s _ ⟨rfl, _⟩
    rfl
  · rintro _ s _ e ⟨rfl, h⟩
    exact ⟨rfl, { h with same := { h.same with } }⟩

/-- The type that an annotation is bound to belongs to a shape. -/
theorem Underway.type_lt {w : Extent b} {s : Store} (hs : b.Underway known phase w s) {path : Path}
    {a : AnnotationUse} {id : ShapeId} (h : a.type? path s = .ok (some id)) : id < w.size := by
  rw [AnnotationUse.type?] at h
  rcases ht : a.target path s with f | ⟨library, name⟩
  · rw [ht] at h
    cases h
  · rw [ht] at h
    have hfind : (s.annotationTypesIn? library).bind (Dict.find? name) = some id := by
      simpa [bind, Except.bind, pure, Except.pure] using h
    obtain ⟨d, hd, hid⟩ := Option.bind_eq_some_iff.1 hfind
    have hrel := (hs.annotationTypes _ d hd).2.find? name
    rw [hid] at hrel
    exact (Option.rel_some_some.1 hrel).2

/-- An annotation is bound to a shape that exists. -/
theorem since_bind (w : Extent b) (path : Path) (a c : AnnotationUse) (h : a.Rel (Below w.size) c) :
    (b.since known phase).Agree w (a.bind path) (c.bind path)
      fun w' => Checked (AnnotationUse.Rel (Below w'.size)) := by
  obtain rfl := h.eq eq_of_below
  unfold AnnotationUse.bind
  split
  · exact .pure (.ok h)
  · refine since_see (P := fun r => ∀ id, r = .ok (some id) → id < w.size)
      (fun s hs id hid => hs.type_lt hid) fun r hr => ?_
    rcases r with f | (_ | id)
    · exact .pure (.error f)
    · refine .bind (since_report w _) fun w' _ _ hw' _ => .pure (.ok ?_)
      exact h.mono fun _ _ => .mono hw'.1
    · exact .pure (.ok ⟨rfl, .some ⟨rfl, hr id rfl⟩⟩)

/-- Reading a file and caching its fragment, as a run of its own. -/
theorem since_reading {α β : Type} (w : Extent b) (path : Path) (x : Load α) (y : Load β)
    (f : α → Fragment) (g : β → Fragment) (ho : ¬ Dict.has path.key b.fragments)
    (hxy : ∀ w', w ≤ w' → w'.Opened known path.key →
      (b.since known phase).Agree w' x y fun w'' a c =>
        (b.since known phase).FragmentRel w'' (f a) (g c) ∧ (f a).location = path) :
    (b.since known phase).Agree w (Fragment.reading path x f) (Fragment.reading path y g)
      (b.since known phase).FragmentRel := by
  rintro s _ ⟨rfl, hs⟩ -
  have h := hxy (w.begin path.key ho) (w.le_begin ho) (.inr (.inl rfl)) _ _
    ⟨rfl, hs.beginLoading ho⟩ trivial
  rw [Fragment.reading, Fragment.reading, Load.bind_apply, Load.bind_apply, Load.whileLoading_apply,
    Load.whileLoading_apply]
  generalize x (s.beginLoading path) = r at h ⊢
  generalize y (s.beginLoading path) = r' at h ⊢
  cases h with
  | @ok w' t _ a c le hst hq =>
    obtain ⟨rfl, ht⟩ := hst
    obtain ⟨hfg, location⟩ := hq
    have heq : g c = f a := (hfg.eq eq_of_below fun _ _ h => h.eq eq_of_below).symm
    rw [heq] at hfg
    have hd := ht.cacheFragment ho location hfg
    dsimp only
    rw [Load.cacheFragment_apply, Load.cacheFragment_apply, heq]
    refine .ok (le_trans (w.le_begin ho) le) ⟨rfl, hd⟩ ?_
    rcases hfind : Dict.find? (f a).location.key ((t.endLoading path).cacheFragment (f a)).fragments
      with _ | g'
    · exact hfg
    · exact hd.fragments _ g' hfind
  | error _ stopped =>
    obtain ⟨rfl, w', ht⟩ := stopped
    exact .error _ ⟨rfl, w', ht.endLoading path⟩
  | excusedLeft h => exact h.elim
  | ignoredRight h => exact h.elim

section
variable {w : Extent b} {s : Store} (hs : b.Underway known phase w s)
include hs

/-- A name denotes a shape that exists. -/
theorem Underway.lookup_lt {p : Path} {name : String} {id : ShapeId}
    (h : s.lookup? p name = some id) : id < w.size :=
  (rel_of_lookup (fun k d hd => (hs.named k d hd).2) hs.fragments h).2

/-- What a name denotes exists. -/
theorem Underway.denoted_lt {p : Path} {library : Option String} {name : String} {id : ShapeId}
    (h : s.denoted? p library name = some id) : id < w.size := by
  cases library with
  | none => exact hs.lookup_lt h
  | some l =>
    obtain ⟨q, -, hq⟩ := Option.bind_eq_some_iff.1 h
    exact hs.lookup_lt hq

/-- The body of a shape holds the numbers of shapes that exist. -/
theorem Underway.bodyOf_rel {i : ShapeId} (hi : i < w.size) :
    (s.bodyOf i).Rel (Below w.size) (s.bodyOf i) := by
  have ha := Array.getElem?_eq_getElem (h := hs.size ▸ hi)
  rw [bodyOf, ha]
  exact (hs.shapes i _ ha).body

end

section
variable (hp : phase ≠ .binding)
include hp

/-- A shape of an opened file is stored, with numbers that exist. -/
theorem since_addShape (w : Extent b) (a c : Shape) (hw : w.Opened known a.location.key)
    (hac : a.Rel (Below w.size) c) (hd : a.AwaitsDeclared) :
    (b.since known phase).Agree w (Load.addShape a) (Load.addShape c)
      fun w' => Below w'.size := by
  have hc := hac.eq eq_of_below
  rintro s _ ⟨rfl, hs⟩ -
  have heq : s.addShape c = s.addShape a := by
    rw [hc]
    rfl
  have haa : a.Rel (Below w.size) a := by
    rw [hc] at hac
    exact { hac with rest := congrArg (fun x : Shape => { x with id := a.id }) hac.rest }
  rw [Load.addShape_apply, Load.addShape_apply, heq]
  refine .ok w.le_grow ⟨rfl, hs.addShape hp haa hd hw⟩ ?_
  rw [hs.size]
  exact ⟨rfl, Nat.lt_succ_self _⟩

/-- Declarations keep what holds since the request began. -/
theorem since_declares (path : Path) : (b.since known phase).Declares path where
  settings := by
    rintro w s _ ⟨rfl, _⟩
    rfl
  target _ _ := trivial
  report w d _ := since_report w d
  makeOptional := by
    rintro w i _ ⟨rfl, hi⟩
    have keeps : KeepsDeclaration Shape.optional :=
      ⟨fun _ => rfl, fun _ => rfl, fun _ hu => hu, fun _ _ => rfl, fun _ hd => hd⟩
    refine since_change le_rfl (fun s h => h.mapShape keeps fun a _ haa => ?_) trivial
    exact { haa with rest := congrArg (fun x : Shape => x.optional) haa.rest }
  addShape := by
    rintro w a c hw hac new rfl
    exact since_addShape hp w a c hw hac fun _ => new.declared
  loadExample w p _ := since_loadExample w p

/-! ## Fragments -/

/-- So does the parsing of a file that was not cached. -/
theorem since_parses (path : Path) (ho : ¬ Dict.has path.key b.fragments) :
    (b.since known phase).Parses path where
  toDeclares := since_declares hp path
  declareUse w name p hw _ :=
    since_change le_rfl (fun _ h => h.declareUse hw ho name p) trivial
  declareType w name i j hw hij := by
    obtain ⟨rfl, hi⟩ := hij
    exact since_change le_rfl (fun _ h => h.declareType hw ho name hi) trivial
  declareAnnotationType w name i j hw hij := by
    obtain ⟨rfl, hi⟩ := hij
    exact since_change le_rfl (fun _ h => h.declareAnnotationType hw ho name hi) trivial
  bind w a hw ha := since_bind w path a a ⟨rfl, by rw [ha]; exact .none⟩

/-- So does the loading of such a file. -/
theorem since_loads : (b.since known phase).Loads fun p => ¬ Dict.has p.key b.fragments where
  settings := by
    rintro w s _ ⟨rfl, _⟩
    rfl
  files := by
    rintro w s _ ⟨rfl, _⟩
    rfl
  parses path ho := since_parses hp path ho
  cached := by
    rintro w s _ p ⟨rfl, hs⟩
    rcases hf : Dict.find? (s.normalize p).key s.fragments with _ | f
    · exact .inl ⟨rfl, rfl⟩
    · exact .inr (.inl ⟨f, f, rfl, rfl, hs.fragments _ f hf⟩)
  readFile := by
    rintro w s _ p ⟨rfl, hs⟩ hf - -
    refine ((since_readFile w _ _).imp fun _ _ _ _ h => ⟨h, fun hk => ?_⟩) s s ⟨rfl, hs⟩ trivial
    obtain ⟨f, hk'⟩ := Dict.has_iff.1 hk
    cases (hf.symm.trans (hs.same.fragments _ hk)).trans hk'
  reading := since_reading
  loading := by
    rintro w s _ p ⟨rfl, _⟩
    rfl
  linked_of_loading _ _ _ := trivial
  linked_of_cached _ _ _ _ := trivial

/-! ## Resolution -/

/-- So does one level of the resolution. -/
theorem since_evaluates (o : Owner) : (b.since known phase).Evaluates o where
  toDeclares := since_declares hp o.location
  declare w name node hw := (since_loads hp).declare (since_declares hp o.location) w hw name node
  lookup w library name hw := by
    refine since_see (P := fun r => ∀ id, r = some id → id < w.size)
      (fun s hs id hid => hs.denoted_lt hid) fun r hr => ?_
    cases r with
    | none => exact .fail _
    | some id => exact .pure ⟨rfl, hr id rfl⟩
  dataType w p _ _ := ((since_loads hp).dataType w p).imp fun _ _ _ _ h => h.shape
  body := by
    rintro w s _ i j ⟨rfl, hs⟩ ⟨⟨rfl, hi⟩, hr⟩
    exact ⟨hs.bodyOf_rel hi, (hs.concrete i hr).2.kind⟩
  kinds := by
    rintro w s _ is js ⟨rfl, _⟩ h
    rw [eq_of_forall₂ (fun i j hij => hij.1.1) h]

omit hp in
/-- The resolution of a shape, as a run of its own. -/
theorem since_resolving (w : Extent b) (i j : ShapeId) (e e' : Shape → Pending → Load Resolution)
    (hij : Below w.size i j)
    (hee' : ∀ w' a c p, w ≤ w' → a.Rel (Below w'.size) c → (∀ l ∈ a.link, True) →
      w'.Opened known a.location.key →
      (b.since known phase).Agree w' (e a p) (e' c p) (b.since known phase).ResolutionRel) :
    (b.since known phase).Agree w (Load.resolving i e) (Load.resolving j e') fun w' is js =>
      List.Forall₂ (Below w'.size) is js ∧ Below w'.size i j ∧ w'.resolved i := by
  obtain ⟨rfl, hi⟩ := hij
  rintro s _ ⟨rfl, hs⟩ -
  rw [Load.resolving_apply, Load.resolving_apply]
  rcases hc : s.claim i with f | (_ | ⟨a, p⟩)
  · exact .error _ ⟨rfl, w, hs.toSince⟩
  · have hset := hs.settle hi (isResolved_of_claim hc)
    exact .ok (w.le_settle i) ⟨rfl, hset⟩ ⟨.nil, ⟨rfl, hi⟩, .inl rfl⟩
  · obtain ⟨ha, -, hwait⟩ := waits_of_claim hc
    have hopened := (hs.locations i a ha).resolve_left hwait.notFailed
    have hbegin : b.Underway known phase w (s.beginResolution i) :=
      { hs with toSince := hs.toSince.beginResolution i }
    have h := hee' w a a p le_rfl (hs.shapes i a ha) (fun _ _ => trivial) hopened _ _
      ⟨rfl, hbegin⟩ trivial
    dsimp only
    generalize e a p (s.beginResolution i) = r at h ⊢
    generalize e' a p (s.beginResolution i) = r' at h ⊢
    cases h with
    | @ok w' t _ q q' le hst hq =>
      obtain ⟨rfl, ht⟩ := hst
      obtain ⟨hq, hk⟩ := hq
      obtain rfl := hq.eq eq_of_below
      have hend : b.Underway known phase w' (t.endResolution i) :=
        { ht with toSince := ht.toSince.endResolution i }
      have hi' : i < w'.size := Nat.lt_of_lt_of_le hi le.1
      exact .ok (le_trans le (w'.le_settle i)) ⟨rfl, hend.writeResolution hi' hq hk⟩
        ⟨hq.nested, ⟨rfl, hi'⟩, .inl rfl⟩
    | error f stopped =>
      obtain ⟨rfl, w', ht⟩ := stopped
      exact .error f ⟨rfl, w', (ht.endResolution i).markFailed i⟩
    | excusedLeft h => exact h.elim
    | ignoredRight h => exact h.elim

/-- So does the resolution of all that waits. -/
theorem since_resolves : (b.since known phase).Resolves where
  evaluates := since_evaluates hp
  inProgress := by
    rintro w s _ i j ⟨rfl, _⟩ hij
    rw [hij.1]
  resolving := since_resolving

end

/-- So does the binding of annotations. -/
theorem since_binds : (b.since known phase).Binds where
  bind w path a c _ h := since_bind w path a c h
  write := by
    rintro w i j d e xs ys ⟨rfl, hi⟩ hd hx
    obtain rfl := hd.eq fun _ _ => AnnotationUse.Rel.eq eq_of_below
    obtain rfl := eq_of_forall₂ (fun _ _ => Example.Rel.eq eq_of_below) hx
    let f (a : Shape) : Shape := { a with annotations := d, examples := xs }
    have keeps : KeepsDeclaration f :=
      ⟨fun _ => rfl, fun _ => rfl, fun _ hu => hu, fun _ _ => rfl, fun _ hd => hd⟩
    refine since_change le_rfl (fun s h => h.mapShape keeps fun a _ haa => ?_) trivial
    exact { haa with
      rest := congrArg (fun x : Shape => { x with annotations := d, examples := xs }) haa.rest
      annotations := hd
      examples := hx }

end RamlTypes.Store
