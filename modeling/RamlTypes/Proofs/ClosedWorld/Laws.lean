import RamlTypes.Proofs.ClosedWorld.Steps

/-!
# A load of a settled store obeys the laws of comparison

The actions of a load keep `Store.During`, so every function of the loader and of the resolver does
(`during_loads`, `during_resolves`, `during_binds`).
-/

namespace RamlTypes.Store

variable {b : Store} {phase : Phase}

/-- A change that keeps the invariant of a load. -/
theorem during_change {w w' : Extent b} {f : Store → Store} {hf : ∀ s : Store, s.Grows (f s)}
    {Q : Extent b → Unit → Unit → Prop} (hw : w ≤ w')
    (h : ∀ s, b.During phase w s → b.During phase w' (f s)) (hq : Q w' () ()) :
    (b.during phase).Agree w (Load.change f hf) (Load.change f hf) Q := by
  refine .change w' hw ?_ hq
  rintro s _ ⟨rfl, hs⟩
  exact ⟨rfl, h s hs⟩

/-- Both sides of a run see the same. -/
theorem during_see {α β γ : Type} {w : Extent b} {f : Store → α} {P : α → Prop} {k : α → Load β}
    {l : α → Load γ} {Q : Extent b → β → γ → Prop} (hP : ∀ s, b.During phase w s → P (f s))
    (h : ∀ a, P a → (b.during phase).Agree w (k a) (l a) Q) :
    (b.during phase).Agree w (Load.ask f >>= k) (Load.ask f >>= l) Q := by
  refine .see ?_ h
  rintro s _ ⟨rfl, hs⟩
  exact ⟨rfl, hP s hs⟩

/-! ## Declarations -/

/-- Reports keep the world closed. -/
theorem during_report (w : Extent b) (d : Diagnostic) :
    (b.during phase).Agree w (Load.report d) (Load.report d) fun _ _ _ => True :=
  during_change le_rfl (fun _ h => { h with same := { h.same with } }) trivial

/-- Reading a file only counts the request. -/
theorem during_readFile (w : Extent b) (purpose : Purpose) (p : Path) :
    (b.during phase).Agree w (Load.readFile purpose p) (Load.readFile purpose p)
      fun _ a b => a = b := by
  refine .readFile ?_ ?_
  · rintro _ s _ ⟨rfl, _⟩
    rfl
  · rintro _ s _ ⟨rfl, h⟩
    exact ⟨rfl, { h with same := { h.same with } }⟩

/-- A living shape stands for itself. -/
theorem eq_of_alive {w : Extent b} (i j : ShapeId) (h : w.Alive i j) : i = j := h.1

/-- The type that an annotation is bound to is in use. -/
theorem During.type_alive {w : Extent b} {s : Store} (hs : b.During phase w s) {path : Path}
    {a : AnnotationUse} {id : ShapeId} (h : a.type? path s = .ok (some id)) : w.Alive id id := by
  rw [AnnotationUse.type?] at h
  rcases ht : a.target path s with f | ⟨library, name⟩
  · rw [ht] at h
    cases h
  · rw [ht] at h
    have hfind : (s.annotationTypesIn? library).bind (Dict.find? name) = some id := by
      simpa [bind, Except.bind, pure, Except.pure] using h
    obtain ⟨d, hd, hid⟩ := Option.bind_eq_some_iff.1 hfind
    have hrel := (hs.annotationTypes _ d hd).2.find? name
    rw [hid] at hrel
    exact Option.rel_some_some.1 hrel

/-- An annotation is bound to a living shape. -/
theorem during_bind (w : Extent b) (path : Path) (a c : AnnotationUse) (h : a.Rel w.Alive c) :
    (b.during phase).Agree w (a.bind path) (c.bind path)
      fun w' => Checked (AnnotationUse.Rel w'.Alive) := by
  obtain rfl := h.eq eq_of_alive
  unfold AnnotationUse.bind
  split
  · exact .pure (.ok h)
  · refine during_see (P := fun r => ∀ id, r = .ok (some id) → w.Alive id id)
      (fun s hs id hid => hs.type_alive hid) fun r hr => ?_
    rcases r with f | (_ | id)
    · exact .pure (.error f)
    · refine .bind (during_report w _) fun w' _ _ hw' _ => .pure (.ok ?_)
      exact h.mono fun _ _ => .mono hw'.1
    · exact .pure (.ok ⟨rfl, .some (hr id rfl)⟩)

/-- Reading a file and caching its fragment, as a run of its own. -/
theorem during_reading {α β : Type} (w : Extent b) (path : Path) (x : Load α) (y : Load β)
    (f : α → Fragment) (g : β → Fragment) (ho : ¬ Dict.has path.key b.fragments)
    (hxy : ∀ w', w ≤ w' → w'.begun path.key → (b.during phase).Agree w' x y fun w'' a c =>
      (b.during phase).FragmentRel w'' (f a) (g c) ∧ (f a).location = path) :
    (b.during phase).Agree w (Fragment.reading path x f) (Fragment.reading path y g)
      (b.during phase).FragmentRel := by
  rintro s _ ⟨rfl, hs⟩ -
  have h := hxy (w.begin path.key ho) (w.le_begin ho) (.inl rfl) _ _ ⟨rfl, hs.beginLoading ho⟩ trivial
  rw [Fragment.reading, Fragment.reading, Load.bind_apply, Load.bind_apply, Load.whileLoading_apply,
    Load.whileLoading_apply]
  generalize x (s.beginLoading path) = r at h ⊢
  generalize y (s.beginLoading path) = r' at h ⊢
  cases h with
  | @ok w' t _ a c le hst hq =>
    obtain ⟨rfl, ht⟩ := hst
    obtain ⟨hfg, location⟩ := hq
    have heq : g c = f a := (hfg.eq eq_of_alive fun _ _ h => h.eq eq_of_alive).symm
    rw [heq] at hfg
    have hd := ht.cacheFragment (le.2.1 _ (.inl rfl)) location hfg
    dsimp only
    rw [Load.cacheFragment_apply, Load.cacheFragment_apply, heq]
    refine .ok (le_trans (w.le_begin ho) le) ⟨rfl, hd⟩ ?_
    rcases hfind : Dict.find? (f a).location.key ((t.endLoading path).cacheFragment (f a)).fragments
      with _ | g'
    · exact hfg
    · exact hd.fragments _ g' hfind
  | error _ stopped =>
    obtain ⟨rfl, ht⟩ := stopped
    exact .error _ ⟨rfl, { ht with same := { ht.same with } }⟩
  | excusedLeft h => exact h.elim
  | ignoredRight h => exact h.elim

/-- The shape that a name denotes is in use. -/
theorem During.lookup_alive {w : Extent b} {s : Store} (hs : b.During phase w s) {p : Path}
    {name : String} {id : ShapeId} (h : s.lookup? p name = some id) : w.Alive id id :=
  rel_of_lookup (fun k d hd => (hs.named k d hd).2) hs.fragments h

/-- What a name denotes is alive. -/
theorem During.denoted_alive {w : Extent b} {s : Store} (hs : b.During phase w s) {p : Path}
    {library : Option String} {name : String} {id : ShapeId}
    (h : s.denoted? p library name = some id) : w.Alive id id := by
  cases library with
  | none => exact hs.lookup_alive h
  | some l =>
    obtain ⟨q, -, hq⟩ := Option.bind_eq_some_iff.1 h
    exact hs.lookup_alive hq

section
variable (hb : b.Settled) (hp : phase ≠ .binding)
include hb

/-- The number of a shape that is stored next is in use. -/
theorem alive_size (w : Extent b) : w.grow.Alive w.size w.size :=
  ⟨rfl, Nat.lt_succ_self _, fun hf => Nat.not_lt_of_le w.size_le (hb.failed _ hf)⟩

include hp in
/-- A shape of a file that has begun is stored and is alive. -/
theorem during_addShape (w : Extent b) (a c : Shape) (hw : w.begun a.location.key)
    (hac : a.Rel w.Alive c) :
    (b.during phase).Agree w (Load.addShape a) (Load.addShape c) (b.during phase).fresh := by
  have hc := hac.eq eq_of_alive
  rintro s _ ⟨rfl, hs⟩ -
  have heq : s.addShape c = s.addShape a := by
    rw [hc]
    rfl
  have haa : a.Rel w.Alive a := by
    rw [hc] at hac
    exact { hac with rest := congrArg (fun x : Shape => { x with id := a.id }) hac.rest }
  rw [Load.addShape_apply, Load.addShape_apply, heq]
  refine .ok w.le_grow ⟨rfl, hs.addShape hp haa hw⟩ ?_
  rw [hs.size]
  exact ⟨alive_size hb w, w.size_le⟩

include hp in
/-- Declarations keep the world closed. -/
theorem during_declares (path : Path) : (b.during phase).Declares path where
  settings := by
    rintro w s _ ⟨rfl, _⟩
    rfl
  target _ _ := trivial
  report w d _ := during_report w d
  makeOptional := by
    rintro w i _ ⟨⟨rfl, -, hi⟩, hle⟩
    refine during_change le_rfl (fun s h => h.mapShape hle ?_ ?_ ?_ ?_) trivial
    · intro a ha hf
      have hr := h.alive i a ha hf
      exact { hr with rest := congrArg (fun x : Shape => x.optional) hr.rest }
    · exact fun _ => rfl
    · exact fun _ => rfl
    · exact fun _ _ hu => hu
  addShape := by
    rintro w a c hw hac - rfl
    exact during_addShape hb hp w a c hw hac
  loadExample := by
    intro w p _
    refine .loadExample ?_ (during_readFile w _ p) ?_
    · rintro _ s _ ⟨rfl, _⟩
      rfl
    · rintro _ s _ e ⟨rfl, h⟩
      exact ⟨rfl, { h with same := { h.same with } }⟩

/-! ## Fragments -/

include hp in
/-- So does the parsing of a file. -/
theorem during_parses (path : Path) : (b.during phase).Parses path where
  toDeclares := during_declares hb hp path
  declareUse w name p hw _ := during_change le_rfl (fun _ h => h.declareUse hw name p) trivial
  declareType w name i j hw hij := by
    obtain rfl := hij.1
    exact during_change le_rfl (fun _ h => h.declareType hw name hij) trivial
  declareAnnotationType w name i j hw hij := by
    obtain rfl := hij.1
    exact during_change le_rfl (fun _ h => h.declareAnnotationType hw name hij) trivial
  bind w a hw ha := during_bind w path a a ⟨rfl, by rw [ha]; exact .none⟩

include hp in
/-- So does the loading of a file that was not cached. -/
theorem during_loads :
    (b.during phase).Loads fun p => ¬ Dict.has p.key b.fragments where
  settings := by
    rintro w s _ ⟨rfl, _⟩
    rfl
  files := by
    rintro w s _ ⟨rfl, _⟩
    rfl
  parses path _ := during_parses hb hp path
  cached := by
    rintro w s _ p ⟨rfl, hs⟩
    rcases hf : Dict.find? (s.normalize p).key s.fragments with _ | f
    · exact .inl ⟨rfl, rfl⟩
    · exact .inr (.inl ⟨f, f, rfl, rfl, hs.fragments _ f hf⟩)
  readFile := by
    rintro w s _ p ⟨rfl, hs⟩ hf - -
    refine ((during_readFile w _ _).imp fun _ _ _ _ h => ⟨h, fun hk => ?_⟩) s s ⟨rfl, hs⟩ trivial
    obtain ⟨f, hk'⟩ := Dict.has_iff.1 hk
    cases (hf.symm.trans (hs.same.fragments _ hk)).trans hk'
  reading := during_reading
  loading := by
    rintro w s _ p ⟨rfl, _⟩
    rfl
  linked_of_loading _ _ _ := trivial
  linked_of_cached _ _ _ _ := trivial

/-! ## Resolution -/

include hp in
/-- So does one level of the resolution. -/
theorem during_evaluates (o : Owner) : (b.during phase).Evaluates o where
  toDeclares := during_declares hb hp o.location
  declare w name node hw := (during_loads hb hp).declare (during_declares hb hp o.location) w hw name node
  lookup w library name hw := by
    refine during_see (P := fun r => ∀ id, r = some id → w.Alive id id)
      (fun s hs id hid => hs.denoted_alive hid) fun r hr => ?_
    cases r with
    | none => exact .fail _
    | some id => exact .pure (hr id rfl)
  dataType w p _ _ := ((during_loads hb hp).dataType w p).imp fun _ _ _ _ h => h.shape
  body := by
    rintro w s _ i j ⟨rfl, hs⟩ ⟨hij, hr⟩
    obtain rfl := hij.1
    refine ⟨?_, (hs.resolved i hr).2.kind⟩
    obtain ⟨a, ha⟩ := hs.exists_shape hij
    rw [bodyOf, ha]
    exact (hs.alive i a ha hij.2.2).body
  kinds := by
    rintro w s _ is js ⟨rfl, _⟩ h
    rw [eq_of_forall₂ (fun i j hij => hij.1.1) h]

/-- The resolution of a shape that the load may resolve, as a run of its own. -/
theorem during_resolving (w : Extent b) (i j : ShapeId)
    (e e' : Shape → Pending → Load Resolution) (hij : w.Alive i j)
    (hee' : ∀ w' a c p, w ≤ w' → a.Rel w'.Alive c → (∀ l ∈ a.link, True) →
      w'.begun a.location.key →
      (b.during phase).Agree w' (e a p) (e' c p) (b.during phase).ResolutionRel) :
    (b.during phase).Agree w (Load.resolving i e) (Load.resolving j e') fun w' is js =>
      List.Forall₂ w'.Alive is js ∧ w'.Alive i j ∧ w'.resolved i := by
  obtain rfl := hij.1
  rintro s _ ⟨rfl, hs⟩ -
  rw [Load.resolving_apply, Load.resolving_apply]
  rcases hc : s.claim i with f | (_ | ⟨a, p⟩)
  · exact .error _ ⟨rfl, hs.stopped⟩
  · have hset := hs.settle hij.2.1 (isResolved_of_claim hc)
    exact .ok (w.le_settle i) ⟨rfl, hset⟩ ⟨.nil, hij, .inl rfl⟩
  · obtain ⟨ha, -, hwait⟩ := waits_of_claim hc
    -- A shape from before the request is resolved or has failed, so the claimed one is new.
    have hge : b.shapes.size ≤ i := by
      refine Nat.le_of_not_lt fun hlt => ?_
      have hres := hb.resolved i a (hs.old i hlt ▸ ha) hij.2.2
      rw [hwait.isUnknown] at hres
      cases hres
    have h := hee' w a a p le_rfl (hs.alive i a ha hij.2.2) (fun _ _ => trivial)
      (hs.begun i a hge ha) (s.beginResolution i) _ ⟨rfl, { hs with same := { hs.same with } }⟩ trivial
    have hgrows := (e a p).grows (s.beginResolution i)
    dsimp only
    generalize e a p (s.beginResolution i) = r at h hgrows ⊢
    generalize e' a p (s.beginResolution i) = r' at h ⊢
    obtain ⟨c, hct, -, hkeep⟩ := hgrows.shapes i a ha
    -- Nothing else resolves the shape while its resolution goes on.
    have hkept : a.Kept c := hkeep.resolve_right fun hw => hw.notInProgress List.mem_cons_self
    cases h with
    | @ok w' t _ q q' le hst hq =>
      obtain ⟨rfl, ht⟩ := hst
      obtain ⟨hq, hk⟩ := hq
      obtain rfl := hq.eq eq_of_alive
      have ht' : b.During phase w' (t.endResolution i) := { ht with same := { ht.same with } }
      have hij' := hij.mono le.1
      refine .ok (le_trans le (w'.le_settle i)) ⟨rfl, ?_⟩ ⟨hq.nested, hij', .inl rfl⟩
      have hwrite := ht'.mapShape (f := fun x => { x with
          body := q.body
          inherits := x.inherits ++ q.inherits
          customFacets := Dict.putAll x.customFacets q.customFacets })
        hge ?_ (fun _ => rfl) (fun _ => rfl) ?_
      · have hwritten : b.During phase w' ((t.endResolution i).writeResolution i q) :=
          { hwrite with same := { hwrite.same with } }
        refine hwritten.settle hij'.2.1 fun x hx => ?_
        rw [writeResolution, getElem?_mapShape, if_pos rfl] at hx
        obtain ⟨y, -, rfl⟩ := Option.map_eq_some_iff.1 hx
        exact Shape.isUnknown_eq_false_iff.2 hk
      · intro x hx hf
        have hxx := ht.alive i x hx hf
        exact { hxx with
          rest := congrArg (fun y : Shape => { y with
            body := q.body
            inherits := x.inherits ++ q.inherits
            customFacets := Dict.putAll y.customFacets q.customFacets }) hxx.rest
          inherits := List.rel_append hxx.inherits hq.inherits
          body := hq.body }
      · intro x hx _
        cases hct.symm.trans hx
        exact hkept.isUnknown.trans hwait.isUnknown
    | @error t _ f stopped =>
      obtain ⟨rfl, ht⟩ := stopped
      have hlt : i < t.shapes.size := (Array.getElem?_eq_some_iff.1 hct).1
      refine .error f ⟨rfl, { ht with
        same := { ht.same with }
        failed := fun k hk => ?_
        failed_of_failed := fun k hk => (grows_markFailed _ i).failed (ht.failed_of_failed k hk) }⟩
      rw [markFailed] at hk
      dsimp only at hk
      split at hk
      · exact ht.failed k hk
      · rcases List.mem_cons.1 hk with rfl | hk
        · exact .inr ⟨hge, hlt⟩
        · exact ht.failed k hk
    | excusedLeft h => exact h.elim
    | ignoredRight h => exact h.elim

include hp in
/-- So does the resolution of all that waits. -/
theorem during_resolves : (b.during phase).Resolves where
  evaluates := during_evaluates hb hp
  inProgress := by
    rintro w s _ i j ⟨rfl, _⟩ hij
    rw [hij.1]
  resolving := during_resolving hb

omit hb in
/-- So does the binding of annotations. -/
theorem during_binds : (b.during phase).Binds where
  bind w path a c _ h := during_bind w path a c h
  write := by
    rintro w i j d e xs ys ⟨hij, hle⟩ hd hx
    obtain rfl := hij.1
    obtain rfl := hd.eq fun _ _ => AnnotationUse.Rel.eq eq_of_alive
    obtain rfl := eq_of_forall₂ (fun _ _ => Example.Rel.eq eq_of_alive) hx
    refine during_change le_rfl (fun s h => h.mapShape hle ?_ ?_ ?_ ?_) trivial
    · intro a ha hf
      have hr := h.alive i a ha hf
      exact { hr with
        rest := congrArg (fun y : Shape => { y with annotations := d, examples := xs }) hr.rest
        annotations := hd
        examples := hx }
    · exact fun _ => rfl
    · exact fun _ => rfl
    · exact fun _ _ hu => hu

end

end RamlTypes.Store
