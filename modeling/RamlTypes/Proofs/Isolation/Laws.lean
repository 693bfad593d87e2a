import RamlTypes.Proofs.Isolation.Steps

/-!
# Loads on top of other loads obey the laws of comparison

The actions of a load keep `Store.OnTop`, so two loads of the same file, of which one begins in a
settled store, do the same (`onTop_loads`, `onTop_resolves`, `onTop_binds`).
-/

namespace RamlTypes.Store

open Comparison

variable {b : Store}

/-- A change that both loads make. -/
theorem onTop_change {w w' : Progress} {f g : Store → Store} {hf : ∀ s : Store, s.Grows (f s)}
    {hg : ∀ s : Store, s.Grows (g s)} {Q : Progress → Unit → Unit → Prop} (hw : w ≤ w')
    (h : ∀ s t, b.OnTop w s t → b.OnTop w' (f s) (g t)) (hq : Q w' () ()) :
    b.onTop.Agree w (Load.change f hf) (Load.change g hg) Q :=
  .change w' hw h hq

/-! ## Declarations -/

/-- Reports are appended to both stores. -/
theorem onTop_report (w : Progress) (d : Diagnostic) :
    b.onTop.Agree w (Load.report d) (Load.report d) fun _ _ _ => True :=
  onTop_change le_rfl (fun _ _ h => h.report d) trivial

/-- Both stores have the same files to read. -/
theorem onTop_readFile (w : Progress) (purpose : Purpose) (p : Path) :
    b.onTop.Agree w (Load.readFile purpose p) (Load.readFile purpose p) fun _ a c => a = c :=
  .readFile (fun h => h.files) fun h => h.countRead purpose p

/-- An example that `b` has cached is the one that its file has. -/
theorem OnTop.cachedExample {w : Progress} {s t : Store} (h : b.OnTop w s t) {p : Path}
    {e : ExampleFile} (hp : p.IsNormal b.settings.root) (he : Dict.find? p.key b.examples = some e)
    (final : b.onTop.final (loadExample p t).2) :
    b.onTop.Ends w (fun _ a c => a = c) (loadExample p s) (loadExample p t) := by
  obtain ⟨hs, ht⟩ := h.cachedExamples _ e he
  have hcached : loadExample p s = (.ok e, s) := by
    rw [loadExample, Load.ask_bind, hs]
    rfl
  rw [hcached]
  rcases ht with ht | ht
  · rw [loadExample, Load.ask_bind, ht] at final ⊢
    obtain ⟨text, htext, hvalue⟩ :=
      (final _ (Loads.has_reads_of_readFile _ p _ t)).2 e he p hp rfl
    have hrun : Load.readFile .exampleFile p t = (.ok text, t.countRead .exampleFile p) := by
      have hfiles : (t.countRead .exampleFile p).files.read p = .ok text := by
        rw [← htext, ← h.files_eq, ← h.files]
        rfl
      rw [Load.readFile, Load.change_bind, Load.ask_bind, hfiles]
      rfl
    dsimp only
    rw [Load.bind_of_ok hrun, hvalue]
    exact .ok le_rfl (h.cacheAgain he) rfl
  · rw [loadExample, Load.ask_bind, ht]
    exact .ok le_rfl h rfl

/-- Both loads get the same example. -/
theorem onTop_loadExample (w : Progress) (p : Path) (hp : p.IsNormal b.settings.root) :
    b.onTop.Agree w (loadExample p) (loadExample p) fun _ a c => a = c := by
  intro s t h final
  rcases hb : Dict.find? p.key b.examples with _ | e
  · have hnew : ¬ Dict.has p.key b.examples := Dict.find?_eq_none_iff.1 hb
    rw [loadExample, Load.ask_bind] at final ⊢
    rw [Load.ask_bind, h.examples _ hnew]
    cases hfind : Dict.find? p.key t.examples with
    | some e => exact .ok le_rfl h rfl
    | none =>
      rw [hfind] at final
      refine Agree.bind (onTop_readFile w _ p) ?_ s t h final
      rintro w' text _ _ rfl
      refine .check fun e _ => ?_
      refine .bind (Q := fun _ _ _ => True) ?_ fun _ _ _ _ _ => .pure rfl
      exact onTop_change le_rfl (fun _ _ h => h.cacheExample hnew e) trivial
  · exact h.cachedExample hp hb final

section
variable (hr : b.settings.root.isAbsolute)
include hr

/-- Declarations are stored alike, above the shapes of the earlier load. -/
theorem onTop_declares (path : Path) : b.onTop.Declares path where
  settings h := h.settings'.trans h.settings.symm
  target {w s t} text h := by
    rw [follow, h.settings]
    exact Path.follow_isNormal hr path text
  report w d _ := onTop_report w d
  makeOptional w i j hij := by
    have keeps : KeepsPlace Shape.optional := fun _ => ⟨rfl, rfl, rfl⟩
    refine onTop_change le_rfl (fun s t h => h.mapShape hij ?_ keeps keeps ?_) trivial
    · intro a c _ _ hac
      exact { hac with rest := congrArg (fun x : Shape => x.optional) hac.rest }
    · exact fun _ _ hu => hu
  addShape := by
    rintro w a c foreign hac new rfl s t h -
    rw [Load.addShape_apply, Load.addShape_apply]
    refine .ok w.le_grow (h.addShape hac (hac.location.symm ▸ foreign) ?_) h.shifted_next
    rw [hac.link]
    exact new.declared.link
  loadExample := onTop_loadExample

/-! ## Fragments -/

end

/-- Related numbers have related names. -/
theorem OnTop.nameOf {w : Progress} {s t : Store} (h : b.OnTop w s t) {i j : ShapeId}
    (hij : b.Shifted w.size i j) : t.nameOf? j = s.nameOf? i := by
  obtain ⟨a, c, ha, hc, htwin⟩ := h.exists_twin (h.shifted_size hij)
  rw [nameOf?, nameOf?, ha, hc, Option.map_some, Option.map_some, htwin.rel.name]

/-- The type that an annotation is bound to is the same on both sides. -/
theorem OnTop.type? {w : Progress} {s t : Store} (h : b.OnTop w s t) {path : Path}
    (hp : b.IsForeign path) (a : AnnotationUse) :
    Checked (Option.Rel (b.Shifted w.size)) (a.type? path s) (a.type? path t) := by
  have htarget : a.target path t = a.target path s ∧
      ∀ library name, a.target path s = .ok (library, name) → b.IsForeign library := by
    rw [AnnotationUse.target, AnnotationUse.target, usesOf?, usesOf?, h.uses _ hp.2]
    split
    · next short name _ =>
      rcases hu : (Dict.find? path.key s.uses).bind (Dict.find? short) with _ | library
      · refine ⟨rfl, ?_⟩
        rintro _ _ ⟨⟩
      · refine ⟨rfl, ?_⟩
        rintro _ _ ⟨⟩
        obtain ⟨d, hd, hl⟩ := Option.bind_eq_some_iff.1 hu
        exact h.targets _ d short library ((h.uses _ hp.2).trans hd) hl
    · refine ⟨rfl, ?_⟩
      rintro _ _ ⟨⟩
      exact hp
  rw [AnnotationUse.type?, AnnotationUse.type?, htarget.1]
  rcases ht : a.target path s with f | ⟨library, name⟩
  · exact .error f
  · refine .ok ?_
    rw [annotationTypesIn?, annotationTypesIn?]
    exact Dict.Rel.bind_find? (h.annotationTypes _ (htarget.2 _ _ ht).2) name

/-- An annotation of a foreign file is bound to annotation types that stand for each other. -/
theorem onTop_bind (w : Progress) (path : Path) (a c : AnnotationUse) (hp : b.IsForeign path)
    (h : a.Rel (b.Shifted w.size) c) :
    b.onTop.Agree w (a.bind path) (c.bind path)
      fun w' => Checked (AnnotationUse.Rel (b.Shifted w'.size)) := by
  have hrel := h.definedBy
  unfold AnnotationUse.bind
  rcases ha : a.definedBy with _ | i <;> rcases hc : c.definedBy with _ | j <;> rw [ha, hc] at hrel
  · have heq : c = a := by rw [h.rest, hc, ← ha]
    subst heq
    have hask : b.onTop.Agree w (Load.ask (c.type? path)) (Load.ask (c.type? path))
        fun w' => Checked (Option.Rel (b.Shifted w'.size)) := .ask fun s t hst => hst.type? hp c
    refine .bind hask fun w' r r' hw' hrr' => ?_
    cases hrr' with
    | error f => exact .pure (.error f)
    | ok hij =>
      cases hij with
      | some hij => exact .pure (.ok ⟨rfl, .some hij⟩)
      | none =>
        refine .bind (onTop_report w' _) fun w'' _ _ hw'' _ => .pure (.ok ?_)
        exact h.mono fun _ _ => .mono (le_trans hw' hw'').1
  · cases hrel
  · cases hrel
  · exact .pure (.ok h)

/-- Reading a file and caching its fragment. -/
theorem onTop_reading {α β : Type} (w : Progress) (path : Path) (x : Load α) (y : Load β)
    (f : α → Fragment) (g : β → Fragment) (hp : b.IsForeign path)
    (hxy : ∀ w', w ≤ w' → b.IsForeign path → b.onTop.Agree w' x y fun w'' a c =>
      b.onTop.FragmentRel w'' (f a) (g c) ∧ (f a).location = path) :
    b.onTop.Agree w (Fragment.reading path x f) (Fragment.reading path y g)
      b.onTop.FragmentRel := by
  refine .reading (fun h => h.beginLoading hp) (fun h => h.endLoading path)
    (fun stopped => { stopped with }) (fun h hfg location => ?_) (hxy w le_rfl hp)
  have hcached := h.cacheFragment (location ▸ hp) hfg.location hfg
  exact ⟨hcached, hcached.fragments _ hp.2⟩

section
variable (hr : b.settings.root.isAbsolute)
include hr

/-- Foreign files are parsed alike. -/
theorem onTop_parses (path : Path) : b.onTop.Parses path where
  toDeclares := onTop_declares hr path
  declareUse w name p hw hl := onTop_change le_rfl (fun _ _ h => h.declareUse hw name hl) trivial
  declareType w name i j _ hij :=
    onTop_change le_rfl (fun _ _ h => h.declareType path name hij) trivial
  declareAnnotationType w name i j _ hij :=
    onTop_change le_rfl (fun _ _ h => h.declareAnnotationType path name hij) trivial
  bind w a hw ha := onTop_bind w path a a hw ⟨rfl, by rw [ha]; exact .none⟩

/-- Foreign files are loaded alike. -/
theorem onTop_loads : b.onTop.Loads b.IsForeign where
  settings h := h.settings'.trans h.settings.symm
  files h := h.files
  parses path _ := onTop_parses hr path
  cached {w s t} p h := by
    by_cases hk : Dict.has (s.normalize p).key b.fragments
    · refine .inr (.inr (.inl ⟨h.foreign _ hk, ?_, fun t' final hread => (final _ hread).1 hk⟩))
      rw [normalize, normalize, h.settings]
      exact Path.normalizeIn_isNormal hr p
    · have hfind := h.fragments _ hk
      generalize Dict.find? (s.normalize p).key s.fragments = x at hfind ⊢
      generalize Dict.find? (s.normalize p).key t.fragments = y at hfind ⊢
      cases hfind with
      | none => exact .inl ⟨rfl, rfl⟩
      | some hfg => exact .inr (.inl ⟨_, _, rfl, rfl, hfg⟩)
  readFile {w s t} p h _ _ final := by
    have foreign : b.IsForeign (s.normalize p) := by
      refine ⟨?_, (final _ (Loads.has_reads_readFile _ _ t)).1⟩
      rw [normalize, h.settings]
      exact Path.normalizeIn_isNormal hr p
    exact ((onTop_readFile w _ _).imp fun _ _ _ _ heq => ⟨heq, foreign⟩) s t h final
  reading := onTop_reading
  loading p h := congrArg (·.contains p.key) h.loading
  linked_of_loading {w s t p} h hp hl := by
    refine ⟨hp, h.loading_foreign _ ?_⟩
    rw [h.loading]
    exact List.contains_iff_mem.1 hl
  linked_of_cached {w s t p} h hp _ hc := by
    refine ⟨hp, fun hk => ?_⟩
    rw [normalize, h.settings', hp, Dict.has, h.foreign _ hk] at hc
    cases hc

end

/-! ## Resolution -/

section
variable {w : Progress} {s t : Store} (h : b.OnTop w s t)
include h

/-- A name that a file declares denotes the same shape on both sides. -/
theorem OnTop.lookup {p : Path} (hp : b.IsForeign p) (name : String) :
    Option.Rel (b.Shifted w.size) (s.lookup? p name) (t.lookup? p name) := by
  have hkey : (s.normalize p).key = p.key := by rw [normalize, h.settings, hp.1]
  have hkey' : (t.normalize p).key = p.key := by rw [normalize, h.settings', hp.1]
  exact lookup_rel hkey hkey' (h.named _ hp.2) (h.fragments _ hp.2)
    (fun _ _ _ _ hde => h.nameOf hde) name

/-- A name that is used in a foreign file denotes shapes that stand for each other, or none. -/
theorem OnTop.denoted {p : Path} (hp : b.IsForeign p) (library : Option String) (name : String) :
    Option.Rel (b.Shifted w.size) (s.denoted? p library name) (t.denoted? p library name) := by
  cases library with
  | none => exact h.lookup hp name
  | some l =>
    rw [denoted?, denoted?, usesOf?, usesOf?, ← h.uses _ hp.2]
    rcases hu : (Dict.find? p.key t.uses).bind (Dict.find? l) with _ | q
    · exact .none
    · obtain ⟨d, hd, hq⟩ := Option.bind_eq_some_iff.1 hu
      exact h.lookup (h.targets _ d l q hd hq) name

/-- Related numbers have related bodies. -/
theorem OnTop.bodyOf {i j : ShapeId} (hij : b.Shifted w.size i j) :
    (s.bodyOf i).Rel (b.Shifted w.size) (t.bodyOf j) := by
  obtain ⟨a, c, ha, hc, htwin⟩ := h.exists_twin (h.shifted_size hij)
  rw [Store.bodyOf, Store.bodyOf, ha, hc]
  exact h.size' ▸ htwin.rel.body

/-- Related shapes have the same names and kinds. -/
theorem OnTop.kinds {is js : List ShapeId} (hij : List.Forall₂ (b.Shifted w.size) is js) :
    Resolution.kinds t js = Resolution.kinds s is := by
  refine kinds_congr (fun i j hij => ?_) hij
  obtain ⟨a, c, ha, hc, htwin⟩ := h.exists_twin (h.shifted_size hij)
  exact ⟨a, c, ha, hc, htwin.rel.name, htwin.rel.body.kind⟩

/-- Shapes that stand for each other are in progress together. -/
theorem OnTop.isInProgress {i j : ShapeId} (hij : b.Shifted w.size i j) :
    t.isInProgress j = s.isInProgress i := by
  rw [Store.isInProgress, Store.isInProgress, h.inProgress, hij.1, Bool.eq_iff_iff,
    List.contains_iff_mem, List.contains_iff_mem]
  exact (List.mem_map_of_injective fun _ _ => Nat.add_left_cancel).symm

/-- No shape of the later load has failed before it. -/
theorem OnTop.isFailed (hb : b.Settled) {i j : ShapeId} (hij : b.Shifted w.size i j) :
    s.isFailed i = false ∧ t.isFailed j = false := by
  rw [Store.isFailed, Store.isFailed, h.failed, h.failed', List.contains_eq_mem, List.contains_eq_mem,
    decide_eq_false_iff_not, decide_eq_false_iff_not, hij.1]
  exact ⟨fun hf => Nat.not_lt_of_le (Nat.le_add_right _ _) (hb.failed _ hf), List.not_mem_nil⟩

/-- The resolution of a shape begins, or not, for the same reason on both sides. -/
theorem OnTop.claim (hb : b.Settled) {i j : ShapeId} (hij : b.Shifted w.size i j) :
    (∃ e, s.claim i = .error e ∧ t.claim j = .error e) ∨
    (s.claim i = .ok none ∧ t.claim j = .ok none) ∨
    ∃ a c p, s.claim i = .ok (some (a, p)) ∧ t.claim j = .ok (some (c, p)) ∧
      b.IsTwin w.size j a c := by
  obtain ⟨a, c, ha, hc, htwin⟩ := h.exists_twin (h.shifted_size hij)
  rw [h.size'] at htwin
  obtain ⟨hf, hf'⟩ := h.isFailed hb hij
  have hrel := htwin.rel
  rw [claim_of_shape ha, claim_of_shape hc, hf, hf', h.isInProgress hij, hrel.body.pending]
  rcases a.body.pending? with _ | p
  · exact .inr (.inl ⟨rfl, rfl⟩)
  · cases s.isInProgress i with
    | true =>
      refine .inl ⟨_, rfl, ?_⟩
      rw [hrel.name, hrel.location, hrel.mark]
      rfl
    | false => exact .inr (.inr ⟨a, c, p, rfl, rfl, htwin⟩)

/-- Beginning a resolution keeps the stores on top of each other. -/
theorem OnTop.beginResolution {i j : ShapeId} (hij : b.Shifted w.size i j) :
    b.OnTop w (s.beginResolution i) (t.beginResolution j) :=
  { h with
    inProgress := by
      rw [Store.beginResolution, Store.beginResolution, List.map_cons, ← hij.1, h.inProgress] }

/-- So does its end. -/
theorem OnTop.endResolution {i j : ShapeId} (hij : b.Shifted w.size i j) :
    b.OnTop w (s.endResolution i) (t.endResolution j) :=
  { h with
    inProgress := by
      rw [Store.endResolution, Store.endResolution, h.inProgress, List.filter_map]
      refine congrArg (List.map _) (List.filter_congr fun k _ => decide_eq_decide.2 ?_)
      rw [hij.1]
      exact not_congr Nat.add_left_cancel_iff }

/-- So does the writing of related results, which settles the shape. -/
theorem OnTop.writeResolution {i j : ShapeId} (hij : b.Shifted w.size i j) {q r : Resolution}
    (hqr : q.Rel (b.Shifted w.size) r) (hk : q.body.kind ≠ .unknown) :
    b.OnTop (w.settle j) (s.writeResolution i q) (t.writeResolution j r) := by
  have hwrite := h.mapShape hij (f := fun x => { x with
      body := q.body
      inherits := x.inherits ++ q.inherits
      customFacets := Dict.putAll x.customFacets q.customFacets })
    (g := fun x => { x with
      body := r.body
      inherits := x.inherits ++ r.inherits
      customFacets := Dict.putAll x.customFacets r.customFacets })
    ?_ (fun _ => ⟨rfl, rfl, rfl⟩) (fun _ => ⟨rfl, rfl, rfl⟩) ?_
  · have hwritten : b.OnTop w (s.writeResolution i q) (t.writeResolution j r) := { hwrite with }
    refine hwritten.settle hij.2 fun c hc => ?_
    rw [Store.writeResolution, getElem?_mapShape, if_pos rfl] at hc
    obtain ⟨d, -, rfl⟩ := Option.map_eq_some_iff.1 hc
    refine Shape.isUnknown_eq_false_iff.2 ?_
    show r.body.kind ≠ .unknown
    rw [hqr.body.kind]
    exact hk
  · intro a c _ _ hac
    exact { hac with
      rest := by rw [hac.rest, hqr.customFacets]
      inherits := List.rel_append hac.inherits hqr.inherits
      body := hqr.body }
  · intro c _ hu
    refine absurd hu (Bool.eq_false_iff.1 (Shape.isUnknown_eq_false_iff.2 ?_))
    show r.body.kind ≠ .unknown
    rw [hqr.body.kind]
    exact hk

end

section
variable (hr : b.settings.root.isAbsolute) (hb : b.Settled)

include hr in
/-- One level of the resolution runs alike in both stores. -/
theorem onTop_evaluates (o : Owner) : b.onTop.Evaluates o where
  toDeclares := onTop_declares hr o.location
  declare w name node hw := (onTop_loads hr).declare (onTop_declares hr o.location) w hw name node
  lookup w library name hw := by
    have hask : b.onTop.Agree w (Load.ask (·.denoted? o.location library name))
        (Load.ask (·.denoted? o.location library name)) fun w' => Option.Rel (b.Shifted w'.size) :=
      .ask fun s t h => h.denoted hw library name
    refine .bind hask fun w' r r' _ hrr' => ?_
    cases hrr' with
    | none => exact .fail _
    | some hij => exact .pure hij
  dataType w p _ _ := ((onTop_loads hr).dataType w p).imp fun _ _ _ _ h => h.shape
  body {w s t i j} h hij := by
    have hbody := h.bodyOf hij.1
    refine ⟨hbody, ?_⟩
    rw [← hbody.kind]
    exact (h.resolved j hij.2).2.kind
  kinds h hij := h.kinds (hij.imp fun _ _ => And.left)

include hb in
/-- Corresponding shapes are resolved. -/
theorem onTop_resolving (w : Progress) (i j : ShapeId) (e e' : Shape → Pending → Load Resolution)
    (hij : b.Shifted w.size i j)
    (hee' : ∀ w' a c p, w ≤ w' → a.Rel (b.Shifted w'.size) c → (∀ l ∈ a.link, b.IsForeign l) →
      b.IsForeign a.location → b.onTop.Agree w' (e a p) (e' c p) b.onTop.ResolutionRel) :
    b.onTop.Agree w (Load.resolving i e) (Load.resolving j e') fun w' is js =>
      List.Forall₂ (b.Shifted w'.size) is js ∧ b.Shifted w'.size i j ∧ w'.resolved j := by
  intro s t h final
  rw [Load.resolving_apply] at final ⊢
  rw [Load.resolving_apply]
  rcases h.claim hb hij with ⟨f, hs, ht⟩ | ⟨hs, ht⟩ | ⟨a, c, p, hs, ht, htwin⟩
  · rw [hs, ht]
    exact .error f h.toAppended
  · rw [hs, ht]
    exact .ok (w.le_settle j) (h.settle hij.2 (isResolved_of_claim ht)) ⟨.nil, hij, .inl rfl⟩
  · rw [ht] at final
    rw [hs, ht]
    have hfinal : b.onTop.final (e' c p (t.beginResolution j)).2 := by
      dsimp only at final
      split at final
      · next heq => rw [heq]; exact final
      · next heq => rw [heq]; exact final
    have hends := hee' w a c p le_rfl htwin.rel (fun l hl => htwin.link l (htwin.rel.link.symm ▸ hl))
      (htwin.rel.location ▸ htwin.foreign) _ _ (h.beginResolution hij) hfinal
    dsimp only
    generalize e a p (s.beginResolution i) = x at hends ⊢
    generalize e' c p (t.beginResolution j) = y at hends ⊢
    cases hends with
    | ok le stores hq =>
      obtain ⟨hq, hk⟩ := hq
      have hij' := hij.mono le.1
      exact .ok (le_trans le (Progress.le_settle _ j))
        ((stores.endResolution hij').writeResolution hij' hq hk) ⟨hq.nested, hij', .inl rfl⟩
    | error f stopped => exact .error f { stopped with }
    | excusedLeft h => exact h.elim
    | ignoredRight h => exact h.elim

include hr hb in
/-- So does the resolution of all that waits. -/
theorem onTop_resolves : b.onTop.Resolves where
  evaluates := onTop_evaluates hr
  inProgress h hij := h.isInProgress hij
  resolving := onTop_resolving hb

/-- And the binding of annotations. -/
theorem onTop_binds : b.onTop.Binds where
  bind := onTop_bind
  write w i j d e xs ys hij hd hx := by
    have keeps (d : Dict String AnnotationUse) (xs : List Example) :
        KeepsPlace fun x => { x with annotations := d, examples := xs } :=
      fun _ => ⟨rfl, rfl, rfl⟩
    refine onTop_change le_rfl (fun s t h => h.mapShape hij ?_ (keeps d xs) (keeps e ys) ?_) trivial
    · intro a c _ _ hac
      exact { hac with
        rest := by rw [hac.rest]
        annotations := hd
        examples := hx }
    · exact fun _ _ hu => hu

end

end RamlTypes.Store
