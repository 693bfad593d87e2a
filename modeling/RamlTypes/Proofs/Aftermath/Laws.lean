import RamlTypes.Proofs.Aftermath.Steps
import RamlTypes.Proofs.Annotations.Aliased
import RamlTypes.Proofs.Isolation.Laws

/-!
# Runs beside a residue obey the laws of comparison

The actions of a load keep `Store.Despite`, so the same load does the same beside what another load has
added, and without it (`despite_loads`, `despite_resolves`).
-/

namespace RamlTypes

/-- An example that is loaded is cached. -/
theorem has_examples_of_loadExample {p : Path} {e : ExampleFile} {s t : Store}
    (h : loadExample p s = (.ok e, t)) : Dict.has p.key t.examples := by
  rw [loadExample, Load.ask_bind] at h
  rcases hf : Dict.find? p.key s.examples with _ | e'
  all_goals rw [hf] at h
  · obtain ⟨text, u, -, h⟩ := Load.bind_eq_ok.1 h
    obtain ⟨e', v, -, h⟩ := Load.bind_eq_ok.1 h
    cases h
    show Dict.has p.key (Dict.putNew p.key _ _)
    exact (Dict.has_putNew ..).2 (.inr rfl)
  · cases h
    exact Dict.has_iff.2 ⟨_, hf⟩

namespace Store

open Comparison

variable {r : Residue}

/-- A change that both runs make. -/
theorem despite_change {w w' : Progress} {f g : Store → Store} {hf : ∀ s : Store, s.Grows (f s)}
    {hg : ∀ s : Store, s.Grows (g s)} {Q : Progress → Unit → Unit → Prop} (hw : w ≤ w')
    (h : ∀ s t, Despite r w s t → Despite r w' (f s) (g t)) (hq : Q w' () ()) :
    (despite r).Agree w (Load.change f hf) (Load.change g hg) Q :=
  .change w' hw h hq

/-! ## Declarations -/

/-- Reports come to both stores. -/
theorem despite_report (w : Progress) (d : Diagnostic) :
    (despite r).Agree w (Load.report d) (Load.report d) fun _ _ _ => True :=
  despite_change le_rfl (fun _ _ h => h.report d) trivial

/-- Both stores have the same files to read. -/
theorem despite_readFile (w : Progress) (purpose : Purpose) (p : Path) :
    (despite r).Agree w (Load.readFile purpose p) (Load.readFile purpose p) fun _ a c => a = c :=
  .readFile (fun h => h.sources) fun h => h.countRead purpose p

/-- Both runs get the same example. -/
theorem despite_loadExample (w : Progress) (p : Path) :
    (despite r).Agree w (loadExample p) (loadExample p) fun _ a c => a = c := by
  intro s t h final
  by_cases hp : r.files .exampleFile p.key
  · rcases hrun : loadExample p t with ⟨e | e, t'⟩
    · exact .ignoredRight trivial _
    · rw [hrun] at final
      exact absurd (has_examples_of_loadExample hrun) (final .exampleFile p.key hp)
  · rw [loadExample, Load.ask_bind] at final ⊢
    rw [Load.ask_bind, ← h.examples _ hp]
    cases hfind : Dict.find? p.key t.examples with
    | some e => exact .ok le_rfl h rfl
    | none =>
      rw [hfind] at final
      refine Agree.bind (despite_readFile w _ p) ?_ s t h final
      rintro w' text _ _ rfl
      refine .check fun e _ => ?_
      refine .bind (Q := fun _ _ _ => True) ?_ fun _ _ _ _ _ => .pure rfl
      exact despite_change le_rfl (fun _ _ h => h.cacheExample hp e) trivial

/-- Declarations are stored alike, despite the residue. -/
theorem despite_declares (path : Path) : (despite r).Declares path where
  settings h := h.settings
  target _ _ := trivial
  report w d _ := despite_report w d
  makeOptional w i j hij := by
    have keeps : KeepsPlace Shape.optional := fun _ => ⟨rfl, rfl, rfl⟩
    refine despite_change le_rfl (fun s t h => h.mapShape hij ?_ keeps keeps ?_) trivial
    · intro a c hac
      exact { hac with rest := congrArg (fun x : Shape => x.optional) hac.rest }
    · exact fun _ hu => hu
  addShape := by
    rintro w a c hspares hac - rfl s t h -
    rw [Load.addShape_apply, Load.addShape_apply]
    exact .ok w.le_grow (h.addShape hac (hac.location.symm ▸ hspares)) h.moved_next
  loadExample w p _ := despite_loadExample w p

/-! ## Fragments -/

/-- Where an annotation is bound, the file has the alias on both sides or on none. -/
theorem despite_bind (w : Progress) {path : Path} (hp : r.Spares path) (a : AnnotationUse) :
    (despite r).Agree w (a.bind path) (a.bind path) fun _ => Checked fun _ _ => True := by
  intro s t h _
  obtain ⟨x, ds, hs, hfault, -⟩ := AnnotationUse.exists_bind_run path a s
  obtain ⟨y, es, ht, hfault', -⟩ := AnnotationUse.exists_bind_run path a t
  rw [AnnotationUse.target_congr (h.uses _ hp) (.same a)] at hfault'
  rw [hs, ht]
  refine .ok le_rfl { h with } ?_
  rcases x with f | b
  · rw [(hfault' f).2 ((hfault f).1 rfl)]
    exact .error f
  · rcases y with f | c
    · cases (hfault f).2 ((hfault' f).1 rfl)
    · exact .ok trivial

/-- Files that the residue spares are parsed alike. -/
theorem despite_parses (path : Path) : (despite r).Parses path where
  toDeclares := despite_declares path
  declareUse _ name p hw _ := despite_change le_rfl (fun _ _ h => h.declareUse hw name p) trivial
  declareType _ name _ _ hw hij :=
    despite_change le_rfl (fun _ _ h => h.declareType hw name hij) trivial
  declareAnnotationType _ name _ _ hw hij :=
    despite_change le_rfl (fun _ _ h => h.declareAnnotationType hw name hij) trivial
  bind w a hw _ := despite_bind w hw a

/-- Reading a file and caching its fragment. -/
theorem despite_reading {α β : Type} (w : Progress) {path : Path} (x : Load α) (y : Load β)
    (f : α → Fragment) (g : β → Fragment) (hp : r.Spares path)
    (hxy : (despite r).Agree w x y fun w' a c =>
      (despite r).FragmentRel w' (f a) (g c) ∧ (f a).location = path) :
    (despite r).Agree w (Fragment.reading path x f) (Fragment.reading path y g)
      (despite r).FragmentRel := by
  refine .reading (fun h => h.beginLoading path) (fun h => h.endLoading path) (fun _ => trivial)
    (fun h hfg location => ?_) hxy
  have hcached := h.cacheFragment hp location hfg
  exact ⟨hcached, hcached.fragments _ hp⟩

/-- Loads beside the residue do what they do without it. -/
theorem despite_loads : (despite r).Loads r.Spares where
  settings h := h.settings
  files h := h.sources
  parses path _ := despite_parses path
  cached {w s t} p h := by
    by_cases hk : r.files .fragment (s.normalize p).key
    · refine .inr (.inr (.inr ⟨h.fragments_none _ hk, ?_, fun _ => trivial, fun t' final => ?_⟩))
      · rw [normalize, normalize, ← h.settings]
        exact Path.normalizeIn_isNormal h.root p
      · exact final .fragment _ hk
    · have hfind := h.fragments _ hk
      generalize Dict.find? (s.normalize p).key s.fragments = x at hfind ⊢
      generalize Dict.find? (s.normalize p).key t.fragments = y at hfind ⊢
      cases hfind with
      | none => exact .inl ⟨rfl, rfl⟩
      | some hfg => exact .inr (.inl ⟨_, _, rfl, rfl, hfg⟩)
  readFile {w s t} p h hs _ final := by
    have hspares : r.Spares (s.normalize p) := fun hk => by
      have hcached := h.cached _ hk
      rw [Dict.has, hs] at hcached
      cases hcached
    exact ((despite_readFile w _ _).imp fun _ _ _ _ heq => ⟨heq, hspares⟩) s t h final
  reading w path x y f g hp hxy := despite_reading w x y f g hp (hxy w le_rfl hp)
  loading p h := congrArg (·.contains p.key) h.loading
  linked_of_loading _ _ _ := trivial
  linked_of_cached _ _ _ _ := trivial

/-! ## Resolution -/

section
variable {w : Progress} {s t : Store} (h : Despite r w s t)
include h

/-- Related numbers have related names. -/
theorem Despite.nameOf {i j : ShapeId} (hij : r.Moved w.size i j) : t.nameOf? j = s.nameOf? i := by
  obtain ⟨a, c, ha, hc, hac⟩ := h.exists_moved hij
  rw [nameOf?, nameOf?, ha, hc, Option.map_some, Option.map_some, hac.rel.name]

/-- A name that a file declares without the residue is declared there beside it, too. -/
theorem Despite.lookup {p : Path} {name : String} {j : ShapeId} (hj : t.lookup? p name = some j) :
    ∃ i, s.lookup? p name = some i ∧ r.Moved w.size i j := by
  have hnormal : s.normalize p = t.normalize p := by rw [normalize, normalize, h.settings]
  by_cases hk : r.files .fragment (t.normalize p).key
  · rw [lookup?, h.named_none _ hk, h.fragments_none _ hk] at hj
    cases hj
  · have hrel := lookup_rel (congrArg Path.key hnormal) rfl (h.named _ hk) (h.fragments _ hk)
      (fun _ _ _ _ hde => h.nameOf hde) name
    rw [hj] at hrel
    generalize s.lookup? p name = o at hrel ⊢
    cases hrel with
    | some hij => exact ⟨_, rfl, hij⟩

/-- So is a name that stands for a shape in a file that was not added. -/
theorem Despite.denoted {p : Path} (hp : r.Spares p) {library : Option String} {name : String}
    {j : ShapeId} (hj : t.denoted? p library name = some j) :
    ∃ i, s.denoted? p library name = some i ∧ r.Moved w.size i j := by
  cases library with
  | none => exact h.lookup hj
  | some l =>
    rw [denoted?, usesOf?, h.uses _ hp] at hj
    rw [denoted?, usesOf?]
    obtain ⟨q, hq, hj⟩ := Option.bind_eq_some_iff.1 hj
    obtain ⟨i, hi, hij⟩ := h.lookup hj
    exact ⟨i, by rw [hq]; exact hi, hij⟩

/-- Related numbers have related bodies. -/
theorem Despite.bodyOf {i j : ShapeId} (hij : r.Moved w.size i j) :
    (s.bodyOf i).Rel (r.Moved w.size) (t.bodyOf j) := by
  obtain ⟨a, c, ha, hc, hac⟩ := h.exists_moved hij
  rw [Store.bodyOf, Store.bodyOf, ha, hc]
  exact hac.rel.body

/-- Related shapes have the same names and kinds. -/
theorem Despite.kinds {is js : List ShapeId} (hij : List.Forall₂ (r.Moved w.size) is js) :
    Resolution.kinds t js = Resolution.kinds s is := by
  refine kinds_congr (fun i j hij => ?_) hij
  obtain ⟨a, c, ha, hc, hac⟩ := h.exists_moved hij
  exact ⟨a, c, ha, hc, hac.rel.name, hac.rel.body.kind⟩

/-- Shapes that stand for each other are in progress together. -/
theorem Despite.isInProgress {i j : ShapeId} (hij : r.Moved w.size i j) :
    t.isInProgress j = s.isInProgress i := by
  rw [Store.isInProgress, Store.isInProgress, h.inProgress, hij.1, Bool.eq_iff_iff,
    List.contains_iff_mem, List.contains_iff_mem]
  exact (List.mem_map_of_injective fun _ _ => Residue.displace_inj).symm

/-- And they have failed together. -/
theorem Despite.isFailed {i j : ShapeId} (hij : r.Moved w.size i j) : s.isFailed i = t.isFailed j := by
  rw [Store.isFailed, Store.isFailed, Bool.eq_iff_iff, List.contains_iff_mem, List.contains_iff_mem,
    hij.1]
  exact h.failed j

/-- If the resolution of a shape begins, or need not begin, without the residue, then beside it, too. -/
theorem Despite.claim {i j : ShapeId} (hij : r.Moved w.size i j) :
    (∃ e, t.claim j = .error e) ∨
    (s.claim i = .ok none ∧ t.claim j = .ok none) ∨
    ∃ a c p, s.claim i = .ok (some (a, p)) ∧ t.claim j = .ok (some (c, p)) ∧
      IsMoved r w.size j a c ∧ r.Spares c.location := by
  obtain ⟨a, c, ha, hc, hac⟩ := h.exists_moved hij
  have hlocated := h.located j c hc
  rw [claim_of_shape ha, claim_of_shape hc, h.isFailed hij, h.isInProgress hij, hac.rel.body.pending]
  rcases a.body.pending? with _ | p
  · exact .inr (.inl ⟨rfl, rfl⟩)
  · cases hf : t.isFailed j with
    | true => exact .inl ⟨_, rfl⟩
    | false =>
      cases s.isInProgress i with
      | true => exact .inl ⟨_, rfl⟩
      | false =>
        refine .inr (.inr ⟨a, c, p, rfl, rfl, hac, hlocated.resolve_left fun hmem => ?_⟩)
        rw [Store.isFailed, List.contains_iff_mem.2 hmem] at hf
        cases hf

end

/-- One level of the resolution runs alike in both stores. -/
theorem despite_evaluates (o : Owner) : (despite r).Evaluates o where
  toDeclares := despite_declares o.location
  declare w name node hw := despite_loads.declare (despite_declares o.location) w hw name node
  lookup w library name hw := by
    intro s t h _
    rw [Resolution.lookup, Load.ask_bind, Load.ask_bind]
    rcases hj : t.denoted? o.location library name with _ | j
    · exact .ignoredRight trivial _
    · obtain ⟨i, hi, hij⟩ := h.denoted hw hj
      rw [hi]
      exact .ok le_rfl h hij
  dataType w p _ _ := (despite_loads.dataType w p).imp fun _ _ _ _ h => h.shape
  body {w s t i j} h hij := by
    have hbody := h.bodyOf hij.1
    refine ⟨hbody, ?_⟩
    rw [← hbody.kind]
    exact (h.resolved j hij.2).2.kind
  kinds h hij := h.kinds (hij.imp fun _ _ => And.left)

/-- Corresponding shapes are resolved. -/
theorem despite_resolving (w : Progress) (i j : ShapeId) (e e' : Shape → Pending → Load Resolution)
    (hij : r.Moved w.size i j)
    (hee' : ∀ w' a c p, w ≤ w' → a.Rel (r.Moved w'.size) c → (∀ l ∈ a.link, True) →
      r.Spares a.location → (despite r).Agree w' (e a p) (e' c p) (despite r).ResolutionRel) :
    (despite r).Agree w (Load.resolving i e) (Load.resolving j e') fun w' is js =>
      List.Forall₂ (r.Moved w'.size) is js ∧ r.Moved w'.size i j ∧ w'.resolved j := by
  intro s t h final
  rw [Load.resolving_apply] at final ⊢
  rw [Load.resolving_apply]
  rcases h.claim hij with ⟨f, ht⟩ | ⟨hs, ht⟩ | ⟨a, c, p, hs, ht, hac, hspares⟩
  · rw [ht]
    exact .ignoredRight trivial _
  · rw [hs, ht]
    exact .ok (w.le_settle j) (h.settle hij.2 (isResolved_of_claim ht)) ⟨.nil, hij, .inl rfl⟩
  · rw [ht] at final
    rw [hs, ht]
    have hfinal : (despite r).final (e' c p (t.beginResolution j)).2 := by
      dsimp only at final
      split at final
      · next heq => rw [heq]; exact final
      · next heq => rw [heq]; exact final
    have hends := hee' w a c p le_rfl hac.rel (fun _ _ => trivial) (hac.rel.location ▸ hspares) _ _
      (h.beginResolution hij) hfinal
    dsimp only
    generalize e a p (s.beginResolution i) = x at hends ⊢
    generalize e' c p (t.beginResolution j) = y at hends ⊢
    cases hends with
    | ok le stores hq =>
      obtain ⟨hq, hk⟩ := hq
      have hij' := hij.mono le.1
      exact .ok (le_trans le (Progress.le_settle _ j))
        ((stores.endResolution hij').writeResolution hij' hq hk) ⟨hq.nested, hij', .inl rfl⟩
    | error f _ => exact .error f trivial
    | excusedLeft h => exact .excusedLeft h _
    | ignoredRight h => exact .ignoredRight h _

/-- So does the resolution of all that waits. -/
theorem despite_resolves : (despite r).Resolves where
  evaluates := despite_evaluates
  inProgress h hij := h.isInProgress hij
  resolving := despite_resolving

end Store

end RamlTypes
