import RamlTypes.Proofs.ClosedWorld.Reach
import RamlTypes.Proofs.Isolation.Laws
import RamlTypes.Proofs.Relation.Renaming

/-!
# Loads are isolated

A load that reads no file that is cached does the same as in a new session: it ends in the same way,
and the shapes and diagnostics that it adds are the same, up to the number that the first new shape
gets (`Session.load_isolated`). Neither the loads before it nor their failures make a difference.
-/

namespace RamlTypes

namespace Store

open Comparison

variable {b s t : Store} {w : Progress}

/-! ## What both loads see -/

namespace Appended

variable (h : b.Appended s t)
include h

/-- The shapes of `b` come first. -/
theorem take_shapes : s.shapes.toList.take b.shapes.size = b.shapes.toList := by
  refine List.ext_getElem? fun i => ?_
  rw [List.getElem?_take, Array.getElem?_toList, Array.getElem?_toList]
  split
  · next hi => exact h.old i hi
  · next hi => rw [Array.getElem?_eq_none (Nat.le_of_not_lt hi)]

/-- The other shapes correspond to those of `t`. -/
theorem drop_shapes :
    List.Forall₂ (fun a c => ∃ j < t.shapes.size, b.IsTwin t.shapes.size j a c)
      (s.shapes.toList.drop b.shapes.size) t.shapes.toList := by
  refine List.forall₂_iff_get.2 ⟨?_, fun j hj hj' => ?_⟩
  · rw [List.length_drop, Array.length_toList, Array.length_toList, h.size, Nat.add_sub_cancel_left]
  · have hlt : j < t.shapes.size := hj'
    obtain ⟨a, ha, htwin⟩ := h.shapes j _ (Array.getElem?_eq_getElem hlt)
    refine ⟨j, hlt, ?_⟩
    have heq : (s.shapes.toList.drop b.shapes.size)[j] = a := by
      rw [List.getElem_drop, Array.getElem_toList]
      exact (Array.getElem?_eq_some_iff.1 ha).2
    rw [List.get_eq_getElem, List.get_eq_getElem, heq, Array.getElem_toList]
    exact htwin

/-- The shapes are those of the earlier loads, and what has been appended. -/
theorem shapes_eq :
    s.shapes.toList = b.shapes.toList ++ s.shapes.toList.drop b.shapes.size := by
  rw [← h.take_shapes, List.take_append_drop]

/-- Up to their numbers, the shapes that were added are those of `t`. -/
theorem shapes_rename : s.shapes.toList =
    b.shapes.toList ++ t.shapes.toList.map (Shape.rename (b.shapes.size + ·)) := by
  rw [h.shapes_eq]
  refine congrArg _ (eq_map_of_forall₂ h.drop_shapes ?_)
  rintro a c ⟨j, -, htwin⟩
  refine htwin.rel.eq_rename (fun _ _ hij => hij.1) ?_
  rw [htwin.id, htwin.id']

end Appended

/-- Lists whose members weigh the same weigh the same. -/
theorem totalWeight_eq_of_forall₂ {α β : Type} {r : α → β → Prop} {weight : α → Nat}
    {weight' : β → Nat} {l : List α} {l' : List β} (hl : List.Forall₂ r l l')
    (hweight : ∀ a c, r a c → weight a = weight' c) : totalWeight weight l = totalWeight weight' l' := by
  induction hl with
  | nil => rfl
  | cons hac _ ih => exact congrArg₂ (· + ·) (hweight _ _ hac) ih

section
variable (h : b.OnTop w s t) (hb : b.Settled)
include h hb

/-- A shape that was added did not fail. -/
theorem OnTop.not_failed {j : ShapeId} {a c : Shape} (hj : j < t.shapes.size)
    (htwin : b.IsTwin t.shapes.size j a c) : s.isFailed a.id = false ∧ t.isFailed c.id = false := by
  rw [htwin.id, htwin.id']
  exact h.isFailed hb ⟨rfl, h.size' ▸ hj⟩

/-- Both loads have equally much left to resolve: in `b` there is nothing that waits. -/
theorem OnTop.potential : t.potential = s.potential := by
  have old : totalWeight s.shapeWeight b.shapes.toList = 0 := by
    refine totalWeight_eq_zero fun a ha => ?_
    obtain ⟨i, hi⟩ := List.mem_iff_getElem?.1 ha
    rw [Array.getElem?_toList] at hi
    rw [shapeWeight, Store.isFailed, h.failed, hb.ids i a hi]
    split
    · rfl
    · next hf =>
      have hr := hb.resolved i a hi fun hmem => hf (List.contains_iff_mem.2 hmem)
      have hp := Body.pending_eq_none_iff.2 (Shape.isUnknown_eq_false_iff.1 hr)
      rw [Shape.weight, hp]
  have new : totalWeight s.shapeWeight (s.shapes.toList.drop b.shapes.size) =
      totalWeight t.shapeWeight t.shapes.toList := by
    refine totalWeight_eq_of_forall₂ h.drop_shapes ?_
    rintro a c ⟨j, hj, htwin⟩
    obtain ⟨hf, hf'⟩ := h.not_failed hb hj htwin
    rw [shapeWeight, shapeWeight, hf, hf', Shape.weight, Shape.weight, htwin.rel.body.pending]
  rw [Store.potential, Store.potential, h.shapes_eq, totalWeight_append, old, new,
    Nat.zero_add, h.files]

/-- Annotations are to be bound in corresponding shapes: those of `b` are bound or have failed. -/
theorem OnTop.unbound : List.Forall₂ (b.onTop.BindRel w) s.unbound t.unbound := by
  have old : (b.shapes.toList.drop b.annotationsBound).filter (fun a => !s.isFailed a.id) = [] := by
    refine List.filter_eq_nil_iff.2 fun a ha => ?_
    obtain ⟨n, hn⟩ := List.mem_iff_getElem?.1 ha
    rw [List.getElem?_drop, Array.getElem?_toList] at hn
    have hmem := hb.bound _ (Nat.le_add_right _ n) (Array.getElem?_eq_some_iff.1 hn).1
    rw [← hb.ids _ a hn, ← h.failed] at hmem
    rw [Store.isFailed, List.contains_iff_mem.2 hmem]
    simp
  have alive : ∀ a ∈ s.shapes.toList.drop b.shapes.size, s.isFailed a.id = false := by
    have hall : List.Forall₂ (fun a _ => s.isFailed a.id = false ∧ True)
        (s.shapes.toList.drop b.shapes.size) t.shapes.toList := by
      refine h.drop_shapes.imp ?_
      rintro a c ⟨j, hj, htwin⟩
      exact ⟨(h.not_failed hb hj htwin).1, trivial⟩
    exact ((List.forall₂_and_left _ _).1 hall).1
  have new : (s.shapes.toList.drop b.shapes.size).filter (fun a => !s.isFailed a.id) =
      s.shapes.toList.drop b.shapes.size := by
    refine List.filter_eq_self.2 fun a ha => ?_
    rw [alive a ha]
    rfl
  have new' : t.shapes.toList.filter (fun c => !t.isFailed c.id) = t.shapes.toList := by
    refine List.filter_eq_self.2 fun c _ => ?_
    rw [Store.isFailed, h.failed']
    rfl
  have hle : b.annotationsBound ≤ b.shapes.toList.length := hb.bound_le
  rw [Store.unbound, Store.unbound, h.bound, h.bound', List.drop_zero, new', h.shapes_eq,
    List.drop_append_of_le_length hle, List.filter_append, old, List.nil_append, new]
  refine h.drop_shapes.imp ?_
  rintro a c ⟨j, hj, htwin⟩
  rw [h.size'] at htwin hj
  refine ⟨htwin.rel, ?_, htwin.rel.location ▸ htwin.foreign⟩
  rw [htwin.id, htwin.id']
  exact ⟨rfl, hj⟩

end

/-- The next waiting shape is taken from both. -/
theorem OnTop.popUnresolved (h : b.OnTop w s t) : b.OnTop w s.popUnresolved t.popUnresolved :=
  { h with
    unresolved := by
      rw [Store.popUnresolved, Store.popUnresolved, h.unresolved, List.map_tail]
    queue := fun j hj => h.queue j (List.mem_of_mem_tail hj) }

/-! ## The work list -/

section
variable (hr : b.settings.root.isAbsolute) (hb : b.Settled)
include hr hb

/-- Resolving the work list agrees. -/
theorem onTop_drain (depth n : Nat) : ∀ w : Progress,
    b.onTop.Agree w (Load.drain depth n) (Load.drain depth n) fun _ _ _ => True := by
  induction n with
  | zero => exact fun _ => .exhaust
  | succ n ih =>
    intro w
    unfold Load.drain
    refine .bind (.ask (Q := fun (w : Progress) (is js : List ShapeId) =>
      List.Forall₂ (b.Shifted w.size) is js) fun s t h => ?_) fun w₁ is js hw₁ hij => ?_
    · rw [h.unresolved, List.forall₂_map_left_iff]
      exact List.forall₂_same.2 fun j hj => ⟨rfl, h.queue j hj⟩
    · cases hij with
      | nil => exact .pure trivial
      | @cons i j _ _ hij _ =>
        refine .bind (Q := fun _ _ _ => True) ?_ fun w₂ _ _ hw₂ _ => ?_
        · exact onTop_change le_rfl (fun _ _ h => h.popUnresolved) trivial
        · have hij₂ := hij.mono hw₂.1
          refine .bind (Q := fun _ _ _ => True) ?_ fun w₃ _ _ _ _ => ih w₃
          refine .see (P := fun failed => failed = false) (fun s t h => ?_) ?_
          · obtain ⟨hs, ht⟩ := h.isFailed hb hij₂
            exact ⟨ht.trans hs.symm, hs⟩
          · rintro _ rfl
            have hresolve := (onTop_resolves hr hb).resolveWithin depth depth (.inl rfl) w₂ i j hij₂
            exact hresolve.imp fun _ _ _ _ _ => trivial

/-- All that waits is resolved alike. -/
theorem onTop_drainAll (w : Progress) :
    b.onTop.Agree w Load.drainAll Load.drainAll fun _ _ _ => True := by
  refine .see (P := fun _ => True) (fun s t h => ⟨h.potential hb, trivial⟩) fun potential _ => ?_
  refine .see (P := fun _ => True) (fun s t h => ⟨?_, trivial⟩) fun length _ => ?_
  · rw [h.unresolved, List.length_map]
  · exact onTop_drain hr hb _ _ w

end

/-! ## What is left after the load -/

/-- Two loads ended in the same way: with the same error, or with corresponding fragments. -/
def SameEnd (b : Store) (r r' : Except Stop Fragment × Store) : Prop :=
  r.1 = r'.1.map (Fragment.rename (b.shapes.size + ·)) ∧ b.Appended r.2 r'.2

/-- Both loads end with the same error. -/
theorem SameEnd.error (e : Stop) (h : b.Appended s t) : b.SameEnd (.error e, s) (.error e, t) :=
  ⟨rfl, h⟩

section
variable (hb : b.Settled) {f g : Fragment}
  (hfg : f.Rel (b.Shifted w.size) (AnnotationUse.Rel (b.Shifted w.size)) g)
include hb hfg

/-- Binding annotations ends both loads in the same way. -/
theorem OnTop.bindAnnotations (h : b.OnTop w s t)
    (final : b.onTop.final ((Load.bindAnnotations >>= fun _ => pure g) t).2) :
    b.SameEnd ((Load.bindAnnotations >>= fun _ => pure f) s)
      ((Load.bindAnnotations >>= fun _ => pure g) t) := by
  have unfold' (k : Fragment) (s : Store) : (Load.bindAnnotations >>= fun _ => pure k) s =
      (Load.bindShapes s.unbound >>= fun _ =>
        Load.change (fun s => { s with annotationsBound := s.shapes.size })
          (fun s => { Grows.refl s with }) >>= fun _ => pure k) s := by
    rw [← bind_assoc]
    rfl
  have hbind := onTop_binds.bindShapes s.unbound w (h.unbound hb) s t h
  rw [unfold'] at final
  rw [unfold', unfold']
  refine Agree.bind_elim (hbind ?_) ?_ (fun e _ _ => .error e) (fun _ _ _ he => he.elim)
    fun _ _ _ he => he.elim
  · exact b.onTop.final_of_grows (Load.grows_bind _ _ t) final
  · rintro w' _ _ s' t' - - hst -
    exact ⟨congrArg Except.ok (hfg.eq_rename fun _ _ hij => hij.1), { hst with }⟩

/-- Resolving everything ends both loads in the same way. -/
theorem OnTop.resolveAll (hr : b.settings.root.isAbsolute) (h : b.OnTop w s t)
    (final : b.onTop.final ((Load.resolveAll >>= fun _ => pure g) t).2) :
    b.SameEnd ((Load.resolveAll >>= fun _ => pure f) s)
      ((Load.resolveAll >>= fun _ => pure g) t) := by
  rw [Load.resolveAll, bind_assoc] at final
  rw [Load.resolveAll, bind_assoc, bind_assoc]
  have hdrain := onTop_drainAll hr hb w s t h
  refine Agree.bind_elim (hdrain ?_) ?_ (fun e _ _ => .error e) (fun _ _ _ he => he.elim)
    fun _ _ _ he => he.elim
  · exact b.onTop.final_of_grows (Load.grows_bind _ _ t) final
  · rintro w' _ _ s' t' ht hw' hst -
    rw [Load.bind_of_ok ht] at final
    exact hst.bindAnnotations hb
      (hfg.mono (fun _ _ => .mono hw'.1) fun _ _ => .mono fun _ _ => .mono hw'.1) final

end

/-- A load of a settled store ends as it does without that store, if it reads no file that is cached
there as a fragment, and none that is cached there as an example and has changed. -/
theorem Settled.sameEnd_load_of_current (hb : b.Settled) (hr : b.settings.root.isAbsolute)
    (he : b.settings.eagerResolution) (p : Path)
    (final : b.onTop.final (Load.load p (.empty b.settings b.files)).2) :
    b.SameEnd (Load.load p b) (Load.load p (.empty b.settings b.files)) := by
  let x : Load Fragment := do
    let f ← Load.fragment p
    Load.resolveIfEager
    return f
  have eager {s : Store} (hs : s.settings = b.settings) (f : Fragment) :
      (Load.resolveIfEager >>= fun _ => pure f) s = (Load.resolveAll >>= fun _ => pure f) s := by
    rw [Load.resolveIfEager, bind_assoc, Load.ask_bind, hs, he]
    rfl
  -- The file is loaded alike, and of the shapes only the new ones are left to be resolved.
  have hx (hfinal : b.onTop.final (x (.empty b.settings b.files)).2) :
      b.SameEnd (x b) (x (.empty b.settings b.files)) := by
    have hfragment := (onTop_loads hr).fragment _ p b _ hb.onTop
    refine Agree.bind_elim (hfragment ?_) ?_ (fun e _ _ => .error e) (fun _ _ _ he => he.elim)
      fun _ _ _ he => he.elim
    · exact b.onTop.final_of_grows (Load.grows_bind _ _ _) hfinal
    · rintro w f g s t ht - hst hfg
      have hfinal : b.onTop.final ((Load.resolveIfEager >>= fun _ => pure g) t).2 := by
        rwa [← Load.bind_of_ok ht fun g => Load.resolveIfEager >>= fun _ => pure g]
      rw [eager hst.settings'] at hfinal
      rw [eager hst.settings, eager hst.settings']
      exact hst.resolveAll hb hfg hr hfinal
  show b.SameEnd (Load.orRollback x b) (Load.orRollback x _)
  have final : b.onTop.final (Load.orRollback x (.empty b.settings b.files)).2 := final
  rw [Load.orRollback] at final ⊢
  rw [Load.orRollback]
  generalize x b = r at hx ⊢
  generalize x (.empty b.settings b.files) = r' at hx final ⊢
  rcases r' with ⟨e' | g, t⟩
  · obtain ⟨hr, hst⟩ := hx final
    rcases r with ⟨e | f, s⟩
    · exact ⟨hr, { hst with }⟩
    · cases hr
  · obtain ⟨hr, hst⟩ := hx final
    rcases r with ⟨e | f, s⟩
    · cases hr
    · exact ⟨hr, hst⟩

/-- A load of a settled store that reads no file that is cached there ends as it does without that
store. -/
theorem Settled.sameEnd_load (hb : b.Settled) (hr : b.settings.root.isAbsolute)
    (he : b.settings.eagerResolution) (p : Path)
    (hreads : ∀ k, Dict.has k (Load.load p (.empty b.settings b.files)).2.reads →
      ¬ Dict.has k b.fragments ∧ ¬ Dict.has k b.examples) :
    b.SameEnd (Load.load p b) (Load.load p (.empty b.settings b.files)) :=
  hb.sameEnd_load_of_current hr he p fun k hk => (hreads k hk).imp_right fun hnot _ hcached =>
    absurd (Dict.has_iff.2 ⟨_, hcached⟩) hnot

end Store

namespace Session

/-- Loads do not change files. -/
theorem files_run_load (paths : List Path) :
    ∀ s : Store, (run s (paths.map .load)).files = s.files := by
  induction paths with
  | nil => exact fun _ => rfl
  | cons p rest ih =>
    intro s
    rw [List.map_cons, run, List.foldl_cons]
    refine (ih _).trans ?_
    rw [step, perform_snd, Load.load, Load.orRollback_files]

/-- By induction on the paths, a list of loads is a run of loads. -/
theorem loadRun_run (settings : LoadSettings) (paths : List Path) :
    ∀ s, LoadRun settings s → LoadRun settings (run s (paths.map .load)) := by
  induction paths with
  | nil => exact fun _ h => h
  | cons p rest ih => exact fun s h => ih _ (.load h p)

/-- After any loads of an eager session, a load that reads no file that is cached does what it does
in a new session, with the numbers of its shapes shifted. -/
theorem load_isolated (settings : LoadSettings) (files : Files) (paths : List Path) (q : Path)
    (he : settings.eagerResolution) (hr : settings.root.isAbsolute) :
    let s := run (.empty settings files) (paths.map .load)
    let alone := Load.load q (.empty settings files)
    let shift : ShapeId → ShapeId := (s.shapes.size + ·)
    (∀ k ∈ Dict.keys alone.2.reads, ¬ Dict.has k s.fragments ∧ ¬ Dict.has k s.examples) →
    (Load.load q s).1 = alone.1.map (Fragment.rename shift) ∧
    (Load.load q s).2.shapes.toList =
      s.shapes.toList ++ alone.2.shapes.toList.map (Shape.rename shift) ∧
    (Load.load q s).2.diagnostics = s.diagnostics ++ alone.2.diagnostics := by
  intro s alone shift hreads
  have hrun := loadRun_run settings paths _ (.start files)
  obtain ⟨hsettings, hsettled⟩ := hrun.settled he
  have hfiles : s.files = files := files_run_load paths _
  have halone : alone = Load.load q (.empty s.settings s.files) := by rw [hsettings, hfiles]
  have hend := hsettled.sameEnd_load (by rwa [hsettings]) (by rwa [hsettings]) q fun k hk =>
    hreads k (Dict.mem_keys.2 (halone ▸ hk))
  rw [← halone] at hend
  exact ⟨hend.1, hend.2.shapes_rename, hend.2.diagnostics⟩

/-- The load of a library after the failed load of another one. -/
theorem load_isolated_after_failure :
    let settings : LoadSettings := ⟨⟨"/"⟩, false, true⟩
    let files : Files := .memory [(⟨"/bad.raml"⟩, "#%RAML 1.0 Library\ntypes:\n  Foo: Missing\n"),
      (⟨"/good.raml"⟩, "#%RAML 1.0 Library\ntypes:\n  Bar: Baz[]\n  Baz: string\n")]
    let q : Path := ⟨"/good.raml"⟩
    let s := run (.empty settings files) ([⟨"/bad.raml"⟩].map .load)
    let alone := Load.load q (.empty settings files)
    let shift : ShapeId → ShapeId := (s.shapes.size + ·)
    (Load.load q s).1 = alone.1.map (Fragment.rename shift) ∧
    (Load.load q s).2.shapes.toList =
      s.shapes.toList ++ alone.2.shapes.toList.map (Shape.rename shift) ∧
    (Load.load q s).2.diagnostics = s.diagnostics ++ alone.2.diagnostics :=
  load_isolated ⟨⟨"/"⟩, false, true⟩ _ [⟨"/bad.raml"⟩] ⟨"/good.raml"⟩ rfl (by decide)
    (by decide +kernel)

end Session

end RamlTypes
