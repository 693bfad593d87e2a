import RamlTypes.Proofs.Confluence.Binding
import RamlTypes.Proofs.Confluence.Runs
import RamlTypes.Proofs.Preservation.Requests

/-!
# What requests for the resolution of shapes settle

Requests that are served settle shapes one after the other, and the first one that resolves
everything settles all that is left (`Session.settled_of_served`). The requests after it change
nothing.
-/

namespace RamlTypes

open Store

variable {settings : LoadSettings}

namespace Store

variable {b s t : Store} {known : PathKey → Prop} {w : Extent b} {i : ShapeId}

/-- Resolving the work list settles shapes one after the other. -/
theorem Underway.settles_drain (hroot : settings.root.isAbsolute) (depth n : Nat) :
    ∀ {w : Extent b} {s : Store}, b.Underway known .declaring w s → s.inProgress = [] →
    s.Ready settings → Load.drain (depth + 1) n s = (.ok (), t) →
    ∃ es : List (Settling settings), s.Settlings es t := by
  induction n with
  | zero =>
    intro w s hs hidle hready h
    cases h
  | succ n ih =>
    intro w s hs hidle hready h
    rw [Load.drain, Load.ask_bind] at h
    rcases hq : s.unresolved with _ | ⟨i, rest⟩ <;> rw [hq] at h
    · cases h
      exact ⟨[], .nil (.refl _)⟩
    · rw [Load.change_bind] at h
      obtain ⟨_, u, hu, hrest⟩ := Load.bind_eq_ok.1 h
      obtain ⟨⟨w', -, hw'⟩, hidle'⟩ := (hs.resolveFirst hidle hq depth).of_ok hu
      have hpop : s.Calm s.popUnresolved := { Calm.refl s with lists := ⟨rfl, rfl, rfl⟩ }
      have hfirst : ∃ es : List (Settling settings), s.popUnresolved.Settlings es u := by
        rw [Load.unlessFailed, Load.ask_bind] at hu
        cases hf : s.popUnresolved.isFailed i with
        | true =>
          rw [hf] at hu
          cases hu
          exact ⟨[], .nil (.refl _)⟩
        | false =>
          rw [hf] at hu
          have hsound : s.popUnresolved.Sound i :=
            ⟨b, known, .resolving i, w, by rintro ⟨⟩, hs.popUnresolved hq,
              hs.queue i (hq ▸ List.mem_cons_self)⟩
          exact (hsound.settles hroot (depth + 1) i _ (hready.calm hpop) u hu).1
      obtain ⟨es, hes⟩ := hfirst
      have hes := hes.of_calm hpop
      obtain ⟨es', hes'⟩ := ih hw' hidle' (hes.ready hroot hready) hrest
      exact ⟨es ++ es', hes.append hes'⟩

/-- A shape that is resolved is not resolved again. -/
theorem IsResolved.resolve (h : s.IsResolved i) : Load.resolve i s = (.ok (), s) := by
  have hclaim : s.claim i = .ok none := by
    rcases ha : s.shapes[i]? with _ | a
    · rw [claim, ha]
    · have hr := h a ha
      rw [Shape.isUnknown, Option.isSome_eq_false_iff, Option.isNone_iff_eq_none] at hr
      rw [claim_of_shape ha, hr]
  rw [Load.resolve, Load.ask_bind, Load.resolveWithin, Load.bind_apply, Load.resolving_apply,
    hclaim]
  rfl

/-- All shapes are resolved, and all annotations are bound. -/
structure Done (s : Store) : Prop where
  resolved : ∀ i, s.IsResolved i
  unresolved : s.unresolved = []
  bound : s.annotationsBound = s.shapes.size

theorem Done.resolveAll (h : s.Done) : Load.resolveAll s = (.ok (), s) := by
  have hdrain : Load.drainAll s = (.ok (), s) := by
    rw [Load.drainAll, Load.ask_bind, Load.ask_bind, Load.drain, Load.ask_bind, h.unresolved]
    rfl
  have hunbound : s.unbound = [] := by
    rw [unbound, h.bound, List.drop_of_length_le (Nat.le_of_eq Array.length_toList),
      List.filter_nil]
  rw [Load.resolveAll, Load.bind_of_ok hdrain, Load.bindAnnotations, Load.ask_bind, hunbound]
  show (Except.ok (), { s with annotationsBound := s.shapes.size }) = _
  rw [← h.bound]

end Store

/-- The request resolves shapes, and loads nothing on its own account. -/
def Request.Settles : Request → Prop
  | .resolve _ | .resolveNamed .. | .resolveAll => True
  | _ => False

namespace Session

variable {s t : Store} {r : Request}

/-- What a request does that is served. -/
theorem work_of_served (hr : r.Settles) (h : (step s r).1.IsServed) :
    r.work s = (.ok (), (step s r).2) := by
  have houtcome := outcome_step s r
  generalize (step s r).1 = a at h houtcome
  generalize (step s r).2 = t at houtcome ⊢
  cases houtcome with
  | written p text => exact hr.elim
  | served hw _ => exact hw
  | stopped _ hrefused | undone _ hrefused => exact absurd h hrefused

/-- A request that resolves a shape resolves it by its number. -/
theorem resolved_of_work (hr : r.Settles) (h : r.work s = (.ok (), t)) :
    r = .resolveAll ∨ ∃ i, Load.resolve i s = (.ok (), t) := by
  cases r with
  | resolve i => exact .inr ⟨i, h⟩
  | resolveNamed p name =>
    obtain ⟨i, u, hi, h⟩ := Load.bind_eq_ok.1 h
    cases h
    rw [Load.resolveNamed, Load.ask_bind, Load.ask_bind] at hi
    split at hi
    · cases hi
    · obtain ⟨_, v, hv, hi⟩ := Load.bind_eq_ok.1 hi
      cases hi
      exact .inr ⟨_, hv⟩
  | resolveAll => exact .inl rfl
  | load | parse | library | dataType | declare | write => exact hr.elim

/-- When all is resolved, such requests change nothing. -/
theorem run_of_done (hs : s.Done) (rs : List Request) (hrs : ∀ r ∈ rs, r.Settles)
    (hserved : AllServed s rs) : run s rs = s := by
  induction rs with
  | nil => rfl
  | cons r rest ih =>
    obtain ⟨hr, hrest⟩ := List.forall_mem_cons.1 hrs
    have hwork := work_of_served hr hserved.1
    have hsame : (step s r).2 = s := by
      rcases resolved_of_work hr hwork with rfl | ⟨i, hi⟩
      · have h : Load.resolveAll s = (.ok (), (step s .resolveAll).2) := hwork
        rw [hs.resolveAll] at h
        exact (Prod.mk.inj h).2.symm
      · rw [(hs.resolved i).resolve] at hi
        exact (Prod.mk.inj hi).2.symm
    have hstep : run s (r :: rest) = run (step s r).2 rest := rfl
    rw [hstep, hsame]
    exact ih hrest (hsame ▸ hserved.2)

variable (hroot : settings.root.isAbsolute)
include hroot

/-- Resolving a shape settles shapes. -/
theorem settles_of_resolve (hs : s.Coherent) (hready : s.Ready settings) {i : ShapeId}
    (h : Load.resolve i s = (.ok (), t)) : ∃ es : List (Settling settings), s.Settlings es t := by
  rcases Nat.lt_or_ge i s.shapes.size with hi | hi
  · have hsound : s.Sound i := ⟨s, _, .declaring, .start s, nofun, hs.underway s.mentions_true, hi⟩
    rw [Load.resolve, Load.ask_bind] at h
    exact (hsound.settles hroot _ i s hready t h).1
  · rw [resolve_of_size_le hi] at h
    cases h
    exact ⟨[], .nil (.refl _)⟩

/-- Resolving everything settles all that waits, and then binds annotations. -/
theorem settles_of_resolveAll (hs : s.Coherent) (hready : s.Ready settings)
    (hfailed : s.failed = [])
    (h : Load.resolveAll s = (.ok (), t)) : ∃ (es : List (Settling settings)) (m : Store),
      s.Settlings es m ∧ (∀ i, m.IsResolved i) ∧ Load.bindAnnotations m = (.ok (), t) ∧ t.Done := by
  obtain ⟨_, m, hm, hbind⟩ := Load.bind_eq_ok.1 h
  have hdrain := hm
  rw [Load.drainAll, Load.ask_bind, Load.ask_bind] at hdrain
  have hunderway := hs.underway s.mentions_true
  obtain ⟨es, hes⟩ := hunderway.settles_drain hroot _ _ hs.inProgress hready hdrain
  obtain ⟨w, -, hw⟩ := (hunderway.drain _ _ hs.inProgress).of_ok hdrain
  have hresolved (i : ShapeId) : m.IsResolved i := by
    intro a ha
    refine Bool.eq_false_iff.2 fun hu => ?_
    rcases hw.waiting i a ha hu with hf | hq | hp
    · rw [hw.failed, hfailed] at hf
      cases hf
    · rw [hw.quiet rfl] at hq
      cases hq
    · cases hp
  refine ⟨es, m, hes, hresolved, hbind, ?_⟩
  obtain ⟨w', -, hw'⟩ := (hunderway.resolveAll hs.inProgress).of_ok h
  obtain ⟨hsize, -, hbound, -⟩ :=
    Load.bound_of_bindAnnotations (hes.ready hroot hready).closed (hw.failed.trans hfailed) hbind
  refine ⟨fun i => ?_, hw'.quiet rfl, hbound⟩
  rcases Nat.lt_or_ge i m.shapes.size with hi | hi
  · exact (hresolved i).grows hi (Load.grows_of_apply hbind)
  · intro a ha
    rw [Array.getElem?_eq_none (hsize ▸ hi)] at ha
    cases ha

/-- Requests that are served, one of which resolves everything, have settled all that waits before
annotations are bound. -/
theorem settled_of_served (rs : List Request) : ∀ {s : Store}, s.Coherent → s.Ready settings →
    s.failed = [] → (∀ r ∈ rs, r.Settles) → AllServed s rs → .resolveAll ∈ rs →
    ∃ (es : List (Settling settings)) (m : Store), s.Settlings es m ∧ (∀ i, m.IsResolved i) ∧
      Load.bindAnnotations m = (.ok (), run s rs) := by
  induction rs with
  | nil =>
    intro s hs hready hfailed hrs hserved hall
    cases hall
  | cons r rest ih =>
    intro s hs hready hfailed hrs hserved hall
    obtain ⟨hr, hrest⟩ := List.forall_mem_cons.1 hrs
    have hwork := work_of_served hr hserved.1
    have hkeeps := keeps_step hs r
    have hstep : run s (r :: rest) = run (step s r).2 rest := rfl
    rw [hstep]
    by_cases hr' : r = .resolveAll
    · subst hr'
      obtain ⟨es, m, hes, hm, hbind, hdone⟩ := settles_of_resolveAll hroot hs hready hfailed hwork
      rw [run_of_done hdone rest hrest hserved.2]
      exact ⟨es, m, hes, hm, hbind⟩
    · obtain ⟨i, hi⟩ := (resolved_of_work hr hwork).resolve_left hr'
      obtain ⟨es, hes⟩ := settles_of_resolve hroot hs hready hi
      have hfailed' := (hes.resolved_eq hroot).2.1.trans hfailed
      have hall' := (List.mem_cons.1 hall).resolve_left (Ne.symm hr')
      obtain ⟨es', m, hes', hm, hbind⟩ :=
        ih hkeeps.coherent (hes.ready hroot hready) hfailed' hrest hserved.2 hall'
      exact ⟨es ++ es', m, hes.append hes', hm, hbind⟩

end Session

end RamlTypes
