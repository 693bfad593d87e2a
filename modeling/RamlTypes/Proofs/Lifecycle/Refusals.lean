import RamlTypes.Proofs.Equations.Nested
import RamlTypes.Proofs.Lifecycle.Dependencies
import RamlTypes.Proofs.Lifecycle.States
import RamlTypes.Proofs.Termination.Resolution

/-!
# What is left of an attempt that failed

A shape whose own declaration cannot be evaluated has failed, and stays so. But the types that an
expression names inside are resolved after the shape itself is written. Where one of them fails the
attempt fails, too, and leaves the shape resolved (`Session.resolve_refused`).
-/

namespace RamlTypes

namespace Store

/-- The store has an unresolved shape under this number that has failed. -/
structure HasFailed (t : Store) (i : ShapeId) (a : Shape) : Prop where
  shape : t.shapes[i]? = some a
  unknown : a.isUnknown
  failed : i ∈ t.failed

/-- The resolution of a shape has come to one that failed: to the shape itself, or to one that is
blocked and that the expression names inside. In the second case one of the evaluations `T` has resolved
the shape nevertheless. -/
inductive Blocked (T : Evaluation → Prop) (t : Store) : ShapeId → Prop
  | failed {i : ShapeId} {a : Shape} (failed : t.HasFailed i a) : Blocked T t i
  | inside {e : Evaluation} {c : Shape} {library : Option String} {name : String} {j : ShapeId}
      (evaluated : T e) (resolved : t.HasResolved e.id c)
      (mentions : e.pending.MentionsInside library name)
      (denoted : e.start.denoted? e.shape.location library name = some j) (blocked : Blocked T t j) :
      Blocked T t e.id

variable {s t u : Store} {i : ShapeId} {n : Nat} {T U : Evaluation → Prop} {e : Stop}

theorem Blocked.mono (h : Blocked T t i) (hT : ∀ e, T e → U e) : Blocked U t i := by
  induction h with
  | failed failed => exact .failed failed
  | inside evaluated resolved mentions denoted _ ih =>
    exact .inside (hT _ evaluated) resolved mentions denoted ih

theorem HasFailed.stateOf?_eq {a : Shape} (h : t.HasFailed i a) : t.stateOf? i = some .failed := by
  rw [stateOf?_of_shape h.shape, if_pos h.unknown, if_pos h.failed]

/-- A shape whose declaration is not evaluated is unresolved. -/
theorem exists_unknown_of_claim (h : s.claim i = .error e) :
    ∃ a, s.shapes[i]? = some a ∧ a.isUnknown := by
  rcases ha : s.shapes[i]? with _ | a
  · rw [claim, ha] at h
    cases h
  · refine ⟨a, rfl, ?_⟩
    rw [claim_of_shape ha] at h
    rw [Shape.isUnknown]
    rcases hp : a.body.pending? with _ | p
    · rw [hp] at h
      cases h
    · rfl

/-- A shape whose declaration cannot be evaluated has failed. -/
theorem blocked_of_resolving (hi : i ∉ s.inProgress)
    (h : Load.resolving i (Load.evaluateWithin n) s = (.error e, t)) : Blocked T t i := by
  have hfailed := failed_of_resolving h hi
  have hunknown : ∃ a, t.shapes[i]? = some a ∧ a.isUnknown := by
    rw [Load.resolving_apply] at h
    split at h
    · next hclaim =>
      cases h
      exact exists_unknown_of_claim hclaim
    · cases h
    · next a p hclaim =>
      have hgrows := (Load.evaluateWithin n a p).grows (s.beginResolution i)
      split at h
      · cases h
      · next hr =>
        cases h
        rw [hr] at hgrows
        obtain ⟨c, hc, hu⟩ := exists_claimed hclaim hgrows
        exact ⟨c, hc, hu⟩
  obtain ⟨a, ha, hu⟩ := hunknown
  exact .failed ⟨ha, hu, hfailed⟩

/-- Where the resolution of several shapes stops, it stops at one of them. -/
theorem exists_of_resolveIdle_error {resolve : ShapeId → Load Unit} (ns : List ShapeId) :
    ∀ {s : Store}, Load.resolveIdle resolve ns s = (.error e, t) → ∃ before j after u,
      ns = before ++ j :: after ∧ Load.resolveIdle resolve before s = (.ok (), u) ∧
      u.isInProgress j = false ∧ resolve j u = (.error e, t) := by
  induction ns with
  | nil => exact fun h => nomatch h
  | cons j rest ih =>
    intro s h
    rcases Load.bind_eq_error.1 h with h | ⟨_, v, hv, h⟩
    · rw [Load.unlessResolving, Load.ask_bind] at h
      cases hidle : s.isInProgress j with
      | true =>
        rw [hidle] at h
        cases h
      | false =>
        rw [hidle] at h
        exact ⟨[], j, rest, s, rfl, rfl, hidle, h⟩
    · obtain ⟨before, k, after, u, rfl, hbefore, hidle, hk⟩ := ih h
      exact ⟨j :: before, k, after, u, rfl, Load.bind_eq_ok.2 ⟨(), v, hv, hbefore⟩, hidle, hk⟩

/-- Types are resolved after the shape whose expression names them. -/
theorem exists_evaluation {ns : List ShapeId}
    (h : Load.resolving i (Load.evaluateWithin n) s = (.ok ns, t)) (hne : ns ≠ []) :
    ∃ e : Evaluation, e.id = i ∧ e.depth = n ∧ e.start = s ∧ e.result.nested = ns ∧ t = written e := by
  rw [Load.resolving_apply] at h
  split at h
  · cases h
  · cases h
    exact absurd rfl hne
  · next a p hclaim =>
    split at h
    · next r u hr =>
      cases h
      exact ⟨⟨i, n, s, a, p, r, u, hclaim, hr⟩, rfl, rfl, rfl, rfl, rfl⟩
    · cases h

/-- A call that fails leaves its shape blocked, unless it reaches the bound on the recursion. -/
theorem blocked_of_error (he : e ≠ .exhausted) (n : Nat) : ∀ (i : ShapeId) (s : Store), s.Sound i →
    i ∉ s.inProgress → Load.resolveWithin n i s = (.error e, t) →
    Blocked (·.Below ⟨n, i, s⟩) t i := by
  induction n with
  | zero =>
    rintro i s - - ⟨⟩
    exact absurd rfl he
  | succ n ih =>
    intro i s hs hi h
    rcases Load.bind_eq_error.1 h with h | ⟨ns, m, hm, h⟩
    · exact blocked_of_resolving hi h
    · obtain ⟨before, j, after, u, rfl, hbefore, hidle, hj⟩ := exists_of_resolveIdle_error ns h
      obtain ⟨e, rfl, rfl, rfl, hnested, rfl⟩ := exists_evaluation hm (by simp)
      have hmakes : Call.Makes ⟨e.depth + 1, e.id, e.start⟩ ⟨e.depth, j, u⟩ :=
        .nested hm hbefore hidle
      have hnot : j ∉ u.inProgress := fun hmem => by
        rw [isInProgress, List.contains_iff_mem.2 hmem] at hidle
        cases hidle
      have hblocked := ih j u (hs.makes hmakes) hnot hj
      obtain ⟨c, hc, hw⟩ := hs.exists_written
      have hkeeps := (Load.grows_of_apply h).keeps
      obtain ⟨c', hc', -⟩ := hkeeps.hasResolved ⟨hc, hw.concrete⟩
      have hmem : j ∈ e.result.nested := hnested ▸ List.mem_append_right _ List.mem_cons_self
      obtain ⟨library, name, hmentions, hdenoted⟩ := (e.names_nested hs).only j hmem
      refine .inside .refl hc' hmentions hdenoted (hblocked.mono fun d hd => ?_)
      exact hd.head hmakes

end Store

namespace Session

open Store

variable {s t : Store} {i : ShapeId}

/-- A resolved shape is not resolved again. -/
theorem step_resolve_of_resolved {c : Shape} (h : t.HasResolved i c) :
    step t (.resolve i) = (.shape i, t) := by
  have hpending : c.body.pending? = none :=
    Option.isNone_iff_eq_none.1 (Option.isSome_eq_false_iff.1 h.2)
  have hclaim : t.claim i = .ok none := by rw [claim_of_shape h.1, hpending]
  have hresolve : Load.resolve i t = (.ok (), t) := by
    rw [Load.resolve, Load.ask_bind, Load.resolveWithin, Load.bind_apply, Load.resolving_apply, hclaim]
    rfl
  rw [step, perform, hresolve]

/-- A shape that failed is refused. -/
theorem step_resolve_of_failed {c : Shape} (h : t.HasFailed i c) : step t (.resolve i) =
    (.fault (PlainFault.unresolvable c.name ⟨c.location, c.mark⟩).fault, t) := by
  obtain ⟨p, hp⟩ := Shape.exists_pending h.unknown
  have hclaim : t.claim i = .error (.fault (.unresolvable c.name ⟨c.location, c.mark⟩)) := by
    rw [claim_of_shape h.shape, hp]
    exact if_pos (List.contains_iff_mem.2 h.failed)
  have hresolve : Load.resolve i t =
      (.error (.fault (.unresolvable c.name ⟨c.location, c.mark⟩)), t) := by
    rw [Load.resolve, Load.ask_bind, Load.resolveWithin, Load.bind_apply, Load.resolving_apply, hclaim]
  rw [step, perform, hresolve]
  rfl

/-- An attempt to resolve a shape that is not served leaves the shape blocked. -/
theorem blocked_of_not_served (hs : s.Coherent) (hroot : s.settings.root.isAbsolute)
    (h : ¬ (step s (.resolve i)).1.IsServed) :
    Blocked (·.Below ⟨s.potential + 1, i, s⟩) (step s (.resolve i)).2 i := by
  have hstep : step s (.resolve i) = perform (Load.resolve i).run (fun _ => .shape i) s := rfl
  rw [hstep, perform] at h ⊢
  rcases hr : Load.resolve i s with ⟨e | _, t⟩
  · have hi : i < s.shapes.size := Nat.lt_of_not_le fun hle => by
      cases hr.symm.trans (resolve_of_size_le hle)
    have hphase : Phase.declaring ≠ .binding := fun h => by cases h
    have hsound : s.Sound i := ⟨s, _, .declaring, .start s, hphase, hs.underway s.mentions_true, hi⟩
    have hidle : i ∉ s.inProgress := hs.inProgress ▸ List.not_mem_nil
    have he : e ≠ .exhausted := (finishes_resolve hs hroot i).ne_exhausted hr
    exact blocked_of_error he _ i s hsound hidle hr
  · rw [hr] at h
    exact absurd trivial h

/-- A resolved shape stays resolved, whatever is requested. -/
theorem hasResolved_run (ht : t.Coherent) {a : Shape} (h : t.HasResolved i a) (rs : List Request) :
    ∃ c, (run t rs).HasResolved i c := by
  obtain ⟨c, hc, hac⟩ := (follows_run rs ht).shapes i a h.1
  have hkept : a.Kept c := hac.resolve_right fun hwait => by
    rw [h.2] at hwait
    cases hwait.1
  exact ⟨c, hc, hkept.isUnknown.trans h.2⟩

/-- A shape that failed stays so, in the place where it was declared. -/
theorem hasFailed_run (ht : t.Coherent) {a : Shape} (h : t.HasFailed i a) (rs : List Request) :
    ∃ c, (run t rs).HasFailed i c ∧ c.owner = a.owner := by
  have hfollows := follows_run rs ht
  obtain ⟨c, hc, hac⟩ := hfollows.shapes i a h.shape
  have hkept : a.Kept c := hac.resolve_right fun hwait => hwait.2 h.failed
  obtain ⟨d, hd, hgrows, -⟩ := (precedes_run rs ht (.refl t)).shapes i a h.shape
  cases hc.symm.trans hd
  exact ⟨c, ⟨hc, hkept.isUnknown.trans h.unknown, hfollows.failed h.failed⟩,
    Shape.Stays.owner_eq ⟨hgrows, hkept⟩⟩

/-- Whatever was requested before, an attempt to resolve a shape that fails leaves the shape failed or
resolved. If it has failed, every later attempt fails as well and changes nothing, whatever is requested
in between. If it is resolved, a type that its expression names inside is blocked, and every later
attempt succeeds. -/
theorem resolve_refused (settings : LoadSettings) (files : Files) (hroot : settings.root.isAbsolute)
    (before : List Request) (i : ShapeId) :
    let s := run (.empty settings files) before
    let t := (step s (.resolve i)).2
    ¬ (step s (.resolve i)).1.IsServed →
      (∃ a, t.HasFailed i a ∧ ∀ between, step (run t between) (.resolve i) =
        (.fault (PlainFault.unresolvable a.name ⟨a.location, a.mark⟩).fault, run t between)) ∨
      ∃ a, t.HasResolved i a ∧ Blocked (·.Below ⟨s.potential + 1, i, s⟩) t i ∧
        ∀ between, step (run t between) (.resolve i) = (.shape i, run t between) := by
  intro s t hrefused
  obtain ⟨hs, hsettings⟩ := coherent_run before (coherent_empty settings files)
  have ht : t.Coherent := (keeps_step hs (.resolve i)).coherent
  have hblocked : Blocked (·.Below ⟨s.potential + 1, i, s⟩) t i :=
    blocked_of_not_served hs (by rwa [hsettings]) hrefused
  cases hblocked with
  | @failed _ a hfailed =>
    refine .inl ⟨a, hfailed, fun between => ?_⟩
    obtain ⟨c, hc, howner⟩ := hasFailed_run ht hfailed between
    obtain ⟨hname, hlocation, hmark⟩ := Owner.mk.inj howner
    rw [step_resolve_of_failed hc, hname, hlocation, hmark]
  | @inside e a _ _ _ evaluated resolved mentions denoted blocked =>
    refine .inr ⟨a, resolved, .inside evaluated resolved mentions denoted blocked, fun between => ?_⟩
    obtain ⟨c, hc⟩ := hasResolved_run ht resolved between
    exact step_resolve_of_resolved hc

/-- The items of an array are not defined. The first attempt to resolve the array fails and leaves it
resolved, so the second one succeeds. -/
theorem resolve_refused_of_items :
    let p : Path := ⟨"/lib.raml"⟩
    let text := "#%RAML 1.0 Library\ntypes:\n  Tags: Bad[]\n  Bad: Missing\n"
    let settings : LoadSettings := ⟨⟨"/"⟩, false, false⟩
    let s := run (.empty settings (.memory [(p, text)])) [.load p]
    let t := (step s (.resolve 0)).2
    settings.root.isAbsolute ∧ ¬ (step s (.resolve 0)).1.IsServed ∧
      Blocked (·.Below ⟨s.potential + 1, 0, s⟩) t 0 ∧ step t (.resolve 0) = (.shape 0, t) := by
  intro p text settings s t
  have hroot : settings.root.isAbsolute := by decide
  have hrun : ¬ (step s (.resolve 0)).1.IsServed ∧ t.stateOf? 0 = some .resolved := by decide +kernel
  rcases resolve_refused settings (.memory [(p, text)]) hroot [.load p] 0 hrun.1 with
    ⟨a, hfailed, -⟩ | ⟨a, -, hblocked, hlater⟩
  · exact absurd (hfailed.stateOf?_eq.symm.trans hrun.2) (by decide)
  · exact ⟨hroot, hrun.1, hblocked, hlater []⟩

end Session

end RamlTypes
