import RamlTypes.Proofs.Coherence.Laws
import RamlTypes.Proofs.EndsIn
import RamlTypes.Resolution.Load

/-!
# Sessions keep their store coherent

Every request leads from a coherent store to a coherent one, whether or not it succeeds
(`Store.Serves`): loads and parses are taken back when they fail, and the other requests leave what
they have done.
-/

namespace RamlTypes

variable {α β : Type}

namespace Store

variable {b s : Store} {known : PathKey → Prop} {phase : Phase} {w : Extent b}

/-- The resolution of a shape does not begin if it failed or has begun already. -/
theorem failed_of_claim {i : ShapeId} {e : Stop} (h : s.claim i = .error e) :
    i ∈ s.failed ∨ i ∈ s.inProgress := by
  rw [claim] at h
  split at h
  · cases h
  · split at h
    · cases h
    · split at h
      · next hf => exact .inl (List.contains_iff_mem.1 hf)
      · split at h
        · next hi => exact .inr (List.contains_iff_mem.1 hi)
        · cases h

theorem mem_failed_markFailed (s : Store) (i : ShapeId) : i ∈ (s.markFailed i).failed := by
  rw [markFailed]
  dsimp only
  split
  · next hf => exact List.contains_iff_mem.1 hf
  · exact List.mem_cons_self

/-- A shape whose resolution stops has failed, unless it had begun before. -/
theorem failed_of_resolving {i : ShapeId} {evaluate : Shape → Pending → Load Resolution} {e : Stop}
    {t : Store} (h : Load.resolving i evaluate s = (.error e, t)) (hi : i ∉ s.inProgress) :
    i ∈ t.failed := by
  rw [Load.resolving_apply] at h
  split at h
  · next hc =>
    cases h
    exact (failed_of_claim hc).resolve_right hi
  · cases h
  · split at h
    · cases h
    · cases h
      exact mem_failed_markFailed _ i

/-- A run that obeys the laws of comparison keeps what holds during the request. -/
theorem Underway.endsIn (h : b.Underway known phase w s) {x : Load α} {Q : Extent b → α → α → Prop}
    (hx : (b.since known phase).Agree w x x Q) :
    x.EndsIn s (fun a t => ∃ w', w ≤ w' ∧ b.Underway known phase w' t ∧ Q w' a a)
      fun t => ∃ w', b.Since known phase w' t := by
  have hxx := hx s s ⟨rfl, h⟩ trivial
  rcases hr : x s with ⟨e | a, t⟩
  · rw [hr] at hxx
    cases hxx with
    | error _ stopped => exact .of_run_error hr stopped.2
    | excusedLeft h => exact h.elim
    | ignoredRight h => exact h.elim
  · rw [hr] at hxx
    cases hxx with
    | ok le stores hq => exact .of_run_ok hr ⟨_, le, stores.2, hq⟩

/-! ## The work list -/

/-- A shape that was taken from the work list is resolved, or it has failed. -/
theorem Underway.resolvePopped {i : ShapeId} (h : b.Underway known (.resolving i) w s)
    (hi : i < w.size) (hidle : s.inProgress = []) (n : Nat) :
    (Load.resolveWithin (n + 1) i).EndsIn s
      (fun _ t => ∃ w', w ≤ w' ∧ b.Underway known .declaring w' t)
      fun t => ∃ w', b.Since known .declaring w' t := by
  have hlaws : (b.since known (.resolving i)).Resolves := since_resolves nofun
  have hdeeper := hlaws.resolveWithin n n (.inl rfl)
  have hwhole := h.endsIn (hlaws.resolveWithin (n + 1) (n + 1) (.inl rfl) w i i ⟨rfl, hi⟩)
  have hfirst := h.endsIn (hlaws.resolvingWithin hdeeper w ⟨rfl, hi⟩)
  rcases hr : Load.resolveWithin (n + 1) i s with ⟨e | u, t⟩
  · -- Either the evaluation stops, or the resolution of what the expression refers to does.
    obtain ⟨w', ht⟩ := hwhole.of_error hr
    refine .of_run_error hr ⟨w', ht.declaring ?_⟩
    rw [Load.resolveWithin] at hr
    rcases Load.bind_eq_error.1 hr with hr | ⟨nested, m, hm, hr⟩
    · exact .inl (failed_of_resolving hr (hidle ▸ List.not_mem_nil))
    · obtain ⟨w'', -, hm', -, -, hdone⟩ := hfirst.of_ok hm
      obtain ⟨hlt, hres⟩ := hm'.concrete i hdone
      exact .inr (hres.grows (hm'.size ▸ hlt) (Load.grows_of_apply hr))
  · obtain ⟨w', hw', ht, -, hdone⟩ := hwhole.of_ok hr
    exact .of_run_ok hr ⟨w', hw', ht.declaring (.inr (ht.concrete i hdone).2)⟩

/-- The first shape of the work list is taken from it, and resolved unless it has failed. -/
theorem Underway.resolveFirst (h : b.Underway known .declaring w s) (hidle : s.inProgress = [])
    {i : ShapeId} {rest : List ShapeId} (hq : s.unresolved = i :: rest) (n : Nat) :
    (Load.unlessFailed i (Load.resolveWithin (n + 1) i)).EndsIn s.popUnresolved
      (fun _ t => (∃ w', w ≤ w' ∧ b.Underway known .declaring w' t) ∧ t.inProgress = [])
      fun t => ∃ w', b.Since known .declaring w' t := by
  have hi : i < w.size := h.queue i (hq ▸ List.mem_cons_self)
  have hpop := h.popUnresolved hq
  have hresolve : (Load.unlessFailed i (Load.resolveWithin (n + 1) i)).EndsIn s.popUnresolved
      (fun _ t => ∃ w', w ≤ w' ∧ b.Underway known .declaring w' t)
      fun t => ∃ w', b.Since known .declaring w' t := by
    refine .ask ?_
    cases hf : s.popUnresolved.isFailed i with
    | true => exact .pure ⟨w, le_rfl, hpop.declaring (.inl (List.contains_iff_mem.1 hf))⟩
    | false => exact hpop.resolvePopped hi hidle n
  exact hresolve.grows.imp (fun _ _ ht => ⟨ht.1, ht.2.inProgress.trans hidle⟩) fun _ ht => ht.1

/-- Resolving the work list empties it, or stops. -/
theorem Underway.drain (depth n : Nat) : ∀ {w : Extent b} {s : Store},
    b.Underway known .declaring w s → s.inProgress = [] →
    (Load.drain (depth + 1) n).EndsIn s
      (fun _ t => ∃ w', w ≤ w' ∧ b.Underway known .binding w' t)
      fun t => ∃ w', b.Since known .declaring w' t := by
  induction n with
  | zero =>
    intro w s h _
    exact .stop ⟨w, h.toSince⟩
  | succ n ih =>
    intro w s h hidle
    refine .ask ?_
    split
    · next hq => exact .pure ⟨w, le_rfl, h.binding hq⟩
    · next i rest hq =>
      refine .change (.bind (h.resolveFirst hidle hq depth) ?_)
      rintro _ t ⟨⟨w', hw', ht⟩, hidle'⟩
      refine (ih ht hidle').imp (fun _ t' ht' => ?_) fun _ ht' => ht'
      obtain ⟨w'', hw'', ht'⟩ := ht'
      exact ⟨w'', le_trans hw' hw'', ht'⟩

/-- Outside of the work list the phase of a request does not matter. -/
theorem Since.declaring_of_binding (h : b.Since known .binding w s) :
    b.Since known .declaring w s :=
  { h with
    waiting := fun i a ha hu =>
      (h.waiting i a ha hu).imp_right fun hq => .inl (hq.resolve_right nofun)
    quiet := nofun }

/-- The annotations of the shapes of a request can be bound. -/
theorem Underway.bindRel (h : b.Underway known phase w s) {a : Shape} (ha : a ∈ s.unbound) :
    (b.since known phase).BindRel w a a := by
  obtain ⟨i, -, hi, hnot⟩ := mem_unbound.1 ha
  obtain rfl := h.ids i a hi
  exact ⟨h.shapes _ a hi, ⟨rfl, h.size ▸ (Array.getElem?_eq_some_iff.1 hi).1⟩,
    (h.locations _ a hi).resolve_left hnot⟩

/-- Resolving everything empties the work list, or stops. -/
theorem Underway.resolveAll (h : b.Underway known .declaring w s) (hidle : s.inProgress = []) :
    Load.resolveAll.EndsIn s
      (fun _ t => ∃ w', w ≤ w' ∧ b.Underway known .binding w' t)
      fun t => ∃ w', b.Since known .declaring w' t := by
  refine .bind (P := fun _ t => ∃ w', w ≤ w' ∧ b.Underway known .binding w' t) ?_ ?_
  · exact .ask (.ask (Underway.drain _ _ h hidle))
  · rintro _ t ⟨w', hw', ht⟩
    have hbinds := since_binds.bindShapes t.unbound w' (List.forall₂_same.2 fun a ha => ht.bindRel ha)
    refine .ask (.bind ((ht.endsIn hbinds).imp (fun _ _ h => h) fun _ h => ?_) ?_)
    · obtain ⟨w'', ht'⟩ := h
      exact ⟨w'', ht'.declaring_of_binding⟩
    · rintro _ t' ⟨w'', hw'', ht', -⟩
      exact .of_run_ok rfl ⟨w'', le_trans hw' hw'', { ht' with same := { ht'.same with } }⟩

/-- There is nothing to resolve under a number that no shape has. -/
theorem resolve_of_size_le {i : ShapeId} (h : s.shapes.size ≤ i) : Load.resolve i s = (.ok (), s) := by
  have hclaim : s.claim i = .ok none := by
    rw [claim, Array.getElem?_eq_none h]
  rw [Load.resolve, Load.ask_bind, Load.resolveWithin, Load.bind_apply, Load.resolving_apply, hclaim]
  rfl

/-- Resolving a shape keeps what holds during a request. -/
theorem Underway.resolve (h : b.Underway known .declaring w s) (i : ShapeId) :
    (Load.resolve i).EndsIn s (fun _ t => ∃ w', w ≤ w' ∧ b.Underway known .declaring w' t)
      fun t => ∃ w', b.Since known .declaring w' t := by
  rcases Nat.lt_or_ge i w.size with hi | hi
  · have hlaws : (b.since known .declaring).Resolves := since_resolves nofun
    refine .ask ((h.endsIn (hlaws.resolveWithin _ _ (.inl rfl) w i i ⟨rfl, hi⟩)).imp ?_ fun _ ht => ht)
    rintro _ t ⟨w', hw', ht, -⟩
    exact ⟨w', hw', ht⟩
  · exact .of_run_ok (resolve_of_size_le (h.size ▸ hi)) ⟨w, le_rfl, h⟩

/-! ## What is left after a request -/

/-- The load of a fragment, before what it has done is taken back if it stops. -/
theorem Coherent.load (h : b.Coherent) (hm : Mentions known b) (p : Path) :
    (do let f ← Load.fragment p; Load.resolveIfEager; return f : Load Fragment).EndsIn b
      (fun f t => ∃ w, b.Underway known .declaring w t ∧ f.IsBelow w.size ∧
        (b.settings.eagerResolution → t.unresolved = []))
      fun t => ∃ w, b.Since known .declaring w t := by
  have hloads : (b.since known .declaring).Loads _ := since_loads nofun
  have hfragment := ((h.underway hm).endsIn (hloads.fragment (.start b) p)).grows
  refine Load.EndsIn.bind (hfragment.imp (fun _ _ ht => ht) fun _ ht => ht.1) ?_
  rintro f t ⟨⟨w, -, ht, hf⟩, hgrows⟩
  rw [Load.resolveIfEager, bind_assoc]
  refine .ask ?_
  rw [hgrows.settings]
  cases b.settings.eagerResolution with
  | false => exact .pure ⟨w, ht, hf, nofun⟩
  | true =>
    refine (ht.resolveAll (hgrows.inProgress.trans h.inProgress)).bind ?_
    rintro _ t' ⟨w', hw', ht'⟩
    have hquiet := ht'.quiet rfl
    refine .pure ⟨w', { ht' with toSince := ht'.toSince.declaring_of_binding }, ?_, fun _ => hquiet⟩
    exact hf.mono (fun _ _ => .mono hw'.1) fun _ _ => .mono fun _ _ => .mono hw'.1

theorem find?_of_keepKnown {α : Type} {ks : List PathKey} {d : Dict PathKey α} {k : PathKey} {v : α}
    (h : Dict.find? k (keepKnown ks d) = some v) : k ∈ ks ∧ Dict.find? k d = some v := by
  rw [find?_keepKnown] at h
  split at h
  · next hk => exact ⟨hk, h⟩
  · cases h

/-- Taking back what a stopped load has left behind leaves a coherent store. -/
theorem Since.rollback (h : b.Since known .declaring w s) (hl : s.loading = [])
    (hi : s.inProgress = []) : (s.rollback b).Coherent where
  loading := hl
  inProgress := hi
  ids := h.ids
  shapes i a ha := by
    show a.Rel (Below s.shapes.size) a
    exact h.size ▸ h.shapes i a ha
  declared := h.declared
  parents := h.parents
  waiting i a ha hu := by
    have ha : s.shapes[i]? = some a := ha
    rw [mem_failed_rollback]
    rcases Nat.lt_or_ge i b.shapes.size with hlt | hge
    · rcases h.waiting i a ha hu with hf | hq
      · exact .inl (.inl hf)
      · exact .inr (List.mem_filter.2 ⟨hq.resolve_right nofun, decide_eq_true hlt⟩)
    · exact .inl (.inr ⟨hge, (Array.getElem?_eq_some_iff.1 ha).1⟩)
  queue i hi := by
    show i < s.shapes.size
    exact h.size ▸ h.queue i (List.mem_filter.1 hi).1
  resolved i hi := by
    show i < s.shapes.size
    exact h.size ▸ h.resolved i (List.mem_filter.1 hi).1
  fragments k f hf := by
    show f.IsBelow s.shapes.size
    exact h.size ▸ h.fragments k f (find?_of_keepKnown hf).2
  named k d hd := by
    show Dict.Rel (Below s.shapes.size) d d
    exact h.size ▸ (h.named k d (find?_of_keepKnown hd).2).2
  annotationTypes k d hd := by
    show Dict.Rel (Below s.shapes.size) d d
    exact h.size ▸ (h.annotationTypes k d (find?_of_keepKnown hd).2).2

/-- The outcome of a request that was made of the store `b`: the store is coherent again, and no
other shape has failed unless the request has stopped. -/
structure Serves (b : Store) (r : Except Stop α × Store) : Prop where
  coherent : r.2.Coherent
  settings : r.2.settings = b.settings
  failed : ∀ a, r.1 = .ok a → r.2.failed = b.failed

section
variable (h : b.Coherent) {x : Load α}
  (hx : x.EndsIn b (fun _ t => ∃ w, b.Underway known .declaring w t)
    fun t => ∃ w, b.Since known .declaring w t)
include h hx

/-- A request that is not taken back. -/
theorem Coherent.serves : b.Serves (x b) := by
  have hgrows := x.grows b
  have hloading : (x b).2.loading = [] := List.subset_nil.1 (h.loading ▸ hgrows.loading)
  have hidle : (x b).2.inProgress = [] := hgrows.inProgress.trans h.inProgress
  rcases hr : x b with ⟨e | a, t⟩
  all_goals rw [hr] at hgrows hloading hidle
  · obtain ⟨w, hw⟩ := hx.of_error hr
    exact ⟨hw.coherent hloading hidle, hgrows.settings, nofun⟩
  · obtain ⟨w, hw⟩ := hx.of_ok hr
    exact ⟨hw.toSince.coherent hloading hidle, hgrows.settings, fun _ _ => hw.failed⟩

/-- A request that is taken back when it stops. -/
theorem Coherent.serves_orRollback : b.Serves (Load.orRollback x b) := by
  have hgrows := x.grows b
  have hloading : (x b).2.loading = [] := List.subset_nil.1 (h.loading ▸ hgrows.loading)
  have hidle : (x b).2.inProgress = [] := hgrows.inProgress.trans h.inProgress
  rw [Load.orRollback]
  rcases hr : x b with ⟨e | a, t⟩
  all_goals rw [hr] at hgrows hloading hidle
  · obtain ⟨w, hw⟩ := hx.of_error hr
    refine ⟨hw.rollback hloading hidle, hgrows.settings, ?_⟩
    rintro _ ⟨⟩
  · obtain ⟨w, hw⟩ := hx.of_ok hr
    exact ⟨hw.toSince.coherent hloading hidle, hgrows.settings, fun _ _ => hw.failed⟩

end

end Store

end RamlTypes
