import RamlTypes.Proofs.ClosedWorld.Laws
import RamlTypes.Resolution.Load

/-!
# Eager loads keep a store settled

Resolving the work list and binding annotations lead from a store during a load to one in which
nothing waits, or stop; what a stopped load leaves behind is taken back. So the store is settled
again after every load (`Store.Settled.load`), whether or not it succeeds.
-/

namespace RamlTypes

namespace Store

variable {b s : Store} {phase : Phase} {w : Extent b} {α β : Type}

/-- The load, started in `s`, ends in a store with the property `P`, or stops. -/
def Leads (b s : Store) (x : Load α) (P : α → Store → Prop) : Prop :=
  match x s with
  | (.ok a, t) => P a t
  | (.error _, t) => b.Stopped t

/-- What is asked of the end may be weakened. -/
theorem Leads.imp {x : Load α} {P Q : α → Store → Prop} (hx : b.Leads s x P)
    (h : ∀ a t, P a t → Q a t) : b.Leads s x Q := by
  rw [Leads] at hx ⊢
  split at hx
  · exact h _ _ hx
  · exact hx

/-- A sequence leads where its second part leads. -/
theorem Leads.bind {x : Load α} {f : α → Load β} {P : α → Store → Prop} {Q : β → Store → Prop}
    (hx : b.Leads s x P) (hf : ∀ a t, P a t → b.Leads t (f a) Q) : b.Leads s (x >>= f) Q := by
  rw [Leads] at hx ⊢
  rw [Load.bind_apply]
  generalize x s = r at hx ⊢
  rcases r with ⟨e | a, t⟩
  · exact hx
  · exact hf a t hx

/-- A load only adds to the store. -/
theorem Leads.grows {x : Load α} {P : α → Store → Prop} (hx : b.Leads s x P) :
    b.Leads s x fun a t => P a t ∧ s.Grows t := by
  have hg := x.grows s
  rw [Leads] at hx ⊢
  generalize x s = r at hx hg ⊢
  split at hx
  · exact ⟨hx, hg⟩
  · exact hx

/-- What the load goes on with depends on the store. -/
theorem Leads.ask {f : Store → α} {k : α → Load β} {P : β → Store → Prop}
    (h : b.Leads s (k (f s)) P) : b.Leads s (Load.ask f >>= k) P := h

/-- A change is followed by what comes after it. -/
theorem Leads.change {f : Store → Store} {hf : ∀ s : Store, s.Grows (f s)} {k : Unit → Load β}
    {P : β → Store → Prop} (h : b.Leads (f s) (k ()) P) : b.Leads s (Load.change f hf >>= k) P := h

/-- A result that is there leads to itself. -/
theorem Leads.pure {a : α} {P : α → Store → Prop} (h : P a s) : b.Leads s (pure a) P := h

/-- A run that is served ends where it leads. -/
theorem Leads.of_ok {x : Load α} {P : α → Store → Prop} (hx : b.Leads s x P) {a : α} {t : Store}
    (hr : x s = (.ok a, t)) : P a t := by
  rw [Leads, hr] at hx
  exact hx

/-- A run that obeys the laws of comparison keeps what holds during the load. -/
theorem During.leads (h : b.During phase w s) {x : Load α} {Q : Extent b → α → α → Prop}
    (hx : (b.during phase).Agree w x x Q) :
    b.Leads s x fun a t => ∃ w', w ≤ w' ∧ b.During phase w' t ∧ Q w' a a := by
  rw [Leads]
  have hxx := hx s s ⟨rfl, h⟩ trivial
  generalize x s = r at hxx
  cases hxx with
  | ok le stores hq => exact ⟨_, le, stores.2, hq⟩
  | error _ stopped => exact stopped.2
  | excusedLeft h => exact h.elim
  | ignoredRight h => exact h.elim

/-! ## The work list -/

/-- A shape is taken from the work list. -/
theorem During.popUnresolved (h : b.During .declaring w s) {i : ShapeId} {rest : List ShapeId}
    (hi : s.unresolved = i :: rest) : b.During (.resolving i) w s.popUnresolved := by
  have htail : s.popUnresolved.unresolved = rest := by rw [Store.popUnresolved, hi, List.tail_cons]
  exact
  { h with
    same := { h.same with }
    waiting := fun j a hj ha hu => by
      have hmem := (h.waiting j a hj ha hu).resolve_right nofun
      rw [hi] at hmem
      rw [htail]
      rcases List.mem_cons.1 hmem with rfl | hmem
      · exact .inr rfl
      · exact .inl hmem
    queue := fun j hj => by
      rw [htail] at hj
      exact h.queue j (hi ▸ List.mem_cons_of_mem _ hj)
    quiet := nofun }

/-- The shape that was taken from the work list is resolved. -/
theorem During.declaring {i : ShapeId} (h : b.During (.resolving i) w s) (hi : w.resolved i) :
    b.During .declaring w s :=
  { h with
    waiting := fun j a hj ha hu => by
      refine .inl ((h.waiting j a hj ha hu).resolve_right ?_)
      rintro ⟨⟩
      rw [(h.resolved i hi).2 a ha] at hu
      cases hu
    quiet := nofun }

/-- When the work list is empty, everything is resolved. -/
theorem During.binding (h : b.During .declaring w s) (hq : s.unresolved = []) :
    b.During .binding w s :=
  { h with
    waiting := fun j a hj ha hu => .inl ((h.waiting j a hj ha hu).resolve_right nofun)
    quiet := fun _ => hq }

section
variable (hb : b.Settled)
include hb

/-- Resolving the work list resolves everything, or stops. -/
theorem During.drain (depth n : Nat) : ∀ {w : Extent b} {s : Store}, b.During .declaring w s →
    b.Leads s (Load.drain depth n) fun _ t => ∃ w', w ≤ w' ∧ b.During .binding w' t := by
  induction n with
  | zero =>
    intro w s h
    exact h.stopped
  | succ n ih =>
    intro w s h
    refine .ask ?_
    split
    · next hq => exact ⟨w, le_rfl, h.binding hq⟩
    · next i rest hq =>
      obtain ⟨hle, hlt⟩ := h.queue i (hq ▸ List.mem_cons_self)
      have hnot : i ∉ b.failed := fun hf => Nat.not_lt_of_le hle (hb.failed i hf)
      have hfailed : s.popUnresolved.isFailed i = false := by
        rw [isFailed, List.contains_eq_mem, decide_eq_false_iff_not]
        exact fun hf => hnot (h.failed ▸ hf)
      have hphase : Phase.resolving i ≠ .binding := Phase.noConfusion
      have hlaws : (b.during (.resolving i)).Resolves := during_resolves hb hphase
      have hresolve := hlaws.resolveWithin depth depth (.inl rfl) w i i ⟨rfl, hlt, hnot⟩
      refine .change (.bind (P := fun _ t => ∃ w', w ≤ w' ∧ b.During .declaring w' t) ?_ ?_)
      · refine .ask ?_
        rw [hfailed]
        refine ((h.popUnresolved hq).leads hresolve).imp ?_
        rintro _ t ⟨w', hw', ht, -, hi⟩
        exact ⟨w', hw', ht.declaring hi⟩
      · rintro _ t ⟨w', hw', ht⟩
        refine (ih ht).imp ?_
        rintro _ t' ⟨w'', hw'', ht'⟩
        exact ⟨w'', le_trans hw' hw'', ht'⟩

/-- Only shapes that the load has added are to be bound. -/
theorem During.bindRel (h : b.During phase w s) {a : Shape} (ha : a ∈ s.unbound) :
    (b.during phase).BindRel w a a := by
  obtain ⟨i, hle, hi, hnot⟩ := mem_unbound.1 ha
  have hlt : i < w.size := h.size ▸ (Array.getElem?_eq_some_iff.1 hi).1
  obtain rfl := h.ids i a hi
  rw [h.failed] at hnot
  have hge : b.shapes.size ≤ a.id :=
    Nat.le_of_not_lt fun hb' => hnot (hb.bound _ (h.bound ▸ hle) hb')
  exact ⟨h.alive _ a hi hnot, ⟨⟨rfl, hlt, hnot⟩, hge⟩, h.begun _ a hge hi⟩

/-- Resolving everything and binding annotations leads to a store in which all is resolved and
bound, or stops. -/
theorem During.resolveAll (h : b.During .declaring w s) :
    b.Leads s Load.resolveAll fun _ t =>
      ∃ w' t', w ≤ w' ∧ b.During .binding w' t' ∧ t = { t' with annotationsBound := t'.shapes.size } := by
  refine .bind (P := fun _ t => ∃ w', w ≤ w' ∧ b.During .binding w' t) ?_ ?_
  · exact .ask (.ask (During.drain hb _ _ h))
  · rintro _ t ⟨w', hw', ht⟩
    have hbinds := Comparison.Binds.bindShapes (during_binds (b := b)) t.unbound w'
      (List.forall₂_same.2 fun a ha => ht.bindRel hb ha)
    refine .ask (.bind (ht.leads hbinds) ?_)
    rintro _ t' ⟨w'', hw'', ht', -⟩
    exact ⟨w'', t', le_trans hw' hw'', ht', rfl⟩

/-! ## What is left after a load -/

/-- A load of a settled store that succeeds leaves a settled store. -/
theorem During.settled (h : b.During .binding w s) (hl : s.loading = []) (hi : s.inProgress = []) :
    { s with annotationsBound := s.shapes.size }.Settled := by
  have cached {k : PathKey} (hk : Dict.has k b.fragments ∨ w.begun k) : Dict.has k s.fragments := by
    rcases hk with hk | hk
    · rwa [Dict.has, h.same.fragments k hk]
    · rcases h.loading k hk with hk | hk
      · exact hk
      · rw [hl] at hk
        cases hk
  have alive : Alive s.shapes.size s.failed = w.Alive := by rw [h.size, h.failed]
  exact
  { loading := hl
    inProgress := hi
    unresolved := h.quiet rfl
    ids := h.ids
    resolved := fun i a ha hf => by
      rcases Nat.lt_or_ge i b.shapes.size with hlt | hge
      · exact hb.resolved i a (h.old i hlt ▸ ha) (h.failed ▸ hf)
      · refine Bool.eq_false_iff.2 fun hu => ?_
        have hmem := (h.waiting i a hge ha hu).resolve_right Phase.noConfusion
        rw [h.quiet rfl] at hmem
        cases hmem
    failed := fun i hf => by
      rw [h.size]
      exact Nat.lt_of_lt_of_le (hb.failed i (h.failed ▸ hf)) w.size_le
    bound_le := Nat.le_refl _
    bound := fun i hle hlt => absurd hlt (Nat.not_lt_of_le hle)
    shapes := fun i a ha hf => by
      rw [alive]
      exact h.alive i a ha (h.failed ▸ hf)
    fragments := fun k f hf => by
      have hal := h.fragments k f hf
      rwa [← h.size, ← h.failed] at hal
    named := fun k d hd => by
      rw [alive]
      exact (h.named k d hd).imp_left cached
    annotationTypes := fun k d hd => by
      rw [alive]
      exact (h.annotationTypes k d hd).imp_left cached
    uses := fun k hk => cached (h.uses k hk) }

/-- Taking back what a stopped load has left behind leaves a settled store. -/
theorem Stopped.settled (h : b.Stopped s) (hl : s.loading = []) (hi : s.inProgress = []) :
    (s.rollback b).Settled := by
  have known {α : Type} {d d' : Dict PathKey α}
      (hd : ∀ k, Dict.has k b.fragments → Dict.find? k d = Dict.find? k d') {k : PathKey} {v : α}
      (hv : Dict.find? k (keepKnown (Dict.keys b.fragments) d) = some v) :
      Dict.has k b.fragments ∧ Dict.find? k d' = some v := by
    rw [find?_keepKnown] at hv
    split at hv
    · next hk =>
      rw [Dict.mem_keys] at hk
      exact ⟨hk, hd k hk ▸ hv⟩
    · cases hv
  -- All shapes above the mark are marked as failed, so one that has not failed was there before.
  have not_failed {i : ShapeId} (hf : i ∉ (s.rollback b).failed) (hlt : i < s.shapes.size) :
      i < b.shapes.size ∧ i ∉ b.failed := by
    rw [mem_failed_rollback, not_or, not_and] at hf
    exact ⟨Nat.lt_of_not_le fun hge => hf.2 hge hlt, fun hb' => hf.1 (h.failed_of_failed i hb')⟩
  have alive {i j : ShapeId} (hij : Alive b.shapes.size b.failed i j) :
      Alive s.shapes.size (s.rollback b).failed i j := by
    refine ⟨hij.1, Nat.lt_of_lt_of_le hij.2.1 h.size_le, fun hf => ?_⟩
    rcases mem_failed_rollback.1 hf with hf | hf
    · rcases h.failed i hf with hf | hf
      · exact hij.2.2 hf
      · exact Nat.not_lt_of_le hf.1 hij.2.1
    · exact Nat.not_lt_of_le hf.1 hij.2.1
  have cached {k : PathKey} (hk : Dict.has k b.fragments) :
      Dict.has k (s.rollback b).fragments := by
    show Dict.has k (keepKnown _ _)
    rwa [Dict.has, find?_keepKnown, if_pos (Dict.mem_keys.2 hk), h.same.fragments k hk]
  exact
  { loading := hl
    inProgress := hi
    unresolved := List.filter_eq_nil_iff.2 fun i hi => by simpa using h.queue i hi
    ids := h.ids
    resolved := fun i a ha hf => by
      obtain ⟨hlt, hnot⟩ := not_failed hf (Array.getElem?_eq_some_iff.1 ha).1
      exact hb.resolved i a (h.old i hlt ▸ ha) hnot
    failed := fun i hf => by
      rcases mem_failed_rollback.1 hf with hf | hf
      · rcases h.failed i hf with hf | hf
        · exact Nat.lt_of_lt_of_le (hb.failed i hf) h.size_le
        · exact hf.2
      · exact hf.2
    bound_le := by
      show s.annotationsBound ≤ s.shapes.size
      rw [h.bound]
      exact Nat.le_trans hb.bound_le h.size_le
    bound := fun i hle hlt => by
      refine Classical.byContradiction fun hf => ?_
      obtain ⟨hlt', hnot⟩ := not_failed hf hlt
      exact hnot (hb.bound i (h.bound ▸ hle) hlt')
    shapes := fun i a ha hf => by
      obtain ⟨hlt, hnot⟩ := not_failed hf (Array.getElem?_eq_some_iff.1 ha).1
      exact (hb.shapes i a (h.old i hlt ▸ ha) hnot).mono fun _ _ => alive
    fragments := fun k f hf => by
      obtain ⟨-, hf⟩ := known h.same.fragments hf
      exact (hb.fragments k f hf).mono (fun _ _ => alive) fun _ _ => .mono fun _ _ => alive
    named := fun k d hd => by
      obtain ⟨hk, hd⟩ := known h.same.named hd
      exact ⟨cached hk, (hb.named k d hd).2.mono fun _ _ => alive⟩
    annotationTypes := fun k d hd => by
      obtain ⟨hk, hd⟩ := known h.same.annotationTypes hd
      exact ⟨cached hk, (hb.annotationTypes k d hd).2.mono fun _ _ => alive⟩
    uses := fun k hk => by
      obtain ⟨d, hd⟩ := Dict.has_iff.1 hk
      exact cached (known h.same.uses hd).1 }

/-- A load that ends is one in whose store all is resolved and bound. -/
theorem Settled.leads_load (he : b.settings.eagerResolution) (p : Path) :
    b.Leads b (do let f ← Load.fragment p; Load.resolveIfEager; return f) fun _ t =>
      ∃ w t', b.During .binding w t' ∧ t = { t' with annotationsBound := t'.shapes.size } := by
  have hlaws : (b.during .declaring).Loads _ := during_loads hb nofun
  refine .bind (hb.during.leads (hlaws.fragment (.start b) p)).grows ?_
  rintro f t ⟨⟨w, -, ht, -⟩, hgrows⟩
  refine .bind (.ask ?_) fun _ t' h => .pure h
  rw [hgrows.settings, he, if_pos rfl]
  refine (ht.resolveAll hb).imp ?_
  rintro _ _ ⟨w', t', -, ht', rfl⟩
  exact ⟨w', t', ht', rfl⟩

/-- A load leaves a settled store, whether or not it succeeds. -/
theorem Settled.load (he : b.settings.eagerResolution) (p : Path) :
    (Load.load p b).2.Settled := by
  let x : Load Fragment := do
    let f ← Load.fragment p
    Load.resolveIfEager
    return f
  have hx := hb.leads_load he p
  have hgrows := x.grows b
  have hloading : (x b).2.loading = [] :=
    List.subset_nil.1 (hb.loading ▸ hgrows.loading)
  have hinProgress : (x b).2.inProgress = [] := hgrows.inProgress.trans hb.inProgress
  show (Load.orRollback x b).2.Settled
  rw [Store.Leads] at hx
  rw [Load.orRollback]
  generalize x b = r at hx hloading hinProgress ⊢
  rcases r with ⟨_ | f, t⟩
  · exact Stopped.settled hb hx hloading hinProgress
  · obtain ⟨w, t', ht', rfl⟩ := hx
    exact ht'.settled hb hloading hinProgress

/-- A load leaves the shapes as they are that there were before, whether or not it succeeds. -/
theorem Settled.getElem?_load (he : b.settings.eagerResolution) (p : Path) {i : ShapeId}
    (hi : i < b.shapes.size) : (Load.load p b).2.shapes[i]? = b.shapes[i]? := by
  have hx := hb.leads_load he p
  rw [Store.Leads] at hx
  rw [Load.load, Load.orRollback]
  split at hx
  · next hr =>
    rw [hr]
    obtain ⟨w, t', ht', rfl⟩ := hx
    exact ht'.old i hi
  · next hr =>
    rw [hr]
    exact hx.old i hi

end

end Store

end RamlTypes
