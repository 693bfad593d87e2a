import RamlTypes.Proofs.Aftermath.Laws
import RamlTypes.Proofs.Termination.Sessions

/-!
# Rounds beside a residue

Resolving the work list goes through rounds, one for each shape that is taken from the list. Beside a
residue there is a corresponding round for each one without it, as long as none is left of the shapes
that waited before the load, or nothing waits that the load has added (`Store.Despite.rounds`).
-/

namespace RamlTypes.Store

variable {base s t u : Store} {depth : Nat}

/-! ## Rounds of one run -/

theorem Round.grows (h : Round depth s t) : s.Grows t := by
  obtain ⟨i, rest, -, hrun⟩ := h
  exact (grows_popUnresolved s).trans (Load.grows_of_apply hrun)

theorem grows_of_rounds (h : Relation.ReflTransGen (Round depth) s t) : s.Grows t := by
  induction h with
  | refl => exact .refl s
  | tail _ hround ih => exact ih.trans hround.grows

/-- Resolving the work list begins with a round. -/
theorem drain_of_round (h : Round depth s t) (n : Nat) :
    Load.drain depth (n + 1) s = Load.drain depth n t := by
  obtain ⟨i, rest, hq, hrun⟩ := h
  rw [Load.drain, Load.ask_bind, hq]
  exact Load.bind_of_ok hrun _

/-- It goes through rounds until nothing waits. -/
theorem rounds_of_drain (n : Nat) : ∀ {s : Store}, Load.drain depth n s = (.ok (), t) →
    Relation.ReflTransGen (Round depth) s t ∧ t.unresolved = [] := by
  induction n with
  | zero => exact fun h => nomatch h
  | succ n ih =>
    intro s h
    rw [Load.drain, Load.ask_bind] at h
    split at h
    · next hq =>
      cases h
      exact ⟨.refl, hq⟩
    · next i rest hq =>
      rw [Load.change_bind] at h
      obtain ⟨_, u, hu, h⟩ := Load.bind_eq_ok.1 h
      obtain ⟨hrounds, hdone⟩ := ih h
      exact ⟨.head ⟨i, rest, hq, hu⟩ hrounds, hdone⟩

/-- After some rounds it goes on as if it began there. -/
theorem Draining.exists_drain (hrounds : Relation.ReflTransGen (Round (depth + 1)) s t) :
    base.Draining depth s → ∀ n, s.work < n →
      ∃ m, t.work < m ∧ Load.drain (depth + 1) n s = Load.drain (depth + 1) m t := by
  induction hrounds using Relation.ReflTransGen.head_induction_on with
  | refl => exact fun _ n hn => ⟨n, hn, rfl⟩
  | head hround _ ih =>
    intro h n hn
    obtain ⟨hdraining, hlt⟩ := h.round hround
    cases n with
    | zero => exact absurd hn (Nat.not_lt_zero _)
    | succ n =>
      obtain ⟨m, hm, heq⟩ := ih hdraining n (Nat.lt_of_lt_of_le hlt (Nat.le_of_lt_succ hn))
      exact ⟨m, hm, (drain_of_round hround n).trans heq⟩

theorem Draining.exists_drainAll (h : base.Draining s.potential s)
    (hrounds : Relation.ReflTransGen (Round (s.potential + 1)) s t) :
    ∃ m, t.work < m ∧ Load.drainAll s = Load.drain (s.potential + 1) m t := by
  show ∃ m, t.work < m ∧ Load.drain _ (s.unresolved.length + s.potential + 1) s = _
  refine h.exists_drain hrounds _ ?_
  have hdebt := h.debt
  rw [work]
  omega

/-- Where nothing waits after some rounds, the work list is resolved. -/
theorem Draining.drainAll_of_rounds (h : base.Draining s.potential s)
    (hrounds : Relation.ReflTransGen (Round (s.potential + 1)) s t) (hdone : t.unresolved = []) :
    Load.drainAll s = (.ok (), t) := by
  obtain ⟨m, hm, heq⟩ := h.exists_drainAll hrounds
  cases m with
  | zero => exact absurd hm (Nat.not_lt_zero _)
  | succ m =>
    rw [heq, Load.drain, Load.ask_bind, hdone]
    rfl

/-! ## Rounds of two runs -/

namespace Despite

variable {r : Residue} {w : Progress}

/-- The first shape that waits is the same on both sides: it waited before the load, or nothing waits
that the load has added. -/
theorem popUnresolved (h : Despite r w s t) {j : ShapeId} {rest : List ShapeId}
    (hq : t.unresolved = j :: rest) (hj : j < r.mark ∨ r.waiting = []) :
    ∃ i rest', s.unresolved = i :: rest' ∧ r.Moved w.size i j ∧
      Despite r w s.popUnresolved t.popUnresolved := by
  obtain ⟨old, new, ht, hs, hold, hnew⟩ := h.queue
  rw [hq] at ht
  cases old with
  | nil =>
    obtain rfl : j :: rest = new := ht
    obtain ⟨hmark, hlt⟩ := hnew j List.mem_cons_self
    have hwaiting := hj.resolve_left (Nat.not_lt_of_le hmark)
    rw [hwaiting] at hs
    have hpop : Despite r w s.popUnresolved t.popUnresolved :=
      { h with
        queue := by
          refine ⟨[], rest, ?_, ?_, nofun, fun k hk => hnew k (List.mem_cons_of_mem _ hk)⟩
          · rw [Store.popUnresolved, hq]
            rfl
          · rw [Store.popUnresolved, hs, hwaiting]
            rfl }
    exact ⟨_, _, hs, ⟨rfl, hlt⟩, hpop⟩
  | cons k old =>
    obtain ⟨rfl, rfl⟩ : j = k ∧ rest = old ++ new := List.cons.inj ht
    have hlt := hold j List.mem_cons_self
    have hpop : Despite r w s.popUnresolved t.popUnresolved :=
      { h with
        queue := by
          refine ⟨old, new, ?_, ?_, fun k hk => hold k (List.mem_cons_of_mem _ hk), hnew⟩
          · rw [Store.popUnresolved, hq]
            rfl
          · rw [Store.popUnresolved, hs]
            rfl }
    exact ⟨j, _, hs, ⟨(displace_of_lt hlt _).symm, Nat.lt_of_lt_of_le hlt h.mark_le⟩, hpop⟩

/-- There is a round beside the residue for one without it. -/
theorem round (h : Despite r w s t) (hd : base.Draining depth s) {d : Nat} {j : ShapeId}
    {rest : List ShapeId} (hq : t.unresolved = j :: rest) (hj : j < r.mark ∨ r.waiting = [])
    (hround : Round d t u) (final : (despite r).final u) :
    ∃ w' v, Round (depth + 1) s v ∧ Despite r w' v u := by
  obtain ⟨k, rest', hq', hrun⟩ := hround
  cases hq.symm.trans hq'
  obtain ⟨i, rest'', hs, hij, hpop⟩ := h.popUnresolved hq hj
  have hagree : (despite r).Agree w (Load.unlessFailed i (Load.resolveWithin (depth + 1) i))
      (Load.unlessFailed j (Load.resolveWithin d j)) fun _ _ _ => True := by
    refine .see (P := fun _ => True) (fun s t h => ⟨(h.isFailed hij).symm, trivial⟩)
      fun failed _ => ?_
    cases failed with
    | true => exact .pure trivial
    | false =>
      exact (despite_resolves.resolveWithin (depth + 1) d (.inr ⟨rfl, trivial⟩) w i j hij).imp
        fun _ _ _ _ _ => trivial
  have hends := hagree _ _ hpop (by rwa [hrun])
  rw [hrun] at hends
  rcases hrs : Load.unlessFailed i (Load.resolveWithin (depth + 1) i) s.popUnresolved with ⟨e | _, v⟩
  all_goals rw [hrs] at hends
  · cases hends with
    | excusedLeft hexhausted =>
      cases hexhausted
      exact absurd rfl ((hd.finishes_first hs).ne_exhausted hrs)
  · cases hends with
    | ok _ stores _ => exact ⟨_, v, ⟨i, _, hs, hrs⟩, stores⟩

/-- So there is for several rounds, until nothing waits without the residue, or only what was stored
after the load. -/
theorem rounds {d : Nat} (hrun : Relation.ReflTransGen (Round d) t u) (final : (despite r).final u) :
    ∀ {w : Progress} {s : Store}, Despite r w s t → base.Draining depth s →
      ∃ w' v t', Relation.ReflTransGen (Round (depth + 1)) s v ∧ Despite r w' v t' ∧
        (t' = u ∨ r.waiting ≠ [] ∧ ∀ j ∈ t'.unresolved, r.mark ≤ j) := by
  induction hrun using Relation.ReflTransGen.head_induction_on with
  | refl => exact fun {w s} h _ => ⟨w, s, u, .refl, h, .inl rfl⟩
  | @head t m hround hrest ih =>
    intro w s h hd
    obtain ⟨j, rest, hq, -⟩ := id hround
    by_cases hj : j < r.mark ∨ r.waiting = []
    · have hfinal := (despite r).final_of_grows (grows_of_rounds hrest) final
      obtain ⟨w', v, hv, h'⟩ := h.round hd hq hj hround hfinal
      obtain ⟨w'', v', t', hrounds, hend⟩ := ih h' (hd.round hv).1
      exact ⟨w'', v', t', .head hv hrounds, hend⟩
    · obtain ⟨hmark, hwaiting⟩ := not_or.1 hj
      refine ⟨w, s, t, .refl, h, .inr ⟨hwaiting, ?_⟩⟩
      obtain ⟨old, new, ht, -, hold, hnew⟩ := h.queue
      rw [ht]
      cases old with
      | nil => exact fun k hk => (hnew k hk).1
      | cons k old =>
        cases hq.symm.trans ht
        exact absurd (hold j List.mem_cons_self) hmark

end Despite

end RamlTypes.Store
