import RamlTypes.Proofs.Lifecycle.Lists

/-!
# Inheritance

A shape is resolved after the shapes that it inherits from, so the resolved shapes have a rank that
falls along inheritance (`Store.Ancestry`). The parents of an unresolved shape have smaller numbers.
So no shape inherits from itself, directly or through others (`Store.Ancestry.acyclic`).
-/

namespace RamlTypes

open Relation (TransGen)

namespace Store

/-- The first shape inherits from the second one. -/
def Inherits (s : Store) (i j : ShapeId) : Prop := ∃ a, s.shapes[i]? = some a ∧ j ∈ a.inherits

/-- In the store resolved shapes inherit from resolved shapes only, which were resolved before. -/
structure Ancestry (s : Store) : Prop extends s.Ordered where
  parents : ∀ (i : ShapeId) (a : Shape), s.HasResolved i a → ∀ j ∈ a.inherits, ∃ d, s.HasResolved j d
  ranked : ∃ rank : ShapeId → Nat, ∀ (i : ShapeId) (a : Shape), s.HasResolved i a →
    ∀ j ∈ a.inherits, rank j < rank i
  order : s.resolved.Pairwise fun i j => ¬ s.Inherits i j

variable {m s t : Store} {i j : ShapeId}

/-- In the empty store nothing is in progress. -/
theorem ancestry_empty (settings : LoadSettings) (files : Files) :
    (empty settings files).Ancestry where
  toOrdered := ordered_empty settings files
  parents _ _ h := nomatch h.1
  ranked := ⟨id, fun _ _ h => nomatch h.1⟩
  order := .nil

/-- A store with the same list of resolved shapes, in which resolved shapes inherit nothing or as
they did before. -/
theorem Ancestry.of_shapes (h : s.Ancestry) (ho : t.Ordered) (hlist : t.resolved = s.resolved)
    (hkeeps : ∀ (i : ShapeId) (a : Shape), s.HasResolved i a → ∃ c, t.HasResolved i c)
    (hsame : ∀ (i : ShapeId) (c : Shape), t.HasResolved i c →
      c.inherits = [] ∨ ∃ a, s.HasResolved i a ∧ a.inherits = c.inherits) : t.Ancestry where
  toOrdered := ho
  parents i c hc j hj := by
    rcases hsame i c hc with hnil | ⟨a, ha, heq⟩
    · rw [hnil] at hj
      cases hj
    · obtain ⟨d, hd⟩ := h.parents i a ha j (heq ▸ hj)
      exact hkeeps j d hd
  ranked := by
    obtain ⟨rank, hrank⟩ := h.ranked
    refine ⟨rank, fun i c hc j hj => ?_⟩
    rcases hsame i c hc with hnil | ⟨a, ha, heq⟩
    · rw [hnil] at hj
      cases hj
    · exact hrank i a ha j (heq ▸ hj)
  order := by
    rw [hlist]
    refine h.order.imp_of_mem fun {i j} hi _ hnot hinherits => hnot ?_
    obtain ⟨c, hc, hj⟩ := hinherits
    obtain ⟨d, hd⟩ := ho.resolved i (hlist ▸ hi)
    cases hc.symm.trans hd.1
    rcases hsame i c hd with hnil | ⟨a, ha, heq⟩
    · rw [hnil] at hj
      cases hj
    · exact ⟨a, ha.1, heq ▸ hj⟩

/-- A shape that is stored inherits nothing, or it waits. -/
theorem Ancestry.addShape (h : s.Ancestry) {a : Shape} (hnew : a.IsNew fun _ => True) :
    (s.addShape a).Ancestry := by
  refine h.of_shapes (h.toOrdered.addShape a) rfl ?_ fun i c hc => ?_
  · exact fun i c hc => hc.grows (s.grows_addShape a)
  · rcases cases_of_addShape hc.1 with ⟨-, rfl⟩ | hold
    · have hdeclared := hnew.declared
      have hresolved : a.body.pending? = none :=
        Option.isNone_iff_eq_none.1 (Option.isSome_eq_false_iff.1 hc.2)
      rw [Shape.IsDeclared, hresolved] at hdeclared
      exact .inl hdeclared.2
    · exact .inr ⟨c, ⟨hold, hc.2⟩, rfl⟩

/-- A shape is changed in what resolution does not write. -/
theorem Ancestry.mapShape (h : s.Ancestry) (i : ShapeId) {f : Shape → Shape}
    (hf : ∀ a : Shape, a.Stays (f a)) : (s.mapShape i f).Ancestry := by
  have hgrows : s.Grows (s.mapShape i f) := grows_mapShape_of_stays i hf
  refine h.of_shapes (h.toOrdered.mapShape i hf) rfl ?_ fun j c hc => .inr ?_
  · exact fun i c hc => hc.grows hgrows
  · rcases cases_of_mapShape hc.1 with ⟨rfl, a, ha, rfl⟩ | hold
    · exact ⟨a, ⟨ha, (hf a).kept.isUnknown.symm.trans hc.2⟩, (hf a).kept.inherits.symm⟩
    · exact ⟨c, ⟨hold, hc.2⟩, rfl⟩

/-- Loads keep the ancestry. -/
theorem keptByLoading_ancestry : KeptByLoading Ancestry :=
  .of_shapes (fun _ h => { h with }) (fun _ hnew h => h.addShape hnew) fun i _ hf h => h.mapShape i hf

/-- A store with the same shapes and the same list of resolved shapes. -/
theorem Ancestry.of_eq (h : s.Ancestry) (ho : t.Ordered) (hs : t.shapes = s.shapes)
    (hlist : t.resolved = s.resolved) : t.Ancestry :=
  h.of_shapes ho hlist (fun _ a ha => ⟨a, hs ▸ ha.1, ha.2⟩) fun _ c hc =>
    .inr ⟨c, ⟨hs ▸ hc.1, hc.2⟩, rfl⟩

/-- What a shape inherits that satisfies the equation of its declaration is resolved. -/
theorem Solves.exists_resolved {a c : Shape} {p : Pending} (h : m.Solves t i a p c) :
    ∀ j ∈ c.inherits, ∃ d, t.HasResolved j d := by
  intro j hj
  cases h with
  | reference _ _ _ hinherits htarget _ | link _ _ _ hinherits htarget _ =>
    obtain rfl := List.mem_singleton.1 (hinherits ▸ hj)
    exact ⟨_, htarget⟩
  | expression _ _ hinherits _ _ =>
    rw [hinherits] at hj
    cases hj
  | parents _ hinherits hparents _ => exact hparents j (hinherits ▸ hj)

/-- There is a rank above those of finitely many shapes. -/
theorem exists_gt_of_list (rank : ShapeId → Nat) (l : List ShapeId) : ∃ n, ∀ j ∈ l, rank j < n := by
  induction l with
  | nil => exact ⟨0, nofun⟩
  | cons i rest ih =>
    obtain ⟨n, hn⟩ := ih
    refine ⟨n + rank i + 1, fun j hj => ?_⟩
    rcases List.mem_cons.1 hj with rfl | hj
    · omega
    · have := hn j hj
      omega

/-- A shape that is written is no parent of a resolved shape, and its own parents are resolved. So it
gets the greatest rank. -/
theorem Ancestry.written {e : Evaluation} (hsound : e.start.Sound e.id) (h : e.stop.Ancestry) :
    (written e).Ancestry := by
  obtain ⟨c, hc, hw⟩ := hsound.exists_written
  obtain ⟨a, ha, hu⟩ := exists_claimed e.claimed (Load.grows_of_apply e.evaluated)
  have hwait (d : Shape) : ¬ e.stop.HasResolved e.id d := by
    rintro ⟨hd, hr⟩
    cases ha.symm.trans hd
    rw [hu] at hr
    cases hr
  have hold {i : ShapeId} (hi : i ≠ e.id) :
      (Store.written e).shapes[i]? = e.stop.shapes[i]? := by
    rw [Store.written, writeResolution, getElem?_mapShape, if_neg hi.symm]
    rfl
  have hkeeps {j : ShapeId} {d : Shape} (hd : e.stop.HasResolved j d) :
      ∃ d', (Store.written e).HasResolved j d' := by
    obtain ⟨d', hd', -⟩ := (keeps_written e).hasResolved hd
    exact ⟨d', hd'⟩
  have hparents : ∀ j ∈ c.inherits, ∃ d, e.stop.HasResolved j d :=
    (solves_of_wrote hsound { hw with keeps := (Grows.refl e.stop).keeps }).exists_resolved
  -- The parents of resolved shapes were resolved before the shape is written.
  have hearlier {i j : ShapeId} {d : Shape} (hd : (Store.written e).HasResolved i d)
      (hj : j ∈ d.inherits) : ∃ d', e.stop.HasResolved j d' := by
    by_cases hi : i = e.id
    · subst hi
      cases hc.symm.trans hd.1
      exact hparents j hj
    · exact h.parents i d ⟨hold hi ▸ hd.1, hd.2⟩ j hj
  have hne {j : ShapeId} (hj : ∃ d', e.stop.HasResolved j d') : j ≠ e.id := by
    rintro rfl
    obtain ⟨d', hd'⟩ := hj
    exact hwait d' hd'
  exact
  { toOrdered := h.toOrdered.written hsound
    parents := fun i d hd j hj => by
      obtain ⟨d', hd'⟩ := hearlier hd hj
      exact hkeeps hd'
    ranked := by
      obtain ⟨rank, hrank⟩ := h.ranked
      -- Nothing inherits from the new shape yet, so it can be ranked above all of its parents.
      obtain ⟨n, hn⟩ := exists_gt_of_list rank c.inherits
      refine ⟨fun i => if i = e.id then n else rank i, fun i d hd j hj => ?_⟩
      dsimp only
      rw [if_neg (hne (hearlier hd hj))]
      split
      · next hi =>
        subst hi
        cases hc.symm.trans hd.1
        exact hn j hj
      · next hi => exact hrank i d ⟨hold hi ▸ hd.1, hd.2⟩ j hj
    order := by
      show (e.stop.resolved ++ [e.id]).Pairwise _
      have hlisted {i : ShapeId} (hi : i ∈ e.stop.resolved) :
          (Store.written e).shapes[i]? = e.stop.shapes[i]? :=
        hold (hne (h.resolved i hi))
      refine List.pairwise_append.2 ⟨?_, List.pairwise_singleton _ _, fun i hi j hj => ?_⟩
      · refine h.order.imp_of_mem fun hi _ hnot hinherits => hnot ?_
        obtain ⟨d, hd, hj⟩ := hinherits
        exact ⟨d, hlisted hi ▸ hd, hj⟩
      · rintro ⟨d, hd, hinherits⟩
        obtain ⟨d', hd'⟩ := h.resolved i hi
        rw [hlisted hi] at hd
        cases hd.symm.trans hd'.1
        exact hne (h.parents i d hd' j hinherits) (List.mem_singleton.1 hj) }

/-- Runs keep it, also those that end with an error. -/
theorem keptByRuns_ancestry : KeptByRuns Ancestry Ancestry :=
  keptByLoading_ancestry.keptByRuns
    (fun i _ h => h.of_eq (keptByRuns_ordered.beginResolution i h.toOrdered) rfl rfl)
    (fun _ hs _ h => h.written hs)
    (fun hc _ hg h => h.of_eq (h.toOrdered.markFailed hc hg) rfl rfl)
    fun h => h.of_eq (keptByRuns_ordered.popUnresolved h.toOrdered) rfl rfl

/-- Taking back a load keeps it. -/
theorem Ancestry.rollback (h : t.Ancestry) (s : Store) : (t.rollback s).Ancestry where
  toOrdered := h.toOrdered.rollback s
  parents := h.parents
  ranked := h.ranked
  order := h.order.filter _

/-- Along inheritance a resolved shape leads to resolved shapes of smaller rank, and an unresolved
one to those or to smaller numbers. -/
theorem Ancestry.acyclic (h : s.Ancestry) (hs : s.Coherent) (i : ShapeId) :
    ¬ TransGen s.Inherits i i := by
  obtain ⟨rank, hrank⟩ := h.ranked
  have hedge {j k : ShapeId} (hjk : s.Inherits j k) :
      (∃ d, s.HasResolved j d ∧ rank k < rank j ∧ ∃ d', s.HasResolved k d') ∨
        (∀ d, ¬ s.HasResolved j d) ∧ k < j := by
    obtain ⟨a, ha, hk⟩ := hjk
    cases hu : a.isUnknown with
    | false => exact .inl ⟨a, ⟨ha, hu⟩, hrank j a ⟨ha, hu⟩ k hk, h.parents j a ⟨ha, hu⟩ k hk⟩
    | true =>
      refine .inr ⟨fun d hd => ?_, hs.parents j a ha hu k hk⟩
      cases ha.symm.trans hd.1
      exact absurd (hu.symm.trans hd.2) (by decide)
  have hpath {j : ShapeId} (hij : TransGen s.Inherits i j) :
      ((∃ d, s.HasResolved i d) → (∃ d, s.HasResolved j d) ∧ rank j < rank i) ∧
        ((∀ d, ¬ s.HasResolved i d) → (∃ d, s.HasResolved j d) ∨ j < i) := by
    induction hij with
    | single hj =>
      rcases hedge hj with ⟨d, hd, hlt, hresolved⟩ | ⟨hnot, hlt⟩
      · exact ⟨fun _ => ⟨hresolved, hlt⟩, fun hnot => absurd hd (hnot d)⟩
      · exact ⟨fun ⟨d, hd⟩ => absurd hd (hnot d), fun _ => .inr hlt⟩
    | tail _ hk ih =>
      rcases hedge hk with ⟨d, hd, hlt, hresolved⟩ | ⟨hnot, hlt⟩
      · exact ⟨fun hi => ⟨hresolved, Nat.lt_trans hlt (ih.1 hi).2⟩, fun _ => .inl hresolved⟩
      · refine ⟨fun hi => ?_, fun hi => (ih.2 hi).elim ?_ fun hj => .inr (Nat.lt_trans hlt hj)⟩
        · obtain ⟨⟨d, hd⟩, -⟩ := ih.1 hi
          exact absurd hd (hnot d)
        · exact fun ⟨d, hd⟩ => absurd hd (hnot d)
  intro hi
  obtain ⟨hresolved, hwaits⟩ := hpath hi
  by_cases hd : ∃ d, s.HasResolved i d
  · exact Nat.lt_irrefl _ (hresolved hd).2
  · exact (hwaits (not_exists.1 hd)).elim hd (Nat.lt_irrefl i)

/-- Of two resolved shapes of which one inherits from the other, that one was resolved later. -/
theorem Ancestry.idxOf_lt (h : s.Ancestry) (hi : i ∈ s.resolved) (hj : j ∈ s.resolved)
    (hij : s.Inherits i j) : s.resolved.idxOf j < s.resolved.idxOf i := by
  have hlti := List.idxOf_lt_length_of_mem hi
  have hltj := List.idxOf_lt_length_of_mem hj
  rcases Nat.lt_trichotomy (s.resolved.idxOf j) (s.resolved.idxOf i) with hlt | heq | hlt
  · exact hlt
  · obtain ⟨d, hd⟩ := h.resolved i hi
    obtain ⟨rank, hrank⟩ := h.ranked
    obtain rfl := (List.idxOf_inj hj).1 heq
    obtain ⟨a, ha, hmem⟩ := hij
    cases ha.symm.trans hd.1
    exact absurd (hrank _ d hd _ hmem) (Nat.lt_irrefl _)
  · have hnot := List.pairwise_iff_getElem.1 h.order _ _ hlti hltj hlt
    rw [List.getElem_idxOf hlti, List.getElem_idxOf hltj] at hnot
    exact absurd hij hnot

end Store

namespace Session

open Store

/-- The step lemma: one request keeps it. -/
theorem ancestry_step {s : Store} (hs : s.Coherent) (h : s.Ancestry) (r : Request) :
    (step s r).2.Ancestry :=
  holds_step keptByRuns_ancestry hs h (fun _ _ ht => ht.rollback s)
    (fun _ => h.of_eq { h.toOrdered with } rfl rfl) r

/-- The run lemma, by induction on the requests. -/
theorem ancestry_run (rs : List Request) : ∀ {s : Store}, s.Coherent → s.Ancestry →
    (run s rs).Ancestry := by
  induction rs with
  | nil => exact fun _ h => h
  | cons r rest ih => exact fun hs h => ih (keeps_step hs r).coherent (ancestry_step hs h r)

end Session

end RamlTypes
