import RamlTypes.Proofs.Coherence.Sessions
import RamlTypes.Proofs.Equations.Evaluation

/-!
# What a call of the resolution changes

A call that is made while a request is underway makes only calls of this sort
(`Store.Sound.makes`), and each accounts for what it changes with the evaluations below it
(`Store.accounts_resolveWithin`).
-/

namespace RamlTypes

open Comparison Store

theorem lt_of_mem_forall₂ {n : Nat} {is js : List ShapeId} (h : List.Forall₂ (Below n) is js)
    {i : ShapeId} (hi : i ∈ is) : i < n := by
  induction h with
  | nil => cases hi
  | cons hij _ ih =>
    rcases List.mem_cons.1 hi with rfl | hi
    · exact hij.2
    · exact ih hi

namespace Store

/-- A request of the store `b` is underway in the store `s`, and the shape `i` exists. -/
def SoundFrom (b s : Store) (i : ShapeId) : Prop :=
  ∃ (known : PathKey → Prop) (phase : Phase) (w : Extent b),
    phase ≠ .binding ∧ b.Underway known phase w s ∧ i < w.size

/-- A request is underway in the store `s`, and the shape `i` exists. -/
def Sound (s : Store) (i : ShapeId) : Prop :=
  ∃ (b : Store) (known : PathKey → Prop) (phase : Phase) (w : Extent b),
    phase ≠ .binding ∧ b.Underway known phase w s ∧ i < w.size

section
variable {b s t u : Store} {known : PathKey → Prop} {phase : Phase} {w : Extent b} {i j : ShapeId}
  {n : Nat}

/-- The evaluation of the declaration of a shape begins. -/
theorem Underway.beginResolution (h : b.Underway known phase w s) (i : ShapeId) :
    b.Underway known phase w (s.beginResolution i) :=
  { h with toSince := h.toSince.beginResolution i }

/-- The shapes that a declaration asks for exist. -/
theorem Underway.asks (hp : phase ≠ .binding) (h : b.Underway known phase w s) {a : Shape}
    {p : Pending} (ha : a.Rel (Below w.size) a)
    (hasks : Resolution.Asks (Load.resolveWithin n) a p s j t) :
    ∃ w', b.Underway known phase w' t ∧ j < w'.size := by
  cases hasks with
  | reference _ _ hd => exact ⟨w, h, h.denoted_lt hd⟩
  | link _ _ hloaded =>
    obtain ⟨w', -, ht, hd⟩ := (h.endsIn ((since_loads hp).dataType w _)).of_ok hloaded
    exact ⟨w', ht, hd.shape.2⟩
  | @parent before after _ _ _ hparents hbefore =>
    have hall := ha.inherits
    have hr : (b.since known phase).ResolveAgree _ _ := (since_resolves hp).resolveWithin n n (.inl rfl)
    have hsame : List.Forall₂ (Below w.size) before before :=
      List.forall₂_same.2 fun k hk =>
        ⟨rfl, lt_of_mem_forall₂ hall (hparents ▸ List.mem_append_left _ hk)⟩
    obtain ⟨w', hw', ht, -⟩ := (h.endsIn (Evaluates.each hr before w hsame)).of_ok hbefore
    have hj : j < w.size :=
      lt_of_mem_forall₂ hall (hparents ▸ List.mem_append_right _ List.mem_cons_self)
    exact ⟨w', ht, Nat.lt_of_lt_of_le hj hw'.1⟩

/-- A call that is made while a request is underway makes only such calls. -/
theorem SoundFrom.makes {c c' : Call} (h : b.SoundFrom c.store c.id) (hm : c.Makes c') :
    b.SoundFrom c'.store c'.id := by
  obtain ⟨known, phase, w, hp, hs, hi⟩ := h
  cases hm with
  | dependency hclaim hasks =>
    obtain ⟨ha, -, -⟩ := waits_of_claim hclaim
    obtain ⟨w', ht, hj⟩ := (hs.beginResolution _).asks hp (hs.shapes _ _ ha) hasks
    exact ⟨known, phase, w', hp, ht, hj⟩
  | @nested n i j s t u before after heval hbefore _ =>
    have hlaws : (b.since known phase).Resolves := since_resolves hp
    have hr := hlaws.resolveWithin n n (.inl rfl)
    obtain ⟨w₁, -, ht, hns, -⟩ := (hs.endsIn (hlaws.resolvingWithin hr w ⟨rfl, hi⟩)).of_ok heval
    have hsame : List.Forall₂ (Below w₁.size) before before :=
      List.forall₂_same.2 fun k hk => ⟨rfl, lt_of_mem_forall₂ hns (List.mem_append_left _ hk)⟩
    obtain ⟨w₂, hw₂, hu, -⟩ := (ht.endsIn (hlaws.resolveIdle hr before w₁ hsame)).of_ok hbefore
    have hj : j < w₁.size := lt_of_mem_forall₂ hns (List.mem_append_right _ List.mem_cons_self)
    exact ⟨known, phase, w₂, hp, hu, Nat.lt_of_lt_of_le hj hw₂.1⟩

theorem Sound.makes {c c' : Call} (h : c.store.Sound c.id) (hm : c.Makes c') :
    c'.store.Sound c'.id := by
  obtain ⟨b, hs⟩ := h
  exact ⟨b, SoundFrom.makes hs hm⟩

/-- The evaluations below such a call begin while the request is underway. -/
theorem SoundFrom.below {c : Call} (h : b.SoundFrom c.store c.id) {e : Evaluation} (he : e.Below c) :
    b.SoundFrom e.start e.id := by
  have hcall : ∀ d : Call, Relation.ReflTransGen Call.Makes c d → b.SoundFrom d.store d.id := by
    intro d hd
    induction hd with
    | refl => exact h
    | tail _ hm ih => exact ih.makes hm
  exact hcall _ he

theorem Sound.below {c : Call} (h : c.store.Sound c.id) {e : Evaluation} (he : e.Below c) :
    e.start.Sound e.id := by
  obtain ⟨b, hs⟩ := h
  exact ⟨b, SoundFrom.below hs he⟩

end

/-! ## Evaluations in a request that is underway -/

/-- What an evaluation finds when it begins, and what holds when it has ended. -/
theorem Sound.evaluation {e : Evaluation} (h : e.start.Sound e.id) :
    ∃ (b : Store) (known : PathKey → Prop) (phase : Phase) (w w' : Extent b), phase ≠ .binding ∧
      b.Underway known phase w e.start ∧ b.Underway known phase w' e.stop ∧
      w.Opened known e.shape.location.key ∧ e.result.body.kind ≠ .unknown := by
  obtain ⟨b, known, phase, w, hp, hs, hi⟩ := h
  obtain ⟨ha, -, hwait⟩ := waits_of_claim e.claimed
  have hopened := (hs.locations _ _ ha).resolve_left hwait.notFailed
  have hlaws : (b.since known phase).Resolves := since_resolves hp
  have hagree := (hlaws.evaluates e.shape.owner).ofPending
    (hlaws.resolveWithin e.depth e.depth (.inl rfl)) w hopened (hs.shapes _ _ ha)
    (fun _ _ => trivial) e.pending
  obtain ⟨w', -, ht, -, hk⟩ := ((hs.beginResolution _).endsIn hagree).of_ok e.evaluated
  exact ⟨b, known, phase, w, w', hp, hs, ht, hopened, hk⟩

/-- While its declaration is evaluated, a shape stays as it is. -/
theorem exists_stop (e : Evaluation) :
    ∃ c, e.stop.shapes[e.id]? = some c ∧ e.shape.Stays c := by
  obtain ⟨ha, -, -⟩ := waits_of_claim e.claimed
  have hgrows : (e.start.beginResolution e.id).Grows e.stop := Load.grows_of_apply e.evaluated
  obtain ⟨c, hc, hac, hkeep⟩ := hgrows.shapes e.id e.shape ha
  exact ⟨c, hc, hac, hkeep.resolve_right fun hw => hw.notInProgress List.mem_cons_self⟩

/-- The store after the result of an evaluation is written. -/
def written (e : Evaluation) : Store :=
  (e.stop.endResolution e.id).writeResolution e.id e.result

/-- Writing the result of an evaluation leaves what is resolved. -/
theorem keeps_written (e : Evaluation) : e.stop.Keeps (written e) := by
  intro j c hc hr
  rw [written, writeResolution, getElem?_mapShape]
  split
  · next heq =>
    subst heq
    obtain ⟨ha, -, hwait⟩ := waits_of_claim e.claimed
    obtain ⟨d, hd, hstays⟩ := exists_stop e
    cases hc.symm.trans hd
    rw [hstays.kept.isUnknown, hwait.isUnknown] at hr
    cases hr
  · exact ⟨c, hc, .refl c⟩

/-- The shape that an evaluation writes. -/
theorem wrote_written (e : Evaluation) (hk : e.result.body.kind ≠ .unknown) :
    ∃ c, (written e).shapes[e.id]? = some c ∧ Wrote e e.shape c (written e) := by
  obtain ⟨d, hd, hstays⟩ := exists_stop e
  have hc : (written e).shapes[e.id]? = some { d with
      body := e.result.body
      inherits := d.inherits ++ e.result.inherits
      customFacets := Dict.putAll d.customFacets e.result.customFacets } := by
    have hd' : (e.stop.endResolution e.id).shapes[e.id]? = some d := hd
    rw [written, writeResolution, getElem?_mapShape, if_pos rfl, hd']
    rfl
  refine ⟨_, hc, ?_⟩
  exact
  { stays := .refl _
    grows := hstays.grows.trans ⟨rfl, List.prefix_append _ _⟩
    body := rfl
    inherits := congrArg (· ++ e.result.inherits) hstays.kept.inherits
    customFacets := congrArg (Dict.putAll · e.result.customFacets) hstays.kept.customFacets
    concrete := Shape.isUnknown_eq_false_iff.2 hk
    keeps := keeps_written e }

section
variable {s t : Store} {i : ShapeId} {n : Nat} {T : Evaluation → Prop}

/-- An evaluation and the writing of its result account for what they change. -/
theorem accounts_written (e : Evaluation) (hk : e.result.body.kind ≠ .unknown) (he : T e)
    (h : Accounts T (e.start.beginResolution e.id) e.stop) : Accounts T e.start (written e) where
  old j a ha := by
    by_cases hj : e.id = j
    · subst hj
      obtain ⟨hshape, -, -⟩ := waits_of_claim e.claimed
      cases ha.symm.trans hshape
      obtain ⟨c, hc, hw⟩ := wrote_written e hk
      exact ⟨c, hc, .inr ⟨e, he, rfl, hw⟩⟩
    · obtain ⟨c, hc, hac⟩ := h.old j a ha
      refine ⟨c, ?_, hac.imp_right ?_⟩
      · rw [written, writeResolution, getElem?_mapShape, if_neg hj]
        exact hc
      · rintro ⟨e', he', hi, hw⟩
        exact ⟨e', he', hi, hw.later (keeps_written e) (.refl c)⟩
  new j c hc hj := by
    obtain ⟨hshape, -, -⟩ := waits_of_claim e.claimed
    have hne : e.id ≠ j := fun heq => not_new hshape (heq ▸ hj)
    rw [written, writeResolution, getElem?_mapShape, if_neg hne] at hc
    exact h.new j c hc hj

/-- What the resolution of a shape changes before it turns to the types inside the expression. -/
theorem accounts_resolving (hs : s.Sound i)
    (ih : ∀ j u, u.Sound j → Accounts (·.Below ⟨n, j, u⟩) u (Load.resolveWithin n j u).2) :
    Accounts (·.Below ⟨n + 1, i, s⟩) s (Load.resolving i (Load.evaluateWithin n) s).2 := by
  rw [Load.resolving_apply]
  rcases hclaim : s.claim i with f | (_ | ⟨a, p⟩)
  · exact .refl s
  · exact .refl s
  · have heval : Accounts (·.Below ⟨n + 1, i, s⟩) (s.beginResolution i)
        (Load.evaluateWithin n a p (s.beginResolution i)).2 := by
      refine Resolution.accounts_ofPending fun j u hasks => ?_
      have hm : Call.Makes ⟨n + 1, i, s⟩ ⟨n, j, u⟩ := .dependency hclaim hasks
      exact (ih j u (hs.makes hm)).mono fun e he => he.head hm
    dsimp only
    rcases hr : Load.evaluateWithin n a p (s.beginResolution i) with ⟨f | r, t⟩ <;> rw [hr] at heval
    · exact heval.of_shapes_eq rfl rfl
    · let e : Evaluation := ⟨i, n, s, a, p, r, t, hclaim, hr⟩
      obtain ⟨-, -, -, -, -, -, -, -, -, hk⟩ := Sound.evaluation (e := e) hs
      exact accounts_written e hk .refl heval

theorem resolveIdle_concat {resolve : ShapeId → Load Unit} {before : List ShapeId} {j : ShapeId}
    {u : Store} : ∀ {s : Store}, Load.resolveIdle resolve before s = (.ok (), t) →
    Load.unlessResolving j (resolve j) t = (.ok (), u) →
    Load.resolveIdle resolve (before ++ [j]) s = (.ok (), u) := by
  induction before with
  | nil =>
    intro s hs hj
    cases hs
    exact Load.bind_eq_ok.2 ⟨(), u, hj, rfl⟩
  | cons i rest ih =>
    intro s hs hj
    obtain ⟨_, v, hi, hrest⟩ := Load.bind_eq_ok.1 hs
    exact Load.bind_eq_ok.2 ⟨(), v, hi, ih hrest hj⟩

/-- What the resolution of the types inside an expression changes. -/
theorem accounts_resolveIdle (hs : s.Sound i)
    (ih : ∀ j u, u.Sound j → Accounts (·.Below ⟨n, j, u⟩) u (Load.resolveWithin n j u).2)
    {m : Store} (rest : List ShapeId) : ∀ {before : List ShapeId} {t : Store},
    Load.resolving i (Load.evaluateWithin n) s = (.ok (before ++ rest), m) →
    Load.resolveIdle (Load.resolveWithin n) before m = (.ok (), t) →
    Accounts (·.Below ⟨n + 1, i, s⟩) t (Load.resolveIdle (Load.resolveWithin n) rest t).2 := by
  induction rest with
  | nil => exact fun _ _ => .refl _
  | cons j rest ihrest =>
    intro before t heval hbefore
    refine .bind ?_ fun _ u hu => ?_
    · refine .ask ?_
      cases hidle : t.isInProgress j with
      | true => exact .refl t
      | false =>
        have hm : Call.Makes ⟨n + 1, i, s⟩ ⟨n, j, t⟩ := .nested heval hbefore hidle
        exact (ih j t (hs.makes hm)).mono fun e he => he.head hm
    · exact ihrest (by rwa [List.append_assoc, List.singleton_append]) (resolveIdle_concat hbefore hu)

/-- A call accounts for what it changes with the evaluations below it. -/
theorem accounts_resolveWithin (n : Nat) : ∀ (i : ShapeId) (s : Store), s.Sound i →
    Accounts (·.Below ⟨n, i, s⟩) s (Load.resolveWithin n i s).2 := by
  induction n with
  | zero => exact fun _ s _ => .refl s
  | succ n ih =>
    intro i s hs
    refine .bind (accounts_resolving hs ih) fun ns t ht => ?_
    have heval : Load.resolving i (Load.evaluateWithin n) s = (.ok ([] ++ ns), t) := ht
    have hnone : Load.resolveIdle (Load.resolveWithin n) [] t = (.ok (), t) := rfl
    exact accounts_resolveIdle hs ih ns heval hnone

end

end Store

end RamlTypes
