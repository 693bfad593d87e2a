import RamlTypes.Proofs.Cycles.Loads
import RamlTypes.Proofs.Lifecycle.Refusals

/-!
# Where a circle is found

A call of the resolution stops because a type depends on itself only if a call below it comes to a
shape that is being resolved already (`Store.exists_call_of_cycle`). The shapes that are being
resolved are those of the calls above that have gone on to a shape that they need
(`Call.exists_needs_of_inProgress`).
-/

namespace RamlTypes

open Relation (ReflTransGen)
open Store

/-! ## Evaluations -/

namespace Resolution

variable {resolve : ShapeId → Load Unit} {a : Shape} {p : Pending} {s t : Store} {e : Stop}

/-- Finishing a shape meets no cycle. -/
theorem isPlain_finish (o : Owner) (facets : List (String × Node)) (is ns : List ShapeId)
    (body : Body) : (finish o facets is ns body).IsPlain :=
  .bind (plain_of_agree ((plain_evaluates o).overlay () trivial (.same body) facets)) fun _ => .pure _

/-- A shape whose body is taken over stops the evaluation if its own resolution does. -/
theorem resolve_of_takeOver {o : Owner} {facets : List (String × Node)} {j : ShapeId}
    (he : e.isCycle) (h : (do resolve j; finish o facets [j] [] (← Load.ask (·.bodyOf j)) :
      Load Resolution) s = (.error e, t)) : resolve j s = (.error e, t) := by
  rcases Load.bind_eq_error.1 h with h | ⟨_, u, -, h⟩
  · exact h
  · rw [Load.ask_bind] at h
    cases he.symm.trans (isPlain_finish _ _ _ _ _ _ _ _ h)

/-- Of several shapes that are resolved one after the other, one stops. -/
theorem exists_of_each_error (ids : List ShapeId) : ∀ {s : Store}, each resolve ids s = (.error e, t) →
    ∃ before j after u, ids = before ++ j :: after ∧ each resolve before s = (.ok (), u) ∧
      resolve j u = (.error e, t) := by
  induction ids with
  | nil => exact fun h => nomatch h
  | cons i rest ih =>
    intro s h
    rcases Load.bind_eq_error.1 h with h | ⟨_, v, hv, h⟩
    · exact ⟨[], i, rest, s, rfl, rfl, h⟩
    · obtain ⟨before, j, after, u, rfl, hbefore, hj⟩ := ih h
      exact ⟨i :: before, j, after, u, rfl, Load.bind_eq_ok.2 ⟨(), v, hv, hbefore⟩, hj⟩

variable (he : e.isCycle)
include he

/-- An expression fails with the error of a shape that it asks for. -/
theorem exists_asks_ofExpr {text : String} {x : Expr} (hp : p.declared = .expression text)
    (hx : Expr.parse text = .ok x) (h : ofExpr resolve a.owner p.facets x s = (.error e, t)) :
    ∃ j u, Asks resolve a p s j u ∧ resolve j u = (.error e, t) := by
  have hlaws := plain_evaluates a.owner
  have plain {α : Type} {x : Load α} {s t : Store} (hx : x.IsPlain) (h : x s = (.error e, t)) :
      False := by
    cases he.symm.trans (hx s e t h)
  cases x with
  | ref library name =>
    rcases Load.bind_eq_error.1 h with h | ⟨j, u, hj, h⟩
    · exact (plain (plain_of_agree (hlaws.lookup () library name trivial)) h).elim
    · rw [lookup, Load.ask_bind] at hj
      split at hj
      · next hd =>
        cases hj
        exact ⟨j, _, .reference hp hx hd, resolve_of_takeOver he h⟩
      · cases hj
  | builtin k => exact (plain (isPlain_finish _ _ _ _ _) h).elim
  | array inner =>
    rcases Load.bind_eq_error.1 h with h | ⟨_, u, -, h⟩
    · exact (plain (plain_of_agree (hlaws.part inner () trivial)) h).elim
    · exact (plain (isPlain_finish _ _ _ _ _) h).elim
  | optional inner =>
    rcases Load.bind_eq_error.1 h with h | ⟨_, u, -, h⟩
    · exact (plain (plain_of_agree (hlaws.part inner () trivial)) h).elim
    · rcases Load.bind_eq_error.1 h with h | ⟨_, v, -, h⟩
      · exact (plain (.addShape _) h).elim
      · exact (plain (isPlain_finish _ _ _ _ _) h).elim
  | union members =>
    rcases Load.bind_eq_error.1 h with h | ⟨_, u, -, h⟩
    · exact (plain (plain_of_agree (hlaws.parts members () trivial)) h).elim
    · exact (plain (isPlain_finish _ _ _ _ _) h).elim

/-- So does a reference to a file. -/
theorem exists_asks_ofLink (hp : p.declared = .link)
    (h : ofLink resolve a.owner p.facets a.link s = (.error e, t)) :
    ∃ j u, Asks resolve a p s j u ∧ resolve j u = (.error e, t) := by
  unfold ofLink at h
  rcases hl : a.link with _ | path <;> rw [hl] at h
  · cases h
    cases he
  · rcases Load.bind_eq_error.1 h with h | ⟨d, u, hd, h⟩
    · cases he.symm.trans (plain_of_agree (plain_loads.dataType () path) _ _ _ h)
    · exact ⟨d.shape, u, .link hp hl hd, resolve_of_takeOver he h⟩

/-- So does a list of parents. -/
theorem exists_asks_ofParents (hp : p.declared = .parents)
    (h : ofParents resolve a.owner p.facets a.inherits s = (.error e, t)) :
    ∃ j u, Asks resolve a p s j u ∧ resolve j u = (.error e, t) := by
  rcases Load.bind_eq_error.1 h with h | ⟨_, u, -, h⟩
  · obtain ⟨before, j, after, u, hall, hbefore, hj⟩ := exists_of_each_error _ h
    exact ⟨j, u, .parent hp hall hbefore, hj⟩
  · rw [Load.ask_bind] at h
    rcases Load.bind_eq_error.1 h with h | ⟨_, v, -, h⟩
    · have hreport := (plain_evaluates a.owner).reportDivergence () (kinds u a.inherits)
      cases he.symm.trans (plain_of_agree hreport _ _ _ h)
    · rw [Load.ask_bind] at h
      cases he.symm.trans (isPlain_finish _ _ _ _ _ _ _ _ h)

/-- An evaluation stops at a circle only if a resolution that it asks for does. -/
theorem exists_asks_of_cycle (h : ofPending resolve a.owner a p s = (.error e, t)) :
    ∃ j u, Asks resolve a p s j u ∧ resolve j u = (.error e, t) := by
  rw [ofPending] at h
  split at h
  · next hp => exact exists_asks_ofLink he hp h
  · next hp => exact exists_asks_ofParents he hp h
  · next text hp =>
    split at h
    · next x hx => exact exists_asks_ofExpr he hp hx h
    · cases h
      cases he

end Resolution

namespace Store

variable {s t : Store} {i j : ShapeId} {n : Nat} {e : Stop}

/-- A call stops at a circle only if a call below it comes to a shape that is being resolved. -/
theorem exists_call_of_cycle (he : e.isCycle) (n : Nat) : ∀ (i : ShapeId) (s : Store) {t : Store},
    Load.resolveWithin n i s = (.error e, t) →
    ∃ c, ReflTransGen Call.Makes ⟨n, i, s⟩ c ∧ c.store.claim c.id = .error e := by
  induction n with
  | zero =>
    rintro i s t ⟨⟩
    cases he
  | succ n ih =>
    intro i s t h
    rcases Load.bind_eq_error.1 h with h | ⟨ns, m, hm, h⟩
    · rw [Load.resolving_apply] at h
      split at h
      · next hclaim =>
        cases h
        exact ⟨_, .refl, hclaim⟩
      · cases h
      · next a p hclaim =>
        split at h
        · cases h
        · next hr =>
          cases h
          obtain ⟨j, u, hasks, hj⟩ := Resolution.exists_asks_of_cycle he hr
          obtain ⟨c, hc, hfound⟩ := ih j u hj
          exact ⟨c, .head (.dependency hclaim hasks) hc, hfound⟩
    · obtain ⟨before, j, after, u, rfl, hbefore, hidle, hj⟩ := exists_of_resolveIdle_error ns h
      obtain ⟨c, hc, hfound⟩ := ih j u hj
      exact ⟨c, .head (.nested hm hbefore hidle) hc, hfound⟩

/-- It is found that a type depends on itself when it is being resolved. -/
theorem exists_of_claim_cycle {name : String} {place : Location}
    (h : s.claim i = .error (.cycle name place)) : i ∈ s.inProgress ∧
      ∃ a, s.shapes[i]? = some a ∧ a.name = name ∧ ⟨a.location, a.mark⟩ = place := by
  rw [claim] at h
  split at h
  · cases h
  · next a ha =>
    split at h
    · cases h
    · split at h
      · cases h
      · split at h
        · next hi =>
          cases h
          exact ⟨List.contains_iff_mem.1 hi, a, ha, rfl, rfl⟩
        · cases h

/-! ## What a shape refers to -/

/-- The shape `i` needs the shape `j`: it is declared by a name that denotes `j`, or `j` is among its
parents, or it is an include of a data type that has the shape `j`. -/
inductive Needs (s : Store) (i j : ShapeId) : Prop
  | reference {a : Shape} {text : String} {library : Option String} {name : String}
      (shape : s.shapes[i]? = some a) (unlinked : a.link = none) (declared : a.declaration = some text)
      (parsed : Expr.parse text = .ok (.ref library name))
      (denoted : s.denoted? a.location library name = some j)
  | parent {a : Shape} (shape : s.shapes[i]? = some a) (parent : j ∈ a.inherits)
  | link {a : Shape} {path : Path} {d : DataType} (shape : s.shapes[i]? = some a)
      (linked : a.link = some path) (cached : s.fragment? path = some (.dataType d))
      (target : d.shape = j)

/-- The shape `i` refers to the shape `j`: it needs `j`, or a name in its type expression denotes
`j`. -/
inductive RefersTo (s : Store) (i j : ShapeId) : Prop
  | needs (needs : s.Needs i j)
  | mentions {a : Shape} {library : Option String} {name : String} (shape : s.shapes[i]? = some a)
      (mentions : a.Mentions library name) (denoted : s.denoted? a.location library name = some j)

/-- A shape whose evaluation begins is declared as it waits. -/
theorem Sound.isDeclared (h : s.Sound i) {a : Shape} {p : Pending}
    (hclaim : s.claim i = .ok (some (a, p))) : a.IsDeclared fun _ => True := by
  obtain ⟨b, known, phase, w, -, hs, -⟩ := h
  obtain ⟨ha, -, hwait⟩ := waits_of_claim hclaim
  exact hs.declared _ _ ha hwait.isUnknown

/-- What an evaluation asks for is what its shape needs. -/
theorem Sound.needs_of_asks (h : s.Sound i) {a : Shape} {p : Pending}
    (hclaim : s.claim i = .ok (some (a, p)))
    (hasks : Resolution.Asks (Load.resolveWithin n) a p (s.beginResolution i) j t) : t.Needs i j := by
  obtain ⟨ha, hp, -⟩ := waits_of_claim hclaim
  have hdeclared := h.isDeclared hclaim
  rw [Shape.IsDeclared, hp] at hdeclared
  dsimp only at hdeclared
  cases hasks with
  | reference hexpression hparse hdenoted =>
    rw [hexpression] at hdeclared
    exact .reference ha hdeclared.2.1 hdeclared.1 hparse hdenoted
  | @link path d _ _ hlinked hloaded =>
    have hgrows : (s.beginResolution i).Grows t := Load.grows_of_apply hloaded
    obtain ⟨c, hc, hac, -⟩ := hgrows.shapes i a ha
    refine .link hc (hac.link_eq.trans hlinked) ?_ rfl
    have hpath : t.normalize path = (s.beginResolution i).normalize path := by
      rw [normalize, normalize, hgrows.settings]
    rw [fragment?, hpath]
    rw [Load.dataType, Load.withLoaders, Load.ask_bind] at hloaded
    exact Fragment.cached_of_dataTypeWith hloaded
  | parent _ hparents hbefore =>
    have hgrows : (s.beginResolution i).Grows t := Load.grows_of_apply hbefore
    obtain ⟨c, hc, hac, -⟩ := hgrows.shapes i a ha
    refine .parent hc (hac.inherits.subset ?_)
    rw [hparents]
    exact List.mem_append_right _ List.mem_cons_self

/-- What is resolved after an evaluation is what the expression of the shape mentions. -/
theorem Sound.refersTo_of_nested {e : Evaluation} (h : e.start.Sound e.id) (hj : j ∈ e.result.nested) :
    e.start.RefersTo e.id j := by
  obtain ⟨ha, hp, -⟩ := waits_of_claim e.claimed
  obtain ⟨library, name, ⟨text, x, hexpression, hparse, hmentions, -⟩, hdenoted⟩ :=
    (e.names_nested h).only j hj
  have hdeclared := h.isDeclared e.claimed
  rw [Shape.IsDeclared, hp] at hdeclared
  dsimp only at hdeclared
  rw [hexpression] at hdeclared
  exact .mentions ha ⟨hdeclared.2.1, text, x, hdeclared.1, hparse, hmentions⟩ hdenoted

end Store

/-! ## The shapes that are being resolved -/

namespace Call

variable {c d d' : Call} {j : ShapeId}

/-- A call goes on to a shape that its own shape needs and which is resolved meanwhile, or to one that
its own shape only refers to and that is not being resolved. -/
theorem Makes.needs_or_refersTo (hs : c.store.Sound c.id) (h : c.Makes d) :
    (d.store.inProgress = c.id :: c.store.inProgress ∧ d.store.Needs c.id d.id) ∨
      (d.store.inProgress = c.store.inProgress ∧ d.id ∉ d.store.inProgress ∧
        c.store.RefersTo c.id d.id) := by
  cases h with
  | @dependency n i j s t a p hclaim hasks =>
    refine .inl ⟨?_, hs.needs_of_asks hclaim hasks⟩
    have hgrows : (s.beginResolution i).Grows t := by
      cases hasks with
      | reference _ _ _ => exact .refl _
      | link _ _ hloaded => exact Load.grows_of_apply hloaded
      | parent _ _ hbefore => exact Load.grows_of_apply hbefore
    exact hgrows.inProgress
  | @nested n i j s t u before after heval hbefore hidle =>
    have hgrows : s.Grows u := (Load.grows_of_apply heval).trans (Load.grows_of_apply hbefore)
    obtain ⟨e, rfl, rfl, rfl, hnested, rfl⟩ := exists_evaluation heval (by simp)
    refine .inr ⟨hgrows.inProgress, fun hmem => ?_, Sound.refersTo_of_nested hs ?_⟩
    · rw [isInProgress, List.contains_iff_mem.2 hmem] at hidle
      cases hidle
    · rw [hnested]
      exact List.mem_append_right _ List.mem_cons_self

/-- Calls that begin with a sound one are sound. -/
theorem sound_of_path (hs : c.store.Sound c.id) (h : ReflTransGen Makes c d) : d.store.Sound d.id := by
  induction h with
  | refl => exact hs
  | tail _ hm ih => exact ih.makes hm

/-- A shape that is being resolved is the shape of a call above, which has gone on to a shape that its
own shape needs. -/
theorem exists_needs_of_inProgress (hs : c.store.Sound c.id) (hidle : c.store.inProgress = [])
    (h : ReflTransGen Makes c d) (hj : j ∈ d.store.inProgress) :
    ∃ d₁ d₂, ReflTransGen Makes c d₁ ∧ d₁.Makes d₂ ∧ ReflTransGen Makes d₂ d ∧ d₁.id = j ∧
      d₂.store.Needs j d₂.id := by
  induction h with
  | refl => exact absurd (hidle ▸ hj) List.not_mem_nil
  | @tail d d' hd hm ih =>
    have extend (hj : j ∈ d.store.inProgress) :
        ∃ d₁ d₂, ReflTransGen Makes c d₁ ∧ d₁.Makes d₂ ∧ ReflTransGen Makes d₂ d' ∧ d₁.id = j ∧
          d₂.store.Needs j d₂.id := by
      obtain ⟨d₁, d₂, h₁, hm₁, h₂, hid, hneeds⟩ := ih hj
      exact ⟨d₁, d₂, h₁, hm₁, h₂.tail hm, hid, hneeds⟩
    rcases hm.needs_or_refersTo (sound_of_path hs hd) with ⟨hprogress, hneeds⟩ | ⟨hprogress, -, -⟩
    · rcases List.mem_cons.1 (hprogress ▸ hj) with rfl | hj
      · exact ⟨d, d', hd, hm, .refl, rfl, hneeds⟩
      · exact extend hj
    · exact extend (hprogress ▸ hj)

end Call

end RamlTypes
