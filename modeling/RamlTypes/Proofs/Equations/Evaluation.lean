import Mathlib.Logic.Relation
import RamlTypes.Proofs.Relation.Invariant
import RamlTypes.Proofs.Resolved

/-!
# Evaluations, and what they write

A shape becomes resolved in one place only: when its declaration has been evaluated, what that
yields is written into it. An `Evaluation` is one such event, with the store in which it begins.
`Call.Makes` is the call tree of the resolution of shapes. `Store.Accounts` says that each shape that
is not as it was has been written by an evaluation of a given set, and so has each new one that was
declared by what has to be resolved and is resolved. Evaluating a declaration accounts for what it
changes with the calls that it makes (`Resolution.accounts_ofPending`).
-/

namespace RamlTypes

/-- The owner of the declaration of a shape. -/
abbrev Shape.owner (a : Shape) : Owner := ⟨a.name, a.location, a.mark⟩

/-- Evaluates a pending declaration with chains of dependencies of length `n` at most. -/
abbrev Load.evaluateWithin (n : Nat) (a : Shape) (p : Pending) : Load Resolution :=
  Resolution.ofPending (resolveWithin n) a.owner a p

/-- The evaluation of the declaration of a shape that has ended well. -/
structure Evaluation where
  id : ShapeId
  depth : Nat
  /-- The store in which the resolution of the shape begins. -/
  start : Store
  shape : Shape
  pending : Pending
  result : Resolution
  /-- The store in which the evaluation has ended. -/
  stop : Store
  claimed : start.claim id = .ok (some (shape, pending))
  evaluated : Load.evaluateWithin depth shape pending (start.beginResolution id) = (.ok result, stop)

/-- The shape `c` is a later state of `a`, which resolution has not written. -/
structure Shape.Stays (a c : Shape) : Prop where
  grows : a.Grows c
  kept : a.Kept c

/-- A shape to which nothing happens stays. -/
theorem Shape.Stays.refl (a : Shape) : a.Stays a := ⟨.refl a, .refl a⟩

/-- A shape that stays twice stays. -/
theorem Shape.Stays.trans {a b c : Shape} (h : a.Stays b) (h' : b.Stays c) : a.Stays c :=
  ⟨h.grows.trans h'.grows, h.kept.trans h'.kept⟩

/-- A shape that stays waits as before, and was declared as before. -/
theorem Shape.Stays.derived_iff {a c : Shape} (h : a.Stays c) (ha : a.IsDerived ↔ a.isUnknown) :
    c.IsDerived ↔ c.isUnknown := by
  rw [h.grows.isDerived_iff, ha, h.kept.isUnknown]

/-- A shape that stays has the same owner. -/
theorem Shape.Stays.owner_eq {a c : Shape} (h : a.Stays c) : c.owner = a.owner := by
  rw [owner, owner, h.grows.name_eq, h.grows.location_eq, h.grows.mark_eq]

/-! ## The call tree -/

/-- In the store `t`, a declaration that is evaluated from `s` asks for the resolution of a shape
that it depends on. -/
inductive Resolution.Asks (resolve : ShapeId → Load Unit) (a : Shape) (p : Pending) (s : Store) :
    ShapeId → Store → Prop
  | reference {text : String} {library : Option String} {name : String} {j : ShapeId}
      (declared : p.declared = .expression text)
      (parsed : Expr.parse text = .ok (.ref library name))
      (denoted : s.denoted? a.location library name = some j) : Asks resolve a p s j s
  | link {path : Path} {d : DataType} {t : Store} (declared : p.declared = .link)
      (linked : a.link = some path) (loaded : Load.dataType path s = (.ok d, t)) :
      Asks resolve a p s d.shape t
  | parent {before after : List ShapeId} {j : ShapeId} {t : Store} (declared : p.declared = .parents)
      (parents : a.inherits = before ++ j :: after)
      (resolved : each resolve before s = (.ok (), t)) : Asks resolve a p s j t

/-- A call of `Load.resolveWithin`. -/
structure Call where
  depth : Nat
  id : ShapeId
  store : Store

/-- One call makes another: for a dependency of the declaration that it evaluates, or for a type that
is referred to inside of its expression. -/
inductive Call.Makes : Call → Call → Prop
  | dependency {n : Nat} {i j : ShapeId} {s t : Store} {a : Shape} {p : Pending}
      (claimed : s.claim i = .ok (some (a, p)))
      (asks : Resolution.Asks (Load.resolveWithin n) a p (s.beginResolution i) j t) :
      Makes ⟨n + 1, i, s⟩ ⟨n, j, t⟩
  | nested {n : Nat} {i j : ShapeId} {s t u : Store} {before after : List ShapeId}
      (evaluated : Load.resolving i (Load.evaluateWithin n) s = (.ok (before ++ j :: after), t))
      (resolved : Load.resolveIdle (Load.resolveWithin n) before t = (.ok (), u))
      (idle : u.isInProgress j = false) : Makes ⟨n + 1, i, s⟩ ⟨n, j, u⟩

/-- The evaluation belongs to a call below the given one, or to the call itself. -/
def Evaluation.Below (e : Evaluation) (c : Call) : Prop :=
  Relation.ReflTransGen Call.Makes c ⟨e.depth + 1, e.id, e.start⟩

namespace Store

variable {b s t u : Store} {i : ShapeId}

/-! ## Shapes that stay -/

/-- Resolved shapes of `s` are as they were. -/
def Keeps (s t : Store) : Prop :=
  ∀ (i : ShapeId) (a : Shape), s.shapes[i]? = some a → a.isUnknown = false →
    ∃ c, t.shapes[i]? = some c ∧ a.Stays c

/-- Growth keeps resolved shapes. -/
theorem Grows.keeps (h : s.Grows t) : s.Keeps t := by
  intro i a ha hr
  obtain ⟨c, hc, hgrows, hkept⟩ := h.kept ha hr
  exact ⟨c, hc, hgrows, hkept⟩

/-- What is kept twice is kept. -/
theorem Keeps.trans (h : s.Keeps t) (h' : t.Keeps u) : s.Keeps u := by
  intro i a ha hr
  obtain ⟨c, hc, hac⟩ := h i a ha hr
  obtain ⟨d, hd, hcd⟩ := h' i c hc (hac.kept.isUnknown.trans hr)
  exact ⟨d, hd, hac.trans hcd⟩

/-- Nothing was written into the shapes that resolution writes: those of `s` are as they were, and the
new ones wait just if they were declared by what has to be resolved. -/
structure Unwritten (s t : Store) : Prop where
  old : ∀ (i : ShapeId) (a : Shape), s.shapes[i]? = some a → ∃ c, t.shapes[i]? = some c ∧ a.Stays c
  new : ∀ (i : ShapeId) (c : Shape), t.shapes[i]? = some c → s.shapes.size ≤ i →
    (c.IsDerived ↔ c.isUnknown)

/-- A store has no shapes beyond its size. -/
theorem not_new {a : Shape} (h : s.shapes[i]? = some a) : ¬ s.shapes.size ≤ i :=
  Nat.not_le_of_lt (Array.getElem?_eq_some_iff.1 h).1

/-- Nothing is written where nothing happens. -/
theorem Unwritten.refl (s : Store) : s.Unwritten s where
  old _ a ha := ⟨a, ha, .refl a⟩
  new _ _ hc hi := absurd hi (not_new hc)

/-- A shape is changed in what resolution does not write. -/
theorem grows_mapShape_of_stays (i : ShapeId) {f : Shape → Shape} (hf : ∀ a : Shape, a.Stays (f a)) :
    s.Grows (s.mapShape i f) :=
  s.grows_mapShape i f (fun a => (hf a).grows) fun a => .inl (hf a).kept

/-- A change in which a shape stays writes nothing. -/
theorem Unwritten.mapShape (h : b.Unwritten s) (i : ShapeId) {f : Shape → Shape}
    (hf : ∀ a : Shape, a.Stays (f a)) : b.Unwritten (s.mapShape i f) where
  old j a ha := by
    obtain ⟨c, hc, hac⟩ := h.old j a ha
    rw [getElem?_mapShape]
    split
    · exact ⟨f c, by rw [hc]; rfl, hac.trans (hf c)⟩
    · exact ⟨c, hc, hac⟩
  new j c hc hj := by
    rw [getElem?_mapShape] at hc
    split at hc
    · obtain ⟨d, hd, rfl⟩ := Option.map_eq_some_iff.1 hc
      exact (hf d).derived_iff (h.new j d hd hj)
    · exact h.new j c hc hj

/-- A property of the shapes of a store and of the lists of shapes is kept by loading if new shapes
and those changes of shapes keep it that resolution does not make. -/
theorem KeptByLoading.of_shapes {I : Store → Prop}
    (rest : ∀ {s : Store} (t : Store), I s → I { t with
      settings := s.settings
      shapes := s.shapes
      unresolved := s.unresolved
      resolved := s.resolved
      failed := s.failed })
    (addShape : ∀ {s : Store} (a : Shape), a.IsNew (fun _ => True) → I s → I (s.addShape a))
    (mapShape : ∀ {s : Store} (i : ShapeId) {f : Shape → Shape}, (∀ a : Shape, a.Stays (f a)) →
      I s → I (s.mapShape i f)) : KeptByLoading I where
  report {s} d _ h := rest (s.report d) h
  reportUnbound {s} subject name h := rest (s.report (.annotationUnbound subject name)) h
  countRead {s} u p h := rest (s.countRead u p) h
  cacheExample {s} p e h := rest (s.cacheExample p e) h
  addShape := addShape
  makeOptional i h := mapShape i (fun _ => ⟨⟨rfl, List.prefix_rfl⟩, ⟨rfl, rfl, rfl⟩⟩) h
  declareUse {s} p name q h := rest (s.declareUse p name q) h
  declareType {s} p name i h := rest (s.declareType p name i) h
  declareAnnotationType {s} p name i h :=
    rest (s.declareAnnotationType p name i) (rest (s.declareType p name i) h)
  beginLoading {s} p h := rest (s.beginLoading p) h
  endLoading {s} p h := rest (s.endLoading p) h
  cacheFragment {s} f h := rest (s.cacheFragment f) h
  writeAnnotations i _ _ h := mapShape i (fun _ => ⟨⟨rfl, List.prefix_rfl⟩, ⟨rfl, rfl, rfl⟩⟩) h
  markBound {s} h := rest { s with annotationsBound := s.shapes.size } h

/-- Loading keeps what says nothing of the store. -/
theorem keptByLoading_true : KeptByLoading fun _ => True :=
  .of_shapes (fun _ _ => trivial) (fun _ _ _ => trivial) fun _ _ _ _ => trivial

/-- A shape is found again after a new one is stored. -/
theorem getElem?_addShape_of_some {a c : Shape} {i : ShapeId} (h : s.shapes[i]? = some c) :
    (s.addShape a).shapes[i]? = some c := by
  rw [getElem?_addShape, if_neg (Nat.ne_of_lt (Array.getElem?_eq_some_iff.1 h).1), h]

/-- Loading writes into no shape that resolution writes. -/
theorem keptByLoading_unwritten (b : Store) : KeptByLoading b.Unwritten := by
  refine .of_shapes (fun _ h => { h with }) (fun {s} a hnew h => ?_) fun i _ hf h => h.mapShape i hf
  constructor
  · intro i c hc
    obtain ⟨d, hd, hcd⟩ := h.old i c hc
    exact ⟨d, getElem?_addShape_of_some hd, hcd⟩
  · intro i c hc hi
    rw [getElem?_addShape] at hc
    split at hc
    · cases hc
      exact hnew.derived
    · exact h.new i c hc hi

/-- A run that obeys the laws of comparison writes into no shape. -/
theorem unwritten_of_agree {α : Type} {x : Load α} {Q : Unit → α → α → Prop} (s : Store)
    (hx : (withInvariant s.Unwritten).Agree () x x Q) : s.Unwritten (x s).2 :=
  holds_of_agree hx (.refl s)

/-! ## Accounts -/

/-- The shape `a` has become the shape `c` of the store `t` by the evaluation `e`. -/
structure Wrote (e : Evaluation) (a c : Shape) (t : Store) : Prop where
  stays : a.Stays e.shape
  grows : e.shape.Grows c
  body : c.body = e.result.body
  inherits : c.inherits = e.shape.inherits ++ e.result.inherits
  customFacets : c.customFacets = Dict.putAll e.shape.customFacets e.result.customFacets
  concrete : c.isUnknown = false
  keeps : e.stop.Keeps t

/-- Evaluations that have the property `T` account for the difference between the stores. -/
structure Accounts (T : Evaluation → Prop) (s t : Store) : Prop where
  /-- Each shape of `s` is in `t` as it was, or an evaluation has written it. -/
  old : ∀ (i : ShapeId) (a : Shape), s.shapes[i]? = some a → ∃ c, t.shapes[i]? = some c ∧
    (a.Stays c ∨ ∃ e, T e ∧ e.id = i ∧ Wrote e a c t)
  /-- A new shape that waits was declared by what has to be resolved, and so declared, it waits or an
  evaluation has written it. -/
  new : ∀ (i : ShapeId) (c : Shape), t.shapes[i]? = some c → s.shapes.size ≤ i →
    (c.isUnknown → c.IsDerived) ∧ (c.IsDerived → c.isUnknown ∨ ∃ e, T e ∧ e.id = i)

variable {T U : Evaluation → Prop}

/-- Where nothing is written there is nothing to account for. -/
theorem Unwritten.accounts (h : s.Unwritten t) : Accounts T s t where
  old i a ha := by
    obtain ⟨c, hc, hac⟩ := h.old i a ha
    exact ⟨c, hc, .inl hac⟩
  new i c hc hi := ⟨(h.new i c hc hi).2, fun hd => .inl ((h.new i c hc hi).1 hd)⟩

/-- Where nothing happens there is nothing to account for. -/
theorem Accounts.refl (s : Store) : Accounts T s s := (Unwritten.refl s).accounts

/-- More evaluations account for a change, too. -/
theorem Accounts.mono (h : Accounts T s t) (hT : ∀ e, T e → U e) : Accounts U s t where
  old i a ha := by
    obtain ⟨c, hc, hac⟩ := h.old i a ha
    refine ⟨c, hc, hac.imp_right ?_⟩
    rintro ⟨e, he, hi, hw⟩
    exact ⟨e, hT e he, hi, hw⟩
  new i c hc hi := by
    refine (h.new i c hc hi).imp_right fun hderived hd => (hderived hd).imp_right ?_
    rintro ⟨e, he, heq⟩
    exact ⟨e, hT e he, heq⟩

/-- What an evaluation has written stays. -/
theorem Wrote.later {e : Evaluation} {a c d : Shape} (h : Wrote e a c t) (hk : t.Keeps u)
    (hcd : c.Stays d) : Wrote e a d u where
  stays := h.stays
  grows := h.grows.trans hcd.grows
  body := hcd.kept.body.trans h.body
  inherits := hcd.kept.inherits.trans h.inherits
  customFacets := hcd.kept.customFacets.trans h.customFacets
  concrete := hcd.kept.isUnknown.trans h.concrete
  keeps := h.keeps.trans hk

/-- A resolved shape has not been written. -/
theorem Accounts.keeps (h : Accounts T s t) : s.Keeps t := by
  intro i a ha hr
  obtain ⟨c, hc, hac | ⟨e, -, -, hw⟩⟩ := h.old i a ha
  · exact ⟨c, hc, hac⟩
  · obtain ⟨-, -, hwait⟩ := waits_of_claim e.claimed
    rw [hw.stays.kept.isUnknown.symm.trans hwait.isUnknown] at hr
    cases hr

/-- The evaluations of two parts account for both together. -/
theorem Accounts.trans (h : Accounts T s t) (h' : Accounts T t u) : Accounts T s u where
  old i a ha := by
    have hk := h'.keeps
    obtain ⟨c, hc, hac | ⟨e, he, hi, hw⟩⟩ := h.old i a ha
    · obtain ⟨d, hd, hcd | ⟨e, he, hi, hw⟩⟩ := h'.old i c hc
      · exact ⟨d, hd, .inl (hac.trans hcd)⟩
      · exact ⟨d, hd, .inr ⟨e, he, hi, { hw with stays := hac.trans hw.stays }⟩⟩
    · obtain ⟨d, hd, hcd⟩ := hk i c hc hw.concrete
      exact ⟨d, hd, .inr ⟨e, he, hi, hw.later hk hcd⟩⟩
  new i d hd hi := by
    rcases Nat.lt_or_ge i t.shapes.size with hlt | hge
    · have hc := Array.getElem?_eq_getElem hlt
      obtain ⟨hwaits, hderived⟩ := h.new i _ hc hi
      obtain ⟨d', hd', hcd | ⟨e, he, heq, hw⟩⟩ := h'.old i _ hc
      · cases hd.symm.trans hd'
        rw [hcd.grows.isDerived_iff, hcd.kept.isUnknown]
        exact ⟨hwaits, hderived⟩
      · cases hd.symm.trans hd'
        refine ⟨fun hu => ?_, fun _ => .inr ⟨e, he, heq⟩⟩
        rw [hw.concrete] at hu
        cases hu
    · exact h'.new i d hd hge

/-- Only the shapes of the stores matter. -/
theorem Accounts.of_shapes_eq {s' t' : Store} (h : Accounts T s t) (hs : s'.shapes = s.shapes)
    (ht : t'.shapes = t.shapes) : Accounts T s' t' where
  old i a ha := by
    obtain ⟨c, hc, hac⟩ := h.old i a (hs ▸ ha)
    have hkeeps : t.Keeps t' := fun j d hd _ => ⟨d, ht ▸ hd, .refl d⟩
    refine ⟨c, ht ▸ hc, hac.imp_right ?_⟩
    rintro ⟨e, he, hi, hw⟩
    exact ⟨e, he, hi, hw.later hkeeps (.refl c)⟩
  new i c hc hi := h.new i c (ht ▸ hc) (hs ▸ hi)

/-- Two loads account for what they do one after the other. -/
theorem Accounts.bind {α β : Type} {x : Load α} {f : α → Load β} (hx : Accounts T s (x s).2)
    (hf : ∀ a t, x s = (.ok a, t) → Accounts T t (f a t).2) : Accounts T s ((x >>= f) s).2 := by
  rw [Load.bind_apply]
  rcases hr : x s with ⟨e | a, t⟩
  · rw [hr] at hx
    exact hx
  · rw [hr] at hx
    exact hx.trans (hf a t hr)

/-- What a load goes on with depends on the store. -/
theorem Accounts.ask {α β : Type} {f : Store → α} {k : α → Load β} (h : Accounts T s (k (f s) s).2) :
    Accounts T s ((Load.ask f >>= k) s).2 := h

end Store

/-! ## The evaluation of a declaration -/

namespace Resolution

open Store

variable {resolve : ShapeId → Load Unit} {a : Shape} {p : Pending} {s t u : Store}
  {T : Evaluation → Prop}

/-- One more shape is resolved behind the others. -/
theorem each_concat {before : List ShapeId} {j : ShapeId} : ∀ {s : Store},
    each resolve before s = (.ok (), t) → resolve j t = (.ok (), u) →
    each resolve (before ++ [j]) s = (.ok (), u) := by
  induction before with
  | nil =>
    intro s hs hj
    cases hs
    exact Load.bind_eq_ok.2 ⟨(), u, hj, rfl⟩
  | cons i rest ih =>
    intro s hs hj
    obtain ⟨_, v, hi, hrest⟩ := Load.bind_eq_ok.1 hs
    exact Load.bind_eq_ok.2 ⟨(), v, hi, ih hrest hj⟩

/-- Applying the facets of a declaration resolves no shape. -/
theorem unwritten_finish (o : Owner) (facets : List (String × Node)) (is ns : List ShapeId)
    (body : Body) (s : Store) : s.Unwritten (finish o facets is ns body s).2 := by
  have hlaws := (keptByLoading_unwritten s).evaluates o
  refine unwritten_of_agree (Q := fun _ _ _ => True) s ?_
  refine .bind (hlaws.overlay () trivial (.same body) facets) ?_
  rintro _ ⟨c, left⟩ ⟨d, left'⟩ - ⟨⟨hcd, rfl⟩, -⟩
  exact .pure trivial

section
variable (hr : ∀ j t, Asks resolve a p s j t → Accounts T t (resolve j t).2)
include hr

/-- Taking over the body of a shape that the declaration depends on. -/
theorem accounts_takeOver {j : ShapeId} (facets : List (String × Node))
    (h : Asks resolve a p s j t) : Accounts T t
      ((do resolve j; finish a.owner facets [j] [] (← Load.ask (·.bodyOf j)) : Load Resolution) t).2 :=
  .bind (hr j t h) fun _ u _ => (unwritten_finish _ _ _ _ _ u).accounts

/-- What an expression asks for accounts for its evaluation. -/
theorem accounts_ofExpr {text : String} {e : Expr} (hp : p.declared = .expression text)
    (he : Expr.parse text = .ok e) :
    Accounts T s (ofExpr resolve a.owner p.facets e s).2 := by
  have hlaws := (keptByLoading_unwritten s).evaluates a.owner
  cases e with
  | ref library name =>
    refine .bind (unwritten_of_agree s (hlaws.lookup () library name trivial)).accounts ?_
    intro j t hj
    rw [lookup, Load.ask_bind] at hj
    split at hj
    · next hd =>
      cases hj
      exact accounts_takeOver hr p.facets (.reference hp he hd)
    · cases hj
  | builtin k => exact (unwritten_finish _ _ _ _ _ s).accounts
  | array inner =>
    refine .bind (unwritten_of_agree s (hlaws.part inner () trivial)).accounts ?_
    exact fun _ t _ => (unwritten_finish _ _ _ _ _ t).accounts
  | optional inner =>
    refine .bind (unwritten_of_agree s (hlaws.part inner () trivial)).accounts fun _ t _ => ?_
    have hlaws := (keptByLoading_unwritten t).evaluates a.owner
    have hnil : Body.nil.kind ≠ .unknown := Body.pending_eq_none_iff.1 rfl
    refine .bind (unwritten_of_agree t (hlaws.fresh () trivial .nil hnil)).accounts fun _ u _ => ?_
    exact (unwritten_finish _ _ _ _ _ u).accounts
  | union members =>
    refine .bind (unwritten_of_agree s (hlaws.parts members () trivial)).accounts ?_
    exact fun _ t _ => (unwritten_finish _ _ _ _ _ t).accounts

/-- What an include asks for accounts for its evaluation. -/
theorem accounts_ofLink (hp : p.declared = .link) :
    Accounts T s (ofLink resolve a.owner p.facets a.link s).2 := by
  have hlaws := (keptByLoading_unwritten s).evaluates a.owner
  unfold ofLink
  rcases hl : a.link with _ | path
  · exact .refl s
  · refine .bind (unwritten_of_agree s (hlaws.dataType () path trivial trivial)).accounts ?_
    exact fun d t hd => accounts_takeOver hr p.facets (.link hp hl hd)

/-- The parents account for the resolutions one after the other. -/
theorem accounts_each (hp : p.declared = .parents) (rest : List ShapeId) :
    ∀ {before : List ShapeId} {t : Store}, a.inherits = before ++ rest →
    each resolve before s = (.ok (), t) → Accounts T t (each resolve rest t).2 := by
  induction rest with
  | nil => exact fun _ _ => .refl _
  | cons j rest ih =>
    intro before t hparents hbefore
    refine .bind (hr j t (.parent hp hparents hbefore)) fun _ u hu => ?_
    exact ih (by rw [hparents, List.append_assoc, List.singleton_append])
      (each_concat hbefore hu)

/-- What a list of parents asks for accounts for its evaluation. -/
theorem accounts_ofParents (hp : p.declared = .parents) :
    Accounts T s (ofParents resolve a.owner p.facets a.inherits s).2 := by
  have hnone : each resolve [] s = (.ok (), s) := rfl
  refine .bind (accounts_each hr hp a.inherits rfl hnone) fun _ t _ => .ask ?_
  have hlaws := (keptByLoading_unwritten t).evaluates a.owner
  refine .bind (unwritten_of_agree t (hlaws.reportDivergence () _)).accounts fun _ u _ => .ask ?_
  exact (unwritten_finish _ _ _ _ _ u).accounts

/-- Evaluating a declaration accounts for what it changes with the resolutions that it asks for. -/
theorem accounts_ofPending : Accounts T s (ofPending resolve a.owner a p s).2 := by
  rw [ofPending]
  split
  · next hp => exact accounts_ofLink hr hp
  · next hp => exact accounts_ofParents hr hp
  · next text hp =>
    split
    · next e he => exact accounts_ofExpr hr hp he
    · exact .refl s

end

end Resolution

end RamlTypes
