import RamlTypes.Proofs.Equations.Nested
import RamlTypes.Proofs.Filing
import RamlTypes.Proofs.Lifecycle.Lists

/-!
# Resolution reaches what an expression names

A shape is written before the types are resolved that its expression names inside, and those whose own
resolution has begun are left out. So in between a name may denote a shape that is being resolved, or
one that is to be resolved later (`Store.InHand`). The calls of the resolution leave no other shapes
open than those that were open before (`Store.Reaching.resolveWithin`). Between two requests none is
open, as long as all of them are served (`Session.names_resolved`).
-/

namespace RamlTypes

/-- A shape that grows mentions the names that it mentioned. -/
theorem Shape.Grows.mentions_iff {a c : Shape} (h : a.Grows c) {library : Option String}
    {name : String} : c.Mentions library name ↔ a.Mentions library name := by
  rw [Mentions, Mentions, h.link_eq, h.declaration_eq]

/-- A shape that is left as it is stays spelled. -/
theorem Shape.Stays.isSpelled {a c : Shape} (h : a.Stays c) (ha : a.IsSpelled) : c.IsSpelled := by
  refine ha.imp (fun hbody => ?_) fun hnone library name hm => ?_
  · rwa [AwaitsExpression, h.kept.body]
  · exact hnone library name (h.grows.mentions_iff.1 hm)

namespace Store

variable {b s t : Store} {i j : ShapeId} {name : String} {p : Path}

/-! ## Names that last -/

namespace Filed

variable (h : s.Filed)
include h

/-- A name that denotes a shape is used in a cached file. -/
theorem has_of_lookup? (hj : s.lookup? p name = some j) :
    Dict.has (s.normalize p).key s.fragments := by
  rw [Store.lookup?] at hj
  rcases hf : Dict.find? (s.normalize p).key s.fragments with _ | f
  · rcases hn : Dict.find? (s.normalize p).key s.named with _ | d
    · rw [hn, hf] at hj
      cases hj
    · exact h.noted _ (.inl (Dict.has_iff.2 ⟨d, hn⟩))
  · exact Dict.has_iff.2 ⟨f, hf⟩

/-- What a name denotes it denotes ever after. -/
theorem denoted?_later (hsame : s.SameIndexes t) (hsettings : t.settings = s.settings)
    (hnames : ∀ i name, s.nameOf? i = some name → t.nameOf? i = some name) {library : Option String}
    (hj : s.denoted? p library name = some j) : t.denoted? p library name = some j := by
  have hlookup {p : Path} (hj : s.lookup? p name = some j) : t.lookup? p name = some j :=
    hsame.lookup? hsettings hnames (h.has_of_lookup? hj) hj
  cases library with
  | none => exact hlookup hj
  | some l =>
    obtain ⟨q, hq, hj⟩ := Option.bind_eq_some_iff.1 hj
    obtain ⟨uses, huses, hl⟩ := Option.bind_eq_some_iff.1 hq
    have hfile : Dict.has p.key s.fragments := h.noted _ (.inr (.inr (Dict.has_iff.2 ⟨uses, huses⟩)))
    have huses' : t.usesOf? p = some uses := (hsame.uses _ hfile).trans huses
    exact Option.bind_eq_some_iff.2 ⟨q, Option.bind_eq_some_iff.2 ⟨uses, huses', hl⟩, hlookup hj⟩

end Filed

/-! ## Shapes that are open -/

/-- The shape is resolved, or it is open: its resolution has begun, or is to begin later. -/
def InHand (later : ShapeId → Prop) (s : Store) (j : ShapeId) : Prop :=
  (∃ d, s.HasResolved j d) ∨ j ∈ s.inProgress ∨ later j

/-- Each name in the expression of the shape denotes one that is resolved or open. -/
def Reaches (later : ShapeId → Prop) (s : Store) (c : Shape) : Prop :=
  ∀ library name, c.Mentions library name →
    ∃ j, s.denoted? c.location library name = some j ∧ s.InHand later j

/-- Each shape is spelled, or it is one of the shapes of `b` as it was. -/
def SpelledSince (b s : Store) : Prop :=
  ∀ (i : ShapeId) (c : Shape), s.shapes[i]? = some c →
    c.IsSpelled ∨ ∃ a, b.shapes[i]? = some a ∧ a.Stays c

/-- What holds of a store during a request that began in `b`. Each shape that does not wait with its
expression reaches what it names. -/
structure Reaching (b : Store) (later : ShapeId → Prop) (s : Store) : Prop extends Filing b [] s where
  shapes : ∀ (i : ShapeId) (c : Shape), s.shapes[i]? = some c → c.AwaitsExpression ∨ s.Reaches later c

/-- What names denote in `s` they denote in `t`, and what is resolved or is being resolved in `s` is so
in `t`. -/
structure Lasts (s t : Store) : Prop where
  denoted : ∀ {p library name j}, s.denoted? p library name = some j →
    t.denoted? p library name = some j
  keeps : s.Keeps t
  inProgress : ∀ i ∈ s.inProgress, (∃ d, t.HasResolved i d) ∨ i ∈ t.inProgress

variable {later later' : ShapeId → Prop} {a c : Shape}

/-- What is in hand stays so when what is to begin later is in hand too. -/
theorem InHand.mono (h : s.InHand later j) (hlater : later j → s.InHand later' j) :
    s.InHand later' j := by
  rcases h with h | h | h
  · exact .inl h
  · exact .inr (.inl h)
  · exact hlater h

/-- What is in hand stays so in a store in which it lasts. -/
theorem InHand.since (h : s.InHand later j) (hst : s.Lasts t) : t.InHand later j := by
  rcases h with ⟨d, hd⟩ | h | h
  · obtain ⟨d', hd', -⟩ := hst.keeps.hasResolved hd
    exact .inl ⟨d', hd'⟩
  · exact (hst.inProgress j h).imp_right .inl
  · exact .inr (.inr h)

/-- So for the shapes that a shape reaches. -/
theorem Reaches.mono (h : s.Reaches later c) (hlater : ∀ j, later j → s.InHand later' j) :
    s.Reaches later' c := by
  intro library name hm
  obtain ⟨j, hj, hhand⟩ := h library name hm
  exact ⟨j, hj, InHand.mono hhand (hlater j)⟩

/-- A shape that has not been written continues to reach what it names. -/
theorem Reaches.since (h : s.Reaches later a) (hst : s.Lasts t) (hac : a.Grows c) :
    t.Reaches later c := by
  intro library name hm
  obtain ⟨j, hj, hhand⟩ := h library name (hac.mentions_iff.1 hm)
  rw [hac.location_eq]
  exact ⟨j, hst.denoted hj, InHand.since hhand hst⟩

/-- A change that notes nothing new of the cached files and lets the shapes grow is lasting. -/
theorem Filed.lasts (h : s.Filed) (hsame : s.SameIndexes t) (hgrows : s.Grows t) : s.Lasts t where
  denoted hj := h.denoted?_later hsame hgrows.settings hgrows.nameOf? hj
  keeps := hgrows.keeps
  inProgress _ hi := .inr (hgrows.inProgress ▸ hi)

/-- No shape has been stored yet. -/
theorem SpelledSince.refl (s : Store) : SpelledSince s s :=
  fun _ a ha => .inr ⟨a, ha, .refl a⟩

/-- Loads store only shapes that are spelled. -/
theorem keptByLoading_spelledSince (b : Store) : KeptByLoading (SpelledSince b) := by
  refine .of_shapes (fun _ h => h) (fun a new h i c hc => ?_) fun i f hf h j c hc => ?_
  · rcases cases_of_addShape hc with ⟨-, rfl⟩ | hc
    · exact .inl new.spelled
    · exact h i c hc
  · rcases cases_of_mapShape hc with ⟨rfl, d, hd, rfl⟩ | hc
    · rcases h _ d hd with hd | ⟨a, ha, had⟩
      · exact .inl ((hf d).isSpelled hd)
      · exact .inr ⟨a, ha, had.trans (hf d)⟩
    · exact h j c hc

/-! ## What loads keep -/

/-- Requests that are made one after the other keep the store filed. -/
theorem Filing.trans (h : Filing b [] s) (h' : Filing s [] t) : Filing b [] t :=
  h'.filed.filing (h.same.trans h'.same) (h'.settings_eq.trans h.settings_eq) h'.loading

namespace Reaching

/-- The shapes that are to begin later may be exchanged for such as are in hand. -/
theorem mono (h : Reaching b later s) (hlater : ∀ j, later j → s.InHand later' j) :
    Reaching b later' s where
  toFiling := h.toFiling
  shapes i c hc := (h.shapes i c hc).imp_right fun hreaches => Reaches.mono hreaches hlater

/-- The request goes on as if it began now. -/
theorem restart (h : Reaching b later s) : Reaching s later s where
  toFiling := h.filed.filing (.refl s) rfl h.loading
  shapes := h.shapes

/-- Loads open no shapes. -/
theorem load (h : Reaching b later s) (ht : Filing s [] t) (hspelled : SpelledSince s t)
    (hgrows : s.Grows t) : Reaching b later t where
  toFiling := h.toFiling.trans ht
  shapes i c hc := by
    rcases hspelled i c hc with hc | ⟨a, ha, hac⟩
    · exact hc.imp_right fun hnone library name hm => absurd hm (hnone library name)
    · refine (h.shapes i a ha).imp (fun hbody => ?_) fun hreaches => ?_
      · rwa [Shape.AwaitsExpression, hac.kept.body]
      · exact Reaches.since hreaches (h.filed.lasts ht.same hgrows) hac.grows

/-- Work lists and files do not matter. -/
theorem unnamed (h : Reaching b later s) (t : Store) : Reaching b later { t with
    settings := s.settings
    shapes := s.shapes
    fragments := s.fragments
    named := s.named
    annotationTypes := s.annotationTypes
    uses := s.uses
    loading := s.loading
    inProgress := s.inProgress } where
  toFiling := h.toFiling.unnoted { t with shapes := s.shapes, inProgress := s.inProgress }
  shapes := h.shapes

/-- The resolution of a shape begins. -/
theorem beginResolution (h : Reaching b later s) (i : ShapeId) :
    Reaching b later (s.beginResolution i) where
  toFiling := h.toFiling.unnoted (s.beginResolution i)
  shapes j c hc := by
    have hlasts : s.Lasts (s.beginResolution i) :=
      { denoted := fun hj => hj
        keeps := fun _ a ha _ => ⟨a, ha, .refl a⟩
        inProgress := fun _ hi => .inr (List.mem_cons_of_mem _ hi) }
    exact (h.shapes j c hc).imp_right fun hreaches => Reaches.since hreaches hlasts (.refl c)

/-- One change that keeps the filing, stores spelled shapes only and lets them grow. -/
theorem of_change (h : Reaching b later s) {f : Store → Store}
    (hfiling : ∀ {u}, Filing s [] u → Filing s [] (f u))
    (hspelled : ∀ {u}, SpelledSince s u → SpelledSince s (f u)) (hgrows : s.Grows (f s)) :
    Reaching b later (f s) :=
  h.load (hfiling h.restart.toFiling) (hspelled (.refl s)) hgrows

end Reaching

/-- Declaring shapes keeps that shapes reach what they name. -/
theorem keptByDeclaring_reaching (b : Store) (later : ShapeId → Prop) :
    KeptByDeclaring (Reaching b later) where
  report {s} d hd h := h.of_change ((keptByDeclaring_filing s []).report d hd)
    ((keptByLoading_spelledSince s).report d hd) (s.grows_report d)
  addShape {s} a ha h := h.of_change ((keptByDeclaring_filing s []).addShape a ha)
    ((keptByLoading_spelledSince s).addShape a ha) (s.grows_addShape a)
  makeOptional {s} i h := h.of_change ((keptByDeclaring_filing s []).makeOptional i)
    ((keptByLoading_spelledSince s).makeOptional i)
    (grows_mapShape_of_stays i fun _ => ⟨⟨rfl, List.prefix_rfl⟩, ⟨rfl, rfl, rfl⟩⟩)

/-- Binding annotations keeps it. -/
theorem keptByBinding_reaching (b : Store) (later : ShapeId → Prop) :
    KeptByBinding (Reaching b later) where
  reportUnbound {s} subject n h := h.of_change ((keptByBinding_filing s []).reportUnbound subject n)
    ((keptByLoading_spelledSince s).reportUnbound subject n) (s.grows_report _)
  writeAnnotations {s} i d xs h := h.of_change ((keptByBinding_filing s []).writeAnnotations i d xs)
    ((keptByLoading_spelledSince s).writeAnnotations i d xs)
    (grows_mapShape_of_stays i fun _ => ⟨⟨rfl, List.prefix_rfl⟩, ⟨rfl, rfl, rfl⟩⟩)
  markBound {s} h := h.of_change (f := fun u => { u with annotationsBound := u.shapes.size })
    (keptByBinding_filing s []).markBound (keptByLoading_spelledSince s).markBound
    { Grows.refl s with }

section
variable (hroot : b.settings.root.isAbsolute)
include hroot

/-- And so do the loads that a resolution makes. -/
theorem keptByLoads_reaching (later : ShapeId → Prop) :
    KeptByLoads (Reaching b later) fun _ => True := by
  have keeps {α : Type} {x : Load α} {s : Store} (h : Reaching b later s)
      (hx : ∀ {J E : Store → Prop}, KeptByLoads J E → J s → x.EndsIn s (fun _ => J) E) :
      x.EndsIn s (fun _ => Reaching b later) fun _ => True := by
    have hfiling := hx (keptByRuns_filing s (h.settings_eq ▸ hroot)).toKeptByLoads h.restart.toFiling
    have hspelled := hx (keptByLoading_spelledSince s).keptByLoads (.refl s)
    exact ⟨fun hr => h.load (hfiling.of_ok hr) (hspelled.of_ok hr) (Load.grows_of_apply hr),
      fun _ => trivial⟩
  exact
    { loadExample := fun p _ h => keeps h fun hloads => hloads.loadExample p
      fragment := fun p _ h => keeps h fun hloads => hloads.fragment p
      library := fun p _ h => keeps h fun hloads => hloads.library p
      dataType := fun p _ h => keeps h fun hloads => hloads.dataType p
      declare := fun p name node _ h => keeps h fun hloads => hloads.declare p name node }

end

/-! ## What resolutions keep -/

/-- An evaluation ends with the writing of its result. -/
theorem resolving_of_evaluation (e : Evaluation) :
    Load.resolving e.id (Load.evaluateWithin e.depth) e.start = (.ok e.result.nested, written e) := by
  rw [Load.resolving_apply, e.claimed]
  dsimp only
  rw [e.evaluated]
  rfl

/-- Writing the result of an evaluation leaves the names. -/
theorem nameOf?_written (e : Evaluation) (i : ShapeId) :
    (written e).nameOf? i = e.stop.nameOf? i := by
  rw [nameOf?, nameOf?, written, writeResolution, getElem?_mapShape]
  split
  · rw [Option.map_map]
    rfl
  · rfl

/-- Writing its result ends an evaluation, and the shape is resolved. -/
theorem lasts_written {e : Evaluation} (hsound : e.start.Sound e.id) (h : e.stop.Filed) :
    e.stop.Lasts (written e) where
  denoted hj := h.denoted?_later (t := written e) { SameIndexes.refl e.stop with } rfl
    (fun i _ hi => (nameOf?_written e i).trans hi) hj
  keeps := keeps_written e
  inProgress i hi := by
    by_cases hid : i = e.id
    · obtain ⟨c, hc, hw⟩ := hsound.exists_written
      exact .inl ⟨c, hid ▸ hc, hw.concrete⟩
    · exact .inr (List.mem_filter.2 ⟨hi, decide_eq_true hid⟩)

/-- The names of a shape that is written denote what is resolved or is to be resolved afterwards. -/
theorem reaches_written {e : Evaluation} (hsound : e.start.Sound e.id)
    (hstart : Reaching b later e.start) (hlasts : e.start.Lasts (written e)) {c : Shape}
    (hc : (written e).shapes[e.id]? = some c) (hgrows : e.shape.Grows c) :
    (written e).Reaches (fun j => later j ∨ j ∈ e.result.nested) c := by
  obtain ⟨ha, hpending, hwait⟩ := waits_of_claim e.claimed
  rcases hstart.shapes e.id e.shape ha with ⟨text, facets, hbody⟩ | hreaches
  · have hexpression : e.pending.declared = .expression text := by
      rw [hbody] at hpending
      rw [← Option.some.inj hpending]
    have hdeclaration : e.shape.declaration = some text := by
      obtain ⟨b, known, phase, w, w', -, hs, -⟩ := hsound.evaluation
      have hdeclared := hs.declared _ _ ha hwait.isUnknown
      rw [Shape.IsDeclared, hpending] at hdeclared
      dsimp only at hdeclared
      rw [hexpression] at hdeclared
      exact hdeclared.1
    intro library name hm
    obtain ⟨-, text', x, htext', hparse, hmentions⟩ := hgrows.mentions_iff.1 hm
    cases hdeclaration.symm.trans htext'
    rw [hgrows.location_eq]
    by_cases hx : x = .ref library name
    · subst hx
      obtain ⟨c', hc', hw⟩ := hsound.exists_written
      cases hc.symm.trans hc'
      cases solves_of_wrote hsound hw with
      | @reference _ _ _ j d declared parsed denoted _ target _ =>
        cases hexpression.symm.trans declared
        cases hparse.symm.trans parsed
        exact ⟨j, hlasts.denoted denoted, .inl ⟨d, target⟩⟩
      | expression declared parsed _ hasBody _ =>
        cases hexpression.symm.trans declared
        cases hparse.symm.trans parsed
        cases hasBody
      | parents declared _ _ _ => cases hexpression.symm.trans declared
      | link declared _ _ _ _ _ => cases hexpression.symm.trans declared
    · obtain ⟨j, hj, hdenoted⟩ := (e.names_nested hsound).all library name
        ⟨text, x, hexpression, hparse, hmentions, hx⟩
      exact ⟨j, hlasts.denoted hdenoted, .inr (.inr (.inr hj))⟩
  · exact Reaches.mono (Reaches.since hreaches hlasts hgrows) fun j hj => .inr (.inr (.inl hj))

/-- What an evaluation leaves open is to be resolved afterwards. -/
theorem Reaching.written {e : Evaluation} (hsound : e.start.Sound e.id)
    (hstart : Reaching b later e.start)
    (hstop : Reaching (e.start.beginResolution e.id) later e.stop) :
    Reaching b (fun j => later j ∨ j ∈ e.result.nested) (written e) := by
  have hsame : e.start.SameIndexes e.stop := { hstop.same with }
  have hfiling : Filing e.start [] e.stop := { hstop.toFiling with same := hsame }
  have hgrows : e.start.Grows (Store.written e) := Load.grows_of_apply (resolving_of_evaluation e)
  have hlasts : e.start.Lasts (Store.written e) := hstart.filed.lasts { hsame with } hgrows
  refine ⟨hstart.toFiling.trans (hfiling.unnoted (Store.written e)), fun i c hc => ?_⟩
  by_cases hi : e.id = i
  · subst hi
    obtain ⟨ha, -, -⟩ := waits_of_claim e.claimed
    obtain ⟨c', hc', hac, -⟩ := hgrows.shapes e.id e.shape ha
    cases hc.symm.trans hc'
    exact .inr (reaches_written hsound hstart hlasts hc hac)
  · have hstopped : e.stop.shapes[i]? = some c := by
      rwa [Store.written, writeResolution, getElem?_mapShape, if_neg hi] at hc
    refine (hstop.shapes i c hstopped).imp_right fun hreaches => ?_
    exact Reaches.mono (Reaches.since hreaches (lasts_written hsound hstop.filed) (.refl c))
      fun j hj => .inr (.inr (.inl hj))

section
variable {n : Nat} (ih : ∀ (b : Store) (later : ShapeId → Prop) (i : ShapeId) (s : Store),
  b.settings.root.isAbsolute → s.Sound i → Reaching b later s →
    (Load.resolveWithin n i).EndsIn s (fun _ => Reaching b later) fun _ => True)
  (hroot : b.settings.root.isAbsolute) (hs : s.Sound i)
include ih hroot hs

/-- The types inside the expression are left open when a shape is written. -/
theorem Reaching.resolving (h : Reaching b later s) :
    (Load.resolving i (Load.evaluateWithin n)).EndsIn s
      (fun ns => Reaching b fun j => later j ∨ j ∈ ns) fun _ => True := by
  have hrun := Load.resolving_apply i (Load.evaluateWithin n) s
  rcases hclaim : s.claim i with f | (_ | ⟨a, p⟩)
  all_goals rw [hclaim] at hrun
  · exact .of_run_error hrun trivial
  · exact .of_run_ok hrun (h.mono fun j hj => .inr (.inr (.inl hj)))
  · have hroot' : (s.beginResolution i).settings.root.isAbsolute := h.settings_eq ▸ hroot
    have hbegin := (h.beginResolution i).restart
    have hlaws : (withInvariants (Reaching (s.beginResolution i) later) (fun _ => True)
        (fun _ => True) fun _ _ => trivial).Evaluates a.owner :=
      (keptByDeclaring_reaching _ later).evaluates (keptByLoads_reaching hroot' later) a.owner
    have heval : (Load.evaluateWithin n a p).EndsIn (s.beginResolution i)
        (fun _ => Reaching (s.beginResolution i) later) fun _ => True := by
      refine Resolution.endsIn_ofPending hlaws (fun j u hasks hu => ?_) hbegin
      exact ih _ later j u hroot' (Sound.makes (c := ⟨n + 1, i, s⟩) hs (.dependency hclaim hasks)) hu
    dsimp only at hrun
    rcases hr : Load.evaluateWithin n a p (s.beginResolution i) with ⟨f | r, t⟩
    all_goals rw [hr] at hrun
    · exact .of_run_error hrun trivial
    · let e : Evaluation := ⟨i, n, s, a, p, r, t, hclaim, hr⟩
      exact .of_run_ok hrun (Reaching.written (e := e) hs h (heval.of_ok hr))

/-- The types inside the expression are resolved one after the other. -/
theorem Reaching.resolveIdle {m : Store} (ids : List ShapeId) :
    ∀ (before : List ShapeId) {t : Store},
    Load.resolving i (Load.evaluateWithin n) s = (.ok (before ++ ids), m) →
    Load.resolveIdle (Load.resolveWithin n) before m = (.ok (), t) →
    Reaching b (fun j => later j ∨ j ∈ ids) t →
    (Load.resolveIdle (Load.resolveWithin n) ids).EndsIn t (fun _ => Reaching b later) fun _ => True := by
  induction ids with
  | nil =>
    intro before t _ _ ht
    exact .pure (ht.mono fun j hj => .inr (.inr (hj.resolve_right List.not_mem_nil)))
  | cons j rest ihrest =>
    intro before t heval hbefore ht
    -- The next shape is resolved, or its own resolution has begun.
    have hidle : (Load.unlessResolving j (Load.resolveWithin n j)).EndsIn t
        (fun _ => Reaching b fun k => later k ∨ k ∈ rest) fun _ => True := by
      have settle {u : Store} (hu : Reaching b (fun k => later k ∨ k ∈ j :: rest) u)
          (hj : u.InHand (fun _ => False) j) : Reaching b (fun k => later k ∨ k ∈ rest) u := by
        refine hu.mono fun k hk => ?_
        rcases hk with hk | hk
        · exact .inr (.inr (.inl hk))
        · rcases List.mem_cons.1 hk with rfl | hk
          · exact InHand.mono hj False.elim
          · exact .inr (.inr (.inr hk))
      refine .ask ?_
      cases hprogress : t.isInProgress j with
      | true => exact .pure (settle ht (.inr (.inl (List.contains_iff_mem.1 hprogress))))
      | false =>
        have hm : Call.Makes ⟨n + 1, i, s⟩ ⟨n, j, t⟩ := .nested heval hbefore hprogress
        have hsound : t.Sound j := hs.makes hm
        refine ⟨fun hr => ?_, fun _ => trivial⟩
        exact settle ((ih b _ j t hroot hsound ht).of_ok hr) (.inl (hsound.resolved_of_ok hr))
    refine hidle.bind_run fun _ u hu hJ => ?_
    exact ihrest _ (by rwa [List.append_assoc]) (resolveIdle_concat hbefore hu) hJ

end

/-- A call leaves no shapes open but those that were open before. -/
theorem Reaching.resolveWithin (n : Nat) : ∀ (b : Store) (later : ShapeId → Prop) (i : ShapeId)
    (s : Store), b.settings.root.isAbsolute → s.Sound i → Reaching b later s →
    (Load.resolveWithin n i).EndsIn s (fun _ => Reaching b later) fun _ => True := by
  induction n with
  | zero => exact fun _ _ _ _ _ _ _ => .stop trivial
  | succ n ih =>
    intro b later i s hroot hs h
    refine (h.resolving ih hroot hs).bind_run fun ns t ht hJ => ?_
    exact Reaching.resolveIdle ih hroot hs ns [] ht rfl hJ

/-- Requests leave no shapes open but those that were open before. -/
theorem keptByRequests_reaching (hroot : b.settings.root.isAbsolute) (later : ShapeId → Prop) :
    KeptByRequests (Reaching b later) fun _ => True where
  toKeptByLoads := keptByLoads_reaching hroot later
  weaken _ _ := trivial
  resolveWithin n i s hs h := h.resolveWithin n b later i s hroot hs
  popUnresolved {s} h := h.unnamed s.popUnresolved
  bindAnnotations := (keptByBinding_reaching b later).bindAnnotations fun _ _ => trivial

end Store

namespace Session

open Store

variable {s : Store}

/-- Between two requests no shape is open. -/
theorem reaching_step (hs : s.Coherent) (hroot : s.settings.root.isAbsolute)
    (h : Reaching s (fun _ => False) s) {r : Request} (hr : (step s r).1.IsServed) :
    Reaching s (fun _ => False) (step s r).2 := by
  have hwork := (keptByRequests_reaching hroot fun _ => False).work hs h r
  have houtcome := outcome_step s r
  generalize (step s r).1 = a at houtcome hr
  generalize (step s r).2 = t at houtcome ⊢
  cases houtcome with
  | written p text => exact h.unnamed { s with files := s.files.write p text }
  | served hw _ => exact hwork.of_ok hw
  | stopped _ refused | undone _ refused => exact absurd hr refused

/-- The run lemma: with no shape open between the requests, all that is named is resolved. -/
theorem reaching_run (rs : List Request) : ∀ {s : Store}, s.Coherent → s.settings.root.isAbsolute →
    Reaching s (fun _ => False) s → AllServed s rs → Reaching (run s rs) (fun _ => False) (run s rs) := by
  induction rs with
  | nil => exact fun _ _ h _ => h
  | cons r rest ih =>
    intro s hs hroot h hall
    have hstep := reaching_step hs hroot h hall.1
    exact ih (keeps_step hs r).coherent (hstep.settings_eq ▸ hroot) hstep.restart hall.2

/-- As long as all requests of a session are served, each name in the type expression of a resolved
shape, under any nesting of its operators, denotes a shape that is resolved as well. -/
theorem names_resolved (settings : LoadSettings) (files : Files) (hroot : settings.root.isAbsolute)
    (rs : List Request) (hserved : AllServed (.empty settings files) rs) :
    let t := run (.empty settings files) rs
    ∀ i c, t.HasResolved i c → ∀ library name, c.Mentions library name →
      ∃ j d, t.denoted? c.location library name = some j ∧ t.HasResolved j d := by
  intro t i c hc library name hm
  have hempty : Reaching (.empty settings files) (fun _ => False) (.empty settings files) :=
    ⟨(filed_empty settings files).filing (.refl _) rfl rfl, fun _ _ h => nomatch h⟩
  have hstart := coherent_empty settings files
  have hreaching := reaching_run rs hstart hroot hempty hserved
  have hprogress : t.inProgress = [] := (coherent_run rs hstart).1.inProgress
  rcases hreaching.shapes i c hc.1 with ⟨text, facets, hbody⟩ | hreaches
  · have hunknown : c.isUnknown := by
      rw [Shape.isUnknown, hbody]
      rfl
    cases hunknown.symm.trans hc.2
  · obtain ⟨j, hj, ⟨d, hd⟩ | hopen | hlater⟩ := hreaches library name hm
    · exact ⟨j, d, hj, hd⟩
    · exact absurd (hprogress ▸ hopen) List.not_mem_nil
    · exact hlater.elim

/-- While `B` is being resolved `C` is written, which names `B` and `A` inside. -/
theorem names_resolved_of_circle :
    let p : Path := ⟨"/lib.raml"⟩
    let text := "#%RAML 1.0 Library\ntypes:\n  B: C\n  C: (A[] | B[])?\n  A: B[]\n"
    let settings : LoadSettings := ⟨⟨"/"⟩, false, false⟩
    let start : Store := .empty settings (.memory [(p, text)])
    let rs : List Request := [.parse p, .resolveNamed p "B"]
    let t := run start rs
    settings.root.isAbsolute ∧ AllServed start rs ∧
      ∃ c, t.HasResolved 1 c ∧ c.Mentions none "A" ∧
        ∃ j d, t.denoted? c.location none "A" = some j ∧ t.HasResolved j d := by
  intro p text settings start rs t
  have hroot : settings.root.isAbsolute := by decide
  have hrun : AllServed start rs ∧ t.shapes[1]?.any fun c =>
      !c.isUnknown && c.link == none && c.declaration == some "(A[] | B[])?" := by decide +kernel
  obtain ⟨c, hc, hall⟩ := (Option.any_eq_true _ _).1 hrun.2
  simp only [Bool.and_eq_true, beq_iff_eq, Bool.not_eq_true'] at hall
  obtain ⟨⟨hresolved, hlink⟩, hdeclaration⟩ := hall
  have hparse : Expr.parse "(A[] | B[])?" = .ok (.optional
      (.union [.array (.ref none "A"), .array (.ref none "B")])) := rfl
  have hmentions : c.Mentions none "A" :=
    ⟨hlink, _, _, hdeclaration, hparse, .optional (.union List.mem_cons_self (.array .ref))⟩
  exact ⟨hroot, hrun.1, c, ⟨hc, hresolved⟩, hmentions,
    names_resolved settings (.memory [(p, text)]) hroot rs hrun.1 1 c ⟨hc, hresolved⟩ none "A" hmentions⟩

end Session

end RamlTypes
