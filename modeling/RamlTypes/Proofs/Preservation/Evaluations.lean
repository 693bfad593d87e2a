import RamlTypes.Proofs.Preservation.Requests

/-!
# What evaluations find

What runs keep holds wherever an evaluation of a request begins
(`Store.KeptByRuns.starts`).
-/

namespace RamlTypes

open Store

/-- A call that makes another one evaluates the declaration of its shape. -/
theorem Call.Makes.exists_claimed {c c' : Call} (h : c.Makes c') :
    ∃ a p, c.store.claim c.id = .ok (some (a, p)) := by
  cases h with
  | dependency claimed _ => exact ⟨_, _, claimed⟩
  | nested evaluated _ _ =>
    rw [Load.resolving_apply] at evaluated
    split at evaluated
    · cases evaluated
    · rw [Prod.mk.injEq, Except.ok.injEq] at evaluated
      exact absurd evaluated.1 (by simp)
    · next a p hclaim => exact ⟨a, p, hclaim⟩

/-- A call that leads to a call for a shape that exists is made for one that exists. -/
theorem Call.id_lt_of_makes {c d : Call} (h : Relation.ReflTransGen Call.Makes c d)
    (hd : d.id < d.store.shapes.size) : c.id < c.store.shapes.size := by
  rcases Relation.ReflTransGen.cases_head h with rfl | ⟨d', hm, -⟩
  · exact hd
  · obtain ⟨a, p, hclaim⟩ := hm.exists_claimed
    exact (Array.getElem?_eq_some_iff.1 (waits_of_claim hclaim).1).1

/-- A call with an evaluation below it is made for a shape that exists. -/
theorem Evaluation.Below.id_lt {e : Evaluation} {c : Call} (h : e.Below c) :
    c.id < c.store.shapes.size :=
  Call.id_lt_of_makes h (Array.getElem?_eq_some_iff.1 (waits_of_claim e.claimed).1).1

namespace Store.KeptByRuns

variable {J E : Store → Prop} (h : KeptByRuns J E)
include h

/-- The calls that a call makes in a store with the property begin in such a store. -/
theorem makes {c c' : Call} (hs : c.store.Sound c.id) (hJ : J c.store) (hm : c.Makes c') :
    J c'.store := by
  have hresolve (n : Nat) (j : ShapeId) (u : Store) := h.resolveWithin n j u
  cases hm with
  | @dependency n i j s t a p hclaim hasks =>
    have hbegin := h.beginResolution i hJ
    have hr (k : ShapeId) (u : Store) (hk : Resolution.Asks (Load.resolveWithin n) a p
        (s.beginResolution i) k u) (hu : J u) : (Load.resolveWithin n k).EndsIn u (fun _ => J) E :=
      hresolve n k u (Sound.makes (c := ⟨n + 1, i, s⟩) hs (.dependency hclaim hk)) hu
    cases hasks with
    | reference _ _ _ => exact hbegin
    | link _ _ hloaded =>
      exact (keeps_of_agree ((h.evaluates a.owner).dataType () _ trivial trivial) hbegin).of_ok hloaded
    | parent hp hparents hbefore =>
      exact (Resolution.endsIn_each hr hp _ _ [] hparents rfl hbegin).of_ok hbefore
  | @nested n i j s t u before after heval hbefore _ =>
    have hmiddle := (h.resolving (hresolve n) hs hJ).of_ok heval
    have hends := KeptByResolving.resolveIdle (hresolve n) hs before (j :: after) [] heval rfl hmiddle
    exact hends.of_ok hbefore

/-- So do all calls below it. -/
theorem reaches {c d : Call} (hs : c.store.Sound c.id) (hJ : J c.store)
    (hd : Relation.ReflTransGen Call.Makes c d) : d.store.Sound d.id ∧ J d.store := by
  induction hd with
  | refl => exact ⟨hs, hJ⟩
  | tail _ hm ih => exact ⟨ih.1.makes hm, h.makes ih.1 ih.2 hm⟩

/-- So do the evaluations below it. -/
theorem below {c : Call} (hs : c.store.Sound c.id) (hJ : J c.store) {e : Evaluation}
    (he : e.Below c) : J e.start :=
  (h.reaches hs hJ he).2

variable {b s : Store} {known : PathKey → Prop}

theorem startsDrain {depth n : Nat} {c : Call} (hc : Call.StartsDrain (depth + 1) n s c) :
    ∀ {w : Extent b}, b.Underway known .declaring w s → s.inProgress = [] → J s →
    b.SoundFrom c.store c.id ∧ J c.store := by
  induction hc with
  | @first n s i rest hq hf =>
    intro w hs _ hJ
    exact ⟨⟨known, .resolving i, w, nofun, hs.popUnresolved hq, hs.queue i (hq ▸ List.mem_cons_self)⟩,
      h.popUnresolved hJ⟩
  | @later n s t i rest c hq hr hstarts ih =>
    intro w hs hidle hJ
    obtain ⟨⟨w', -, hw'⟩, hidle'⟩ := (hs.resolveFirst hidle hq depth).of_ok hr
    exact ih hw' hidle' ((h.requests.resolveFirst hs hq depth hJ).of_ok hr)

/-- The calls that a request begins for shapes that exist begin in stores with the property. -/
theorem startsCall (hs : s.Coherent) (hJ : J s) {r : Request} {c : Call} (hc : r.Starts s c)
    (hlt : c.id < c.store.shapes.size) : s.SoundFrom c.store c.id ∧ J c.store := by
  have hunderway := hs.underway s.mentions_true
  cases hc with
  | resolve i => exact ⟨⟨_, .declaring, .start s, nofun, hunderway, hlt⟩, hJ⟩
  | resolveNamed hnamed => exact ⟨⟨_, .declaring, .start s, nofun, hunderway, hlt⟩, hJ⟩
  | resolveAll hstarts => exact h.startsDrain hstarts hunderway hs.inProgress hJ
  | @load p f t c hloaded _ hstarts =>
    have hloads : (s.since (fun _ => True) .declaring).Loads _ := since_loads nofun
    obtain ⟨w, -, hw, -⟩ := (hunderway.endsIn (hloads.fragment (.start s) p)).of_ok hloaded
    have hidle := (Load.grows_of_apply hloaded).inProgress.trans hs.inProgress
    exact h.startsDrain hstarts hw hidle ((h.fragment p hJ).of_ok hloaded)

/-- The evaluations of a request begin in stores with the property. -/
theorem starts (hs : s.Coherent) (hJ : J s) {r : Request} {c : Call} (hc : r.Starts s c)
    {e : Evaluation} (he : e.Below c) : s.SoundFrom e.start e.id ∧ J e.start := by
  have hcall := h.startsCall hs hJ hc he.id_lt
  exact ⟨SoundFrom.below hcall.1 he, h.below ⟨s, hcall.1⟩ hcall.2 he⟩

end Store.KeptByRuns

/-- The calls that a request begins for shapes that exist are made while it is underway. -/
theorem Request.Starts.sound {s : Store} {r : Request} {c : Call} (h : r.Starts s c) (hs : s.Coherent)
    (hlt : c.id < c.store.shapes.size) : s.SoundFrom c.store c.id := by
  have htrue : KeptByRuns (fun _ => True) fun _ => True :=
    keptByLoading_true.keptByRuns (fun _ _ _ => trivial) (fun _ _ _ _ => trivial)
      (fun _ _ _ _ => trivial) fun _ => trivial
  exact (htrue.startsCall hs trivial h hlt).1

end RamlTypes
