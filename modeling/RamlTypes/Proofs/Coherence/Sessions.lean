import RamlTypes.Proofs.ClosedWorld.Reach
import RamlTypes.Proofs.Coherence.Runs

/-!
# What a session can rely on

The store of a session is coherent whatever requests were made of it (`Session.coherent_run`), and a
shape fails only by a request that is not served. So a load of an eager session that succeeds leaves
none of the shapes unresolved that its fragment declares, unless a request before it has failed on
it (`Session.concrete_of_load`).
-/

namespace RamlTypes

open Store

/-- The answer is no fault. -/
def Answer.IsServed : Answer → Prop
  | fault _ | exhausted => False
  | _ => True

instance : DecidablePred Answer.IsServed
  | .fault _ | .exhausted => .isFalse id
  | .fragment _ | .shape _ | .done => .isTrue trivial

namespace Session

variable {s : Store}

/-- All requests of a list are served. -/
def AllServed : Store → List Request → Prop
  | _, [] => True
  | s, r :: rest => (step s r).1.IsServed ∧ AllServed (step s r).2 rest

instance decidableAllServed : ∀ (s : Store) (rs : List Request), Decidable (AllServed s rs)
  | _, [] => .isTrue trivial
  | s, r :: rest =>
    have := decidableAllServed (step s r).2 rest
    inferInstanceAs (Decidable (_ ∧ _))

/-- Only an action with a value is answered by no fault. -/
theorem ok_of_perform {α : Type} {x : Store → Except Stop α × Store} {answer : α → Answer}
    (h : (perform x answer s).1.IsServed) : ∃ a, (x s).1 = .ok a := by
  rw [perform] at h
  generalize x s = r at h ⊢
  rcases r with ⟨e | a, t⟩
  · cases e <;> exact False.elim h
  · exact ⟨a, rfl⟩

/-- What is known of the store after a request. -/
structure Keeps (s : Store) (r : Request) : Prop where
  coherent : (step s r).2.Coherent
  settings : (step s r).2.settings = s.settings
  failed : (step s r).1.IsServed → (step s r).2.failed = s.failed

theorem keeps_of_serves {α : Type} {r : Request} {x : Store → Except Stop α × Store}
    {answer : α → Answer} (hr : step s r = perform x answer s) (h : s.Serves (x s)) : Keeps s r := by
  have hstore : (step s r).2 = (x s).2 := by rw [hr, perform_snd]
  refine ⟨hstore ▸ h.coherent, hstore ▸ h.settings, fun hs => ?_⟩
  rw [hr] at hs
  obtain ⟨a, ha⟩ := ok_of_perform hs
  rw [hstore]
  exact h.failed a ha

section
variable (h : s.Coherent)
include h

/-- What a session has loaded may lie in any file. -/
abbrev Goes (s : Store) {α : Type} (x : Load α) : Prop :=
  x.EndsIn s (fun _ t => ∃ w, s.Underway (fun _ => True) .declaring w t)
    fun t => ∃ w, s.Since (fun _ => True) .declaring w t

/-- A request goes on as long as its run obeys the laws of comparison. -/
theorem goes_of_agree {α : Type} {x : Load α} {Q : Extent s → α → α → Prop}
    (hx : (s.since (fun _ => True) .declaring).Agree (.start s) x x Q) : Goes s x := by
  refine ((h.underway s.mentions_true).endsIn hx).imp ?_ fun _ ht => ht
  rintro _ t ⟨w, -, ht, -⟩
  exact ⟨w, ht⟩

theorem goes_resolve (id : ShapeId) : Goes s (Load.resolve id) := by
  refine ((h.underway s.mentions_true).resolve id).imp ?_ fun _ ht => ht
  rintro _ t ⟨w, -, ht⟩
  exact ⟨w, ht⟩

theorem goes_resolveNamed (p : Path) (name : String) : Goes s (Load.resolveNamed p name) := by
  refine .ask (.ask ?_)
  split
  · exact .stop ⟨_, (h.underway s.mentions_true).toSince⟩
  · next id _ => exact (goes_resolve h id).bind fun _ _ ht => .pure ht

theorem goes_resolveAll : Goes s Load.resolveAll := by
  refine ((h.underway s.mentions_true).resolveAll h.inProgress).imp ?_ fun _ ht => ht
  rintro _ t ⟨w, -, ht⟩
  exact ⟨w, { ht with toSince := ht.toSince.declaring_of_binding }⟩

/-- After each request the store is coherent. -/
theorem keeps_step (r : Request) : Keeps s r := by
  have hphase : Phase.declaring ≠ .binding := nofun
  have hloads : (s.since (fun _ => True) .declaring).Loads _ := since_loads hphase
  cases r with
  | load p =>
    refine keeps_of_serves rfl (h.serves_orRollback ((h.load s.mentions_true p).imp ?_ fun _ ht => ht))
    rintro _ t ⟨w, ht, -⟩
    exact ⟨w, ht⟩
  | parse p =>
    exact keeps_of_serves rfl (h.serves_orRollback (goes_of_agree h (hloads.fragment _ p)))
  | library p =>
    have hlibrary := hloads.withLoaders (.start s) fun _ hl => hloads.libraryWith hl _ p
    exact keeps_of_serves rfl (h.serves (goes_of_agree h hlibrary))
  | dataType p => exact keeps_of_serves rfl (h.serves (goes_of_agree h (hloads.dataType _ p)))
  | resolve id => exact keeps_of_serves rfl (h.serves (goes_resolve h id))
  | resolveNamed p name => exact keeps_of_serves rfl (h.serves (goes_resolveNamed h p name))
  | resolveAll => exact keeps_of_serves rfl (h.serves (goes_resolveAll h))
  | declare p name node =>
    have hdeclare := hloads.declare (since_declares hphase p) (.start s) (.inl trivial) name node
    exact keeps_of_serves rfl (h.serves (goes_of_agree h hdeclare))
  | write p text => exact ⟨{ h with }, rfl, fun _ => rfl⟩

end

/-- The store of a session is coherent. -/
theorem coherent_run (rs : List Request) : ∀ {s : Store}, s.Coherent →
    (run s rs).Coherent ∧ (run s rs).settings = s.settings := by
  induction rs with
  | nil => exact fun h => ⟨h, rfl⟩
  | cons r rest ih =>
    intro s h
    have hkeeps := keeps_step h r
    obtain ⟨hcoherent, hsettings⟩ := ih hkeeps.coherent
    exact ⟨hcoherent, hsettings.trans hkeeps.settings⟩

/-- Requests that are served let no shape fail. -/
theorem failed_run (rs : List Request) : ∀ {s : Store}, s.Coherent → AllServed s rs →
    (run s rs).failed = s.failed := by
  induction rs with
  | nil => exact fun _ _ => rfl
  | cons r rest ih =>
    intro s h hserved
    have hkeeps := keeps_step h r
    exact (ih hkeeps.coherent hserved.2).trans (hkeeps.failed hserved.1)

/-! ## What a successful load has resolved -/

/-- What a fragment declares exists. -/
theorem lt_of_mem_declared {n : Nat} {f : Fragment} (h : f.IsBelow n) {i : ShapeId}
    (hi : i ∈ f.declared) : i < n := by
  cases h with
  | library h =>
    rcases List.mem_append.1 hi with hi | hi
    · exact (h.types.mem_values hi).2
    · exact (h.annotationTypes.mem_values hi).2
  | dataType h =>
    obtain rfl := List.mem_singleton.1 hi
    exact h.shape.2

/-- After any requests of an eager session, a load that succeeds has resolved what its fragment
declares, except for the shapes that had failed before. Then there was a request that was not
served. -/
theorem concrete_of_load (settings : LoadSettings) (files : Files) (he : settings.eagerResolution)
    (rs : List Request) (p : Path) (f : Fragment) (s' : Store) :
    let s := run (.empty settings files) rs
    Load.load p s = (.ok f, s') → ∀ i ∈ f.declared, ∃ a, s'.shapes[i]? = some a ∧
      (a.kind ≠ .unknown ∨ i ∈ s.failed ∧ ¬ AllServed (.empty settings files) rs) := by
  intro s hload i hi
  have hempty := coherent_empty settings files
  obtain ⟨hs, hsettings⟩ := coherent_run rs hempty
  have hends := hs.load s.mentions_true p
  have hrun : (do let f ← Load.fragment p; Load.resolveIfEager; return f : Load Fragment) s =
      (.ok f, s') := by
    rw [Load.load, Load.orRollback] at hload
    split at hload
    · cases hload
    · exact hload
  obtain ⟨w, ht, hf, hquiet⟩ := hends.of_ok hrun
  have hlt : i < s'.shapes.size := ht.size ▸ lt_of_mem_declared hf hi
  refine ⟨_, Array.getElem?_eq_getElem hlt, ?_⟩
  by_cases hu : (s'.shapes[i]).isUnknown
  · have hqueue : s'.unresolved = [] := hquiet (hsettings ▸ he)
    have hwait := ht.waiting i _ (Array.getElem?_eq_getElem hlt) hu
    have hfailed : i ∈ s.failed := by
      rcases hwait with hfail | hq | hp
      · exact ht.failed ▸ hfail
      · rw [hqueue] at hq
        cases hq
      · cases hp
    refine .inr ⟨hfailed, fun hserved => ?_⟩
    rw [failed_run rs hempty hserved] at hfailed
    cases hfailed
  · exact .inl (Shape.isUnknown_eq_false_iff.1 (Bool.eq_false_iff.2 hu))

/-- A load of a library that was parsed before. -/
theorem concrete_of_load_parsed :
    let settings : LoadSettings := ⟨⟨"/"⟩, false, true⟩
    let p : Path := ⟨"/pets.raml"⟩
    let files : Files := .memory [(p, "#%RAML 1.0 Library\ntypes:\n  Pets: Pet[]\n  Pet: string\n")]
    let s := run (.empty settings files) [.parse p]
    ∃ f s', Load.load p s = (.ok f, s') ∧ ∀ i ∈ f.declared, ∃ a, s'.shapes[i]? = some a ∧
      (a.kind ≠ .unknown ∨ i ∈ s.failed ∧ ¬ AllServed (.empty settings files) [.parse p]) := by
  intro settings p files s
  have hok : (Load.load p s).1.isOk = true := by decide +kernel
  rcases hload : Load.load p s with ⟨e | f, s'⟩
  · rw [hload] at hok
    cases hok
  · exact ⟨f, s', rfl, concrete_of_load settings files rfl [.parse p] p f s' hload⟩

/-- A type whose resolution failed stays unresolved, and the file that declares it can be loaded
nevertheless: the fragment is cached, and what has failed is not resolved again. -/
theorem load_unresolved_of_failed :
    let p : Path := ⟨"/a.raml"⟩
    let files : Files := .memory [(p, "#%RAML 1.0 Library\ntypes:\n  Foo: Missing\n")]
    let s := run (.empty ⟨⟨"/"⟩, false, true⟩ files) [.parse p, .resolveNamed p "Foo"]
    ∃ f s', Load.load p s = (.ok f, s') ∧
      ∃ i ∈ f.declared, ∃ a, s'.shapes[i]? = some a ∧ a.kind = .unknown := by
  intro p files s
  have hunknown : ((Load.load p s).1.toOption.any fun f => f.declared.any fun i =>
      (Load.load p s).2.shapes[i]?.any fun a => a.kind == .unknown) = true := by decide +kernel
  rcases hload : Load.load p s with ⟨e | f, s'⟩
  · rw [hload] at hunknown
    cases hunknown
  · rw [hload] at hunknown
    obtain ⟨i, hi, ha⟩ := List.any_eq_true.1 hunknown
    obtain ⟨a, ha, hk⟩ := (Option.any_eq_true _ _).1 ha
    exact ⟨f, s', rfl, i, hi, a, ha, by simpa using hk⟩

end Session

end RamlTypes
