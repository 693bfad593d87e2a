import RamlTypes.Proofs.Preservation.Indexes
import RamlTypes.Proofs.Reads.Loads

/-!
# A session reads its files once

Within one request no file is read twice for the same purpose, and none that is cached. What is
cached stays, so as long as all requests are served each file was read exactly as often as it is
cached (`Session.sources_read_once`).
-/

namespace RamlTypes

namespace Store

variable {b s t : Store}

/-- The requests of a session read each file once. -/
theorem keptByRuns_reading (hroot : b.settings.root.isAbsolute) :
    KeptByRuns (b.Reading []) b.Tallies :=
  Nesting.keptByRuns (N := b.readings hroot) (i := []) rfl
    (fun _ _ h => { h with }) (fun _ _ h => { h with }) (fun _ ⟨more, h⟩ => ⟨more, { h with }⟩)
    (keptByBinding_reading b []) fun h => { h with }

/-- Between two requests no fragment is being read. -/
theorem Coherent.reading (h : s.Coherent) : s.Reading [] s := ⟨.refl s, h.loading⟩

/-- Each file was read as often as it is cached. -/
def ReadAsCached (s : Store) : Prop :=
  ∀ u k, s.timesRead u k = if s.isCached u k then 1 else 0

theorem readAsCached_empty (settings : LoadSettings) (files : Files) :
    (empty settings files).ReadAsCached := by
  intro u k
  cases u <;> rfl

theorem ReadAsCached.tallied (hs : s.ReadAsCached) (h : s.Tallied [] t) : t.ReadAsCached := by
  intro u k
  rw [h.count, hs]
  by_cases hc : s.isCached u k
  · simp [hc, h.cached u k hc]
  · simp [hc]

end Store

namespace Session

open Store

variable {s : Store}

section
variable (hs : s.Coherent) (hroot : s.settings.root.isAbsolute)
include hs hroot

/-- A request reads a file at most once for each purpose, and only if the file is not cached. -/
theorem readOnce_step (r : Request) : s.ReadOnce (step s r).2 := by
  have hwork := (keptByRuns_reading hroot).requests.work hs hs.reading r
  have houtcome := outcome_step s r
  generalize (step s r).1 = a at houtcome
  generalize (step s r).2 = t at houtcome ⊢
  cases houtcome with
  | written p text => exact .refl s
  | served hr _ => exact (hwork.of_ok hr).readOnce
  | stopped hr _ => exact (hwork.of_error hr).readOnce
  | undone hr _ =>
    -- taking a load back leaves the counts as they are
    have hread := (hwork.of_error hr).readOnce
    exact hread

/-- A request that is served has cached what it has read. -/
theorem tallied_step {r : Request} (hserved : (step s r).1.IsServed) :
    s.Tallied [] (step s r).2 := by
  have hwork := (keptByRuns_reading hroot).requests.work hs hs.reading r
  have houtcome := outcome_step s r
  generalize (step s r).1 = a at houtcome hserved
  generalize (step s r).2 = t at houtcome ⊢
  cases houtcome with
  | written p text => exact { Tallied.refl s with }
  | served hr _ => exact (hwork.of_ok hr).toTallied
  | stopped _ hrefused => exact absurd hserved hrefused
  | undone _ hrefused => exact absurd hserved hrefused

end

theorem readAsCached_run (rs : List Request) : ∀ {s : Store}, s.Coherent →
    s.settings.root.isAbsolute → s.ReadAsCached → AllServed s rs → (run s rs).ReadAsCached := by
  induction rs with
  | nil => exact fun _ _ h _ => h
  | cons r rest ih =>
    intro s hs hroot h hserved
    have hkeeps := keeps_step hs r
    exact ih hkeeps.coherent (hkeeps.settings ▸ hroot)
      (h.tallied (tallied_step hs hroot hserved.1)) hserved.2

/-- The cached fragment of a path is the one that every request for it yields. -/
structure Provides (s : Store) (p : Path) (f : Fragment) : Prop where
  cached : s.fragment? p = some f
  parse : step s (.parse p) = (.fragment f, s)
  library : ∀ l, f = .library l → step s (.library p) = (.fragment f, s)
  dataType : ∀ d, f = .dataType d → step s (.dataType p) = (.fragment f, s)
  load : ∀ g t, step s (.load p) = (.fragment g, t) → g = f

theorem provides_of_cached {p : Path} {f : Fragment} (h : s.fragment? p = some f) :
    Provides s p f := by
  have hfragment : Load.fragment p s = (.ok f, s) := by
    rw [Load.fragment, Load.withLoaders, Load.ask_bind, Fragment.fragmentWith,
      Fragment.fromCache_apply, ← fragment?, h]
    rfl
  have hcache {α : Type} (hit : Path → Fragment → Load α) (miss : Path → Load α) :
      Fragment.fromCache p hit miss s = hit (s.normalize p) f s := by
    rw [Fragment.fromCache_apply, ← fragment?, h]
  refine ⟨h, ?_, ?_, ?_, fun g t hload => ?_⟩
  · rw [step, perform, Load.parse, Load.orRollback, hfragment]
  · rintro l rfl
    have hlibrary : Load.library p s = (.ok l, s) := by
      rw [Load.library, Load.withLoaders, Load.ask_bind, Fragment.libraryWith, hcache]
      rfl
    rw [step, perform, hlibrary]
  · rintro d rfl
    have hdataType : Load.dataType p s = (.ok d, s) := by
      rw [Load.dataType, Load.withLoaders, Load.ask_bind, Fragment.dataTypeWith, hcache]
      rfl
    rw [step, perform, hdataType]
  · rw [step, perform, Load.load, Load.orRollback, Load.bind_of_ok hfragment, Load.bind_apply] at hload
    rcases hr : Load.resolveIfEager s with ⟨e | u, s'⟩
    · rw [hr] at hload
      cases e <;> cases congrArg Prod.fst hload
    · rw [hr] at hload
      cases hload
      rfl

/-- However the requests of a session end, each of them reads a file at most once for each purpose
and only if it is not cached for it. A cached fragment stays the one that is found under every
spelling of its path. While all requests are served, each file was read as often as it is cached. -/
theorem sources_read_once (settings : LoadSettings) (files : Files)
    (hroot : settings.root.isAbsolute) (before : List Request) :
    let s := run (.empty settings files) before
    (∀ r, s.ReadOnce (step s r).2) ∧
    (∀ p f, s.fragment? p = some f → ∀ after q, (s.normalize q).key = (s.normalize p).key →
      Provides (run s after) q f) ∧
    (AllServed (.empty settings files) before → ∀ p, s.readCount p =
      (if s.isCached .fragment p.key then 1 else 0) +
        if s.isCached .exampleFile p.key then 1 else 0) := by
  intro s
  have hempty := coherent_empty settings files
  obtain ⟨hs, hsettings⟩ := coherent_run before hempty
  have hroot' : s.settings.root.isAbsolute := by rwa [hsettings]
  refine ⟨readOnce_step hs hroot', fun p f hf after q hq => ?_, fun hserved p => ?_⟩
  · apply provides_of_cached
    have hsame := (sameIndexes_run after hs).fragments _ (Dict.has_iff.2 ⟨f, hf⟩)
    have hnormal : (run s after).normalize q = s.normalize q := by
      rw [Store.normalize, Store.normalize, (coherent_run after hs).2]
    rw [fragment?, hnormal, hq]
    exact hsame.trans hf
  · have hcached := readAsCached_run before hempty hroot (readAsCached_empty settings files) hserved
    rw [readCount_eq, hcached, hcached]

/-- A library that is used and then asked for, with an example in a file of its own. It is found under
another spelling of its path, whatever is requested then. -/
theorem sources_read_once_of_used :
    let lib : Path := ⟨"/lib.raml"⟩
    let note : Path := ⟨"/note.txt"⟩
    let files : Files := .memory [(⟨"/a.raml"⟩, "#%RAML 1.0 Library\nuses:\n  l: lib.raml\n"),
      (lib, "#%RAML 1.0 Library\ntypes:\n  T:\n    example: !include note.txt\n"), (note, "hello")]
    let settings : LoadSettings := ⟨⟨"/"⟩, false, true⟩
    let before : List Request := [.load ⟨"/a.raml"⟩, .library lib]
    let s := run (.empty settings files) before
    settings.root.isAbsolute ∧ AllServed (.empty settings files) before ∧ s.readCount lib = 1 ∧
      s.readCount note = 1 ∧ (∀ r, s.ReadOnce (step s r).2) ∧
      ∃ f, s.fragment? lib = some f ∧ ∀ after, Provides (run s after) ⟨"/x/../lib.raml"⟩ f := by
  intro lib note files settings before s
  have hrun : AllServed (.empty settings files) before ∧
      s.isCached .fragment lib.key ∧ ¬ s.isCached .exampleFile lib.key ∧
      ¬ s.isCached .fragment note.key ∧ s.isCached .exampleFile note.key ∧
      (s.normalize ⟨"/x/../lib.raml"⟩).key = (s.normalize lib).key ∧
      (s.fragment? lib).isSome := by decide +kernel
  obtain ⟨hserved, hlib, hlib', hnote, hnote', hspelling, hfound⟩ := hrun
  obtain ⟨f, hf⟩ := Option.isSome_iff_exists.1 hfound
  have hroot : settings.root.isAbsolute := by decide
  obtain ⟨hread, hcached, hcount⟩ := sources_read_once settings files hroot before
  refine ⟨hroot, hserved, ?_, ?_, hread, f, hf, fun after => hcached lib f hf after _ hspelling⟩
  · rw [hcount hserved, if_pos hlib, if_neg hlib']
  · rw [hcount hserved, if_neg hnote, if_pos hnote']

end Session

end RamlTypes
