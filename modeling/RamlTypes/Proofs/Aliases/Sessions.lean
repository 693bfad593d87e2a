import Mathlib.Data.List.Induction
import RamlTypes.Proofs.Aliases.Loads
import RamlTypes.Proofs.Lifecycle.States
import RamlTypes.Proofs.Preservation.Indexes

/-!
# Every alias stands for a cached file

After loads and parses, however they end, the file behind each alias of a cached fragment is cached
too. It is a library, unless the alias was read while the file behind it was being read
(`Session.alias_cached`).
-/

namespace RamlTypes

namespace Store

variable {b s : Store}

/-- Between two requests nothing is being read, and nothing has been cached yet. -/
theorem Coherent.linking (h : s.Coherent) : Linking s [] s where
  settings_eq := rfl
  loading := h.loading
  older := List.prefix_rfl
  uncached := List.forall_mem_nil _
  cached _ _ hf hk := absurd (Dict.has_iff.2 ⟨_, hf⟩) hk
  drafted _ _ hd := absurd (List.suffix_nil.1 hd) (List.cons_ne_nil _ _)

/-- Taking back a load leaves the fragments that were cached before. -/
theorem KeepsFragments.rollback (h : b.KeepsFragments s) : b.KeepsFragments (s.rollback b) := by
  obtain ⟨more, hmore⟩ := h
  have hold : b.fragments.filter (fun e => (Dict.keys b.fragments).contains e.1) = b.fragments :=
    List.filter_eq_self.2 fun e he => List.contains_iff_mem.2 (List.mem_map_of_mem he)
  show b.fragments <+: keepKnown _ s.fragments
  rw [← hmore, keepKnown, List.filter_append, hold]
  exact List.prefix_append _ _

theorem KeepsFragments.linking_rollback (h : b.KeepsFragments s) (hb : b.Coherent)
    (hgrows : b.Grows s) : Linking b [] (s.rollback b) where
  settings_eq := hgrows.settings
  loading := List.subset_nil.1 (hb.loading ▸ hgrows.loading)
  older := h.rollback
  uncached := List.forall_mem_nil _
  cached k f hf hk := by
    have hf : Dict.find? k (keepKnown (Dict.keys b.fragments) s.fragments) = some f := hf
    rw [find?_keepKnown] at hf
    split at hf
    · next hmem => exact absurd (Dict.mem_keys.1 hmem) hk
    · cases hf
  drafted _ _ hd := absurd (List.suffix_nil.1 hd) (List.cons_ne_nil _ _)

end Store

namespace Session

open Store

variable {s : Store}

theorem linking_step (hs : s.Coherent) (hroot : s.settings.root.isAbsolute) {r : Request}
    (hr : r.IsUndone) : Linking s [] (step s r).2 := by
  have hruns : KeptByRuns (Linking s []) s.KeepsFragments :=
    Nesting.keptByRuns (N := (linkings s hroot).nesting) (i := []) rfl
      (fun _ _ h => { h with }) (fun _ _ h => { h with }) (fun _ h => h)
      (keptByBinding_linking s []) fun h => { h with }
  exact undone_step hruns.requests hs hs.linking (fun _ hgrows ht => ht.linking_rollback hs hgrows)
    (fun _ => { hs.linking with }) hr

/-- The file `k` was cached while the file `l` was being read: by the same request of the session, and
no later. -/
structure CachedWithin (start : Store) (rs : List Request) (k l : PathKey) : Prop where
  order : Cache.place (run start rs).fragments k ≤ Cache.place (run start rs).fragments l
  together : ∀ done left, rs = done ++ left →
    (Dict.has k (run start done).fragments ↔ Dict.has l (run start done).fragments)

/-- What is cached stays cached. -/
theorem has_of_run {start : Store} (hs : start.Coherent) (done left : List Request) {k : PathKey}
    (hk : Dict.has k (run start done).fragments) : Dict.has k (run start (done ++ left)).fragments := by
  rw [run_append, Dict.has, (sameIndexes_run left (coherent_run done hs).1).fragments k hk]
  exact hk

/-- The requests that come before the end of a list are the whole list, or come before its last
request. -/
theorem eq_or_append_eq_of_concat {rs done left : List Request} {r : Request}
    (h : rs ++ [r] = done ++ left) : done = rs ++ [r] ∨ ∃ left', rs = done ++ left' := by
  rcases List.eq_nil_or_concat left with rfl | ⟨left', r', rfl⟩
  · exact .inl (by rw [h, List.append_nil])
  · rw [List.concat_eq_append, ← List.append_assoc] at h
    exact .inr ⟨left', (List.append_inj' h rfl).1⟩

section
variable {start : Store} {rs : List Request} {r : Request} {k l : PathKey}

/-- Further requests leave two files together that are cached. -/
theorem CachedWithin.concat (h : CachedWithin start rs k l)
    (hkeeps : (run start rs).KeepsFragments (run start (rs ++ [r])))
    (hk : Dict.has k (run start rs).fragments) : CachedWithin start (rs ++ [r]) k l where
  order := Cache.place_le_extended hkeeps hk h.order
  together done left heq := by
    rcases eq_or_append_eq_of_concat heq with rfl | ⟨left', heq⟩
    · have hl := (h.together rs [] (List.append_nil rs).symm).1 hk
      exact iff_of_true (Dict.has_extended hkeeps hk) (Dict.has_extended hkeeps hl)
    · exact h.together done left' heq

/-- Two files that the last request has cached are together. -/
theorem cachedWithin_of_inside (hs : start.Coherent) (hk : ¬ Dict.has k (run start rs).fragments)
    (hk' : Dict.has k (run start (rs ++ [r])).fragments)
    (h : Cache.Inside (run start rs).fragments [] (run start (rs ++ [r])).fragments k l) :
    CachedWithin start (rs ++ [r]) k l where
  order := h.order
  together done left heq := by
    rcases eq_or_append_eq_of_concat heq with rfl | ⟨left', rfl⟩
    · exact iff_of_true hk' (h.present.resolve_right List.not_mem_nil)
    · exact iff_of_false (fun hm => hk (has_of_run hs done left' hm))
        fun hm => h.recent (has_of_run hs done left' hm)

end

theorem aliases_run {start : Store} (hs : start.Coherent) (hempty : start.fragments = [])
    (hroot : start.settings.root.isAbsolute) (rs : List Request) : (∀ r ∈ rs, r.IsUndone) →
    ∀ k f, Dict.find? k (run start rs).fragments = some f →
    ∀ name p, Dict.find? name f.uses = some p →
      Cache.HasLibrary (run start rs).fragments p.key ∨ CachedWithin start rs k p.key := by
  induction rs using List.reverseRecOn with
  | nil =>
    intro _ k f hf
    have hf : Dict.find? k start.fragments = some f := hf
    rw [hempty] at hf
    cases hf
  | append_singleton rs r ih =>
    intro hrs k f hf name p hp
    rw [List.forall_mem_append, List.forall_mem_singleton] at hrs
    obtain ⟨hcoherent, hsettings⟩ := coherent_run rs hs
    have hstep : Linking (run start rs) [] (run start (rs ++ [r])) := by
      rw [run_append]
      exact linking_step hcoherent (hsettings ▸ hroot) hrs.2
    by_cases hk : Dict.has k (run start rs).fragments
    · -- the fragment was cached before the last request
      rw [Dict.find?_extended hstep.older hk] at hf
      exact (ih hrs.1 k f hf name p hp).imp (·.extended hstep.older) (·.concat hstep.older hk)
    · refine (hstep.cached k f hf hk name p hp).imp_right fun hi => ?_
      exact cachedWithin_of_inside hs hk (Dict.has_iff.2 ⟨f, hf⟩) hi

/-- Whatever files are loaded, parsed and written, the file behind an alias of a cached fragment is
cached, too. It is a library if the file with the alias was cached by another request or after it: no
kind is checked where a file is used that is being read, so a data type is accepted there. -/
theorem alias_cached (settings : LoadSettings) (files : Files) (hroot : settings.root.isAbsolute)
    (rs : List Request) (hrs : ∀ r ∈ rs, r.IsUndone) {k : PathKey} {f : Fragment}
    (hf : Dict.find? k (run (.empty settings files) rs).fragments = some f)
    {name : String} {p : Path} (hp : Dict.find? name f.uses = some p) :
    ∃ g, Dict.find? p.key (run (.empty settings files) rs).fragments = some g ∧
      (g.kind = .library ∨ CachedWithin (.empty settings files) rs k p.key) := by
  rcases aliases_run (coherent_empty settings files) rfl hroot rs hrs k f hf name p hp with
    ⟨l, hl⟩ | hwithin
  · exact ⟨.library l, hl, .inl rfl⟩
  · have hk : Dict.has k (run (.empty settings files) rs).fragments := Dict.has_iff.2 ⟨f, hf⟩
    obtain ⟨g, hg⟩ := Dict.has_iff.1 ((hwithin.together rs [] (List.append_nil rs).symm).1 hk)
    exact ⟨g, hg, .inr hwithin⟩

/-- The library cannot be loaded first, since the file that it uses is a data type. Where the data type
is loaded, which uses the library, its file is being read when the alias of the library is, and both
are cached. -/
theorem alias_cached_of_circle :
    let d : Path := ⟨"/d.raml"⟩
    let l : Path := ⟨"/l.raml"⟩
    let files : Files := .memory [(d, "#%RAML 1.0 DataType\nuses:\n  l: l.raml\ntype: string\n"),
      (l, "#%RAML 1.0 Library\nuses:\n  d: d.raml\n")]
    let settings : LoadSettings := ⟨⟨"/"⟩, false, true⟩
    let start : Store := .empty settings files
    let rs : List Request := [.load l, .load d]
    (run start [.load l]).fragments = [] ∧
      ∃ f g, Dict.find? l.key (run start rs).fragments = some f ∧ Dict.find? "d" f.uses = some d ∧
        Dict.find? d.key (run start rs).fragments = some g ∧ g.kind = .dataType ∧
        CachedWithin start rs l.key d.key := by
  intro d l files settings start rs
  have hroot : settings.root.isAbsolute := by decide
  have hfails : (run start [.load l]).fragments.isEmpty := by decide +kernel
  have hlibrary : (Dict.find? l.key (run start rs).fragments).any fun f =>
      Dict.find? "d" f.uses == some d := by decide +kernel
  have hdataType : (Dict.find? d.key (run start rs).fragments).all fun g =>
      g.kind == .dataType := by decide +kernel
  obtain ⟨f, hf, huses⟩ := (Option.any_eq_true _ _).1 hlibrary
  have hundone : ∀ r ∈ rs, r.IsUndone :=
    List.forall_mem_cons.2 ⟨trivial, List.forall_mem_singleton.2 trivial⟩
  obtain ⟨g, hg, hkind⟩ : ∃ g, Dict.find? d.key (run start rs).fragments = some g ∧
      (g.kind = .library ∨ CachedWithin start rs l.key d.key) :=
    alias_cached settings files hroot rs hundone hf (beq_iff_eq.1 huses)
  rw [hg, Option.all_some, beq_iff_eq] at hdataType
  refine ⟨List.isEmpty_iff.1 hfails, f, g, hf, beq_iff_eq.1 huses, hg, hdataType, ?_⟩
  refine hkind.resolve_left fun h => ?_
  cases h.symm.trans hdataType

end Session

end RamlTypes
