import RamlTypes.Proofs.Nesting

/-!
# What aliases stand for

The library behind an alias is loaded when the alias is read, so it is cached by then, unless its file
is being read itself at that moment. Such a file is cached later than the one that uses it, and no
check of its kind is made for the alias. `Store.Linking` says this of the fragments that are cached
since a store `b`, and of those that are being read.
-/

namespace RamlTypes

/-- The fragments of a store in the order in which they were cached. -/
abbrev Cache := Dict PathKey Fragment

namespace Cache

/-- The file is cached as a library. -/
def HasLibrary (c : Cache) (k : PathKey) : Prop := ∃ l, Dict.find? k c = some (.library l)

/-- The place of a file in the order of caching. A file that is not cached comes after all that
are. -/
def place (c : Cache) (k : PathKey) : Nat := (Dict.keys c).idxOf k

/-- Since the cache was `old`, the file `k` was cached while the file `l` was being read. The files
`opened` are still being read. -/
structure Inside (old : Cache) (opened : List PathKey) (c : Cache) (k l : PathKey) : Prop where
  order : place c k ≤ place c l
  recent : ¬ Dict.has l old
  present : Dict.has l c ∨ l ∈ opened

variable {old c c' : Cache} {opened : List PathKey} {k l : PathKey} {f : Fragment}

theorem HasLibrary.extended (h : HasLibrary c k) (hc : c <+: c') : HasLibrary c' k := by
  obtain ⟨a, ha⟩ := h
  exact ⟨a, (Dict.find?_extended hc (Dict.has_iff.2 ⟨_, ha⟩)).trans ha⟩

/-- Files that are cached later do not change the order. -/
theorem place_le_extended (hc : c <+: c') (hk : Dict.has k c) (h : place c k ≤ place c l) :
    place c' k ≤ place c' l := by
  obtain ⟨more, rfl⟩ := hc
  have hmem : k ∈ Dict.keys c := Dict.mem_keys.2 hk
  have hkeys : Dict.keys (c ++ more) = Dict.keys c ++ Dict.keys more := List.map_append
  rw [place, place, hkeys, List.idxOf_append_of_mem hmem]
  by_cases hl : l ∈ Dict.keys c
  · rwa [List.idxOf_append_of_mem hl]
  · rw [List.idxOf_append_of_notMem hl]
    exact Nat.le_trans (Nat.le_of_lt (List.idxOf_lt_length_iff.2 hmem)) (Nat.le_add_right _ _)

theorem has_snoc (c : Cache) (k : PathKey) (f : Fragment) : Dict.has k (c ++ [(k, f)]) := by
  rw [Dict.has, Dict.find?_append, Dict.find?, if_pos rfl, Option.isSome_or]
  exact Bool.or_true _

/-- The file that is cached next is no longer being read. -/
theorem Inside.snoc {m : PathKey} (h : Inside old (m :: opened) c k l) (hk : Dict.has k c) :
    Inside old opened (c ++ [(m, f)]) k l where
  order := place_le_extended (List.prefix_append _ _) hk h.order
  recent := h.recent
  present := by
    rcases h.present with hl | hl
    · exact .inl (Dict.has_extended (List.prefix_append _ _) hl)
    · rcases List.mem_cons.1 hl with rfl | hl
      · exact .inl (has_snoc c l f)
      · exact .inr hl

/-- What is being read when a file is cached is cached later, unless it is that file. -/
theorem inside_snoc (hold : old <+: c) (hk : ¬ Dict.has k c) (hl : ¬ Dict.has l c)
    (hmem : l ∈ k :: opened) : Inside old opened (c ++ [(k, f)]) k l where
  order := by
    have hk' : k ∉ Dict.keys c := fun h => hk (Dict.mem_keys.1 h)
    have hl' : l ∉ Dict.keys c := fun h => hl (Dict.mem_keys.1 h)
    have hkeys : Dict.keys (c ++ [(k, f)]) = Dict.keys c ++ [k] := List.map_append
    rw [place, place, hkeys, List.idxOf_append_of_notMem hk', List.idxOf_append_of_notMem hl',
      List.idxOf_cons_self]
    exact Nat.add_le_add_left (Nat.zero_le _) _
  recent h := hl (Dict.has_extended hold h)
  present := by
    rcases List.mem_cons.1 hmem with rfl | hl
    · exact .inl (has_snoc c l f)
    · exact .inr hl

end Cache

namespace Store

open Cache (HasLibrary Inside)

/-- The fragments of `b` are cached, before all others. -/
abbrev KeepsFragments (b s : Store) : Prop := b.fragments <+: s.fragments

/-- The store while fragments are being read, with the aliases of each that are read so far. -/
structure Linking (b : Store) (drafts : List (PathKey × Dict String Path)) (s : Store) : Prop where
  settings_eq : s.settings = b.settings
  loading : s.loading = drafts.map (·.1)
  older : b.KeepsFragments s
  uncached : ∀ d ∈ drafts, ¬ Dict.has d.1 s.fragments
  cached : ∀ k f, Dict.find? k s.fragments = some f → ¬ Dict.has k b.fragments →
    ∀ name p, Dict.find? name f.uses = some p →
      HasLibrary s.fragments p.key ∨ Inside b.fragments (drafts.map (·.1)) s.fragments k p.key
  drafted : ∀ d rest, d :: rest <:+ drafts → ∀ name p, Dict.find? name d.2 = some p →
    HasLibrary s.fragments p.key ∨ p.key ∈ (d :: rest).map (·.1)

section
variable {b s : Store} {drafts : List (PathKey × Dict String Path)} {k : PathKey}
  {known : Dict String Path}

/-- An alias is read whose library is cached or whose file is being read. -/
theorem Linking.use {path p : Path} (name : String) (h : Linking b ((k, known) :: drafts) s)
    (hp : HasLibrary s.fragments p.key ∨ p.key ∈ s.loading) :
    Linking b ((k, Dict.put name p known) :: drafts) (s.declareUse path name p) where
  settings_eq := h.settings_eq
  loading := h.loading
  older := h.older
  uncached := by
    have hall := h.uncached
    rw [List.forall_mem_cons] at hall ⊢
    exact hall
  cached := h.cached
  drafted d rest hd n q hq := by
    rcases List.suffix_cons_iff.1 hd with heq | hd
    · obtain ⟨rfl, rfl⟩ := List.cons.inj heq
      rw [Dict.find?_put] at hq
      split at hq
      · cases hq
        rwa [h.loading] at hp
      · exact h.drafted _ rest List.suffix_rfl n q hq
    · exact h.drafted d rest (List.suffix_cons_iff.2 (.inr hd)) n q hq

/-- The reading of a file begins. -/
theorem Linking.beginLoading {path : Path} (h : Linking b drafts s)
    (hp : ¬ Dict.has path.key s.fragments) :
    Linking b ((path.key, []) :: drafts) (s.beginLoading path) where
  settings_eq := h.settings_eq
  loading := congrArg (path.key :: ·) h.loading
  older := h.older
  uncached := List.forall_mem_cons.2 ⟨hp, h.uncached⟩
  cached k f hf hk name p hn := by
    refine (h.cached k f hf hk name p hn).imp_right fun hi => ?_
    exact ⟨hi.order, hi.recent, hi.present.imp_right (List.mem_cons_of_mem _)⟩
  drafted d rest hd n q hq := by
    rcases List.suffix_cons_iff.1 hd with heq | hd
    · obtain ⟨rfl, rfl⟩ := List.cons.inj heq
      cases hq
    · exact h.drafted d rest hd n q hq

/-- The fragment of a file is cached when it is read. -/
theorem Linking.cacheFragment {f : Fragment} (h : Linking b ((f.location.key, f.uses) :: drafts) s)
    (hp : f.location.key ∉ drafts.map (·.1)) :
    Linking b drafts ((s.endLoading f.location).cacheFragment f) := by
  have hnew : ¬ Dict.has f.location.key s.fragments := h.uncached _ List.mem_cons_self
  have hfragments : ((s.endLoading f.location).cacheFragment f).fragments =
      s.fragments ++ [(f.location.key, f)] := Dict.putNew_of_not_has hnew
  have hprefix : s.fragments <+: s.fragments ++ [(f.location.key, f)] := List.prefix_append _ _
  refine
    { settings_eq := h.settings_eq
      loading := ?_
      older := h.older.trans (hfragments ▸ hprefix)
      uncached := fun d hd => ?_
      cached := fun k g hg hk name p hn => ?_
      drafted := fun d rest hd name p hn => ?_ }
  · exact loading_endLoading h.loading hp
  · have hne : f.location.key ≠ d.1 := fun heq => hp (heq ▸ List.mem_map_of_mem hd)
    rw [hfragments, Dict.has, Dict.find?_append, Dict.find?, if_neg hne, Dict.find?_nil,
      Option.or_none]
    exact h.uncached d (List.mem_cons_of_mem _ hd)
  · rw [hfragments, Dict.find?_append, Option.or_eq_some_iff] at hg
    rw [hfragments]
    rcases hg with hg | ⟨-, hg⟩
    · exact (h.cached k g hg hk name p hn).imp (·.extended hprefix)
        (·.snoc (Dict.has_iff.2 ⟨g, hg⟩))
    · rw [Dict.find?] at hg
      split at hg
      · next hkey =>
        cases hg
        subst hkey
        refine (h.drafted _ drafts List.suffix_rfl name p hn).imp (·.extended hprefix) fun hmem => ?_
        obtain ⟨d, hd, hkey⟩ := List.mem_map.1 hmem
        exact Cache.inside_snoc h.older hnew (hkey ▸ h.uncached d hd) hmem
      · cases hg
  · rw [hfragments]
    exact (h.drafted d rest (List.suffix_cons_iff.2 (.inr hd)) name p hn).imp_left
      (·.extended hprefix)

theorem keptByDeclaring_linking (b : Store) (drafts : List (PathKey × Dict String Path)) :
    KeptByDeclaring (Linking b drafts) where
  report _ _ h := { h with }
  addShape _ _ h := { h with }
  makeOptional _ h := { h with }

theorem keptByBinding_linking (b : Store) (drafts : List (PathKey × Dict String Path)) :
    KeptByBinding (Linking b drafts) where
  reportUnbound _ _ h := { h with }
  writeAnnotations _ _ _ h := { h with }
  markBound h := { h with }

end

end Store

end RamlTypes
