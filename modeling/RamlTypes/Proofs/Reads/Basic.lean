import RamlTypes.Proofs.Relation.Invariant

/-!
# How often files are read

A store counts how often it asks for a file, as a fragment and as an example. While an action goes on
that began in the store `b`, the count of a file that was not cached in `b` is one greater than in `b`
if the file is cached by now, or is being read, and the other counts are as in `b`
(`Store.Tallied`). Where the action stops, there may be files whose reading has not ended
(`Store.Tallies`), so a count may be greater by one although the file was not cached
(`Store.ReadOnce`).
-/

namespace RamlTypes

/-- Only the key that is stored is new. -/
theorem Dict.has_putNew {κ α : Type} [DecidableEq κ] (k l : κ) (a : α) (d : Dict κ α) :
    has l (putNew k a d) ↔ has l d ∨ l = k := by
  rw [has, find?_putNew, Option.isSome_or, Bool.or_eq_true]
  refine or_congr Iff.rfl ?_
  split
  · next h => simp [h]
  · next h => simp [Ne.symm h]

/-- A read counts for its own purpose only. -/
theorem ReadCount.of_add (c : ReadCount) (u v : Purpose) :
    (c.add u).of v = c.of v + if v = u then 1 else 0 := by
  cases u <;> cases v <;> rfl

namespace Store

/-- How often a file was asked for, for one purpose. -/
def timesRead (s : Store) (u : Purpose) (k : PathKey) : Nat :=
  ((Dict.find? k s.reads).getD .zero).of u

/-- Whether a file is cached, for one purpose. -/
def isCached (s : Store) : Purpose → PathKey → Bool
  | .fragment, k => Dict.has k s.fragments
  | .exampleFile, k => Dict.has k s.examples

/-- What is cached stays cached. -/
theorem Grows.isCached {s t : Store} (h : s.Grows t) {u : Purpose} {k : PathKey}
    (hk : s.isCached u k) : t.isCached u k := by
  cases u with
  | fragment =>
    obtain ⟨f, hf⟩ := Dict.has_iff.1 hk
    exact Dict.has_iff.2 ⟨f, h.fragments k f hf⟩
  | exampleFile =>
    obtain ⟨e, he⟩ := Dict.has_iff.1 hk
    exact Dict.has_iff.2 ⟨e, h.examples k e he⟩

/-- The reads of a file are those for each of the two purposes. -/
theorem readCount_eq (s : Store) (p : Path) :
    s.readCount p = s.timesRead .fragment p.key + s.timesRead .exampleFile p.key := rfl

/-- Besides what was cached in `b`, the files that are cached in `s` were read, and those in
`opened`. -/
structure Tallied (b : Store) (opened : List (Purpose × PathKey)) (s : Store) : Prop where
  settings : s.settings = b.settings
  cached : ∀ u k, b.isCached u k → s.isCached u k
  count : ∀ u k, s.timesRead u k =
    b.timesRead u k + if ¬ b.isCached u k ∧ (s.isCached u k ∨ (u, k) ∈ opened) then 1 else 0

/-- The store `s` while the fragments of the files `opened` are being read. -/
structure Reading (b : Store) (opened : List PathKey) (s : Store) : Prop
    extends b.Tallied (opened.map (Purpose.fragment, ·)) s where
  loading : s.loading = opened

/-- Besides what was cached in `b`, the files that are cached in `s` were read, and perhaps others. -/
def Tallies (b s : Store) : Prop := ∃ opened, b.Tallied opened s

/-- Since `b`, no file was read that was cached for the purpose, and none was read twice. -/
def ReadOnce (b s : Store) : Prop :=
  ∀ u k, s.timesRead u k = b.timesRead u k ∨
    ¬ b.isCached u k ∧ s.timesRead u k = b.timesRead u k + 1

variable {b s t : Store} {opened : List (Purpose × PathKey)} {u : Purpose} {p : Path}

/-- No file has been opened yet. -/
theorem Tallied.refl (b : Store) : b.Tallied [] b where
  settings := rfl
  cached _ _ h := h
  count u k := by simp

/-- Files that are accounted for are read once. -/
theorem Tallied.readOnce (h : b.Tallied opened s) : b.ReadOnce s := by
  intro u k
  have hcount := h.count u k
  split at hcount
  · next hnew => exact .inr ⟨hnew.1, hcount⟩
  · exact .inl hcount

/-- Whatever files are open, the reads are accounted for. -/
theorem Tallied.tallies (h : b.Tallied opened s) : b.Tallies s := ⟨opened, h⟩

/-- Reads that are accounted for happen once. -/
theorem Tallies.readOnce (h : b.Tallies s) : b.ReadOnce s :=
  h.elim fun _ h => h.readOnce

/-- A file that is cached by now was read once more than in `b`, unless it was cached there. -/
theorem Tallies.lt_timesRead (h : b.Tallies s) {k : PathKey} (hs : s.isCached u k)
    (hb : ¬ b.isCached u k) : b.timesRead u k < s.timesRead u k := by
  obtain ⟨opened, h⟩ := h
  rw [h.count, if_pos ⟨hb, .inl hs⟩]
  exact Nat.lt_succ_self _

/-- No file has been read since. -/
theorem ReadOnce.refl (b : Store) : b.ReadOnce b := (Tallied.refl b).readOnce

/-- A request is counted once. -/
theorem timesRead_countRead (s : Store) (u v : Purpose) (p : Path) (k : PathKey) :
    (s.countRead u p).timesRead v k = s.timesRead v k + if (v, k) = (u, p.key) then 1 else 0 := by
  rw [timesRead, countRead, Dict.adjust, Dict.find?_put]
  by_cases hk : p.key = k
  · subst hk
    simp [ReadCount.of_add, timesRead]
  · simp [hk, Ne.symm hk, timesRead]

/-- A file is read that is not cached and is not being read. -/
theorem Tallied.countRead (h : b.Tallied opened s) (hc : ¬ s.isCached u p.key)
    (ho : (u, p.key) ∉ opened) : b.Tallied ((u, p.key) :: opened) (s.countRead u p) where
  settings := h.settings
  cached := h.cached
  count v k := by
    rw [timesRead_countRead, h.count]
    have hcached : (s.countRead u p).isCached v k = s.isCached v k := rfl
    rw [hcached]
    by_cases hk : (v, k) = (u, p.key)
    · obtain ⟨rfl, rfl⟩ := Prod.mk.inj hk
      have hb : ¬ b.isCached v p.key := fun hb => hc (h.cached _ _ hb)
      simp [hb, hc, ho]
    · simp [hk]

/-- A file that was read is cached. -/
theorem Tallied.cache {k : PathKey} (h : b.Tallied ((u, k) :: opened) s)
    (settings : t.settings = s.settings) (reads : t.reads = s.reads)
    (cached : ∀ v l, t.isCached v l ↔ s.isCached v l ∨ (v, l) = (u, k)) : b.Tallied opened t where
  settings := settings.trans h.settings
  cached v l hl := (cached v l).2 (.inl (h.cached v l hl))
  count v l := by
    have hreads : t.timesRead v l = s.timesRead v l := by rw [timesRead, reads, timesRead]
    simp only [hreads, h.count, List.mem_cons, cached, or_assoc]

/-- An opened example is closed when it is cached. -/
theorem Tallied.cacheExample (h : b.Tallied ((.exampleFile, p.key) :: opened) s) (e : ExampleFile) :
    b.Tallied opened (s.cacheExample p e) := by
  refine h.cache rfl rfl fun v l => ?_
  cases v with
  | fragment => simp [isCached, Store.cacheExample]
  | exampleFile =>
    rw [isCached, Store.cacheExample, Dict.has_putNew, isCached]
    simp

/-- So is an opened file with its fragment. -/
theorem Tallied.cacheFragment {f : Fragment}
    (h : b.Tallied ((.fragment, f.location.key) :: opened) s) :
    b.Tallied opened (s.cacheFragment f) := by
  refine h.cache rfl rfl fun v l => ?_
  cases v with
  | fragment =>
    rw [isCached, Store.cacheFragment, Dict.has_putNew, isCached]
    simp
  | exampleFile => simp [isCached, Store.cacheFragment]

/-- The other changes that are made while a file is read have nothing to do with the counts. -/
theorem keptByReading_reading (b : Store) (opened : List PathKey) :
    KeptByReading (b.Reading opened) where
  report _ _ h := { h with }
  reportUnbound _ _ h := { h with }
  addShape _ _ h := { h with }
  makeOptional _ h := { h with }
  declareUse _ _ _ h := { h with }
  declareType _ _ _ h := { h with }
  declareAnnotationType _ _ _ h := { h with }

/-- Binding annotations reads no file. -/
theorem keptByBinding_reading (b : Store) (opened : List PathKey) :
    KeptByBinding (b.Reading opened) where
  reportUnbound _ _ h := { h with }
  writeAnnotations _ _ _ h := { h with }
  markBound h := { h with }

/-- A file is read that is not cached and is not being read. -/
theorem Tallied.readFile (h : b.Tallied opened s) (hc : ¬ s.isCached u p.key)
    (ho : (u, p.key) ∉ opened) :
    (Load.readFile u p).EndsIn s (fun _ t => t = s.countRead u p) b.Tallies := by
  refine .change (.ask ?_)
  split
  · exact .pure rfl
  · exact .stop (h.countRead hc ho).tallies

/-- The file of an example is read unless the example is cached. -/
theorem Reading.loadExample {opened : List PathKey} (h : b.Reading opened s) (p : Path) :
    (loadExample p).EndsIn s (fun _ => b.Reading opened) b.Tallies := by
  refine .ask ?_
  rcases hf : Dict.find? p.key s.examples with _ | e
  · have hc : ¬ s.isCached .exampleFile p.key := by
      rw [isCached, Dict.has, hf]
      exact Bool.false_ne_true
    have ho : (Purpose.exampleFile, p.key) ∉ opened.map (Purpose.fragment, ·) := by simp
    refine (h.readFile hc ho).bind ?_
    rintro text _ rfl
    have ht := h.countRead hc ho
    refine .check ht.tallies fun e _ => .change (.pure ?_)
    exact ⟨ht.cacheExample e, h.loading⟩
  · exact .pure h

end Store

end RamlTypes
