import RamlTypes.Proofs.Confluence.Sessions

/-!
# The order of requests does not matter

However the shapes that wait are resolved, one by one or all at once, the shapes are the same in the
end, up to the numbers of those that resolution has stored (`Session.confluent`).
-/

namespace RamlTypes

open Store

variable {settings : LoadSettings}

/-- The stores `t` and `t'` hold the same shapes and have resolved the same, up to the renaming `f`
of the shapes that were stored after `s`. -/
structure Store.Renamed (s : Store) (f : Equiv.Perm ShapeId) (t t' : Store) : Prop where
  old : ∀ i < s.shapes.size, f i = i
  shapes : ∀ i, t'.shapes[f i]? = t.shapes[i]?.map (Shape.rename f)
  resolved : (t.resolved.map f).Perm t'.resolved

namespace Store.Settlings

variable {s m m' t t' : Store} {es es' : List (Settling settings)}

/-- When two runs have settled all that waits and then bind annotations, they end with the same
shapes, up to a renaming of those that they have stored. -/
theorem exists_renaming (hroot : settings.root.isAbsolute) (hs : s.Ready settings)
    (hmarked : s.Marked) (hfailed : s.failed = [])
    (hresolved : ∀ i ∈ s.resolved, i < s.shapes.size) (h : s.Settlings es m)
    (h' : s.Settlings es' m') (hall : ∀ i, m.IsResolved i) (hall' : ∀ i, m'.IsResolved i)
    (hbind : Load.bindAnnotations m = (.ok (), t))
    (hbind' : Load.bindAnnotations m' = (.ok (), t')) :
    ∃ f, s.Renamed f t t' := by
  obtain ⟨f, hold, htwin, hlarge⟩ := h.exists_perm hroot hs h' hall hall'
  obtain ⟨hlist, hfailed₁, hmark⟩ := h.resolved_eq hroot
  obtain ⟨hlist', hfailed₂, hmark'⟩ := h'.resolved_eq hroot
  have hready := h.ready hroot hs
  have hready' := h'.ready hroot hs
  obtain ⟨hsize, hres, -, hshape⟩ :=
    Load.bound_of_bindAnnotations hready.closed (hfailed₁.trans hfailed) hbind
  obtain ⟨hsize', hres', -, hshape'⟩ :=
    Load.bound_of_bindAnnotations hready'.closed (hfailed₂.trans hfailed) hbind'
  have hids (i j : ShapeId) (hij : Twin s es' es i j) : i = f j :=
    h.twin_unique hroot h' hij.swap (htwin j (h.lt_of_twin hroot hij.swap))
  have hmatched := h'.matched hroot h hall hs h' (List.Subset.refl _)
  have hfiles : m'.SameFiles (Twin s es' es) m :=
    ⟨fun k d _ hd n q hq => hready'.cached ((hready'.tracked.uses k d hd).2 n q hq).2,
      hmatched.index⟩
  -- The renaming fixes the old numbers, so it moves no shape across the mark.
  have habove {i : ShapeId} : m.annotationsBound ≤ i ↔ m'.annotationsBound ≤ f i := by
    rw [hmark, hmark']
    rcases Nat.lt_or_ge i s.shapes.size with hi | hi
    · rw [hold i hi]
    · refine iff_of_true (Nat.le_trans hmarked hi)
        (Nat.le_trans hmarked (Nat.le_of_not_lt fun hlt => ?_))
      have hfix : f i = i := f.injective (hold (f i) hlt)
      exact absurd hi (Nat.not_le_of_lt (hfix ▸ hlt))
  refine ⟨f, hold, fun i => ?_, ?_⟩
  · rcases Nat.lt_or_ge i m.shapes.size with hi | hi
    · have hij := htwin i hi
      have hb := Array.getElem?_eq_getElem (h'.lt_of_twin hroot hij.swap)
      obtain ⟨a, ha, hrel⟩ := (hmatched.shapes _ i _ hij.swap hb).resolved (hall' _ _ hb)
      obtain ⟨c, hc, hbound⟩ := hshape i a ha
      obtain ⟨c', hc', hbound'⟩ := hshape' (f i) _ hb
      have hk := hready'.cached (hready'.tracked.locations _ _ hb).2
      have hrel' := hfiles.boundFrom hk hrel habove hbound' hbound
      have hid : c'.id = f c.id := by
        rw [hbound'.id_eq, hbound.id_eq, hready.closed.ids i a ha, hready'.closed.ids _ _ hb]
      rw [hc', hc, Option.map_some, ← hrel'.eq_rename hids hid]
    · rw [Array.getElem?_eq_none (hsize ▸ hi : t.shapes.size ≤ i),
        Array.getElem?_eq_none (hsize' ▸ hlarge i hi : t'.shapes.size ≤ f i), Option.map_none]
  · have hfixed : s.resolved.map f = s.resolved :=
      List.map_congr_left (fun i hi => hold i (hresolved i hi)) |>.trans (List.map_id _)
    rw [hres, hres', hlist, hlist', List.map_append, hfixed]
    exact (h.perm_ids hroot hs h' hall hall' htwin f.injective).append_left _

end Store.Settlings

namespace Session

/-- Any two sequences of requests that resolve shapes, which are served and end with the resolution
of everything, leave the same shapes, up to a renaming of those that resolution has stored. They
start after any loads and parses by which no shape has failed. The lists of what is resolved hold
the same shapes, too. -/
theorem confluent (settings : LoadSettings) (files : Files) (hroot : settings.root.isAbsolute)
    (before : List Request) (hbefore : ∀ r ∈ before, r.Loads) (rs rs' : List Request)
    (hrs : ∀ r ∈ rs, r.Settles) (hrs' : ∀ r ∈ rs', r.Settles) :
    let s := run (.empty settings files) before
    (∀ i, s.isFailed i = false) →
    AllServed s (rs ++ [.resolveAll]) → AllServed s (rs' ++ [.resolveAll]) →
    ∃ f, s.Renamed f (run s (rs ++ [.resolveAll])) (run s (rs' ++ [.resolveAll])) := by
  intro s hnone hserved hserved'
  have hfailed : s.failed = [] :=
    List.eq_nil_iff_forall_not_mem.2 fun i hi =>
      Bool.false_ne_true ((hnone i).symm.trans (List.contains_iff_mem.2 hi))
  have hs : s.Loaded settings :=
    loaded_run hroot before (loaded_empty settings files) hbefore hfailed
  have hready := hs.coherent.ready hs.tracked
  have hends {rs : List Request} (h : ∀ r ∈ rs, r.Settles) : ∀ r ∈ rs ++ [.resolveAll], r.Settles :=
    List.forall_mem_append.2 ⟨h, List.forall_mem_singleton.2 trivial⟩
  have hall (rs : List Request) : Request.resolveAll ∈ rs ++ [.resolveAll] :=
    List.mem_append_right _ (List.mem_singleton_self _)
  obtain ⟨es, m, hes, hm, hbind⟩ :=
    settled_of_served hroot _ hs.coherent hready hfailed (hends hrs) hserved (hall rs)
  obtain ⟨es', m', hes', hm', hbind'⟩ :=
    settled_of_served hroot _ hs.coherent hready hfailed (hends hrs') hserved' (hall rs')
  exact hes.exists_renaming hroot hready hs.marked hfailed hs.coherent.resolved hes' hm hm' hbind
    hbind'

/-- A recursion through arrays and a union, after a load that was taken back. Beginning with `A` or
with `B`, resolution stores the anonymous shapes in another order. -/
theorem confluent_of_recursion :
    let lib : Path := ⟨"/lib.raml"⟩
    let files : Files := .memory [(lib, "#%RAML 1.0 Library\nannotationTypes:\n  n: string\n" ++
      "types:\n  A: B[][]\n  B: A | C[]\n  C:\n    (n): x\n")]
    let settings : LoadSettings := ⟨⟨"/"⟩, false, false⟩
    let before : List Request := [.load ⟨"/none.raml"⟩, .load lib]
    let rs : List Request := [.resolveNamed lib "A"]
    let rs' : List Request := [.resolveNamed lib "B"]
    let s := run (.empty settings files) before
    let t := run s (rs ++ [.resolveAll])
    let t' := run s (rs' ++ [.resolveAll])
    settings.root.isAbsolute ∧ (∀ r ∈ before, r.Loads) ∧ (∀ r ∈ rs, r.Settles) ∧
      (∀ r ∈ rs', r.Settles) ∧ (∀ i, s.isFailed i = false) ∧ AllServed s (rs ++ [.resolveAll]) ∧
      AllServed s (rs' ++ [.resolveAll]) ∧ t.nameOf? 4 = some "A" ∧ t'.nameOf? 4 = some "B" ∧
      ∃ f, s.Renamed f t t' := by
  intro lib files settings before rs rs' s t t'
  have hroot : settings.root.isAbsolute := by decide
  have hbefore : ∀ r ∈ before, r.Loads := by simp [before, Request.Loads]
  have hrs : ∀ r ∈ rs, r.Settles := by simp [rs, Request.Settles]
  have hrs' : ∀ r ∈ rs', r.Settles := by simp [rs', Request.Settles]
  have hrun : s.failed = [] ∧ AllServed s (rs ++ [.resolveAll]) ∧
      AllServed s (rs' ++ [.resolveAll]) ∧ t.nameOf? 4 = some "A" ∧ t'.nameOf? 4 = some "B" := by
    decide +kernel
  obtain ⟨hfailed, hserved, hserved', hfirst, hsecond⟩ := hrun
  have hnone (i : ShapeId) : s.isFailed i = false := by
    rw [isFailed, hfailed]
    rfl
  exact ⟨hroot, hbefore, hrs, hrs', hnone, hserved, hserved', hfirst, hsecond,
    confluent settings files hroot before hbefore rs rs' hrs hrs' hnone hserved hserved'⟩

end Session

end RamlTypes
