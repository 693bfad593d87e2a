import RamlTypes.Proofs.Nesting
import RamlTypes.Proofs.Reads.Basic

/-!
# Loads read a file once

A file is read when its fragment is neither cached nor being read, and the fragment is cached after
it was read. So the counts are kept by the recursion over files (`Store.readings`).
-/

namespace RamlTypes

namespace Store

variable {b s t : Store} {opened : List PathKey} {path : Path}

/-- The file `path` has been read, but the reading of its fragment has not begun, or has ended. -/
structure Fetched (b : Store) (opened : List PathKey) (path : Path) (s : Store) : Prop
    extends b.Tallied ((path.key :: opened).map (Purpose.fragment, ·)) s where
  loading : s.loading = opened

theorem Reading.fetch (h : b.Reading opened s) (hc : ¬ s.isCached .fragment path.key)
    (ho : path.key ∉ opened) :
    (Load.readFile .fragment path).EndsIn s (fun _ => b.Fetched opened path) b.Tallies := by
  have hopened : (Purpose.fragment, path.key) ∉ opened.map (Purpose.fragment, ·) := by simpa using ho
  refine (h.readFile hc hopened).imp ?_ fun _ ht => ht
  rintro _ _ rfl
  exact ⟨h.countRead hc hopened, h.loading⟩

/-- Reading a fragment and caching it keeps the counts. -/
theorem Fetched.reading {α : Type} {x : Load α} {f : α → Fragment} (h : b.Fetched opened path s)
    (ho : path.key ∉ opened)
    (hx : ∀ s, b.Reading (path.key :: opened) s → x.EndsIn s
      (fun a t => b.Reading (path.key :: opened) t ∧ (f a).location = path) b.Tallies) :
    (Fragment.reading path x f).EndsIn s (fun _ => b.Reading opened) b.Tallies := by
  have hbegin : b.Reading (path.key :: opened) (s.beginLoading path) :=
    ⟨{ h with }, congrArg (path.key :: ·) h.loading⟩
  refine endsIn_reading (hx _ hbegin) ?_ fun t ⟨more, ht⟩ => ⟨more, { ht with }⟩
  rintro a t ⟨ht, rfl⟩
  have hloading : (t.endLoading (f a).location).loading = opened :=
    loading_endLoading ht.loading ho
  have hended : b.Tallied (((f a).location.key :: opened).map (Purpose.fragment, ·))
      (t.endLoading (f a).location) := { ht with }
  exact ⟨hended.cacheFragment, hloading⟩

/-- The other steps of reading a file do not touch the counts. -/
theorem reading_parses (hroot : b.settings.root.isAbsolute) (opened : List PathKey) (path : Path) :
    (withInvariants (b.Reading opened) b.Tallies (·.IsNormal b.settings.root)
      fun _ h => h.tallies).Parses path :=
  (keptByReading_reading b opened).parses <|
    (keptByReading_reading b opened).declares_normal hroot (·.settings) (fun p h => h.loadExample p) path

/-- The counts are kept while the fragments of the files `opened` are being read. -/
def readings (b : Store) (hroot : b.settings.root.isAbsolute) : Nesting (List PathKey) where
  settings := b.settings
  opened := id
  goes := b.Reading
  fetched := b.Fetched
  stopped := b.Tallies
  root := hroot
  settings_eq h := h.settings
  loading_eq h := h.loading
  stopped_of_goes h := h.tallies
  stopped_of_fetched h := h.tallies
  declaring opened := (keptByReading_reading b opened).toKeptByDeclaring
  loadExample p h := h.loadExample p
  fetch h _ hc ho := h.fetch hc ho
  library text hl _ ho h := h.reading ho fun _ hs =>
    (endsIn_of_agree ((reading_parses hroot _ _).readLibrary (hl _) () trivial text) hs).imp
      (fun _ _ ht => ⟨ht.1, ht.2.2⟩) fun _ ht => ht
  dataType text isJson hl _ ho h := h.reading ho fun _ hs =>
    (endsIn_of_agree ((reading_parses hroot _ _).readDataTypeOrJson (hl _) () trivial text isJson) hs).imp
      (fun _ _ ht => ⟨ht.1, ht.2.2⟩) fun _ ht => ht

end Store

end RamlTypes
