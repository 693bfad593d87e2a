import RamlTypes.Proofs.Names.Basic
import RamlTypes.Proofs.Recording

/-!
# Reading a library notes its names

While the sections of a library are read, each name is noted together with its entry in the tables,
and the files that are read meanwhile are others. So the cached fragments and their names belong
together after each load (`Store.draftings`).
-/

namespace RamlTypes

def Contents.tables (c : Contents) : Tables := ⟨c.types, c.annotationTypes⟩

theorem Fragment.tables_contents (f : Fragment) : f.contents.tables = f.tables := by
  cases f <;> rfl

namespace Store

/-- The tables of the files that are being read. -/
abbrev Drafts.tables (ds : Drafts) : List (PathKey × Tables) := ds.map fun d => (d.1, d.2.tables)

theorem Drafts.keys_tables (ds : Drafts) : ds.tables.map (·.1) = ds.map (·.1) := by
  rw [List.map_map]
  rfl

/-- The cached fragments and their names belong together, and so do those that are being read. -/
def draftings (settings : LoadSettings) (hroot : settings.root.isAbsolute) : Recording where
  settings := settings
  root := hroot
  goes ds := Drafting settings ds.tables
  stopped := Indexed settings
  settings_eq h := h.settings_eq
  loading_eq {ds _} h := h.loading.trans (Drafts.keys_tables ds)
  stopped_of_goes h := h.toIndexed
  stopped_addReports _ h := { h with }
  stopped_endLoading _ h := { h with }
  declaring ds := keptByDeclaring_drafting settings ds.tables
  countRead _ _ h := { h with }
  cacheExample _ _ h := { h with }
  beginLoading h _ _ hc := h.beginLoading hc
  declareUse _ _ h _ _ := { h with }
  declareType {ds _ c _} name i h ho :=
    h.declareType (Drafts.keys_tables ds ▸ ho)
      ((h.drafted _ List.mem_cons_self).declareType (c.tables.adds_type name i))
  declareAnnotationType {ds _ c _} name i h ho :=
    h.declareAnnotationType (Drafts.keys_tables ds ▸ ho)
      ((h.drafted _ List.mem_cons_self).declareType (c.tables.adds_annotationType name i))
  cacheFragment {ds s f} h ho hnormal _ := by
    have hreports : Drafting settings ((f.location.key, f.tables) :: Drafts.tables ds)
        (s.addReports f.reports) := f.tables_contents ▸ { h with }
    exact hreports.cacheFragment (Drafts.keys_tables ds ▸ ho) hnormal

end Store

end RamlTypes
