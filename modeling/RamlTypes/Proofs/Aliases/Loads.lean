import RamlTypes.Proofs.Aliases.Basic
import RamlTypes.Proofs.Recording

/-!
# Reading a file links its aliases

The aliases of a file are read before its declarations, one after the other, and the library of each
is loaded first. The sections of the file leave the aliases as they are. So what `Store.Linking` says
is kept by the recursion over files (`Store.linkings`).
-/

namespace RamlTypes

theorem Fragment.uses_contents (f : Fragment) : f.contents.uses = f.uses := by
  cases f <;> rfl

namespace Store

/-- The aliases of the files that are being read. -/
abbrev Drafts.uses (ds : Drafts) : List (PathKey × Dict String Path) :=
  ds.map fun d => (d.1, d.2.uses)

theorem Drafts.keys_uses (ds : Drafts) : ds.uses.map (·.1) = ds.map (·.1) := by
  rw [List.map_map]
  rfl

/-- The aliases of the fragments that are cached since `b`, and of those that are being read. -/
def linkings (b : Store) (hroot : b.settings.root.isAbsolute) : Recording where
  settings := b.settings
  root := hroot
  goes ds := Linking b ds.uses
  stopped := b.KeepsFragments
  settings_eq h := h.settings_eq
  loading_eq {ds _} h := h.loading.trans (Drafts.keys_uses ds)
  stopped_of_goes h := h.older
  stopped_addReports _ h := h
  stopped_endLoading _ h := h
  declaring ds := keptByDeclaring_linking b ds.uses
  countRead _ _ h := { h with }
  cacheExample _ _ h := { h with }
  beginLoading h _ _ hc := h.beginLoading hc
  declareUse name _ h _ hp := h.use name hp
  declareType _ _ h _ := { h with }
  declareAnnotationType _ _ h _ := { h with }
  cacheFragment {ds s f} h ho _ _ := by
    have hreports : Linking b ((f.location.key, f.uses) :: Drafts.uses ds) (s.addReports f.reports) :=
      f.uses_contents ▸ { h with }
    exact hreports.cacheFragment (Drafts.keys_uses ds ▸ ho)

end Store

end RamlTypes
