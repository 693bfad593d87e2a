import RamlTypes.Proofs.Annotations.Shapes
import RamlTypes.Proofs.Filing

/-!
# Annotations without a type

The annotations of the shapes that a load adds stay unbound until everything is resolved, and only the
annotations of the fragments that it caches are reported by then (`Store.tallies`).
-/

namespace RamlTypes

namespace Store

variable {b s t : Store} {ds : Drafts}

/-- The reports of annotations that have no type. -/
def unboundReports (s : Store) : List Diagnostic :=
  s.diagnostics.filter (·.finding = .annotationUnbound)

theorem finding_of_mem_reports {path : Path} {d : Dict String AnnotationUse} {r : Diagnostic}
    (hr : r ∈ AnnotationUse.reports path d) : r.finding = .annotationUnbound := by
  obtain ⟨x, -, hx⟩ := List.mem_filterMap.1 hr
  split at hx
  · cases hx
  · cases hx
    rfl

theorem unboundReports_addReports {rs : List Diagnostic}
    (hrs : ∀ r ∈ rs, r.finding = .annotationUnbound) :
    (s.addReports rs).unboundReports = s.unboundReports ++ rs := by
  have hall : rs.filter (·.finding = .annotationUnbound) = rs :=
    List.filter_eq_self.2 fun r hr => decide_eq_true (hrs r hr)
  rw [unboundReports, addReports, List.filter_append, hall]
  rfl

/-- Other reports do not matter. -/
theorem unboundReports_report {d : Diagnostic} (hd : d.finding ≠ .annotationUnbound) :
    (s.report d).unboundReports = s.unboundReports := by
  rw [unboundReports, report, List.filter_append, List.filter_singleton, decide_eq_false hd]
  exact List.append_nil _

/-- What holds while a load that began in `b` adds shapes and caches fragments: the annotations of the
new shapes are not bound, and those of the new fragments are reported that have no type. -/
structure Tally (b : Store) (ds : Drafts) (s : Store) : Prop where
  filing : Filing b ds s
  shapes : ∀ (i : ShapeId) (a : Shape), b.shapes.size ≤ i → s.shapes[i]? = some a →
    Unbound a.allAnnotations
  reports : ∃ fs, s.fragments = b.fragments ++ fs ∧
    s.unboundReports = b.unboundReports ++ fs.flatMap (·.2.reports)

/-- A change that does not concern what is noted of files, nor the shapes and the reports. -/
theorem Tally.unnoted (h : Tally b ds s) (t : Store) : Tally b ds { t with
    settings := s.settings
    shapes := s.shapes
    diagnostics := s.diagnostics
    fragments := s.fragments
    named := s.named
    annotationTypes := s.annotationTypes
    uses := s.uses
    loading := s.loading } where
  filing := h.filing.unnoted { t with shapes := s.shapes, diagnostics := s.diagnostics }
  shapes := h.shapes
  reports := h.reports

/-- A shape is changed, but for its annotations and those of its examples. -/
theorem Tally.mapShape (h : Tally b ds s) (i : ShapeId) {f : Shape → Shape}
    (hf : ∀ a : Shape, (f a).allAnnotations = a.allAnnotations) : Tally b ds (s.mapShape i f) where
  filing := h.filing.unnoted (s.mapShape i f)
  shapes j a hj ha := by
    rcases cases_of_mapShape ha with ⟨rfl, c, hc, rfl⟩ | ha
    · rw [hf]
      exact h.shapes _ c hj hc
    · exact h.shapes j a hj ha
  reports := h.reports

/-- Writing the result of a resolution leaves the annotations as they are. -/
theorem Tally.written {e : Evaluation} (h : Tally b ds e.stop) : Tally b ds (written e) := by
  refine Tally.unnoted (.mapShape (h.unnoted (e.stop.endResolution e.id)) e.id ?_) (Store.written e)
  exact fun _ => rfl

theorem keptByDeclaring_tally (b : Store) (ds : Drafts) : KeptByDeclaring (Tally b ds) where
  report {s} d hd h :=
    { filing := h.filing.unnoted (s.report d)
      shapes := h.shapes
      reports := by
        rw [unboundReports_report hd]
        exact h.reports }
  addShape {s} a hnew h :=
    { filing := h.filing.unnoted (s.addShape a)
      shapes := fun i c hi hc => by
        rcases cases_of_addShape hc with ⟨-, rfl⟩ | hc
        · exact hnew.unbound
        · exact h.shapes i c hi hc
      reports := h.reports }
  makeOptional i h := h.mapShape i fun _ => rfl

/-- A fragment is cached whose annotations without a type are reported. -/
theorem Tally.cacheFragment (hroot : b.settings.root.isAbsolute) {f : Fragment}
    (h : Tally b ((f.location.key, f.contents) :: ds) s) (ho : f.location.key ∉ ds.map (·.1))
    (hnormal : f.location.IsNormal b.settings.root)
    (hbound : ∀ x ∈ f.annotations, x.2.IsBoundIn s f.location) :
    Tally b ds (((s.addReports f.reports).endLoading f.location).cacheFragment f) where
  filing := (filings b hroot).cacheFragment h.filing ho hnormal hbound
  shapes := h.shapes
  reports := by
    obtain ⟨fs, hfs, hreports⟩ := h.reports
    have hnew : ¬ Dict.has f.location.key s.fragments := h.filing.uncached _ List.mem_cons_self
    have hfragments : (((s.addReports f.reports).endLoading f.location).cacheFragment f).fragments =
        s.fragments ++ [(f.location.key, f)] := Dict.putNew_of_not_has hnew
    refine ⟨fs ++ [(f.location.key, f)], ?_, ?_⟩
    · rw [hfragments, hfs, List.append_assoc]
    · rw [List.flatMap_append, List.flatMap_singleton, ← List.append_assoc, ← hreports]
      exact unboundReports_addReports fun _ => finding_of_mem_reports

/-- What the reports of the fragments are that are cached since `b`. -/
def tallies (b : Store) (hroot : b.settings.root.isAbsolute) : Recording where
  settings := b.settings
  root := hroot
  goes := Tally b
  stopped _ := True
  settings_eq h := h.filing.settings_eq
  loading_eq h := h.filing.loading
  stopped_of_goes _ := trivial
  stopped_addReports _ h := h
  stopped_endLoading _ h := h
  declaring := keptByDeclaring_tally b
  countRead _ _ h := h.unnoted (Store.countRead _ _ _)
  cacheExample _ _ h := h.unnoted (Store.cacheExample _ _ _)
  beginLoading h ho hnormal hc :=
    { h with filing := (filings b hroot).beginLoading h.filing ho hnormal hc }
  declareUse name _ h ho hp := { h with filing := (filings b hroot).declareUse name h.filing ho hp }
  declareType name i h ho := { h with filing := (filings b hroot).declareType name i h.filing ho }
  declareAnnotationType name i h ho :=
    { h with filing := (filings b hroot).declareAnnotationType name i h.filing ho }
  cacheFragment h ho hnormal hbound := h.cacheFragment hroot ho hnormal hbound

/-- When a fragment is loaded and all that waits is resolved, no annotation of a new shape is bound. -/
theorem Coherent.tally (hs : s.Coherent) (hroot : s.settings.root.isAbsolute) (h : s.Filed)
    {f : Fragment} {p : Path} {u : Store} (hf : Load.fragment p s = (.ok f, t))
    (hdrain : Load.drainAll t = (.ok (), u)) : Tally s [] u := by
  have htally : Tally s [] s :=
    { filing := h.filing (.refl s) rfl hs.loading
      shapes := fun i a hi ha => absurd (Array.getElem?_eq_some_iff.1 ha).1 (Nat.not_lt_of_le hi)
      reports := ⟨[], (List.append_nil _).symm, (List.append_nil _).symm⟩ }
  have hloads : KeptByLoads (Tally s []) fun _ => True :=
    Nesting.keptByLoads (N := (tallies s hroot).nesting) (i := []) rfl
  have hresolving : KeptByResolving (Tally s []) fun _ => True :=
    Nesting.keptByResolving (N := (tallies s hroot).nesting) (i := []) rfl
      (fun _ _ h => h.unnoted (beginResolution _ _)) (fun _ _ h => h.written) fun _ h => h
  have hcalls := hresolving.calls fun h => h.unnoted (popUnresolved _)
  exact ((hcalls.drainFragment hloads hs htally p).of_ok hf).2.of_ok hdrain

end Store

end RamlTypes
