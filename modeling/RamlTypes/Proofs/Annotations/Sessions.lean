import RamlTypes.Proofs.Annotations.Libraries
import RamlTypes.Proofs.Annotations.Reports
import RamlTypes.Proofs.ClosedWorld.Reach

/-!
# The annotations of shapes

When everything is resolved, a load binds the annotations of all shapes that it has added, since
between eager loads only shapes that failed are above the mark (`Store.During.unbound_eq`). So after
each load that is served every new annotation has the type that its library declares, or none and one
report, and it keeps what it has (`Session.annotations_bound`).
-/

namespace RamlTypes

namespace Store

variable {b s t : Store}

/-! ## Binding after a load -/

section
variable (hb : b.Settled)
include hb

/-- Above the mark, the shapes whose annotations are to be bound are those that a load has added. -/
theorem During.unbound_eq {phase : Phase} {w : Extent b} (h : b.During phase w s) :
    s.unbound = s.shapes.toList.drop b.shapes.size := by
  have hid {i : Nat} {a : Shape} (ha : s.shapes.toList[i]? = some a) : a.id = i :=
    h.ids i a (by rwa [← Array.getElem?_toList])
  have hsize : b.shapes.size ≤ s.shapes.toList.length := by
    rw [Array.length_toList, h.size]
    exact w.size_le
  have hle : b.annotationsBound ≤ (s.shapes.toList.take b.shapes.size).length := by
    rw [List.length_take, Nat.min_eq_left hsize]
    exact hb.bound_le
  have hsplit : s.shapes.toList.drop b.annotationsBound =
      (s.shapes.toList.take b.shapes.size).drop b.annotationsBound ++
        s.shapes.toList.drop b.shapes.size := by
    rw [← List.drop_append_of_le_length hle, List.take_append_drop]
  have hold : ∀ a ∈ (s.shapes.toList.take b.shapes.size).drop b.annotationsBound,
      ¬ (!s.isFailed a.id) := by
    intro a ha
    obtain ⟨n, hn⟩ := List.mem_iff_getElem?.1 ha
    rw [List.getElem?_drop, List.getElem?_take] at hn
    split at hn
    · next hlt =>
      have hf : a.id ∈ s.failed := by
        rw [hid hn, h.failed]
        exact hb.bound _ (Nat.le_add_right _ _) hlt
      simp [isFailed, hf]
    · cases hn
  have hnew : ∀ a ∈ s.shapes.toList.drop b.shapes.size, !s.isFailed a.id := by
    intro a ha
    obtain ⟨n, hn⟩ := List.mem_iff_getElem?.1 ha
    rw [List.getElem?_drop] at hn
    have hf : a.id ∉ s.failed := by
      rw [hid hn, h.failed]
      exact fun hf => Nat.not_lt_of_le (Nat.le_add_right _ n) (hb.failed _ hf)
    simp [isFailed, hf]
  rw [unbound, h.bound, hsplit, List.filter_append, List.filter_eq_nil_iff.2 hold,
    List.filter_eq_self.2 hnew, List.nil_append]

variable (he : b.settings.eagerResolution) {p : Path} {f : Fragment} (h : Load.load p b = (.ok f, t))
include he h

/-- A load that is served reads a fragment, resolves all that waits, and binds the annotations of the
shapes that it has added. -/
theorem Settled.exists_drained : ∃ t₁ t₂ t₃ w, Load.fragment p b = (.ok f, t₁) ∧
    Load.drainAll t₁ = (.ok (), t₂) ∧ b.During .binding w t₂ ∧
    Load.bindShapes (t₂.shapes.toList.drop b.shapes.size) t₂ = (.ok (), t₃) ∧
    t = { t₃ with annotationsBound := t₃.shapes.size } := by
  rw [Load.load, Load.orRollback] at h
  split at h
  · cases h
  · obtain ⟨_, t₁, hf, h⟩ := Load.bind_eq_ok.1 h
    obtain ⟨_, _, heager, hdone⟩ := Load.bind_eq_ok.1 h
    cases hdone
    have hphase : Phase.declaring ≠ .binding := fun h => by cases h
    have hlaws : (b.during .declaring).Loads _ := during_loads hb hphase
    obtain ⟨w₁, -, hw₁, -⟩ := (hb.during.leads (hlaws.fragment (.start b) p)).of_ok hf
    rw [Load.resolveIfEager, Load.ask_bind, (Load.grows_of_apply hf).settings, he, if_pos rfl] at heager
    obtain ⟨_, t₂, hdrain, hbind⟩ := Load.bind_eq_ok.1 heager
    have hleads : b.Leads t₁ Load.drainAll fun _ t => ∃ w, w₁ ≤ w ∧ b.During .binding w t :=
      .ask (.ask (During.drain hb _ _ hw₁))
    obtain ⟨w, -, hw⟩ := hleads.of_ok hdrain
    rw [Load.bindAnnotations, Load.ask_bind, hw.unbound_eq hb] at hbind
    obtain ⟨_, t₃, hshapes, hmark⟩ := Load.bind_eq_ok.1 hbind
    cases hmark
    exact ⟨t₁, t₂, t₃, w, hf, hdrain, hw, hshapes, rfl⟩

/-- The shapes that a load adds belong to the files that it caches. -/
theorem Settled.location_of_load {i : ShapeId} {a : Shape} (hi : b.shapes.size ≤ i)
    (ha : t.shapes[i]? = some a) :
    Dict.has a.location.key t.fragments ∧ ¬ Dict.has a.location.key b.fragments := by
  have hleads := hb.leads_load he p
  rw [Load.load, Load.orRollback] at h
  split at h
  · cases h
  · obtain ⟨w, u, hw, rfl⟩ := hleads.of_ok h
    have hloading : u.loading = [] := List.subset_nil.1 (hb.loading ▸ (Load.grows_of_apply h).loading)
    have hbegun := hw.begun i a hi ha
    refine ⟨(hw.loading _ hbegun).resolve_right fun hmem => ?_, w.fresh _ hbegun⟩
    rw [hloading] at hmem
    cases hmem

/-- A load that is served binds the annotations of the shapes that it adds, and reports those without
a type, after those of the fragments that it caches. -/
theorem Settled.bound_of_load (hs : b.Coherent) (hroot : b.settings.root.isAbsolute) (hfiled : b.Filed) :
    (∀ a ∈ t.shapes.toList.drop b.shapes.size, a.IsBoundIn t) ∧
    ∃ fs, t.fragments = b.fragments ++ fs ∧ t.unboundReports = b.unboundReports ++
      fs.flatMap (·.2.reports) ++ (t.shapes.toList.drop b.shapes.size).flatMap Shape.reports := by
  obtain ⟨t₁, t₂, t₃, w, hf, hdrain, hw, hbind, rfl⟩ := hb.exists_drained he h
  have htally : Tally b [] t₂ := hs.tally hroot hfiled hf hdrain
  have hsize : b.shapes.size ≤ t₂.shapes.toList.length := by
    rw [Array.length_toList, hw.size]
    exact w.size_le
  have hunbound : ∀ a ∈ t₂.shapes.toList.drop b.shapes.size, Unbound a.allAnnotations := by
    intro a ha
    obtain ⟨n, hn⟩ := List.mem_iff_getElem?.1 ha
    rw [List.getElem?_drop, Array.getElem?_toList] at hn
    exact htally.shapes _ a (Nat.le_add_right _ n) hn
  obtain ⟨shapes, l, rfl, hl, hbound⟩ := exists_of_bindShapes _ (List.take_append_drop _ _).symm
    hw.ids hunbound hbind
  have hnew : shapes.toList.drop b.shapes.size = l := by
    rw [hl]
    exact List.drop_left' (List.length_take_of_le hsize)
  have hfinding : ∀ r ∈ l.flatMap Shape.reports, r.finding = .annotationUnbound := by
    intro r hr
    obtain ⟨a, -, ha⟩ := List.mem_flatMap.1 hr
    exact finding_of_mem_reports ha
  obtain ⟨fs, hfs, hreports⟩ := htally.reports
  dsimp only
  rw [hnew]
  refine ⟨hbound, fs, hfs, ?_⟩
  rw [← hreports]
  exact unboundReports_addReports hfinding

end

/-! ## Types in cached libraries -/

/-- The annotation, which stands in the file `location`, has the type that the cached library declares
of which its name tells. -/
def Fastens (s : Store) (location : Path) (a : AnnotationUse) : Prop :=
  ∃ f library name g, Dict.find? location.key s.fragments = some f ∧
    a.Targets location f.uses library name ∧
    Dict.find? library.key s.fragments = some g ∧
    a.definedBy = Dict.find? name g.contents.annotationTypes

/-- An annotation that is bound as the store says has the type that the cached library declares. -/
theorem Filed.fastens (h : s.Filed) {path : Path} {f : Fragment} {a : AnnotationUse}
    (hf : Dict.find? path.key s.fragments = some f)
    (huses : ∀ name p, Dict.find? name f.uses = some p → Dict.has p.key s.fragments)
    (ha : a.IsBoundIn s path) : s.Fastens path a := by
  obtain ⟨library, name, htarget, hdefined⟩ := (h.cached _ f hf).exists_target ha
  rw [f.uses_contents] at htarget
  have hlibrary : Dict.has library.key s.fragments := by
    cases htarget with
    | own _ => exact Dict.has_iff.2 ⟨f, hf⟩
    | used _ hused => exact huses _ _ hused
  obtain ⟨g, hg⟩ := Dict.has_iff.1 hlibrary
  exact ⟨f, library, name, g, hf, htarget, hg,
    hdefined.symm.trans ((h.cached _ g hg).annotationTypes name)⟩

end Store

namespace Session

open Store

variable {settings : LoadSettings} {s t : Store}

/-- Between loads the store is coherent, and what it notes of files is what their fragments list. -/
theorem LoadRun.coherent_filed (hroot : settings.root.isAbsolute) (h : LoadRun settings s) :
    s.settings = settings ∧ s.Coherent ∧ s.Filed := by
  induction h with
  | start files => exact ⟨rfl, coherent_empty settings files, filed_empty settings files⟩
  | @load s _ p ih =>
    obtain ⟨hsettings, hs, hfiled⟩ := ih
    have hfiling : Filing s [] (step s (.load p)).2 := filing_step hs (hsettings ▸ hroot) hfiled trivial
    exact ⟨hfiling.settings_eq.trans hsettings, (keeps_step hs _).coherent, hfiling.filed⟩
  | rewrite _ files ih => exact ⟨ih.1, { ih.2.1 with }, { noted := ih.2.2.noted, cached := fun k f hf =>
      { ih.2.2.cached k f hf with } }⟩

/-- Loads leave a shape as it is that there was before, whether or not they are served. -/
theorem LoadRun.getElem?_run (he : settings.eagerResolution) (rs : List Request)
    (hrs : ∀ r ∈ rs, r.IsLoad) : ∀ {s : Store}, LoadRun settings s → ∀ {i : ShapeId} {a : Shape},
    s.shapes[i]? = some a → (run s rs).shapes[i]? = some a := by
  induction rs with
  | nil => exact fun _ _ _ ha => ha
  | cons r rest ih =>
    intro s h i a ha
    rw [List.forall_mem_cons] at hrs
    have hnext : LoadRun settings (step s r).2 ∧ (step s r).2.shapes[i]? = some a := by
      cases r with
      | load p =>
        obtain ⟨hsettings, hsettled⟩ := h.settled he
        have hlt : i < s.shapes.size := (Array.getElem?_eq_some_iff.1 ha).1
        refine ⟨h.load p, ?_⟩
        rw [step, perform_snd, hsettled.getElem?_load (hsettings ▸ he) p hlt, ha]
      | write p text => exact ⟨h.rewrite _, ha⟩
      | _ => exact hrs.1.elim
    exact ih hrs.2 hnext.1 hnext.2

/-- Whatever loads a session has made, and whether or not they were served: each annotation of a shape
that a load adds which is served, and of its examples, has the type that its name has in the file of
the shape, or in the library that its alias stands for there. So a load is refused where an annotation
has another alias. Later loads change no annotation. Each that has no type is reported once, in the
order of the shapes, after those of the fragments that the load has cached. -/
theorem annotations_bound (he : settings.eagerResolution) (hroot : settings.root.isAbsolute)
    (h : LoadRun settings s) {p : Path} {f : Fragment} (hload : Load.load p s = (.ok f, t))
    (later : List Request) (hlater : ∀ r ∈ later, r.IsLoad) :
    (∀ (i : ShapeId) (a : Shape), s.shapes.size ≤ i → t.shapes[i]? = some a →
      (∀ x ∈ a.allAnnotations, t.Fastens a.location x.2) ∧ (run t later).shapes[i]? = some a) ∧
    ∃ fs, t.fragments = s.fragments ++ fs ∧ t.unboundReports = s.unboundReports ++
      fs.flatMap (·.2.reports) ++ (t.shapes.toList.drop s.shapes.size).flatMap Shape.reports := by
  obtain ⟨hsettings, hsettled⟩ := h.settled he
  obtain ⟨-, hcoherent, hfiled⟩ := h.coherent_filed hroot
  have heager : s.settings.eagerResolution := hsettings ▸ he
  have hroot' : s.settings.root.isAbsolute := hsettings ▸ hroot
  have ht : (step s (.load p)).2 = t := by rw [step, perform_snd, hload]
  have hrun : LoadRun settings t := ht ▸ h.load p
  have hlinking : Linking s [] t := ht ▸ linking_step hcoherent hroot' trivial
  have hfiling : Filing s [] t := ht ▸ filing_step hcoherent hroot' hfiled trivial
  obtain ⟨hbound, hreports⟩ := hsettled.bound_of_load heager hload hcoherent hroot' hfiled
  refine ⟨fun i a hi ha => ⟨fun x hx => ?_, hrun.getElem?_run he later hlater ha⟩, hreports⟩
  obtain ⟨hcached, hnew⟩ := hsettled.location_of_load heager hload hi ha
  obtain ⟨g, hg⟩ := Dict.has_iff.1 hcached
  have hmem : a ∈ t.shapes.toList.drop s.shapes.size := by
    refine List.mem_iff_getElem?.2 ⟨i - s.shapes.size, ?_⟩
    rw [List.getElem?_drop, Nat.add_sub_cancel' hi, Array.getElem?_toList]
    exact ha
  refine hfiling.filed.fastens hg (fun name q hq => ?_) (hbound a hmem x hx)
  rcases hlinking.cached _ g hg hnew name q hq with ⟨l, hl⟩ | hinside
  · exact Dict.has_iff.2 ⟨_, hl⟩
  · exact hinside.present.resolve_right List.not_mem_nil

/-- Two libraries that use each other. Of the annotations of a shape and of its example, one has its
type in the other library, one in its own, and one has none. The later load fails. -/
theorem annotations_bound_of_circle :
    let l : Path := ⟨"/l.raml"⟩
    let b : Path := ⟨"/b.raml"⟩
    let flawed : Path := ⟨"/flawed.raml"⟩
    let declarations := "types:\n A:\n  (b.t): 1\n  (t): 1\n  example:\n   (u): 1\n   value: 1\n"
    let files : Files := .memory [
      (l, "#%RAML 1.0 Library\nuses:\n b: b.raml\nannotationTypes:\n t: any\n" ++ declarations),
      (b, "#%RAML 1.0 Library\nuses:\n l: l.raml\nannotationTypes:\n t: any\n"),
      (flawed, "#%RAML 1.0 Library\ntypes:\n A:\n  (b.t): 1\n")]
    let settings : LoadSettings := ⟨⟨"/"⟩, false, true⟩
    let s : Store := .empty settings files
    let later : List Request := [.load flawed]
    settings.eagerResolution ∧ settings.root.isAbsolute ∧ LoadRun settings s ∧
      (∀ r ∈ later, r.IsLoad) ∧ ∃ f t a, Load.load l s = (.ok f, t) ∧ t.shapes[2]? = some a ∧
        a.allAnnotations.map (fun x => (x.2.name, x.2.definedBy)) =
          [("b.t", some 0), ("t", some 1), ("u", none)] ∧
        ((∀ x ∈ a.allAnnotations, t.Fastens a.location x.2) ∧ (run t later).shapes[2]? = some a) ∧
        ∃ fs, t.fragments = s.fragments ++ fs ∧ t.unboundReports = s.unboundReports ++
          fs.flatMap (·.2.reports) ++ (t.shapes.toList.drop s.shapes.size).flatMap Shape.reports := by
  intro l b flawed declarations files settings s later
  have hroot : settings.root.isAbsolute := by decide
  have hstart : LoadRun settings s := .start files
  have hlater : ∀ r ∈ later, r.IsLoad := List.forall_mem_singleton.2 trivial
  have hserved : (Load.load l s).1.isOk ∧ (Load.load l s).2.shapes[2]?.any fun a =>
      a.allAnnotations.map (fun x => (x.2.name, x.2.definedBy)) ==
        [("b.t", some 0), ("t", some 1), ("u", none)] := by decide +kernel
  rcases hload : Load.load l s with ⟨e | f, t⟩
  all_goals rw [hload] at hserved
  · cases hserved.1
  · obtain ⟨a, ha, hnames⟩ := (Option.any_eq_true _ _).1 hserved.2
    obtain ⟨hbound, hreports⟩ := annotations_bound rfl hroot hstart hload later hlater
    exact ⟨rfl, hroot, hstart, hlater, f, t, a, rfl, ha, beq_iff_eq.1 hnames,
      hbound 2 a (Nat.zero_le 2) ha, hreports⟩

end Session

end RamlTypes
