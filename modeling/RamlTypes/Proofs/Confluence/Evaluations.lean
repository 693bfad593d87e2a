import RamlTypes.Proofs.Confluence.Loads
import RamlTypes.Proofs.Confluence.Lookups
import RamlTypes.Proofs.Equations.Evaluation

/-!
# Two runs that evaluate the same declaration

When a declaration is evaluated, the shapes that it depends on are resolved first. After that the
evaluation resolves no more shapes (`Load.ifResolved`), and two evaluations of related declarations
agree, provided that names denote related shapes on both sides (`Duo.evaluated`).
-/

namespace RamlTypes

open Store

/-- Goes on only if a shape is resolved. -/
def Load.ifResolved (i : ShapeId) : Load Unit := do
  if ← Load.ask fun s => s.shapes[i]?.all (!·.isUnknown) then return
  else Load.exhaust

section
variable {s t : Store} {i : ShapeId}

/-- A shape that is resolved lets the resolution go on. -/
theorem Load.ifResolved_apply (h : s.IsResolved i) : Load.ifResolved i s = (.ok (), s) := by
  have hall : s.shapes[i]?.all (!·.isUnknown) = true := by
    rcases ha : s.shapes[i]? with _ | a
    · rfl
    · rw [Option.all_some, h a ha]
      rfl
  rw [ifResolved, Load.ask_bind, hall]
  rfl

/-- The resolution goes on only with a shape that is resolved, and changes nothing. -/
theorem Load.resolved_of_ifResolved (h : Load.ifResolved i s = (.ok (), t)) :
    s.IsResolved i ∧ t = s := by
  rw [ifResolved, Load.ask_bind] at h
  split at h
  · next hall =>
    cases h
    refine ⟨fun a ha => ?_, rfl⟩
    rw [ha, Option.all_some, Bool.not_eq_true'] at hall
    exact hall
  · cases h

/-- Shapes that are resolved already. -/
theorem Resolution.each_ifResolved {ids : List ShapeId} (h : ∀ i ∈ ids, s.IsResolved i) :
    Resolution.each Load.ifResolved ids s = (.ok (), s) := by
  induction ids with
  | nil => rfl
  | cons i rest ih =>
    rw [each, Load.bind_of_ok (Load.ifResolved_apply (h i List.mem_cons_self))]
    exact ih fun j hj => h j (List.mem_cons_of_mem _ hj)

/-- So for all the shapes in a list. -/
theorem Resolution.resolved_of_each {ids : List ShapeId}
    (h : Resolution.each Load.ifResolved ids s = (.ok (), t)) :
    (∀ i ∈ ids, s.IsResolved i) ∧ t = s := by
  induction ids with
  | nil =>
    cases h
    exact ⟨List.forall_mem_nil _, rfl⟩
  | cons i rest ih =>
    obtain ⟨_, u, hi, hrest⟩ := Load.bind_eq_ok.1 h
    obtain ⟨hres, rfl⟩ := Load.resolved_of_ifResolved hi
    obtain ⟨hall, rfl⟩ := ih hrest
    exact ⟨List.forall_mem_cons.2 ⟨hres, hall⟩, rfl⟩

/-- A name that is looked up denotes a shape, and the store stays. -/
theorem Resolution.denoted_of_lookup {o : Owner} {library : Option String} {name : String}
    (h : Resolution.lookup o library name s = (.ok i, t)) :
    s.denoted? o.location library name = some i ∧ t = s := by
  rw [lookup, Load.ask_bind] at h
  split at h
  · next hd =>
    cases h
    exact ⟨hd, rfl⟩
  · cases h

/-- A data type that is cached is not loaded again. -/
theorem Load.cached_of_dataType {p : Path} {d : DataType} (hp : s.normalize p = p)
    (hk : Dict.has p.key s.fragments) (h : Load.dataType p s = (.ok d, t)) :
    Dict.find? p.key s.fragments = some (.dataType d) ∧ t = s := by
  obtain ⟨f, hf⟩ := Dict.has_iff.1 hk
  rw [Load.dataType, Load.withLoaders, Load.ask_bind, Fragment.dataTypeWith,
    Fragment.fromCache_apply, hp, hf] at h
  obtain ⟨rfl, rfl⟩ := Fragment.eq_of_expectDataType h
  exact ⟨hf, rfl⟩

end

namespace Duo

variable {d : Duo} {w : Progress}

/-- Numbers of shapes that were stored when the runs began, and stand for each other. -/
def Old (d : Duo) (i j : ShapeId) : Prop :=
  d.outer i j ∧ i < d.left.shapes.size ∧ j < d.right.shapes.size

/-- Lists of numbers that stand for each other below the old sizes are old. -/
theorem old_of_forall₂ {is js : List ShapeId} (h : List.Forall₂ d.outer is js)
    (hi : List.Forall₂ (Below d.left.shapes.size) is is)
    (hj : List.Forall₂ (Below d.right.shapes.size) js js) : List.Forall₂ d.Old is js := by
  induction h with
  | nil => exact .nil
  | cons hij _ ih =>
    cases hi with
    | cons hi his =>
      cases hj with
      | cons hj hjs => exact .cons ⟨hij, hi.2, hj.2⟩ (ih his hjs)

/-- Such shapes that were resolved. -/
def OldResolved (d : Duo) (i j : ShapeId) : Prop :=
  d.Old i j ∧ d.left.IsResolved i ∧ d.right.IsResolved j

/-- Old shapes that are found resolved were resolved when the runs began. -/
theorem Together.oldResolved {s t : Store} (hst : d.Together w s t) {i j : ShapeId}
    (hij : d.Old i j) (hs : s.IsResolved i) (ht : t.IsResolved j) : d.OldResolved i j :=
  ⟨hij, fun a ha => hs a ((hst.left.old i hij.2.1).trans ha),
    fun b hb => ht b ((hst.right.old j hij.2.2).trans hb)⟩

/-- Two runs in which the same declarations are found, up to the numbers of shapes. -/
structure IsLevel (d : Duo) : Prop where
  leftReady : d.left.Ready d.settings
  rightReady : d.right.Ready d.settings
  alike : Alike d.outer d.left d.right
  imports : ∀ n, (Fragment.loaders n).Imports d.settings (d.left.sources d.settings)
    (fun k => Dict.has k d.left.fragments) d.allowed

namespace IsLevel

variable (h : d.IsLevel)
include h

/-- The file of the compared shapes is cached on the left. -/
theorem cachedLeft : Dict.has d.path.key d.left.fragments := h.leftReady.cached d.begunLeft

/-- And it is cached on the right. -/
theorem cachedRight : Dict.has d.path.key d.right.fragments := h.rightReady.cached d.begunRight

variable {o : Owner} (ho : o.location = d.path)

/-- The loaders of both runs agree, whatever bounds they have. -/
theorem loadersAgree (n m : Nat) :
    d.comparison.LoadersAgree (Fragment.loaders n) (Fragment.loaders m) :=
  d.loadersAgree (Fragment.framed_loaders d.root n) (Fragment.framed_loaders d.root m)
    (fun _ hk => hk) (h.imports n)

include ho

/-- A name denotes the shapes that it denoted when the runs began. -/
theorem lookup (w : Progress) (library : Option String) (name : String) :
    d.comparison.Agree w (Resolution.lookup o library name) (Resolution.lookup o library name)
      fun _ => d.Old := by
  refine agree_of_ok fun s t i s' j t' hst hx hy _ => ?_
  obtain ⟨hi, rfl⟩ := Resolution.denoted_of_lookup hx
  obtain ⟨hj, rfl⟩ := Resolution.denoted_of_lookup hy
  rw [ho, (hst.left.later h.leftReady.tracked).denoted? h.leftReady d.normal h.cachedLeft] at hi
  rw [ho, (hst.right.later h.rightReady.tracked).denoted? h.rightReady d.normal h.cachedRight] at hj
  have hij :=
    h.alike.denoted h.leftReady h.rightReady d.normal h.cachedLeft h.cachedRight library name
  rw [hi, hj, Option.rel_some_some] at hij
  exact ⟨w, le_rfl, hst, hij, h.leftReady.denoted_lt hi, h.rightReady.denoted_lt hj⟩

/-- The names in an expression are expanded alike. -/
theorem expands : d.comparison.Expands o where
  addShape w a b _ hab hnew hloc := Duo.addShape w a b hab hnew (hloc.trans ho)
  lookup w library name _ := (h.lookup ho w library name).imp fun _ _ _ _ hij => .inr hij.1

/-- Raw facets are applied alike. -/
theorem overlays : d.comparison.Overlays o where
  toDeclares := ho ▸ d.declares
  declare w name node hw := by
    refine .see (P := fun _ => True) (fun s t hst => ⟨?_, trivial⟩) fun n _ => ?_
    · rw [loadDepth, loadDepth, files_eq_of_sources hst.sources_eq]
    · have hdeclares : d.comparison.Declares o.location := ho ▸ d.declares
      exact hdeclares.build (h.loadersAgree n n).dataType w hw name node

omit ho in
/-- Shapes that were resolved when the runs began have related bodies. -/
theorem bodyOf {s t : Store} (hst : d.Together w s t) {i j : ShapeId} (hij : d.OldResolved i j) :
    d.comparison.BodyOfRel w (s.bodyOf i) (t.bodyOf j) := by
  obtain ⟨⟨hij, hi, hj⟩, hs, ht⟩ := hij
  rw [(hst.left.later h.leftReady.tracked).bodyOf hi hs,
    (hst.right.later h.rightReady.tracked).bodyOf hj ht]
  exact ⟨(h.alike.bodies i j hij hi hj hs ht).mono fun _ _ => .inr, hs.kind⟩

/-- Taking over the body of a shape that was resolved when the runs began. -/
theorem takeOver (w : Progress) {i j : ShapeId} (hij : d.Old i j) (facets : List (String × Node)) :
    d.comparison.Agree w
      (do Load.ifResolved i; Resolution.finish o facets [i] [] (← Load.ask (·.bodyOf i)))
      (do Load.ifResolved j; Resolution.finish o facets [j] [] (← Load.ask (·.bodyOf j)))
      d.comparison.ResolutionRel := by
  refine agree_of_ok fun s t r s' r' t' hst hx hy hfinal => ?_
  obtain ⟨_, _, hs, hx'⟩ := Load.bind_eq_ok.1 hx
  obtain ⟨_, _, ht, hy'⟩ := Load.bind_eq_ok.1 hy
  obtain ⟨hs, rfl⟩ := Load.resolved_of_ifResolved hs
  obtain ⟨ht, rfl⟩ := Load.resolved_of_ifResolved ht
  obtain ⟨hbody, hkind⟩ := h.bodyOf hst (hst.oldResolved hij hs ht)
  have hids : List.Forall₂ (d.comparison.ids w) [i] [j] := .cons (.inr hij.1) .nil
  exact exists_together ((h.overlays ho).finish w ho facets hids .nil hbody hkind) hst hx' hy'
    hfinal

/-- A type expression resolves alike, once the names in it are resolved in both stores. -/
theorem ofExpr (w : Progress) (facets : List (String × Node)) (e : Expr) :
    d.comparison.Agree w (Resolution.ofExpr Load.ifResolved o facets e)
      (Resolution.ofExpr Load.ifResolved o facets e) d.comparison.ResolutionRel := by
  have hexpands := h.expands ho
  have hoverlays := h.overlays ho
  cases e with
  | ref library name =>
    exact .bind (h.lookup ho w library name) fun w' i j _ hij => h.takeOver ho w' hij facets
  | builtin k => exact hoverlays.finish w ho facets .nil .nil (.emptyD k) (Body.emptyD_kind k)
  | array inner =>
    refine .bind (hexpands.part inner w ho) fun w' ⟨i, ns⟩ ⟨j, ms⟩ _ ⟨hi, hn⟩ => ?_
    exact hoverlays.finish w' ho facets .nil hn (.array _ (.some hi)) (by rintro ⟨⟩)
  | optional inner =>
    refine .bind (hexpands.part inner w ho) fun w₁ ⟨i, ns⟩ ⟨j, ms⟩ _ ⟨hi, hn⟩ => ?_
    refine .bind (hexpands.fresh w₁ ho .nil (by rintro ⟨⟩)) fun w₂ k l hw₂ hk => ?_
    exact hoverlays.finish w₂ ho facets .nil (Comparison.allIds_mono hw₂ hn)
      (.union (.cons (.mono hw₂ hi) (.cons hk .nil))) (by rintro ⟨⟩)
  | union members =>
    refine .bind (hexpands.parts members w ho) fun w' ⟨is, ns⟩ ⟨js, ms⟩ _ ⟨hi, hn⟩ => ?_
    exact hoverlays.finish w' ho facets .nil hn (.union hi) (by rintro ⟨⟩)

omit ho in
/-- A data type that was cached when the runs began. -/
theorem dataType (w : Progress) {p : Path} (hp : p.IsNormal d.settings.root)
    (hleft : Dict.has p.key d.left.fragments) (hright : Dict.has p.key d.right.fragments) :
    d.comparison.Agree w (Load.dataType p) (Load.dataType p) fun _ x y =>
      d.Old x.shape y.shape := by
  refine agree_of_ok fun s t x s' y t' hst hx hy _ => ?_
  have hs : s.normalize p = p := normalize_of_isNormal hst.left.tracked.settings_eq hp
  have ht : t.normalize p = p := normalize_of_isNormal hst.right.tracked.settings_eq hp
  obtain ⟨hx, rfl⟩ := Load.cached_of_dataType hs (hst.left.has hleft) hx
  obtain ⟨hy, rfl⟩ := Load.cached_of_dataType ht (hst.right.has hright) hy
  rw [(hst.left.later h.leftReady.tracked).find?_fragments hleft] at hx
  rw [(hst.right.later h.rightReady.tracked).find?_fragments hright] at hy
  have hxy := (h.alike.index _ hleft hright).fragments
  rw [hx, hy, Option.rel_some_some] at hxy
  cases hxy with
  | dataType hxy =>
    exact ⟨w, le_rfl, hst, hxy.shape, h.leftReady.closed.dataType_lt hx,
      h.rightReady.closed.dataType_lt hy⟩

/-- A reference to a file resolves alike. -/
theorem ofLink (w : Progress) (facets : List (String × Node)) {link : Option Path}
    (hlink : ∀ p, link = some p → p.IsNormal d.settings.root ∧ Dict.has p.key d.left.fragments ∧
      Dict.has p.key d.right.fragments) :
    d.comparison.Agree w (Resolution.ofLink Load.ifResolved o facets link)
      (Resolution.ofLink Load.ifResolved o facets link) d.comparison.ResolutionRel := by
  cases link with
  | none => exact .fail _
  | some p =>
    obtain ⟨hp, hleft, hright⟩ := hlink p rfl
    refine .bind (h.dataType w hp hleft hright) fun w' x y _ hxy => ?_
    exact h.takeOver ho w' hxy facets

omit ho in
/-- Shapes that were resolved when the runs began have the same names and the same kinds. -/
theorem kinds {s t : Store} (hst : d.Together w s t) {is js : List ShapeId}
    (hij : List.Forall₂ d.OldResolved is js) : Resolution.kinds t js = Resolution.kinds s is := by
  refine Store.kinds_congr (fun i j hij => ?_) hij
  have hkind := (h.bodyOf hst hij).1.kind
  obtain ⟨⟨hij, hi, hj⟩, -, -⟩ := hij
  have hname := h.alike.names i j hij hi hj
  rw [← (hst.left.later h.leftReady.tracked).nameOf? hi,
    ← (hst.right.later h.rightReady.tracked).nameOf? hj] at hname
  have ha := Array.getElem?_eq_getElem (Nat.lt_of_lt_of_le hi hst.left.size_le)
  have hb := Array.getElem?_eq_getElem (Nat.lt_of_lt_of_le hj hst.right.size_le)
  rw [Store.nameOf?, Store.nameOf?, ha, hb] at hname
  rw [Store.bodyOf, Store.bodyOf, ha, hb] at hkind
  exact ⟨_, _, ha, hb, Option.some.inj hname, hkind⟩

omit h ho in
/-- Both runs report parents of different kinds. -/
theorem reportDivergence (w : Progress) (kinds : List (String × String)) :
    d.comparison.Agree w (Resolution.reportDivergence o kinds) (Resolution.reportDivergence o kinds)
      fun _ _ _ => True := by
  unfold Resolution.reportDivergence
  split
  · exact d.declares.report w _ nofun
  · exact .pure trivial

omit ho in
/-- Parents that were resolved when the runs began give related bodies. -/
theorem parentBody {s t : Store} (hst : d.Together w s t) {is js : List ShapeId}
    (hij : List.Forall₂ d.OldResolved is js) :
    d.comparison.BodyOfRel w (s.parentBody is) (t.parentBody js) := by
  cases hij with
  | nil => exact ⟨.any, nofun⟩
  | cons hij _ =>
    obtain ⟨hbody, hkind⟩ := h.bodyOf hst hij
    exact ⟨hbody.blank, fun hu => hkind (Body.blank_kind _ ▸ hu)⟩

omit h ho in
/-- The parents of a declaration must have been resolved when the runs began. -/
theorem each (w : Progress) {is js : List ShapeId} (hij : List.Forall₂ d.Old is js) :
    d.comparison.Agree w (Resolution.each Load.ifResolved is) (Resolution.each Load.ifResolved js)
      fun _ _ _ => List.Forall₂ d.OldResolved is js := by
  refine agree_of_ok fun s t _ s' _ t' hst hx hy _ => ?_
  obtain ⟨hs, rfl⟩ := Resolution.resolved_of_each hx
  obtain ⟨ht, rfl⟩ := Resolution.resolved_of_each hy
  refine ⟨w, le_rfl, hst, ?_⟩
  clear hx hy
  induction hij with
  | nil => exact .nil
  | cons hij _ ih =>
    obtain ⟨hi, hs⟩ := List.forall_mem_cons.1 hs
    obtain ⟨hj, ht⟩ := List.forall_mem_cons.1 ht
    exact .cons (hst.oldResolved hij hi hj) (ih hs ht)

/-- A list of parents resolves alike, once they are resolved in both stores. -/
theorem ofParents (w : Progress) (facets : List (String × Node)) {is js : List ShapeId}
    (hij : List.Forall₂ d.Old is js) :
    d.comparison.Agree w (Resolution.ofParents Load.ifResolved o facets is)
      (Resolution.ofParents Load.ifResolved o facets js) d.comparison.ResolutionRel := by
  refine .bind (each w hij) fun w₁ _ _ hw₁ hall => ?_
  refine .see (P := fun _ => True) (fun s t hst => ⟨h.kinds hst hall, trivial⟩) fun kinds _ => ?_
  refine .bind (reportDivergence w₁ kinds) fun w₂ _ _ _ _ => ?_
  refine .bind (.ask (Q := d.comparison.BodyOfRel) fun s t hst => h.parentBody hst hall) ?_
  rintro w₃ a b _ ⟨hab, hk⟩
  exact (h.overlays ho).finish w₃ ho facets .nil .nil hab hk

omit ho in
/-- The runs find related declarations of the file, and evaluate them. -/
theorem ofPending (w : Progress) {i j : ShapeId} {a b : Shape} (ha : d.left.shapes[i]? = some a)
    (hb : d.right.shapes[j]? = some b) (hab : a.Rel d.outer b) (hloc : a.location = d.path)
    (p : Pending) :
    d.comparison.Agree w (Resolution.ofPending Load.ifResolved a.owner a p)
      (Resolution.ofPending Load.ifResolved b.owner b p) d.comparison.ResolutionRel := by
  have howner : b.owner = a.owner := by
    rw [Shape.owner, Shape.owner, hab.name, hab.location, hab.mark]
  rw [howner]
  unfold Resolution.ofPending
  split
  · rw [hab.link]
    refine h.ofLink hloc w p.facets fun q hq => ?_
    obtain ⟨hq', hbegun⟩ := h.leftReady.tracked.links i a q ha hq
    obtain ⟨-, hbegun'⟩ := h.rightReady.tracked.links j b q hb (hab.link.trans hq)
    exact ⟨hq', h.leftReady.cached hbegun, h.rightReady.cached hbegun'⟩
  · refine h.ofParents hloc w p.facets (old_of_forall₂ hab.inherits ?_ ?_)
    · exact (h.leftReady.closed.shapes i a ha).inherits
    · exact (h.rightReady.closed.shapes j b hb).inherits
  · split
    · exact h.ofExpr hloc w p.facets _
    · exact .fail _

end IsLevel

end Duo

end RamlTypes
