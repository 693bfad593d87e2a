import RamlTypes.Proofs.Equations.Requests
import RamlTypes.Proofs.Preservation.Evaluations
import RamlTypes.Proofs.Termination.Evaluations

/-!
# The resolution of a shape lowers the work

A resolution that begins settles its shape, and the weight of the shape pays for the raw facets. So
what is left to do when the types inside an expression are resolved is less than before
(`Store.finishes_resolving`), and so it is when another call is made (`Store.within_of_makes`).
Hence a bound on the depth above the debt is not reached (`Store.finishes_resolveWithin`), and one
on the number of shapes taken from the work list above the work is not either
(`Store.finishes_drain`).
-/

namespace RamlTypes

namespace Store

variable {s t : Store} {i : ShapeId} {q b n : Nat}

/-- A resolution that begins cannot begin once more. -/
theorem settles_beginResolution (s : Store) (i : ShapeId) : s.Settles (s.beginResolution i) :=
  { Settles.refl s with
    slots := fun j => by
      rw [slotWeight, slotWeight]
      split
      · exact Nat.zero_le _
      · next h =>
        rw [if_neg fun h' => h ?_]
        · exact Nat.le_refl _
        · rw [Bool.or_eq_true] at h' ⊢
          refine h'.imp id fun hj => ?_
          rw [isInProgress, List.contains_iff_mem] at hj ⊢
          exact List.mem_cons_of_mem _ hj }

/-- A shape in progress weighs nothing. -/
theorem slotWeight_beginResolution (s : Store) (i : ShapeId) :
    (s.beginResolution i).slotWeight i = 0 := by
  rw [slotWeight, if_pos]
  rw [Bool.or_eq_true]
  refine .inr ?_
  rw [isInProgress, List.contains_iff_mem]
  exact List.mem_cons_self

/-- The weight of a shape whose resolution can begin. -/
theorem slotWeight_of_claim {a : Shape} {p : Pending} (h : s.claim i = .ok (some (a, p))) :
    s.slotWeight i = 1 + facetsWeight p.facets := by
  obtain ⟨ha, hp, hwait⟩ := waits_of_claim h
  rw [slotWeight, if_neg, ha]
  · exact Shape.weight_of_pending hp
  · rw [Bool.or_eq_true, isFailed, isInProgress, List.contains_iff_mem, List.contains_iff_mem]
    exact fun hmem => hmem.elim hwait.notFailed hwait.notInProgress

/-- A resolution that begins pays for the raw facets of its shape. -/
theorem Within.beginResolution (hs : s.Within q b) {a : Shape} {p : Pending}
    (h : s.claim i = .ok (some (a, p))) :
    (s.beginResolution i).Within q (b - (1 + facetsWeight p.facets)) ∧
      1 + facetsWeight p.facets ≤ b := by
  have hsettles := s.settles_beginResolution i
  have hlt := (Array.getElem?_eq_some_iff.1 (waits_of_claim h).1).1
  have hpaid := hsettles.work_add_slotWeight_le (s.slotWeight_beginResolution i) hlt
  rw [slotWeight_of_claim h] at hpaid
  have hwork := hs.work
  exact ⟨⟨hs.root, hs.loading, hs.queue, by omega⟩, by omega⟩

/-- The result of an evaluation has a kind of its own, so writing it brings no work. -/
theorem settles_written (e : Evaluation) (hk : e.result.body.kind ≠ .unknown) :
    e.stop.Settles (written e) where
  size := (e.stop.endResolution e.id).size_mapShape _ _
  files := rfl
  free _ h := h
  queue := rfl
  slots j := by
    have hshape : (written e).shapes[j]? = if e.id = j then e.stop.shapes[j]?.map fun a =>
        { a with
          body := e.result.body
          inherits := a.inherits ++ e.result.inherits
          customFacets := Dict.putAll a.customFacets e.result.customFacets }
      else e.stop.shapes[j]? := by
      rw [written, writeResolution, getElem?_mapShape]
      rfl
    by_cases hj : e.id = j
    · rw [if_pos hj] at hshape
      rw [slotWeight, hshape]
      split
      · exact Nat.zero_le _
      · rcases e.stop.shapes[j]? with _ | a
        · exact Nat.zero_le _
        · rw [Option.map_some, Option.map_some, Option.getD_some, Shape.weight_of_not_isUnknown]
          · exact Nat.zero_le _
          · exact Shape.isUnknown_eq_false_iff.2 hk
    · rw [if_neg hj] at hshape
      have hprogress : (written e).isInProgress j = e.stop.isInProgress j := by
        rw [Bool.eq_iff_iff, isInProgress, isInProgress, List.contains_iff_mem,
          List.contains_iff_mem]
        refine ⟨fun h => (List.mem_filter.1 h).1, fun h => List.mem_filter.2 ⟨h, decide_eq_true ?_⟩⟩
        exact fun heq => hj heq.symm
      have hfailed : (written e).isFailed j = e.stop.isFailed j := rfl
      have hslot : (written e).slotWeight j = e.stop.slotWeight j := by
        rw [slotWeight, slotWeight, hshape, hprogress, hfailed]
      exact Nat.le_of_eq hslot

/-! ## Calls -/

/-- A claim needs no fuel. -/
theorem claim_ne_exhausted : s.claim i ≠ .error .exhausted := by
  rw [claim]
  split
  · simp
  · split
    · simp
    · dsimp only
      split
      · simp
      · split <;> simp

section
variable (ih : ∀ (j : ShapeId) (u : Store) (c : Nat), u.Sound j → u.Within q c → c < q + n →
  (Load.resolveWithin n j).Finishes u fun _ => Within q c)
include ih

/-- The shapes that a declaration asks for are resolved with less work left. -/
theorem finishes_asked (hs : s.Sound i) (hw : s.Within q b) (hb : b < q + (n + 1)) {a : Shape}
    {p : Pending} (h : s.claim i = .ok (some (a, p))) (j : ShapeId) (t : Store)
    (hasks : Resolution.Asks (Load.resolveWithin n) a p (s.beginResolution i) j t)
    (ht : t.Within q (b - (1 + facetsWeight p.facets))) :
    (Load.resolveWithin n j).Finishes t fun _ => Within q (b - (1 + facetsWeight p.facets)) := by
  have hle := (hw.beginResolution h).2
  exact ih j t _ (Sound.makes (c := ⟨n + 1, i, s⟩) hs (.dependency h hasks)) ht (by omega)

/-- A resolution that begins lowers the work. -/
theorem finishes_resolving (hs : s.Sound i) (hw : s.Within q b) (hb : b < q + (n + 1)) {a : Shape}
    {p : Pending} (h : s.claim i = .ok (some (a, p))) :
    (Load.resolving i (Load.evaluateWithin n)).Finishes s fun _ t => t.Within q (b - 1) := by
  obtain ⟨hbegin, hle⟩ := hw.beginResolution h
  have heval : (Load.evaluateWithin n a p).Finishes (s.beginResolution i)
      fun _ => Within q (b - (1 + facetsWeight p.facets) + facetsWeight p.facets) :=
    Resolution.finishes_ofPending (finishes_asked ih hs hw hb h) hbegin
  have hrun := Load.resolving_apply i (Load.evaluateWithin n) s
  rw [h] at hrun
  dsimp only at hrun
  rcases hr : Load.evaluateWithin n a p (s.beginResolution i) with ⟨f | r, t⟩
  all_goals rw [hr] at hrun
  · exact .of_run_error hrun (heval.ne_exhausted hr)
  · refine .of_run_ok hrun ?_
    let e : Evaluation := ⟨i, n, s, a, p, r, t, h, hr⟩
    obtain ⟨-, -, -, -, -, -, -, -, -, hk⟩ := Sound.evaluation (e := e) hs
    have hsettles := settles_written e hk
    have ht := heval.of_ok hr
    have hwork : t.work ≤ b - 1 := Nat.le_trans ht.work (by omega)
    exact ⟨ht.root, ht.loading, ht.queue, Nat.le_trans hsettles.work_le hwork⟩

/-- Some of the types inside an expression are resolved, after others and before others. -/
theorem finishes_resolveIdle (hs : s.Sound i) {m : Store} {c : Nat} (hc : c < q + n)
    (ids after : List ShapeId) :
    ∀ (before : List ShapeId) {t : Store},
    Load.resolving i (Load.evaluateWithin n) s = (.ok (before ++ (ids ++ after)), m) →
    Load.resolveIdle (Load.resolveWithin n) before m = (.ok (), t) → t.Within q c →
    (Load.resolveIdle (Load.resolveWithin n) ids).Finishes t fun _ => Within q c := by
  induction ids with
  | nil => exact fun _ _ _ _ ht => .pure ht
  | cons j rest ihrest =>
    intro before t heval hbefore ht
    have hidle : (Load.unlessResolving j (Load.resolveWithin n j)).Finishes t
        fun _ => Within q c := by
      refine .ask ?_
      cases hidle : t.isInProgress j with
      | true => exact .pure ht
      | false =>
        have hm : Call.Makes ⟨n + 1, i, s⟩ ⟨n, j, t⟩ := .nested heval hbefore hidle
        exact ih j t c (hs.makes hm) ht hc
    refine hidle.bind_run fun _ u hu hw => ?_
    exact ihrest _ (by rwa [List.append_assoc]) (resolveIdle_concat hbefore hu) hw

end

/-- A bound on the depth above the debt is not reached. -/
theorem finishes_resolveWithin (n : Nat) : ∀ (i : ShapeId) (s : Store) (b : Nat), s.Sound i →
    s.Within q b → b < q + n → (Load.resolveWithin n i).Finishes s fun _ => Within q b := by
  induction n with
  | zero =>
    intro i s b _ hw hb
    have hdebt := hw.debt_add_le
    omega
  | succ n ih =>
    intro i s b hs hw hb
    have hrun := Load.resolving_apply i (Load.evaluateWithin n) s
    rcases hclaim : s.claim i with f | (_ | ⟨a, p⟩)
    · rw [hclaim] at hrun
      exact .of_run_error (Load.bind_of_error hrun _) fun hf => claim_ne_exhausted (hf ▸ hclaim)
    · rw [hclaim] at hrun
      exact .of_run_ok ((Load.bind_of_ok hrun _).trans rfl) hw
    · have hle := (hw.beginResolution hclaim).2
      refine (finishes_resolving ih hs hw hb hclaim).bind_run fun ns t ht hlower => ?_
      have hall : Load.resolving i (Load.evaluateWithin n) s = (.ok ([] ++ (ns ++ [])), t) := by
        rwa [List.append_nil]
      have hidle := finishes_resolveIdle ih hs (c := b - 1) (by omega) ns [] [] hall rfl hlower
      exact hidle.imp fun _ _ hu => hu.mono (Nat.sub_le _ _)

/-- A call begins a resolution before it makes another call, so less work is left then. -/
theorem within_of_makes {c c' : Call} (hs : c.store.Sound c.id) (hw : c.store.Within q b)
    (hb : b < q + c.depth) (hm : c.Makes c') : c'.store.Within q (b - 1) ∧ 0 < b := by
  cases hm with
  | @dependency n i j s t a p hclaim hasks =>
    obtain ⟨hbegin, hle⟩ := hw.beginResolution hclaim
    have hr := finishes_asked (finishes_resolveWithin n) hs hw hb hclaim
    have ht : t.Within q (b - (1 + facetsWeight p.facets)) := by
      cases hasks with
      | reference _ _ _ => exact hbegin
      | link _ _ hloaded =>
        exact ((Load.isFreeAt_dataType hbegin.root hbegin.loading _).within hbegin).of_ok hloaded
      | parent hp hparents hbefore =>
        exact (Resolution.finishes_each hr hp _ _ [] hparents rfl hbegin).of_ok hbefore
    exact ⟨ht.mono (by omega), by omega⟩
  | @nested n i j s t u before after heval hbefore _ =>
    obtain ⟨a, p, hclaim⟩ := Call.Makes.exists_claimed (.nested heval hbefore ‹_›)
    have hle := (hw.beginResolution hclaim).2
    have hlower := (finishes_resolving (finishes_resolveWithin n) hs hw hb hclaim).of_ok heval
    have hidle := finishes_resolveIdle (finishes_resolveWithin n) hs (c := b - 1)
      (by dsimp only at hb; omega) before (j :: after) [] heval rfl hlower
    exact ⟨hidle.of_ok hbefore, by omega⟩

/-! ## The work list -/

/-- In a request of the store `base` the work list is being resolved, and there is no more debt than
`depth`. -/
structure Draining (base : Store) (depth : Nat) (s : Store) : Prop where
  underway : ∃ w, base.Underway (fun _ => True) .declaring w s
  inProgress : s.inProgress = []
  root : s.settings.root.isAbsolute
  loading : s.loading = []
  debt : s.debt ≤ depth

/-- To take a shape from the queue is one piece of work. -/
theorem work_popUnresolved {rest : List ShapeId} (hq : s.unresolved = i :: rest) :
    s.popUnresolved.work + 1 = s.work := by
  have hdebt : s.popUnresolved.debt = s.debt := rfl
  have hqueue : s.popUnresolved.unresolved = rest := by
    rw [popUnresolved, hq]
    rfl
  rw [work, work, hdebt, hqueue, hq, List.length_cons]
  omega

section
variable {base : Store} {depth : Nat} {rest : List ShapeId} (h : base.Draining depth s)
  (hq : s.unresolved = i :: rest)
include h hq

/-- The first shape of the work list can be resolved. -/
theorem Draining.sound : s.popUnresolved.Sound i := by
  obtain ⟨w, hw⟩ := h.underway
  exact ⟨base, _, .resolving i, w, nofun, hw.popUnresolved hq, hw.queue i (hq ▸ List.mem_cons_self)⟩

/-- Taking it from the work list and resolving it lowers the work. -/
theorem Draining.finishes_first :
    (Load.unlessFailed i (Load.resolveWithin (depth + 1) i)).Finishes s.popUnresolved
      fun _ t => base.Draining depth t ∧ t.work < s.work := by
  have hpop := work_popUnresolved hq
  have hdebt : s.popUnresolved.debt = s.debt := rfl
  have hwork : s.popUnresolved.work = s.popUnresolved.unresolved.length + s.debt := rfl
  have hw : s.popUnresolved.Within s.popUnresolved.unresolved.length s.popUnresolved.work :=
    ⟨h.root, h.loading, Nat.le_refl _, Nat.le_refl _⟩
  have hresolve : (Load.unlessFailed i (Load.resolveWithin (depth + 1) i)).Finishes s.popUnresolved
      fun _ => Within s.popUnresolved.unresolved.length s.popUnresolved.work := by
    refine .ask ?_
    cases s.popUnresolved.isFailed i with
    | true => exact .pure hw
    | false =>
      have hle := h.debt
      exact finishes_resolveWithin (depth + 1) i _ _ (h.sound hq) hw (by omega)
  refine hresolve.imp_run fun _ t hr ht => ?_
  obtain ⟨w, hunderway⟩ := h.underway
  obtain ⟨⟨w', -, hw'⟩, hidle⟩ := (hunderway.resolveFirst h.inProgress hq depth).of_ok hr
  have hle := h.debt
  have htdebt := ht.debt_add_le
  have htwork := ht.work
  exact ⟨⟨⟨w', hw'⟩, hidle, ht.root, ht.loading, by omega⟩, by omega⟩

end

/-- A bound on the number of shapes above the work is not reached. -/
theorem finishes_drain {base : Store} (depth n : Nat) : ∀ {s : Store}, base.Draining depth s →
    s.work < n → (Load.drain (depth + 1) n).Finishes s fun _ t => base.Draining depth t := by
  induction n with
  | zero => exact fun _ hn => absurd hn (Nat.not_lt_zero _)
  | succ n ih =>
    intro s hs hn
    refine .ask ?_
    split
    · exact .pure hs
    · next i rest hq =>
      refine .change ((hs.finishes_first hq).bind fun _ t ht => ih ht.1 ?_)
      exact Nat.lt_of_lt_of_le ht.2 (Nat.le_of_lt_succ hn)

/-! ## Annotations -/

/-- Binding the annotations of examples costs nothing. -/
theorem isFree_bindExamples {d : Nat} (location : Path) (examples : List Example) :
    (Load.bindExamples location examples).IsFree d := by
  induction examples with
  | nil => exact .pure (Nat.le_refl _)
  | cons e rest ih =>
    refine .bind (AnnotationUse.isFree_bindAll _ _) fun r => ?_
    obtain ⟨annotations, fault⟩ := r
    cases fault with
    | some f => exact .pure (Nat.le_refl _)
    | none => exact .bind ih fun _ => .pure (Nat.le_refl _)

/-- So for those of a shape. -/
theorem isFree_bindShape {d : Nat} (a : Shape) : (Load.bindShape a).IsFree d := by
  have hwrite (annotations : Dict String AnnotationUse) (examples : List Example) :
      (Load.writeAnnotations a.id annotations examples).IsFree d :=
    .change fun s => .mapShape s a.id fun _ => rfl
  refine .bind (AnnotationUse.isFree_bindAll _ _) fun r => ?_
  obtain ⟨annotations, fault⟩ := r
  cases fault with
  | some f => exact .bind (hwrite _ _) fun _ => .fail f
  | none =>
    refine .bind (isFree_bindExamples _ _) fun r => ?_
    obtain ⟨examples, fault⟩ := r
    refine .bind (hwrite _ _) fun _ => ?_
    cases fault with
    | some f => exact .fail f
    | none => exact .pure (Nat.le_refl _)

/-- So for those of all shapes. -/
theorem isFree_bindAnnotations {d : Nat} : Load.bindAnnotations.IsFree d := by
  refine .ask fun shapes => .bind ?_ fun _ => .change fun s => { Settles.refl s with }
  induction shapes with
  | nil => exact .pure (Nat.le_refl _)
  | cons a rest ih => exact .bind (isFree_bindShape a) fun _ => ih

/-! ## Requests -/

/-- The bounds that the potential gives are not reached. -/
theorem finishes_resolveAll {base : Store} (hs : base.Draining s.potential s) :
    Load.resolveAll.Finishes s fun _ _ => True := by
  have hdrain : Load.drainAll.Finishes s fun _ t => base.Draining s.potential t := by
    refine .ask (.ask (finishes_drain _ _ hs ?_))
    have hdebt := hs.debt
    rw [work]
    omega
  refine hdrain.bind fun _ t ht => ?_
  exact (isFree_bindAnnotations t ht.root (Nat.lt_succ_self _)).imp fun _ _ _ => trivial

section
variable (hs : s.Coherent) (hroot : s.settings.root.isAbsolute)
include hs hroot

/-- The work list can be resolved between two requests, -/
theorem Coherent.draining : s.Draining s.potential s :=
  ⟨⟨_, hs.underway s.mentions_true⟩, hs.inProgress, hroot, hs.loading, debt_le_potential hs.ids⟩

/-- and when a fragment is loaded. -/
theorem Coherent.draining_of_fragment {p : Path} {f : Fragment}
    (hf : Load.fragment p s = (.ok f, t)) : s.Draining t.potential t := by
  have hloads : (s.since (fun _ => True) .declaring).Loads _ := since_loads nofun
  have hends := (hs.underway s.mentions_true).endsIn (hloads.fragment (.start s) p)
  obtain ⟨w, -, hw, -⟩ := hends.of_ok hf
  have hgrows := Load.grows_of_apply hf
  exact ⟨⟨w, hw⟩, hgrows.inProgress.trans hs.inProgress, hgrows.settings ▸ hroot,
    List.subset_nil.1 (hs.loading ▸ hgrows.loading), debt_le_potential hw.ids⟩

/-- A request to resolve ends. -/
theorem finishes_resolve (i : ShapeId) : (Load.resolve i).Finishes s fun _ _ => True := by
  rcases Nat.lt_or_ge i s.shapes.size with hi | hi
  · have hsound : s.Sound i :=
      ⟨s, _, .declaring, .start s, nofun, hs.underway s.mentions_true, hi⟩
    have hw : s.Within s.unresolved.length s.work :=
      ⟨hroot, hs.loading, Nat.le_refl _, Nat.le_refl _⟩
    refine .ask ((finishes_resolveWithin _ i s _ hsound hw ?_).imp fun _ _ _ => trivial)
    have hdebt := debt_le_potential hs.ids
    rw [work]
    omega
  · exact .of_run_ok (resolve_of_size_le hi) trivial

end

end Store

end RamlTypes
