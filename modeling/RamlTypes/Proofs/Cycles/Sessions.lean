import RamlTypes.Proofs.Cycles.Calls
import RamlTypes.Proofs.Filing
import RamlTypes.Proofs.Equations.Reached

/-!
# Types that depend on themselves

A type is refused because it depends on itself only if its references lead back to it. Most of them
may be names inside of compound expressions, but it is left, and come back to, by way of a shape that
it needs and one that needs it (`Session.circle_of_cyclic`). References hold for the stores that the
request comes to. As long as the requests before it were served or taken back, names denote the same
in all of these.
-/

namespace RamlTypes

open Relation (ReflTransGen)
open Store

/-- The shape `i` needs a shape from which references lead to one that needs `i`. -/
def Circle (needs refers : ShapeId → ShapeId → Prop) (i : ShapeId) : Prop :=
  ∃ j k, needs i j ∧ ReflTransGen refers j k ∧ needs k i

/-- A circle stays one with more references. -/
theorem Circle.mono {needs refers needs' refers' : ShapeId → ShapeId → Prop} {i : ShapeId}
    (h : Circle needs refers i) (hneeds : ∀ j k, needs j k → needs' j k)
    (hrefers : ∀ j k, refers j k → refers' j k) : Circle needs' refers' i := by
  obtain ⟨j, k, hij, hjk, hki⟩ := h
  exact ⟨j, k, hneeds i j hij, ReflTransGen.mono hrefers j k hjk, hneeds k i hki⟩

namespace Call

variable {c d x y : Call} {i : ShapeId}

/-- The reference holds in the store of a call on the way from `c` to `d`. -/
def Meets (c d : Call) (refers : Store → ShapeId → ShapeId → Prop) (i j : ShapeId) : Prop :=
  ∃ x, ReflTransGen Makes c x ∧ ReflTransGen Makes x d ∧ refers x.store i j

/-- References lead from the shape of a call to those of the calls below it. -/
theorem refersTo_of_path (hs : c.store.Sound c.id) (hx : ReflTransGen Makes c x)
    (h : ReflTransGen Makes x y) (hy : ReflTransGen Makes y d) :
    ReflTransGen (c.Meets d RefersTo) x.id y.id := by
  induction h with
  | refl => exact .refl
  | @tail y z hxy hm ih =>
    have hcy : ReflTransGen Makes c y := hx.trans hxy
    refine (ih (.head hm hy)).tail ?_
    rcases hm.needs_or_refersTo (sound_of_path hs hcy) with ⟨-, hneeds⟩ | ⟨-, -, hrefers⟩
    · exact ⟨z, hcy.tail hm, hy, .needs hneeds⟩
    · exact ⟨y, hcy, .head hm hy, hrefers⟩

/-- A call for a shape that is being resolved closes a circle. -/
theorem circle_of_inProgress (hs : c.store.Sound c.id) (hidle : c.store.inProgress = [])
    (h : ReflTransGen Makes c d) (hd : d.id ∈ d.store.inProgress) :
    Circle (c.Meets d Needs) (c.Meets d RefersTo) d.id := by
  obtain ⟨d₁, d₂, h₁, hm₁, h₂, hid, hneeds⟩ := exists_needs_of_inProgress hs hidle h hd
  have hcd₂ : ReflTransGen Makes c d₂ := h₁.tail hm₁
  have hfirst : c.Meets d Needs d.id d₂.id := ⟨d₂, hcd₂, h₂, hneeds⟩
  rcases ReflTransGen.cases_tail h₂ with rfl | ⟨z, hz, hm⟩
  · exact ⟨d.id, d.id, hfirst, .refl, hfirst⟩
  · have hcz : ReflTransGen Makes c z := hcd₂.trans hz
    rcases hm.needs_or_refersTo (sound_of_path hs hcz) with ⟨-, hlast⟩ | ⟨-, hnot, -⟩
    · exact ⟨d₂.id, z.id, hfirst, refersTo_of_path hs hcd₂ hz (.single hm), d, h, .refl, hlast⟩
    · exact absurd hd hnot

end Call

namespace Store

variable {s t : Store} {i j : ShapeId}

section
variable (h : s.Filed) (hsame : s.SameIndexes t) (hprecedes : s.Precedes t)
include h hsame hprecedes

/-- What a shape needs it needs ever after. -/
theorem Needs.later (hij : s.Needs i j) : t.Needs i j := by
  cases hij with
  | reference shape unlinked declared parsed denoted =>
    obtain ⟨c, hc, hac, -⟩ := hprecedes.shapes i _ shape
    refine .reference hc (hac.link_eq.trans unlinked) (hac.declaration_eq.trans declared) parsed ?_
    rw [hac.location_eq]
    exact h.denoted?_later hsame hprecedes.settings hprecedes.nameOf? denoted
  | parent shape parent =>
    obtain ⟨c, hc, hac, -⟩ := hprecedes.shapes i _ shape
    exact .parent hc (hac.inherits.subset parent)
  | @link _ path _ shape linked cached target =>
    obtain ⟨c, hc, hac, -⟩ := hprecedes.shapes i _ shape
    have hpath : t.normalize path = s.normalize path := by
      rw [normalize, normalize, hprecedes.settings]
    refine .link hc (hac.link_eq.trans linked) ?_ target
    rw [fragment?] at cached ⊢
    rw [hpath, hsame.fragments _ (Dict.has_iff.2 ⟨_, cached⟩), cached]

/-- A reference stays as the store goes on. -/
theorem RefersTo.later (hij : s.RefersTo i j) : t.RefersTo i j := by
  cases hij with
  | needs needs => exact .needs (needs.later h hsame hprecedes)
  | mentions shape mentions denoted =>
    obtain ⟨c, hc, hac, -⟩ := hprecedes.shapes i _ shape
    refine .mentions hc (hac.mentions_iff.2 mentions) ?_
    rw [hac.location_eq]
    exact h.denoted?_later hsame hprecedes.settings hprecedes.nameOf? denoted

end

/-- In a request that begins with nothing noted but what belongs to cached files, references that hold
in the store of a call hold for all calls below. -/
theorem Circle.below {c d : Call} (hroot : s.settings.root.isAbsolute) (hs : c.store.Sound c.id)
    (hfiling : Filing s [] c.store) (h : Circle (c.Meets d Needs) (c.Meets d RefersTo) i) :
    Circle d.store.Needs d.store.RefersTo i := by
  have later {x : Call} (hx : ReflTransGen Call.Makes c x) (hd : ReflTransGen Call.Makes x d) :
      x.store.Filed ∧ x.store.SameIndexes d.store ∧ x.store.Precedes d.store := by
    obtain ⟨hsx, hJ⟩ := (keptByRuns_filing s hroot).reaches hs hfiling hx
    have hroot' : x.store.settings.root.isAbsolute := hJ.settings_eq ▸ hroot
    have hself : Filing x.store [] x.store := hJ.filed.filing (.refl _) rfl hJ.loading
    have hbelow := ((keptByRuns_filing x.store hroot').reaches hsx hself hd).2
    exact ⟨hJ.filed, hbelow.same, ((keptByRuns_precedes x.store).reaches hsx (.refl _) hd).2⟩
  refine h.mono ?_ ?_
  · rintro j k ⟨x, hx, hd, hjk⟩
    obtain ⟨hfiled, hsame, hprecedes⟩ := later hx hd
    exact hjk.later hfiled hsame hprecedes
  · rintro j k ⟨x, hx, hd, hjk⟩
    obtain ⟨hfiled, hsame, hprecedes⟩ := later hx hd
    exact hjk.later hfiled hsame hprecedes

end Store

/-! ## Requests -/

namespace Call

variable {s : Store} {c : Call} {e : Stop} {t : Store}

/-- The calls of a queue begin with what was in progress before. -/
theorem StartsDrain.inProgress {depth n : Nat} (h : StartsDrain depth n s c) :
    c.store.inProgress = s.inProgress := by
  induction h with
  | first queue notFailed => rfl
  | later queue resolved starts ih => exact ih.trans (Load.grows_of_apply resolved).inProgress

/-- Resolving the work list stops at a circle only if one of its calls does. -/
theorem exists_startsDrain (he : e.isCycle) {depth : Nat} (n : Nat) : ∀ {s : Store},
    Load.drain depth n s = (.error e, t) → ∃ c, StartsDrain depth n s c ∧
      Load.resolveWithin c.depth c.id c.store = (.error e, t) := by
  induction n with
  | zero =>
    rintro s ⟨⟩
    cases he
  | succ n ih =>
    intro s h
    rw [Load.drain, Load.ask_bind] at h
    split at h
    · cases h
    · next i rest hq =>
      rw [Load.change_bind] at h
      rcases Load.bind_eq_error.1 h with h | ⟨_, u, hu, h⟩
      · rw [Load.unlessFailed, Load.ask_bind] at h
        cases hf : s.popUnresolved.isFailed i with
        | true =>
          rw [hf] at h
          cases h
        | false =>
          rw [hf] at h
          exact ⟨_, .first hq hf, h⟩
      · obtain ⟨c, hc, hr⟩ := ih h
        exact ⟨c, .later hq hu hc, hr⟩

/-- Resolving everything stops at a circle only if a call for the work list does. -/
theorem exists_startsDrainAll (he : e.isCycle) (h : Load.resolveAll s = (.error e, t)) :
    ∃ c, StartsDrainAll s c ∧ Load.resolveWithin c.depth c.id c.store = (.error e, t) := by
  rcases Load.bind_eq_error.1 h with h | ⟨_, u, -, h⟩
  · rw [Load.drainAll, Load.ask_bind, Load.ask_bind] at h
    exact exists_startsDrain he _ h
  · have hplain : Load.bindAnnotations.IsPlain := by
      refine .bind (.ask _) fun unbound => .bind ?_ fun _ => .change _ _
      refine plain_of_agree (plain_binds.bindShapes unbound () (List.forall₂_same.2 fun a _ => ?_))
      exact ⟨.same a, rfl, trivial⟩
    cases he.symm.trans (hplain _ _ _ h)

end Call

/-- So do those of a whole request. -/
theorem Request.Starts.inProgress {s : Store} {r : Request} {c : Call} (h : r.Starts s c) :
    c.store.inProgress = s.inProgress := by
  cases h with
  | resolve i => rfl
  | resolveNamed named => rfl
  | resolveAll starts => exact starts.inProgress
  | load loaded _ starts => exact starts.inProgress.trans (Load.grows_of_apply loaded).inProgress

/-- Only a cycle is reported as a cyclic type. -/
theorem Stop.eq_cycle_of_fault? {e : Stop} {name : String} {place : Location}
    (h : e.fault? = some (.cyclicType name place)) : e = .cycle name place := by
  cases e with
  | fault f =>
    have hf := f.plain
    rw [Option.some.inj h] at hf
    cases hf
  | cycle name' place' =>
    cases h
    rfl
  | exhausted => cases h

namespace Session

variable {s : Store} {r : Request} {name : String} {place : Location}

/-- A request answers with the fault at which its action stops. -/
theorem eq_error_of_perform {α : Type} {x : Store → Except Stop α × Store} {answer : α → Answer}
    (h : (perform x answer s).1 = .fault (.cyclicType name place))
    (hanswer : ∀ a, (answer a).IsServed) : ∃ t, x s = (.error (.cycle name place), t) := by
  rw [perform] at h
  rcases hx : x s with ⟨e | a, t⟩
  · rw [hx] at h
    dsimp only at h
    rcases hf : e.fault? with _ | f <;> rw [hf] at h
    · cases h
    · cases h
      exact ⟨t, by rw [Stop.eq_cycle_of_fault? hf]⟩
  · rw [hx] at h
    exact (h ▸ hanswer a : (Answer.fault (.cyclicType name place)).IsServed).elim

/-- A request whose action stops with a fault answers with it. -/
theorem perform_fault {α : Type} {x : Store → Except Stop α × Store} {answer : α → Answer} {f : Fault}
    (h : (x s).1.mapError Stop.fault? = .error (some f)) : (perform x answer s).1 = .fault f := by
  rw [perform]
  rcases hx : x s with ⟨e | a, t⟩ <;> rw [hx] at h
  · have hf : e.fault? = some f := Except.error.inj h
    simp [hf]
  · cases h

/-- A request that answers that a type depends on itself has begun a call that stops for that reason. -/
theorem exists_starts_of_cyclic (h : (step s r).1 = .fault (.cyclicType name place)) :
    ∃ c t, r.Starts s c ∧
      Load.resolveWithin c.depth c.id c.store = (.error (.cycle name place), t) := by
  have plain {α : Type} {x : Load α} {t : Store} (hx : x.IsPlain)
      (ht : x s = (.error (.cycle name place), t)) : False := by
    cases hx _ _ _ ht
  have hcycle : (Stop.cycle name place).isCycle := rfl
  have hfragment (p : Path) : (Load.fragment p).IsPlain := plain_of_agree (plain_loads.fragment () p)
  have undone {α : Type} {x : Load α} {t : Store}
      (ht : Load.orRollback x s = (.error (.cycle name place), t)) :
      ∃ u, x s = (.error (.cycle name place), u) := by
    rw [Load.orRollback] at ht
    rcases hx : x s with ⟨e | a, u⟩ <;> rw [hx] at ht
    · cases ht
      exact ⟨u, rfl⟩
    · cases ht
  -- Reading files meets no cycle, so the request has begun to resolve a shape.
  cases r with
  | load p =>
    obtain ⟨t, ht⟩ := eq_error_of_perform h fun _ => trivial
    obtain ⟨u, hu⟩ := undone ht
    rcases Load.bind_eq_error.1 hu with hu | ⟨f, v, hv, hu⟩
    · exact (plain (hfragment p) hu).elim
    · rcases Load.bind_eq_error.1 hu with hu | ⟨_, _, -, hu⟩
      · rw [Load.resolveIfEager, Load.ask_bind] at hu
        cases he : v.settings.eagerResolution with
        | false =>
          rw [he] at hu
          cases hu
        | true =>
          rw [he] at hu
          obtain ⟨c, hc, hr⟩ := Call.exists_startsDrainAll hcycle hu
          exact ⟨c, u, .load hv he hc, hr⟩
      · cases hu
  | parse p =>
    obtain ⟨t, ht⟩ := eq_error_of_perform h fun _ => trivial
    obtain ⟨u, hu⟩ := undone ht
    exact (plain (hfragment p) hu).elim
  | library p =>
    obtain ⟨t, ht⟩ := eq_error_of_perform h fun _ => trivial
    have hlibrary := plain_loads.withLoaders () fun _ hl => plain_loads.libraryWith hl () p
    exact (plain (plain_of_agree hlibrary) ht).elim
  | dataType p =>
    obtain ⟨t, ht⟩ := eq_error_of_perform h fun _ => trivial
    exact (plain (plain_of_agree (plain_loads.dataType () p)) ht).elim
  | resolve i =>
    obtain ⟨t, ht⟩ := eq_error_of_perform h fun _ => trivial
    exact ⟨_, t, .resolve i, ht⟩
  | resolveNamed p n =>
    obtain ⟨t, ht⟩ := eq_error_of_perform h fun _ => trivial
    have ht : Load.resolveNamed p n s = (.error (.cycle name place), t) := ht
    rw [Load.resolveNamed, Load.ask_bind, Load.ask_bind] at ht
    split at ht
    · cases ht
    · next i hi =>
      rcases Load.bind_eq_error.1 ht with ht | ⟨_, _, -, ht⟩
      · exact ⟨_, t, .resolveNamed hi, ht⟩
      · cases ht
  | resolveAll =>
    obtain ⟨t, ht⟩ := eq_error_of_perform h fun _ => trivial
    obtain ⟨c, hc, hr⟩ := Call.exists_startsDrainAll hcycle ht
    exact ⟨c, t, .resolveAll hc, hr⟩
  | declare p n node =>
    obtain ⟨t, ht⟩ := eq_error_of_perform h fun _ => trivial
    have hdeclare := plain_loads.declare (plain_declares p) () trivial n node
    exact (plain (plain_of_agree hdeclare) ht).elim
  | write p text => cases h

/-- Each request of the list is served, or it leaves nothing behind where it fails. -/
def AllClean : Store → List Request → Prop
  | _, [] => True
  | s, r :: rest => (r.IsUndone ∨ (step s r).1.IsServed) ∧ AllClean (step s r).2 rest

/-- After such requests, what is noted of the cached files is what their fragments list. -/
theorem filed_of_allClean (rs : List Request) : ∀ {s : Store}, s.Coherent →
    s.settings.root.isAbsolute → s.Filed → AllClean s rs → (run s rs).Filed := by
  induction rs with
  | nil => exact fun _ _ h _ => h
  | cons r rest ih =>
    intro s hs hroot h hall
    have hstep : Filing s [] (step s r).2 := by
      rcases hall.1 with hr | hr
      · exact filing_step hs hroot h hr
      · have hfiling : Filing s [] s := h.filing (.refl s) rfl hs.loading
        have hwork := (keptByRuns_filing s hroot).requests.work hs hfiling r
        have houtcome := outcome_step s r
        generalize (step s r).1 = a at houtcome hr
        generalize (step s r).2 = t at houtcome ⊢
        cases houtcome with
        | written p text => exact hfiling.unnoted { s with files := s.files.write p text }
        | served hw _ => exact hwork.of_ok hw
        | stopped _ refused | undone _ refused => exact absurd hr refused
    exact ih (keeps_step hs r).coherent (hstep.settings_eq ▸ hroot) hstep.filed hall.2

/-- Whatever was requested before, a request answers that a type depends on itself only if the type
needs one from which references lead to one that needs it. So this is never the answer where the
references of no type lead back to it in that way. If the requests before were served or taken back,
all these references hold in the store in which the circle is found. -/
theorem circle_of_cyclic (settings : LoadSettings) (files : Files) (before : List Request)
    (r : Request) (name : String) (place : Location) :
    let s := run (.empty settings files) before
    (step s r).1 = .fault (.cyclicType name place) →
      ∃ c d a, r.Starts s c ∧ ReflTransGen Call.Makes c d ∧ d.store.shapes[d.id]? = some a ∧
        a.name = name ∧ ⟨a.location, a.mark⟩ = place ∧
        Circle (c.Meets d Needs) (c.Meets d RefersTo) d.id ∧
        (settings.root.isAbsolute → AllClean (.empty settings files) before →
          Circle d.store.Needs d.store.RefersTo d.id) := by
  intro s hcyclic
  have hempty := coherent_empty settings files
  obtain ⟨hs, hsettings⟩ := coherent_run before hempty
  obtain ⟨c, t, hstarts, hr⟩ := exists_starts_of_cyclic hcyclic
  obtain ⟨d, hcd, hclaim⟩ := exists_call_of_cycle rfl c.depth c.id c.store hr
  obtain ⟨hprogress, a, ha, hname, hplace⟩ := exists_of_claim_cycle hclaim
  have hlt := Call.id_lt_of_makes hcd (Array.getElem?_eq_some_iff.1 ha).1
  have hsound : c.store.Sound c.id := ⟨s, hstarts.sound hs hlt⟩
  have hcircle := Call.circle_of_inProgress hsound (hstarts.inProgress.trans hs.inProgress) hcd hprogress
  refine ⟨c, d, a, hstarts, hcd, ha, hname, hplace, hcircle, fun hroot hclean => ?_⟩
  have hroot' : s.settings.root.isAbsolute := hsettings ▸ hroot
  have hfiled : s.Filed := filed_of_allClean before hempty hroot (filed_empty settings files) hclean
  have hself : Filing s [] s := hfiled.filing (.refl s) rfl hs.loading
  have hfiling := ((keptByRuns_filing s hroot').startsCall hs hself hstarts hlt).2
  exact Circle.below hroot' hsound hfiling hcircle

/-- `Cell` is only named inside of the expression of `Row`, but it is resolved while `Node` is. -/
theorem circle_of_cyclic_node :
    let p : Path := ⟨"/lib.raml"⟩
    let text := "#%RAML 1.0 Library\ntypes:\n  Node: Row\n  Row: Cell[]\n  Cell: Node\n"
    let settings : LoadSettings := ⟨⟨"/"⟩, false, false⟩
    let s := run (.empty settings (.memory [(p, text)])) [.load p]
    let r : Request := .resolveNamed p "Node"
    let place : Location := ⟨p, ⟨3, 9⟩⟩
    (step s r).1 = .fault (.cyclicType "Node" place) ∧
      ∃ c d a, r.Starts s c ∧ ReflTransGen Call.Makes c d ∧ d.store.shapes[d.id]? = some a ∧
        a.name = "Node" ∧ Circle d.store.Needs d.store.RefersTo d.id := by
  intro p text settings s r place
  have hstops : (Load.resolveNamed p "Node" s).1.mapError Stop.fault? =
      .error (some (.cyclicType "Node" place)) := by decide +kernel
  have hanswer : (step s r).1 = .fault (.cyclicType "Node" place) := perform_fault hstops
  obtain ⟨c, d, a, hstarts, hcd, ha, hname, -, -, hcircle⟩ :=
    circle_of_cyclic settings (.memory [(p, text)]) [.load p] r "Node" place hanswer
  exact ⟨hanswer, c, d, a, hstarts, hcd, ha, hname, hcircle (by decide) ⟨.inl trivial, trivial⟩⟩

end Session

end RamlTypes
