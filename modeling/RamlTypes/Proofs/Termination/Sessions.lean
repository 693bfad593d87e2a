import RamlTypes.Proofs.Termination.Resolution

/-!
# Every request of a session comes to an end

Three recursions feed each other: files are loaded inside of each other, resolutions ask for other
resolutions, and resolving the work list adds to it. `Store.unread`, `Store.debt` and `Store.work`
are what they lower, whatever the files refer to in circles. So no request of a session reaches the
bounds on these recursions (`Session.requests_terminate`).
-/

namespace RamlTypes

open Store

/-- The request resolves the work list of the store `t`. -/
inductive Request.Drains (s : Store) : Request → Store → Prop
  | resolveAll : Drains s .resolveAll s
  | load {p : Path} {f : Fragment} {t : Store} (loaded : Load.fragment p s = (.ok f, t))
      (eager : t.settings.eagerResolution) : Drains s (.load p) t

/-- One round of resolving the work list, with chains of dependencies of length `depth` at most. -/
def Store.Round (depth : Nat) (s t : Store) : Prop :=
  ∃ i rest, s.unresolved = i :: rest ∧
    Load.unlessFailed i (Load.resolveWithin depth i) s.popUnresolved = (.ok (), t)

/-! ## Calls -/

/-- The call can be made, and its bound is above the debt. -/
structure Call.IsBounded (c : Call) : Prop where
  sound : c.store.Sound c.id
  root : c.store.settings.root.isAbsolute
  loading : c.store.loading = []
  debt_lt : c.store.debt < c.depth

/-- A call finds less debt than the call that makes it. -/
theorem Call.IsBounded.makes {c c' : Call} (h : c.IsBounded) (hm : c.Makes c') :
    c'.IsBounded ∧ c'.store.debt < c.store.debt := by
  have hw : c.store.Within c.store.unresolved.length c.store.work :=
    ⟨h.root, h.loading, Nat.le_refl _, Nat.le_refl _⟩
  have hdebt := h.debt_lt
  have hwork : c.store.work = c.store.unresolved.length + c.store.debt := rfl
  obtain ⟨hw', hpos⟩ := within_of_makes h.sound hw (by omega) hm
  have hdebt' := hw'.debt_add_le
  have hdepth : c'.depth + 1 = c.depth := by cases hm <;> rfl
  exact ⟨⟨h.sound.makes hm, hw'.root, hw'.loading, by omega⟩, by omega⟩

/-- So does every call below it. -/
theorem Call.IsBounded.below {c d : Call} (h : c.IsBounded)
    (hd : Relation.ReflTransGen Call.Makes c d) : d.IsBounded := by
  induction hd with
  | refl => exact h
  | tail _ hm ih => exact (ih.makes hm).1

namespace Store

variable {base s t : Store} {depth : Nat}

/-- A round lowers the work. -/
theorem Draining.round (h : base.Draining depth s) (hr : Round (depth + 1) s t) :
    base.Draining depth t ∧ t.work < s.work := by
  obtain ⟨i, rest, hq, hrun⟩ := hr
  exact (h.finishes_first hq).of_ok hrun

/-- Any number of rounds keeps what the work on the queue relies on. -/
theorem Draining.rounds (h : base.Draining depth s)
    (hr : Relation.ReflTransGen (Round (depth + 1)) s t) : base.Draining depth t := by
  induction hr with
  | refl => exact h
  | tail _ hround ih => exact (ih.round hround).1

/-- The calls that are made for the work list are bounded. -/
theorem Draining.isBounded {n : Nat} {c : Call} (hc : Call.StartsDrain (depth + 1) n s c) :
    base.Draining depth s → c.IsBounded := by
  induction hc with
  | first hq _ => exact fun h => ⟨h.sound hq, h.root, h.loading, Nat.lt_succ_of_le h.debt⟩
  | later hq hr _ ih => exact fun h => ih (h.round ⟨_, _, hq, hr⟩).1

end Store

namespace Session

variable {s : Store} {r : Request}

section
variable (hs : s.Coherent) (hroot : s.settings.root.isAbsolute)
include hs hroot

/-- The work on the queue begins with as much fuel as there is potential. -/
theorem draining_of_drains {t : Store} (h : r.Drains s t) : s.Draining t.potential t := by
  cases h with
  | resolveAll => exact hs.draining hroot
  | load hloaded _ => exact hs.draining_of_fragment hroot hloaded

/-- A request makes bounded calls, unless it is for a shape that does not exist. -/
theorem isBounded_of_starts {c : Call} (hc : r.Starts s c) (hi : c.id < c.store.shapes.size) :
    c.IsBounded := by
  have hresolve {i : ShapeId} (hi : i < s.shapes.size) : Call.IsBounded ⟨s.potential + 1, i, s⟩ :=
    ⟨⟨s, _, .declaring, .start s, nofun, hs.underway s.mentions_true, hi⟩, hroot, hs.loading,
      Nat.lt_succ_of_le (debt_le_potential hs.ids)⟩
  cases hc with
  | resolve i => exact hresolve hi
  | resolveNamed _ => exact hresolve hi
  | resolveAll hstarts => exact (hs.draining hroot).isBounded hstarts
  | load hloaded _ hstarts => exact (hs.draining_of_fragment hroot hloaded).isBounded hstarts

/-- A call that makes another one, below a call of a request. -/
theorem isBounded_below {c d d' : Call} (hc : r.Starts s c)
    (hd : Relation.ReflTransGen Call.Makes c d) (hm : d.Makes d') : d.IsBounded := by
  obtain ⟨a, p, hclaim⟩ : ∃ a p, c.store.claim c.id = .ok (some (a, p)) := by
    rcases Relation.ReflTransGen.cases_head hd with rfl | ⟨e, he, -⟩
    · exact hm.exists_claimed
    · exact he.exists_claimed
  have hi := (Array.getElem?_eq_some_iff.1 (waits_of_claim hclaim).1).1
  exact (isBounded_of_starts hs hroot hc hi).below hd

end

/-! ## Requests -/

/-- How a request of the store `s` comes to an end. -/
structure Terminates (s : Store) (r : Request) : Prop where
  /-- No bound on a recursion is reached. -/
  answered : (step s r).1 ≠ .exhausted
  /-- Only the resolution of a shape that waits for it asks for other resolutions. -/
  waits {c d d' : Call} : r.Starts s c → Relation.ReflTransGen Call.Makes c d → d.Makes d' →
    ∃ a, d.store.shapes[d.id]? = some a ∧ d.store.Waits d.id a
  /-- These find less debt. -/
  debt_lt {c d d' : Call} : r.Starts s c → Relation.ReflTransGen Call.Makes c d → d.Makes d' →
    d'.store.debt < d.store.debt
  /-- What a round adds to the work list is paid for by the shapes that it resolves and the files
  that it reads. -/
  work_lt {t u v : Store} : r.Drains s t → Relation.ReflTransGen (Round (t.potential + 1)) t u →
    Round (t.potential + 1) u v → v.work < u.work

/-- How the loading of a file in the store `s` goes into other files. -/
structure Descends (s : Store) (p : Path) : Prop where
  /-- As deep as there are readable files that are neither cached nor being read. -/
  suffices_unread {n : Nat} : s.loading = [] → s.unread.length ≤ n →
    ∀ t, Fragment.fragmentWith (Fragment.loaders n) p s ≠ (.error .exhausted, t)
  /-- Only if the file is one of them. -/
  atHand : p.IsNormal s.settings.root → (∀ text, ¬ s.AtHand p text) → ∀ ls ls' : Loaders,
    Load.unlessLoading p (do let _ ← Fragment.libraryWith ls p) s =
        Load.unlessLoading p (do let _ ← Fragment.libraryWith ls' p) s ∧
      Load.unlessLoading p (do let _ ← Fragment.dataTypeWith ls p) s =
        Load.unlessLoading p (do let _ ← Fragment.dataTypeWith ls' p) s
  /-- Which then is one of them no more. -/
  unread_lt {text : String} : s.AtHand p text →
    (s.beginLoading p).unread.length < s.unread.length

/-- Each file that is opened leaves one fewer unread. -/
theorem descends (hroot : s.settings.root.isAbsolute) (p : Path) : Descends s p where
  suffices_unread hidle hn _ :=
    (Fragment.isFreeAt_fragmentWith (Fragment.descend_loaders _) hroot (Nat.lt_succ_of_le hn)
      fun _ => hidle ▸ List.not_mem_nil).not_exhausted
  atHand hp h ls ls' :=
    ⟨Fragment.unlessLoading_congr (Fragment.parseLibrary ls) (Fragment.parseLibrary ls') hp h,
      Fragment.unlessLoading_congr (Fragment.parseDataType ls) (Fragment.parseDataType ls') hp h⟩
  unread_lt h :=
    (s.settles_beginLoading p).length_unread_lt h.known h.free (s.not_isFree_beginLoading p)

/-- An action that reaches no bound is answered. -/
theorem perform_ne_exhausted {α : Type} {x : Store → Except Stop α × Store} {answer : α → Answer}
    (hx : ∀ t, x s ≠ (.error .exhausted, t)) (ha : ∀ a, answer a ≠ .exhausted) :
    (perform x answer s).1 ≠ .exhausted := by
  rw [perform]
  rcases hr : x s with ⟨(f | ⟨name, place⟩ | _) | a, t⟩
  · simp [Stop.fault?]
  · simp [Stop.fault?]
  · exact absurd hr (hx t)
  · exact ha a

/-- Taking back a load needs no fuel. -/
theorem orRollback_ne_exhausted {α : Type} {x : Load α} (hx : ∀ t, x s ≠ (.error .exhausted, t))
    (t : Store) : Load.orRollback x s ≠ (.error .exhausted, t) := by
  rw [Load.orRollback]
  rcases hr : x s with ⟨e | a, u⟩
  · rintro ⟨⟩
    exact hx u hr
  · rintro ⟨⟩

section
variable (hs : s.Coherent) (hroot : s.settings.root.isAbsolute)
include hs hroot

/-- No request reaches a bound. -/
theorem answered_step (r : Request) : (step s r).1 ≠ .exhausted := by
  have hfragment (p : Path) := Load.isFreeAt_fragment hroot hs.loading p
  -- A request that resolves shapes begins with fuel for all the work that is left.
  cases r with
  | load p =>
    have hload : (do
        let f ← Load.fragment p
        Load.resolveIfEager
        return f : Load Fragment).Finishes s fun _ _ => True := by
      refine (hfragment p).bind_run fun f t hf _ => ?_
      have heager : Load.resolveIfEager.Finishes t fun _ _ => True := by
        refine .ask ?_
        cases t.settings.eagerResolution with
        | false => exact .pure trivial
        | true => exact finishes_resolveAll (hs.draining_of_fragment hroot hf)
      exact heager.bind fun _ _ _ => .pure trivial
    exact perform_ne_exhausted (orRollback_ne_exhausted fun _ => hload.not_exhausted) nofun
  | parse p =>
    exact perform_ne_exhausted (orRollback_ne_exhausted fun _ => (hfragment p).not_exhausted) nofun
  | library p =>
    have hlibrary := Load.isFreeAt_library hroot hs.loading p
    exact perform_ne_exhausted (fun _ => hlibrary.not_exhausted) nofun
  | dataType p =>
    have hdataType := Load.isFreeAt_dataType hroot hs.loading p
    exact perform_ne_exhausted (fun _ => hdataType.not_exhausted) nofun
  | resolve i =>
    exact perform_ne_exhausted (fun _ => (finishes_resolve hs hroot i).not_exhausted) nofun
  | resolveNamed p name =>
    have hresolve : (Load.resolveNamed p name).Finishes s fun _ _ => True := by
      refine .ask (.ask ?_)
      split
      · exact .fail _
      · next i _ => exact (finishes_resolve hs hroot i).bind fun _ _ _ => .pure trivial
    exact perform_ne_exhausted (fun _ => hresolve.not_exhausted) nofun
  | resolveAll =>
    have hresolve := finishes_resolveAll (hs.draining hroot)
    exact perform_ne_exhausted (fun _ => hresolve.not_exhausted) nofun
  | declare p name node =>
    have hdeclare := Load.pays_declare p name node s hroot (Nat.lt_succ_self _)
    exact perform_ne_exhausted (fun _ => hdeclare.not_exhausted) nofun
  | write p text => exact nofun

/-- Each single request ends. -/
theorem terminates_step (r : Request) : Terminates s r where
  answered := answered_step hs hroot r
  waits _ _ hm := by
    obtain ⟨a, p, hclaim⟩ := hm.exists_claimed
    obtain ⟨ha, -, hwait⟩ := waits_of_claim hclaim
    exact ⟨a, ha, hwait⟩
  debt_lt hc hd hm := ((isBounded_below hs hroot hc hd hm).makes hm).2
  work_lt ht hu hv := (((draining_of_drains hs hroot ht).rounds hu).round hv).2

end

/-- Whatever the files of a session refer to in circles, and whatever was requested before, every
request comes to an end. -/
theorem requests_terminate (settings : LoadSettings) (files : Files)
    (hroot : settings.root.isAbsolute) (rs : List Request) :
    (∀ r, Terminates (run (.empty settings files) rs) r) ∧
      ∀ s p, s.settings = settings → Descends s p := by
  obtain ⟨hs, hsettings⟩ := coherent_run rs (coherent_empty settings files)
  refine ⟨terminates_step hs (by rwa [hsettings]), fun s p hsettings => descends ?_ p⟩
  rwa [hsettings]

/-- Two libraries that use each other, and three types that depend on each other through a
reference, a list of parents and a compound expression. -/
theorem requests_terminate_of_circle :
    let a : Path := ⟨"/a.raml"⟩
    let files : Files := .memory [
      (a, "#%RAML 1.0 Library\nuses:\n  b: b.raml\ntypes:\n  T: b.U\n  V:\n    type: [T]\n"),
      (⟨"/b.raml"⟩, "#%RAML 1.0 Library\nuses:\n  a: a.raml\ntypes:\n  U: a.V[] | a.T\n")]
    let settings : LoadSettings := ⟨⟨"/"⟩, false, false⟩
    let s := run (.empty settings files) [.load a]
    settings.root.isAbsolute ∧ 0 < s.work ∧ (step s .resolveAll).1.IsServed ∧
      ∀ r, Terminates s r := by
  intro a files settings s
  have hroot : settings.root.isAbsolute := by decide
  have hrun : 0 < s.work ∧ (step s .resolveAll).1.IsServed := by decide +kernel
  exact ⟨hroot, hrun.1, hrun.2, (requests_terminate settings files hroot [.load a]).1⟩

end Session

end RamlTypes
