import RamlTypes.Proofs.Termination.Work
import RamlTypes.Proofs.Yields

/-!
# What a load costs

A load that reads a node declares shapes, and so adds to the work. `Load.Pays` bounds by how much:
the load has a cost to spend, and leaves a credit to what follows it. A load that pays is never
stopped by the bound on a recursion.
-/

namespace RamlTypes

variable {α β : Type}

/-- The load, started in `s`, reaches no bound on a recursion, and a value of it has the property
`P` in the store in which it ends. -/
structure Load.Finishes (x : Load α) (s : Store) (P : α → Store → Prop) : Prop where
  of_ok {a : α} {t : Store} : x s = (.ok a, t) → P a t
  not_exhausted {t : Store} : x s ≠ (.error .exhausted, t)

namespace Load.Finishes

variable {x y : Load α} {s t : Store} {P : α → Store → Prop}

/-- A load that ends with a value finishes if the value has the property. -/
theorem of_run_ok {a : α} (hx : x s = (.ok a, t)) (h : P a t) : x.Finishes s P where
  of_ok hr := by
    cases hx.symm.trans hr
    exact h
  not_exhausted hr := nomatch hx.symm.trans hr

/-- A load that stops for another reason than the bound finishes. -/
theorem of_run_error {e : Stop} (hx : x s = (.error e, t)) (he : e ≠ .exhausted) :
    x.Finishes s P where
  of_ok hr := nomatch hx.symm.trans hr
  not_exhausted hr := by
    cases hx.symm.trans hr
    exact he rfl

/-- Loads with the same run finish in the same way. -/
theorem of_run_eq (h : y.Finishes t P) (hxy : x s = y t) : x.Finishes s P :=
  ⟨fun hr => h.of_ok (hxy.symm.trans hr), fun hr => h.not_exhausted (hxy.symm.trans hr)⟩

/-- The property of the values can be weakened, with the run at hand. -/
theorem imp_run {Q : α → Store → Prop} (h : x.Finishes s P)
    (hP : ∀ a t, x s = (.ok a, t) → P a t → Q a t) : x.Finishes s Q :=
  ⟨fun hr => hP _ _ hr (h.of_ok hr), h.not_exhausted⟩

/-- The property of the values can be weakened. -/
theorem imp {Q : α → Store → Prop} (h : x.Finishes s P) (hP : ∀ a t, P a t → Q a t) :
    x.Finishes s Q :=
  h.imp_run fun a t _ => hP a t

/-- The bound is not what stops the load. -/
theorem ne_exhausted (h : x.Finishes s P) {e : Stop} (hr : x s = (.error e, t)) :
    e ≠ .exhausted := by
  rintro rfl
  exact h.not_exhausted hr

/-- What follows a load needs to finish only where the load ends, with the run at hand. -/
theorem bind_run {f : α → Load β} {Q : β → Store → Prop} (hx : x.Finishes s P)
    (hf : ∀ a t, x s = (.ok a, t) → P a t → (f a).Finishes t Q) : (x >>= f).Finishes s Q := by
  rcases hr : x s with ⟨e | a, t⟩
  · exact of_run_error (bind_of_error hr f) (hx.ne_exhausted hr)
  · exact (hf a t hr (hx.of_ok hr)).of_run_eq (bind_of_ok hr f)

/-- What follows a load needs to finish only where the load ends. -/
theorem bind {f : α → Load β} {Q : β → Store → Prop} (hx : x.Finishes s P)
    (hf : ∀ a t, P a t → (f a).Finishes t Q) : (x >>= f).Finishes s Q :=
  hx.bind_run fun a t _ => hf a t

/-- A value is there without any recursion. -/
theorem pure {a : α} (h : P a s) : (Pure.pure a : Load α).Finishes s P := of_run_ok rfl h

/-- A fault is not the bound. -/
theorem fail (f : PlainFault) : (Load.fail f : Load α).Finishes s P := of_run_error rfl nofun

/-- What the load goes on with depends on the store. -/
theorem ask {f : Store → α} {k : α → Load β} {Q : β → Store → Prop}
    (h : (k (f s)).Finishes s Q) : (Load.ask f >>= k).Finishes s Q := h.of_run_eq rfl

/-- The load goes on in the changed store. -/
theorem change {f : Store → Store} {hf : ∀ s : Store, s.Grows (f s)} {k : Unit → Load β}
    {Q : β → Store → Prop} (h : (k ()).Finishes (f s) Q) : (Load.change f hf >>= k).Finishes s Q :=
  h.of_run_eq rfl

/-- The load goes on with the value of a check. -/
theorem check {e : Except PlainFault α} {k : α → Load β} {Q : β → Store → Prop}
    (h : ∀ a, e = .ok a → (k a).Finishes s Q) : (Load.ofExcept e >>= k).Finishes s Q := by
  cases e with
  | ok a => exact h a rfl
  | error f => exact of_run_error rfl nofun

/-- Another description of a fault leaves the bound as it is. -/
theorem mapFault (f : PlainFault → PlainFault) (h : x.Finishes s P) :
    (Load.mapFault f x).Finishes s P := by
  have same {r : Except Stop α} {t : Store} (hr : Load.mapFault f x s = (r, t))
      (he : ∀ e, r ≠ .error (.fault e)) : x s = (r, t) := by
    dsimp only [Load.mapFault] at hr
    split at hr
    · exact absurd (congrArg Prod.fst hr).symm (he _)
    · exact hr
  exact ⟨fun hr => h.of_ok (same hr (by simp)), fun hr => h.not_exhausted (same hr (by simp))⟩

end Load.Finishes

/-- The step from `s` to `t` can spend `cost`, and leaves `credit` of it. -/
structure Store.Spends (s : Store) (cost : Nat) (t : Store) (credit : Nat) : Prop where
  work : t.work + credit ≤ s.work + cost
  unread : t.unread.length ≤ s.unread.length
  /-- Only the drain takes shapes from the work list. -/
  queue : s.unresolved.length ≤ t.unresolved.length

namespace Store.Spends

variable {s t u : Store} {c d e : Nat}

/-- Where nothing happens, no more is left than can be spent. -/
theorem refl (s : Store) (h : d ≤ c) : s.Spends c s d :=
  ⟨Nat.add_le_add_left h _, Nat.le_refl _, Nat.le_refl _⟩

/-- What one step leaves, the next one can spend. -/
theorem trans (h : s.Spends c t d) (h' : t.Spends d u e) : s.Spends c u e :=
  ⟨Nat.le_trans h'.work h.work, Nat.le_trans h'.unread h.unread, Nat.le_trans h.queue h'.queue⟩

/-- What a step is given beyond its cost is left. -/
theorem add (h : s.Spends c t d) (n : Nat) : s.Spends (c + n) t (d + n) :=
  ⟨by have hwork := h.work; omega, h.unread, h.queue⟩

end Store.Spends

/-- A step that settles shapes spends nothing. -/
theorem Store.Settles.spends {s t : Store} (h : s.Settles t) : s.Spends 0 t 0 :=
  ⟨h.work_le, h.unread_sublist.length_le, Nat.le_of_eq (congrArg List.length h.queue.symm)⟩

/-- Where fewer than `d` files can be read, the load reaches no bound on a recursion. It spends
`cost` at most, and leaves `credit a` of that with a value `a`. -/
def Load.Pays (x : Load α) (d cost : Nat) (credit : α → Nat) : Prop :=
  ∀ s : Store, s.settings.root.isAbsolute → s.unread.length < d →
    x.Finishes s fun a t => s.Spends cost t (credit a)

/-- The load leaves the work as it is. -/
abbrev Load.IsFree (x : Load α) (d : Nat) : Prop := x.Pays d 0 fun _ => 0

namespace Load.Pays

variable {x : Load α} {d c : Nat} {w : α → Nat} {v : β → Nat} {f : α → Load β}

/-- The credit of a load pays for what follows it, which may rely on what is known of the value. -/
theorem bind_yields {P : α → Prop} (hx : x.Pays d c w) (hP : x.Yields P)
    (hf : ∀ a, P a → (f a).Pays d (w a) v) : (x >>= f).Pays d c v := by
  intro s hroot hd
  refine (hx s hroot hd).bind_run fun a t hr ht => ?_
  have hgrows := grows_of_apply hr
  refine (hf a (hP s a t hr) t (hgrows.settings ▸ hroot) (Nat.lt_of_le_of_lt ht.unread hd)).imp ?_
  exact fun b u hu => ht.trans hu

/-- The credit of a load pays for what follows it. -/
theorem bind (hx : x.Pays d c w) (hf : ∀ a, (f a).Pays d (w a) v) : (x >>= f).Pays d c v :=
  hx.bind_yields Yields.any fun a _ => hf a

/-- A value costs nothing. -/
theorem pure {a : α} (h : w a ≤ c) : (Pure.pure a : Load α).Pays d c w :=
  fun s _ _ => .pure (.refl s h)

/-- A load that fails leaves nothing to pay for. -/
theorem fail (e : PlainFault) : (Load.fail e : Load α).Pays d c w := fun _ _ _ => .fail e

/-- Asking the store costs nothing. -/
theorem ask {g : Store → α} (hf : ∀ a, (f a).Pays d c v) : (Load.ask g >>= f).Pays d c v :=
  fun s hroot hd => .ask (hf (g s) s hroot hd)

/-- Checks cost nothing. -/
theorem check {e : Except PlainFault α} (hf : ∀ a, e = .ok a → (f a).Pays d c v) :
    (Load.ofExcept e >>= f).Pays d c v :=
  fun s hroot hd => .check fun a ha => hf a ha s hroot hd

/-- What a load is given beyond its cost is left. -/
theorem add (hx : x.Pays d c w) (n : Nat) : x.Pays d (c + n) fun a => w a + n :=
  fun s hroot hd => (hx s hroot hd).imp fun _ _ ht => ht.add n

/-- A load can be given more, and less can be asked of what it leaves. -/
theorem mono (hx : x.Pays d c w) {c' : Nat} {w' : α → Nat} (hc : c ≤ c') (hw : ∀ a, w' a ≤ w a) :
    x.Pays d c' w' :=
  fun s hroot hd => (hx s hroot hd).imp fun a t ht =>
    ⟨by have hwork := ht.work; have hwa := hw a; omega, ht.unread, ht.queue⟩

/-- A load can be given more. -/
theorem of_le (hx : x.Pays d c w) {c' : Nat} (h : c ≤ c') : x.Pays d c' w :=
  hx.mono h fun _ => Nat.le_refl _

/-- A load that spends all it is given can be given more. -/
theorem leaving (hx : x.Pays d c fun _ => 0) {c' n : Nat} (h : c + n ≤ c') :
    x.Pays d c' fun _ => n :=
  (hx.add n).mono h fun _ => Nat.le_of_eq (Nat.zero_add n).symm

/-- Another description of a fault costs nothing. -/
theorem mapFault (g : PlainFault → PlainFault) (hx : x.Pays d c w) :
    (Load.mapFault g x).Pays d c w :=
  fun s hroot hd => (hx s hroot hd).mapFault g

/-- A change that leaves the work as it is. -/
theorem change {g : Store → Store} {hg : ∀ s : Store, s.Grows (g s)}
    (h : ∀ s : Store, s.Settles (g s)) : (Load.change g hg).IsFree d :=
  fun s _ _ => .of_run_ok rfl (h s).spends

/-- Reports are free. -/
theorem report (e : Diagnostic) : (Load.report e).IsFree d :=
  change fun s => { Store.Settles.refl s with }

/-- A shape costs its price. -/
theorem addShape (a : Shape) : (Load.addShape a).Pays d a.price fun _ => 0 := by
  intro s _ _
  refine .of_run_ok (Load.addShape_apply s a) ⟨s.work_addShape_le a, Nat.le_refl _, ?_⟩
  rw [Store.addShape]
  dsimp only
  split
  · rw [List.length_append]
    exact Nat.le_add_right _ _
  · exact Nat.le_refl _

end Load.Pays

end RamlTypes
