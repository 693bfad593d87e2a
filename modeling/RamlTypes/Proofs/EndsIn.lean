import RamlTypes.Store.Load

/-!
# How a load ends

`Load.EndsIn` states what holds of the store in which a load ends, and what holds of the one in which
it stops.
-/

namespace RamlTypes

variable {α β : Type}

/-- The load, started in `s`, ends in a store with the property `P`, or stops in one with `E`. -/
structure Load.EndsIn (x : Load α) (s : Store) (P : α → Store → Prop) (E : Store → Prop) :
    Prop where
  of_ok {a : α} {t : Store} : x s = (.ok a, t) → P a t
  of_error {e : Stop} {t : Store} : x s = (.error e, t) → E t

namespace Load.EndsIn

variable {x y : Load α} {s t : Store} {P : α → Store → Prop} {E : Store → Prop}

/-- How a load ends whose run is known. -/
theorem of_run_ok {a : α} (hx : x s = (.ok a, t)) (h : P a t) : x.EndsIn s P E where
  of_ok hr := by
    cases hx.symm.trans hr
    exact h
  of_error hr := nomatch hx.symm.trans hr

/-- A run that is known to stop ends where it stops. -/
theorem of_run_error {e : Stop} (hx : x s = (.error e, t)) (h : E t) : x.EndsIn s P E where
  of_ok hr := nomatch hx.symm.trans hr
  of_error hr := by
    cases hx.symm.trans hr
    exact h

/-- Loads with the same run end in the same way. -/
theorem of_run_eq (h : y.EndsIn t P E) (hxy : x s = y t) : x.EndsIn s P E :=
  ⟨fun hr => h.of_ok (hxy.symm.trans hr), fun hr => h.of_error (hxy.symm.trans hr)⟩

/-- What is asked of the end may be weakened. -/
theorem imp {P' : α → Store → Prop} {E' : Store → Prop} (h : x.EndsIn s P E)
    (hP : ∀ a t, P a t → P' a t) (hE : ∀ t, E t → E' t) : x.EndsIn s P' E' :=
  ⟨fun hr => hP _ _ (h.of_ok hr), fun hr => hE _ (h.of_error hr)⟩

/-- A property that the load keeps however it ends. -/
theorem holds {I : Store → Prop} (h : x.EndsIn s (fun _ => I) I) : I (x s).2 := by
  rcases hr : x s with ⟨e | a, t⟩
  · exact h.of_error hr
  · exact h.of_ok hr

/-- What follows an action begins in the store in which the action ended. -/
theorem bind_run {f : α → Load β} {Q : β → Store → Prop} (hx : x.EndsIn s P E)
    (hf : ∀ a t, x s = (.ok a, t) → P a t → (f a).EndsIn t Q E) : (x >>= f).EndsIn s Q E := by
  rcases hr : x s with ⟨e | a, t⟩
  · exact of_run_error (bind_of_error hr f) (hx.of_error hr)
  · exact (hf a t hr (hx.of_ok hr)).of_run_eq (bind_of_ok hr f)

/-- A sequence ends where its second part ends, or where the first one stops. -/
theorem bind {f : α → Load β} {Q : β → Store → Prop} (hx : x.EndsIn s P E)
    (hf : ∀ a t, P a t → (f a).EndsIn t Q E) : (x >>= f).EndsIn s Q E :=
  hx.bind_run fun a t _ => hf a t

/-- A result that is there ends at once. -/
theorem pure {a : α} (h : P a s) : (Pure.pure a : Load α).EndsIn s P E := of_run_ok rfl h

/-- So does a stop. -/
theorem stop {e : Stop} (h : E s) : (Load.stop e : Load α).EndsIn s P E := of_run_error rfl h

/-- What the load goes on with depends on the store. -/
theorem ask {f : Store → α} {k : α → Load β} {Q : β → Store → Prop}
    (h : (k (f s)).EndsIn s Q E) : (Load.ask f >>= k).EndsIn s Q E := h.of_run_eq rfl

/-- A change is followed by what comes after it. -/
theorem change {f : Store → Store} {hf : ∀ s : Store, s.Grows (f s)} {k : Unit → Load β}
    {Q : β → Store → Prop} (h : (k ()).EndsIn (f s) Q E) : (Load.change f hf >>= k).EndsIn s Q E :=
  h.of_run_eq rfl

/-- The load goes on with the value of a check, or stops where it is. -/
theorem check {e : Except PlainFault α} {k : α → Load β} {Q : β → Store → Prop} (hE : E s)
    (h : ∀ a, e = .ok a → (k a).EndsIn s Q E) : (Load.ofExcept e >>= k).EndsIn s Q E := by
  cases e with
  | ok a => exact h a rfl
  | error f => exact of_run_error rfl hE

/-- A load only adds to the store. -/
theorem grows (hx : x.EndsIn s P E) :
    x.EndsIn s (fun a t => P a t ∧ s.Grows t) fun t => E t ∧ s.Grows t :=
  ⟨fun hr => ⟨hx.of_ok hr, grows_of_apply hr⟩, fun hr => ⟨hx.of_error hr, grows_of_apply hr⟩⟩

end Load.EndsIn

end RamlTypes
