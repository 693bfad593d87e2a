import RamlTypes.Store.Growth

/-!
# Loads

A load is a computation on a store that can stop. It reads the store and changes it, and whatever
its outcome, the store has only grown: a load is built from changes that take nothing back, and
carries the proof. What gives up the work of a failed load is a function on stores, and no load.
-/

namespace RamlTypes

/-- Why a computation on the store stops. -/
inductive Stop where
  | fault (f : PlainFault)
  /-- A type depends on its own resolution. -/
  | cycle (name : String) (place : Location)
  /-- The bound on a recursion is reached. -/
  | exhausted

namespace Stop

/-- The fault that is reported. -/
def fault? : Stop → Option Fault
  | fault f => some f.fault
  | cycle name place => some (.cyclicType name place)
  | exhausted => none

/-- Whether a type depends on itself. -/
def isCycle : Stop → Bool
  | cycle .. => true
  | _ => false

end Stop

/-- A computation on the store. -/
@[ext]
structure Load (α : Type) where
  run : Store → Except Stop α × Store
  grows : ∀ s : Store, s.Grows (run s).2

namespace Load

variable {α β : Type}

instance : CoeFun (Load α) fun _ => Store → Except Stop α × Store := ⟨run⟩

instance : Monad Load where
  pure a := ⟨fun s => (.ok a, s), .refl⟩
  bind x f :=
    { run := fun s =>
        match x s with
        | (.ok a, s) => f a s
        | (.error stop, s) => (.error stop, s)
      grows := fun s => by
        have hx := x.grows s
        split
        · next a s' h =>
          rw [h] at hx
          exact hx.trans ((f a).grows s')
        · next h =>
          rw [h] at hx
          exact hx }

/-- What is seen of the store. -/
def ask (f : Store → α) : Load α := ⟨fun s => (.ok (f s), s), .refl⟩

/-- Changes the store. -/
def change (f : Store → Store) (grows : ∀ s : Store, s.Grows (f s)) : Load Unit :=
  ⟨fun s => (.ok (), f s), grows⟩

/-- Stops. -/
def stop (e : Stop) : Load α := ⟨fun s => (.error e, s), .refl⟩

/-- Stops with a fault. -/
def fail (f : PlainFault) : Load α := stop (.fault f)

/-- Stops because the bound on a recursion is reached. -/
def exhaust : Load α := stop .exhausted

/-- Takes over the outcome of a check. -/
def ofExcept : Except PlainFault α → Load α
  | .ok a => pure a
  | .error f => fail f

/-- Rewrites the fault with which an action stops. -/
def mapFault (f : PlainFault → PlainFault) (x : Load α) : Load α where
  run s :=
    match x s with
    | (.error (.fault e), s) => (.error (.fault (f e)), s)
    | r => r
  grows s := by
    have hx := x.grows s
    split
    · next h =>
      rw [h] at hx
      exact hx
    · exact hx

/-- Putting an error into its place leaves the store. -/
theorem mapFault_snd (f : PlainFault → PlainFault) (x : Load α) (s : Store) :
    (mapFault f x s).2 = (x s).2 := by
  dsimp only [mapFault]
  rcases x s with ⟨(_ | _ | _) | _, _⟩
  all_goals rfl

/-- Adds a diagnostic. -/
def report (d : Diagnostic) : Load Unit :=
  change (·.report d) (·.grows_report d)

/-- Adds a shape and returns its number. -/
def addShape (shape : Shape) : Load ShapeId := do
  let id ← ask (·.shapes.size)
  change (·.addShape shape) (·.grows_addShape shape)
  return id

/-- Reads a file. -/
def readFile (purpose : Purpose) (p : Path) : Load String := do
  change (·.countRead purpose p) (·.grows_countRead purpose p)
  match ← ask (·.files.read p) with
  | .ok text => return text
  | .error failure => fail (.unreadable p failure)

/-- Runs an action on a file unless the loading of the file has begun. -/
def unlessLoading (p : Path) (x : Load Unit) : Load Unit := do
  if !(← ask (·.isLoading p)) then x

/-- Reads a file between the beginning and the end of its loading. -/
def whileLoading (p : Path) (read : Load α) : Load α where
  run s :=
    let (r, s) := read (s.beginLoading p)
    (r, s.endLoading p)
  grows s := Store.grows_endLoading (read.grows (s.beginLoading p))

/-- Caches a fragment, unless its path has one already, and returns the cached one. -/
def cacheFragment (f : Fragment) : Load Fragment := do
  change (·.cacheFragment f) (·.grows_cacheFragment f)
  return (← ask fun s => Dict.find? f.location.key s.fragments).getD f

/-! ## What a load does -/

variable (s : Store)

/-- A result that is there leaves the store. -/
@[simp] theorem pure_apply (a : α) : (pure a : Load α) s = (.ok a, s) := rfl

/-- The second run begins in the store of the first, or it does not begin. -/
theorem bind_apply (x : Load α) (f : α → Load β) : (x >>= f) s =
    match x s with
    | (.ok a, s) => f a s
    | (.error stop, s) => (.error stop, s) := rfl

/-- A question to the store leaves it. -/
@[simp] theorem ask_apply (f : Store → α) : ask f s = (.ok (f s), s) := rfl

/-- A change is served. -/
@[simp] theorem change_apply (f : Store → Store) (h : ∀ s : Store, s.Grows (f s)) :
    change f h s = (.ok (), f s) := rfl

/-- What stops leaves the store. -/
@[simp] theorem stop_apply (e : Stop) : (stop e : Load α) s = (.error e, s) := rfl

/-- So does an error. -/
@[simp] theorem fail_apply (f : PlainFault) : (fail f : Load α) s = (.error (.fault f), s) := rfl

/-- And the end of the fuel. -/
@[simp] theorem exhaust_apply : (exhaust : Load α) s = (.error .exhausted, s) := rfl

/-- The shape gets the next number. -/
theorem addShape_apply (shape : Shape) :
    addShape shape s = (.ok s.shapes.size, s.addShape shape) := rfl

/-- What is cached for the file in the end is given back. -/
theorem cacheFragment_apply (f : Fragment) : cacheFragment f s =
    (.ok ((Dict.find? f.location.key (s.cacheFragment f).fragments).getD f), s.cacheFragment f) :=
  rfl

/-- The mark is put before the file is read, and taken away whatever the outcome is. -/
theorem whileLoading_apply (p : Path) (read : Load α) : whileLoading p read s =
    ((read (s.beginLoading p)).1, (read (s.beginLoading p)).2.endLoading p) := rfl

/-- Whatever runs, the store grows. -/
theorem grows_of_apply {x : Load α} {s s' : Store} {r : Except Stop α} (h : x s = (r, s')) :
    s.Grows s' := by
  have hx := x.grows s
  rw [h] at hx
  exact hx

/-- What follows an action lets the store grow further. -/
theorem grows_bind (x : Load α) (f : α → Load β) (s : Store) : (x s).2.Grows ((x >>= f) s).2 := by
  rw [bind_apply]
  rcases x s with ⟨_ | a, t⟩
  · exact .refl t
  · exact (f a).grows t

/-- An action that follows one with a result continues with the result. -/
theorem bind_of_ok {x : Load α} {s s' : Store} {a : α} (h : x s = (.ok a, s')) (f : α → Load β) :
    (x >>= f) s = f a s' := by
  rw [bind_apply, h]

/-- Nothing follows an action that stops. -/
theorem bind_of_error {x : Load α} {s s' : Store} {e : Stop} (h : x s = (.error e, s'))
    (f : α → Load β) : (x >>= f) s = (.error e, s') := by
  rw [bind_apply, h]

/-- A sequence has a result only if both its actions have. -/
theorem bind_eq_ok {x : Load α} {f : α → Load β} {s s' : Store} {b : β} :
    (x >>= f) s = (.ok b, s') ↔ ∃ a t, x s = (.ok a, t) ∧ f a t = (.ok b, s') := by
  rw [bind_apply]
  rcases h : x s with ⟨_ | a, t⟩
  · simp
  · refine ⟨fun hf => ⟨a, t, rfl, hf⟩, ?_⟩
    rintro ⟨_, _, ⟨⟩, hf⟩
    exact hf

/-- A sequence stops where its first or its second action does. -/
theorem bind_eq_error {x : Load α} {f : α → Load β} {s s' : Store} {e : Stop} :
    (x >>= f) s = (.error e, s') ↔
      x s = (.error e, s') ∨ ∃ a t, x s = (.ok a, t) ∧ f a t = (.error e, s') := by
  rw [bind_apply]
  rcases h : x s with ⟨_ | a, t⟩
  · simp
  · refine ⟨fun hf => .inr ⟨a, t, rfl, hf⟩, ?_⟩
    rintro (⟨⟨⟩⟩ | ⟨_, _, ⟨⟩, hf⟩)
    exact hf

/-- What follows a question runs in the same store with the answer. -/
@[simp] theorem ask_bind (f : Store → α) (k : α → Load β) : (ask f >>= k) s = k (f s) s := rfl

/-- What follows a change runs in the changed store. -/
@[simp] theorem change_bind (f : Store → Store) (h : ∀ s : Store, s.Grows (f s))
    (k : Unit → Load β) : (change f h >>= k) s = k () (f s) := rfl

/-- What follows a result runs with it. -/
@[simp] theorem pure_bind_apply (a : α) (k : α → Load β) : (pure a >>= k) s = k a s := rfl

instance : LawfulMonad Load := LawfulMonad.mk' Load
  (fun x => by
    ext1; funext s
    show (match x s with | (.ok a, s) => (Except.ok a, s) | (.error e, s) => (.error e, s)) = x s
    rcases x s with ⟨_ | _, _⟩ <;> rfl)
  (fun _ _ => rfl)
  (fun x f g => by
    ext1; funext s
    show (x >>= f >>= g) s = (x >>= fun a => f a >>= g) s
    simp only [bind_apply]
    rcases x s with ⟨_ | _, _⟩ <;> rfl)

/-- What follows a check has a result only if the check succeeds. -/
theorem ofExcept_bind_eq_ok {e : Except PlainFault α} {f : α → Load β} {s t : Store} {b : β} :
    (ofExcept e >>= f) s = (.ok b, t) ↔ ∃ a, e = .ok a ∧ f a s = (.ok b, t) := by
  cases e with
  | ok a =>
    refine ⟨fun h => ⟨a, rfl, h⟩, ?_⟩
    rintro ⟨_, ⟨⟩, h⟩
    exact h
  | error f =>
    constructor
    · intro h
      cases h
    · rintro ⟨_, ⟨⟩, -⟩

/-- What follows the reading of a file has a result only if there is such a file. -/
theorem readFile_bind_eq_ok {purpose : Purpose} {p : Path} {f : String → Load β} {s t : Store} {b : β}
    (h : (readFile purpose p >>= f) s = (.ok b, t)) :
    ∃ text, s.files.read p = .ok text ∧ f text (s.countRead purpose p) = (.ok b, t) := by
  rw [readFile, bind_assoc, change_bind, bind_assoc, ask_bind] at h
  have hfiles : (s.countRead purpose p).files = s.files := rfl
  rw [hfiles] at h
  rcases hread : s.files.read p with failure | text <;> rw [hread] at h
  · cases h
  · exact ⟨text, rfl, h⟩

end Load

end RamlTypes
