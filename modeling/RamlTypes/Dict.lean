/-!
# Dictionaries in insertion order

A dictionary is a list of key/value pairs. `Dict.put` replaces the value of a key in place and
appends a new key at the end, so the keys keep the order in which they first arrived. The small
lemmas say what `put` does to the view `find?`.
-/

namespace RamlTypes

/-- Key/value pairs in the order in which the keys first arrived. -/
abbrev Dict (κ α : Type) := List (κ × α)

namespace Dict

variable {κ α : Type} [DecidableEq κ]

/-- The value stored under a key. -/
def find? (key : κ) : Dict κ α → Option α
  | [] => none
  | (k, v) :: rest => if k = key then some v else find? key rest

/-- Stores a value: in place when the key is present, at the end otherwise. -/
def put (key : κ) (value : α) : Dict κ α → Dict κ α
  | [] => [(key, value)]
  | (k, v) :: rest => if k = key then (k, value) :: rest else (k, v) :: put key value rest

/-- Whether a key has a value. -/
def has (key : κ) (d : Dict κ α) : Bool :=
  (find? key d).isSome

/-- The keys, oldest first. -/
def keys (d : Dict κ α) : List κ :=
  d.map (·.1)

/-- Stores every entry of `more`, in its order. -/
def putAll (d more : Dict κ α) : Dict κ α :=
  more.foldl (fun acc entry => put entry.1 entry.2 acc) d

/-- Stores a value only when the key is absent. -/
def putNew (key : κ) (value : α) (d : Dict κ α) : Dict κ α :=
  if has key d then d else put key value d

/-- Rewrites the value of a key, starting from `start` when it is absent. -/
def adjust (key : κ) (start : α) (f : α → α) (d : Dict κ α) : Dict κ α :=
  put key (f ((find? key d).getD start)) d

/-- Nothing is found in the empty dictionary. -/
@[simp] theorem find?_nil (key : κ) : find? key ([] : Dict κ α) = none := rfl

/-- A stored value is found again, and storing disturbs no other key. -/
theorem find?_put (key other : κ) (value : α) (d : Dict κ α) :
    find? other (put key value d) = if key = other then some value else find? other d := by
  induction d with
  | nil => simp [put, find?]
  | cons entry rest ih =>
    obtain ⟨k, v⟩ := entry
    by_cases hk : k = key
    · subst hk
      by_cases ho : k = other <;> simp [put, find?, ho]
    · by_cases ho : k = other
      · subst ho
        simp [put, find?, hk, Ne.symm hk]
      · simp [put, find?, hk, ho, ih]

/-- Rewriting the value of a key disturbs no other key. -/
theorem find?_adjust_of_ne {key other : κ} (h : key ≠ other) (start : α) (f : α → α)
    (d : Dict κ α) : find? other (adjust key start f d) = find? other d := by
  rw [adjust, find?_put, if_neg h]

/-- Storing a value in the dictionary of a key disturbs no other value. -/
theorem find?_adjust_put {ι : Type} [DecidableEq ι] (key other : κ) (i j : ι) (a : α)
    (d : Dict κ (Dict ι α)) : (find? other (adjust key [] (put i a) d)).bind (find? j) =
      if key = other ∧ i = j then some a else (find? other d).bind (find? j) := by
  by_cases hk : key = other
  · subst hk
    rw [adjust, find?_put, if_pos rfl, Option.bind_some, find?_put]
    by_cases hi : i = j
    · rw [if_pos hi, if_pos ⟨rfl, hi⟩]
    · rw [if_neg hi, if_neg fun h => hi h.2]
      cases find? key d <;> rfl
  · rw [find?_adjust_of_ne hk, if_neg fun h => hk h.1]

/-- A key that is there has a value. -/
theorem has_iff {key : κ} {d : Dict κ α} : has key d ↔ ∃ a, find? key d = some a :=
  Option.isSome_iff_exists

/-- Nothing is found under keys that are not there. -/
theorem find?_eq_none_iff {key : κ} {d : Dict κ α} : find? key d = none ↔ ¬ has key d := by
  rw [has]
  cases find? key d <;> simp

/-- A key is one of the keys if it has a value. -/
theorem mem_keys {key : κ} {d : Dict κ α} : key ∈ keys d ↔ has key d := by
  induction d with
  | nil => simp [keys, has]
  | cons entry rest ih =>
    obtain ⟨k, v⟩ := entry
    rw [keys, has] at ih
    rw [keys, List.map_cons, List.mem_cons, ih, has, find?]
    by_cases hk : k = key
    · simp [hk]
    · simp [hk, Ne.symm hk]

/-- An entry is new or was there before. -/
theorem mem_put {key : κ} {value : α} {d : Dict κ α} {e : κ × α} (h : e ∈ put key value d) :
    e = (key, value) ∨ e ∈ d := by
  induction d with
  | nil => exact .inl (List.mem_singleton.1 h)
  | cons entry rest ih =>
    obtain ⟨k, v⟩ := entry
    rw [put] at h
    split at h
    · next hk =>
      subst hk
      rcases List.mem_cons.1 h with he | he
      · exact .inl he
      · exact .inr (List.mem_cons_of_mem _ he)
    · rcases List.mem_cons.1 h with he | he
      · exact .inr (he ▸ List.mem_cons_self)
      · rcases ih he with he | he
        · exact .inl he
        · exact .inr (List.mem_cons_of_mem _ he)

/-- The first value of a key stays. -/
theorem find?_putNew (key other : κ) (value : α) (d : Dict κ α) :
    find? other (putNew key value d) =
      (find? other d).or (if key = other then some value else none) := by
  by_cases hk : has key d
  · rw [putNew, if_pos hk]
    by_cases ho : key = other
    · subst ho
      obtain ⟨v, hv⟩ := Option.isSome_iff_exists.1 hk
      simp [hv]
    · simp [ho]
  · rw [putNew, if_neg hk, find?_put]
    by_cases ho : key = other
    · subst ho
      have hn : find? key d = none := by simpa [has] using hk
      simp [hn]
    · simp [ho]

/-- The keys after `put`: unchanged when the key was there, one longer otherwise. -/
theorem keys_put (key : κ) (value : α) (d : Dict κ α) :
    keys (put key value d) = if key ∈ keys d then keys d else keys d ++ [key] := by
  induction d with
  | nil => simp [put, keys]
  | cons entry rest ih =>
    obtain ⟨k, v⟩ := entry
    rw [keys, keys] at ih
    by_cases hk : k = key
    · subst hk
      simp [put, keys]
    · simp only [put, hk, keys, if_false, List.map_cons, ih, List.mem_cons, Ne.symm hk, false_or]
      split <;> simp

section
variable {k : κ} {a : α} {d d' : Dict κ α}

/-- A new key is appended. -/
theorem putNew_of_not_has (h : ¬ has k d) : putNew k a d = d ++ [(k, a)] := by
  rw [putNew, if_neg h]
  induction d with
  | nil => rfl
  | cons entry rest ih =>
    obtain ⟨l, b⟩ := entry
    have hl : l ≠ k := by
      rintro rfl
      exact h (by simp [has, find?])
    have hrest : ¬ has k rest := by
      rwa [has, find?, if_neg hl] at h
    rw [put, if_neg hl, ih hrest, List.cons_append]

/-- A dictionary that goes on is asked first. -/
theorem find?_append (k : κ) (d more : Dict κ α) :
    find? k (d ++ more) = (find? k d).or (find? k more) := by
  induction d with
  | nil => rfl
  | cons entry rest ih =>
    rw [List.cons_append, find?, find?]
    split
    · rfl
    · exact ih

/-- What a dictionary has stays when entries are appended. -/
theorem find?_extended (h : d <+: d') (hk : has k d) : find? k d' = find? k d := by
  obtain ⟨more, rfl⟩ := h
  obtain ⟨a, ha⟩ := has_iff.1 hk
  rw [find?_append, ha, Option.some_or]

/-- A dictionary that is extended has the keys that it had. -/
theorem has_extended (h : d <+: d') (hk : has k d) : has k d' := by
  rwa [has, find?_extended h hk]

end

end Dict

end RamlTypes
