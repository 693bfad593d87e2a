import Mathlib.Data.List.Induction
import RamlTypes.Dict

/-!
# Merging dictionaries

Entries that are put into a dictionary one after the other are merged with it: a key that it has
keeps its place and gets the last value, and the new keys follow in the order in which they arrive
(`Dict.Merges`). What is merged in two parts is merged as a whole (`Merges.trans`), so the result of
a loop that puts entries into a dictionary follows from its steps.
-/

namespace RamlTypes.Dict

variable {κ α : Type} [DecidableEq κ]

/-- The values that the entries of a key have, in their order. -/
def valuesOf (key : κ) (d : Dict κ α) : List α :=
  (d.filter (·.1 = key)).map (·.2)

/-- One entry has a value for its own key. -/
theorem valuesOf_singleton (key k : κ) (a : α) :
    valuesOf key [(k, a)] = if k = key then [a] else [] := by
  rw [valuesOf, List.filter_cons]
  by_cases h : k = key <;> simp [h]

/-- And none for other keys. -/
theorem valuesOf_singleton_of_ne {key k : κ} (h : k ≠ key) (a : α) : valuesOf key [(k, a)] = [] := by
  rw [valuesOf_singleton, if_neg h]

/-- The values of two dictionaries come one after the other. -/
theorem valuesOf_append (key : κ) (d e : Dict κ α) :
    valuesOf key (d ++ e) = valuesOf key d ++ valuesOf key e := by
  rw [valuesOf, valuesOf, valuesOf, List.filter_append, List.map_append]

/-- No key is left twice. -/
theorem nodup_eraseDups (l : List κ) : l.eraseDups.Nodup := by
  induction l using List.reverseRecOn with
  | nil => exact List.nodup_nil
  | append_singleton l a ih =>
    rw [List.eraseDups_append]
    by_cases ha : a ∈ l
    · rw [List.removeAll, List.filter_cons_of_neg (by simpa using ha)]
      exact (List.append_nil l.eraseDups).symm ▸ ih
    · rw [List.removeAll, List.filter_cons_of_pos (by simpa using ha)]
      exact List.nodup_append.2 ⟨ih, List.pairwise_singleton _ a, fun b hb c hc heq =>
        ha (List.mem_singleton.1 hc ▸ heq ▸ List.mem_eraseDups.1 hb)⟩

/-- `e` is what `d` becomes when the entries of `more` are put into it in their order. -/
structure Merges (d more e : Dict κ α) : Prop where
  /-- The keys of `d` keep their places, and the new keys follow in the order of their first
  entries. -/
  keys : keys e = keys d ++ ((keys more).filter (· ∉ keys d)).eraseDups
  /-- The last value of a key counts. -/
  find? : ∀ key, find? key e = (valuesOf key more).getLast?.or (find? key d)

namespace Merges

variable {d e f more later : Dict κ α}

/-- A dictionary merges with nothing to itself. -/
theorem refl (d : Dict κ α) : Merges d [] d where
  keys := (List.append_nil _).symm
  find? _ := rfl

/-- One entry is merged by putting it. -/
theorem put (key : κ) (value : α) (d : Dict κ α) : Merges d [(key, value)] (put key value d) where
  keys := by
    have hkeys : Dict.keys [(key, value)] = [key] := rfl
    rw [keys_put, hkeys]
    by_cases hk : key ∈ Dict.keys d
    · rw [if_pos hk, List.filter_cons_of_neg (by simpa using hk)]
      exact (List.append_nil _).symm
    · rw [if_neg hk, List.filter_cons_of_pos (by simpa using hk)]
      rfl
  find? other := by
    rw [find?_put, valuesOf_singleton]
    split <;> rfl

/-- A key of the merged dictionary is a key on one of the sides. -/
theorem mem_keys (h : Merges d more e) (key : κ) :
    key ∈ Dict.keys e ↔ key ∈ Dict.keys d ∨ key ∈ Dict.keys more := by
  rw [h.keys, List.mem_append, List.mem_eraseDups, List.mem_filter, decide_eq_true_iff]
  by_cases hk : key ∈ Dict.keys d
  · exact ⟨fun _ => .inl hk, fun _ => .inl hk⟩
  · exact or_congr_right (and_iff_left hk)

/-- What is merged in two parts is merged as a whole. -/
theorem trans (h : Merges d more e) (h' : Merges e later f) : Merges d (more ++ later) f where
  keys := by
    have hkeys : Dict.keys (more ++ later) = Dict.keys more ++ Dict.keys later := List.map_append
    -- the keys that are new to `e` are new to `d`, and not among those that `e` got
    have hnew : (Dict.keys later).filter (· ∉ Dict.keys e) =
        ((Dict.keys later).filter (· ∉ Dict.keys d)).removeAll
          ((Dict.keys more).filter (· ∉ Dict.keys d)) := by
      rw [List.removeAll, List.filter_filter]
      refine List.filter_congr fun key _ => ?_
      have hmem := h.mem_keys key
      by_cases hd : key ∈ Dict.keys d <;> simp [hd, hmem]
    rw [h'.keys, hnew, h.keys, hkeys, List.filter_append, List.eraseDups_append, List.append_assoc]
  find? key := by
    rw [h'.find?, h.find?, valuesOf_append, List.getLast?_append, Option.or_assoc]

/-- Entries merged with nothing have different keys. -/
theorem nodup (h : Merges [] more e) : (Dict.keys e).Nodup := by
  rw [h.keys]
  exact nodup_eraseDups _

end Merges

/-- Putting entries into a dictionary merges them with it. -/
theorem merges_putAll (more : Dict κ α) : ∀ d : Dict κ α, Merges d more (putAll d more) := by
  induction more with
  | nil => exact .refl
  | cons entry rest ih => exact fun d => (Merges.put entry.1 entry.2 d).trans (ih _)

/-- New keys are appended. -/
theorem put_of_not_mem {key : κ} {value : α} {d : Dict κ α} (h : key ∉ keys d) :
    put key value d = d ++ [(key, value)] := by
  have hnew : ¬ has key d := fun hk => h (mem_keys.2 hk)
  rw [← putNew_of_not_has hnew, putNew, if_neg hnew]

/-- Different entries with new keys are appended. -/
theorem putAll_eq_append (more : Dict κ α) : ∀ d : Dict κ α, (keys (d ++ more)).Nodup →
    putAll d more = d ++ more := by
  induction more with
  | nil => exact fun d _ => (List.append_nil d).symm
  | cons entry rest ih =>
    intro d h
    have hsplit : d ++ entry :: rest = d ++ [entry] ++ rest := by simp
    have hnew : entry.1 ∉ keys d := by
      have hkeys : keys (d ++ entry :: rest) = keys d ++ entry.1 :: keys rest := List.map_append
      rw [hkeys] at h
      exact fun hk => (List.nodup_append.1 h).2.2 _ hk _ List.mem_cons_self rfl
    have hput : putAll d (entry :: rest) = putAll (put entry.1 entry.2 d) rest := rfl
    rw [hput, put_of_not_mem hnew, ih _ (hsplit ▸ h), ← hsplit]

end RamlTypes.Dict
