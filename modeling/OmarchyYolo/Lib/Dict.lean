import Mathlib.Data.List.Induction
import Mathlib.Data.List.Nodup

/-!
# OmarchyYolo.Lib.Dict — dictionaries in the order of insertion

A dictionary as the list of its items. Setting an item keeps its place, and a new
one comes last.

* `dictGet?` — `d.get(key)`; `dictSet` — `d[key] = f(d.get(key))`;
* `dictTally` — how often each value occurs, in the order of the first occurrences;
* `mem_dictTally`: the items are the true counts.
-/

namespace Py

variable {κ ν : Type} [DecidableEq κ]

/-- `d.get(key)`. -/
def dictGet? (key : κ) : List (κ × ν) → Option ν
  | [] => none
  | (k, v) :: items => if k = key then some v else dictGet? key items

/-- `d[key] = f(d.get(key))`. -/
def dictSet (key : κ) (f : Option ν → ν) : List (κ × ν) → List (κ × ν)
  | [] => [(key, f none)]
  | (k, v) :: items => if k = key then (k, f (some v)) :: items else (k, v) :: dictSet key f items

variable {key k : κ} {f : Option ν → ν} {d : List (κ × ν)}

theorem dictSet_keys : (dictSet key f d).map Prod.fst =
    if key ∈ d.map Prod.fst then d.map Prod.fst else d.map Prod.fst ++ [key] := by
  induction d with
  | nil => rfl
  | cons item items ih =>
    obtain ⟨k, v⟩ := item
    rw [dictSet]
    by_cases hk : k = key
    · rw [if_pos hk, if_pos (List.mem_map.mpr ⟨(k, v), List.mem_cons_self, hk⟩)]
      rfl
    · rw [if_neg hk, List.map_cons, ih, List.map_cons]
      have hmem : key ∈ k :: items.map Prod.fst ↔ key ∈ items.map Prod.fst := by
        rw [List.mem_cons]
        exact ⟨fun h => h.resolve_left fun heq => hk heq.symm, Or.inr⟩
      by_cases hkey : key ∈ items.map Prod.fst
      · rw [if_pos hkey, if_pos (hmem.mpr hkey)]
      · rw [if_neg hkey, if_neg fun h => hkey (hmem.mp h)]
        rfl

theorem mem_dictSet_keys : k ∈ (dictSet key f d).map Prod.fst ↔ k = key ∨ k ∈ d.map Prod.fst := by
  rw [dictSet_keys]
  split_ifs with hkey
  · constructor
    · exact Or.inr
    · rintro (rfl | hk)
      · exact hkey
      · exact hk
  · rw [List.mem_append, List.mem_singleton, or_comm]

theorem nodup_dictSet (h : (d.map Prod.fst).Nodup) : ((dictSet key f d).map Prod.fst).Nodup := by
  rw [dictSet_keys]
  split_ifs with hkey
  · exact h
  · rw [List.nodup_append]
    refine ⟨h, List.nodup_singleton key, ?_⟩
    intro k hk k' hk' heq
    rw [List.mem_singleton.mp hk'] at heq
    exact hkey (heq ▸ hk)

theorem dictGet?_dictSet : dictGet? k (dictSet key f d) =
    if k = key then some (f (dictGet? key d)) else dictGet? k d := by
  induction d with
  | nil =>
    have hone : dictGet? k [(key, f none)] = if key = k then some (f none) else none := rfl
    rw [dictSet, hone]
    by_cases hk : k = key
    · rw [if_pos hk, if_pos hk.symm]
      rfl
    · rw [if_neg hk, if_neg (Ne.symm hk)]
      rfl
  | cons item items ih =>
    obtain ⟨k', v⟩ := item
    rw [dictSet]
    by_cases hk' : k' = key
    · rw [if_pos hk', dictGet?, dictGet?, dictGet?, if_pos hk', hk']
      by_cases hk : k = key
      · rw [if_pos hk, if_pos hk.symm]
      · rw [if_neg hk, if_neg (Ne.symm hk), if_neg (Ne.symm hk)]
    · rw [if_neg hk', dictGet?, dictGet?, dictGet?, if_neg hk', ih]
      by_cases hk : k = key
      · rw [if_pos hk, if_pos hk, if_neg fun heq => hk' (heq.trans hk)]
      · rw [if_neg hk, if_neg hk]

theorem mem_of_dictGet? {v : ν} (h : dictGet? k d = some v) : (k, v) ∈ d := by
  induction d with
  | nil => cases h
  | cons item items ih =>
    obtain ⟨k', v'⟩ := item
    rw [dictGet?] at h
    split_ifs at h with hk
    · cases h
      rw [hk]
      exact List.mem_cons_self
    · exact List.mem_cons_of_mem _ (ih h)

/-- The items of a dictionary are what it has of its keys. -/
theorem mem_iff_dictGet? {v : ν} (h : (d.map Prod.fst).Nodup) :
    (k, v) ∈ d ↔ dictGet? k d = some v := by
  induction d with
  | nil => exact ⟨fun hmem => absurd hmem List.not_mem_nil, nofun⟩
  | cons item items ih =>
    obtain ⟨k', v'⟩ := item
    rw [List.map_cons, List.nodup_cons] at h
    rw [dictGet?, List.mem_cons, Prod.mk.injEq, ih h.2]
    by_cases hk : k' = k
    · rw [if_pos hk, Option.some.injEq]
      constructor
      · rintro (⟨-, rfl⟩ | hget)
        · rfl
        · -- the key is not among those of the other items
          have hmem : k ∈ items.map Prod.fst := List.mem_map.mpr ⟨(k, v), (ih h.2).mpr hget, rfl⟩
          rw [hk] at h
          exact absurd hmem h.1
      · rintro rfl
        exact Or.inl ⟨hk.symm, rfl⟩
    · rw [if_neg hk]
      exact ⟨fun hor => hor.resolve_left fun heq => hk heq.1.symm, Or.inr⟩

/-- What is true of the items after one is set, from what has been true of them before. -/
theorem forall_dictSet {P Q : κ → ν → Prop} (h : ∀ item ∈ d, P item.1 item.2)
    (hnew : Q key (f none)) (hset : ∀ v, P key v → Q key (f (some v)))
    (hkeep : ∀ k v, P k v → Q k v) : ∀ item ∈ dictSet key f d, Q item.1 item.2 := by
  induction d with
  | nil =>
    intro item hitem
    rw [List.mem_singleton.mp hitem]
    exact hnew
  | cons item items ih =>
    obtain ⟨k, v⟩ := item
    have hitems : ∀ item ∈ items, P item.1 item.2 := fun item hitem =>
      h item (List.mem_cons_of_mem _ hitem)
    have hfirst : P k v := h (k, v) List.mem_cons_self
    intro item' hitem'
    rw [dictSet] at hitem'
    split_ifs at hitem' with hk
    · rcases List.mem_cons.mp hitem' with rfl | hmem
      · rw [← hk] at hset
        exact hset v hfirst
      · exact hkeep _ _ (hitems item' hmem)
    · rcases List.mem_cons.mp hitem' with rfl | hmem
      · exact hkeep _ _ hfirst
      · exact ih hitems item' hmem

/-! ## Tallies -/

/-- `d[key] = d.get(key, 0) + 1`. -/
def dictCount (key : κ) : List (κ × Nat) → List (κ × Nat) := dictSet key fun n => n.getD 0 + 1

/-- How often each value occurs. -/
def dictTally (xs : List κ) : List (κ × Nat) := xs.foldl (fun d x => dictCount x d) []

theorem dictTally_append (xs : List κ) (x : κ) :
    dictTally (xs ++ [x]) = dictCount x (dictTally xs) := List.foldl_append

theorem nodup_dictTally (xs : List κ) : ((dictTally xs).map Prod.fst).Nodup := by
  induction xs using List.reverseRecOn with
  | nil => exact List.nodup_nil
  | append_singleton xs x ih =>
    rw [dictTally_append]
    exact nodup_dictSet ih

theorem dictGet?_dictTally (xs : List κ) (k : κ) :
    dictGet? k (dictTally xs) = if k ∈ xs then some (xs.count k) else none := by
  induction xs using List.reverseRecOn with
  | nil => rfl
  | append_singleton xs x ih =>
    rw [dictTally_append, dictCount, dictGet?_dictSet]
    by_cases hk : k = x
    · subst hk
      rw [if_pos rfl, ih, if_pos (List.mem_append_right xs List.mem_cons_self), List.count_append,
        List.count_singleton_self]
      split_ifs with hmem
      · rfl
      · rw [List.count_eq_zero_of_not_mem hmem]
        rfl
    · have hmem : k ∈ xs ++ [x] ↔ k ∈ xs := by
        rw [List.mem_append, List.mem_singleton, or_iff_left hk]
      have hcount : (xs ++ [x]).count k = xs.count k := by
        rw [List.count_append, List.count_singleton, if_neg (by simpa using Ne.symm hk),
          Nat.add_zero]
      rw [if_neg hk, ih, hcount]
      simp only [hmem]

/-- The items of a tally are the counts of the values that occur. -/
theorem mem_dictTally {xs : List κ} {k : κ} {n : Nat} :
    (k, n) ∈ dictTally xs ↔ k ∈ xs ∧ n = xs.count k := by
  rw [mem_iff_dictGet? (nodup_dictTally xs), dictGet?_dictTally]
  split_ifs with hmem
  · rw [Option.some.injEq]
    exact ⟨fun heq => ⟨hmem, heq.symm⟩, fun h => h.2.symm⟩
  · exact ⟨nofun, fun h => absurd h.1 hmem⟩

end Py
