import Mathlib.Data.Finset.Card
import Mathlib.Data.List.AList
import Mathlib.Algebra.BigOperators.Ring.Finset

/-!
# OmarchyYolo.Lib.Locks — locks and semaphores of an event loop

What the coroutines of one event loop see of locks and semaphores, and of
dictionaries that count.

* `Semaphore` — a unit may be given to a waiter before the waiter runs;
* `Semaphore.Conserves` — no unit is lost, also where a waiter is cancelled;
* `Locks` — lock objects by reference, so that two locks are never confused;
* `sum_values` — what the values of a dictionary add up to.
-/

namespace EventLoop

/-! ## Semaphores -/

section Semaphore

variable {ι : Type} [DecidableEq ι]

/-- The units that are free, and the waiters that have been given one and have not run since. -/
structure Semaphore (ι : Type) where
  value : Nat
  granted : Finset ι := ∅

namespace Semaphore

/-- A waiter is given a unit. -/
def grant (sem : Semaphore ι) (c : ι) : Semaphore ι where
  value   := sem.value - 1
  granted := insert c sem.granted

/-- The waiter runs: `acquire` returns. -/
def acquired (sem : Semaphore ι) (c : ι) : Semaphore ι :=
  { sem with granted := sem.granted.erase c }

/-- A waiter is cancelled; what it has been given goes back. -/
def cancelled (sem : Semaphore ι) (c : ι) : Semaphore ι where
  value   := if c ∈ sem.granted then sem.value + 1 else sem.value
  granted := sem.granted.erase c

def release (sem : Semaphore ι) : Semaphore ι := { sem with value := sem.value + 1 }

/-- With what `inside` hold, there are `capacity` units. -/
def Conserves (sem : Semaphore ι) (inside : Finset ι) (capacity : Nat) : Prop :=
  sem.value + sem.granted.card + inside.card = capacity

variable {sem : Semaphore ι} {inside : Finset ι} {capacity : Nat} {c : ι}

theorem Conserves.grant (h : sem.Conserves inside capacity) (hfree : 0 < sem.value)
    (hnew : c ∉ sem.granted) : (sem.grant c).Conserves inside capacity := by
  have hcard := Finset.card_insert_of_notMem hnew
  show sem.value - 1 + (insert c sem.granted).card + inside.card = capacity
  unfold Conserves at h
  omega

theorem Conserves.acquired (h : sem.Conserves inside capacity) (hgranted : c ∈ sem.granted)
    (hnew : c ∉ inside) : (sem.acquired c).Conserves (insert c inside) capacity := by
  have hcard := Finset.card_insert_of_notMem hnew
  have herase := Finset.card_erase_add_one hgranted
  show sem.value + (sem.granted.erase c).card + (insert c inside).card = capacity
  unfold Conserves at h
  omega

theorem Conserves.cancelled (h : sem.Conserves inside capacity) :
    (sem.cancelled c).Conserves inside capacity := by
  show (if c ∈ sem.granted then sem.value + 1 else sem.value) + (sem.granted.erase c).card +
    inside.card = capacity
  unfold Conserves at h
  split_ifs with hgranted
  · have herase := Finset.card_erase_add_one hgranted
    omega
  · rw [Finset.erase_eq_of_notMem hgranted]
    exact h

theorem Conserves.release (h : sem.Conserves inside capacity) (hinside : c ∈ inside) :
    sem.release.Conserves (inside.erase c) capacity := by
  have herase := Finset.card_erase_add_one hinside
  show sem.value + 1 + sem.granted.card + (inside.erase c).card = capacity
  unfold Conserves at h
  omega

end Semaphore

end Semaphore

/-! ## Lock objects -/

/-- The lock objects there are: references from `next` on are fresh. -/
structure Locks where
  next : Nat := 0
  locked : Finset Nat := ∅

namespace Locks

/-- A new lock has the reference `next`. -/
def create (locks : Locks) : Locks := { locks with next := locks.next + 1 }

def acquire (locks : Locks) (lock : Nat) : Locks :=
  { locks with locked := insert lock locks.locked }

/-- `release`; `none` where the lock is not locked. -/
def release? (locks : Locks) (lock : Nat) : Option Locks :=
  if lock ∈ locks.locked then some { locks with locked := locks.locked.erase lock } else none

end Locks

/-! ## Dictionaries that count -/

section Values

variable {α : Type} [DecidableEq α]

/-- `setdefault`: the value of a key that is there stays. -/
def setdefault {β : Type} (d : AList fun _ : α => β) (k : α) (b : β) : AList fun _ : α => β :=
  if k ∈ d then d else d.insert k b

theorem lookup_setdefault {β : Type} (d : AList fun _ : α => β) (k : α) (b : β) :
    (setdefault d k b).lookup k = some ((d.lookup k).getD b) := by
  unfold setdefault
  split_ifs with hmem
  · obtain ⟨b', hb'⟩ := Option.isSome_iff_exists.mp (AList.lookup_isSome.mpr hmem)
    rw [hb', Option.getD_some]
  · rw [AList.lookup_insert, AList.lookup_eq_none.mpr hmem, Option.getD_none]

theorem lookup_setdefault_ne {β : Type} {d : AList fun _ : α => β} {k k' : α} {b : β}
    (hne : k' ≠ k) : (setdefault d k b).lookup k' = d.lookup k' := by
  unfold setdefault
  split_ifs
  · rfl
  · exact AList.lookup_insert_ne hne

/-- The values, where those of `count` are in the dictionary. -/
theorem sum_values (d : AList fun _ : α => Int) :
    (d.entries.map Sigma.snd).sum = ∑ k ∈ d.keys.toFinset, (d.lookup k).getD 0 := by
  have hvalues : d.entries.map Sigma.snd = d.keys.map fun k => (d.lookup k).getD 0 := by
    show _ = (d.entries.map Sigma.fst).map _
    rw [List.map_map]
    apply List.map_congr_left
    intro e he
    have hlookup : d.lookup e.1 = some e.2 := AList.mem_lookup_iff.mpr he
    show e.2 = (d.lookup e.1).getD 0
    rw [hlookup, Option.getD_some]
  rw [hvalues, List.sum_toFinset _ d.keys_nodup]

/-- A dictionary that counts the members of a set by key. -/
theorem sum_values_eq_card {β : Type} [DecidableEq β] {d : AList fun _ : α => Int} {s : Finset β}
    {key : β → α} (h : ∀ k, (d.lookup k).getD 0 = (s.filter fun b => key b = k).card) :
    (d.entries.map Sigma.snd).sum = s.card := by
  have hkeys : ∀ b ∈ s, key b ∈ d.keys.toFinset := by
    intro b hb
    rw [List.mem_toFinset, ← AList.mem_keys, ← AList.lookup_isSome]
    have hpos : 0 < (s.filter fun b' => key b' = key b).card :=
      Finset.card_pos.mpr ⟨b, Finset.mem_filter.mpr ⟨hb, rfl⟩⟩
    have hcount := h (key b)
    cases hlookup : d.lookup (key b) with
    | none =>
      rw [hlookup, Option.getD_none] at hcount
      omega
    | some n => rfl
  rw [sum_values, Finset.card_eq_sum_card_fiberwise hkeys]
  rw [Nat.cast_sum]
  exact Finset.sum_congr rfl fun k _ => h k

end Values

end EventLoop
