import OmarchyYolo.Lib.Locks
import OmarchyYolo.Lib.PyStr
import OmarchyYolo.Lib.Transition

/-!
# OmarchyYolo.Runtime — worker slots and repository locks

`ResourceCoordinator` counts who waits for a worker slot or a repository lock,
and keeps a lock object for a repository as long as somebody needs it. Between
two `await`s nothing else runs, so the code of `worker_slot` and `repo_lock` is
cut there: every piece is one step, and pieces of any number of coroutines
follow each other in any order.

* `ResourceCoordinator` — the counters and the registry, as the pieces change them;
* `coordinator` — the pieces, when the event loop can run them;
* `Accounted` — what the counters and the registry say;
* `coordinator_accounted` — it holds whatever the order.
-/

namespace OmarchyYolo

open Py EventLoop Lts

/-! ## The coordinator -/

/-- What its code could raise. -/
inductive LockError where
  /-- `self._repo_waiters[key]` without the key. -/
  | keyError (key : Str)
  /-- `release` of a lock that is not locked. -/
  | runtimeError
deriving DecidableEq, Repr

/-- `ResourceCoordinator`, without its sums of seconds; a lock is a reference. -/
structure ResourceCoordinator where
  maxWorkers : Nat
  activeWorkers : Int := 0
  waitingWorkers : Int := 0
  repoLocks : AList fun _ : Str => Nat := ∅
  repoWaiters : AList fun _ : Str => Int := ∅
  repoActive : Finset Str := ∅
  workerAcquisitions : Nat := 0
  workerCancelledWaits : Nat := 0
  workerPeakActive : Int := 0
  repoAcquisitions : Nat := 0
  repoCancelledWaits : Nat := 0

/-- What `snapshot` tells. -/
structure CoordinatorSnapshot where
  workerCapacity : Nat
  workersActive : Int
  workersWaiting : Int
  repositoriesActive : Nat
  repositoryWaiters : Int
  workerAcquisitionsTotal : Nat
  workerCancelledWaitsTotal : Nat
  workerPeakActive : Int
  repositoryAcquisitionsTotal : Nat
  repositoryCancelledWaitsTotal : Nat
deriving DecidableEq, Repr

namespace ResourceCoordinator

/-- `worker_slot`, up to `await self._worker_slots.acquire()`. -/
def slotQueued (self : ResourceCoordinator) : ResourceCoordinator :=
  { self with waitingWorkers := self.waitingWorkers + 1 }

/-- From there to the `yield`. -/
def slotAcquired (self : ResourceCoordinator) : ResourceCoordinator :=
  let active := self.activeWorkers + 1
  { self with
      waitingWorkers     := self.waitingWorkers - 1
      workerAcquisitions := self.workerAcquisitions + 1
      activeWorkers      := active
      workerPeakActive   := max self.workerPeakActive active }

/-- After the `yield`; the slot is released too. -/
def slotReleased (self : ResourceCoordinator) : ResourceCoordinator :=
  { self with activeWorkers := self.activeWorkers - 1 }

/-- `if not acquired` at its end. -/
def slotCancelled (self : ResourceCoordinator) : ResourceCoordinator :=
  { self with
      waitingWorkers       := self.waitingWorkers - 1
      workerCancelledWaits := self.workerCancelledWaits + 1 }

/-- The lock that `setdefault` returns in `repo_lock`; `fresh` is the one that `asyncio.Lock()`
has created for it. -/
def repoLock (self : ResourceCoordinator) (key : Str) (fresh : Nat) : Nat :=
  (self.repoLocks.lookup key).getD fresh

/-- `repo_lock`, up to `await lock.acquire()`. -/
def repoQueued (self : ResourceCoordinator) (key : Str) (fresh : Nat) : ResourceCoordinator :=
  { self with
      repoLocks   := setdefault self.repoLocks key fresh
      repoWaiters := self.repoWaiters.insert key ((self.repoWaiters.lookup key).getD 0 + 1) }

/-- `self._repo_waiters[key] -= 1`. -/
def countDown (self : ResourceCoordinator) (key : Str) : Except LockError ResourceCoordinator :=
  match self.repoWaiters.lookup key with
  | some n => .ok { self with repoWaiters := self.repoWaiters.insert key (n - 1) }
  | none => .error (.keyError key)

/-- From there to the `yield`. -/
def repoAcquired (self : ResourceCoordinator) (key : Str) : Except LockError ResourceCoordinator :=
  (self.countDown key).map fun self =>
    { self with
        repoAcquisitions := self.repoAcquisitions + 1
        repoActive       := insert key self.repoActive }

/-- `if not acquired` at its end. -/
def repoCancelled (self : ResourceCoordinator) (key : Str) : Except LockError ResourceCoordinator :=
  (self.countDown key).map fun self =>
    { self with repoCancelledWaits := self.repoCancelledWaits + 1 }

/-- The registry at its end; `locked` is `lock.locked()`. -/
def repoForgotten (self : ResourceCoordinator) (key : Str) (locked : Bool) :
    ResourceCoordinator :=
  -- a key that is gone is not a key with nobody waiting: `.get(key) == 0` is false of `None`
  if self.repoWaiters.lookup key = some 0 then
    { self with
        repoWaiters := self.repoWaiters.erase key
        repoLocks   := if locked then self.repoLocks else self.repoLocks.erase key }
  else self

def snapshot (self : ResourceCoordinator) : CoordinatorSnapshot where
  workerCapacity                := self.maxWorkers
  workersActive                 := self.activeWorkers
  workersWaiting                := self.waitingWorkers
  repositoriesActive            := self.repoActive.card
  repositoryWaiters             := (self.repoWaiters.entries.map Sigma.snd).sum
  workerAcquisitionsTotal       := self.workerAcquisitions
  workerCancelledWaitsTotal     := self.workerCancelledWaits
  workerPeakActive              := self.workerPeakActive
  repositoryAcquisitionsTotal   := self.repoAcquisitions
  repositoryCancelledWaitsTotal := self.repoCancelledWaits

end ResourceCoordinator

/-! ## The coroutines -/

section Runtime

variable {ι : Type} [DecidableEq ι]

/-- A coroutine in `repo_lock`, with its variables. -/
structure RepoUse (ι : Type) where
  coroutine : ι
  key : Str
  lock : Nat
deriving DecidableEq

/-- The coordinator, its semaphore and the lock objects, and the coroutines at the two `await`s
and the two `yield`s; `slotEntries` and `repoEntries` count who has come. A coroutine that is
in two blocks at once has a name `ι` in each. -/
structure Runtime (ι : Type) where
  self : ResourceCoordinator
  workerSlots : Semaphore ι
  locks : Locks := {}
  slotWaiting : Finset ι := ∅
  slotInside : Finset ι := ∅
  repoWaiting : Finset (RepoUse ι) := ∅
  repoInside : Finset (RepoUse ι) := ∅
  slotEntries : Nat := 0
  repoEntries : Nat := 0

/-- `ResourceCoordinator(max_workers)`; `none` for the `ValueError`. -/
def Runtime.create (ι : Type) (maxWorkers : Int) : Option (Runtime ι) :=
  if maxWorkers < 1 then none
  else some
    { self        := { maxWorkers := maxWorkers.toNat }
      workerSlots := { value := maxWorkers.toNat } }

/-- A piece of code that runs, or a unit given to a waiter. `key` is what `_repo_key` has
returned. -/
inductive RuntimeEvent (ι : Type) where
  | slotEnter (c : ι)
  | slotGrant (c : ι)
  | slotAcquired (c : ι)
  | slotCancel (c : ι)
  | slotLeave (c : ι)
  | repoEnter (c : ι) (key : Str)
  | repoAcquired (use : RepoUse ι)
  | repoCancel (use : RepoUse ι)
  | repoLeave (use : RepoUse ι)

/-- Where the coroutines are, what the semaphore has to give and whether the lock is free. -/
def Runtime.Enabled (w : Runtime ι) : RuntimeEvent ι → Prop
  | .slotEnter c => c ∉ w.slotWaiting ∧ c ∉ w.slotInside
  | .slotGrant c => c ∈ w.slotWaiting ∧ c ∉ w.workerSlots.granted ∧ 0 < w.workerSlots.value
  | .slotAcquired c => c ∈ w.slotWaiting ∧ c ∈ w.workerSlots.granted
  | .slotCancel c => c ∈ w.slotWaiting
  | .slotLeave c => c ∈ w.slotInside
  | .repoEnter c _ => ∀ use ∈ w.repoWaiting ∪ w.repoInside, use.coroutine ≠ c
  | .repoAcquired use => use ∈ w.repoWaiting ∧ use.lock ∉ w.locks.locked
  | .repoCancel use => use ∈ w.repoWaiting
  | .repoLeave use => use ∈ w.repoInside

/-- `repo_lock` after its `yield`, however the body has ended. -/
def Runtime.leaveRepo (w : Runtime ι) (use : RepoUse ι) : Except LockError (Runtime ι) :=
  match w.locks.release? use.lock with
  | none => .error .runtimeError
  | some locks =>
    let self := { w.self with repoActive := w.self.repoActive.erase use.key }
    .ok { w with
      self       := self.repoForgotten use.key (use.lock ∈ locks.locked)
      locks      := locks
      repoInside := w.repoInside.erase use }

def Runtime.run (w : Runtime ι) : RuntimeEvent ι → Except LockError (Runtime ι)
  | .slotEnter c => .ok
      { w with
          self        := w.self.slotQueued
          slotWaiting := insert c w.slotWaiting
          slotEntries := w.slotEntries + 1 }
  | .slotGrant c => .ok { w with workerSlots := w.workerSlots.grant c }
  | .slotAcquired c => .ok
      { w with
          self        := w.self.slotAcquired
          workerSlots := w.workerSlots.acquired c
          slotWaiting := w.slotWaiting.erase c
          slotInside  := insert c w.slotInside }
  | .slotCancel c => .ok
      { w with
          self        := w.self.slotCancelled
          workerSlots := w.workerSlots.cancelled c
          slotWaiting := w.slotWaiting.erase c }
  | .slotLeave c => .ok
      { w with
          self        := w.self.slotReleased
          workerSlots := w.workerSlots.release
          slotInside  := w.slotInside.erase c }
  | .repoEnter c key =>
    .ok { w with
      self        := w.self.repoQueued key w.locks.next
      locks       := w.locks.create
      repoWaiting := insert ⟨c, key, w.self.repoLock key w.locks.next⟩ w.repoWaiting
      repoEntries := w.repoEntries + 1 }
  | .repoAcquired use => (w.self.repoAcquired use.key).map fun self =>
      { w with
          self        := self
          locks       := w.locks.acquire use.lock
          repoWaiting := w.repoWaiting.erase use
          repoInside  := insert use w.repoInside }
  | .repoCancel use => (w.self.repoCancelled use.key).map fun self =>
      { w with
          self        := self.repoForgotten use.key (use.lock ∈ w.locks.locked)
          repoWaiting := w.repoWaiting.erase use }
  | .repoLeave use => w.leaveRepo use

/-- Coroutines that enter, leave and are cancelled in any order. -/
def coordinator (ι : Type) [DecidableEq ι] : System (Runtime ι) (RuntimeEvent ι) where
  init w := ∃ maxWorkers, Runtime.create ι maxWorkers = some w
  step w e w' := w.Enabled e ∧ w.run e = .ok w'

/-! ## What is to hold -/

/-- Who waits for the lock of a repository. -/
def Runtime.waitingFor (w : Runtime ι) (key : Str) : Finset (RepoUse ι) :=
  w.repoWaiting.filter fun use => use.key = key

/-- The counters are those of the coroutines, and no two are in one repository. -/
structure Runtime.Accounted (w : Runtime ι) : Prop where
  exclusive : ∀ use ∈ w.repoInside, ∀ other ∈ w.repoInside, use.key = other.key → use = other
  active : w.self.activeWorkers = w.slotInside.card
  bounded : w.slotInside.card ≤ w.self.maxWorkers
  waiting : w.self.waitingWorkers = w.slotWaiting.card
  waiters : ∀ key, (w.self.repoWaiters.lookup key).getD 0 = (w.waitingFor key).card
  slotEntries : w.slotEntries =
    w.self.workerAcquisitions + w.self.workerCancelledWaits + w.slotWaiting.card
  repoEntries : w.repoEntries =
    w.self.repoAcquisitions + w.self.repoCancelledWaits + w.repoWaiting.card
  repositories : w.self.snapshot.repositoriesActive = w.repoInside.card
  repositoryWaiters : w.self.snapshot.repositoryWaiters = w.repoWaiting.card

/-- What carries the slots through the steps. -/
structure Runtime.SlotInv (w : Runtime ι) : Prop where
  apart : Disjoint w.slotWaiting w.slotInside
  granted : w.workerSlots.granted ⊆ w.slotWaiting
  conserved : w.workerSlots.Conserves w.slotInside w.self.maxWorkers
  active : w.self.activeWorkers = w.slotInside.card
  waiting : w.self.waitingWorkers = w.slotWaiting.card
  entries : w.slotEntries =
    w.self.workerAcquisitions + w.self.workerCancelledWaits + w.slotWaiting.card

/-- What carries the locks: the lock of a repository stays registered while a coroutine waits
for it or holds it, and no lock is registered twice. -/
structure Runtime.RepoInv (w : Runtime ι) : Prop where
  registered : ∀ use ∈ w.repoWaiting ∪ w.repoInside,
    w.self.repoLocks.lookup use.key = some use.lock
  distinct : ∀ key key' lock, w.self.repoLocks.lookup key = some lock →
    w.self.repoLocks.lookup key' = some lock → key = key'
  known : ∀ key lock, w.self.repoLocks.lookup key = some lock → lock < w.locks.next
  held : ∀ lock, lock ∈ w.locks.locked ↔ ∃ use ∈ w.repoInside, use.lock = lock
  exclusive : ∀ use ∈ w.repoInside, ∀ other ∈ w.repoInside, use.lock = other.lock → use = other
  waiters : ∀ key, (w.self.repoWaiters.lookup key).getD 0 = (w.waitingFor key).card
  repoActive : w.self.repoActive = w.repoInside.image RepoUse.key
  entries : w.repoEntries =
    w.self.repoAcquisitions + w.self.repoCancelledWaits + w.repoWaiting.card

/-! ## The slots -/

section Slots

variable {w w' : Runtime ι} {c : ι}

theorem Runtime.SlotInv.enter (h : w.SlotInv) (hready : w.Enabled (.slotEnter c))
    (hrun : w.run (.slotEnter c) = .ok w') : w'.SlotInv := by
  obtain ⟨hwaiting, hinside⟩ := hready
  cases hrun
  have hcard := Finset.card_insert_of_notMem hwaiting
  have hcount := h.waiting
  have hentries := h.entries
  constructor
  · exact Finset.disjoint_insert_left.mpr ⟨hinside, h.apart⟩
  · exact h.granted.trans (Finset.subset_insert c w.slotWaiting)
  · exact h.conserved
  · exact h.active
  · show w.self.waitingWorkers + 1 = (insert c w.slotWaiting).card
    omega
  · show w.slotEntries + 1 =
      w.self.workerAcquisitions + w.self.workerCancelledWaits + (insert c w.slotWaiting).card
    omega

theorem Runtime.SlotInv.grant (h : w.SlotInv) (hready : w.Enabled (.slotGrant c))
    (hrun : w.run (.slotGrant c) = .ok w') : w'.SlotInv := by
  obtain ⟨hwaiting, hnew, hfree⟩ := hready
  cases hrun
  constructor
  · exact h.apart
  · exact Finset.insert_subset hwaiting h.granted
  · exact h.conserved.grant hfree hnew
  · exact h.active
  · exact h.waiting
  · exact h.entries

theorem Runtime.SlotInv.acquired (h : w.SlotInv) (hready : w.Enabled (.slotAcquired c))
    (hrun : w.run (.slotAcquired c) = .ok w') : w'.SlotInv := by
  obtain ⟨hwaiting, hgranted⟩ := hready
  cases hrun
  have hnew : c ∉ w.slotInside := Finset.disjoint_left.mp h.apart hwaiting
  have herase := Finset.card_erase_add_one hwaiting
  have hinsert := Finset.card_insert_of_notMem hnew
  have hactive := h.active
  have hcount := h.waiting
  have hentries := h.entries
  constructor
  · rw [Finset.disjoint_insert_right]
    exact ⟨Finset.notMem_erase c _, h.apart.mono_left (Finset.erase_subset c _)⟩
  · exact Finset.erase_subset_erase c h.granted
  · exact h.conserved.acquired hgranted hnew
  · show w.self.activeWorkers + 1 = (insert c w.slotInside).card
    omega
  · show w.self.waitingWorkers - 1 = (w.slotWaiting.erase c).card
    omega
  · show w.slotEntries = w.self.workerAcquisitions + 1 + w.self.workerCancelledWaits +
      (w.slotWaiting.erase c).card
    omega

theorem Runtime.SlotInv.cancel (h : w.SlotInv) (hready : w.Enabled (.slotCancel c))
    (hrun : w.run (.slotCancel c) = .ok w') : w'.SlotInv := by
  have hwaiting : c ∈ w.slotWaiting := hready
  cases hrun
  have herase := Finset.card_erase_add_one hwaiting
  have hcount := h.waiting
  have hentries := h.entries
  constructor
  · exact h.apart.mono_left (Finset.erase_subset c _)
  · exact Finset.erase_subset_erase c h.granted
  · exact h.conserved.cancelled
  · exact h.active
  · show w.self.waitingWorkers - 1 = (w.slotWaiting.erase c).card
    omega
  · show w.slotEntries = w.self.workerAcquisitions + (w.self.workerCancelledWaits + 1) +
      (w.slotWaiting.erase c).card
    omega

theorem Runtime.SlotInv.leave (h : w.SlotInv) (hready : w.Enabled (.slotLeave c))
    (hrun : w.run (.slotLeave c) = .ok w') : w'.SlotInv := by
  have hinside : c ∈ w.slotInside := hready
  cases hrun
  have herase := Finset.card_erase_add_one hinside
  have hactive := h.active
  constructor
  · exact h.apart.mono_right (Finset.erase_subset c _)
  · exact h.granted
  · exact h.conserved.release hinside
  · show w.self.activeWorkers - 1 = (w.slotInside.erase c).card
    omega
  · exact h.waiting
  · exact h.entries

/-- What has to do with the slots. -/
def Runtime.slotSide (w : Runtime ι) :=
  ((w.slotWaiting, w.slotInside, w.workerSlots, w.slotEntries),
    w.self.maxWorkers, w.self.activeWorkers, w.self.waitingWorkers,
    w.self.workerAcquisitions, w.self.workerCancelledWaits)

omit [DecidableEq ι] in
theorem Runtime.SlotInv.frame (h : w.SlotInv) (hside : w'.slotSide = w.slotSide) :
    w'.SlotInv := by
  simp only [Runtime.slotSide, Prod.mk.injEq] at hside
  obtain ⟨⟨hwaiting, hinside, hslots, hentries⟩, hmax, hactive, hcount, hacq, hcancelled⟩ := hside
  constructor
  · rw [hwaiting, hinside]
    exact h.apart
  · rw [hslots, hwaiting]
    exact h.granted
  · rw [hslots, hinside, hmax]
    exact h.conserved
  · rw [hactive, hinside]
    exact h.active
  · rw [hcount, hwaiting]
    exact h.waiting
  · rw [hentries, hacq, hcancelled, hwaiting]
    exact h.entries

end Slots

/-! ## The locks -/

section Locks

variable {w w' : Runtime ι} {c : ι} {key : Str} {use : RepoUse ι}

/-- A key that somebody waits for is counted. -/
theorem Runtime.RepoInv.countDown (h : w.RepoInv) (huse : use ∈ w.repoWaiting) :
    ∃ n, w.self.repoWaiters.lookup use.key = some n ∧ w.self.countDown use.key =
      .ok { w.self with repoWaiters := w.self.repoWaiters.insert use.key (n - 1) } := by
  have hpos : 0 < (w.waitingFor use.key).card :=
    Finset.card_pos.mpr ⟨use, Finset.mem_filter.mpr ⟨huse, rfl⟩⟩
  have hcount := h.waiters use.key
  unfold ResourceCoordinator.countDown
  cases hlookup : w.self.repoWaiters.lookup use.key with
  | none =>
    rw [hlookup, Option.getD_none] at hcount
    omega
  | some n => exact ⟨n, rfl, rfl⟩

theorem Runtime.RepoInv.run_repoAcquired (h : w.RepoInv) (huse : use ∈ w.repoWaiting) :
    ∃ n, w.self.repoWaiters.lookup use.key = some n ∧ w.run (.repoAcquired use) = .ok
      { w with
          self        :=
            { w.self with
                repoWaiters      := w.self.repoWaiters.insert use.key (n - 1)
                repoAcquisitions := w.self.repoAcquisitions + 1
                repoActive       := insert use.key w.self.repoActive }
          locks       := w.locks.acquire use.lock
          repoWaiting := w.repoWaiting.erase use
          repoInside  := insert use w.repoInside } := by
  obtain ⟨n, hlookup, hcounted⟩ := h.countDown huse
  refine ⟨n, hlookup, ?_⟩
  show ((w.self.countDown use.key).map _).map _ = _
  rw [hcounted]
  rfl

theorem Runtime.RepoInv.run_repoCancel (h : w.RepoInv) (huse : use ∈ w.repoWaiting) :
    ∃ n, w.self.repoWaiters.lookup use.key = some n ∧ w.run (.repoCancel use) = .ok
      { w with
          self        :=
            { w.self with
                repoWaiters        := w.self.repoWaiters.insert use.key (n - 1)
                repoCancelledWaits := w.self.repoCancelledWaits + 1 }.repoForgotten use.key
              (use.lock ∈ w.locks.locked)
          repoWaiting := w.repoWaiting.erase use } := by
  obtain ⟨n, hlookup, hcounted⟩ := h.countDown huse
  refine ⟨n, hlookup, ?_⟩
  show ((w.self.countDown use.key).map _).map _ = _
  rw [hcounted]
  rfl

/-- Whoever leaves has locked its lock. -/
theorem Runtime.RepoInv.run_repoLeave (h : w.RepoInv) (huse : use ∈ w.repoInside) :
    w.run (.repoLeave use) = .ok
      { w with
          self       :=
            { w.self with repoActive := w.self.repoActive.erase use.key }.repoForgotten use.key
              (use.lock ∈ w.locks.locked.erase use.lock)
          locks      := { w.locks with locked := w.locks.locked.erase use.lock }
          repoInside := w.repoInside.erase use } := by
  have hlocked : use.lock ∈ w.locks.locked := (h.held use.lock).mpr ⟨use, huse, rfl⟩
  show w.leaveRepo use = _
  unfold Runtime.leaveRepo Locks.release?
  rw [if_pos hlocked]

/-- One fewer waits. -/
theorem Runtime.RepoInv.waiters_erase (h : w.RepoInv) (huse : use ∈ w.repoWaiting) {n : Int}
    (hlookup : w.self.repoWaiters.lookup use.key = some n) (key : Str) :
    (((w.self.repoWaiters.insert use.key (n - 1)).lookup key).getD 0 : Int) =
      ((w.repoWaiting.erase use).filter fun other => other.key = key).card := by
  have hcount := h.waiters key
  rw [Finset.filter_erase]
  by_cases hkey : key = use.key
  · subst hkey
    have hmem : use ∈ w.waitingFor use.key := Finset.mem_filter.mpr ⟨huse, rfl⟩
    have herase := Finset.card_erase_add_one hmem
    rw [hlookup, Option.getD_some] at hcount
    rw [AList.lookup_insert, Option.getD_some]
    show n - 1 = ((w.waitingFor use.key).erase use).card
    omega
  · have hnot : use ∉ w.waitingFor key := by
      intro hmem
      exact hkey (Finset.mem_filter.mp hmem).2.symm
    rw [AList.lookup_insert_ne hkey, hcount]
    show _ = (((w.waitingFor key).erase use).card : Int)
    rw [Finset.erase_eq_of_notMem hnot]

theorem Runtime.RepoInv.enter (h : w.RepoInv) (hready : w.Enabled (.repoEnter c key))
    (hrun : w.run (.repoEnter c key) = .ok w') : w'.RepoInv := by
  have hother : ∀ use ∈ w.repoWaiting ∪ w.repoInside, use.coroutine ≠ c := hready
  cases hrun
  obtain ⟨lock, hlock⟩ : ∃ lock, w.self.repoLock key w.locks.next = lock := ⟨_, rfl⟩
  obtain ⟨locks, hlocks⟩ : ∃ locks, setdefault w.self.repoLocks key w.locks.next = locks := ⟨_, rfl⟩
  -- what the registry holds for the key that is entered, and for every other
  have hkey : locks.lookup key = some lock := by
    rw [← hlocks, lookup_setdefault, ← hlock]
    rfl
  have hkeys (other : Str) (hne : other ≠ key) :
      locks.lookup other = w.self.repoLocks.lookup other := by
    rw [← hlocks, lookup_setdefault_ne hne]
  -- the lock is the one that has been registered, or nobody has it
  have hfresh : w.self.repoLocks.lookup key = some lock ∨
      w.self.repoLocks.lookup key = none ∧ lock = w.locks.next := by
    rw [← hlock]
    unfold ResourceCoordinator.repoLock
    cases w.self.repoLocks.lookup key with
    | none => exact Or.inr ⟨rfl, rfl⟩
    | some lock => exact Or.inl rfl
  -- no other key has this lock: it was registered for `key` alone, or is a new one
  have hapart (other : Str) (hne : other ≠ key) : w.self.repoLocks.lookup other ≠ some lock := by
    intro hother
    rcases hfresh with hfound | ⟨-, hnext⟩
    · exact hne (h.distinct other key lock hother hfound)
    · have hlt := h.known other lock hother
      omega
  have hnew : (⟨c, key, lock⟩ : RepoUse ι) ∉ w.repoWaiting := by
    intro hmem
    exact hother _ (Finset.mem_union_left _ hmem) rfl
  show Runtime.RepoInv
    { w with
        self        := w.self.repoQueued key w.locks.next
        locks       := w.locks.create
        repoWaiting := insert ⟨c, key, w.self.repoLock key w.locks.next⟩ w.repoWaiting
        repoEntries := w.repoEntries + 1 }
  rw [ResourceCoordinator.repoQueued, hlock, hlocks]
  constructor
  -- `registered`: the new use has the lock of its key, the others keep theirs
  · intro use huse
    show locks.lookup use.key = some use.lock
    have huse' : use ∈ insert ⟨c, key, lock⟩ (w.repoWaiting ∪ w.repoInside) := by
      rw [← Finset.insert_union]
      exact huse
    rcases Finset.mem_insert.mp huse' with rfl | huse
    · exact hkey
    · have hregistered := h.registered use huse
      by_cases hsame : use.key = key
      -- the key was registered before, so its lock is the one the users have
      · rcases hfresh with hfound | ⟨hnone, -⟩
        · rw [hsame, hfound] at hregistered
          rw [hsame, hkey, hregistered]
        -- a key in use is registered, so it cannot have been absent
        · rw [hsame, hnone] at hregistered
          cases hregistered
      · rw [hkeys _ hsame, hregistered]
  -- `distinct`: two keys with one lock are the same key
  · intro first second other hfirst hsecond
    show first = second
    by_cases hfirst' : first = key <;> by_cases hsecond' : second = key
    · rw [hfirst', hsecond']
    -- one of the two is the key that is entered: its lock is apart from all others
    · subst hfirst'
      obtain rfl : lock = other := Option.some.inj (hkey.symm.trans hfirst)
      exact absurd ((hkeys second hsecond').symm.trans hsecond) (hapart second hsecond')
    · subst hsecond'
      obtain rfl : lock = other := Option.some.inj (hkey.symm.trans hsecond)
      exact absurd ((hkeys first hfirst').symm.trans hfirst) (hapart first hfirst')
    · exact h.distinct first second other ((hkeys first hfirst').symm.trans hfirst)
        ((hkeys second hsecond').symm.trans hsecond)
  -- `known`: a lock that has just been created is below the next identity
  · intro other lock' hlookup
    show lock' < w.locks.next + 1
    by_cases hsame : other = key
    · subst hsame
      obtain rfl : lock = lock' := Option.some.inj (hkey.symm.trans hlookup)
      rcases hfresh with hfound | ⟨-, hnext⟩
      · have hlt := h.known other lock hfound
        omega
      · omega
    · have hlt := h.known other lock' ((hkeys other hsame).symm.trans hlookup)
      omega
  · exact h.held
  · exact h.exclusive
  -- `waiters`: one more waits for `key`, the other counters are as before
  · intro other
    have hcount := h.waiters other
    show (((w.self.repoWaiters.insert key _).lookup other).getD 0 : Int) =
      (((insert ⟨c, key, lock⟩ w.repoWaiting).filter fun use => use.key = other).card : Int)
    by_cases hsame : other = key
    · subst hsame
      have hnot : (⟨c, other, lock⟩ : RepoUse ι) ∉ w.waitingFor other :=
        fun hmem => hnew (Finset.mem_filter.mp hmem).1
      have hinsert := Finset.card_insert_of_notMem hnot
      rw [AList.lookup_insert, Option.getD_some, Finset.filter_insert, if_pos rfl]
      show (w.self.repoWaiters.lookup other).getD 0 + 1 =
        ((insert (⟨c, other, lock⟩ : RepoUse ι) (w.waitingFor other)).card : Int)
      omega
    · rw [AList.lookup_insert_ne hsame, Finset.filter_insert, if_neg fun heq => hsame heq.symm]
      exact hcount
  · exact h.repoActive
  -- `entries`: the new entry is among those who wait
  · have hinsert := Finset.card_insert_of_notMem hnew
    have hentries := h.entries
    show w.repoEntries + 1 = w.self.repoAcquisitions + w.self.repoCancelledWaits +
      (insert (⟨c, key, lock⟩ : RepoUse ι) w.repoWaiting).card
    omega

theorem Runtime.RepoInv.acquired (h : w.RepoInv) (hready : w.Enabled (.repoAcquired use))
    (hrun : w.run (.repoAcquired use) = .ok w') : w'.RepoInv := by
  obtain ⟨hwaiting, hfree⟩ := hready
  obtain ⟨n, hlookup, hcounted⟩ := h.run_repoAcquired hwaiting
  cases hcounted.symm.trans hrun
  have hentries := h.entries
  have herase := Finset.card_erase_add_one hwaiting
  constructor
  -- `registered`: who was waiting is inside now, with the same lock
  · intro other hother
    apply h.registered
    rcases Finset.mem_union.mp hother with hother | hother
    · exact Finset.mem_union_left _ (Finset.mem_of_mem_erase hother)
    · rcases Finset.mem_insert.mp hother with rfl | hother
      · exact Finset.mem_union_left _ hwaiting
      · exact Finset.mem_union_right _ hother
  · exact h.distinct
  · exact h.known
  -- `held`: the lock that is taken is the one of the new user
  · intro lock
    show lock ∈ insert use.lock w.locks.locked ↔
      ∃ other ∈ insert use w.repoInside, other.lock = lock
    rw [Finset.mem_insert, h.held, Finset.exists_mem_insert, eq_comm]
  · -- the lock was free, so nobody else is inside with it
    have hnobody : ∀ other ∈ w.repoInside, other.lock ≠ use.lock := by
      intro other hother heq
      exact hfree ((h.held use.lock).mpr ⟨other, hother, heq⟩)
    intro first hfirst second hsecond hsame
    rcases Finset.mem_insert.mp hfirst with hfirst' | hfirst' <;>
      rcases Finset.mem_insert.mp hsecond with hsecond' | hsecond'
    · rw [hfirst', hsecond']
    · rw [hfirst'] at hsame
      exact absurd hsame.symm (hnobody second hsecond')
    · rw [hsecond'] at hsame
      exact absurd hsame (hnobody first hfirst')
    · exact h.exclusive first hfirst' second hsecond' hsame
  -- `waiters`, `repoActive` and `entries`: one leaves the queue and goes inside
  · exact h.waiters_erase hwaiting hlookup
  · show insert use.key w.self.repoActive = (insert use w.repoInside).image RepoUse.key
    rw [Finset.image_insert, h.repoActive]
  · show w.repoEntries = w.self.repoAcquisitions + 1 + w.self.repoCancelledWaits +
      (w.repoWaiting.erase use).card
    omega

/-- Where nobody is inside, the lock may be forgotten. -/
theorem Runtime.RepoInv.forgotten (h : w.RepoInv) {locked : Bool}
    (hnobody : locked = false → ∀ use ∈ w.repoInside, use.key ≠ key) :
    { w with self := w.self.repoForgotten key locked }.RepoInv := by
  unfold ResourceCoordinator.repoForgotten
  by_cases hzero : w.self.repoWaiters.lookup key = some 0
  swap
  -- somebody waits for the key: nothing is forgotten
  · rw [if_neg hzero]
    exact h
  rw [if_pos hzero]
  have hnone : w.waitingFor key = ∅ := by
    have hcount := h.waiters key
    rw [hzero, Option.getD_some] at hcount
    exact Finset.card_eq_zero.mp (by omega)
  obtain ⟨locks, hlocks⟩ : ∃ locks,
      (if locked then w.self.repoLocks else w.self.repoLocks.erase key) = locks := ⟨_, rfl⟩
  rw [hlocks]
  -- a lock that is still registered has been registered
  have hkept (other : Str) (lock : Nat) (hlookup : locks.lookup other = some lock) :
      w.self.repoLocks.lookup other = some lock := by
    rw [← hlocks] at hlookup
    split_ifs at hlookup
    · exact hlookup
    · by_cases hsame : other = key
      · rw [hsame, AList.lookup_erase] at hlookup
        cases hlookup
      · rwa [AList.lookup_erase_ne hsame] at hlookup
  constructor
  -- `registered`: a use of the key would wait for it or be inside, and neither is left
  · intro use huse
    have hregistered := h.registered use huse
    show locks.lookup use.key = some use.lock
    rw [← hlocks]
    split_ifs with hlocked
    · exact hregistered
    · have hne : use.key ≠ key := by
        rcases Finset.mem_union.mp huse with hwaiting | hinside
        · intro hsame
          have hmem : use ∈ w.waitingFor key := Finset.mem_filter.mpr ⟨hwaiting, hsame⟩
          rw [hnone] at hmem
          exact absurd hmem (Finset.notMem_empty use)
        · exact hnobody (Bool.eq_false_iff.mpr hlocked) use hinside
      rw [AList.lookup_erase_ne hne, hregistered]
  -- `distinct` and `known`: fewer locks are registered than before
  · intro first second lock hfirst hsecond
    exact h.distinct first second lock (hkept first lock hfirst) (hkept second lock hsecond)
  · intro other lock hlookup
    exact h.known other lock (hkept other lock hlookup)
  · exact h.held
  · exact h.exclusive
  -- `waiters`: the counter that goes away was zero
  · intro other
    show (((w.self.repoWaiters.erase key).lookup other).getD 0 : Int) = (w.waitingFor other).card
    by_cases hsame : other = key
    · rw [hsame, AList.lookup_erase, hnone]
      rfl
    · rw [AList.lookup_erase_ne hsame]
      exact h.waiters other
  · exact h.repoActive
  · exact h.entries

theorem Runtime.RepoInv.cancel (h : w.RepoInv) (hready : w.Enabled (.repoCancel use))
    (hrun : w.run (.repoCancel use) = .ok w') : w'.RepoInv := by
  have hwaiting : use ∈ w.repoWaiting := hready
  obtain ⟨n, hlookup, hcounted⟩ := h.run_repoCancel hwaiting
  cases hcounted.symm.trans hrun
  have hcounted' : Runtime.RepoInv
      { w with
          self        :=
            { w.self with
                repoWaiters        := w.self.repoWaiters.insert use.key (n - 1)
                repoCancelledWaits := w.self.repoCancelledWaits + 1 }
          repoWaiting := w.repoWaiting.erase use } := by
    have hentries := h.entries
    have herase := Finset.card_erase_add_one hwaiting
    constructor
    · intro other hother
      apply h.registered
      exact Finset.union_subset_union_left (Finset.erase_subset use _) hother
    · exact h.distinct
    · exact h.known
    · exact h.held
    · exact h.exclusive
    · exact h.waiters_erase hwaiting hlookup
    · exact h.repoActive
    · show w.repoEntries = w.self.repoAcquisitions + (w.self.repoCancelledWaits + 1) +
        (w.repoWaiting.erase use).card
      omega
  apply hcounted'.forgotten
  -- somebody inside would have the same lock, and it would be locked
  intro hfree other hother hsame
  have hlock : other.lock = use.lock := by
    have hregistered := h.registered other (Finset.mem_union_right _ hother)
    rw [hsame, h.registered use (Finset.mem_union_left _ hwaiting)] at hregistered
    exact (Option.some.inj hregistered).symm
  exact absurd ((h.held use.lock).mpr ⟨other, hother, hlock⟩) (of_decide_eq_false hfree)

/-- Two inside one repository are one. -/
theorem Runtime.RepoInv.eq_of_key (h : w.RepoInv) {other : RepoUse ι} (huse : use ∈ w.repoInside)
    (hother : other ∈ w.repoInside) (hkey : use.key = other.key) : use = other := by
  apply h.exclusive use huse other hother
  have hregistered := h.registered use (Finset.mem_union_right _ huse)
  rw [hkey, h.registered other (Finset.mem_union_right _ hother)] at hregistered
  exact (Option.some.inj hregistered).symm

theorem Runtime.RepoInv.leave (h : w.RepoInv) (hready : w.Enabled (.repoLeave use))
    (hrun : w.run (.repoLeave use) = .ok w') : w'.RepoInv := by
  have hinside : use ∈ w.repoInside := hready
  cases (h.run_repoLeave hinside).symm.trans hrun
  -- first the lock is given back, then the key may be forgotten
  have hreleased : Runtime.RepoInv
      { w with
          self       := { w.self with repoActive := w.self.repoActive.erase use.key }
          locks      := { w.locks with locked := w.locks.locked.erase use.lock }
          repoInside := w.repoInside.erase use } := by
    constructor
    -- `registered`: fewer use the locks
    · intro other hother
      apply h.registered
      exact Finset.union_subset_union_right (Finset.erase_subset use _) hother
    · exact h.distinct
    · exact h.known
    -- `held`: nobody else was inside with this lock
    · intro lock
      show lock ∈ w.locks.locked.erase use.lock ↔
        ∃ other ∈ w.repoInside.erase use, other.lock = lock
      rw [Finset.mem_erase, h.held]
      constructor
      · rintro ⟨hne, other, hother, rfl⟩
        -- another lock is held by another user
        exact ⟨other, Finset.mem_erase.mpr ⟨fun heq => hne (by rw [heq]), hother⟩, rfl⟩
      · rintro ⟨other, hother, rfl⟩
        rw [Finset.mem_erase] at hother
        -- another user has another lock, since a lock is exclusive
        exact ⟨fun heq => hother.1 (h.exclusive other hother.2 use hinside heq), other, hother.2,
          rfl⟩
    · intro first hfirst second hsecond
      exact h.exclusive first (Finset.mem_of_mem_erase hfirst) second
        (Finset.mem_of_mem_erase hsecond)
    · exact h.waiters
    -- `repoActive`: nobody else is inside with this key
    · show w.self.repoActive.erase use.key = (w.repoInside.erase use).image RepoUse.key
      rw [h.repoActive]
      ext key
      rw [Finset.mem_erase, Finset.mem_image, Finset.mem_image]
      constructor
      · rintro ⟨hne, other, hother, rfl⟩
        exact ⟨other, Finset.mem_erase.mpr ⟨fun heq => hne (by rw [heq]), hother⟩, rfl⟩
      · rintro ⟨other, hother, rfl⟩
        rw [Finset.mem_erase] at hother
        exact ⟨fun heq => hother.1 (h.eq_of_key hother.2 hinside heq), other, hother.2, rfl⟩
    · exact h.entries
  -- nobody is inside with the key any more, so forgetting its lock is safe
  apply hreleased.forgotten
  intro _ other hother hsame
  have hother' := Finset.mem_erase.mp hother
  exact hother'.1 (h.eq_of_key hother'.2 hinside hsame)

end Locks

/-! ## Any order -/

section Order

variable {w w' : Runtime ι} {e : RuntimeEvent ι}

theorem Runtime.create_inv {maxWorkers : Int} (h : Runtime.create ι maxWorkers = some w) :
    w.SlotInv ∧ w.RepoInv := by
  unfold Runtime.create at h
  split_ifs at h
  cases h
  constructor
  · constructor
    · exact Finset.disjoint_empty_left ∅
    · exact Finset.empty_subset ∅
    · show maxWorkers.toNat + 0 + 0 = maxWorkers.toNat
      omega
    · rfl
    · rfl
    · rfl
  · have hnobody (use : RepoUse ι) : use ∉ (∅ : Finset (RepoUse ι)) := Finset.notMem_empty use
    constructor
    · intro use huse
      rcases Finset.mem_union.mp huse with huse | huse <;> exact absurd huse (hnobody use)
    · intro key key' lock hlookup
      cases hlookup
    · intro key lock hlookup
      cases hlookup
    · intro lock
      constructor
      · intro hlock
        exact absurd hlock (Finset.notMem_empty lock)
      · rintro ⟨use, huse, -⟩
        exact absurd huse (hnobody use)
    · intro use huse
      exact absurd huse (hnobody use)
    · intro key
      rfl
    · rfl
    · rfl

theorem Runtime.SlotInv.step (h : w.SlotInv) (hlocks : w.RepoInv) (hready : w.Enabled e)
    (hrun : w.run e = .ok w') : w'.SlotInv := by
  cases e with
  | slotEnter c => exact h.enter hready hrun
  | slotGrant c => exact h.grant hready hrun
  | slotAcquired c => exact h.acquired hready hrun
  | slotCancel c => exact h.cancel hready hrun
  | slotLeave c => exact h.leave hready hrun
  | repoEnter c key =>
    cases hrun
    exact { h with }
  | repoAcquired use =>
    obtain ⟨n, -, hcounted⟩ := hlocks.run_repoAcquired hready.1
    cases hcounted.symm.trans hrun
    exact { h with }
  | repoCancel use =>
    obtain ⟨n, -, hcounted⟩ := hlocks.run_repoCancel hready
    cases hcounted.symm.trans hrun
    apply h.frame
    unfold Runtime.slotSide ResourceCoordinator.repoForgotten
    split_ifs <;> rfl
  | repoLeave use =>
    cases (hlocks.run_repoLeave hready).symm.trans hrun
    apply h.frame
    unfold Runtime.slotSide ResourceCoordinator.repoForgotten
    split_ifs <;> rfl

theorem Runtime.RepoInv.step (h : w.RepoInv) (hready : w.Enabled e)
    (hrun : w.run e = .ok w') : w'.RepoInv := by
  cases e with
  | repoEnter c key => exact h.enter hready hrun
  | repoAcquired use => exact h.acquired hready hrun
  | repoCancel use => exact h.cancel hready hrun
  | repoLeave use => exact h.leave hready hrun
  | slotEnter c =>
    cases hrun
    exact { h with }
  | slotGrant c =>
    cases hrun
    exact { h with }
  | slotAcquired c =>
    cases hrun
    exact { h with }
  | slotCancel c =>
    cases hrun
    exact { h with }
  | slotLeave c =>
    cases hrun
    exact { h with }

theorem reachable_runtimeInv (h : (coordinator ι).Reachable w) : w.SlotInv ∧ w.RepoInv := by
  apply h.invariant
  · rintro w ⟨maxWorkers, hcreate⟩
    exact Runtime.create_inv hcreate
  · rintro w e w' - ⟨hslots, hlocks⟩ ⟨hready, hrun⟩
    exact ⟨hslots.step hlocks hready hrun, hlocks.step hready hrun⟩

/-- Nothing that the event loop can run raises. -/
theorem Runtime.RepoInv.run_ok (h : w.RepoInv) (hready : w.Enabled e) : ∃ w', w.run e = .ok w' := by
  cases e with
  | repoAcquired use =>
    obtain ⟨n, -, hrun⟩ := h.run_repoAcquired hready.1
    exact ⟨_, hrun⟩
  | repoCancel use =>
    obtain ⟨n, -, hrun⟩ := h.run_repoCancel hready
    exact ⟨_, hrun⟩
  | repoLeave use => exact ⟨_, h.run_repoLeave hready⟩
  | _ => exact ⟨_, rfl⟩

/-- The invariants tell what the counters say. -/
theorem Runtime.SlotInv.accounted (h : w.SlotInv) (hlocks : w.RepoInv) : w.Accounted := by
  constructor
  · intro use huse other hother hkey
    exact hlocks.eq_of_key huse hother hkey
  · exact h.active
  · have hconserved := h.conserved
    unfold Semaphore.Conserves at hconserved
    omega
  · exact h.waiting
  · exact hlocks.waiters
  · exact h.entries
  · exact hlocks.entries
  · show w.self.repoActive.card = w.repoInside.card
    rw [hlocks.repoActive]
    apply Finset.card_image_of_injOn
    intro use huse other hother hkey
    exact hlocks.eq_of_key huse hother hkey
  · exact sum_values_eq_card hlocks.waiters

/-- A slot is free where fewer than `maxWorkers` are inside and nobody waits. -/
theorem exists_slotAcquired {c : ι} (h : w.SlotInv) (hwaiting : w.slotWaiting = ∅)
    (hnew : c ∉ w.slotInside) (hfree : w.slotInside.card < w.self.maxWorkers) :
    ∃ w', (coordinator ι).Steps w w' ∧ w'.slotWaiting = ∅ ∧
      w'.slotInside = insert c w.slotInside ∧ w'.self.maxWorkers = w.self.maxWorkers := by
  have hgranted : w.workerSlots.granted = ∅ := by
    rw [← Finset.subset_empty, ← hwaiting]
    exact h.granted
  have hvalue : 0 < w.workerSlots.value := by
    have hconserved := h.conserved
    rw [Semaphore.Conserves, hgranted, Finset.card_empty] at hconserved
    omega
  have henter : w.Enabled (.slotEnter c) := by
    refine ⟨?_, hnew⟩
    rw [hwaiting]
    exact Finset.notMem_empty c
  obtain ⟨w₁, h₁⟩ : ∃ w₁, w.run (.slotEnter c) = .ok w₁ := ⟨_, rfl⟩
  have hgrant : w₁.Enabled (.slotGrant c) := by
    cases h₁
    refine ⟨Finset.mem_insert_self c _, ?_, hvalue⟩
    show c ∉ w.workerSlots.granted
    rw [hgranted]
    exact Finset.notMem_empty c
  obtain ⟨w₂, h₂⟩ : ∃ w₂, w₁.run (.slotGrant c) = .ok w₂ := ⟨_, rfl⟩
  have hacquired : w₂.Enabled (.slotAcquired c) := by
    cases h₂
    exact ⟨hgrant.1, Finset.mem_insert_self c _⟩
  obtain ⟨w₃, h₃⟩ : ∃ w₃, w₂.run (.slotAcquired c) = .ok w₃ := ⟨_, rfl⟩
  refine ⟨w₃, ?_, ?_⟩
  · exact .tail (.tail (.single ⟨_, henter, h₁⟩) ⟨_, hgrant, h₂⟩) ⟨_, hacquired, h₃⟩
  · cases h₁
    cases h₂
    cases h₃
    refine ⟨?_, rfl, rfl⟩
    show (insert c w.slotWaiting).erase c = ∅
    rw [hwaiting, Finset.erase_insert (Finset.notMem_empty c)]

/-- From no coroutine on, any that are not too many get slots. -/
theorem exists_slotsAcquired (hreach : (coordinator ι).Reachable w) (hwaiting : w.slotWaiting = ∅)
    (hinside : w.slotInside = ∅) (coroutines : Finset ι)
    (hcard : coroutines.card ≤ w.self.maxWorkers) : ∃ w', (coordinator ι).Steps w w' ∧
      w'.slotWaiting = ∅ ∧ w'.slotInside = coroutines ∧ w'.self.maxWorkers = w.self.maxWorkers := by
  induction coroutines using Finset.induction_on with
  | empty => exact ⟨w, .refl, hwaiting, hinside, rfl⟩
  | insert c coroutines hnew ih =>
    rw [Finset.card_insert_of_notMem hnew] at hcard
    obtain ⟨w₁, hsteps, hwaiting₁, hinside₁, hmax₁⟩ := ih (by omega)
    have hinv := (reachable_runtimeInv (hreach.steps hsteps)).1
    have hnew₁ : c ∉ w₁.slotInside := by rwa [hinside₁]
    have hfree₁ : w₁.slotInside.card < w₁.self.maxWorkers := by
      rw [hinside₁, hmax₁]
      omega
    obtain ⟨w₂, hsteps₂, hwaiting₂, hinside₂, hmax₂⟩ :=
      exists_slotAcquired hinv hwaiting₁ hnew₁ hfree₁
    exact ⟨w₂, hsteps.trans hsteps₂, hwaiting₂, by rw [hinside₂, hinside₁], hmax₂.trans hmax₁⟩

/-- Whatever coroutines enter, leave and are cancelled, and in whatever order: the counters are
those of the coroutines, none of the code raises, and when the slots have been left all of them
can be acquired again. -/
theorem coordinator_accounted (h : (coordinator ι).Reachable w) :
    w.Accounted ∧ (∀ e, w.Enabled e → ∃ w', w.run e = .ok w') ∧
      (w.slotWaiting = ∅ → w.slotInside = ∅ → ∀ coroutines : Finset ι,
        coroutines.card ≤ w.self.maxWorkers →
          ∃ w', (coordinator ι).Steps w w' ∧ w'.slotInside = coroutines) := by
  obtain ⟨hslots, hlocks⟩ := reachable_runtimeInv h
  refine ⟨hslots.accounted hlocks, fun e hready => hlocks.run_ok hready, ?_⟩
  intro hwaiting hinside coroutines hcard
  obtain ⟨w', hsteps, -, hall, -⟩ := exists_slotsAcquired h hwaiting hinside coroutines hcard
  exact ⟨w', hsteps, hall⟩

end Order

/-! ## A run -/

instance Runtime.decidableEnabled (w : Runtime ι) : (e : RuntimeEvent ι) → Decidable (w.Enabled e)
  | .slotEnter c => inferInstanceAs (Decidable (c ∉ w.slotWaiting ∧ c ∉ w.slotInside))
  | .slotGrant c => inferInstanceAs
      (Decidable (c ∈ w.slotWaiting ∧ c ∉ w.workerSlots.granted ∧ 0 < w.workerSlots.value))
  | .slotAcquired c =>
      inferInstanceAs (Decidable (c ∈ w.slotWaiting ∧ c ∈ w.workerSlots.granted))
  | .slotCancel c => inferInstanceAs (Decidable (c ∈ w.slotWaiting))
  | .slotLeave c => inferInstanceAs (Decidable (c ∈ w.slotInside))
  | .repoEnter c _ => inferInstanceAs
      (Decidable (∀ use ∈ w.repoWaiting ∪ w.repoInside, use.coroutine ≠ c))
  | .repoAcquired use =>
      inferInstanceAs (Decidable (use ∈ w.repoWaiting ∧ use.lock ∉ w.locks.locked))
  | .repoCancel use => inferInstanceAs (Decidable (use ∈ w.repoWaiting))
  | .repoLeave use => inferInstanceAs (Decidable (use ∈ w.repoInside))

/-- The step of an event, where it can run. -/
def Runtime.next (w : Runtime ι) (e : RuntimeEvent ι) : Option (Runtime ι) :=
  if w.Enabled e then (w.run e).toOption else none

theorem Runtime.of_next {w w' : Runtime ι} {e : RuntimeEvent ι} (h : w.next e = some w') :
    w.Enabled e ∧ w.run e = .ok w' := by
  unfold Runtime.next at h
  split_ifs at h with hready
  refine ⟨hready, ?_⟩
  cases hrun : w.run e with
  | error err =>
    rw [hrun] at h
    cases h
  | ok w₁ =>
    rw [hrun] at h
    cases h
    rfl

theorem Runtime.next_step (w : Runtime ι) (e : RuntimeEvent ι) (w' : Runtime ι)
    (h : w.next e = some w') : (coordinator ι).Step w w' := ⟨e, Runtime.of_next h⟩

end Runtime

/-- Two coroutines and one slot. The second gives up waiting for the slot, and waits for the
repository; when the first has left, the lock is still there for the second. -/
def demoRuntimeEvents : List (RuntimeEvent Nat) :=
  [.slotEnter 1, .slotGrant 1, .slotAcquired 1, .slotEnter 2, .slotCancel 2,
    .repoEnter 1 (lit "/repo"), .repoAcquired ⟨1, lit "/repo", 0⟩, .repoEnter 2 (lit "/repo"),
    .repoLeave ⟨1, lit "/repo", 0⟩, .repoAcquired ⟨2, lit "/repo", 0⟩]

theorem coordinator_accounted_two : ∃ w, (coordinator Nat).Reachable w ∧ w.Accounted ∧
    w.slotInside = {1} ∧ w.repoInside = {⟨2, lit "/repo", 0⟩} := by
  obtain ⟨w₀, hcreate, w, hfollow, hslot, hrepo⟩ : ∃ w₀, Runtime.create Nat 1 = some w₀ ∧
      ∃ w, demoRuntimeEvents.foldlM Runtime.next w₀ = some w ∧ w.slotInside = {1} ∧
        w.repoInside = {⟨2, lit "/repo", 0⟩} :=
    ⟨_, rfl, _, rfl, rfl, rfl⟩
  have hreach : (coordinator Nat).Reachable w :=
    ⟨w₀, ⟨1, hcreate⟩, System.steps_of_foldlM Runtime.next_step hfollow⟩
  exact ⟨w, hreach, (coordinator_accounted hreach).1, hslot, hrepo⟩

end OmarchyYolo
