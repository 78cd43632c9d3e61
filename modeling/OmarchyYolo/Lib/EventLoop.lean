import Mathlib.Logic.Function.Basic

/-!
# OmarchyYolo.Lib.EventLoop — futures, shields and tasks of an event loop

The loop runs callbacks one at a time in the order in which they were scheduled. A
future that is done schedules its callbacks; a shield is a second future that the
first one completes; a task is woken by the future it waits for.

* `Outcome`, `Future`, `Loop` — what a future ends with, and the loop's state;
* `Loop.complete`, `Loop.cancel`, `Loop.addDoneCallback`, `Loop.shield` — the operations
  on futures;
* `Task.cancel`, `Task.suspend`, `Task.thrown` — a cancellation is passed on to the future
  that is waited for, or kept until the next step.
-/

namespace Asyncio

/-- What a future ends with. -/
inductive Outcome (α X : Type) where
  | result (a : α)
  | exception (x : X)
  | cancelled
deriving DecidableEq, Repr

inductive Callback where
  /-- `_inner_done_callback` of a shield. -/
  | innerDone (inner outer : Nat)
  /-- `_outer_done_callback` of a shield. -/
  | outerDone (inner outer : Nat)
  /-- `Task.__wakeup`, of the task that waits for the future. -/
  | wakeup (future : Nat)
deriving DecidableEq, Repr

structure Future (α X : Type) where
  outcome : Option (Outcome α X) := none
  callbacks : List Callback := []

/-- One more callback. -/
def Future.push {α X : Type} (future : Future α X) (c : Callback) : Future α X where
  outcome := future.outcome
  callbacks := future.callbacks ++ [c]

/-- The futures by their numbers, of which those from `fresh` on are unused, and what is
scheduled. -/
structure Loop (α X : Type) where
  futures : Nat → Future α X
  fresh : Nat
  ready : List Callback

variable {α X : Type}

namespace Loop

/-- How the future has ended, if it has. -/
def outcome (w : Loop α X) (f : Nat) : Option (Outcome α X) := (w.futures f).outcome

def done (w : Loop α X) (f : Nat) : Bool := (w.outcome f).isSome

def setFuture (w : Loop α X) (f : Nat) (future : Future α X) : Loop α X :=
  { w with futures := Function.update w.futures f future }

def schedule (w : Loop α X) (callbacks : List Callback) : Loop α X :=
  { w with ready := w.ready ++ callbacks }

/-- `set_result` and `set_exception`, and what `cancel` does to a future that is pending. -/
def complete (w : Loop α X) (f : Nat) (o : Outcome α X) : Loop α X :=
  (w.setFuture f { outcome := some o }).schedule (w.futures f).callbacks

/-- `Future.cancel`, with what it returns. -/
def cancel (w : Loop α X) (f : Nat) : Bool × Loop α X :=
  if w.done f then (false, w) else (true, w.complete f .cancelled)

def addDoneCallback (w : Loop α X) (f : Nat) (c : Callback) : Loop α X :=
  if w.done f then w.schedule [c]
  else w.setFuture f ((w.futures f).push c)

def removeDoneCallback (w : Loop α X) (f : Nat) (c : Callback) : Loop α X :=
  w.setFuture f { w.futures f with callbacks := (w.futures f).callbacks.filter (· ≠ c) }

/-- `create_future`. -/
def createFuture (w : Loop α X) : Nat × Loop α X :=
  (w.fresh, { w.setFuture w.fresh {} with fresh := w.fresh + 1 })

/-- `asyncio.shield`, of a future. -/
def shield (w : Loop α X) (inner : Nat) : Nat × Loop α X :=
  if w.done inner then (inner, w)
  else
    let (outer, w) := w.createFuture
    let w := w.addDoneCallback inner (.innerDone inner outer)
    (outer, w.addDoneCallback outer (.outerDone inner outer))

/-- `_inner_done_callback`. Completing a future twice raises, which leaves it as it is. -/
def innerDone (w : Loop α X) (inner outer : Nat) : Loop α X :=
  match w.outcome outer, w.outcome inner with
  | none, some o => w.complete outer o
  | _, _ => w

/-- `_outer_done_callback`. -/
def outerDone (w : Loop α X) (inner outer : Nat) : Loop α X :=
  if w.done inner then w else w.removeDoneCallback inner (.innerDone inner outer)

end Loop

/-- A task that has not ended: whether it is still to be cancelled, and the future it
waits for. -/
structure Task where
  mustCancel : Bool := false
  waiter : Option Nat := none
deriving DecidableEq, Repr

namespace Task

/-- `Task.cancel`. -/
def cancel (task : Task) (w : Loop α X) : Task × Loop α X :=
  match task.waiter with
  | none => ({ task with mustCancel := true }, w)
  | some f =>
    let (passedOn, w) := w.cancel f
    if passedOn then (task, w) else ({ task with mustCancel := true }, w)

/-- The end of a step that has come to an `await` of the future. -/
def suspend (task : Task) (w : Loop α X) (f : Nat) : Task × Loop α X :=
  let w := w.addDoneCallback f (.wakeup f)
  let task := { task with waiter := some f }
  if task.mustCancel then
    let (passedOn, w) := w.cancel f
    ({ task with mustCancel := !passedOn }, w)
  else (task, w)

/-- What the next step throws in at the `await`, or returns from it. -/
def thrown (task : Task) (o : Outcome α X) : Outcome α X :=
  if task.mustCancel then .cancelled else o

/-- A task in its next step. -/
def stepping (_ : Task) : Task := {}

end Task

/-! ## What the operations leave -/

namespace Loop

variable (w : Loop α X) (f g : Nat) (o : Outcome α X) (c : Callback)

@[simp] theorem setFuture_ready (future : Future α X) :
    (w.setFuture f future).ready = w.ready := rfl

@[simp] theorem setFuture_fresh (future : Future α X) :
    (w.setFuture f future).fresh = w.fresh := rfl

@[simp] theorem setFuture_futures_self (future : Future α X) :
    (w.setFuture f future).futures f = future := Function.update_self ..

theorem setFuture_futures_of_ne {future : Future α X} (h : g ≠ f) :
    (w.setFuture f future).futures g = w.futures g := Function.update_of_ne h ..

@[simp] theorem complete_fresh : (w.complete f o).fresh = w.fresh := rfl

@[simp] theorem complete_ready :
    (w.complete f o).ready = w.ready ++ (w.futures f).callbacks := rfl

@[simp] theorem complete_futures_self : (w.complete f o).futures f = { outcome := some o } :=
  setFuture_futures_self ..

@[simp] theorem complete_outcome_self : (w.complete f o).outcome f = some o :=
  congrArg Future.outcome (complete_futures_self ..)

@[simp] theorem complete_done_self : (w.complete f o).done f = true :=
  congrArg Option.isSome (complete_outcome_self ..)

theorem complete_futures_of_ne (h : g ≠ f) : (w.complete f o).futures g = w.futures g :=
  setFuture_futures_of_ne _ _ _ h

theorem complete_outcome_of_ne (h : g ≠ f) : (w.complete f o).outcome g = w.outcome g :=
  congrArg Future.outcome (complete_futures_of_ne _ _ _ _ h)

theorem complete_done (h : w.done g = true) : (w.complete f o).done g = true := by
  by_cases hfg : g = f
  · rw [hfg, complete_done_self]
  · rw [done, complete_outcome_of_ne _ _ _ _ hfg]
    exact h

theorem outcome_none (h : w.done f = false) : w.outcome f = none :=
  Option.not_isSome_iff_eq_none.mp (by rw [← done, h]; exact Bool.false_ne_true)

@[simp] theorem removeDoneCallback_outcome :
    (w.removeDoneCallback f c).outcome g = w.outcome g := by
  by_cases hfg : g = f
  · rw [hfg, outcome, removeDoneCallback, setFuture_futures_self]
    rfl
  · exact congrArg Future.outcome (setFuture_futures_of_ne _ _ _ hfg)

@[simp] theorem removeDoneCallback_ready : (w.removeDoneCallback f c).ready = w.ready := rfl

@[simp] theorem removeDoneCallback_fresh : (w.removeDoneCallback f c).fresh = w.fresh := rfl

theorem removeDoneCallback_futures_of_ne (h : g ≠ f) :
    (w.removeDoneCallback f c).futures g = w.futures g := setFuture_futures_of_ne _ _ _ h

@[simp] theorem removeDoneCallback_callbacks : ((w.removeDoneCallback f c).futures f).callbacks =
    (w.futures f).callbacks.filter (· ≠ c) :=
  congrArg Future.callbacks (setFuture_futures_self ..)

variable {w} {f}

theorem addDoneCallback_of_pending (h : w.done f = false) :
    w.addDoneCallback f c = w.setFuture f ((w.futures f).push c) := by
  rw [addDoneCallback, h, if_neg Bool.false_ne_true]

theorem cancel_of_pending (h : w.done f = false) :
    w.cancel f = (true, w.complete f .cancelled) := by
  rw [cancel, h, if_neg Bool.false_ne_true]

/-- A shield of a pending future: a new future that the first one completes. -/
theorem shield_of_pending (h : w.done f = false) (hlt : f < w.fresh) : w.shield f =
    (w.fresh, { (w.setFuture f ((w.futures f).push (.innerDone f w.fresh))).setFuture w.fresh
                  (Future.push {} (.outerDone f w.fresh)) with fresh := w.fresh + 1 }) := by
  have hne : f ≠ w.fresh := Nat.ne_of_lt hlt
  have hcreated : w.createFuture.2.futures f = w.futures f := setFuture_futures_of_ne _ _ _ hne
  have hpending : w.createFuture.2.done f = false := by
    rw [done, outcome, hcreated]
    exact h
  have hnew : (w.createFuture.2.addDoneCallback f (.innerDone f w.fresh)).futures w.fresh = {} := by
    rw [addDoneCallback_of_pending _ hpending, setFuture_futures_of_ne _ _ _ hne.symm]
    exact setFuture_futures_self ..
  have hnone :
      (w.createFuture.2.addDoneCallback f (.innerDone f w.fresh)).done w.fresh = false := by
    rw [done, outcome, hnew]
    rfl
  rw [shield, h, if_neg Bool.false_ne_true]
  show (w.fresh, (w.createFuture.2.addDoneCallback f (.innerDone f w.fresh)).addDoneCallback w.fresh
    (.outerDone f w.fresh)) = _
  rw [addDoneCallback_of_pending _ hnone, hnew, addDoneCallback_of_pending _ hpending, hcreated]
  simp only [createFuture, setFuture]
  rw [Function.update_comm hne.symm, Function.update_idem]

end Loop

end Asyncio
