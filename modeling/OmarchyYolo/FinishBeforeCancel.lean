import OmarchyYolo.Effects
import OmarchyYolo.Lib.EventLoop

/-!
# OmarchyYolo.FinishBeforeCancel — the coroutine that defers a cancellation

`finish_before_cancel` awaits a shield of its future again and again until the future
is done. The future may end at any time and in any way, the task may be cancelled at any
time, and the loop runs one callback after another.

* `State`, `Event`, `next` — the coroutine in an event loop;
* `Inv` — the shield that is awaited, and what was asked of the task meanwhile;
* `Verdict`, `run_measure` — how it ends, and that it does once the future has;
* `ended_finishBeforeCancel` — the program that stands for the coroutine elsewhere.
-/

namespace OmarchyYolo

open Asyncio

namespace FinishBeforeCancel

variable {α X : Type}

/-! ## The coroutine -/

/-- What it raises: an exception of its own, or that of the future. -/
inductive Error (X : Type) where
  | cancelledError
  | invalidStateError
  | exception (x : X)
deriving DecidableEq, Repr

/-- Where it stands: at the `await`, with the value of `cancelled`, or at its end. -/
inductive Point (α X : Type) where
  | awaiting (cancelled : Bool)
  | ended (ending : Except (Error X) α)

structure State (α X : Type) where
  loop : Loop α X
  task : Task
  point : Point α X
  /-- Whether the task has been cancelled at the `await`. -/
  requested : Bool

/-- The future that is awaited. -/
def inner : Nat := 0

/-- `inner.result()`. -/
def innerResult : Option (Outcome α X) → Except (Error X) α
  | some (.result a) => .ok a
  | some (.exception x) => .error (.exception x)
  | some .cancelled => .error .cancelledError
  | none => .error .invalidStateError

/-- What follows the loop. -/
def conclude (cancelled : Bool) (outcome : Option (Outcome α X)) : Except (Error X) α :=
  match innerResult outcome with
  | .error x => if cancelled then .error .cancelledError else .error x
  | .ok result => if cancelled then .error .cancelledError else .ok result

namespace State

/-- The code after the loop. -/
def afterLoop (s : State α X) (cancelled : Bool) : State α X :=
  { s with point := .ended (conclude cancelled (s.loop.outcome inner)) }

/-- The code from the head of the loop on. -/
def whileHead (s : State α X) (cancelled : Bool) : State α X :=
  if s.loop.done inner then s.afterLoop cancelled
  else
    let (outer, loop) := s.loop.shield inner
    let (task, loop) := s.task.suspend loop outer
    { loop, task, point := .awaiting cancelled, requested := s.requested || s.task.mustCancel }

end State

/-- The call, of a future that may have ended, in a task that may have been cancelled. -/
def start (outcome : Option (Outcome α X)) (mustCancel : Bool) : State α X :=
  State.whileHead
    { loop := { futures := fun f => if f = inner then { outcome } else {}
                fresh := inner + 1
                ready := [] }
      task := { mustCancel }
      point := .awaiting false
      requested := false } false

/-- The future ends, the task is cancelled, or the loop runs the next callback. -/
inductive Event (α X : Type) where
  | settle (o : Outcome α X)
  | cancel
  | run

section Steps

variable (isCancelledError : X → Bool)

/-- What is caught at the `await` as a cancellation. -/
def isCancellation : Outcome α X → Bool
  | .result _ => false
  | .exception x => isCancelledError x
  | .cancelled => true

namespace State

/-- The code from the `await` on, which returns or raises. -/
def resume (s : State α X) (cancelled : Bool) (o : Outcome α X) : State α X :=
  if isCancellation isCancelledError o then s.whileHead true
  else match o with
    | .exception _ => s.afterLoop cancelled
    | _ => s.whileHead cancelled

def runCallback (s : State α X) : Callback → State α X
  | .innerDone i outer => { s with loop := s.loop.innerDone i outer }
  | .outerDone i outer => { s with loop := s.loop.outerDone i outer }
  | .wakeup f => match s.point with
    | .ended _ => s
    | .awaiting cancelled =>
      let stepping := { s with task := s.task.stepping }
      match s.loop.outcome f with
      | some o => stepping.resume isCancelledError cancelled (s.task.thrown o)
      -- the future's `result()` raises `InvalidStateError`
      | none => stepping.afterLoop cancelled

def next (s : State α X) : Event α X → Option (State α X)
  | .settle o => if s.loop.done inner then none else some { s with loop := s.loop.complete inner o }
  | .cancel => match s.point with
    | .ended _ => none
    | .awaiting _ =>
      let (task, loop) := s.task.cancel s.loop
      some { s with task, loop, requested := true }
  | .run => match s.loop.ready with
    | [] => none
    | c :: ready => some ({ s with loop := { s.loop with ready } }.runCallback isCancelledError c)

end State

def system : Lts.System (State α X) (Event α X) where
  init s := ∃ outcome mustCancel, s = start outcome mustCancel
  step s event s' := s.next isCancelledError event = some s'

/-- How it should end when the future has ended with the outcome. -/
def Verdict (requested : Bool) (o : Outcome α X) (ending : Except (Error X) α) : Prop :=
  if requested ∨ isCancellation isCancelledError o then
    ending = .error .cancelledError ∨
      ∃ x, ending = .error (.exception x) ∧ isCancelledError x
  else ending = innerResult (some o)

end Steps

/-! ## The invariant -/

def isWakeup : Callback → Bool
  | .wakeup _ => true
  | _ => false

/-- The callbacks belong to shields of this call. -/
structure Tidy (w : Loop α X) : Prop where
  fresh : inner < w.fresh
  kept : ∀ c ∈ (w.futures inner).callbacks,
    ∃ outer, c = .innerDone inner outer ∧ outer ≠ inner ∧ outer < w.fresh
  innerDone : ∀ i outer, .innerDone i outer ∈ w.ready →
    i = inner ∧ outer ≠ inner ∧ outer < w.fresh
  outerDone : ∀ i outer, .outerDone i outer ∈ w.ready →
    i = inner ∧ outer < w.fresh ∧ w.done outer = true

/-- The shields but for one are done. -/
def OthersDone (w : Loop α X) (outer : Nat) : Prop :=
  ∀ f, f ≠ inner → f ≠ outer → f < w.fresh → w.done f = true

/-- The task waits for the shield, which the future will complete. -/
structure Shielded (s : State α X) (cancelled : Bool) (outer : Nat) : Prop where
  task : s.task = { waiter := some outer }
  requested : s.requested = cancelled
  future : s.loop.futures outer = { callbacks := [.outerDone inner outer, .wakeup outer] }
  wakeups : s.loop.ready.filter isWakeup = []
  linked : s.loop.done inner = false →
    .innerDone inner outer ∈ (s.loop.futures inner).callbacks
  called : s.loop.done inner = true → .innerDone inner outer ∈ s.loop.ready

/-- The shield is done, and the task will be woken. -/
structure Woken (s : State α X) (cancelled : Bool) (outer : Nat) (o : Outcome α X) : Prop where
  waiter : s.task.waiter = some outer
  outcome : s.loop.outcome outer = some o
  wakeups : s.loop.ready.filter isWakeup = [.wakeup outer]
  source : o = .cancelled ∨ s.loop.outcome inner = some o
  asked : cancelled = true ∨ s.task.mustCancel = true → s.requested = true
  heard : s.requested = true → cancelled = true ∨ s.task.mustCancel = true ∨ o = .cancelled
  /-- A shield that is cancelled was cancelled by the task, or with the future. -/
  own : o = .cancelled → s.requested = true ∨ s.loop.outcome inner = some .cancelled

/-- The task waits for one shield, and the others are done. -/
def Waits (s : State α X) (cancelled : Bool) : Prop :=
  ∃ outer, outer ≠ inner ∧ outer < s.loop.fresh ∧ OthersDone s.loop outer ∧
    (Shielded s cancelled outer ∨ ∃ o, Woken s cancelled outer o)

section Invariant

variable (isCancelledError : X → Bool)

/-- The call has ended as it should, and nothing wakes it any more. -/
def Over (s : State α X) (ending : Except (Error X) α) : Prop :=
  OthersDone s.loop inner ∧ s.loop.ready.filter isWakeup = [] ∧
    ∃ o, s.loop.outcome inner = some o ∧ Verdict isCancelledError s.requested o ending

structure Inv (s : State α X) : Prop where
  tidy : Tidy s.loop
  point : match s.point with
    | .awaiting cancelled => Waits s cancelled
    | .ended ending => Over isCancelledError s ending

end Invariant

section Preservation

variable {isCancelledError : X → Bool} {s s' : State α X} {w : Loop α X} {cancelled : Bool}
  {o : Outcome α X} {outer : Nat}

theorem Tidy.noWakeup (h : Tidy w) : (w.futures inner).callbacks.filter isWakeup = [] := by
  rw [List.filter_eq_nil_iff]
  intro c hc
  obtain ⟨_, rfl, -⟩ := h.kept c hc
  exact Bool.false_ne_true

/-- Completing a future keeps the order, when its callbacks belong to a shield. -/
theorem Tidy.complete_inner (h : Tidy w) : Tidy (w.complete inner o) where
  fresh := h.fresh
  kept c hc := by
    rw [Loop.complete_futures_self] at hc
    exact absurd hc List.not_mem_nil
  innerDone i outer hmem := by
    rcases List.mem_append.mp hmem with hready | hkept
    · exact h.innerDone i outer hready
    · obtain ⟨_, heq, hne, hlt⟩ := h.kept _ hkept
      cases heq
      exact ⟨rfl, hne, hlt⟩
  outerDone i outer hmem := by
    rcases List.mem_append.mp hmem with hready | hkept
    · obtain ⟨hi, hlt, hdone⟩ := h.outerDone i outer hready
      exact ⟨hi, hlt, Loop.complete_done _ _ _ _ hdone⟩
    · obtain ⟨_, heq, -⟩ := h.kept _ hkept
      cases heq

theorem Tidy.complete_outer (h : Tidy w) (hne : outer ≠ inner) (hlt : outer < w.fresh)
    (hfuture : (w.futures outer).callbacks = [.outerDone inner outer, .wakeup outer]) :
    Tidy (w.complete outer o) where
  fresh := h.fresh
  kept c hc := by
    rw [Loop.complete_futures_of_ne _ _ _ _ hne.symm] at hc
    exact h.kept c hc
  innerDone i outer' hmem := by
    rw [Loop.complete_ready, hfuture] at hmem
    rcases List.mem_append.mp hmem with hready | hkept
    · exact h.innerDone i outer' hready
    · simp at hkept
  outerDone i outer' hmem := by
    rw [Loop.complete_ready, hfuture] at hmem
    rcases List.mem_append.mp hmem with hready | hkept
    · obtain ⟨hi, hlt', hdone⟩ := h.outerDone i outer' hready
      exact ⟨hi, hlt', Loop.complete_done _ _ _ _ hdone⟩
    · have heq : i = inner ∧ outer' = outer := by simpa using hkept
      obtain ⟨rfl, rfl⟩ := heq
      exact ⟨rfl, hlt, Loop.complete_done_self ..⟩

/-- What runs leaves the rest of the queue. -/
theorem Tidy.tail {c : Callback} {ready : List Callback} (h : Tidy w)
    (hready : w.ready = c :: ready) : Tidy { w with ready } where
  fresh := h.fresh
  kept := h.kept
  innerDone i outer hmem := h.innerDone i outer (by rw [hready]; exact List.mem_cons_of_mem c hmem)
  outerDone i outer hmem := h.outerDone i outer (by rw [hready]; exact List.mem_cons_of_mem c hmem)

theorem OthersDone.complete {f : Nat} (h : OthersDone w outer) :
    OthersDone (w.complete f o) outer :=
  fun g hinner houter hlt => Loop.complete_done _ _ _ _ (h g hinner houter hlt)

theorem OthersDone.all (h : OthersDone w outer) (hdone : w.done outer = true) :
    OthersDone w inner := by
  intro f hinner _ hlt
  by_cases heq : f = outer
  · rw [heq]
    exact hdone
  · exact h f hinner heq hlt

/-! ### A new shield -/

/-- The loop once the task waits for a shield of the future. -/
def shielded (w : Loop α X) : Loop α X :=
  { (w.setFuture inner ((w.futures inner).push (.innerDone inner w.fresh))).setFuture w.fresh
      { callbacks := [.outerDone inner w.fresh, .wakeup w.fresh] } with fresh := w.fresh + 1 }

theorem shielded_inner (h : inner < w.fresh) : (shielded w).futures inner =
    (w.futures inner).push (.innerDone inner w.fresh) :=
  (Loop.setFuture_futures_of_ne _ _ _ (Nat.ne_of_lt h)).trans (Loop.setFuture_futures_self ..)

theorem shielded_outer : (shielded w).futures w.fresh =
    { callbacks := [.outerDone inner w.fresh, .wakeup w.fresh] } := Loop.setFuture_futures_self ..

theorem shielded_done {f : Nat} (h : f ≠ w.fresh) : (shielded w).done f = w.done f := by
  show ((shielded w).futures f).outcome.isSome = (w.futures f).outcome.isSome
  have houter : (shielded w).futures f = (w.setFuture inner ((w.futures inner).push
      (.innerDone inner w.fresh))).futures f := Loop.setFuture_futures_of_ne _ _ _ h
  rw [houter]
  by_cases hf : f = inner
  · rw [hf, Loop.setFuture_futures_self]
    rfl
  · rw [Loop.setFuture_futures_of_ne _ _ _ hf]

theorem shield_wakeup (h : w.done inner = false) (hlt : inner < w.fresh) :
    (w.shield inner).1 = w.fresh ∧
      (w.shield inner).2.addDoneCallback w.fresh (.wakeup w.fresh) = shielded w := by
  rw [Loop.shield_of_pending h hlt]
  refine ⟨rfl, ?_⟩
  rw [Loop.addDoneCallback_of_pending]
  · simp only [shielded, Loop.setFuture, Function.update_self, Function.update_idem]
    rfl
  · simp only [Loop.done, Loop.outcome, Loop.setFuture, Function.update_self]
    rfl

theorem Tidy.shielded (h : Tidy w) : Tidy (shielded w) where
  fresh := Nat.lt_succ_of_lt h.fresh
  kept c hc := by
    rw [shielded_inner h.fresh] at hc
    rcases List.mem_append.mp hc with hbefore | hnew
    · obtain ⟨outer, heq, hne, hlt⟩ := h.kept c hbefore
      exact ⟨outer, heq, hne, Nat.lt_succ_of_lt hlt⟩
    · exact ⟨w.fresh, List.mem_singleton.mp hnew, (Nat.ne_of_lt h.fresh).symm, Nat.lt_succ_self _⟩
  innerDone i outer hmem := by
    obtain ⟨hi, hne, hlt⟩ := h.innerDone i outer hmem
    exact ⟨hi, hne, Nat.lt_succ_of_lt hlt⟩
  outerDone i outer hmem := by
    obtain ⟨hi, hlt, hdone⟩ := h.outerDone i outer hmem
    refine ⟨hi, Nat.lt_succ_of_lt hlt, ?_⟩
    rw [shielded_done (Nat.ne_of_lt hlt)]
    exact hdone

theorem OthersDone.shielded (h : OthersDone w inner) : OthersDone (shielded w) w.fresh := by
  intro f hinner houter hlt
  rw [shielded_done houter]
  have hbefore : f < w.fresh := Nat.lt_of_le_of_ne (Nat.le_of_lt_succ hlt) houter
  exact h f hinner hinner hbefore

/-- The head of the loop, when the future is pending: the task waits for a new shield, which
a cancellation that was already asked for ends at once. -/
theorem whileHead_waits {mustCancel : Bool} (htidy : Tidy s.loop)
    (hothers : OthersDone s.loop inner)
    (hwakeups : s.loop.ready.filter isWakeup = []) (htask : s.task = { mustCancel })
    (hrequested : s.requested = cancelled) (hpending : s.loop.done inner = false) :
    Inv isCancelledError (s.whileHead cancelled) := by
  -- the new shield is a future of its own, pending beside the inner one
  obtain ⟨houter, hloop⟩ := shield_wakeup hpending htidy.fresh
  have hne : s.loop.fresh ≠ inner := (Nat.ne_of_lt htidy.fresh).symm
  have hinner : (shielded s.loop).done inner = false := by
    rw [shielded_done hne.symm]
    exact hpending
  have hnew : (shielded s.loop).done s.loop.fresh = false := by
    rw [Loop.done, Loop.outcome, shielded_outer]
    rfl
  have hhead : s.whileHead cancelled =
      { loop := ((s.task.suspend (s.loop.shield inner).2 s.loop.fresh)).2
        task := ((s.task.suspend (s.loop.shield inner).2 s.loop.fresh)).1
        point := .awaiting cancelled
        requested := s.requested || s.task.mustCancel } := by
    rw [State.whileHead, hpending, if_neg Bool.false_ne_true, ← houter]
  rw [hhead]
  simp only [Task.suspend, hloop, htask, hrequested]
  -- a cancellation that came while the task ran is thrown at this await
  cases mustCancel with
  -- none came: the task waits for the shield
  | false =>
    refine ⟨htidy.shielded, s.loop.fresh, hne, Nat.lt_succ_self _, hothers.shielded, Or.inl ?_⟩
    constructor
    · rfl
    · exact Bool.or_false cancelled
    · exact shielded_outer
    · exact hwakeups
    · intro _
      show _ ∈ ((shielded s.loop).futures inner).callbacks
      rw [shielded_inner htidy.fresh]
      exact List.mem_append_right _ (List.mem_singleton_self _)
    -- the inner future is pending, so its callback has not been called
    · intro hdone
      exact absurd (hinner.symm.trans hdone) Bool.false_ne_true
  -- one came: the shield is cancelled at once, and the task woken
  | true =>
    rw [if_pos rfl, Loop.cancel_of_pending hnew]
    refine ⟨htidy.shielded.complete_outer hne (Nat.lt_succ_self _) ?_, s.loop.fresh, hne,
      Nat.lt_succ_self _, hothers.shielded.complete, Or.inr ⟨.cancelled, ?_⟩⟩
    · rw [shielded_outer]
    constructor
    · rfl
    · exact Loop.complete_outcome_self ..
    · rw [Loop.complete_ready, shielded_outer, List.filter_append]
      show s.loop.ready.filter isWakeup ++ _ = _
      rw [hwakeups]
      rfl
    · exact Or.inl rfl
    · exact fun _ => Bool.or_true cancelled
    · exact fun _ => Or.inr (Or.inr rfl)
    · exact fun _ => Or.inl (Bool.or_true cancelled)

/-- The code after the loop, when the future is done. -/
theorem afterLoop_inv (htidy : Tidy s.loop) (hothers : OthersDone s.loop inner)
    (hwakeups : s.loop.ready.filter isWakeup = []) (ho : s.loop.outcome inner = some o)
    (hverdict : Verdict isCancelledError s.requested o (conclude cancelled (some o))) :
    Inv isCancelledError (s.afterLoop cancelled) := by
  refine ⟨htidy, hothers, hwakeups, o, ho, ?_⟩
  rw [ho]
  exact hverdict

/-- The head of the loop. -/
theorem whileHead_inv {mustCancel : Bool} (htidy : Tidy s.loop) (hothers : OthersDone s.loop inner)
    (hwakeups : s.loop.ready.filter isWakeup = []) (htask : s.task = { mustCancel })
    (hrequested : s.loop.done inner = false → s.requested = cancelled)
    (hverdict : ∀ o, s.loop.outcome inner = some o →
      Verdict isCancelledError s.requested o (conclude cancelled (some o))) :
    Inv isCancelledError (s.whileHead cancelled) := by
  cases hdone : s.loop.done inner with
  | false => exact whileHead_waits htidy hothers hwakeups htask (hrequested hdone) hdone
  | true =>
    obtain ⟨o, ho⟩ := Option.isSome_iff_exists.mp hdone
    rw [State.whileHead, hdone, if_pos rfl]
    exact afterLoop_inv htidy hothers hwakeups ho (hverdict o ho)

theorem conclude_true (outcome : Option (Outcome α X)) :
    conclude true outcome = .error .cancelledError := by
  unfold conclude
  split
  · rfl
  · rfl

theorem conclude_false (outcome : Option (Outcome α X)) :
    conclude false outcome = innerResult outcome := by
  unfold conclude
  split
  · rename_i x hx
    exact hx.symm
  · rename_i a ha
    exact ha.symm

/-- The end is as it should be, when `cancelled` says what was asked for. -/
theorem verdict_conclude {requested : Bool}
    (hheard : requested = true → cancelled = true ∨ isCancellation isCancelledError o = true)
    (hasked : cancelled = true → requested = true ∨ isCancellation isCancelledError o = true) :
    Verdict isCancelledError requested o (conclude cancelled (some o)) := by
  unfold Verdict
  cases cancelled with
  | true =>
    rw [if_pos (hasked rfl)]
    exact Or.inl (conclude_true _)
  | false =>
    rw [conclude_false]
    split
    · rename_i hcancel
      have hown : isCancellation isCancelledError o = true := by
        rcases hcancel with hrequested | hown
        · exact (hheard hrequested).resolve_left Bool.false_ne_true
        · exact hown
      match o, hown with
      | .exception x, hown => exact Or.inr ⟨x, rfl, hown⟩
      | .cancelled, _ => exact Or.inl rfl
    · rfl

theorem start_inv (outcome : Option (Outcome α X)) (mustCancel : Bool) :
    Inv isCancelledError (start outcome mustCancel) := by
  refine @whileHead_inv _ _ isCancelledError _ false mustCancel ?_ ?_ rfl rfl (fun _ => rfl) ?_
  · constructor
    · exact Nat.lt_succ_self _
    · intro c hc
      exact absurd hc List.not_mem_nil
    · intro i outer hmem
      exact absurd hmem List.not_mem_nil
    · intro i outer hmem
      exact absurd hmem List.not_mem_nil
  · intro f hinner _ hlt
    exact absurd (Nat.lt_one_iff.mp hlt) hinner
  · exact fun o _ => verdict_conclude (fun h => absurd h Bool.false_ne_true)
      fun h => absurd h Bool.false_ne_true

/-! ### The steps -/

/-- The future ends. -/
theorem settle_inv (h : Inv isCancelledError s) (hpending : s.loop.done inner = false) :
    Inv isCancelledError { s with loop := s.loop.complete inner o } := by
  refine ⟨h.tidy.complete_inner, ?_⟩
  have hnone : s.loop.outcome inner = none := Loop.outcome_none _ _ hpending
  have hwakeups : (s.loop.complete inner o).ready.filter isWakeup =
      s.loop.ready.filter isWakeup := by
    rw [Loop.complete_ready, List.filter_append, h.tidy.noWakeup, List.append_nil]
  have hpoint := h.point
  -- the coroutine has ended only once the future is done
  cases hp : s.point with
  | ended ending =>
    rw [hp] at hpoint
    obtain ⟨-, -, o', ho', -⟩ := hpoint
    cases hnone.symm.trans ho'
  | awaiting cancelled =>
    rw [hp] at hpoint
    obtain ⟨outer, hne, hlt, hothers, hwaits⟩ := hpoint
    show Waits _ cancelled
    refine ⟨outer, hne, hlt, hothers.complete, ?_⟩
    -- the shield is pending and will hear of the outcome, or is done already
    rcases hwaits with hshielded | ⟨o', hwoken⟩
    · left
      constructor
      · exact hshielded.task
      · exact hshielded.requested
      · exact (Loop.complete_futures_of_ne _ _ _ _ hne).trans hshielded.future
      · exact hwakeups.trans hshielded.wakeups
      · intro hundone
        exact absurd ((Loop.complete_done_self ..).symm.trans hundone) (Ne.symm Bool.false_ne_true)
      -- the callback that links the shield is called now
      · intro _
        exact List.mem_append_right _ (hshielded.linked hpending)
    · right
      -- the shield was cancelled by the task, as the future was pending
      have hcancelled : o' = .cancelled :=
        hwoken.source.resolve_right fun hsome => by cases hnone.symm.trans hsome
      have hrequested : s.requested = true :=
        (hwoken.own hcancelled).resolve_right fun hsome => by cases hnone.symm.trans hsome
      refine ⟨o', ?_⟩
      constructor
      · exact hwoken.waiter
      · exact (Loop.complete_outcome_of_ne _ _ _ _ hne).trans hwoken.outcome
      · exact hwakeups.trans hwoken.wakeups
      · exact Or.inl hcancelled
      · exact hwoken.asked
      · exact hwoken.heard
      · exact fun _ => Or.inl hrequested

/-- The shield is done, when its callbacks have been scheduled. -/
theorem Shielded.wakeups_complete (h : Shielded s cancelled outer) :
    (s.loop.complete outer o).ready.filter isWakeup = [.wakeup outer] := by
  rw [Loop.complete_ready, List.filter_append, h.wakeups, h.future]
  rfl

theorem Shielded.pending (h : Shielded s cancelled outer) : s.loop.done outer = false := by
  rw [Loop.done, Loop.outcome, h.future]
  rfl

/-- The task is cancelled. -/
theorem cancel_inv (h : Inv isCancelledError s) (hp : s.point = .awaiting cancelled) :
    Inv isCancelledError { s with task := (s.task.cancel s.loop).1
                                  loop := (s.task.cancel s.loop).2, requested := true } := by
  have hpoint := h.point
  rw [hp] at hpoint
  obtain ⟨outer, hne, hlt, hothers, hshielded | ⟨o, hwoken⟩⟩ := hpoint
  · -- the cancellation goes to the shield
    have hcancel : s.task.cancel s.loop = (s.task, s.loop.complete outer .cancelled) := by
      simp only [Task.cancel, hshielded.task, Loop.cancel_of_pending hshielded.pending, if_true]
    rw [hcancel]
    refine ⟨h.tidy.complete_outer hne hlt (by rw [hshielded.future]), ?_⟩
    show match s.point with
      | .awaiting cancelled => Waits _ cancelled
      | .ended ending => Over isCancelledError _ ending
    rw [hp]
    refine ⟨outer, hne, hlt, hothers.complete, Or.inr ⟨.cancelled, ?_⟩⟩
    constructor
    · rw [hshielded.task]
    · exact Loop.complete_outcome_self ..
    · exact hshielded.wakeups_complete
    · exact Or.inl rfl
    · exact fun _ => rfl
    · exact fun _ => Or.inr (Or.inr rfl)
    · exact fun _ => Or.inl rfl
  · -- it is kept until the task runs
    have hdone : s.loop.done outer = true := by
      rw [Loop.done, hwoken.outcome]
      rfl
    have hcancel : s.task.cancel s.loop = ({ s.task with mustCancel := true }, s.loop) := by
      simp only [Task.cancel, hwoken.waiter, Loop.cancel, hdone, if_true, if_neg Bool.false_ne_true]
    rw [hcancel]
    refine ⟨h.tidy, ?_⟩
    show match s.point with
      | .awaiting cancelled => Waits _ cancelled
      | .ended ending => Over isCancelledError _ ending
    rw [hp]
    refine ⟨outer, hne, hlt, hothers, Or.inr ⟨o, ?_⟩⟩
    constructor
    · exact hwoken.waiter
    · exact hwoken.outcome
    · exact hwoken.wakeups
    · exact hwoken.source
    · exact fun _ => rfl
    · exact fun _ => Or.inr (Or.inl rfl)
    · exact fun _ => Or.inl rfl

/-- A callback is taken from the queue that is not needed. -/
theorem tail_inv {c : Callback} {ready : List Callback} (h : Inv isCancelledError s)
    (hready : s.loop.ready = c :: ready) (hwakeup : isWakeup c = false)
    (hidle : ∀ outer, c = .innerDone inner outer → s.loop.done inner = true →
      s.loop.done outer = true) :
    Inv isCancelledError { s with loop := { s.loop with ready } } := by
  refine ⟨h.tidy.tail hready, ?_⟩
  have hwakeups : ready.filter isWakeup = s.loop.ready.filter isWakeup := by
    rw [hready, List.filter_cons_of_neg (by rw [hwakeup]; exact Bool.false_ne_true)]
  have hpoint := h.point
  -- the coroutine has ended: the callback that is dropped is no wakeup
  cases hp : s.point with
  | ended ending =>
    rw [hp] at hpoint
    obtain ⟨hothers, hnone, hverdict⟩ := hpoint
    exact ⟨hothers, hwakeups.trans hnone, hverdict⟩
  | awaiting cancelled =>
    rw [hp] at hpoint
    obtain ⟨outer, hne, hlt, hothers, hwaits⟩ := hpoint
    refine ⟨outer, hne, hlt, hothers, ?_⟩
    rcases hwaits with hshielded | ⟨o, hwoken⟩
    · left
      constructor
      · exact hshielded.task
      · exact hshielded.requested
      · exact hshielded.future
      · exact hwakeups.trans hshielded.wakeups
      · exact hshielded.linked
      -- the callback in front is not that of this shield, which is pending
      · intro hdone
        have hmem := hshielded.called hdone
        rw [hready] at hmem
        rcases List.mem_cons.mp hmem with hhead | htail
        · exact absurd (hshielded.pending.symm.trans (hidle outer hhead.symm hdone))
            Bool.false_ne_true
        · exact htail
    -- the task has been woken, and what woke it is not in the queue's head
    · right
      refine ⟨o, ?_⟩
      constructor
      · exact hwoken.waiter
      · exact hwoken.outcome
      · exact hwakeups.trans hwoken.wakeups
      · exact hwoken.source
      · exact hwoken.asked
      · exact hwoken.heard
      · exact hwoken.own

/-- The future completes the shield. -/
theorem innerDone_inv {ready : List Callback} (h : Inv isCancelledError s)
    (hready : s.loop.ready = .innerDone inner outer :: ready) (ho : s.loop.outcome inner = some o)
    (hpending : s.loop.done outer = false) :
    Inv isCancelledError
      { s with loop := ({ s.loop with ready } : Loop α X).complete outer o } := by
  obtain ⟨-, houter, hfresh⟩ := h.tidy.innerDone inner outer
    (by rw [hready]; exact List.mem_cons_self)
  have hpoint := h.point
  cases hp : s.point with
  -- an ended coroutine has no pending shield left
  | ended ending =>
    rw [hp] at hpoint
    obtain ⟨hothers, -⟩ := hpoint
    exact absurd (hpending.symm.trans (hothers outer houter houter hfresh)) Bool.false_ne_true
  | awaiting cancelled =>
    rw [hp] at hpoint
    obtain ⟨outer', hne, hlt, hothers, hwaits⟩ := hpoint
    -- the task waits for this shield, as the others are done
    have hsame : outer' = outer := by
      by_contra hother
      exact absurd (hpending.symm.trans (hothers outer houter (Ne.symm hother) hfresh))
        Bool.false_ne_true
    subst hsame
    -- the shield takes the outcome and wakes the task
    rcases hwaits with hshielded | ⟨o', hwoken⟩
    · refine ⟨(h.tidy.tail hready).complete_outer hne hlt ?_, ?_⟩
      · rw [hshielded.future]
      show Waits _ cancelled
      refine ⟨outer', hne, hlt, OthersDone.complete (w := { s.loop with ready }) hothers,
        Or.inr ⟨o, ?_⟩⟩
      have hwakeups : ready.filter isWakeup = [] := by
        have hnone := hshielded.wakeups
        rw [hready, List.filter_cons_of_neg Bool.false_ne_true] at hnone
        exact hnone
      constructor
      · exact congrArg Task.waiter hshielded.task
      · exact Loop.complete_outcome_self ..
      · rw [Loop.complete_ready, List.filter_append, hwakeups, hshielded.future]
        rfl
      · right
        exact (Loop.complete_outcome_of_ne _ _ _ _ hne.symm).trans ho
      -- the task is as it was before: it has no cancellation of its own
      · rintro (hcancelled | hmust)
        · exact hshielded.requested.trans hcancelled
        · rw [hshielded.task] at hmust
          exact absurd hmust Bool.false_ne_true
      · exact fun hrequested => Or.inl (hshielded.requested.symm.trans hrequested)
      · intro hcancelled
        right
        rw [← hcancelled]
        exact (Loop.complete_outcome_of_ne _ _ _ _ hne.symm).trans ho
    -- a shield that has woken the task is done
    · have hsome : s.loop.done outer' = true := by
        rw [Loop.done, hwoken.outcome]
        rfl
      exact absurd (hpending.symm.trans hsome) Bool.false_ne_true

/-- The callback of a shield that is done is dropped. -/
theorem outerDone_inv (h : Inv isCancelledError s) (hdone : s.loop.done outer = true) :
    Inv isCancelledError { s with loop := s.loop.outerDone inner outer } := by
  unfold Loop.outerDone
  split
  -- the inner future is done: there is no callback to remove
  · exact h
  · rename_i hpending
    have hkept : ∀ f, (s.loop.removeDoneCallback inner (.innerDone inner outer)).done f =
        s.loop.done f := by
      intro f
      rw [Loop.done, Loop.done, Loop.removeDoneCallback_outcome]
    -- no future changes, and the callback goes from the inner one's list only
    constructor
    · constructor
      · exact h.tidy.fresh
      · intro c hc
        rw [Loop.removeDoneCallback_callbacks] at hc
        exact h.tidy.kept c (List.mem_of_mem_filter hc)
      · exact h.tidy.innerDone
      · intro i outer' hmem
        obtain ⟨hi, hlt, hdone'⟩ := h.tidy.outerDone i outer' hmem
        exact ⟨hi, hlt, (hkept outer').trans hdone'⟩
    have hpoint := h.point
    -- ended: then the inner future would be done
    cases hp : s.point with
    | ended ending =>
      rw [hp] at hpoint
      obtain ⟨-, -, o, ho, -⟩ := hpoint
      have hsome : s.loop.done inner = true := by
        rw [Loop.done, ho]
        rfl
      exact absurd hsome hpending
    | awaiting cancelled =>
      rw [hp] at hpoint
      obtain ⟨outer', hne, hlt, hothers, hwaits⟩ := hpoint
      refine ⟨outer', hne, hlt, fun f hf hf' hlt => (hkept f).trans (hothers f hf hf' hlt), ?_⟩
      rcases hwaits with hshielded | ⟨o, hwoken⟩
      · left
        -- the shield that is done is another one
        have hother : outer' ≠ outer := by
          rintro rfl
          exact absurd (hshielded.pending.symm.trans hdone) Bool.false_ne_true
        constructor
        · exact hshielded.task
        · exact hshielded.requested
        · exact (Loop.removeDoneCallback_futures_of_ne _ _ _ _ hne).trans hshielded.future
        · exact hshielded.wakeups
        · intro hundone
          show _ ∈ ((s.loop.removeDoneCallback inner (.innerDone inner outer)).futures
            inner).callbacks
          rw [Loop.removeDoneCallback_callbacks]
          refine List.mem_filter.mpr ⟨hshielded.linked ((hkept inner).symm.trans hundone), ?_⟩
          -- the callback of this shield is kept
          simp [hother]
        · intro hdone'
          exact absurd ((hkept inner).symm.trans hdone') hpending
      -- the task has been woken: the outcomes are as before
      · right
        refine ⟨o, ?_⟩
        constructor
        · exact hwoken.waiter
        · exact (Loop.removeDoneCallback_outcome ..).trans hwoken.outcome
        · exact hwoken.wakeups
        · rcases hwoken.source with hcancelled | hsame
          · exact Or.inl hcancelled
          · exact Or.inr ((Loop.removeDoneCallback_outcome ..).trans hsame)
        · exact hwoken.asked
        · exact hwoken.heard
        · intro hcancelled
          rcases hwoken.own hcancelled with hrequested | hsame
          · exact Or.inl hrequested
          · exact Or.inr ((Loop.removeDoneCallback_outcome ..).trans hsame)

theorem not_mustCancel {task : Task} (h : isCancellation isCancelledError (task.thrown o) = false) :
    task.mustCancel = false ∧ task.thrown o = o := by
  unfold Task.thrown at h ⊢
  cases hmust : task.mustCancel with
  | false => exact ⟨rfl, rfl⟩
  | true =>
    rw [hmust, if_pos rfl] at h
    exact absurd h (Ne.symm Bool.false_ne_true)

/-- The task goes on from its `await`. -/
theorem resume_inv {t : State α X} (hwoken : Woken s cancelled outer o) (htidy : Tidy t.loop)
    (hothers : OthersDone t.loop inner) (hwakeups : t.loop.ready.filter isWakeup = [])
    (htask : t.task = {}) (hinner : t.loop.outcome inner = s.loop.outcome inner)
    (hrequested : t.requested = s.requested) :
    Inv isCancelledError (t.resume isCancelledError cancelled (s.task.thrown o)) := by
  unfold State.resume
  split
  · -- a cancellation: of the task, or of the future
    rename_i hcancellation
    apply whileHead_inv htidy hothers hwakeups htask
    -- the future is pending: the shield was cancelled through the task
    · intro hpending
      have hnone : s.loop.outcome inner = none := hinner.symm.trans (Loop.outcome_none _ _ hpending)
      have hcancelled : o = .cancelled :=
        hwoken.source.resolve_right fun hsome => by cases hnone.symm.trans hsome
      have hown : s.requested = true :=
        (hwoken.own hcancelled).resolve_right fun hsome => by cases hnone.symm.trans hsome
      exact hrequested.trans hown
    -- the future is done: its outcome decides, unless the task was asked to cancel
    · intro o' ho'
      have hended : s.loop.outcome inner = some o' := hinner.symm.trans ho'
      refine verdict_conclude (fun _ => Or.inl rfl) fun _ => ?_
      rw [hrequested]
      cases hmust : s.task.mustCancel with
      | true => exact Or.inl (hwoken.asked (Or.inr hmust))
      | false =>
        rw [Task.thrown, hmust, if_neg Bool.false_ne_true] at hcancellation
        rcases hwoken.source with hcancelled | hsame
        · rcases hwoken.own hcancelled with hasked | hboth
          · exact Or.inl hasked
          · right
            cases hended.symm.trans hboth
            rfl
        · right
          cases hended.symm.trans hsame
          exact hcancellation
  -- no cancellation: the outcome of the future is thrown or returned
  · rename_i hplain
    obtain ⟨hmust, hthrown⟩ := not_mustCancel (Bool.not_eq_true _ ▸ hplain)
    rw [hthrown] at hplain ⊢
    have hne : o ≠ .cancelled := by
      rintro rfl
      exact hplain rfl
    have hended : t.loop.outcome inner = some o := hinner.trans (hwoken.source.resolve_left hne)
    have hverdict : Verdict isCancelledError t.requested o (conclude cancelled (some o)) := by
      rw [hrequested]
      apply verdict_conclude
      · intro hasked
        rcases hwoken.heard hasked with hcancelled | hkept | hshield
        · exact Or.inl hcancelled
        · exact absurd (hmust.symm.trans hkept) Bool.false_ne_true
        · exact absurd hshield hne
      · exact fun hcancelled => Or.inl (hwoken.asked (Or.inl hcancelled))
    -- the loop goes on to its end, or the condition holds once more
    split
    · exact afterLoop_inv htidy hothers hwakeups hended hverdict
    · apply whileHead_inv htidy hothers hwakeups htask
      · intro hpending
        cases (Loop.outcome_none _ _ hpending).symm.trans hended
      · intro o' ho'
        cases hended.symm.trans ho'
        exact hverdict

/-- The task is woken. -/
theorem wakeup_inv {f : Nat} {ready : List Callback} (h : Inv isCancelledError s)
    (hready : s.loop.ready = .wakeup f :: ready) :
    Inv isCancelledError (({ s with loop := { s.loop with ready } } : State α X).runCallback
      isCancelledError (.wakeup f)) := by
  have hwakeups : s.loop.ready.filter isWakeup = .wakeup f :: ready.filter isWakeup := by
    rw [hready, List.filter_cons_of_pos rfl]
  have hpoint := h.point
  cases hp : s.point with
  | ended ending =>
    rw [hp] at hpoint
    obtain ⟨-, hnone, -⟩ := hpoint
    cases hnone.symm.trans hwakeups
  | awaiting cancelled =>
    rw [hp] at hpoint
    obtain ⟨outer, hne, hlt, hothers, hshielded | ⟨o, hwoken⟩⟩ := hpoint
    · cases hshielded.wakeups.symm.trans hwakeups
    · obtain ⟨hsame, htail⟩ := List.cons_eq_cons.mp (hwakeups.symm.trans hwoken.wakeups)
      obtain rfl : f = outer := Callback.wakeup.inj hsame
      have hdone : s.loop.done f = true := by
        rw [Loop.done, hwoken.outcome]
        rfl
      have houtcome : ({ s.loop with ready } : Loop α X).outcome f = some o := hwoken.outcome
      simp only [State.runCallback, houtcome]
      exact resume_inv hwoken (h.tidy.tail hready) (hothers.all hdone) htail rfl rfl rfl

theorem run_inv {c : Callback} {ready : List Callback} (h : Inv isCancelledError s)
    (hready : s.loop.ready = c :: ready) :
    Inv isCancelledError (({ s with loop := { s.loop with ready } } : State α X).runCallback
      isCancelledError c) := by
  cases c with
  | wakeup f => exact wakeup_inv h hready
  | outerDone i outer =>
    obtain ⟨rfl, -, hdone⟩ := h.tidy.outerDone i outer (by rw [hready]; exact List.mem_cons_self)
    have htail : Inv isCancelledError { s with loop := { s.loop with ready } } :=
      tail_inv h hready rfl fun _ heq => by cases heq
    exact outerDone_inv htail hdone
  | innerDone i outer =>
    obtain ⟨rfl, -⟩ := h.tidy.innerDone i outer (by rw [hready]; exact List.mem_cons_self)
    simp only [State.runCallback, Loop.innerDone]
    split
    · rename_i o hpending ho
      refine innerDone_inv h hready ho ?_
      rw [Loop.done]
      exact (congrArg Option.isSome hpending).trans rfl
    · rename_i hidle
      refine tail_inv h hready rfl fun outer' heq hdone => ?_
      cases heq
      by_contra hpending
      obtain ⟨o, ho⟩ := Option.isSome_iff_exists.mp hdone
      exact hidle o (Loop.outcome_none _ _ (Bool.not_eq_true _ ▸ hpending)) ho

/-- Every event keeps the invariant. -/
theorem next_inv {event : Event α X} (h : Inv isCancelledError s)
    (hnext : s.next isCancelledError event = some s') : Inv isCancelledError s' := by
  cases event with
  | settle o =>
    simp only [State.next] at hnext
    split at hnext
    · cases hnext
    · rename_i hpending
      cases hnext
      exact settle_inv h (Bool.not_eq_true _ ▸ hpending)
  | cancel =>
    simp only [State.next] at hnext
    cases hp : s.point with
    | ended ending =>
      rw [hp] at hnext
      cases hnext
    | awaiting cancelled =>
      rw [hp] at hnext
      cases hnext
      have hcancel := cancel_inv h hp
      rw [hp] at hcancel
      exact hcancel
  | run =>
    simp only [State.next] at hnext
    split at hnext
    · cases hnext
    · rename_i c ready hready
      cases hnext
      exact run_inv h hready

theorem inv_of_reachable (h : (system isCancelledError).Reachable s) : Inv isCancelledError s := by
  apply h.invariant
  · rintro s ⟨outcome, mustCancel, rfl⟩
    exact start_inv outcome mustCancel
  · intro s event s' _ hinv hnext
    exact next_inv hinv hnext

/-! ## What the coroutine leaves alone -/

theorem whileHead_inner (hfresh : inner < s.loop.fresh) (htask : s.task = {}) :
    (s.whileHead cancelled).loop.outcome inner = s.loop.outcome inner := by
  unfold State.whileHead
  split
  · rfl
  · rename_i hpending
    obtain ⟨houter, hloop⟩ := shield_wakeup (Bool.not_eq_true _ ▸ hpending) hfresh
    rw [← houter] at hloop
    simp only [Task.suspend, htask, hloop, if_neg Bool.false_ne_true]
    show ((shielded s.loop).futures inner).outcome = _
    rw [shielded_inner hfresh]
    rfl

theorem resume_inner {s : State α X} (hfresh : inner < s.loop.fresh) (htask : s.task = {}) :
    (s.resume isCancelledError cancelled o).loop.outcome inner = s.loop.outcome inner := by
  unfold State.resume
  split
  · exact whileHead_inner hfresh htask
  · split
    · rfl
    · exact whileHead_inner hfresh htask

theorem innerDone_inner (hne : outer ≠ inner) :
    (w.innerDone inner outer).outcome inner = w.outcome inner := by
  unfold Loop.innerDone
  split
  · exact Loop.complete_outcome_of_ne _ _ _ _ hne.symm
  · rfl

theorem outerDone_inner : (w.outerDone inner outer).outcome inner = w.outcome inner := by
  unfold Loop.outerDone
  split
  · rfl
  · exact Loop.removeDoneCallback_outcome ..

/-- A cancellation goes no further than the shield. -/
theorem cancel_inner (hwaits : Waits s cancelled) :
    (s.task.cancel s.loop).2.outcome inner = s.loop.outcome inner := by
  obtain ⟨outer, hne, -, -, hwaits⟩ := hwaits
  have hwaiter : s.task.waiter = some outer := by
    rcases hwaits with hshielded | ⟨o, hwoken⟩
    · rw [hshielded.task]
    · exact hwoken.waiter
  simp only [Task.cancel, hwaiter, Loop.cancel]
  cases s.loop.done outer with
  | true => rfl
  | false => exact Loop.complete_outcome_of_ne _ _ _ _ hne.symm

/-- Only the future itself can end. -/
theorem next_inner {event : Event α X} (h : Inv isCancelledError s)
    (hnext : s.next isCancelledError event = some s') (hevent : ∀ o, event ≠ .settle o) :
    s'.loop.outcome inner = s.loop.outcome inner := by
  cases event with
  | settle o => exact absurd rfl (hevent o)
  | cancel =>
    simp only [State.next] at hnext
    have hpoint := h.point
    cases hp : s.point with
    | ended ending =>
      rw [hp] at hnext
      cases hnext
    | awaiting cancelled =>
      rw [hp] at hnext hpoint
      cases hnext
      exact cancel_inner hpoint
  | run =>
    simp only [State.next] at hnext
    split at hnext
    · cases hnext
    rename_i c ready hready
    cases hnext
    cases c with
    | innerDone i outer =>
      obtain ⟨rfl, hne, -⟩ := h.tidy.innerDone i outer (by rw [hready]; exact List.mem_cons_self)
      exact innerDone_inner hne
    | outerDone i outer =>
      obtain ⟨rfl, -⟩ := h.tidy.outerDone i outer (by rw [hready]; exact List.mem_cons_self)
      exact outerDone_inner
    | wakeup f =>
      simp only [State.runCallback]
      split
      · rfl
      · split
        · exact resume_inner h.tidy.fresh rfl
        · rfl

/-! ## It ends -/

/-- Callbacks that may still run before the call ends, once the future has. -/
def measure (s : State α X) : Nat :=
  match s.point, s.task.waiter with
  | .awaiting _, some f => s.loop.ready.length + if s.loop.done f then 0 else 2
  | _, _ => 0

theorem measure_ended {ending : Except (Error X) α} (hp : s.point = .ended ending) :
    measure s = 0 := by
  rw [measure, hp]

theorem measure_awaiting (hp : s.point = .awaiting cancelled)
    (hwaiter : s.task.waiter = some outer) :
    measure s = s.loop.ready.length + if s.loop.done outer then 0 else 2 := by
  rw [measure, hp, hwaiter]

theorem Waits.exists_waiter (h : Waits s cancelled) : ∃ outer, s.task.waiter = some outer := by
  obtain ⟨outer, -, -, -, hshielded | ⟨o, hwoken⟩⟩ := h
  · exact ⟨outer, by rw [hshielded.task]⟩
  · exact ⟨outer, hwoken.waiter⟩

/-- Something is scheduled that leads to the end. -/
theorem Waits.ready_ne_nil (h : Waits s cancelled) (hdone : s.loop.done inner = true) :
    s.loop.ready ≠ [] := by
  obtain ⟨outer, -, -, -, hshielded | ⟨o, hwoken⟩⟩ := h
  · exact List.ne_nil_of_mem (hshielded.called hdone)
  · intro hnil
    have hwakeups := hwoken.wakeups
    rw [hnil] at hwakeups
    cases hwakeups

/-- A cancellation does not put off the end. -/
theorem measure_cancel (hp : s.point = .awaiting cancelled) (hwaits : Waits s cancelled)
    (hnext : s.next isCancelledError .cancel = some s') : measure s' ≤ measure s := by
  simp only [State.next, hp] at hnext
  cases hnext
  obtain ⟨outer, hne, -, -, hwaits⟩ := hwaits
  rcases hwaits with hshielded | ⟨o, hwoken⟩
  · have hwaiter : s.task.waiter = some outer := by rw [hshielded.task]
    have hcancel : s.task.cancel s.loop = (s.task, s.loop.complete outer .cancelled) := by
      simp only [Task.cancel, hwaiter, Loop.cancel_of_pending hshielded.pending, if_true]
    rw [measure_awaiting hp hwaiter, @measure_awaiting _ _ _ cancelled outer rfl]
    · simp only [hcancel, Loop.complete_done_self, Loop.complete_ready, hshielded.future,
        hshielded.pending, List.length_append, List.length_cons, List.length_nil, if_true,
        if_neg Bool.false_ne_true]
      omega
    · rw [hcancel]
      exact hwaiter
  · have hdone : s.loop.done outer = true := by
      rw [Loop.done, hwoken.outcome]
      rfl
    have hcancel : s.task.cancel s.loop = ({ s.task with mustCancel := true }, s.loop) := by
      simp only [Task.cancel, hwoken.waiter, Loop.cancel, hdone, if_true, if_neg Bool.false_ne_true]
    rw [measure_awaiting hp hwoken.waiter, @measure_awaiting _ _ _ cancelled outer rfl]
    · simp only [hcancel]
      exact le_rfl
    · rw [hcancel]
      exact hwoken.waiter

/-- With the future done, a task that goes on comes to its end. -/
theorem resume_ended {s : State α X} (isCancelledError : X → Bool) (cancelled : Bool)
    (o : Outcome α X) (hdone : s.loop.done inner = true) :
    ∃ ending, (s.resume isCancelledError cancelled o).point = .ended ending := by
  have hhead : ∀ cancelled, s.whileHead cancelled = s.afterLoop cancelled := by
    intro cancelled
    rw [State.whileHead, hdone, if_pos rfl]
  unfold State.resume
  split
  · exact ⟨_, congrArg State.point (hhead true)⟩
  · split
    · exact ⟨_, rfl⟩
    · exact ⟨_, congrArg State.point (hhead cancelled)⟩

/-- Every callback brings the end nearer. -/
theorem measure_run (hp : s.point = .awaiting cancelled) (hwaits : Waits s cancelled)
    (htidy : Tidy s.loop) (hdone : s.loop.done inner = true)
    (hnext : s.next isCancelledError .run = some s') : measure s' < measure s := by
  obtain ⟨f, hwaiter⟩ := hwaits.exists_waiter
  simp only [State.next] at hnext
  split at hnext
  · cases hnext
  rename_i c ready hready
  cases hnext
  rw [measure_awaiting hp hwaiter, hready, List.length_cons]
  -- without its first callback the queue is shorter
  have htail : ∀ w : Loop α X, w.ready = ready → w.done f = s.loop.done f →
      measure ({ s with loop := w } : State α X) <
        ready.length + 1 + if s.loop.done f then 0 else 2 := by
    intro w hw hsame
    rw [measure_awaiting (s := { s with loop := w }) hp hwaiter]
    show w.ready.length + (if w.done f then 0 else 2) < _
    rw [hw, hsame]
    omega
  -- by the callback: the shield may become done, which counts for two steps
  cases c with
  | outerDone i outer =>
    obtain ⟨rfl, -⟩ := htidy.outerDone i outer (by rw [hready]; exact List.mem_cons_self)
    have hkept : ({ s.loop with ready } : Loop α X).outerDone inner outer =
        { s.loop with ready } := if_pos hdone
    -- the inner future is done, so nothing is removed
    refine htail _ (congrArg Loop.ready hkept) ?_
    rw [hkept]
    rfl
  | innerDone i outer =>
    simp only [State.runCallback, Loop.innerDone]
    split
    · rename_i o hpending ho
      obtain ⟨rfl, hne, hlt⟩ := htidy.innerDone i outer (by rw [hready]; exact List.mem_cons_self)
      obtain ⟨outer', hne', -, hothers, hshielded | ⟨o', hwoken⟩⟩ := hwaits
      · -- the shield that the task waits for
        have hsame : outer' = outer := by
          by_contra hother
          have hsome := hothers outer hne (Ne.symm hother) hlt
          rw [Loop.done, show s.loop.outcome outer = none from hpending] at hsome
          cases hsome
        subst hsame
        have hf : f = outer' := by
          rw [hshielded.task] at hwaiter
          exact (Option.some.inj hwaiter).symm
        subst hf
        rw [measure_awaiting
          (s := { s with loop := ({ s.loop with ready } : Loop α X).complete f o }) hp hwaiter]
        simp only [Loop.complete_done_self, Loop.complete_ready, hshielded.future,
          hshielded.pending, List.length_append, List.length_cons, List.length_nil, if_true,
          if_neg Bool.false_ne_true]
        omega
      -- a shield that has woken the task has its outcome already
      · have hsome : s.loop.done outer = true := by
          by_cases hother : outer = outer'
          · rw [hother, Loop.done, hwoken.outcome]
            rfl
          · exact hothers outer hne hother hlt
        rw [Loop.done, show s.loop.outcome outer = none from hpending] at hsome
        cases hsome
    -- the shield was done before
    · exact htail _ rfl rfl
  | wakeup g =>
    simp only [State.runCallback, hp]
    split
    -- the task runs on to its end, since the inner future is done
    · obtain ⟨ending, hending⟩ := resume_ended
        (s := { s with loop := { s.loop with ready }, task := s.task.stepping })
        isCancelledError cancelled (s.task.thrown _) hdone
      exact lt_of_eq_of_lt (measure_ended hending) (by omega)
    · exact lt_of_eq_of_lt (measure_ended rfl) (by omega)

theorem next_ended {event : Event α X} {ending : Except (Error X) α} (hp : s.point = .ended ending)
    (hnext : s.next isCancelledError event = some s') : s'.point = .ended ending := by
  cases event with
  | settle o =>
    simp only [State.next] at hnext
    split at hnext
    · cases hnext
    · cases hnext
      exact hp
  | cancel =>
    simp only [State.next, hp] at hnext
    cases hnext
  | run =>
    simp only [State.next] at hnext
    split at hnext
    · cases hnext
    · rename_i c ready _
      cases hnext
      cases c with
      | innerDone i outer => exact hp
      | outerDone i outer => exact hp
      | wakeup f =>
        simp only [State.runCallback, hp]

theorem measure_pos (hp : s.point = .awaiting cancelled) (hwaits : Waits s cancelled)
    (hdone : s.loop.done inner = true) : 0 < measure s := by
  obtain ⟨f, hwaiter⟩ := hwaits.exists_waiter
  rw [measure_awaiting hp hwaiter]
  have hlength := List.length_pos_of_ne_nil (hwaits.ready_ne_nil hdone)
  omega

def isRun : Event α X → Bool
  | .run => true
  | _ => false

/-- One event, once the future has ended. -/
theorem measure_next {event : Event α X} (h : Inv isCancelledError s)
    (hdone : s.loop.done inner = true) (hp : s.point = .awaiting cancelled)
    (hnext : s.next isCancelledError event = some s') :
    s'.loop.done inner = true ∧ measure s' + (if isRun event then 1 else 0) ≤ measure s := by
  have hwaits : Waits s cancelled := by
    have hpoint := h.point
    rw [hp] at hpoint
    exact hpoint
  have hkept : (∀ o, event ≠ .settle o) → s'.loop.done inner = true := by
    intro hevent
    rw [Loop.done, next_inner h hnext hevent]
    exact hdone
  cases event with
  | settle o =>
    simp only [State.next, hdone, if_true] at hnext
    cases hnext
  | cancel =>
    refine ⟨hkept fun o heq => ?_, measure_cancel hp hwaits hnext⟩
    cases heq
  | run =>
    refine ⟨hkept fun o heq => ?_, measure_run hp hwaits h.tidy hdone hnext⟩
    cases heq

theorem foldlM_ended {events : List (Event α X)} {t : State α X} {ending : Except (Error X) α}
    (hp : s.point = .ended ending)
    (hrun : events.foldlM (State.next isCancelledError) s = some t) : t.point = .ended ending := by
  induction events generalizing s with
  | nil =>
    cases hrun
    exact hp
  | cons event events ih =>
    rw [List.foldlM_cons] at hrun
    obtain ⟨u, hu, hrun⟩ := Option.bind_eq_some_iff.mp hrun
    exact ih (next_ended hp hu) hrun

/-- As many callbacks as the measure says are enough, whatever else happens. -/
theorem run_measure {events : List (Event α X)} {t : State α X} (h : Inv isCancelledError s)
    (hdone : s.loop.done inner = true)
    (hrun : events.foldlM (State.next isCancelledError) s = some t)
    (henough : measure s ≤ events.countP isRun) : ∃ ending, t.point = .ended ending := by
  induction events generalizing s with
  | nil =>
    obtain rfl : s = t := Option.some.inj hrun
    cases hp : s.point with
    | ended ending => exact ⟨ending, rfl⟩
    | awaiting cancelled =>
      have hpoint := h.point
      rw [hp] at hpoint
      have hpos := measure_pos hp hpoint hdone
      exact absurd henough (Nat.not_le.mpr hpos)
  | cons event events ih =>
    rw [List.foldlM_cons] at hrun
    obtain ⟨u, hu, hrun⟩ := Option.bind_eq_some_iff.mp hrun
    cases hp : s.point with
    | ended ending => exact ⟨ending, foldlM_ended (next_ended hp hu) hrun⟩
    | awaiting cancelled =>
      obtain ⟨hdone', hmeasure⟩ := measure_next h hdone hp hu
      rw [List.countP_cons] at henough
      exact ih (next_inv h hu) hdone' hrun (by omega)

end Preservation

/-- Whatever the future ends with, and whenever the task is cancelled: the call does not end
before the future, which only the future itself can end; it raises a cancellation when one was
asked for or the future was cancelled, and gives what the future gave otherwise; and once the
future has ended, the next callbacks lead to the end of the call. -/
theorem finishBeforeCancel_shields (isCancelledError : X → Bool) (s : State α X)
    (h : (system isCancelledError).Reachable s) :
    (∀ ending, s.point = .ended ending →
      ∃ o, s.loop.outcome inner = some o ∧ Verdict isCancelledError s.requested o ending) ∧
    (∀ event s', s.next isCancelledError event = some s' → (∀ o, event ≠ .settle o) →
      s'.loop.outcome inner = s.loop.outcome inner) ∧
    (s.loop.done inner = true →
      (∀ cancelled, s.point = .awaiting cancelled →
        (s.next isCancelledError .run).isSome = true) ∧
      ∃ n, ∀ (events : List (Event α X)) (t : State α X),
        events.foldlM (State.next isCancelledError) s = some t →
        n ≤ events.countP isRun → ∃ ending, t.point = .ended ending) := by
  have hinv := inv_of_reachable h
  have hpoint := hinv.point
  refine ⟨fun ending hp => ?_, fun event s' hnext hevent => next_inner hinv hnext hevent,
    fun hdone => ⟨fun cancelled hp => ?_, measure s, fun events t => run_measure hinv hdone⟩⟩
  · rw [hp] at hpoint
    exact hpoint.2.2
  · rw [hp] at hpoint
    obtain ⟨c, ready, hready⟩ := List.exists_cons_of_ne_nil (hpoint.ready_ne_nil hdone)
    simp only [State.next, hready, Option.isSome_some]

/-! ## Runs -/

/-- The end, where the call has come to it. -/
def State.ending? (s : State α X) : Option (Except (Error X) α) :=
  match s.point with
  | .awaiting _ => none
  | .ended ending => some ending

/-- The end of a call, of a future that is pending at first. -/
def endOf (mustCancel : Bool) (events : List (Event Nat Unit)) :
    Option (Except (Error Unit) Nat) :=
  (events.foldlM (State.next fun _ => false) (start none mustCancel)).bind State.ending?

/-- Without a cancellation; with two, the second while the future's result is on its way; and
with one that was asked for before. -/
example :
    endOf false [.settle (.result 7), .run, .run, .run] = some (.ok 7) ∧
    endOf false [.cancel, .run, .run, .settle (.exception ()), .run, .cancel, .run, .run] =
      some (.error .cancelledError) ∧
    endOf true [.settle (.result 7), .run, .run, .run] = some (.error .cancelledError) :=
  ⟨rfl, rfl, rfl⟩

/-- A cancellation that races with the result. -/
theorem finishBeforeCancel_shields_race :
    ∃ s : State Nat Unit,
      [Event.settle (.result 7), .cancel, .run, .run, .run].foldlM (State.next fun _ => false)
        (start none false) = some s ∧
      ∃ o, s.loop.outcome inner = some o ∧
        Verdict (fun _ => false) s.requested o (.error .cancelledError) := by
  have hrun : [Event.settle (.result 7), .cancel, .run, .run, .run].foldlM
      (State.next (α := Nat) (X := Unit) fun _ => false) (start none false) = some _ := rfl
  have hsteps : (system (α := Nat) (X := Unit) fun _ => false).Steps (start none false) _ :=
    Lts.System.steps_of_foldlM (fun _ event _ hnext => ⟨event, hnext⟩) hrun
  exact ⟨_, hrun, (finishBeforeCancel_shields (fun _ => false) _
    ⟨start none false, ⟨none, false, rfl⟩, hsteps⟩).1 _ rfl⟩

/-! ## The program -/

/-- What a future ends with, in a program of the orchestrator. -/
def replyOf (o : Outcome α Raised) : Except Raised α :=
  match o with
  | .result a => .ok a
  | .exception x => .error x
  | .cancelled => .error .cancelledError

/-- What the call raises, in a program. -/
def raisedOf : Error Raised → Raised
  | .cancelledError => .cancelledError
  | .invalidStateError => .error []
  | .exception x => x

def endingOf (ending : Except (Error Raised) α) : Except Raised α :=
  match ending with
  | .ok a => .ok a
  | .error x => .error (raisedOf x)

theorem finishBeforeCancel_ofExcept (r : Except Raised α) : finishBeforeCancel (.ofExcept r) =
    .call .suspend fun reply => .ofExcept (reply >>= fun _ => r) := by
  cases r with
  | ok a =>
    show Calls.Program.call Effect.suspend _ = _
    congr 1
    funext reply
    cases reply <;> rfl
  | error x =>
    show Calls.Program.call Effect.suspend _ = _
    congr 1
    funext reply
    cases reply <;> rfl

/-- The program that stands for the call: once the future has ended, the call ends as the
program does after some reply to its last call, which is a cancellation at worst. -/
theorem ended_finishBeforeCancel {s : State α Raised} {o : Outcome α Raised}
    {ending : Except (Error Raised) α}
    (h : (system fun x => decide (x = Raised.cancelledError)).Reachable s)
    (hp : s.point = .ended ending) (ho : s.loop.outcome inner = some o) :
    ∃ reply : Except Raised Unit, (reply = .ok () ∨ reply = .error .cancelledError) ∧
      endingOf ending = (reply >>= fun _ => replyOf o) := by
  have hpoint := (inv_of_reachable h).point
  rw [hp] at hpoint
  obtain ⟨-, -, o', ho', hverdict⟩ := hpoint
  cases ho.symm.trans ho'
  unfold Verdict at hverdict
  split at hverdict
  · refine ⟨.error .cancelledError, Or.inr rfl, ?_⟩
    rcases hverdict with heq | ⟨x, heq, hx⟩
    · rw [heq]
      rfl
    · rw [heq]
      exact congrArg Except.error (of_decide_eq_true hx)
  · refine ⟨.ok (), Or.inl rfl, ?_⟩
    rw [hverdict]
    cases o <;> rfl

end FinishBeforeCancel

end OmarchyYolo
