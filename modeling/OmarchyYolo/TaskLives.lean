import OmarchyYolo.AttemptNumbers
import OmarchyYolo.AttemptRows
import OmarchyYolo.Daemon
import OmarchyYolo.TaskEvidence

/-!
# OmarchyYolo.TaskLives — the lives of tasks

The coroutines of tasks beside everything else that uses the database: other
operations, runners that come and go, and a process that may end between any two
calls. What a coroutine has read before a crash dies with it; the counter and the
rows of the attempts stay, and the next life of the task goes on from them.

* `TaskLife`, `Lives` — coroutines, runners, and the database;
* `LivesStep` — what may happen next;
* `Fits` — what the phase of a coroutine says about the rows of its task;
* `Lives.Sound` — the invariant, kept by every step;
* `attempt_numbers_increase` — the numbers of a task's attempts, over all its lives.
-/

namespace OmarchyYolo

open Py PyJson Calls Sql Txn Lts

/-! ## Coroutines and runners -/

/-- Whether a coroutine has been cancelled, and whether that has been raised in it. -/
inductive Cancellation where
  | none
  | requested
  | raised
deriving DecidableEq, Repr

/-- `_run_task` of a task in a run of its job, with the number of attempts it has created. -/
structure TaskLife where
  runner : Nat
  jobId : Text
  taskId : Text
  maxAttempts : Nat
  program : Coroutine Bool
  cancellation : Cancellation := .none
  created : Nat := 0

/-- The attempts that a call creates. -/
def Effect.creates : (e : Effect) → Except Raised e.Reply → Nat
  | .startAttempt _, .ok _ => 1
  | _, _ => 0

namespace TaskLife

/-- The call that is next, if the coroutine has not ended. -/
def call? (self : TaskLife) : Option Effect :=
  match self.program with
  | .call e _ => some e
  | _ => none

/-- It has not ended, and has not been cancelled. -/
def Active (self : TaskLife) : Prop := self.call?.isSome ∧ self.cancellation = .none

/-- It is suspended: others have their turn only while it awaits something. -/
def Awaits (self : TaskLife) : Prop := ∀ e, self.call? = some e → e.isAwait = true

/-- `cancel()`. -/
def cancel (self : TaskLife) : TaskLife := { self with cancellation := .requested }

/-- After the reply to a call. -/
def resumed (self : TaskLife) (e : Effect) (r : Except Raised e.Reply) (program : Coroutine Bool) :
    TaskLife :=
  { self with
    program := program
    cancellation :=
      if self.cancellation = .requested ∧ e.raisesCancel then .raised else self.cancellation
    created := self.created + e.creates r }

end TaskLife

/-- The database, and what the process holds in memory. -/
structure Lives where
  store : Store
  daemon : Daemon := {}
  coroutines : List TaskLife := []

/-- What a call does to the database. -/
def AnswersCall (e : Effect) (s : Store) (r : Except Raised e.Reply) (s' : Store) : Prop :=
  if e.isOperation then Answers (OperationOf e) s r s' else s' = s

/-- A step of the system. -/
inductive LivesStep {F : Type} [PyFloat F] (sha256 : Str → Str) : Lives → Lives → Prop
  /-- A request, a recovery or the coroutine of a runner uses the database. -/
  | operation (w : Lives) (op : Operation F) (store : Store) (other : op.writesNumber = false)
      (run : op.run sha256 w.store = .ok () store) :
      LivesStep sha256 w { w with store := store }
  | spawn (w : Lives) (jobId : Str) :
      LivesStep sha256 w { w with daemon := w.daemon.spawn jobId }
  /-- `_execute_dag` starts a coroutine for a pending task that has none. -/
  | launch (w : Lives) (runner : Nat) (task : TaskRow) (cfg : EngineConfig) (path : Str)
      (live : w.daemon.Live task.jobId.val runner) (row : task ∈ w.store.tasks)
      (ready : task.state = .pending)
      (inactive : ∀ life ∈ w.coroutines, life.runner = runner → life.taskId = task.id →
        life.call? = none) :
      LivesStep sha256 w
        { w with
          coroutines := w.coroutines ++
            [{ runner      := runner
               jobId       := task.jobId
               taskId      := task.id
               maxAttempts := cfg.maxAttempts
               program     := runTask cfg task.jobId task.id path }] }
  /-- A coroutine goes on with the reply to its call; a cancellation that has been
  requested is raised where it awaits something. -/
  | call (w : Lives) (index : Nat) (life : TaskLife) (e : Effect)
      (next : Except Raised e.Reply → Coroutine Bool) (r : Except Raised e.Reply) (store : Store)
      (here : w.coroutines[index]? = some life) (program : life.program = .call e next)
      (answer : AnswersCall e w.store r store)
      (answerable : Answerable e r)
      (cancelled : life.cancellation = .requested → e.raisesCancel = true →
        r = .error .cancelledError) :
      LivesStep sha256 w
        { w with
          store := store
          coroutines := w.coroutines.set index (life.resumed e r (next r)) }
  /-- `_cancel_active`, in the handlers of `run_job`. -/
  | cancelActive (w : Lives) (runner : Nat)
      (suspended : ∀ life ∈ w.coroutines, life.runner = runner → life.Awaits) :
      LivesStep sha256 w
        { w with
          coroutines := w.coroutines.map fun life =>
            if life.runner = runner then life.cancel else life }
  /-- `run_job` ends: its coroutines have been cancelled, unless the job is completed. -/
  | finish (w : Lives) (runner : Nat)
      (left : ∀ life ∈ w.coroutines, life.runner = runner → life.Active →
        w.store.Completed life.jobId) :
      LivesStep sha256 w { w with daemon := w.daemon.finish runner }
  | consume (w : Lives) (jobId : Str) (runner : Nat) (done : w.daemon.done runner = true) :
      LivesStep sha256 w { w with daemon := w.daemon.consume jobId runner }
  /-- The process ends, and another is started. -/
  | restart (w : Lives) : LivesStep sha256 w { store := w.store }

/-- The system, from an empty database. -/
def lives (F : Type) [PyFloat F] (sha256 : Str → Str) : System Lives Unit where
  init w := w = { store := Store.empty }
  step w _ w' := LivesStep (F := F) sha256 w w'

/-! ## A coroutine and the rows of its task -/

/-- What the phase of a coroutine says about the rows of its task. -/
def Fits (s : Store) (taskId : Text) : NumberingPhase → Prop
  | .unread => s.Idle taskId
  | .ready number => s.Counter taskId (number - 1) ∧ s.Idle taskId
  | .marked number => s.Counter taskId number ∧ s.Idle taskId ∧
      ∀ a ∈ s.attempts, a.taskId = taskId → a.number < number
  | .opened attemptId number => s.Counter taskId number ∧
      ∀ a ∈ s.attempts, a.taskId = taskId → a.state = .running → a.id = attemptId
  | .ended => True

variable {s s' : Store} {taskId jobId : Text} {phase : NumberingPhase} {m : Numbering}
  {e : Effect} {limit : Nat}

/-- It says the same when the numbering of the task has stayed. -/
theorem Fits.countsFor (h : Fits s taskId phase) (hcounts : s.CountsFor taskId s') :
    Fits s' taskId phase := by
  cases phase with
  | unread => exact hcounts.idle h
  | ready number => exact ⟨hcounts.counter _ h.1, hcounts.idle h.2⟩
  | marked number =>
    refine ⟨hcounts.counter _ h.1, hcounts.idle h.2.1, fun a ha htask => ?_⟩
    obtain ⟨a₀, ha₀, htask₀, hnumber⟩ := hcounts.numbers a ha htask
    rw [← hnumber]
    exact h.2.2 a₀ ha₀ htask₀
  | opened attemptId number =>
    refine ⟨hcounts.counter _ h.1, fun a ha htask hrun => ?_⟩
    obtain ⟨a₀, ha₀, hid, htask₀, hrun₀⟩ := hcounts.running a ha htask hrun
    exact hid.symm.trans (h.2 a₀ ha₀ htask₀ hrun₀)
  | ended => trivial

/-! ## A call and the database -/

/-- The calls that write a number. -/
def Effect.WritesNumber : Effect → Prop
  | .updateTask _ fields => fields.attempts.isSome
  | .startAttempt _ => True
  | _ => False

section Calls

variable {sha256 : Str → Str} {r : Except Raised e.Reply}

variable (sha256) in
/-- A call of the database changes nothing, or is an operation; one that writes a number only
where the call does, and none that writes the candidate of a job. -/
theorem answers_operation (h : Answers (OperationOf e) s r s') :
    s' = s ∨ ∃ op : Operation NonFinite, op.run sha256 s = .ok () s' ∧
      (op.writesNumber = true → e.WritesNumber) ∧ ∀ jobId, ¬ op.Accepts jobId := by
  cases r with
  -- a raised error has rolled the transaction back
  | error x => exact Or.inl h
  | ok a =>
    obtain ⟨x, hx, hrun⟩ := h
    -- by the call: reads leave the store, writes are one operation each
    cases e with
    | getJob id =>
      cases hx
      exact Or.inl (getJob_cases hrun).1
    | getTask id =>
      cases hx
      exact Or.inl (getTask_cases hrun).1
    | updateTask id fields =>
      obtain ⟨now, rfl⟩ := hx
      exact Or.inr ⟨.call (.updateTask id.val fields now), hrun, fun h => h,
        fun _ haccepts => haccepts⟩
    | startAttempt args =>
      obtain ⟨newId, now, rfl⟩ := hx
      exact Or.inr ⟨.call (.startAttempt newId now args), dropReply_ok_iff.mpr ⟨a, hrun⟩,
        fun _ => trivial, fun _ haccepts => haccepts⟩
    | finishAttempt id state returncode summary =>
      obtain ⟨now, rfl⟩ := hx
      exact Or.inr ⟨.call (.finishAttempt id.val state returncode summary now), hrun, nofun,
        fun _ haccepts => haccepts⟩
    | event id kind payload owner =>
      obtain ⟨now, rfl⟩ := hx
      exact Or.inr ⟨.event id.val kind payload (owner.map Text.val) now, hrun, nofun,
        fun _ haccepts => haccepts⟩
    | _ => exact hx.elim

variable (sha256) in
theorem answersCall_operation (h : AnswersCall e s r s') :
    s' = s ∨ ∃ op : Operation NonFinite, op.run sha256 s = .ok () s' ∧
      (op.writesNumber = true → e.WritesNumber) ∧ ∀ jobId, ¬ op.Accepts jobId := by
  unfold AnswersCall at h
  split_ifs at h with hop
  · exact answers_operation sha256 h
  · exact Or.inl h

theorem answersCall_sound (hs : s.Sound sha256) (h : AnswersCall e s r s') :
    s'.Sound sha256 := by
  rcases answersCall_operation sha256 h with rfl | ⟨op, hrun, -⟩
  · exact hs
  · exact Operation.run_sound hs hrun

theorem answersCall_completed (hs : s.Sound sha256) (h : AnswersCall e s r s')
    (hdone : s.Completed jobId) : s'.Completed jobId := by
  rcases answersCall_operation sha256 h with rfl | ⟨op, hrun, -⟩
  · exact hdone
  · exact Operation.run_completed hs hrun hdone

theorem answersCall_owns {id : Text} (hs : s.Sound sha256) (h : AnswersCall e s r s')
    (howns : s.Owns jobId id) : s'.Owns jobId id := by
  rcases answersCall_operation sha256 h with rfl | ⟨op, hrun, -⟩
  · exact howns
  · exact Operation.run_owns hs hrun howns

/-- A call that writes no number keeps the numbering. -/
theorem answersCall_counts (h : AnswersCall e s r s') (he : ¬ e.WritesNumber) : s.Counts s' := by
  rcases answersCall_operation id h with rfl | ⟨op, hrun, hwrites, -⟩
  · exact refl_of Store.Counts s'
  · exact Operation.run_counts (eq_false_of_ne_true fun h => he (hwrites h)) _ _ _ hrun

/-- A call that raises leaves the database alone. -/
theorem answersCall_error {x : Raised} (h : AnswersCall e s (.error x) s') : s' = s := by
  unfold AnswersCall at h
  split_ifs at h with hop
  · exact h
  · exact h

/-- Where a call that writes a number is answered, the number is the next one. -/
theorem answersCall_countsFor (h : AnswersCall e s r s') (hturn : m.InTurn taskId limit e)
    {other : Text} (hother : other ≠ taskId) : s.CountsFor other s' := by
  by_cases he : e.WritesNumber
  · cases r with
    | error x =>
      rw [answersCall_error h]
      exact (refl_of Store.Counts s).countsFor other
    | ok a =>
      cases e with
      | updateTask id fields =>
        obtain ⟨number, hnumber⟩ := Option.isSome_iff_exists.mp he
        obtain ⟨x, ⟨now, rfl⟩, hrun⟩ := h
        obtain ⟨rfl, -⟩ := hturn number hnumber
        exact updateTask_countsFor hrun hnumber hother
      | startAttempt args =>
        obtain ⟨x, ⟨newId, now, rfl⟩, hrun⟩ := h
        exact startAttempt_countsFor hrun hturn.1 hother
      | _ => exact he.elim
  · exact (answersCall_counts h he).countsFor other

/-- Every call keeps the order of the numbers. -/
theorem answersCall_numbered (hs : s.Numbered) (h : AnswersCall e s r s')
    (hturn : m.InTurn taskId limit e) (hfits : e.WritesNumber → Fits s taskId m.phase) :
    s'.Numbered := by
  by_cases he : e.WritesNumber
  · specialize hfits he
    cases r with
    | error x =>
      rw [answersCall_error h]
      exact hs
    | ok a =>
      cases e with
      | updateTask id fields =>
        obtain ⟨number, hnumber⟩ := Option.isSome_iff_exists.mp he
        obtain ⟨x, ⟨now, rfl⟩, hrun⟩ := h
        obtain ⟨rfl, hready⟩ := hturn number hnumber
        rw [hready] at hfits
        exact hs.marked hrun hnumber hfits.1 (by omega)
      | startAttempt args =>
        obtain ⟨x, ⟨newId, now, rfl⟩, hrun⟩ := h
        obtain ⟨hargs, hmarked, -⟩ := hturn
        rw [hmarked] at hfits
        exact hs.started hrun hargs hfits.2.2 hfits.1
      | _ => exact he.elim
  · exact hs.counts (answersCall_counts h he)

/-! ## The phase after a call -/

/-- The calls whose replies can move the phase on. -/
def Effect.movesPhase : Effect → Bool
  | .getTask _ | .updateTask _ _ | .startAttempt _ | .finishAttempt _ _ _ _ => true
  | _ => false

theorem next_phase (he : e.movesPhase = false) :
    (m.next e r).phase = m.phase ∨ (m.next e r).phase = .ended := by
  cases e with
  | getTask | updateTask | startAttempt | finishAttempt => cases he
  | git | topology => exact Or.inl rfl
  | suspend =>
    cases r with
    | ok a => exact Or.inl rfl
    | error x => cases x <;> first | exact Or.inl rfl | exact Or.inr rfl
  | _ =>
    cases r with
    | ok a => exact Or.inl rfl
    | error x => cases x <;> first | exact Or.inl rfl | exact Or.inr rfl

/-- Where such a call raises, the coroutine stays where it is. -/
theorem next_error {x : Raised} (he : e.movesPhase = true) : m.next e (.error x) = m := by
  cases e with
  | getTask | updateTask | startAttempt | finishAttempt => cases x <;> rfl
  | _ => cases he

/-- A phase that is over stays over. -/
theorem next_over (hturn : m.InTurn taskId limit e) (h : m.phase = .ended) :
    (m.next e r).phase = .ended := by
  -- an effect that moves no phase leaves an ended one
  cases he : e.movesPhase with
  | false =>
    rcases next_phase (m := m) (r := r) he with hsame | hover
    · exact hsame.trans h
    · exact hover
  | true =>
    cases r with
    | error x =>
      rw [next_error he]
      exact h
    | ok a =>
      cases e with
      -- a read of the task does not open the turn again
      | getTask id =>
        show m.phase.read _ = .ended
        rw [h]
        rfl
      | updateTask id fields =>
        cases hnumber : fields.attempts with
        | none =>
          show (fields.attempts.map NumberingPhase.marked).getD m.phase = .ended
          rw [hnumber]
          exact h
        -- a number is given only to a task that is ready, and the turn is over
        | some number =>
          have hready := (hturn number hnumber).2
          rw [h] at hready
          cases hready
      | startAttempt args =>
        have hmarked := hturn.2.1
        rw [h] at hmarked
        cases hmarked
      | finishAttempt id state returncode summary =>
        show m.phase.finished id = .ended
        rw [h]
        rfl
      | _ => cases he

/-- A cancellation that is raised is noted. -/
theorem next_cancelled (h : e.raisesCancel = true) :
    (m.next e (.error .cancelledError)).phase = .ended := by
  cases e with
  | runAgent | runGates | reviewTask | acquire | suspend => rfl
  | _ => cases h

theorem next_thread (h : e.inThread = true) : (m.next e r).thread = true := by
  cases e with
  | git | topology => rfl
  | _ => cases h

theorem next_created : (m.next e r).created = m.created + e.creates r := by
  cases r with
  | ok a => cases e <;> rfl
  | error x => cases e <;> cases x <;> rfl

/-! ## The rows after a call -/

theorem Fits.read {id : Text} {task : TaskRow} (hfits : Fits s taskId m.phase)
    (h : AnswersCall (.getTask id) s (.ok task) s') (hturn : m.InTurn taskId limit (.getTask id)) :
    Fits s' taskId (m.next (.getTask id) (.ok task)).phase := by
  obtain ⟨x, rfl, hrun⟩ := h
  obtain ⟨rfl, row, hrow, hid, rfl⟩ := getTask_cases hrun
  show Fits s' taskId (m.phase.read row.attempts)
  cases hphase : m.phase with
  | unread =>
    rw [hphase] at hfits
    obtain rfl : id = taskId := hturn hphase
    exact ⟨⟨row, hrow, Text.ext hid, (Int.add_sub_cancel _ _).symm⟩, hfits⟩
  | ready | marked | opened | ended =>
    rw [hphase] at hfits
    exact hfits

theorem Fits.updated {id : Text} {fields : TaskFields} {a : Unit} (hfits : Fits s taskId m.phase)
    (hs : s.Numbered) (h : AnswersCall (.updateTask id fields) s (.ok a) s')
    (hturn : m.InTurn taskId limit (.updateTask id fields)) :
    Fits s' taskId (m.next (.updateTask id fields) (.ok a)).phase := by
  show Fits s' taskId ((fields.attempts.map NumberingPhase.marked).getD m.phase)
  cases hnumber : fields.attempts with
  | none =>
    have hcounts := answersCall_counts h (by rw [Effect.WritesNumber, hnumber]; exact nofun)
    exact hfits.countsFor (hcounts.countsFor taskId)
  | some number =>
    obtain ⟨rfl, hready⟩ := hturn number hnumber
    rw [hready] at hfits
    obtain ⟨⟨t, ht, hid, hbefore⟩, hidle⟩ := hfits
    obtain ⟨x, ⟨now, rfl⟩, hrun⟩ := h
    obtain ⟨hattempts, hcounter, -⟩ := updateTask_counts hrun hnumber
    refine ⟨hcounter, ?_, ?_⟩
    · intro a ha
      rw [hattempts] at ha
      exact hidle a ha
    · intro a ha htask
      rw [hattempts] at ha
      have hbound := hs.bounded t ht a ha (htask.trans hid.symm)
      omega

theorem Fits.started {args : NewAttempt} {attemptId : Text} (hfits : Fits s taskId m.phase)
    (h : AnswersCall (.startAttempt args) s (.ok attemptId) s')
    (hturn : m.InTurn taskId limit (.startAttempt args)) :
    Fits s' taskId (m.next (.startAttempt args) (.ok attemptId)).phase := by
  obtain ⟨hargs, hmarked, -⟩ := hturn
  rw [hmarked] at hfits
  obtain ⟨⟨t, ht, hcounter⟩, hidle, -⟩ := hfits
  obtain ⟨x, ⟨newId, now, rfl⟩, hrun⟩ := h
  obtain ⟨htasks, attempt, hid, -, -, hrows⟩ := startAttempt_counts hrun hargs
  refine ⟨⟨t, ?_, hcounter⟩, ?_⟩
  · rw [htasks]
    exact ht
  · intro a ha htask hrunning
    rw [← Table.mem_rows, hrows, List.mem_append, List.mem_singleton] at ha
    rcases ha with ha | rfl
    · exact absurd hrunning (hidle a ha htask)
    · exact hid

theorem Fits.finished {id : Text} {state summary : Str} {returncode : Option Int} {a : Unit}
    (hfits : Fits s taskId m.phase)
    (h : AnswersCall (.finishAttempt id state returncode summary) s (.ok a) s') :
    Fits s' taskId (m.next (.finishAttempt id state returncode summary) (.ok a)).phase := by
  have hcounts : s.Counts s' := answersCall_counts h fun hfalse => hfalse
  have hstays := hfits.countsFor (hcounts.countsFor taskId)
  show Fits s' taskId (m.phase.finished id)
  cases hphase : m.phase with
  | opened attemptId number =>
    rw [hphase] at hstays
    show Fits s' taskId (if id = attemptId then .ready (number + 1) else .opened attemptId number)
    split_ifs with heq
    · -- the only attempt that may have been running is closed
      obtain ⟨x, ⟨now, rfl⟩, hrun⟩ := h
      refine ⟨?_, fun a' ha' htask hrunning => ?_⟩
      · rw [Int.add_sub_cancel]
        exact hstays.1
      · exact finishAttempt_closes hrun a' ha' ((hstays.2 a' ha' htask hrunning).trans heq.symm)
          hrunning
    · exact hstays
  | unread | ready | marked | ended =>
    rw [hphase] at hstays
    exact hstays

/-- A coroutine knows the rows of its task after each of its calls. -/
theorem Fits.next (hs : s.Numbered) (h : AnswersCall e s r s') (hturn : m.InTurn taskId limit e)
    (hfits : Fits s taskId m.phase) : Fits s' taskId (m.next e r).phase := by
  cases he : e.movesPhase with
  | false =>
    have hcounts : s.Counts s' := answersCall_counts h (by cases e <;> first | exact id | cases he)
    rcases next_phase (m := m) (r := r) he with hsame | hover
    · rw [hsame]
      exact hfits.countsFor (hcounts.countsFor taskId)
    · rw [hover]
      trivial
  | true =>
    cases r with
    | error x =>
      rw [next_error he, answersCall_error h]
      exact hfits
    | ok a =>
      cases e with
      | getTask id => exact hfits.read h hturn
      | updateTask id fields => exact hfits.updated hs h hturn
      | startAttempt args => exact hfits.started h hturn
      | finishAttempt id state returncode summary => exact hfits.finished h
      | _ => cases he

end Calls

/-! ## The invariant -/

/-- What is known of a coroutine whose numbering has come to `m`. -/
structure TaskLife.Sound (s : Store) (d : Daemon) (life : TaskLife) (m : Numbering) : Prop where
  numbered : Numbered life.taskId life.maxAttempts life.program (fun _ _ => True) m
  created : m.created = life.created
  budget : life.created ≤ life.maxAttempts
  owned : s.Owns life.jobId life.taskId
  /-- A cancellation that has been requested is raised before the next turn. -/
  requested : life.cancellation = .requested → life.Awaits
  raised : life.cancellation = .raised → m.phase = .ended
  fits : life.Active → Fits s life.taskId m.phase
  /-- Its runner is still there, unless the job is completed. -/
  runner : life.Active → d.Live life.jobId.val life.runner ∨ s.Completed life.jobId

/-- The invariant. -/
structure Lives.Sound (sha256 : Str → Str) (w : Lives) : Prop where
  store : w.store.Sound sha256
  numbered : w.store.Numbered
  mapped : w.daemon.Mapped
  lives : ∀ life ∈ w.coroutines, ∃ m, life.Sound w.store w.daemon m
  /-- A task has one coroutine that has not been cancelled. -/
  alone : ∀ (i j : Nat) (life other : TaskLife), w.coroutines[i]? = some life →
    w.coroutines[j]? = some other → life.Active → other.Active → life.taskId = other.taskId → i = j

variable {w w' : Lives} {d d' : Daemon} {life : TaskLife}

theorem TaskLife.Sound.rebase (h : life.Sound s d m)
    (hcounts : life.Active → s.CountsFor life.taskId s')
    (howns : s'.Owns life.jobId life.taskId)
    (hcompleted : s.Completed life.jobId → s'.Completed life.jobId) : life.Sound s' d m where
  numbered := h.numbered
  created := h.created
  budget := h.budget
  owned := howns
  requested := h.requested
  raised := h.raised
  fits hactive := (h.fits hactive).countsFor (hcounts hactive)
  runner hactive := (h.runner hactive).imp id hcompleted

theorem TaskLife.Sound.moved (h : life.Sound s d m)
    (hrunner : life.Active → d.Live life.jobId.val life.runner →
      d'.Live life.jobId.val life.runner ∨ s.Completed life.jobId) : life.Sound s d' m :=
  { h with runner := fun hactive => (h.runner hactive).elim (hrunner hactive) Or.inr }

/-! ### Runners -/

theorem Daemon.Live.spawn {jobId other : Str} {runner : Nat} (h : d.Live jobId runner) :
    (d.spawn other).Live jobId runner := by
  unfold Daemon.spawn
  split_ifs
  · exact h
  · obtain ⟨task, htask, hrest⟩ := h
    refine ⟨task, ?_, hrest⟩
    show (d.tasks ++ [_])[runner]? = some task
    rw [List.getElem?_append_left (List.getElem?_eq_some_iff.mp htask).1]
    exact htask

/-- A change to a runner that leaves it alive, or to another one. -/
theorem Daemon.Live.modify {jobId : Str} {runner changed : Nat} {f : Runner → Runner}
    (h : d.Live jobId runner) (hself : d'.tasks = d.tasks.modify changed f)
    (hf : changed = runner → ∀ task, (f task).jobId = task.jobId ∧ (f task).done = task.done) :
    d'.Live jobId runner := by
  obtain ⟨task, htask, hid, hdone⟩ := h
  by_cases hrunner : changed = runner
  · refine ⟨f task, ?_, (hf hrunner task).1.trans hid, (hf hrunner task).2.trans hdone⟩
    rw [hself, hrunner, List.getElem?_modify_eq, htask]
    rfl
  · refine ⟨task, ?_, hid, hdone⟩
    rw [hself, List.getElem?_modify_ne _ _ hrunner, htask]

/-! ### Coroutines in a list -/

theorem getElem?_set_cases {α : Type} {l : List α} {i j : Nat} {a b : α}
    (h : (l.set i a)[j]? = some b) : i = j ∧ b = a ∨ i ≠ j ∧ l[j]? = some b := by
  rw [List.getElem?_set] at h
  split_ifs at h with hij
  · exact Or.inl ⟨hij, (Option.some.inj h).symm⟩
  · exact Or.inr ⟨hij, h⟩

theorem getElem?_concat_cases {α : Type} {l : List α} {j : Nat} {a b : α}
    (h : (l ++ [a])[j]? = some b) : l[j]? = some b ∨ j = l.length ∧ b = a := by
  rcases Nat.lt_or_ge j l.length with hlt | hge
  · rw [List.getElem?_append_left hlt] at h
    exact Or.inl h
  · rw [List.getElem?_append_right hge, List.getElem?_singleton] at h
    split_ifs at h with hzero
    exact Or.inr ⟨by omega, (Option.some.inj h).symm⟩

/-! ### A call of a coroutine -/

section Step

variable {sha256 : Str → Str} {r : Except Raised e.Reply}
  {next : Except Raised e.Reply → Coroutine Bool}

theorem TaskLife.call?_eq (hprogram : life.program = .call e next) : life.call? = some e := by
  rw [TaskLife.call?, hprogram]

/-- The call is permitted, and so is the rest of the coroutine. -/
theorem TaskLife.Sound.permits (h : life.Sound s d m) (hprogram : life.program = .call e next) :
    m.Permits life.taskId life.maxAttempts e ∧ (Answerable e r →
      Numbered life.taskId life.maxAttempts (next r) (fun _ _ => True) (m.next e r)) := by
  have hnumbered := h.numbered
  rw [hprogram] at hnumbered
  obtain ⟨hpermits, hnext⟩ := hnumbered
  exact ⟨hpermits, fun hanswer => hnext r (m.next e r) ⟨hanswer, rfl⟩⟩

/-- A coroutine that is active after a call has been active before it. -/
theorem TaskLife.active_of_resumed (hprogram : life.program = .call e next)
    (h : (life.resumed e r (next r)).Active) : life.Active := by
  refine ⟨?_, ?_⟩
  · rw [TaskLife.call?_eq hprogram]
    rfl
  · have hcancellation : (if life.cancellation = .requested ∧ e.raisesCancel then
        Cancellation.raised else life.cancellation) = .none := h.2
    split_ifs at hcancellation
    exact hcancellation

theorem TaskLife.requested_of_resumed {program : Coroutine Bool}
    (h : (life.resumed e r program).cancellation = .requested) :
    life.cancellation = .requested ∧ e.raisesCancel = false := by
  have hcancellation : (if life.cancellation = .requested ∧ e.raisesCancel then
      Cancellation.raised else life.cancellation) = .requested := h
  split_ifs at hcancellation with hraise
  exact ⟨hcancellation, eq_false_of_ne_true fun hraises => hraise ⟨hcancellation, hraises⟩⟩

theorem TaskLife.raised_of_resumed {program : Coroutine Bool}
    (h : (life.resumed e r program).cancellation = .raised) :
    life.cancellation = .raised ∨ life.cancellation = .requested ∧ e.raisesCancel = true := by
  have hcancellation : (if life.cancellation = .requested ∧ e.raisesCancel then
      Cancellation.raised else life.cancellation) = .raised := h
  split_ifs at hcancellation with hraise
  · exact Or.inr hraise
  · exact Or.inl hcancellation

/-- While a thread is at work the coroutine awaits it. -/
theorem TaskLife.awaits_of_thread {Post : Bool → Numbering → Prop}
    (h : Numbered taskId limit life.program Post m) (hthread : m.thread = true) : life.Awaits := by
  intro e' hcall
  unfold TaskLife.call? at hcall
  cases hprogram : life.program with
  | ret a =>
    rw [hprogram] at hcall
    cases hcall
  | raise x =>
    rw [hprogram] at hcall
    cases hcall
  | call e'' next =>
    rw [hprogram] at h hcall
    cases hcall
    rcases h.1.1 hthread with hin | rfl
    · rw [Effect.isAwait, hin, Bool.or_true]
    · rfl

/-- A further attempt is within the budget. -/
theorem TaskLife.Sound.budget_resumed {program : Coroutine Bool} (h : life.Sound s d m)
    (hturn : m.InTurn taskId life.maxAttempts e) :
    (life.resumed e r program).created ≤ life.maxAttempts := by
  show life.created + e.creates r ≤ life.maxAttempts
  cases e with
  | startAttempt args =>
    cases r with
    | ok attemptId =>
      have hlimit := hturn.2.2
      rw [h.created] at hlimit
      exact hlimit
    | error x => exact h.budget
  | _ => exact h.budget

/-- A coroutine writes no number after a cancellation. -/
theorem TaskLife.Sound.active (h : life.Sound s d m) (hprogram : life.program = .call e next)
    (hwrites : e.WritesNumber) : life.Active := by
  refine ⟨by rw [TaskLife.call?_eq hprogram]; rfl, ?_⟩
  have hturn := (h.permits hprogram (r := .error .cancelledError)).1.2
  cases hcancellation : life.cancellation with
  | none => rfl
  | requested =>
    have hawait := h.requested hcancellation e (TaskLife.call?_eq hprogram)
    cases e <;> first | exact hwrites.elim | cases hawait
  | raised =>
    have hover := h.raised hcancellation
    cases e with
    | updateTask id fields =>
      obtain ⟨number, hnumber⟩ := Option.isSome_iff_exists.mp hwrites
      have hready := (hturn number hnumber).2
      rw [hover] at hready
      cases hready
    | startAttempt args =>
      have hmarked := hturn.2.1
      rw [hover] at hmarked
      cases hmarked
    | _ => exact hwrites.elim

/-- What is known of a coroutine after a call of its own. -/
theorem TaskLife.Sound.resumed (h : life.Sound s d m) (hs : s.Sound sha256)
    (hnumbered : s.Numbered) (hprogram : life.program = .call e next)
    (hanswer : AnswersCall e s r s') (hreply : Answerable e r)
    (hcancelled : life.cancellation = .requested → e.raisesCancel = true →
      r = .error .cancelledError) :
    (life.resumed e r (next r)).Sound s' d (m.next e r) := by
  obtain ⟨hpermits, hnext⟩ := h.permits hprogram (r := r)
  specialize hnext hreply
  constructor
  · exact hnext
  · rw [next_created, h.created]
    rfl
  · exact h.budget_resumed hpermits.2
  · exact answersCall_owns hs hanswer h.owned
  · intro hrequested
    obtain ⟨hcancellation, hmask⟩ := TaskLife.requested_of_resumed hrequested
    -- a thread is at work, and the cancellation waits for it
    have hawait := h.requested hcancellation e (TaskLife.call?_eq hprogram)
    rw [Effect.isAwait, hmask, Bool.false_or] at hawait
    exact TaskLife.awaits_of_thread hnext (next_thread hawait)
  · intro hraised
    rcases TaskLife.raised_of_resumed hraised with hbefore | ⟨hrequested, hraises⟩
    · exact next_over hpermits.2 (h.raised hbefore)
    · rw [hcancelled hrequested hraises]
      exact next_cancelled hraises
  · intro hactive
    have hbefore := TaskLife.active_of_resumed hprogram hactive
    exact (h.fits hbefore).next hnumbered hanswer hpermits.2
  · intro hactive
    have hbefore := TaskLife.active_of_resumed hprogram hactive
    exact (h.runner hbefore).imp id (answersCall_completed hs hanswer)

/-! ### Every step keeps the invariant -/

variable {F : Type} [PyFloat F]

theorem Lives.Sound.operation (h : w.Sound sha256) {op : Operation F}
    (hother : op.writesNumber = false) (hrun : op.run sha256 w.store = .ok () s') :
    Lives.Sound sha256 { w with store := s' } := by
  have hcounts : w.store.Counts s' := Operation.run_counts hother _ _ _ hrun
  refine ⟨Operation.run_sound h.store hrun, h.numbered.counts hcounts, h.mapped, ?_, h.alone⟩
  intro life hlife
  obtain ⟨m, hm⟩ := h.lives life hlife
  exact ⟨m, hm.rebase (fun _ => hcounts.countsFor life.taskId)
    (Operation.run_owns h.store hrun hm.owned) (Operation.run_completed h.store hrun)⟩

/-- The runners change, but each that is left behind has coroutines that may be. -/
theorem Lives.Sound.daemon (h : w.Sound sha256) (hmapped : d'.Mapped)
    (hrunner : ∀ life ∈ w.coroutines, life.Active → w.daemon.Live life.jobId.val life.runner →
      d'.Live life.jobId.val life.runner ∨ w.store.Completed life.jobId) :
    Lives.Sound sha256 { w with daemon := d' } := by
  refine ⟨h.store, h.numbered, hmapped, ?_, h.alone⟩
  intro life hlife
  obtain ⟨m, hm⟩ := h.lives life hlife
  exact ⟨m, hm.moved (hrunner life hlife)⟩

theorem Lives.Sound.call (h : w.Sound sha256) {index : Nat}
    (hhere : w.coroutines[index]? = some life) (hprogram : life.program = .call e next)
    (hanswer : AnswersCall e w.store r s') (hreply : Answerable e r)
    (hcancelled : life.cancellation = .requested → e.raisesCancel = true →
      r = .error .cancelledError) :
    Lives.Sound sha256
      { w with
        store := s'
        coroutines := w.coroutines.set index (life.resumed e r (next r)) } := by
  obtain ⟨m, hm⟩ := h.lives life (List.mem_of_getElem? hhere)
  have hturn := (hm.permits hprogram (r := r)).1.2
  constructor
  · exact answersCall_sound h.store hanswer
  · exact answersCall_numbered h.numbered hanswer hturn fun hwrites =>
      hm.fits (hm.active hprogram hwrites)
  · exact h.mapped
  · intro other hother
    obtain ⟨j, hj⟩ := List.getElem?_of_mem hother
    -- the coroutine that made the call goes on with the reply
    rcases getElem?_set_cases hj with ⟨rfl, rfl⟩ | ⟨hne, hj⟩
    · exact ⟨m.next e r, hm.resumed h.store h.numbered hprogram hanswer hreply hcancelled⟩
    -- the others see a store that the call has moved
    · obtain ⟨m', hm'⟩ := h.lives other (List.mem_of_getElem? hj)
      refine ⟨m', hm'.rebase (fun hactive => ?_) (answersCall_owns h.store hanswer hm'.owned)
        (answersCall_completed h.store hanswer)⟩
      by_cases hwrites : e.WritesNumber
      · -- the writer is the only active coroutine of its task
        refine answersCall_countsFor hanswer hturn fun htask => hne ?_
        exact h.alone index j life other hhere hj (hm.active hprogram hwrites) hactive htask.symm
      · exact (answersCall_counts hanswer hwrites).countsFor other.taskId
  -- the coroutine is active after the reply only where it was before
  · intro i j li lj hi hj hactive hactive' htask
    rcases getElem?_set_cases hi with ⟨rfl, rfl⟩ | ⟨-, hi⟩
    · rcases getElem?_set_cases hj with ⟨rfl, -⟩ | ⟨-, hj⟩
      · rfl
      · exact h.alone _ _ _ _ hhere hj (TaskLife.active_of_resumed hprogram hactive) hactive' htask
    · rcases getElem?_set_cases hj with ⟨rfl, rfl⟩ | ⟨-, hj⟩
      · exact h.alone _ _ _ _ hi hhere hactive (TaskLife.active_of_resumed hprogram hactive') htask
      · exact h.alone _ _ _ _ hi hj hactive hactive' htask

theorem Lives.Sound.launch (h : w.Sound sha256) {runner : Nat} {task : TaskRow}
    {cfg : EngineConfig} {path : Str} (hlive : w.daemon.Live task.jobId.val runner)
    (hrow : task ∈ w.store.tasks) (hready : task.state = .pending)
    (hinactive : ∀ life ∈ w.coroutines, life.runner = runner → life.taskId = task.id →
      life.call? = none) :
    Lives.Sound sha256
      { w with
        coroutines := w.coroutines ++
          [{ runner      := runner
             jobId       := task.jobId
             taskId      := task.id
             maxAttempts := cfg.maxAttempts
             program     := runTask cfg task.jobId task.id path }] } := by
  -- no active coroutine has this task yet
  have hfresh : ∀ other ∈ w.coroutines, other.Active → other.taskId ≠ task.id := by
    intro other hother hactive htask
    obtain ⟨m, hm⟩ := h.lives other hother
    obtain ⟨t, ht, hid, hjob⟩ := hm.owned
    have hsame : other.jobId = task.jobId := by
      rw [← hjob, Store.eq_of_taskId ht hrow (hid.trans htask)]
    rcases hm.runner hactive with hother' | hdone
    · -- the job has one runner, and this runner has no coroutine of the task
      rw [hsame] at hother'
      have hrunner : some other.runner = some runner :=
        (h.mapped _ _ hother').symm.trans (h.mapped _ _ hlive)
      have hnone := hinactive other hother (Option.some.inj hrunner) htask
      have hsome := hactive.1
      rw [hnone] at hsome
      cases hsome
    -- a completed job has no pending task
    · rw [hsame] at hdone
      exact h.store.open_of_pending hrow hready hdone
  refine ⟨h.store, h.numbered, h.mapped, ?_, ?_⟩
  -- each coroutine is sound: the new one has made no attempt
  · intro life hlife
    rcases List.mem_append.mp hlife with hlife | hlife
    · exact h.lives life hlife
    · rw [List.mem_singleton.mp hlife]
      exact
        ⟨{ },
          { numbered  := runTask_numbered
            created   := rfl
            budget    := Nat.zero_le _
            owned     := ⟨task, hrow, rfl, rfl⟩
            requested := nofun
            raised    := nofun
            fits      := fun _ => h.store.idle hrow hready
            runner    := fun _ => Or.inl hlive }⟩
  -- one active coroutine for each task: the old ones, and the new one beside them
  · intro i j li lj hi hj hactive hactive' htask
    rcases getElem?_concat_cases hi with hi | ⟨rfl, rfl⟩
    · rcases getElem?_concat_cases hj with hj | ⟨-, rfl⟩
      · exact h.alone _ _ _ _ hi hj hactive hactive' htask
      · exact absurd htask (hfresh li (List.mem_of_getElem? hi) hactive)
    · rcases getElem?_concat_cases hj with hj | ⟨rfl, -⟩
      · exact absurd htask.symm (hfresh lj (List.mem_of_getElem? hj) hactive')
      · rfl

theorem Lives.Sound.cancelActive (h : w.Sound sha256) {runner : Nat}
    (hsuspended : ∀ life ∈ w.coroutines, life.runner = runner → life.Awaits) :
    Lives.Sound sha256
      { w with
        coroutines := w.coroutines.map fun life =>
          if life.runner = runner then life.cancel else life } := by
  have hkept : ∀ life : TaskLife, (if life.runner = runner then life.cancel else life).Active →
      (if life.runner = runner then life.cancel else life) = life := by
    intro life hactive
    -- a cancelled coroutine is not active
    split_ifs at hactive ⊢
    · exact absurd hactive.2 nofun
    · rfl
  refine ⟨h.store, h.numbered, h.mapped, ?_, ?_⟩
  · intro life' hlife'
    obtain ⟨life, hlife, rfl⟩ := List.mem_map.mp hlife'
    obtain ⟨m, hm⟩ := h.lives life hlife
    refine ⟨m, ?_⟩
    split_ifs with hrunner
    -- of a coroutine that is over little is asked
    · exact
        { numbered  := hm.numbered
          created   := hm.created
          budget    := hm.budget
          owned     := hm.owned
          requested := fun _ => hsuspended life hlife hrunner
          raised    := nofun
          fits      := fun hactive => absurd hactive.2 nofun
          runner    := fun hactive => absurd hactive.2 nofun }
    · exact hm
  · intro i j li lj hi hj hactive hactive' htask
    rw [List.getElem?_map] at hi hj
    obtain ⟨life, hli, rfl⟩ := Option.map_eq_some_iff.mp hi
    obtain ⟨other, hlj, rfl⟩ := Option.map_eq_some_iff.mp hj
    have hlife := hkept life hactive
    have hother := hkept other hactive'
    rw [hlife] at hactive htask
    rw [hother] at hactive' htask
    exact h.alone _ _ _ _ hli hlj hactive hactive' htask

theorem livesStep_sound (h : w.Sound sha256) (hstep : LivesStep (F := F) sha256 w w') :
    w'.Sound sha256 := by
  cases hstep with
  | operation op store other run => exact h.operation other run
  | spawn jobId =>
    exact h.daemon (h.mapped.spawn jobId) fun life _ _ hlive => Or.inl hlive.spawn
  | launch runner task cfg path live row ready inactive => exact h.launch live row ready inactive
  | call index life e next r store here program answer answerable cancelled =>
    exact h.call here program answer answerable cancelled
  | cancelActive runner suspended => exact h.cancelActive suspended
  | finish runner left =>
    refine h.daemon (h.mapped.finish runner) fun life hlife hactive hlive => ?_
    by_cases hrunner : life.runner = runner
    · exact Or.inr (left life hlife hrunner hactive)
    · exact Or.inl (hlive.modify rfl fun heq => absurd heq.symm hrunner)
  | consume jobId runner done =>
    refine h.daemon (h.mapped.consume ?_ jobId) fun life _ _ hlive =>
      Or.inl (hlive.modify rfl fun _ task => ⟨rfl, rfl⟩)
    rintro other ⟨task, htask, -, hnot⟩
    rw [Daemon.done, htask, Option.map_some, Option.getD_some, hnot] at done
    cases done
  | restart =>
    -- after a restart no runner and no coroutine is left
    refine ⟨h.store, h.numbered, ?_, ?_, ?_⟩
    · rintro jobId runner ⟨task, htask, -⟩
      cases htask
    · exact fun life hlife => absurd hlife List.not_mem_nil
    · intro i j life other hi
      cases hi

theorem reachable_livesSound (h : (lives F sha256).Reachable w) : w.Sound sha256 := by
  refine h.invariant (fun w hinit => ?_) fun u _ u' _ hsound hstep => ?_
  · obtain rfl : w = { store := Store.empty } := hinit
    refine ⟨Store.empty_sound, Store.empty_numbered, ?_, ?_, ?_⟩
    · rintro jobId runner ⟨task, htask, -⟩
      cases htask
    · exact fun life hlife => absurd hlife List.not_mem_nil
    · intro i j life other hi
      cases hi
  · exact livesStep_sound hsound hstep

end Step

/-! ## All the lives of a task -/

/-- In any run: where a coroutine starts an attempt, no attempt of the task has its number and
none is running; the numbers of a task's attempts increase in the order of their creation, up to
the counter of the task; and no coroutine creates more attempts than its budget. -/
theorem attempt_numbers_increase {F : Type} [PyFloat F] {sha256 : Str → Str}
    (h : (lives F sha256).Reachable w) :
    (∀ life ∈ w.coroutines, ∀ args next, life.program = .call (.startAttempt args) next →
        ∀ a ∈ w.store.attempts, a.taskId.val = args.taskId →
          a.number ≠ args.number ∧ a.state ≠ .running) ∧
      (∀ taskId, (w.store.numbersOf taskId).Pairwise (· < ·)) ∧
      (∀ t ∈ w.store.tasks, ∀ number ∈ w.store.numbersOf t.id, number ≤ t.attempts) ∧
      ∀ life ∈ w.coroutines, life.created ≤ life.maxAttempts := by
  have hsound := reachable_livesSound h
  refine ⟨?_, hsound.numbered.increasing, ?_, ?_⟩
  · intro life hlife args next hprogram a ha htask
    obtain ⟨m, hm⟩ := hsound.lives life hlife
    obtain ⟨hargs, hmarked, -⟩ := (hm.permits hprogram (r := .error .cancelledError)).1.2
    have hfits := hm.fits (hm.active hprogram trivial)
    rw [hmarked] at hfits
    have hown : a.taskId = life.taskId := Text.ext (htask.trans hargs)
    exact ⟨Int.ne_of_lt (hfits.2.2 a ha hown), hfits.2.1 a ha hown⟩
  · intro t ht number hnumber
    obtain ⟨a, ha, htask, rfl⟩ := Store.mem_numbersOf.mp hnumber
    exact hsound.numbered.bounded t ht a ha htask
  · intro life hlife
    obtain ⟨m, hm⟩ := hsound.lives life hlife
    exact hm.budget

/-! ## A crash between the number and its attempt -/

/-- The database is asked, and anything else is answered as in a new repository. -/
def scriptedAnswer (s : Store) : (e : Effect) → Except Raised e.Reply × Store
  | .getJob jobId => askStore s (getJob jobId.val)
  | .getTask taskId => askStore s (getTask taskId.val)
  | .updateTask taskId fields => askStore s (updateTask taskId.val fields 7)
  | .startAttempt args => askStore s (startAttempt (Text.lit "attempt-1") 7 args)
  | .event jobId kind payload taskId =>
    askStore s (dropReply (event jobId.val kind payload (taskId.map Text.val) 7))
  | .available _ => (.ok [lit "claude"], s)
  | .git _ .head => (.ok (lit "c0"), s)
  | .git _ (.assertWorktree _) => (.ok (), s)
  | .topology (.pathExists _) | .topology (.branchExists _) => (.ok false, s)
  | .topology (.validateBranchName _) | .topology (.ensureParent _)
  | .topology (.addNewBranch _ _ _) => (.ok (), s)
  | .acquire _ | .release _ | .suspend => (.ok (), s)
  | _ => (.error (.error []), s)

theorem scriptedAnswer_answers (s : Store) (e : Effect) :
    AnswersCall e s (scriptedAnswer s e).1 (scriptedAnswer s e).2 := by
  cases e with
  | getJob jobId => exact askStore_answers s (getJob jobId.val) rfl
  | getTask taskId => exact askStore_answers s (getTask taskId.val) rfl
  | updateTask taskId fields =>
    exact askStore_answers s (updateTask taskId.val fields 7) ⟨7, rfl⟩
  | startAttempt args =>
    exact askStore_answers s (startAttempt (Text.lit "attempt-1") 7 args)
      ⟨Text.lit "attempt-1", 7, rfl⟩
  | event jobId kind payload taskId =>
    exact askStore_answers s
      (dropReply (event jobId.val kind payload (taskId.map Text.val) 7)) ⟨7, rfl⟩
  | git cwd command => cases command <;> rfl
  | topology command => cases command <;> rfl
  | _ => rfl

theorem scriptedAnswer_answerable (s : Store) (e : Effect) :
    Answerable e (scriptedAnswer s e).1 := by
  cases e <;> trivial

/-- What happens in the run. -/
inductive ScriptedStep where
  | operation (op : Operation NonFinite)
  | spawn (jobId : Str)
  /-- The first task is started by the last runner. -/
  | launch
  /-- The first coroutine goes on. -/
  | call
  | restart

/-- A step of the run, where it can be taken. -/
def scriptedStep (w : Lives) : ScriptedStep → Option Lives
  | .operation op =>
    match op.run demoDigest w.store with
    | .ok () s => if op.writesNumber = false then some { w with store := s } else none
    | .error _ _ => none
  | .spawn jobId => some { w with daemon := w.daemon.spawn jobId }
  | .launch =>
    match w.store.tasks.rows.head?, w.daemon.tasks.head? with
    | some task, some runner =>
      if task.state = .pending ∧ runner = { jobId := task.jobId.val } ∧ w.coroutines.length = 0 then
        some
          { w with
            coroutines :=
              [{ runner      := 0
                 jobId       := task.jobId
                 taskId      := task.id
                 maxAttempts := smallEngine.maxAttempts
                 program     := runTask smallEngine task.jobId task.id (lit "/candidate") }] }
      else none
    | _, _ => none
  | .call =>
    match w.coroutines with
    | [life] =>
      match life.program with
      | .call e next =>
        if life.cancellation = .none then
          some
            { w with
              store := (scriptedAnswer w.store e).2
              coroutines :=
                [life.resumed e (scriptedAnswer w.store e).1 (next (scriptedAnswer w.store e).1)] }
        else none
      | _ => none
    | _ => none
  | .restart => some { store := w.store }

/-- The attempt that a coroutine starts next. -/
def TaskLife.starting? (self : TaskLife) : Option NewAttempt :=
  match self.program with
  | .call (.startAttempt args) _ => some args
  | _ => none

/-- A task whose number is written when the process ends; in its second life, the coroutine is
about to start an attempt. -/
def scriptedCrash : List ScriptedStep :=
  [.operation (.call (.createJob (Text.lit "job-1") 1
      { repo := lit "/repo", goal := lit "Add the parser", baseBranch := lit "main"
        baseCommit := lit "c0", integrationBranch := lit "yolo/job-1/integration"
        autoApply := false })),
    .operation (.call (.addTasks (lit "job-1") (fun _ => Text.lit "task-1") 2
      [{ logicalId := lit "T1", title := lit "Parser", description := lit "Add it" }])),
    .operation (.call (.updateJob (lit "job-1") { state := some (lit "running") } 3)),
    .spawn (lit "job-1"), .launch] ++ List.replicate 24 .call ++
  [.restart, .operation (.call (.recoverIncomplete 32766 8 fun _ => 8)),
    .operation (.call (.updateJob (lit "job-1") { state := some (lit "running") } 9)),
    .spawn (lit "job-1"), .launch] ++ List.replicate 27 .call

theorem scriptedStep_step (w : Lives) (step : ScriptedStep) (w' : Lives)
    (h : scriptedStep w step = some w') : LivesStep (F := NonFinite) demoDigest w w' := by
  -- each scripted step is a step of the system, where its guard holds
  cases step with
  | operation op =>
    simp only [scriptedStep] at h
    split at h
    · rename_i s hrun
      split_ifs at h with hop
      cases h
      exact .operation w op s hop hrun
    · cases h
  | spawn jobId =>
    cases h
    exact .spawn w jobId
  | launch =>
    simp only [scriptedStep] at h
    split at h
    · rename_i task runner htask hrunner
      split_ifs at h with hready
      cases h
      obtain ⟨hpending, rfl, hnone⟩ := hready
      have hempty : w.coroutines = [] := List.eq_nil_of_length_eq_zero hnone
      have hlive : w.daemon.Live task.jobId.val 0 :=
        ⟨_, List.head?_eq_getElem?.symm.trans hrunner, rfl, rfl⟩
      have hinactive : ∀ life ∈ w.coroutines, life.runner = 0 → life.taskId = task.id →
          life.call? = none := by
        rw [hempty]
        exact fun life hlife => absurd hlife List.not_mem_nil
      have hstep : LivesStep (F := NonFinite) demoDigest w _ :=
        .launch w 0 task smallEngine (lit "/candidate") hlive (List.mem_of_mem_head? htask)
          hpending hinactive
      rw [hempty] at hstep
      exact hstep
    · cases h
  | call =>
    simp only [scriptedStep] at h
    split at h
    · rename_i life hlife
      split at h
      · rename_i e next hprogram
        split_ifs at h with hcancellation
        cases h
        have hhere : w.coroutines[0]? = some life := by
          rw [hlife]
          rfl
        have hstep : LivesStep (F := NonFinite) demoDigest w _ :=
          .call w 0 life e next _ _ hhere hprogram (scriptedAnswer_answers w.store e)
            (scriptedAnswer_answerable w.store e)
            fun hrequested => nomatch hcancellation.symm.trans hrequested
        rw [hlife] at hstep
        exact hstep
      · cases h
    · cases h
  | restart =>
    cases h
    exact .restart w

theorem TaskLife.starting?_eq_some {life : TaskLife} {args : NewAttempt}
    (h : life.starting? = some args) : ∃ next, life.program = .call (.startAttempt args) next := by
  unfold TaskLife.starting? at h
  split at h
  · rename_i args' next hprogram
    cases h
    exact ⟨next, hprogram⟩
  · cases h

/-- The counter is at 2 and there is no attempt yet, which the next one will be. -/
theorem attempt_numbers_increase_crashed : ∃ w, (lives NonFinite demoDigest).Reachable w ∧
    ∃ life ∈ w.coroutines, ∃ args next, life.program = .call (.startAttempt args) next ∧
      args.number = 2 ∧ ∀ a ∈ w.store.attempts, a.taskId.val = args.taskId →
        a.number ≠ args.number ∧ a.state ≠ .running := by
  have hrun : (scriptedCrash.foldlM scriptedStep { store := Store.empty }).map
      (fun w => w.coroutines.map fun life => life.starting?.map NewAttempt.number) =
        some [some 2] := by
    decide +kernel
  obtain ⟨w, hw, hstarting⟩ := Option.map_eq_some_iff.mp hrun
  have hreach : (lives NonFinite demoDigest).Reachable w :=
    ⟨_, rfl, System.steps_of_foldlM (fun w step w' h => ⟨(), scriptedStep_step w step w' h⟩) hw⟩
  have hmem : some (2 : Int) ∈
      w.coroutines.map fun life => life.starting?.map NewAttempt.number := by
    rw [hstarting]
    exact List.mem_singleton.mpr rfl
  obtain ⟨life, hlife, hnumber⟩ := List.mem_map.mp hmem
  obtain ⟨args, hargs, htwo⟩ := Option.map_eq_some_iff.mp hnumber
  obtain ⟨next, hprogram⟩ := TaskLife.starting?_eq_some hargs
  exact ⟨w, hreach, life, hlife, args, next, hprogram, htwo,
    (attempt_numbers_increase hreach).1 life hlife args next hprogram⟩

end OmarchyYolo
