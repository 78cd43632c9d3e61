import OmarchyYolo.QuietCalls

/-!
# OmarchyYolo.AttemptNumbers — how a coroutine numbers its attempts

A coroutine of a task reads the number of attempts once. For every attempt it
then writes the next number to the task and starts an attempt of that number;
it goes on only when the attempt is finished, and not after a cancellation.

* `Numbering` — how far it is, from the replies it has had;
* `Numbering.Permits` — which calls it may make there;
* `Steady` — stages that leave the numbering alone, and pass on a cancellation;
* `runTask_numbered` — the coroutine makes no other calls.
-/

namespace OmarchyYolo

open Py PyJson Calls

/-! ## Awaits -/

/-- Awaits at which a cancellation is raised. -/
def Effect.raisesCancel : Effect → Bool
  | .runAgent _ _ _ _ | .runGates _ _ _ | .reviewTask _ _ _ _ _ _ _ | .acquire _ | .suspend => true
  | _ => false

/-- The coroutine awaits here: only at such a call do others get their turn. -/
def Effect.isAwait (e : Effect) : Bool := e.raisesCancel || e.inThread

/-- The release of a lock raises nothing. -/
def Answerable : (e : Effect) → Except Raised e.Reply → Prop
  | .release _, .error _ => False
  | _, _ => True

/-! ## The numbering -/

/-- Where a coroutine is between two attempts. -/
inductive NumberingPhase where
  /-- It has not read the task yet. -/
  | unread
  /-- The next attempt is to have this number. -/
  | ready (number : Int)
  /-- The task has been given the number. -/
  | marked (number : Int)
  /-- The attempt of the number has been started, and is not known to be finished. -/
  | opened (attemptId : Text) (number : Int)
  /-- A cancellation has been raised. -/
  | ended
deriving DecidableEq, Repr

/-- The phase, whether a thread is at work, and how many attempts have been created. -/
structure Numbering where
  phase : NumberingPhase := .unread
  thread : Bool := false
  created : Nat := 0
deriving DecidableEq, Repr

namespace NumberingPhase

/-- After a read of the task. -/
def read (phase : NumberingPhase) (attempts : Int) : NumberingPhase :=
  match phase with
  | unread => ready (attempts + 1)
  | phase => phase

/-- After the end of an attempt. -/
def finished (phase : NumberingPhase) (finishedId : Text) : NumberingPhase :=
  match phase with
  | opened attemptId number =>
    if finishedId = attemptId then ready (number + 1) else opened attemptId number
  | phase => phase

end NumberingPhase

namespace Numbering

/-- After a reply. -/
def next (self : Numbering) : (e : Effect) → Except Raised e.Reply → Numbering
  | .getTask _, .ok task => { self with phase := self.phase.read (TaskRow.attempts task) }
  | .updateTask _ fields, .ok _ =>
    { self with phase := (fields.attempts.map NumberingPhase.marked).getD self.phase }
  | .startAttempt args, .ok attemptId =>
    { self with phase := .opened attemptId args.number, created := self.created + 1 }
  | .finishAttempt attemptId _ _ _, .ok _ => { self with phase := self.phase.finished attemptId }
  | .git _ _, _ | .topology _, _ => { self with thread := true }
  | .suspend, .error .cancelledError => { self with phase := .ended, thread := false }
  | .suspend, _ => { self with thread := false }
  | e, .error .cancelledError => if e.raisesCancel then { self with phase := .ended } else self
  | _, _ => self

/-- A number is given to the task, and to an attempt, only in its turn. -/
def InTurn (taskId : Text) (limit : Nat) (self : Numbering) : Effect → Prop
  | .getTask id => self.phase = .unread → id = taskId
  | .updateTask id fields =>
    ∀ number, fields.attempts = some number → id = taskId ∧ self.phase = .ready number
  | .startAttempt args =>
    args.taskId = taskId.val ∧ self.phase = .marked args.number ∧ self.created < limit
  | _ => True

/-- What a coroutine of the task may call: with a thread at work only more of its work. -/
def Permits (taskId : Text) (limit : Nat) (self : Numbering) (e : Effect) : Prop :=
  (self.thread = true → e.inThread = true ∨ e = .suspend) ∧ self.InTurn taskId limit e

end Numbering

/-- The coroutine sees nothing but replies. -/
def numberingHandler : Handler Effect Effect.Reply Raised Numbering :=
  fun e m r m' => Answerable e r ∧ m' = m.next e r

/-- Calls that have nothing to do with the numbering, and are not made in a thread. -/
def Neutral : Effect → Prop
  | .updateTask _ fields => fields.attempts = none
  | .startAttempt _ | .finishAttempt _ _ _ _ | .git _ _ | .topology _ => False
  | _ => True

section Rules

variable {taskId jobId : Text} {limit : Nat} {α β : Type} {m : Numbering} {cwd : Str}
  {cfg : EngineConfig} {task : TaskRow}

/-! ## Stages that leave it alone -/

/-- After a stage: no thread is at work and the numbering is as before, unless it has raised a
cancellation. -/
def Kept (m : Numbering) (r : Except Raised α) (m' : Numbering) : Prop :=
  m'.thread = false ∧ m'.created = m.created ∧
    (m'.phase = m.phase ∨ (m'.phase = .ended ∧ r = .error .cancelledError))

variable (taskId limit) in
/-- A stage that leaves the numbering alone. -/
def Steady (p : Coroutine α) : Prop :=
  ∀ m : Numbering, m.thread = false → m.phase ≠ .unread →
    Ensures numberingHandler (fun e m => m.Permits taskId limit e) p (Kept m) m

theorem Kept.refl (hm : m.thread = false) (r : Except Raised α) : Kept m r m :=
  ⟨hm, rfl, Or.inl rfl⟩

theorem Kept.of_ok {a : α} {m' : Numbering} (hm : m.thread = false) (h : Kept m (.ok a) m') :
    m' = m := by
  obtain ⟨hthread, hcreated, hphase | ⟨-, hcancelled⟩⟩ := h
  · cases m with
    | mk phase thread created =>
      cases m' with
      | mk phase' thread' created' =>
        cases hphase
        cases hcreated
        cases hthread.trans hm.symm
        rfl
  · cases hcancelled

theorem Kept.of_error {x : Raised} {m' : Numbering} (hm : m.thread = false)
    (h : Kept (α := α) m (.error x) m') (hx : x ≠ .cancelledError) : m' = m := by
  obtain ⟨hthread, hcreated, hphase | ⟨-, hcancelled⟩⟩ := h
  · exact Kept.of_ok (a := ()) hm ⟨hthread, hcreated, Or.inl hphase⟩
  · exact absurd (Except.error.inj hcancelled) hx

/-- What has been raised is passed on. -/
theorem Kept.error {x : Raised} {m' : Numbering} (h : Kept (α := α) m (.error x) m') :
    Kept (α := β) m (.error x) m' := by
  obtain ⟨hthread, hcreated, hphase | ⟨hover, hcancelled⟩⟩ := h
  · exact ⟨hthread, hcreated, Or.inl hphase⟩
  · exact ⟨hthread, hcreated, Or.inr ⟨hover, congrArg Except.error (Except.error.inj hcancelled)⟩⟩

theorem permits_of_idle {e : Effect} (hm : m.thread = false) (h : m.InTurn taskId limit e) :
    m.Permits taskId limit e := by
  refine ⟨fun hthread => ?_, h⟩
  rw [hm] at hthread
  cases hthread

theorem permits_neutral {e : Effect} (h : Neutral e) (hm : m.thread = false)
    (hphase : m.phase ≠ .unread) : m.Permits taskId limit e := by
  refine permits_of_idle hm ?_
  cases e with
  | getTask id => exact fun hunread => absurd hunread hphase
  | updateTask id fields =>
    intro number hnumber
    have hnone : fields.attempts = none := h
    rw [hnone] at hnumber
    cases hnumber
  | startAttempt args => exact h.elim
  | _ => trivial

theorem read_of_ne {phase : NumberingPhase} (h : phase ≠ .unread) (attempts : Int) :
    phase.read attempts = phase := by
  cases phase with
  | unread => exact absurd rfl h
  | _ => rfl

/-- A neutral call leaves the numbering alone. -/
theorem neutral_kept {e : Effect} (h : Neutral e) (hm : m.thread = false)
    (hphase : m.phase ≠ .unread) (r : Except Raised e.Reply) : Kept m r (m.next e r) := by
  have hsame : Kept m r m := .refl hm r
  -- by the effect: a neutral one neither numbers an attempt nor opens one
  cases r with
  | ok reply =>
    cases e with
    | getTask id =>
      refine ⟨hm, rfl, Or.inl ?_⟩
      exact read_of_ne hphase _
    -- its fields leave the counter alone
    | updateTask id fields =>
      have hnone : fields.attempts = none := h
      refine ⟨hm, rfl, Or.inl ?_⟩
      show (fields.attempts.map NumberingPhase.marked).getD m.phase = m.phase
      rw [hnone]
      rfl
    | startAttempt args => exact h.elim
    | finishAttempt attemptId state returncode summary => exact h.elim
    | git cwd command => exact h.elim
    | topology command => exact h.elim
    -- after `suspend` the runner is on the thread no more
    | suspend => exact ⟨rfl, rfl, Or.inl rfl⟩
    | _ => exact hsame
  -- the effect raises
  | error x =>
    by_cases hx : x = .cancelledError
    · subst hx
      -- at an await it is a cancellation
      cases e with
      | startAttempt args => exact h.elim
      | finishAttempt attemptId state returncode summary => exact h.elim
      | git cwd command => exact h.elim
      | topology command => exact h.elim
      | suspend => exact ⟨rfl, rfl, Or.inr ⟨rfl, rfl⟩⟩
      | runAgent name prompt cwd logPath => exact ⟨hm, rfl, Or.inr ⟨rfl, rfl⟩⟩
      | runGates final cwd logPath => exact ⟨hm, rfl, Or.inr ⟨rfl, rfl⟩⟩
      | reviewTask name goal task diff gates cwd logPath => exact ⟨hm, rfl, Or.inr ⟨rfl, rfl⟩⟩
      | acquire lock => exact ⟨hm, rfl, Or.inr ⟨rfl, rfl⟩⟩
      | _ => exact hsame
    -- any other error is no cancellation
    · cases e with
      | startAttempt args => exact h.elim
      | finishAttempt attemptId state returncode summary => exact h.elim
      | git cwd command => exact h.elim
      | topology command => exact h.elim
      | suspend =>
        cases x with
        | cancelledError => exact absurd rfl hx
        | _ => exact ⟨rfl, rfl, Or.inl rfl⟩
      | _ =>
        cases x with
        | cancelledError => exact absurd rfl hx
        | _ => exact hsame

theorem perform_steady {e : Effect} (h : Neutral e) : Steady taskId limit (perform e) := by
  intro m hm hphase
  refine ensures_perform.mpr ⟨permits_neutral h hm hphase, ?_⟩
  rintro r m' ⟨-, rfl⟩
  exact neutral_kept h hm hphase r

theorem pure_steady (a : α) : Steady taskId limit (pure a : Coroutine α) :=
  fun _ hm _ => .refl hm _

theorem raise_steady (x : Raised) : Steady taskId limit (.raise x : Coroutine α) :=
  fun _ hm _ => .refl hm _

theorem ofExcept_kept {r : Except Raised α} {m' : Numbering} (h : Kept m r m') :
    Ensures numberingHandler (fun e m => m.Permits taskId limit e) (.ofExcept r : Coroutine α)
      (Kept m) m' := ensures_ofExcept.mpr h

theorem Steady.bind {p : Coroutine α} {f : α → Coroutine β} (hp : Steady taskId limit p)
    (hf : ∀ a, Steady taskId limit (f a)) : Steady taskId limit (p >>= f) := by
  intro m hm hphase
  refine (hp m hm hphase).bind ?_ fun _ _ hkept => hkept.error
  intro a m' hkept
  rw [hkept.of_ok hm]
  exact hf a m hm hphase

theorem Steady.ite {c : Prop} [Decidable c] {p q : Coroutine α} (hp : Steady taskId limit p)
    (hq : Steady taskId limit q) : Steady taskId limit (if c then p else q) := by
  split_ifs
  · exact hp
  · exact hq

theorem Steady.join {c : Prop} [Decidable c] {p q : Coroutine α} {f : α → Coroutine β}
    (hp : Steady taskId limit p) (hq : Steady taskId limit q)
    (hf : ∀ a, Steady taskId limit (f a)) :
    Steady taskId limit (if c then p >>= f else q >>= f) := (hp.bind hf).ite (hq.bind hf)

/-- Handlers are of exceptions, and a cancellation is none. -/
theorem Steady.exceptWhen {caught : Raised → Bool} (hcaught : caught .cancelledError = false)
    {p : Coroutine α} {handler : Raised → Coroutine α} (hp : Steady taskId limit p)
    (hhandler : ∀ x, Steady taskId limit (handler x)) :
    Steady taskId limit (exceptWhen caught p handler) := by
  intro m hm hphase
  refine Ensures.tryCatch (hp m hm hphase) (fun _ _ hkept => hkept) ?_
  intro x m' hkept
  by_cases hx : caught x = true
  · rw [if_pos hx]
    have hne : x ≠ .cancelledError := by
      rintro rfl
      rw [hcaught] at hx
      cases hx
    rw [hkept.of_error hm hne]
    exact hhandler x m hm hphase
  · rw [if_neg hx]
    exact hkept

/-- The outcome of a stage, where a cancellation is raised again. -/
theorem Steady.attempt {p : Coroutine α} {f : Except Raised α → Coroutine β}
    (hp : Steady taskId limit p)
    (hf : ∀ outcome, outcome ≠ .error .cancelledError → Steady taskId limit (f outcome))
    (hcancelled : f (.error .cancelledError) = .raise .cancelledError) :
    Steady taskId limit (p.attempt >>= f) := by
  intro m hm hphase
  refine ensures_attempt_bind.mpr ((hp m hm hphase).imp fun outcome m' hkept => ?_)
  rcases outcome with x | a
  · by_cases hx : x = .cancelledError
    · subst hx
      rw [hcancelled]
      exact hkept.error
    · rw [hkept.of_error hm hx]
      exact hf _ (fun heq => hx (Except.error.inj heq)) m hm hphase
  · rw [hkept.of_ok hm]
    exact hf (.ok a) (fun heq => by cases heq) m hm hphase

/-- A lock is released, and nothing else happens. -/
theorem release_ensures {lock : Lock} (hm : m.thread = false) :
    Ensures numberingHandler (fun e m => m.Permits taskId limit e) (perform (.release lock))
      (fun r m' => m' = m ∧ r.isOk) m := by
  refine ensures_perform.mpr ⟨permits_of_idle hm trivial, ?_⟩
  rintro r m' ⟨hanswer, rfl⟩
  cases r with
  | ok a => exact ⟨rfl, rfl⟩
  | error x => exact hanswer.elim

theorem withLock_steady {lock : Lock} {p : Coroutine α} (hp : Steady taskId limit p) :
    Steady taskId limit (withLock lock p) := by
  refine Steady.bind (perform_steady trivial) fun _ => ?_
  intro m hm hphase
  refine ensures_attempt_bind.mpr ((hp m hm hphase).imp fun outcome m' hkept => ?_)
  refine (release_ensures hkept.1).bind ?_ ?_
  · rintro _ _ ⟨rfl, -⟩
    exact ofExcept_kept hkept
  · rintro x _ ⟨-, hok⟩
    cases hok

/-- The work of a thread, awaited to its end. -/
theorem thread_steady {Q : Effect → Prop} {p : Coroutine α} (h : p.Makes (InThread Q)) :
    Steady taskId limit (finishBeforeCancel p) := by
  intro m hm hphase
  have hwork : Ensures numberingHandler (fun e m => m.Permits taskId limit e) p
      (fun _ (m' : Numbering) => m'.phase = m.phase ∧ m'.created = m.created) m := by
    refine h.keeps ?_ ?_ ⟨rfl, rfl⟩
    · intro e m' he _
      refine ⟨fun _ => Or.inl he.2, ?_⟩
      cases e with
      | git cwd command => trivial
      | topology command => trivial
      | _ => cases he.2
    · rintro e m' r _ he hsame ⟨-, rfl⟩
      cases e with
      | git cwd command => exact hsame
      | topology command => exact hsame
      | _ => cases he.2
  refine ensures_attempt_bind.mpr (hwork.imp fun outcome m' hsame => ?_)
  have hsuspend : Ensures numberingHandler (fun e m => m.Permits taskId limit e) suspend
      (Kept m) m' := by
    refine ensures_perform.mpr ⟨⟨fun _ => Or.inr rfl, trivial⟩, ?_⟩
    rintro r _ ⟨-, rfl⟩
    cases r with
    | ok a => exact ⟨rfl, hsame.2, Or.inl hsame.1⟩
    | error x =>
      cases x with
      | cancelledError => exact ⟨rfl, hsame.2, Or.inr ⟨rfl, rfl⟩⟩
      | _ => exact ⟨rfl, hsame.2, Or.inl hsame.1⟩
  refine hsuspend.bind ?_ fun _ _ hkept => hkept.error
  intro _ m'' hkept
  rw [hkept.of_ok hm]
  exact ofExcept_kept (.refl hm outcome)

end Rules

/-! ## The stages -/

section Stages

variable {taskId jobId : Text} {limit : Nat} {cwd : Str} {cfg : EngineConfig} {task : TaskRow}

theorem recordEvent_steady {kind : String} {payload : List (Str × Json NonFinite)}
    {owner : Option Text} : Steady taskId limit (recordEvent jobId kind payload owner) :=
  perform_steady trivial

theorem recoverWorktree_steady : Steady taskId limit (recoverWorktree cfg jobId task cwd) := by
  refine Steady.join (pure_steady _) (thread_steady head_quiet) fun baseCommit => ?_
  refine Steady.bind (withLock_steady (withLock_steady
    (thread_steady ensureExistingBranchWorktree_quiet))) fun _ => ?_
  refine Steady.bind (perform_steady rfl) fun _ => ?_
  exact recordEvent_steady.bind fun _ => pure_steady _

theorem createWorktree_steady : Steady taskId limit (createWorktree cfg jobId task cwd) := by
  refine Steady.bind (withLock_steady (withLock_steady ?_)) fun created => ?_
  · refine Steady.bind (thread_steady head_quiet) fun baseCommit => ?_
    exact Steady.bind (thread_steady ensureWorktree_quiet) fun _ => pure_steady _
  · refine Steady.bind (perform_steady rfl) fun _ => ?_
    exact recordEvent_steady.bind fun _ => pure_steady _

theorem acquireWorktree_steady : Steady taskId limit (acquireWorktree cfg jobId task cwd) := by
  refine Steady.join (thread_steady branchExists_quiet) (pure_steady _) fun known => ?_
  exact recoverWorktree_steady.ite createWorktree_steady

theorem preferredWorker_steady : Steady taskId limit (preferredWorker task) := by
  unfold preferredWorker
  cases task.preferredAgent with
  | none => exact pure_steady _
  | some preferred =>
    refine Steady.exceptWhen rfl (Steady.bind (perform_steady trivial) fun _ => pure_steady _) ?_
    exact fun _ => pure_steady _

theorem availableWorkers_steady {names : List Str} :
    Steady taskId limit (availableWorkers names) := by
  induction names with
  | nil => exact pure_steady _
  | cons name names ih =>
    exact Steady.bind (perform_steady trivial) fun _ => ih.bind fun _ => pure_steady _

theorem chooseWorker_steady {attemptNumber : Int} :
    Steady taskId limit (chooseWorker cfg task attemptNumber) := by
  refine preferredWorker_steady.bind fun preferred => ?_
  cases preferred with
  | some name => exact pure_steady _
  | none =>
    refine availableWorkers_steady.bind fun available => ?_
    cases available with
    | nil => exact perform_steady trivial
    | cons name names => exact pure_steady _

theorem runGates_steady {owner : Option TaskRow} {final : Bool} {suffix : Str} :
    Steady taskId limit (runGates cfg jobId owner cwd final suffix) :=
  Steady.bind (perform_steady trivial) fun _ => recordEvent_steady.bind fun _ => pure_steady _

theorem repairWith_steady {issue : Str} {owner : Option Text} {cycle : Nat} {agentName : Str} :
    Steady taskId limit (repairWith cfg jobId cwd issue owner cycle agentName) := by
  refine Steady.bind (perform_steady trivial) fun job => ?_
  refine Steady.bind (perform_steady trivial) fun result => ?_
  refine Steady.ite (Steady.bind (thread_steady commitAll_quiet) fun _ => ?_) (pure_steady _)
  exact recordEvent_steady.bind fun _ => pure_steady _

theorem repairLoop_steady {issue : Str} {owner : Option Text} {candidates : List Str}
    {cycle : Nat} {actualSeen : List Str} :
    Steady taskId limit (repairLoop cfg jobId cwd issue owner candidates cycle actualSeen) := by
  induction candidates generalizing cycle actualSeen with
  | nil => exact pure_steady _
  | cons candidate candidates ih =>
    refine (pure_steady _).ite (Steady.bind (Steady.exceptWhen rfl ?_ fun x => ?_) fun choice => ?_)
    · exact Steady.bind (perform_steady trivial) fun _ => pure_steady _
    · exact Steady.bind recordEvent_steady fun _ => pure_steady _
    · cases choice with
      | none => exact ih
      | some agentName =>
        refine ih.ite (Steady.bind (Steady.exceptWhen rfl repairWith_steady fun x => ?_)
          fun repaired => (pure_steady _).ite ih)
        exact Steady.bind recordEvent_steady fun _ => pure_steady _

theorem tryFinishMerge_steady : Steady taskId limit (tryFinishMerge cwd) := by
  refine Steady.exceptWhen rfl ?_ fun _ => pure_steady _
  exact Steady.bind (thread_steady finishMerge_calls) fun _ => pure_steady _

theorem tryFinishResolved_steady {agentName : Str} :
    Steady taskId limit (tryFinishResolved jobId task cwd agentName) := by
  refine Steady.exceptWhen rfl ?_ fun _ => pure_steady _
  refine Steady.bind (thread_steady finishMerge_calls) fun _ => ?_
  refine Steady.bind (thread_steady unresolvedFiles_calls) fun unresolved => ?_
  exact Steady.ite (recordEvent_steady.bind fun _ => pure_steady _) (pure_steady _)

theorem resolveLoop_steady {originalError : Str} {cycles : List Nat} :
    Steady taskId limit (resolveLoop cfg jobId task cwd originalError cycles) := by
  induction cycles with
  | nil => exact pure_steady _
  | cons cycle cycles ih =>
    refine Steady.bind (thread_steady unresolvedFiles_calls) fun unresolved => ?_
    refine Steady.join tryFinishMerge_steady (pure_steady _) fun finished => ?_
    refine (pure_steady _).ite (Steady.bind (perform_steady trivial) fun agentName => ?_)
    refine Steady.bind (perform_steady trivial) fun job => ?_
    refine Steady.bind (perform_steady trivial) fun result => ?_
    exact Steady.join tryFinishResolved_steady (pure_steady _) fun resolved =>
      (pure_steady _).ite ih

theorem mergeOrResolve_steady : Steady taskId limit (mergeOrResolve cfg jobId task cwd) := by
  refine Steady.attempt (thread_steady merge_calls) ?_ rfl
  rintro ((_ | message | _ | _ | _) | ⟨⟩) -
  · exact raise_steady _
  · exact recordEvent_steady.bind fun _ => resolveLoop_steady
  · exact raise_steady _
  · exact raise_steady _
  · exact raise_steady _
  · exact pure_steady _

theorem liftExn_steady {α : Type} (r : Except Exn α) : Steady taskId limit (liftExn r) := by
  cases r with
  | ok a => exact pure_steady a
  | error e => exact raise_steady _

theorem verifyIntegration_steady {preMerge : Str} :
    Steady taskId limit (verifyIntegration cfg jobId task cwd preMerge) := by
  refine runGates_steady.bind fun gates => ?_
  refine Steady.ite (pure_steady _) ((liftExn_steady _).bind fun gatesText => ?_)
  refine repairLoop_steady.bind fun repaired => ?_
  have hrest : ∀ verified : Bool, Steady taskId limit (if verified then pure (true, []) else do
      atomicToThread (resetHard cwd preMerge)
      recordEvent jobId "integration.rolled_back" [(lit "task", .str task.logicalId.val)] task.id
      return (false, lit "Post-merge integration gates failed:\n" ++ gatesText)) := by
    intro verified
    refine Steady.ite (pure_steady _) (Steady.bind (thread_steady resetHard_quiet) fun _ => ?_)
    exact recordEvent_steady.bind fun _ => pure_steady _
  exact Steady.ite (runGates_steady.bind fun gates => hrest _) (hrest false)

theorem integrateBody_steady {preMerge : Str} :
    Steady taskId limit (integrateBody cfg jobId task cwd preMerge) := by
  refine mergeOrResolve_steady.bind fun merged => ?_
  apply Steady.ite
  · refine verifyIntegration_steady.bind fun verified => ?_
    refine Steady.ite (Steady.bind (thread_steady head_quiet) fun commit => ?_) (pure_steady _)
    exact recordEvent_steady.bind fun _ => pure_steady _
  · exact Steady.bind (thread_steady abortMerge_quiet) fun _ => pure_steady _

theorem reviewLoop_steady {goal : Text} {diff : Str} {gates : List GateResult}
    {attemptNumber : Int} {candidates tried errors : List Str} :
    Steady taskId limit (reviewLoop cfg jobId task goal diff cwd gates attemptNumber candidates
      tried errors) := by
  induction candidates generalizing tried errors with
  | nil => exact pure_steady _
  | cons candidate candidates ih =>
    refine Steady.attempt (α := Str) (perform_steady trivial) ?_ rfl
    rintro (x | agentName) -
    · exact ih.ite (raise_steady x)
    · refine ih.ite (Steady.attempt ?_ ?_ rfl)
      · refine Steady.bind (perform_steady trivial) fun review => ?_
        exact recordEvent_steady.bind fun _ => pure_steady _
      · rintro (x | review) -
        · exact ih.ite (raise_steady x)
        · exact pure_steady _

theorem reviewTaskResilient_steady {goal : Text} {gates : List GateResult} {attemptNumber : Int} :
    Steady taskId limit (reviewTaskResilient cfg jobId task goal cwd gates attemptNumber) :=
  Steady.bind (thread_steady diffWorktree_quiet) fun _ => reviewLoop_steady

end Stages

/-! ## Stages that may lose a cancellation

The handlers of the integration and of the cleanup may raise something else
in the place of a cancellation. Nothing catches that, so of an exception it is
enough to know that no thread is at work. -/

/-- The end of a stage, of which only a returned value says more. -/
def AtRest {α : Type} (Post : α → Numbering → Prop) :
    Except Raised α → Numbering → Prop
  | .ok a, m => m.thread = false ∧ Post a m
  | .error _, m => m.thread = false

/-- A stage that makes only permitted calls. -/
def Numbered {α : Type} (taskId : Text) (limit : Nat) (p : Coroutine α)
    (Post : α → Numbering → Prop) (m : Numbering) : Prop :=
  Ensures numberingHandler (fun e m => m.Permits taskId limit e) p (AtRest Post) m

section Numbered

variable {taskId jobId : Text} {limit : Nat} {α β : Type} {m : Numbering} {cwd : Str}
  {cfg : EngineConfig} {task : TaskRow} {Mid : α → Numbering → Prop}
  {Post : β → Numbering → Prop}

theorem Steady.numbered {p : Coroutine α} (h : Steady taskId limit p) (hm : m.thread = false)
    (hphase : m.phase ≠ .unread) : Numbered taskId limit p (fun _ m' => m' = m) m := by
  refine (h m hm hphase).imp fun r m' hkept => ?_
  cases r with
  | ok a => exact ⟨hkept.1, hkept.of_ok hm⟩
  | error x => exact hkept.1

theorem Numbered.bind {p : Coroutine α} {f : α → Coroutine β} (h : Numbered taskId limit p Mid m)
    (hf : ∀ a m', m'.thread = false → Mid a m' → Numbered taskId limit (f a) Post m') :
    Numbered taskId limit (p >>= f) Post m :=
  Ensures.bind h (fun a m' hmid => hf a m' hmid.1 hmid.2) fun _ _ hthread => hthread

/-- What follows a stage that leaves the numbering alone. -/
theorem Numbered.after {p : Coroutine α} {f : α → Coroutine β} (hm : m.thread = false)
    (hphase : m.phase ≠ .unread) (h : Steady taskId limit p)
    (hf : ∀ a, Numbered taskId limit (f a) Post m) : Numbered taskId limit (p >>= f) Post m := by
  refine (h.numbered hm hphase).bind fun a m' _ hsame => ?_
  rw [hsame]
  exact hf a

theorem Numbered.ite {c : Prop} [Decidable c] {p q : Coroutine α}
    (hp : Numbered taskId limit p Mid m) (hq : Numbered taskId limit q Mid m) :
    Numbered taskId limit (if c then p else q) Mid m :=
  Ensures.ite (fun _ => hp) fun _ => hq

theorem Numbered.pure {a : α} (hm : m.thread = false) (h : Mid a m) :
    Numbered taskId limit (pure a : Coroutine α) Mid m := ⟨hm, h⟩

theorem Numbered.raise {x : Raised} (hm : m.thread = false) :
    Numbered taskId limit (.raise x : Coroutine α) Mid m := hm

/-- A call that returns to a known place. -/
theorem perform_numbered {e : Effect} {Mid : e.Reply → Numbering → Prop}
    (hpermits : m.Permits taskId limit e)
    (hok : ∀ a, (m.next e (.ok a)).thread = false ∧ Mid a (m.next e (.ok a)))
    (herror : ∀ x, (m.next e (.error x)).thread = false) :
    Numbered taskId limit (perform e) Mid m := by
  refine ensures_perform.mpr ⟨hpermits, ?_⟩
  rintro r m' ⟨-, rfl⟩
  cases r with
  | ok a => exact hok a
  | error x => exact herror x

theorem withLock_numbered {lock : Lock} {p : Coroutine α} (hm : m.thread = false)
    (hp : Numbered taskId limit p Mid m) : Numbered taskId limit (withLock lock p) Mid m := by
  have hacquire : Numbered taskId limit (perform (.acquire lock)) (fun _ m' => m' = m) m := by
    refine perform_numbered (permits_of_idle hm trivial) (fun _ => ⟨hm, rfl⟩) fun x => ?_
    cases x <;> exact hm
  refine hacquire.bind ?_
  rintro _ _ - rfl
  refine ensures_attempt_bind.mpr (Ensures.imp hp fun outcome m' hrest => ?_)
  have hm' : m'.thread = false := by
    cases outcome with
    | ok a => exact hrest.1
    | error x => exact hrest
  refine (release_ensures hm').bind ?_ ?_
  · rintro _ _ ⟨rfl, -⟩
    exact ensures_ofExcept.mpr hrest
  · rintro x _ ⟨-, hok⟩
    cases hok

/-- After a stage that is steady, whatever it raises, a steady handler. -/
theorem tryCatch_numbered {p : Coroutine α} {handler : Raised → Coroutine α}
    (hm : m.thread = false) (hphase : m.phase ≠ .unread) (hp : Steady taskId limit p)
    (hhandler : ∀ x m', m'.thread = false → m'.phase ≠ .unread →
      (x ≠ .cancelledError → m' = m) →
      Numbered taskId limit (handler x) (fun _ m'' => m'' = m) m') :
    Numbered taskId limit (p.tryCatch handler) (fun _ m' => m' = m) m := by
  refine Ensures.tryCatch (hp m hm hphase) (fun a m' hkept => ⟨hkept.1, hkept.of_ok hm⟩) ?_
  intro x m' hkept
  refine hhandler x m' hkept.1 ?_ fun hx => hkept.of_error hm hx
  obtain ⟨-, -, hsame | ⟨hover, -⟩⟩ := hkept
  · rw [hsame]
    exact hphase
  · rw [hover]
    exact nofun

theorem integrateTask_numbered (hm : m.thread = false) (hphase : m.phase ≠ .unread) :
    Numbered taskId limit (integrateTask cfg jobId task cwd) (fun _ m' => m' = m) m := by
  refine withLock_numbered hm (withLock_numbered hm ?_)
  refine Numbered.after hm hphase (perform_steady rfl) fun _ => ?_
  refine Numbered.after hm hphase (thread_steady head_quiet) fun preMerge => ?_
  refine tryCatch_numbered hm hphase integrateBody_steady fun x m' hm' hphase' _ => ?_
  exact Numbered.after hm' hphase' (thread_steady rollback_quiet) fun _ => .raise hm'

theorem cleanupTask_numbered {owner : Text} {checkout : TaskCheckout} (hm : m.thread = false)
    (hphase : m.phase ≠ .unread) :
    Numbered taskId limit (cleanupTask jobId owner checkout) (fun _ m' => m' = m) m := by
  refine tryCatch_numbered hm hphase (withLock_steady (Steady.bind
    (thread_steady removeWorktree_quiet) fun _ => thread_steady deleteBranch_quiet)) ?_
  intro x m' hm' hphase' hsame
  refine Ensures.ite (fun hexception => ?_) fun _ => ?_
  · have hx : x ≠ .cancelledError := by
      rintro rfl
      cases hexception
    rw [hsame hx]
    exact recordEvent_steady.numbered hm hphase
  · exact Numbered.after hm' hphase' recordEvent_steady fun _ => .raise hm'

/-! ## The attempts -/

variable {id attemptId goal : Text} {number : Int} {created : Nat} {checkout : TaskCheckout}
  {agentName context : Str} {gates : List GateResult}

/-- The end of the attempt makes room for the next one. -/
theorem finishAttempt_numbered {state summary : Str} {returncode : Option Int} :
    Numbered taskId limit (perform (.finishAttempt attemptId state returncode summary))
      (fun _ m' => m' = ⟨.ready (number + 1), false, created⟩)
      ⟨.opened attemptId number, false, created⟩ := by
  refine perform_numbered (permits_of_idle rfl trivial) (fun _ => ⟨rfl, ?_⟩) fun x => ?_
  · show Numbering.mk (if attemptId = attemptId then _ else _) _ _ = _
    rw [if_pos rfl]
  · cases x <;> rfl

/-- Nothing more is known of the end of an attempt than that no thread is at work. -/
theorem finishAttempt_idle {state summary : Str} {returncode : Option Int}
    (hm : m.thread = false) :
    Numbered taskId limit (perform (.finishAttempt attemptId state returncode summary))
      (fun _ _ => True) m := by
  refine perform_numbered (permits_of_idle hm trivial) (fun _ => ⟨hm, trivial⟩) fun x => ?_
  cases x <;> exact hm

/-- The writes after the end of an attempt. -/
theorem Numbered.afterFinish {state summary : Str} {returncode : Option Int}
    {f : Unit → Coroutine α}
    (h : ∀ a, Steady taskId limit (f a)) :
    Numbered taskId limit (perform (.finishAttempt attemptId state returncode summary) >>= f)
      (fun _ m' => m' = ⟨.ready (number + 1), false, created⟩)
      ⟨.opened attemptId number, false, created⟩ := by
  refine finishAttempt_numbered.bind ?_
  rintro a _ - rfl
  exact (h a).numbered rfl nofun

theorem failAttempt_numbered {returncode : Option Int} :
    Numbered taskId limit (failAttempt id attemptId returncode context)
      (fun _ m' => m' = ⟨.ready (number + 1), false, created⟩)
      ⟨.opened attemptId number, false, created⟩ :=
  Numbered.afterFinish fun _ => perform_steady rfl

theorem completeTask_numbered {review : ReviewResult} :
    Numbered taskId limit
      (completeTask cfg jobId id attemptId checkout number agentName review)
      (fun _ m' => m' = ⟨.ready (number + 1), false, created⟩)
      ⟨.opened attemptId number, false, created⟩ := by
  refine finishAttempt_numbered.bind ?_
  rintro _ _ - rfl
  refine Numbered.after rfl nofun (perform_steady rfl) fun _ => ?_
  refine Numbered.after rfl nofun recordEvent_steady fun _ => ?_
  exact Numbered.ite (cleanupTask_numbered rfl nofun) (.pure rfl rfl)

theorem reviewAndIntegrate_numbered :
    Numbered taskId limit (reviewAndIntegrate cfg jobId id attemptId goal checkout cwd number
      agentName gates)
      (fun _ m' => m' = ⟨.ready (number + 1), false, created⟩)
      ⟨.opened attemptId number, false, created⟩ := by
  refine Numbered.after rfl nofun (perform_steady rfl) fun _ => ?_
  refine Numbered.after rfl nofun (perform_steady trivial) fun task => ?_
  refine Numbered.after rfl nofun reviewTaskResilient_steady fun review => ?_
  refine Numbered.ite ?_ ?_
  · refine Numbered.after rfl nofun (perform_steady trivial) fun task => ?_
    refine (integrateTask_numbered (m := ⟨.opened attemptId number, false, created⟩) rfl
      nofun).bind ?_
    rintro ⟨integrated, feedback⟩ _ - rfl
    refine Numbered.ite (completeTask_numbered.bind ?_) (failAttempt_numbered.bind ?_)
    · rintro _ _ hm' rfl
      exact .pure hm' rfl
    · rintro _ _ hm' rfl
      exact .pure hm' rfl
  · refine failAttempt_numbered.bind ?_
    rintro _ _ - rfl
    exact Numbered.after rfl nofun recordEvent_steady fun _ => .pure rfl rfl

theorem judgeAttempt_numbered {result : AgentResult} :
    Numbered taskId limit (judgeAttempt cfg jobId task attemptId goal checkout cwd number agentName
      result)
      (fun _ m' => m' = ⟨.ready (number + 1), false, created⟩)
      ⟨.opened attemptId number, false, created⟩ := by
  have hretry : ∀ (returncode : Option Int) (kind : String)
      (payload : List (Str × Json NonFinite)) (context : Str),
      Numbered taskId limit (do
          failAttempt task.id attemptId returncode context
          recordEvent jobId kind payload task.id
          return AttemptOutcome.retry context)
        (fun _ m' => m' = ⟨.ready (number + 1), false, created⟩)
        ⟨.opened attemptId number, false, created⟩ := by
    intro returncode kind payload context
    refine failAttempt_numbered.bind ?_
    rintro _ _ - rfl
    exact Numbered.after rfl nofun recordEvent_steady fun _ => .pure rfl rfl
  refine Numbered.ite ?_ (hretry _ _ _ _)
  refine Numbered.after rfl nofun (thread_steady commitAll_quiet) fun _ => ?_
  refine Numbered.after rfl nofun runGates_steady fun gates => ?_
  refine Numbered.ite ?_ ?_
  · exact reviewAndIntegrate_numbered
  · exact Numbered.after rfl nofun (liftExn_steady _) fun gatesText => hretry _ _ _ _

theorem attemptTask_numbered (hlimit : created < limit) :
    Numbered taskId limit (attemptTask cfg jobId taskId goal checkout cwd number context)
      (fun _ m' => m' = ⟨.ready (number + 1), false, created + 1⟩)
      ⟨.ready number, false, created⟩ := by
  -- the job and the task are read before a number is given
  refine Numbered.after rfl nofun (perform_steady trivial) fun job => ?_
  refine Numbered.ite (.raise rfl) ?_
  refine Numbered.after rfl nofun (perform_steady trivial) fun task => ?_
  refine Numbered.after rfl nofun chooseWorker_steady fun agentName => ?_
  -- the number goes to the task first, and to the attempt in a second transaction
  have hmark : Numbered taskId limit (perform (.updateTask taskId
      { state := some (lit TaskState.running.value), attempts := some number
        lastError := some [] }))
      (fun _ m' => m' = ⟨.marked number, false, created⟩) ⟨.ready number, false, created⟩ := by
    refine perform_numbered (permits_of_idle rfl ?_) (fun _ => ⟨rfl, rfl⟩) fun x => ?_
    · rintro _ ⟨⟩
      exact ⟨rfl, rfl⟩
    · cases x <;> rfl
  refine hmark.bind ?_
  rintro _ _ - rfl
  -- the attempt is opened with the number that the task has got
  have hstart : ∀ agent worktree branch logPath : Str, Numbered taskId limit
      (perform (.startAttempt { jobId := jobId.val, taskId := taskId.val, number, agent, worktree
                                branch, logPath }))
      (fun attemptId m' => m' = ⟨.opened attemptId number, false, created + 1⟩)
      ⟨.marked number, false, created⟩ := by
    intro agent worktree branch logPath
    refine perform_numbered (permits_of_idle rfl ⟨rfl, rfl, hlimit⟩) (fun _ => ⟨rfl, rfl⟩) ?_
    intro x
    cases x <;> rfl
  refine (hstart _ _ _ _).bind ?_
  rintro attemptId _ - rfl
  refine Numbered.after rfl nofun recordEvent_steady fun _ => ?_
  -- the agent runs for the attempt that is open
  refine ensures_attempt_bind.mpr (Ensures.imp (perform_steady (e := .runAgent _ _ _ _) trivial
    ⟨.opened attemptId number, false, created + 1⟩ rfl nofun) ?_)
  rintro (x | result) m' hkept
  -- it cannot be launched: the attempt is finished, and the task may try again
  · have hretry : m' = ⟨.opened attemptId number, false, created + 1⟩ →
        Numbered taskId limit (do
          perform (.finishAttempt attemptId (lit "failed") none
            (lit "Agent launch failed: " ++ x.message))
          perform (.updateTask taskId
            { state := some (lit TaskState.pending.value)
              lastError := some (lit "Agent launch failed: " ++ x.message) })
          recordEvent jobId "task.agent_error" [(lit "error", .str x.message)] taskId
          return AttemptOutcome.retry (lit "Agent launch failed: " ++ x.message))
        (fun _ m'' => m'' = ⟨.ready (number + 1), false, created + 1⟩) m' := by
      rintro rfl
      refine Numbered.afterFinish fun _ => Steady.bind (perform_steady rfl) fun _ => ?_
      exact recordEvent_steady.bind fun _ => pure_steady _
    by_cases hx : x = .cancelledError
    · subst hx
      -- the attempt is closed as cancelled, and nothing follows
      refine (finishAttempt_idle hkept.1).bind ?_
      rintro _ m'' hm'' -
      exact .raise hm''
    · cases x with
      | cancelledError => exact absurd rfl hx
      | _ => exact hretry (hkept.of_error rfl hx)
  · rw [hkept.of_ok rfl]
    exact judgeAttempt_numbered

theorem attemptLoop_numbered {remaining : Nat} (hlimit : created + remaining ≤ limit) :
    Numbered taskId limit (attemptLoop cfg jobId taskId goal checkout cwd remaining number context)
      (fun _ m' => m'.phase ≠ .unread) ⟨.ready number, false, created⟩ := by
  -- every attempt takes one from what remains
  induction remaining generalizing number created context with
  | zero => exact .pure rfl nofun
  | succ remaining ih =>
    refine (attemptTask_numbered (by omega)).bind ?_
    rintro outcome _ - rfl
    cases outcome with
    | completed => exact .pure rfl nofun
    | retry context => exact ih (by omega)

theorem exhaustTask_steady {firstAttempt : Int} :
    Steady taskId limit (exhaustTask cfg jobId taskId firstAttempt) := by
  refine Steady.bind (perform_steady trivial) fun task => ?_
  exact Steady.bind (perform_steady rfl) fun _ => recordEvent_steady

/-- The task is read first, and its number of attempts is what the loop starts from. -/
theorem runTaskWithSlot_numbered :
    Numbered taskId cfg.maxAttempts (runTaskWithSlot cfg jobId taskId cwd) (fun _ _ => True)
      {} := by
  have hread : Numbered taskId cfg.maxAttempts (perform (.getTask taskId))
      (fun task m' => m' = ⟨.ready (TaskRow.attempts task + 1), false, 0⟩) {} := by
    refine perform_numbered (permits_of_idle rfl fun _ => rfl) (fun _ => ⟨rfl, rfl⟩) fun x => ?_
    cases x <;> rfl
  refine hread.bind ?_
  rintro task _ - rfl
  refine Numbered.after rfl nofun (perform_steady trivial) fun job => ?_
  refine Numbered.after rfl nofun acquireWorktree_steady fun checkout => ?_
  refine (attemptLoop_numbered (Nat.zero_add _).le).bind fun completed m' hm' hphase => ?_
  refine Numbered.ite (.pure hm' trivial) ?_
  exact (exhaustTask_steady.numbered hm' hphase).bind fun _ _ hm'' _ => .pure hm'' trivial

/-- A coroutine numbers its attempts one after the other, from the number it has read, and
creates no more than its budget allows. -/
theorem runTask_numbered :
    Numbered taskId cfg.maxAttempts (runTask cfg jobId taskId cwd) (fun _ _ => True) {} :=
  withLock_numbered rfl runTaskWithSlot_numbered

end Numbered

end OmarchyYolo
