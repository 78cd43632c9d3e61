import OmarchyYolo.Checkout
import OmarchyYolo.QuietCalls

/-!
# OmarchyYolo.IntegrationUndo — what a failed integration leaves

A transaction that does not integrate its task is undone in three ways: the gates'
failure by a hard reset, an exception by giving up the merge and a hard reset, and
a conflict that nobody resolves by giving up the merge alone. Agents and gates may
do anything in the worktree meanwhile, and any command may fail.

* `Transaction` — the worktree, with what has been noted of the run;
* `Transacts` — what a call may do to it;
* `resetHard_restores`, `rollback_restores`, `abortMerge_restores` — the three ways;
* `failed_integration_undone` — how every run ends.
-/

namespace OmarchyYolo

open Py PyJson Calls

/-! ## The worktree of a transaction -/

/-- The integration worktree, and what has been noted so far. -/
structure Transaction (B : Type) where
  checkout : Checkout B
  /-- What the first look at `HEAD` has found. -/
  headRead : Option Str
  /-- The value of `pre_merge`, once it has been read. -/
  preMerge : Option Str
  /-- The worktree when `MERGE_HEAD` was last looked for. -/
  lookedAt : Checkout B
  /-- The last command of Git has failed. -/
  failed : Bool

section Transaction

variable {B : Type} (h : History (Files B)) (integrationPath : Str)

namespace Transaction

def start (c : Checkout B) : Transaction B :=
  { checkout := c, headRead := none, preMerge := none, lookedAt := c, failed := false }

/-- What is noted of a call, which leaves the worktree as `c`. A result is taken up when the
coroutine goes on. -/
def note (w : Transaction B) (c : Checkout B) : (e : Effect) → Except Raised e.Reply →
    Transaction B
  | .git _ .head, .ok commit =>
    { w with checkout := c, headRead := w.headRead.or (some commit), failed := false }
  | .git _ .mergeHeadExists, r =>
    { w with checkout := c, lookedAt := w.checkout, failed := !r.toBool }
  | .git _ _, r => { w with checkout := c, failed := !r.toBool }
  | .suspend, .ok _ => { w with checkout := c, preMerge := w.preMerge.or w.headRead }
  | _, _ => { w with checkout := c }

end Transaction

/-- How a call may change the worktree: a command that fails may leave anything, where it
writes; so may an agent and the gates, and those who have the lock before. The release of a
lock raises nothing. -/
def Changes (e : Effect) (r : Except Raised e.Reply) (c c' : Checkout B) : Prop :=
  match e, r with
  | .git cwd command, .ok reply =>
    if cwd = integrationPath then ∃ tips, command.Does h tips c reply c' else c' = c
  | .git cwd command, .error _ => cwd = integrationPath ∧ command.writes = true ∨ c' = c
  | .runAgent _ _ _ _, _ | .runGates _ _ _, _ | .acquire _, _ => True
  | .release _, .error _ => False
  | _, _ => c' = c

/-- What a call does. -/
def Transacts : Handler Effect Effect.Reply Raised (Transaction B) := fun e w r w' =>
  Changes h integrationPath e r w.checkout w'.checkout ∧ w' = w.note w'.checkout e r

end Transaction

/-- Every run of the coroutine in the worktree ends so. -/
abbrev Ends {B : Type} (h : History (Files B)) (integrationPath : Str) {α : Type} (p : Coroutine α)
    (Post : Except Raised α → Transaction B → Prop) (w : Transaction B) : Prop :=
  Ensures (Transacts h integrationPath) (fun _ _ => True) p Post w

/-- The feedback of a task whose conflict nobody has resolved. -/
def conflictFeedback : Str :=
  lit "Integration merge conflict could not be resolved autonomously."

section Undo

variable {B : Type} {h : History (Files B)} {integrationPath pre : Str} {w w' : Transaction B}
  {cfg : EngineConfig} {jobId : Text} {task : TaskRow} {α : Type}

/-! ## Calls -/

theorem note_preMerge {e : Effect} {r : Except Raised e.Reply} {c : Checkout B}
    (hpre : w.preMerge = some pre) : (w.note c e r).preMerge = some pre := by
  unfold Transaction.note
  split
  · exact hpre
  · exact hpre
  · exact hpre
  · simp only [hpre, Option.some_or]
  · exact hpre

/-- `pre_merge` is read once. -/
theorem ends_keeping (p : Coroutine α) (hpre : w.preMerge = some pre) :
    Ends h integrationPath p (fun _ w' => w'.preMerge = some pre) w := by
  have hmakes : p.Makes fun _ => True := makes_of_forall (fun _ => trivial) p
  refine hmakes.keeps (fun _ _ _ _ => trivial) (fun e w r w' _ hpre hstep => ?_) hpre
  rw [hstep.2]
  exact note_preMerge hpre

/-- A command in the worktree. -/
theorem gitCommand_ends {command : GitCommand}
    {Post : Except Raised command.Reply → Transaction B → Prop}
    (hok : ∀ tips reply c, command.Does h tips w.checkout reply c →
      Post (.ok reply) (w.note c (.git integrationPath command) (.ok reply)))
    (herror : ∀ x c, Post (.error x) (w.note c (.git integrationPath command) (.error x))) :
    Ends h integrationPath (gitCommand integrationPath command) Post w := by
  refine ensures_perform.mpr ⟨trivial, fun r w' hstep => ?_⟩
  rw [hstep.2]
  cases r with
  | error x => exact herror x w'.checkout
  | ok reply =>
    have hchanges := hstep.1
    simp only [Changes, if_pos] at hchanges
    obtain ⟨tips, hdoes⟩ := hchanges
    exact hok tips reply w'.checkout hdoes

theorem recordEvent_ends {kind : String} {payload : List (Str × Json NonFinite)}
    {taskId : Option Text} :
    Ends h integrationPath (recordEvent jobId kind payload taskId) (fun _ w' => w' = w) w := by
  refine ensures_perform.mpr ⟨trivial, fun r w' hstep => ?_⟩
  have hsame : w'.checkout = w.checkout := hstep.1
  rw [hstep.2, hsame]
  rfl

theorem release_ends {lock : Lock} :
    Ends h integrationPath (perform (.release lock)) (fun r w' => w' = w ∧ r = .ok ()) w := by
  refine ensures_perform.mpr ⟨trivial, fun r w' hstep => ?_⟩
  cases r with
  | error x => exact hstep.1.elim
  | ok u =>
    have hsame : w'.checkout = w.checkout := hstep.1
    rw [hstep.2, hsame]
    exact ⟨rfl, rfl⟩

theorem suspend_ends (hpre : w.preMerge = some pre) :
    Ends h integrationPath suspend (fun _ w' => w' = w) w := by
  refine ensures_perform.mpr ⟨trivial, fun r w' hstep => ?_⟩
  have hsame : w'.checkout = w.checkout := hstep.1
  rw [hstep.2, hsame]
  cases r with
  | error x => rfl
  | ok u =>
    simp only [Transaction.note, hpre, Option.some_or]
    rw [← hpre]

/-! ## The ways back -/

/-- The program returns so, or the last command of Git has failed. -/
def OrFailed (Post : α → Transaction B → Prop) : Except Raised α → Transaction B → Prop
  | .ok a, w => Post a w
  | .error _, w => w.failed = true

theorem gitCommand_orFailed {command : GitCommand} {Post : command.Reply → Transaction B → Prop}
    (hok : ∀ tips reply c, command.Does h tips w.checkout reply c →
      Post reply (w.note c (.git integrationPath command) (.ok reply)))
    (herror : ∀ x c, (w.note c (.git integrationPath command) (.error x)).failed = true) :
    Ends h integrationPath (gitCommand integrationPath command) (OrFailed Post) w :=
  gitCommand_ends hok herror

theorem OrFailed.andThen {β : Type} {p : Coroutine α} {f : α → Coroutine β}
    {Mid : α → Transaction B → Prop} {Post : β → Transaction B → Prop}
    (hp : Ends h integrationPath p (OrFailed Mid) w)
    (hf : ∀ a w, Mid a w → Ends h integrationPath (f a) (OrFailed Post) w) :
    Ends h integrationPath (p >>= f) (OrFailed Post) w := hp.bind hf fun _ _ hfailed => hfailed

theorem assertWorktree_orFailed :
    Ends h integrationPath (gitCommand integrationPath (.assertWorktree none))
      (OrFailed fun _ _ => True) w :=
  gitCommand_orFailed (fun _ _ _ _ => trivial) fun _ _ => rfl

/-- `reset_hard`. -/
theorem resetHard_restores :
    Ends h integrationPath (resetHard integrationPath pre)
      (OrFailed fun _ w' => w'.failed = false ∧ w'.checkout.Restored h pre) w := by
  refine OrFailed.andThen assertWorktree_orFailed fun _ w₁ _ => ?_
  have hreset : Ends h integrationPath (gitCommand integrationPath (.resetHard pre))
      (OrFailed fun _ w' => w₁.checkout.ResetTo h pre w'.checkout) w₁ :=
    gitCommand_orFailed (fun _ _ _ hdoes => hdoes) fun _ _ => rfl
  refine OrFailed.andThen hreset fun _ w₂ hreset => ?_
  exact gitCommand_orFailed (fun _ _ _ hdoes => ⟨rfl, Checkout.restored_of_reset hreset hdoes⟩)
    fun _ _ => rfl

/-- `merge_in_progress`: the look is noted. -/
theorem mergeInProgress_looks :
    Ends h integrationPath (mergeInProgress integrationPath) (OrFailed fun merging w' =>
      w'.lookedAt = w'.checkout ∧ merging = w'.checkout.merging.isSome) w := by
  refine OrFailed.andThen assertWorktree_orFailed fun _ w₁ _ => ?_
  refine gitCommand_orFailed (fun _ merging c hdoes => ?_) fun _ _ => rfl
  rcases hdoes with ⟨hreply, rfl⟩
  exact ⟨rfl, hreply⟩

/-- `abort_merge`: the worktree is at the commit again, if the merge was all that had been
begun. -/
theorem abortMerge_restores :
    Ends h integrationPath (abortMerge integrationPath) (OrFailed fun _ w' =>
      w'.checkout.Restored h pre ↔ w'.lookedAt.Undoable h pre) w := by
  refine OrFailed.andThen assertWorktree_orFailed fun _ w₁ _ => ?_
  refine OrFailed.andThen mergeInProgress_looks fun merging w₂ hlooked => ?_
  rcases hlooked with ⟨hsame, hmerging⟩
  refine Ensures.ite (fun _ => ?_) fun hnone => ?_
  · refine gitCommand_orFailed (fun _ _ c hdoes => ?_) fun _ _ => rfl
    show c.Restored h pre ↔ w₂.lookedAt.Undoable h pre
    rw [hsame]
    exact Checkout.restored_abandoned_iff hdoes
  · have hover : w₂.checkout.merging = none := by
      rw [hmerging, Bool.not_eq_true, Option.isSome_eq_false_iff] at hnone
      exact Option.isNone_iff_eq_none.mp hnone
    show w₂.checkout.Restored h pre ↔ w₂.lookedAt.Undoable h pre
    rw [hsame]
    exact Checkout.restored_iff hover

/-- `finish_before_cancel`, once `pre_merge` has been read: the outcome may be given up for a
cancellation, what has been done is done. -/
theorem finishBeforeCancel_ends {p : Coroutine α} {Post : Except Raised α → Transaction B → Prop}
    (hpre : w.preMerge = some pre) (hp : Ends h integrationPath p Post w) :
    Ends h integrationPath (finishBeforeCancel p) (fun r w' => w'.preMerge = some pre ∧
      ∃ outcome, Post outcome w' ∧ (r = outcome ∨ ∃ x, r = .error x)) w := by
  refine ensures_attempt_bind.mpr (((ends_keeping p hpre).and hp).imp fun r w₁ hmid => ?_)
  refine (suspend_ends hmid.1).bind (fun _ w₂ hsame => ?_) fun x w₂ hsame => ?_
  · rw [hsame]
    exact ensures_ofExcept.mpr ⟨hmid.1, r, hmid.2, Or.inl rfl⟩
  · rw [hsame]
    exact ⟨hmid.1, r, hmid.2, Or.inr ⟨x, rfl⟩⟩

/-- The same, where it returns. -/
theorem finishBeforeCancel_returns {p : Coroutine α} {Post : α → Transaction B → Prop}
    (hpre : w.preMerge = some pre) (hp : Ends h integrationPath p (OrFailed Post) w) :
    Ends h integrationPath (finishBeforeCancel p)
      (fun r w' => w'.preMerge = some pre ∧ Returned Post r w') w := by
  refine (finishBeforeCancel_ends hpre hp).imp fun r w' hend => ?_
  rcases hend with ⟨hpre, outcome, hpost, rfl | ⟨x, rfl⟩⟩
  · refine ⟨hpre, ?_⟩
    cases r with
    | ok a => exact hpost
    | error x => trivial
  · exact ⟨hpre, trivial⟩

/-- `rollback`: where its last command has succeeded, the worktree is at the commit again. -/
theorem rollback_restores :
    Ends h integrationPath (rollback integrationPath pre) (fun _ w' =>
      w'.failed = false → w'.checkout.Restored h pre) w := by
  have hleft : ∀ (r : Except Raised Unit) (w' : Transaction B),
      OrFailed (fun _ w' => w'.failed = false ∧ w'.checkout.Restored h pre) r w' →
        w'.failed = false → w'.checkout.Restored h pre := by
    intro r w' hend hok
    cases r with
    | ok u => exact hend.2
    | error x => exact absurd (hok.symm.trans hend) Bool.false_ne_true
  -- what giving up the merge raises is passed over
  have habandoned : Ends h integrationPath (abortMerge integrationPath) (OrFailed fun _ w' =>
      w'.checkout.Restored h pre ↔ w'.lookedAt.Undoable h pre) w := abortMerge_restores
  have hpassed : Ends h integrationPath (exceptWhen Raised.isException (abortMerge integrationPath)
      fun _ => return ()) (OrFailed fun _ _ => True) w := by
    refine habandoned.tryCatch (fun _ _ _ => trivial) fun x w₁ hfailed => ?_
    exact Ensures.ite (fun _ => trivial) fun _ => hfailed
  exact Ensures.imp (OrFailed.andThen hpassed fun _ w₁ _ => resetHard_restores) hleft

/-! ## The transaction -/

/-- How a transaction that has read `pre_merge` is left. -/
def Transaction.Left (h : History (Files B)) (pre : Str) (r : Except Raised (Bool × Str))
    (w : Transaction B) : Prop :=
  match r with
  | .ok (true, feedback) => feedback = []
  | .ok (false, feedback) =>
    w.checkout.Restored h pre ↔ (feedback = conflictFeedback → w.lookedAt.Undoable h pre)
  | .error _ => w.failed = false → w.checkout.Restored h pre

/-- The feedback of the gates is another one. -/
theorem gateFeedback_ne (gates : Str) :
    lit "Post-merge integration gates failed:\n" ++ gates ≠ conflictFeedback := by
  intro heq
  have hfirst := congrArg List.head? heq
  rw [List.head?_append_of_ne_nil _ (by decide)] at hfirst
  revert hfirst
  decide

/-- What has been verified, where the coroutine goes on. -/
def GatesLeft (h : History (Files B)) (pre : Str) (r : Except Raised (Bool × Str))
    (w : Transaction B) : Prop :=
  match r with
  | .ok (true, feedback) => feedback = []
  | .ok (false, feedback) => feedback ≠ conflictFeedback ∧ w.checkout.Restored h pre
  | .error _ => True

/-- What the gates say of the merged candidate: where they fail, and nobody repairs it, the
worktree is at the commit again. -/
theorem verifyIntegration_left (hpre : w.preMerge = some pre) :
    Ends h integrationPath (verifyIntegration cfg jobId task integrationPath pre) (fun r w' =>
      w'.preMerge = some pre ∧ GatesLeft h pre r w') w := by
  refine (ends_keeping _ hpre).bind (fun gates w₁ hpre => ?_) fun x w₁ hpre => ⟨hpre, trivial⟩
  refine Ensures.ite (fun _ => ⟨hpre, rfl⟩) fun _ => ?_
  refine (ends_keeping _ hpre).bind (fun gatesText w₂ hpre => ?_) fun x w₂ hpre => ⟨hpre, trivial⟩
  refine (ends_keeping _ hpre).bind (fun repaired w₃ hpre => ?_) fun x w₃ hpre => ⟨hpre, trivial⟩
  -- the repaired candidate has to pass the gates again
  have hend : ∀ (verified : Bool) (w₄ : Transaction B), w₄.preMerge = some pre →
      Ends h integrationPath
        (if verified then return (true, [])
        else do
          atomicToThread (resetHard integrationPath pre)
          recordEvent jobId "integration.rolled_back" [(lit "task", .str task.logicalId.val)]
            task.id
          return (false, lit "Post-merge integration gates failed:\n" ++ gatesText))
        (fun r w' => w'.preMerge = some pre ∧ GatesLeft h pre r w') w₄ := by
    intro verified w₄ hpre
    refine Ensures.ite (fun _ => ⟨hpre, rfl⟩) fun _ => ?_
    refine (finishBeforeCancel_returns hpre resetHard_restores).bind (fun _ w₅ hmid => ?_)
      fun x w₅ hmid => ⟨hmid.1, trivial⟩
    refine recordEvent_ends.bind (fun _ w₆ hsame => ?_) fun x w₆ hsame => ?_
    · rw [hsame]
      exact ⟨hmid.1, gateFeedback_ne gatesText, hmid.2.2⟩
    · rw [hsame]
      exact ⟨hmid.1, trivial⟩
  refine Ensures.ite (fun _ => ?_) fun _ => hend false w₃ hpre
  exact (ends_keeping _ hpre).bind (fun gates w₄ hpre => hend (allOk gates) w₄ hpre)
    fun x w₄ hpre => ⟨hpre, trivial⟩

/-- What is done under the handler: what it raises is left to the handler. -/
theorem integrateBody_left (hpre : w.preMerge = some pre) :
    Ends h integrationPath (integrateBody cfg jobId task integrationPath pre) (fun r w' =>
      w'.preMerge = some pre ∧
        Returned (fun result => Transaction.Left h pre (.ok result)) r w') w := by
  refine (ends_keeping _ hpre).bind (fun merged w₁ hpre => ?_) fun x w₁ hpre => ⟨hpre, trivial⟩
  refine Ensures.ite (fun _ => ?_) fun _ => ?_
  · refine (verifyIntegration_left hpre).bind (fun result w₂ hmid => ?_) fun x w₂ hmid =>
      ⟨hmid.1, trivial⟩
    rcases result with ⟨integrated, issue⟩
    rcases hmid with ⟨hpre, hverified⟩
    cases integrated with
    | true =>
      refine (ends_keeping _ hpre).bind (fun commit w₃ hpre => ?_) fun x w₃ hpre =>
        ⟨hpre, trivial⟩
      refine recordEvent_ends.bind (fun _ w₄ hsame => ?_) fun x w₄ hsame => ?_
      · rw [hsame]
        exact ⟨hpre, rfl⟩
      · rw [hsame]
        exact ⟨hpre, trivial⟩
    | false => exact ⟨hpre, iff_of_true hverified.2 fun hfeedback => absurd hfeedback hverified.1⟩
  · have habandoned : Ends h integrationPath (abortMerge integrationPath) (OrFailed fun _ w' =>
        w'.checkout.Restored h pre ↔ w'.lookedAt.Undoable h pre) w₁ := abortMerge_restores
    refine (finishBeforeCancel_returns hpre habandoned).bind (fun _ w₂ hmid => ?_)
      fun x w₂ hmid => ⟨hmid.1, trivial⟩
    refine ⟨hmid.1, ?_⟩
    show w₂.checkout.Restored h pre ↔ (conflictFeedback = conflictFeedback → _)
    rw [forall_prop_of_true rfl]
    exact hmid.2

/-- The transaction, from `pre_merge` on. -/
theorem transaction_left (hpre : w.preMerge = some pre) :
    Ends h integrationPath
      ((integrateBody cfg jobId task integrationPath pre).tryCatch fun x => do
        finishBeforeCancel (rollback integrationPath pre)
        .raise x)
      (fun r w' => w'.preMerge = some pre ∧ Transaction.Left h pre r w') w := by
  refine (integrateBody_left hpre).tryCatch (fun _ _ hmid => hmid) fun x w₁ hmid => ?_
  refine (finishBeforeCancel_ends hmid.1 rollback_restores).bind (fun _ w₂ hback => ?_)
    fun y w₂ hback => ?_
  · rcases hback with ⟨hpre, outcome, hrestored, -⟩
    exact ⟨hpre, hrestored⟩
  · rcases hback with ⟨hpre, outcome, hrestored, -⟩
    exact ⟨hpre, hrestored⟩

/-! ## The whole of it -/

/-- Nothing has been read so far. -/
def Transaction.Unread (w : Transaction B) : Prop := w.preMerge = none ∧ w.headRead = none

/-- How every run is left: nothing has been read, or what has been read is gone back to. -/
def Transaction.Finished (h : History (Files B)) (r : Except Raised (Bool × Str))
    (w : Transaction B) : Prop :=
  ∀ pre, w.preMerge = some pre → Transaction.Left h pre r w

theorem withLock_finished {lock : Lock} {p : Coroutine (Bool × Str)} (hunread : w.Unread)
    (hp : ∀ w₁ : Transaction B, w₁.Unread →
      Ends h integrationPath p (Transaction.Finished h) w₁) :
    Ends h integrationPath (withLock lock p) (Transaction.Finished h) w := by
  have hacquire : Ends h integrationPath (perform (.acquire lock))
      (fun _ w' => Transaction.Unread w') w := by
    refine ensures_perform.mpr ⟨trivial, fun r w' hstep => ?_⟩
    rw [hstep.2]
    exact hunread
  refine hacquire.bind (fun _ w₁ hunread => ?_) fun x w₁ hunread pre hpre => ?_
  · refine ensures_attempt_bind.mpr ((hp w₁ hunread).imp fun r w₂ hfinished => ?_)
    refine release_ends.bind (fun _ w₃ hsame => ?_) fun x w₃ hsame => ?_
    · rw [hsame.1]
      exact ensures_ofExcept.mpr hfinished
    · cases hsame.2
  · rw [hunread.1] at hpre
    cases hpre

/-- The first look at `HEAD`. -/
theorem readHead_ends (hunread : w.Unread) :
    Ends h integrationPath (toThread (head integrationPath))
      (fun r w' => w'.preMerge = r.toOption) w := by
  have hread : Ends h integrationPath (head integrationPath) (fun r w' =>
      w'.preMerge = none ∧ w'.headRead = r.toOption) w := by
    refine gitCommand_ends (fun _ commit c hdoes => ⟨hunread.1, ?_⟩) fun x c => hunread
    show w.headRead.or (some commit) = some commit
    rw [hunread.2]
    rfl
  refine ensures_attempt_bind.mpr (hread.imp fun r w₁ hmid => ?_)
  have hsuspend : Ends h integrationPath suspend (fun u w₂ =>
      w₂.preMerge = u.toOption.bind fun _ => w₁.headRead) w₁ := by
    refine ensures_perform.mpr ⟨trivial, fun u w₂ hstep => ?_⟩
    rw [hstep.2]
    cases u with
    | error x => exact hmid.1
    | ok u =>
      show w₁.preMerge.or w₁.headRead = w₁.headRead
      rw [hmid.1]
      rfl
  refine hsuspend.bind (fun u w₂ hpre => ?_) fun x w₂ hpre => hpre
  exact ensures_ofExcept.mpr (hpre.trans hmid.2)

theorem integrateTask_finished (hunread : w.Unread) :
    Ends h integrationPath (integrateTask cfg jobId task integrationPath)
      (Transaction.Finished h) w := by
  refine withLock_finished hunread fun w₁ hunread => withLock_finished hunread fun w₂ hunread => ?_
  have hmarked : Ends h integrationPath (perform (.updateTask task.id
      { state := some (lit TaskState.integrating.value) })) (fun _ w' => w'.Unread) w₂ := by
    refine ensures_perform.mpr ⟨trivial, fun r w' hstep => ?_⟩
    rw [hstep.2]
    exact hunread
  have hnone : ∀ (x : Raised) (w' : Transaction B), w'.preMerge = none →
      Transaction.Finished h (.error x) w' := by
    intro x w' hpre pre hsome
    rw [hpre] at hsome
    cases hsome
  refine hmarked.bind (fun _ w₃ hunread => ?_) fun x w₃ hunread => hnone x w₃ hunread.1
  refine (readHead_ends hunread).bind (fun preMerge w₄ hread => ?_) fun x w₄ hread =>
    hnone x w₄ hread
  refine (transaction_left hread).imp fun r w₅ hleft pre hpre => ?_
  rw [hleft.1] at hpre
  cases hpre
  exact hleft.2

end Undo

/-- Every run of `_integrate_task` that has read `pre_merge`, whatever agents and gates do in the
worktree, whichever command fails and wherever a cancellation arrives, integrates the task, or
leaves the worktree at that commit, clean and without a merge: after an exception, if the last
command of the rollback has succeeded, and after a conflict that is not resolved, exactly if
`merge --abort` can take everything back. -/
theorem failed_integration_undone {B : Type} (h : History (Files B)) (cfg : EngineConfig)
    (jobId : Text) (task : TaskRow) (integrationPath : Str) (c : Checkout B) :
    Ends h integrationPath (integrateTask cfg jobId task integrationPath)
      (fun r w => ∀ pre, w.preMerge = some pre → Transaction.Left h pre r w)
      (Transaction.start c) :=
  integrateTask_finished ⟨rfl, rfl⟩

end OmarchyYolo
