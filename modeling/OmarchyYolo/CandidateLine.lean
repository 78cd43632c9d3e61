import OmarchyYolo.Checkout
import OmarchyYolo.JobExecution
import OmarchyYolo.QuietCalls

/-!
# OmarchyYolo.CandidateLine — the line of the integration branch

The integration worktree is shared by the transactions of all tasks, which the
merge lock puts in a row, and by the recovery of every new run. A transaction
that fails goes back to where it began; a crash leaves whatever there is.

* `Effect.Keeps` — calls that take nothing back, and which stages make only these;
* `GrowsBy` — a worktree where agents and gates only add commits;
* `recoverIntegration_recovers` — what a new run finds, once it has recovered;
* `candidateLine` — transactions, crashes and recoveries, one after another;
* `integrated_stays` — what has been integrated stays.
-/

namespace OmarchyYolo

open Py PyJson Calls Lts

/-! ## Calls that take nothing back -/

/-- The call gives up no merge and no commit, begins no merge, and leaves the locks and the
tasks. -/
def Effect.Keeps : Effect → Prop
  | .git _ (.resetHard _) | .git _ .mergeAbort | .git _ .clean | .git _ (.merge _)
  | .acquire _ | .release _ | .updateTask _ _ => False
  | _ => True

section Keeps

variable {cfg : EngineConfig} {jobId : Text} {cwd : Str} {task : TaskRow} {α : Type}

theorem head_keeps : (head cwd).Makes Effect.Keeps := makes_perform trivial

theorem thread_keeps {p : Coroutine α} (h : p.Makes Effect.Keeps) :
    (finishBeforeCancel p).Makes Effect.Keeps := finishBeforeCancel_makes trivial h

theorem recordEvent_keeps {kind : String} {payload : List (Str × Json NonFinite)}
    {taskId : Option Text} : (recordEvent jobId kind payload taskId).Makes Effect.Keeps :=
  makes_perform trivial

theorem commitAll_keeps {message : Str} : (commitAll cwd message).Makes Effect.Keeps := by
  refine Program.Makes.bind (makes_perform trivial) fun _ => ?_
  refine Program.Makes.bind (makes_perform trivial) fun clean => makes_ite head_keeps ?_
  exact (makes_perform trivial).bind fun _ => (makes_perform trivial).bind fun _ => head_keeps

theorem unresolvedFiles_keeps : (unresolvedFiles cwd).Makes Effect.Keeps :=
  (makes_perform trivial).bind fun _ => makes_perform trivial

theorem mergeInProgress_keeps : (mergeInProgress cwd).Makes Effect.Keeps :=
  (makes_perform trivial).bind fun _ => makes_perform trivial

theorem finishMerge_keeps : (finishMerge cwd).Makes Effect.Keeps := by
  refine Program.Makes.bind (makes_perform trivial) fun _ => ?_
  refine unresolvedFiles_keeps.bind fun _ => makes_ite makes_raise ?_
  refine Program.Makes.bind (makes_perform trivial) fun _ => ?_
  refine mergeInProgress_keeps.bind fun _ => makes_ite (makes_perform trivial) ?_
  refine Program.Makes.bind (makes_perform trivial) fun _ => makes_ite makes_pure ?_
  exact commitAll_keeps.bind fun _ => makes_pure

theorem runGates_keeps {owner : Option TaskRow} {final : Bool} {suffix : Str} :
    (runGates cfg jobId owner cwd final suffix).Makes Effect.Keeps :=
  (makes_perform trivial).bind fun _ => (makes_perform trivial).bind fun _ => makes_pure

theorem repairWith_keeps {issue : Str} {taskId : Option Text} {cycle : Nat} {agentName : Str} :
    (repairWith cfg jobId cwd issue taskId cycle agentName).Makes Effect.Keeps := by
  refine Program.Makes.bind (makes_perform trivial) fun _ => ?_
  refine Program.Makes.bind (makes_perform trivial) fun _ => makes_ite ?_ makes_pure
  exact (thread_keeps commitAll_keeps).bind fun _ =>
    (makes_perform trivial).bind fun _ => makes_pure

theorem repairLoop_keeps {issue : Str} {taskId : Option Text} {candidates : List Str}
    {cycle : Nat} {actualSeen : List Str} :
    (repairLoop cfg jobId cwd issue taskId candidates cycle actualSeen).Makes Effect.Keeps := by
  have hrecord : ∀ {β : Type} (b : β) (x : Raised), (recordRepairError jobId taskId x >>= fun _ =>
      (pure b : Coroutine β)).Makes Effect.Keeps := fun b x =>
    (makes_perform trivial).bind fun _ => makes_pure
  induction candidates generalizing cycle actualSeen with
  | nil => exact makes_pure
  | cons candidate candidates ih =>
    refine makes_ite makes_pure (Program.Makes.bind (exceptWhen_makes ?_ (hrecord none))
      fun choice => ?_)
    · exact (makes_perform trivial).bind fun _ => makes_pure
    cases choice with
    | none => exact ih
    | some agentName =>
      exact makes_ite ih (Program.Makes.bind (exceptWhen_makes repairWith_keeps (hrecord false))
        fun _ => makes_ite makes_pure ih)

theorem repairIntegration_keeps {issue : Str} {taskId : Option Text} :
    (repairIntegration cfg jobId cwd issue taskId).Makes Effect.Keeps := repairLoop_keeps

theorem tryFinishMerge_keeps : (tryFinishMerge cwd).Makes Effect.Keeps :=
  exceptWhen_makes ((thread_keeps finishMerge_keeps).bind fun _ => makes_pure) fun _ => makes_pure

theorem tryFinishResolved_keeps {agentName : Str} :
    (tryFinishResolved jobId task cwd agentName).Makes Effect.Keeps := by
  refine exceptWhen_makes ?_ fun _ => makes_pure
  refine (thread_keeps finishMerge_keeps).bind fun _ => ?_
  refine (thread_keeps unresolvedFiles_keeps).bind fun _ => makes_ite ?_ makes_pure
  exact (makes_perform trivial).bind fun _ => makes_pure

theorem resolveLoop_keeps {originalError : Str} {cycles : List Nat} :
    (resolveLoop cfg jobId task cwd originalError cycles).Makes Effect.Keeps := by
  induction cycles with
  | nil => exact makes_pure
  | cons cycle cycles ih =>
    refine (thread_keeps unresolvedFiles_keeps).bind fun _ => ?_
    refine Program.Makes.join tryFinishMerge_keeps makes_pure fun _ => makes_ite makes_pure ?_
    refine Program.Makes.bind (makes_perform trivial) fun _ => ?_
    refine Program.Makes.bind (makes_perform trivial) fun _ => ?_
    refine Program.Makes.bind (makes_perform trivial) fun _ => ?_
    exact Program.Makes.join tryFinishResolved_keeps makes_pure fun _ => makes_ite makes_pure ih

end Keeps

/-! ## A worktree that only grows -/

section GrowsBy

variable {B : Type} (h : History (Files B)) (integrationPath : Str)

/-- How a call may change the integration worktree, where agents and gates add commits only, and
each command does its work or has not begun. A worktree that is added has its branch checked
out. -/
def GrowsBy : Handler Effect Effect.Reply Raised (Checkout B) := fun e c r c' =>
  match e, r with
  | .git cwd command, .ok reply =>
    if cwd = integrationPath then ∃ tips, command.Does h tips c reply c' else c' = c
  | .git cwd command, .error _ =>
    c' = c ∨ cwd = integrationPath ∧ command.writes = true ∧
      ∃ tips reply, command.Does h tips c reply c'
  | .runAgent _ _ _ _, _ | .runGates _ _ _, _ => h.isAncestor c.head c'.head = true
  | .topology _, _ => c'.head = c.head
  | _, _ => c' = c

/-- The commit is in the line of the worktree. -/
def Checkout.Holds (commit : Str) (c : Checkout B) : Prop := h.isAncestor commit c.head = true

variable {h integrationPath} {commit pre : Str} {c c' : Checkout B}

/-- A call that resets to nothing but `pre`. -/
def Effect.ResetsTo (pre : Str) : Effect → Prop
  | .git _ (.resetHard commit) => commit = pre
  | _ => True

theorem Effect.Keeps.resetsTo {e : Effect} (he : e.Keeps) : e.ResetsTo pre := by
  cases e with
  | git cwd command =>
    cases command with
    | resetHard commit => exact he.elim
    | _ => trivial
  | _ => trivial

theorem Checkout.Holds.does {tips : Str → Option Str} {cwd : Str} {command : GitCommand}
    {reply : command.Reply} (hholds : c.Holds h commit)
    (he : (Effect.git cwd command).ResetsTo pre) (hpre : h.isAncestor commit pre = true)
    (hdoes : command.Does h tips c reply c') : c'.Holds h commit := by
  by_cases hreset : ∃ target, command = .resetHard target
  · obtain ⟨target, rfl⟩ := hreset
    have htarget : target = pre := he
    have hhead : c'.head = target := hdoes.1
    rw [Checkout.Holds, hhead, htarget]
    exact hpre
  · exact History.isAncestor_trans hholds
      (hdoes.head_le fun target heq => hreset ⟨target, heq⟩)

/-- A call keeps what is in the line, if what it resets to has it. -/
theorem Checkout.Holds.step {e : Effect} {r : Except Raised e.Reply}
    (hholds : c.Holds h commit) (he : e.ResetsTo pre) (hpre : h.isAncestor commit pre = true)
    (hstep : GrowsBy h integrationPath e c r c') : c'.Holds h commit := by
  have hsame : c' = c → c'.Holds h commit := fun heq => heq ▸ hholds
  cases e with
  | git cwd command =>
    cases r with
    | ok reply =>
      simp only [GrowsBy] at hstep
      split_ifs at hstep
      · obtain ⟨tips, hdoes⟩ := hstep
        exact hholds.does he hpre hdoes
      · exact hsame hstep
    | error x =>
      rcases hstep with heq | ⟨-, -, tips, reply, hdoes⟩
      · exact hsame heq
      · exact hholds.does he hpre hdoes
  | runAgent name prompt cwd logPath => exact History.isAncestor_trans hholds hstep
  | runGates final cwd logPath => exact History.isAncestor_trans hholds hstep
  | topology command =>
    have hhead : c'.head = c.head := hstep
    rw [Checkout.Holds, hhead]
    exact hholds
  | _ => exact hsame hstep

/-- Before every call of the program, and at its end, the commit is in the line. -/
abbrev Holding (h : History (Files B)) (integrationPath commit : Str) {α : Type}
    (p : Coroutine α) (c : Checkout B) : Prop :=
  Ensures (GrowsBy h integrationPath) (fun _ c => c.Holds h commit) p
    (fun _ c => c.Holds h commit) c

theorem holding_of_resetsTo {α : Type} {p : Coroutine α} (hp : p.Makes (Effect.ResetsTo pre))
    (hpre : h.isAncestor commit pre = true) (hholds : c.Holds h commit) :
    Holding h integrationPath commit p c :=
  hp.keeps (fun _ _ _ hholds => hholds)
    (fun _ _ _ _ he hholds hstep => hholds.step he hpre hstep) hholds

end GrowsBy

/-! ## The transaction -/

section Transaction

variable {cfg : EngineConfig} {jobId : Text} {cwd pre : Str} {task : TaskRow} {α : Type}

theorem resetsTo_of_keeps {p : Coroutine α} (hp : p.Makes Effect.Keeps) :
    p.Makes (Effect.ResetsTo pre) := hp.mono fun _ => Effect.Keeps.resetsTo

theorem thread_resetsTo {p : Coroutine α} (hp : p.Makes (Effect.ResetsTo pre)) :
    (finishBeforeCancel p).Makes (Effect.ResetsTo pre) := finishBeforeCancel_makes trivial hp

theorem merge_resetsTo {branch : Str} : (merge cwd branch).Makes (Effect.ResetsTo pre) := by
  refine Program.Makes.bind (makes_perform trivial) fun _ => ?_
  refine Program.Makes.bind (makes_perform trivial) fun _ => ?_
  refine Program.Makes.bind (makes_perform trivial) fun stderr => ?_
  cases (stderr : Option Str) with
  | none => exact makes_pure
  | some stderr =>
    exact (resetsTo_of_keeps unresolvedFiles_keeps).bind fun _ => makes_ite makes_raise makes_raise

theorem mergeOrResolve_resetsTo :
    (mergeOrResolve cfg jobId task cwd).Makes (Effect.ResetsTo pre) := by
  refine (thread_resetsTo merge_resetsTo).attempt.bind fun outcome => ?_
  rcases outcome with (_ | message | _ | _ | _) | ⟨⟩
  · exact makes_raise
  · exact (makes_perform trivial).bind fun _ => resetsTo_of_keeps resolveLoop_keeps
  all_goals first | exact makes_raise | exact makes_pure

theorem abortMerge_resetsTo : (abortMerge cwd).Makes (Effect.ResetsTo pre) := by
  refine Program.Makes.bind (makes_perform trivial) fun _ => ?_
  exact (resetsTo_of_keeps mergeInProgress_keeps).bind fun _ =>
    makes_ite (makes_perform trivial) makes_pure

theorem resetHard_resetsTo : (resetHard cwd pre).Makes (Effect.ResetsTo pre) := by
  refine Program.Makes.bind (makes_perform trivial) fun _ => ?_
  refine Program.Makes.bind (makes_perform rfl) fun _ => ?_
  exact makes_perform trivial

theorem verifyIntegration_resetsTo :
    (verifyIntegration cfg jobId task cwd pre).Makes (Effect.ResetsTo pre) := by
  refine (resetsTo_of_keeps runGates_keeps).bind fun _ => makes_ite makes_pure ?_
  refine liftExn_makes.bind fun _ => (resetsTo_of_keeps repairIntegration_keeps).bind fun _ => ?_
  have hundo : ∀ issue : Str, (atomicToThread (resetHard cwd pre) >>= fun _ =>
      recordEvent jobId "integration.rolled_back" [(lit "task", .str task.logicalId.val)]
        task.id >>= fun _ => pure (false, issue)).Makes (Effect.ResetsTo pre) := fun issue =>
    (thread_resetsTo resetHard_resetsTo).bind fun _ =>
      (makes_perform trivial).bind fun _ => makes_pure
  refine makes_ite ((resetsTo_of_keeps runGates_keeps).bind fun _ => ?_) (hundo _)
  exact makes_pure.bind fun _ => makes_ite makes_pure (hundo _)

/-- From `pre_merge` on, nothing else is reset to. -/
theorem transaction_resetsTo :
    ((integrateBody cfg jobId task cwd pre).tryCatch fun x => do
      finishBeforeCancel (rollback cwd pre)
      .raise x).Makes (Effect.ResetsTo pre) := by
  refine Program.Makes.tryCatch ?_ fun x => ?_
  · refine mergeOrResolve_resetsTo.bind fun _ => makes_ite ?_ ?_
    · refine verifyIntegration_resetsTo.bind fun result => ?_
      rcases result with ⟨integrated, issue⟩
      refine makes_ite ?_ makes_pure
      exact (resetsTo_of_keeps (thread_keeps head_keeps)).bind fun _ =>
        (makes_perform trivial).bind fun _ => makes_pure
    · exact (thread_resetsTo abortMerge_resetsTo).bind fun _ => makes_pure
  · refine Program.Makes.bind (thread_resetsTo ?_) fun _ => makes_raise
    exact (exceptWhen_makes abortMerge_resetsTo fun _ => makes_pure).bind fun _ =>
      resetHard_resetsTo

variable {B : Type} {h : History (Files B)} {integrationPath commit : Str} {c : Checkout B}

theorem withLock_holding {lock : Lock} {p : Coroutine α} (hholds : c.Holds h commit)
    (hp : ∀ c : Checkout B, c.Holds h commit → Holding h integrationPath commit p c) :
    Holding h integrationPath commit (withLock lock p) c := by
  have hlock : ∀ (e : Effect) (c : Checkout B), (e = .acquire lock ∨ e = .release lock) →
      c.Holds h commit → Holding h integrationPath commit (perform e) c := by
    rintro e c (rfl | rfl) hholds
    · exact ensures_perform.mpr ⟨hholds, fun r c' hstep => (show c' = c from hstep) ▸ hholds⟩
    · exact ensures_perform.mpr ⟨hholds, fun r c' hstep => (show c' = c from hstep) ▸ hholds⟩
  refine (hlock _ c (Or.inl rfl) hholds).bind (fun _ c₁ hholds => ?_) fun _ _ hholds => hholds
  refine ensures_attempt_bind.mpr ((hp c₁ hholds).imp fun r c₂ hholds => ?_)
  exact (hlock _ c₂ (Or.inr rfl) hholds).bind (fun _ c₃ hholds => ensures_ofExcept.mpr hholds)
    fun _ _ hholds => hholds

/-- What is read of `HEAD` has all that is in the line. -/
theorem readHead_holding (hholds : c.Holds h commit) :
    Ensures (GrowsBy h integrationPath) (fun _ c => c.Holds h commit)
      (toThread (head integrationPath))
      (fun r c' => c'.Holds h commit ∧
        Returned (fun pre _ => h.isAncestor commit pre = true) r c') c := by
  refine ensures_attempt_bind.mpr (ensures_perform.mpr ⟨hholds, fun r c₁ hstep => ?_⟩)
  have hread : c₁ = c ∧ Returned (fun pre _ => h.isAncestor commit pre = true) r c₁ := by
    cases r with
    | ok pre =>
      simp only [GrowsBy, if_pos] at hstep
      obtain ⟨tips, hreply, hsame⟩ := hstep
      exact ⟨hsame, hreply ▸ hholds⟩
    | error x =>
      rcases hstep with hsame | ⟨-, hwrites, -⟩
      · exact ⟨hsame, trivial⟩
      · cases hwrites
  rcases hread with ⟨rfl, hpre⟩
  have hsuspend : Ensures (GrowsBy h integrationPath) (fun _ c => c.Holds h commit) suspend
      (fun _ c' => c' = c₁) c₁ := ensures_perform.mpr ⟨hholds, fun r c' hstep => hstep⟩
  refine hsuspend.bind (fun _ c₂ hsame => ?_) fun x c₂ hsame => ?_
  · rw [hsame]
    exact ensures_ofExcept.mpr ⟨hholds, hpre⟩
  · rw [hsame]
    exact ⟨hholds, trivial⟩

/-- A transaction keeps what is in the line: what it goes back to has been read with it. -/
theorem integrateTask_holding (hholds : c.Holds h commit) :
    Holding h integrationPath commit (integrateTask cfg jobId task integrationPath) c := by
  refine withLock_holding hholds fun c₁ hholds => withLock_holding hholds fun c₂ hholds => ?_
  have hmarked : Holding h integrationPath commit (perform (.updateTask task.id
      { state := some (lit TaskState.integrating.value) })) c₂ :=
    ensures_perform.mpr ⟨hholds, fun r c' hstep => (show c' = c₂ from hstep) ▸ hholds⟩
  refine hmarked.bind (fun _ c₃ hholds => ?_) fun _ _ hholds => hholds
  refine (readHead_holding hholds).bind (fun pre c₄ hread => ?_) fun _ _ hread => hread.1
  exact holding_of_resetsTo transaction_resetsTo hread.2 hread.1

end Transaction

/-! ## The recovery -/

section Recovery

variable {B : Type} {h : History (Files B)} {integrationPath start branch ref : Str}
  {c c' : Checkout B} {jobId : Text} {job : JobRow} {α β : Type}

/-- A call that leaves `HEAD` where it is. -/
def Effect.Stays : Effect → Prop
  | .git _ (.commit _) | .git _ (.merge _) | .git _ (.resetHard _)
  | .runAgent _ _ _ _ | .runGates _ _ _ => False
  | _ => True

theorem Effect.Stays.head {e : Effect} (he : e.Stays) {r : Except Raised e.Reply}
    (hstep : GrowsBy h integrationPath e c r c') : c'.head = c.head := by
  -- a command that stays does not move the head
  have hdone : ∀ {tips : Str → Option Str} {cwd : Str} {command : GitCommand}
      {reply : command.Reply}, (Effect.git cwd command).Stays →
      command.Does h tips c reply c' → c'.head = c.head := by
    intro tips cwd command reply he hdoes
    cases command with
    | assertWorktree expected => exact congrArg Checkout.head hdoes
    | head => exact congrArg Checkout.head hdoes.2
    | isClean => exact congrArg Checkout.head hdoes.2
    | unresolved => exact congrArg Checkout.head hdoes.2
    | mergeHeadExists => exact congrArg Checkout.head hdoes.2
    | diff base => exact congrArg Checkout.head hdoes
    | addAll => rw [show c' = { c with index := c.files, unmerged := [] } from hdoes]
    | mergeAbort => exact hdoes.2.1
    | clean => exact hdoes.1
    | _ => exact he.elim
  -- by the effect: a command in the candidate or elsewhere, and those that only read
  cases e with
  | git cwd command =>
    cases r with
    | ok reply =>
      simp only [GrowsBy] at hstep
      split_ifs at hstep
      · obtain ⟨tips, hdoes⟩ := hstep
        exact hdone he hdoes
      · exact congrArg Checkout.head hstep
    -- a command that raised may have been carried out
    | error x =>
      rcases hstep with heq | ⟨-, -, tips, reply, hdoes⟩
      · exact congrArg Checkout.head heq
      · exact hdone he hdoes
  | topology command => exact hstep
  | runAgent name prompt cwd logPath => exact he.elim
  | runGates final cwd logPath => exact he.elim
  | _ => exact congrArg Checkout.head hstep

/-- During all of the program, `HEAD` is at the commit. -/
abbrev Staying (h : History (Files B)) (integrationPath start : Str) (p : Coroutine α)
    (Post : α → Checkout B → Prop) (c : Checkout B) : Prop :=
  Ensures (GrowsBy h integrationPath) (fun _ c => c.head = start) p
    (fun r c' => c'.head = start ∧ Returned Post r c') c

theorem staying_of_stays {p : Coroutine α} (hp : p.Makes Effect.Stays) (hhead : c.head = start) :
    Staying h integrationPath start p (fun _ _ => True) c := by
  have hkept : Ensures (GrowsBy h integrationPath) (fun _ c => c.head = start) p
      (fun _ c' => c'.head = start) c :=
    hp.keeps (fun _ _ _ hhead => hhead)
      (fun _ _ _ _ he hhead hstep => (he.head hstep).trans hhead) hhead
  refine hkept.imp fun r c' hhead => ⟨hhead, ?_⟩
  cases r with
  | ok a => trivial
  | error x => trivial

theorem Staying.andThen {p : Coroutine α} {f : α → Coroutine β} {Mid : α → Checkout B → Prop}
    {Post : β → Checkout B → Prop} (hp : Staying h integrationPath start p Mid c)
    (hf : ∀ a c, c.head = start → Mid a c → Staying h integrationPath start (f a) Post c) :
    Staying h integrationPath start (p >>= f) Post c :=
  hp.bind (fun a c hmid => hf a c hmid.1 hmid.2) fun _ _ hmid => ⟨hmid.1, trivial⟩

/-- A command in the integration worktree that does its work, if it returns. -/
theorem gitCommand_staying {command : GitCommand} {Post : command.Reply → Checkout B → Prop}
    (hhead : c.head = start)
    (hline : ∀ tips reply c', command.Does h tips c reply c' → c'.head = start)
    (hok : ∀ tips reply c', command.Does h tips c reply c' → Post reply c') :
    Staying h integrationPath start (gitCommand integrationPath command) Post c := by
  refine ensures_perform.mpr ⟨hhead, fun r c' hstep => ?_⟩
  cases r with
  | ok reply =>
    simp only [GrowsBy, if_pos] at hstep
    obtain ⟨tips, hdoes⟩ := hstep
    exact ⟨hline tips reply c' hdoes, hok tips reply c' hdoes⟩
  | error x =>
    rcases hstep with rfl | ⟨-, -, tips, reply, hdoes⟩
    · exact ⟨hhead, trivial⟩
    · exact ⟨hline tips reply c' hdoes, trivial⟩

/-- A call that changes nothing of the worktree. -/
theorem quiet_staying {e : Effect} (hhead : c.head = start)
    (hsame : ∀ r c', GrowsBy h integrationPath e c r c' → c' = c) :
    Ensures (GrowsBy h integrationPath) (fun _ c => c.head = start) (perform e)
      (fun _ c' => c' = c) c :=
  ensures_perform.mpr ⟨hhead, fun r c' hstep => hsame r c' hstep⟩

/-- `finish_before_cancel`: a cancellation changes nothing. -/
theorem finishBeforeCancel_staying {p : Coroutine α} {Post : α → Checkout B → Prop}
    (hp : Staying h integrationPath start p Post c) :
    Staying h integrationPath start (finishBeforeCancel p) Post c := by
  refine ensures_attempt_bind.mpr (hp.imp fun r c₁ hmid => ?_)
  refine Ensures.bind (quiet_staying hmid.1 fun _ _ hstep => hstep) (fun _ c₂ hsame => ?_)
    fun x c₂ hsame => ?_
  · rw [hsame]
    exact ensures_ofExcept.mpr hmid
  · rw [hsame]
    exact ⟨hmid.1, trivial⟩

theorem withLock_staying {lock : Lock} {p : Coroutine α} {Post : α → Checkout B → Prop}
    (hhead : c.head = start)
    (hp : ∀ c : Checkout B, c.head = start → Staying h integrationPath start p Post c) :
    Staying h integrationPath start (withLock lock p) Post c := by
  refine Ensures.bind (quiet_staying hhead fun _ _ hstep => hstep) (fun _ c₁ hsame => ?_)
    fun x c₁ hsame => ?_
  · rw [hsame]
    refine ensures_attempt_bind.mpr ((hp c hhead).imp fun r c₂ hmid => ?_)
    refine Ensures.bind (quiet_staying hmid.1 fun _ _ hstep => hstep) (fun _ c₃ hsame => ?_)
      fun x c₃ hsame => ?_
    · rw [hsame]
      exact ensures_ofExcept.mpr hmid
    · rw [hsame]
      exact ⟨hmid.1, trivial⟩
  · rw [hsame]
    exact ⟨hhead, trivial⟩

theorem assertWorktree_staying {expected : Option Str} (hhead : c.head = start) :
    Staying h integrationPath start (gitCommand integrationPath (.assertWorktree expected))
      (fun _ c' => c' = c) c :=
  gitCommand_staying hhead (fun _ _ _ hdoes => (congrArg Checkout.head hdoes).trans hhead)
    fun _ _ _ hdoes => hdoes

theorem mergeInProgress_staying (hhead : c.head = start) :
    Staying h integrationPath start (mergeInProgress integrationPath)
      (fun merging c' => c' = c ∧ merging = c.merging.isSome) c := by
  refine (assertWorktree_staying hhead).andThen fun _ c₁ _ hsame => ?_
  rw [hsame]
  exact gitCommand_staying hhead (fun _ _ _ hdoes => (congrArg Checkout.head hdoes.2).trans hhead)
    fun _ _ _ hdoes => ⟨hdoes.2, hdoes.1⟩

theorem merging_eq_none {merging : Option Str} (h : ¬ merging.isSome = true) : merging = none := by
  rw [Bool.not_eq_true, Option.isSome_eq_false_iff] at h
  exact Option.isNone_iff_eq_none.mp h

theorem abortMerge_staying (hhead : c.head = start) :
    Staying h integrationPath start (abortMerge integrationPath)
      (fun _ c' => c'.merging = none) c := by
  refine (assertWorktree_staying hhead).andThen fun _ c₁ hhead _ => ?_
  refine (mergeInProgress_staying hhead).andThen fun merging c₂ hhead hlooked => ?_
  rcases hlooked with ⟨rfl, rfl⟩
  refine Ensures.ite (fun _ => ?_) fun hnone => ⟨hhead, merging_eq_none hnone⟩
  exact gitCommand_staying hhead (fun _ _ _ hdoes => hdoes.2.1.trans hhead)
    fun _ _ _ hdoes => hdoes.2.2.1

/-- A merge that a crash has left is given up. -/
theorem recoverMerge_staying (hhead : c.head = start) :
    Staying h integrationPath start (recoverMerge jobId integrationPath)
      (fun _ c' => c'.merging = none) c := by
  refine (finishBeforeCancel_staying (mergeInProgress_staying hhead)).andThen
    fun merging c₁ hhead hlooked => ?_
  rcases hlooked with ⟨rfl, rfl⟩
  refine Ensures.ite (fun _ => ?_) fun hnone => ⟨hhead, merging_eq_none hnone⟩
  refine (finishBeforeCancel_staying (abortMerge_staying hhead)).andThen fun _ c₂ hhead hover => ?_
  refine Ensures.imp (quiet_staying hhead fun _ _ hstep => hstep) fun r c₃ hsame => ?_
  rw [hsame]
  refine ⟨hhead, ?_⟩
  cases r with
  | ok u => exact hover
  | error x => trivial

/-- What a crash has left uncommitted is dropped. -/
theorem recoverDirty_staying (hhead : c.head = start) (hover : c.merging = none) :
    Staying h integrationPath start (recoverDirty jobId integrationPath)
      (fun _ c' => c'.Restored h start) c := by
  -- the status and the head are read first
  have hstatus : Staying h integrationPath start (isClean integrationPath)
      (fun clean c' => c' = c ∧ (clean = true ↔ c.Clean h)) c :=
    gitCommand_staying hhead (fun _ _ _ hdoes => (congrArg Checkout.head hdoes.2).trans hhead)
      fun _ _ _ hdoes => ⟨hdoes.2, hdoes.1⟩
  refine (finishBeforeCancel_staying hstatus).andThen fun clean c₁ hhead hread => ?_
  rcases hread with ⟨rfl, hclean⟩
  -- clean already: nothing is done
  refine Ensures.ite (fun heq => ⟨hhead, hhead, hover, hclean.mp heq⟩) fun _ => ?_
  have hcommit : Staying h integrationPath start (head integrationPath)
      (fun commit c' => commit = start) c₁ :=
    gitCommand_staying hhead (fun _ _ _ hdoes => (congrArg Checkout.head hdoes.2).trans hhead)
      fun _ _ _ hdoes => hdoes.1.trans hhead
  refine (finishBeforeCancel_staying hcommit).andThen fun commit c₂ hhead hread => ?_
  obtain rfl := hread
  -- dirty: the reset goes back to the head, and what is not tracked is cleaned
  have hreset : Staying h integrationPath commit (resetHard integrationPath commit)
      (fun _ c' => c'.Restored h commit) c₂ := by
    refine (assertWorktree_staying hhead).andThen fun _ c₃ hhead _ => ?_
    have hback : Staying h integrationPath commit (gitCommand integrationPath (.resetHard commit))
        (fun _ c' => c₃.ResetTo h commit c') c₃ :=
      gitCommand_staying hhead (fun _ _ _ hdoes => hdoes.1) fun _ _ _ hdoes => hdoes
    refine hback.andThen fun _ c₄ hhead hreset => ?_
    exact gitCommand_staying hhead (fun _ _ _ hdoes => hdoes.1.trans hhead)
      fun _ _ _ hdoes => Checkout.restored_of_reset hreset hdoes
  refine (finishBeforeCancel_staying hreset).andThen fun _ c₃ hhead hrestored => ?_
  -- the event leaves the checkout
  refine Ensures.imp (quiet_staying hhead fun _ _ hstep => hstep) fun r c₄ hsame => ?_
  rw [hsame]
  refine ⟨hhead, ?_⟩
  cases r with
  | ok u => exact hrestored
  | error x => trivial

theorem ensureExistingBranchWorktree_stays :
    (ensureExistingBranchWorktree integrationPath branch ref).Makes Effect.Stays := by
  have htopology : ∀ command : TopologyCommand,
      (topologyCommand command).Makes Effect.Stays := fun command => makes_perform trivial
  have hadd : (topologyCommand (.addWorktree integrationPath branch) >>= fun _ =>
      gitCommand integrationPath (.assertWorktree (some branch))).Makes Effect.Stays :=
    (htopology _).bind fun _ => makes_perform trivial
  have hpath : (pathExists integrationPath).Makes Effect.Stays := htopology _
  have hsymlink : (isSymlink integrationPath).Makes Effect.Stays := htopology _
  have hfile : (gitFileExists integrationPath).Makes Effect.Stays := htopology _
  refine (htopology _).bind fun _ => (htopology _).bind fun _ => hpath.bind fun _ => ?_
  refine makes_ite (hsymlink.bind fun _ => makes_ite makes_raise ?_) ?_
  · exact hfile.bind fun _ => makes_ite (makes_perform trivial) makes_raise
  · have hexists : (branchExists branch).Makes Effect.Stays :=
      (htopology _).bind fun _ => htopology _
    refine (htopology _).bind fun _ => hexists.bind fun _ => ?_
    exact makes_ite hadd ((htopology _).bind fun _ => hadd)

end Recovery

/-- Whatever a crash has left in the integration worktree, and whichever command fails, the
recovery leaves `HEAD` where it is; where it returns, the worktree is clean at that commit and no
merge is in progress. What had been merged and not yet been judged stays. -/
theorem recoverIntegration_recovers {B : Type} (h : History (Files B)) (integrationPath : Str)
    (jobId : Text) (job : JobRow) (c : Checkout B) :
    Ensures (GrowsBy h integrationPath) (fun _ c' => c'.head = c.head)
      (recoverIntegration jobId job integrationPath)
      (fun r c' => c'.head = c.head ∧ Returned (fun _ c' => c'.Restored h c.head) r c') c := by
  refine withLock_staying rfl fun c₁ hhead => ?_
  refine (finishBeforeCancel_staying
    (staying_of_stays ensureExistingBranchWorktree_stays hhead)).andThen fun _ c₂ hhead _ => ?_
  refine (recoverMerge_staying hhead).andThen fun _ c₃ hhead hover => ?_
  exact recoverDirty_staying hhead hover

/-! ## The line -/

/-- What is being done in the integration worktree. -/
inductive LineWork where
  | idle
  | integrating (p : Coroutine (Bool × Str))
  | recovering (p : Coroutine Unit)
  /-- The process has ended. -/
  | down

/-- The integration worktree, with the commits at which transactions have integrated a task. -/
structure Line (B : Type) where
  checkout : Checkout B
  work : LineWork := .down
  integrated : List Str := []

section Line

variable {B : Type} (h : History (Files B)) (integrationPath : Str)

/-- One step in the integration worktree. The merge lock lets one transaction begin after the
other. -/
inductive LineStep : Line B → Line B → Prop
  | integrate (s : Line B) (cfg : EngineConfig) (jobId : Text) (task : TaskRow)
      (idle : s.work = .idle) :
      LineStep s { s with work := .integrating (integrateTask cfg jobId task integrationPath) }
  | call (s : Line B) (e : Effect) (next : Except Raised e.Reply → Coroutine (Bool × Str))
      (r : Except Raised e.Reply) (c : Checkout B) (work : s.work = .integrating (.call e next))
      (answer : GrowsBy h integrationPath e s.checkout r c) :
      LineStep s { s with checkout := c, work := .integrating (next r) }
  | integrated (s : Line B) (feedback : Str)
      (work : s.work = .integrating (.ret (true, feedback))) :
      LineStep s { s with work := .idle, integrated := s.checkout.head :: s.integrated }
  | refused (s : Line B) (feedback : Str) (work : s.work = .integrating (.ret (false, feedback))) :
      LineStep s { s with work := .idle }
  | raised (s : Line B) (x : Raised) (work : s.work = .integrating (.raise x)) :
      LineStep s { s with work := .idle }
  /-- Gates, reviewers and repairs of the finalization. -/
  | finalize (s : Line B) (c : Checkout B) (idle : s.work = .idle)
      (grown : h.isAncestor s.checkout.head c.head = true) :
      LineStep s { s with checkout := c }
  | crash (s : Line B) : LineStep s { s with work := .down }
  /-- A new run, after the one before has ended. -/
  | restart (s : Line B) (jobId : Text) (job : JobRow) (ended : s.work = .idle ∨ s.work = .down) :
      LineStep s { s with work := .recovering (recoverIntegration jobId job integrationPath) }
  | recoveryCall (s : Line B) (e : Effect) (next : Except Raised e.Reply → Coroutine Unit)
      (r : Except Raised e.Reply) (c : Checkout B) (work : s.work = .recovering (.call e next))
      (answer : GrowsBy h integrationPath e s.checkout r c) :
      LineStep s { s with checkout := c, work := .recovering (next r) }
  | recovered (s : Line B) (work : s.work = .recovering (.ret ())) :
      LineStep s { s with work := .idle }
  | unrecovered (s : Line B) (x : Raised) (work : s.work = .recovering (.raise x)) :
      LineStep s { s with work := .down }

/-- The runs of a job in its integration worktree. -/
def candidateLine : System (Line B) Unit where
  init s := s.work = .down ∧ s.integrated = []
  step s _ s' := LineStep h integrationPath s s'

/-- What is being done keeps the commit in the line. -/
def LineWork.Holding (commit : Str) (c : Checkout B) : LineWork → Prop
  | .integrating p => OmarchyYolo.Holding h integrationPath commit p c
  | .recovering p => OmarchyYolo.Holding h integrationPath commit p c
  | .idle | .down => True

/-- A commit at which a task has been integrated is in the line. -/
def Line.Kept (s : Line B) : Prop :=
  ∀ commit ∈ s.integrated, s.checkout.Holds h commit ∧
    s.work.Holding h integrationPath commit s.checkout

variable {h integrationPath} {s s' : Line B}

theorem holds_now {α : Type} {p : Coroutine α} {commit : Str} {c : Checkout B}
    (hp : Holding h integrationPath commit p c) : c.Holds h commit :=
  hp.now (fun _ _ hholds => hholds) fun _ _ hholds => hholds

theorem recoverIntegration_holding {commit : Str} {c : Checkout B} {jobId : Text} {job : JobRow}
    (hholds : c.Holds h commit) :
    Holding h integrationPath commit (recoverIntegration jobId job integrationPath) c := by
  have hsame : ∀ c' : Checkout B, c'.head = c.head → c'.Holds h commit := by
    intro c' hhead
    rw [Checkout.Holds, hhead]
    exact hholds
  exact (recoverIntegration_recovers h integrationPath jobId job c).mono
    (fun _ c' hhead => hsame c' hhead) fun _ c' hend => hsame c' hend.1

theorem LineStep.kept (hkept : s.Kept h integrationPath) (hstep : LineStep h integrationPath s s') :
    s'.Kept h integrationPath := by
  -- by the step: the commits that were accepted stay below the head
  cases hstep with
  | integrate cfg jobId task idle =>
    exact fun commit hcommit => ⟨(hkept commit hcommit).1,
      integrateTask_holding (hkept commit hcommit).1⟩
  | call e next r c work answer =>
    intro commit hcommit
    have hwork := (hkept commit hcommit).2
    rw [work] at hwork
    have hnext := hwork.2 r c answer
    exact ⟨holds_now hnext, hnext⟩
  -- a task is integrated: its commit is the head
  | integrated feedback work =>
    intro commit hcommit
    rcases List.mem_cons.mp hcommit with rfl | hbefore
    · exact ⟨History.isAncestor_refl _, trivial⟩
    · exact ⟨(hkept commit hbefore).1, trivial⟩
  | refused feedback work => exact fun commit hcommit => ⟨(hkept commit hcommit).1, trivial⟩
  | raised x work => exact fun commit hcommit => ⟨(hkept commit hcommit).1, trivial⟩
  -- what the finalization adds grows from the head
  | finalize c idle grown =>
    intro commit hcommit
    refine ⟨History.isAncestor_trans (hkept commit hcommit).1 grown, ?_⟩
    show s.work.Holding h integrationPath commit c
    rw [idle]
    trivial
  | crash => exact fun commit hcommit => ⟨(hkept commit hcommit).1, trivial⟩
  | restart jobId job ended =>
    exact fun commit hcommit => ⟨(hkept commit hcommit).1,
      recoverIntegration_holding (hkept commit hcommit).1⟩
  -- what the recovery calls keeps them as `recoverIntegration_holding` says
  | recoveryCall e next r c work answer =>
    intro commit hcommit
    have hwork := (hkept commit hcommit).2
    rw [work] at hwork
    have hnext := hwork.2 r c answer
    exact ⟨holds_now hnext, hnext⟩
  | recovered work => exact fun commit hcommit => ⟨(hkept commit hcommit).1, trivial⟩
  | unrecovered x work => exact fun commit hcommit => ⟨(hkept commit hcommit).1, trivial⟩

/-- Where agents and gates only add commits, the commit at which a task has been integrated stays
in the line of the integration worktree: whatever other transactions go back to, wherever a crash
cuts one short, and whatever a new run recovers from. -/
theorem integrated_stays (hs : (candidateLine h integrationPath).Reachable s) :
    ∀ commit ∈ s.integrated, h.isAncestor commit s.checkout.head = true := by
  have hkept : s.Kept h integrationPath := by
    refine hs.invariant (fun s hinit => ?_) fun s _ s' _ hkept hstep => ?_
    · intro commit hcommit
      rw [hinit.2] at hcommit
      exact absurd hcommit List.not_mem_nil
    · exact LineStep.kept hkept hstep
  exact fun commit hcommit => (hkept commit hcommit).1

/-- A program whose calls are answered so, in the worktrees that it comes to. -/
theorem line_runs {α : Type} {work : Coroutine α → LineWork}
    (hcall : ∀ (s : Line B) (e : Effect) (next : Except Raised e.Reply → Coroutine α)
      (r : Except Raised e.Reply) (c : Checkout B), s.work = work (.call e next) →
      GrowsBy h integrationPath e s.checkout r c →
        LineStep h integrationPath s { s with checkout := c, work := work (next r) })
    {answer : (e : Effect) → Checkout B → Except Raised e.Reply × Checkout B}
    {Met : Checkout B → Prop}
    (hanswer : ∀ e c, Met c →
      GrowsBy h integrationPath e c (answer e c).1 (answer e c).2 ∧ Met (answer e c).2)
    {p : Coroutine α} {c : Checkout B} (integrated : List Str) (hmet : Met c) :
    (candidateLine h integrationPath).Steps ⟨c, work p, integrated⟩
      ⟨(run answer p c).2, work (.ofExcept (run answer p c).1), integrated⟩ := by
  induction p generalizing c with
  | ret a => exact .refl
  | raise x => exact .refl
  | call e next ih =>
    have hstep := hanswer e c hmet
    exact .head ⟨(), hcall ⟨c, work (.call e next), integrated⟩ e next _ _ rfl hstep.1⟩
      (ih (answer e c).1 hstep.2)

end Line

/-! ## A task, and a crash after it -/

/-- The commits by their parents. -/
noncomputable def History.ofParents {T : Type} (parents : Str → List Str) (tree : Str → T)
    (empty : T) : History T where
  parents := parents
  tree := tree
  empty := empty
  isAncestor a b :=
    @decide (Relation.ReflTransGen (fun x y => x ∈ parents y) a b) (Classical.propDecidable _)
  isAncestor_iff _ _ := @decide_eq_true_iff _ (Classical.propDecidable _)

/-- A file, and what the merge makes of it. -/
def mergedTree (commit : Str) : Files Nat := fun path =>
  if path = lit "f" then (if commit = lit "m" then some 2 else some 1) else none

/-- A base, the commit of a task, and their merge. -/
noncomputable def mergedHistory : History (Files Nat) :=
  .ofParents (fun commit =>
    if commit = lit "m" then [lit "a", lit "b"] else if commit = lit "b" then [lit "a"] else [])
    mergedTree fun _ => none

/-- A clean worktree at the commit. -/
def checkoutAt (commit : Str) : Checkout Nat where
  head := commit
  merging := none
  index := mergedTree commit
  unmerged := []
  files := mergedTree commit

/-- The worktree is there and clean, the task merges without a conflict, and its gates pass. -/
def mergingAnswer : (e : Effect) → Checkout Nat → Except Raised e.Reply × Checkout Nat
  | .git _ .head, c => (.ok c.head, c)
  | .git _ (.assertWorktree _), c => (.ok (), c)
  | .git _ .mergeHeadExists, c => (.ok false, c)
  | .git _ .isClean, c => (.ok true, c)
  | .git cwd (.merge _), c =>
    if cwd = lit "/candidate" ∧ c.head = lit "a" then (.ok none, checkoutAt (lit "m"))
    else (.error (.gitError []), c)
  | .topology (.pathExists _), c => (.ok true, c)
  | .topology (.isSymlink _), c => (.ok false, c)
  | .topology (.gitFileExists _), c => (.ok true, c)
  | .topology (.validateBranchName _), c => (.ok (), c)
  | .topology (.ensureParent _), c => (.ok (), c)
  | .runGates _ _ _, c => (.ok [], c)
  | .updateTask _ _, c => (.ok (), c)
  | .event _ _ _ _, c => (.ok (), c)
  | .acquire _, c => (.ok (), c)
  | .release _, c => (.ok (), c)
  | .suspend, c => (.ok (), c)
  | _, c => (.error (.error []), c)

/-- The two worktrees that the run comes to. -/
def MeetsMerge (c : Checkout Nat) : Prop := c = checkoutAt (lit "a") ∨ c = checkoutAt (lit "m")

theorem mergingAnswer_growsBy (e : Effect) (c : Checkout Nat) (hmet : MeetsMerge c) :
    GrowsBy mergedHistory (lit "/candidate") e c (mergingAnswer e c).1 (mergingAnswer e c).2 ∧
      MeetsMerge (mergingAnswer e c).2 := by
  -- in both states the checkout is clean, with no merge in progress
  have hclean : c.Clean mergedHistory ∧ c.merging = none := by
    rcases hmet with rfl | rfl
    · exact ⟨⟨rfl, rfl, rfl⟩, rfl⟩
    · exact ⟨⟨rfl, rfl, rfl⟩, rfl⟩
  -- a command that only reads is answered as the checkout is
  have hread : ∀ {cwd : Str} {command : GitCommand} {reply : command.Reply},
      command.Does mergedHistory (fun _ => some (lit "b")) c reply c →
        GrowsBy mergedHistory (lit "/candidate") (.git cwd command) c (.ok reply) c := by
    intro cwd command reply hdoes
    show if cwd = lit "/candidate" then _ else c = c
    split_ifs
    · exact ⟨_, hdoes⟩
    · rfl
  -- by the effect: reads, the one merge, and everything else
  cases e with
  | git cwd command =>
    cases command with
    | head => exact ⟨hread ⟨rfl, rfl⟩, hmet⟩
    | assertWorktree expected => exact ⟨hread rfl, hmet⟩
    | mergeHeadExists => exact ⟨hread ⟨by rw [hclean.2]; rfl, rfl⟩, hmet⟩
    | isClean => exact ⟨hread ⟨iff_of_true rfl hclean.1, rfl⟩, hmet⟩
    | merge branch =>
      -- the merge of the task's branch, once
      by_cases hmerge : cwd = lit "/candidate" ∧ c.head = lit "a"
      · have hstart : c = checkoutAt (lit "a") := by
          refine hmet.resolve_right ?_
          rintro rfl
          exact absurd hmerge.2 (by decide)
        obtain ⟨rfl, -⟩ := hmerge
        rw [hstart]
        refine ⟨⟨fun _ => some (lit "b"), lit "b", rfl,
          Or.inr ⟨rfl, rfl, rfl, lit "m", rfl, rfl, rfl,
          rfl, rfl, fun path => ?_⟩⟩, Or.inr rfl⟩
        exact ⟨fun heq => heq, fun _ => rfl⟩
      -- any other merge raises
      · rw [show mergingAnswer (.git cwd (.merge branch)) c = (.error (.gitError []), c) from
          if_neg hmerge]
        exact ⟨Or.inl rfl, hmet⟩
    | _ => exact ⟨Or.inl rfl, hmet⟩
  | topology command => cases command <;> exact ⟨rfl, hmet⟩
  | runGates final cwd logPath => exact ⟨History.isAncestor_refl _, hmet⟩
  | runAgent name prompt cwd logPath => exact ⟨History.isAncestor_refl _, hmet⟩
  | _ => exact ⟨rfl, hmet⟩

def lineJob : JobRow where
  id := Text.lit "job-1"
  repo := Text.lit "/repo"
  goal := Text.lit "Build"
  state := .queued
  baseBranch := Text.lit "main"
  baseCommit := Text.lit "a"
  integrationBranch := Text.lit "yolo/job-1/integration"
  createdAt := 0
  updatedAt := 0

def lineTask : TaskRow where
  id := Text.lit "task-1"
  jobId := Text.lit "job-1"
  seq := 1
  logicalId := Text.lit "build"
  title := Text.lit "Build"
  description := Text.lit ""
  state := .reviewing
  branch := Text.lit "yolo/job-1/build"
  createdAt := 0
  updatedAt := 0

theorem run_recoverIntegration_merging :
    run mergingAnswer (recoverIntegration lineJob.id lineJob (lit "/candidate"))
      (checkoutAt (lit "a")) = (.ok (), checkoutAt (lit "a")) := rfl

theorem run_integrateTask_merging :
    run mergingAnswer (integrateTask smallEngine lineJob.id lineTask (lit "/candidate"))
      (checkoutAt (lit "a")) = (.ok (true, []), checkoutAt (lit "m")) := rfl

/-- The merge is in the line after a crash. -/
theorem integrated_stays_crashed :
    ∃ s : Line Nat, (candidateLine mergedHistory (lit "/candidate")).Reachable s ∧
      s.work = .down ∧ s.integrated = [lit "m"] ∧
      mergedHistory.isAncestor (lit "m") s.checkout.head = true := by
  have hrecovering := @line_runs _ mergedHistory _ _ LineWork.recovering
    (fun s e next r c hwork hanswer => .recoveryCall s e next r c hwork hanswer) _ _
    mergingAnswer_growsBy (recoverIntegration lineJob.id lineJob (lit "/candidate")) _ []
    (Or.inl rfl)
  have hintegrating := @line_runs _ mergedHistory _ _ LineWork.integrating
    (fun s e next r c hwork hanswer => .call s e next r c hwork hanswer) _ _
    mergingAnswer_growsBy
    (integrateTask smallEngine lineJob.id lineTask (lit "/candidate")) _ [] (Or.inl rfl)
  rw [run_recoverIntegration_merging] at hrecovering
  rw [run_integrateTask_merging] at hintegrating
  have hinit : (candidateLine mergedHistory (lit "/candidate")).Reachable
      ⟨checkoutAt (lit "a"), .down, []⟩ := System.reachable_init ⟨rfl, rfl⟩
  have hrestarted := hinit.step (l := ()) (.restart _ lineJob.id lineJob (Or.inr rfl))
  have hrecovered := (hrestarted.steps hrecovering).step (l := ()) (.recovered _ rfl)
  have hbegun := hrecovered.step (l := ())
    (.integrate _ smallEngine lineJob.id lineTask rfl)
  have hintegrated := (hbegun.steps hintegrating).step (l := ()) (.integrated _ [] rfl)
  have hcrashed := hintegrated.step (l := ()) (.crash _)
  exact ⟨_, hcrashed, rfl, rfl, integrated_stays hcrashed _ List.mem_cons_self⟩

end OmarchyYolo
