import OmarchyYolo.AttemptNumbers
import OmarchyYolo.CandidateLine
import OmarchyYolo.TaskEvidence

/-!
# OmarchyYolo.AcceptedWork — what is completed has been merged

Gates and the reviewer judge the commit of the task's worktree; what is merged is the
branch of the task, and where the merge is in conflict, agents have the integration
worktree in between. A task is marked completed when the transaction has returned.

* `MergeWorld` — the integration worktree, the branches and the commit that was approved;
* `Merges` — what a call does, where agents do not undo the merge;
* `Carries`, `Contains` — the commit is being merged, or has been;
* `completed_work_is_merged` — every run of a task's coroutine.
-/

namespace OmarchyYolo

open Py PyJson Calls

/-! ## The world -/

/-- What the coroutine of a task works on; the worktree of the task is left out. -/
structure MergeWorld (B : Type) where
  integration : Checkout B
  branches : Str → Option Str
  /-- What `commit_all` has returned: the last `HEAD` that was read without the merge lock. -/
  approved : Option Str := none
  /-- The coroutine has the merge lock. -/
  held : Bool := false

section MergeWorld

variable {B : Type} (h : History (Files B)) (integrationPath : Str)

/-- The commit is in the line of the worktree. -/
def Contains (commit : Str) (c : Checkout B) : Prop := h.isAncestor commit c.head = true

/-- The commit is in the line of the worktree, or in that of what is being merged there. -/
def Carries (commit : Str) (c : Checkout B) : Prop :=
  Contains h commit c ∨ ∃ tip, c.merging = some tip ∧ h.isAncestor commit tip = true

/-- What an agent that is asked to resolve or to repair leaves alone: it does not undo a merge,
nor what has been merged. -/
def Respects (commit : Str) (c c' : Checkout B) : Prop :=
  (Contains h commit c → Contains h commit c') ∧ (Carries h commit c → Carries h commit c')

/-- Another exception than that of a merge in conflict. -/
def Raised.NoConflict (x : Raised) : Prop := ∀ message, x ≠ .mergeConflict message

/-- How a call changes the integration worktree. Gates write files. -/
def MergeMoves (w : MergeWorld B) (e : Effect) (r : Except Raised e.Reply) (c' : Checkout B) :
    Prop :=
  match e, r with
  | .git cwd command, .ok reply =>
    if cwd = integrationPath then command.Does h w.branches w.integration reply c'
    else c' = w.integration
  | .git cwd command, .error _ =>
    c' = w.integration ∨ cwd = integrationPath ∧ command.writes = true ∧
      ∃ reply, command.Does h w.branches w.integration reply c'
  | .runAgent _ _ _ _, _ => ∀ commit, w.approved = some commit → Respects h commit w.integration c'
  | .runGates _ _ _, _ => c'.head = w.integration.head ∧ c'.merging = w.integration.merging
  | .release _, .error _ => False
  | _, _ => c' = w.integration

/-- When the branch is merged it has the approved commit, and no conflict is left from before. -/
def MergeReady (w : MergeWorld B) : Effect → Prop
  | .git _ (.merge branch) => w.integration.unmerged = [] ∧
      ∀ commit tip, w.approved = some commit → w.branches branch = some tip →
        h.isAncestor commit tip = true
  | _ => True

/-- The last commit that was read without the merge lock. -/
def readApproved (held : Bool) (before : Option Str) : (e : Effect) → Except Raised e.Reply →
    Option Str
  | .git _ .head, .ok commit => if held then before else some commit
  | _, _ => before

/-- Whether the merge lock is held. -/
def holdsMerge (before : Bool) : (e : Effect) → Except Raised e.Reply → Bool
  | .acquire .merge, .ok _ => true
  | .release .merge, _ => false
  | _, _ => before

/-- What a call does. While the coroutine does not have the merge lock, others have the integration
worktree whenever it awaits something; the branches are everybody's. Only `merge` and
`finish_merge` raise a `MergeConflict`. -/
structure Merges (e : Effect) (w : MergeWorld B) (r : Except Raised e.Reply) (w' : MergeWorld B) :
    Prop where
  moves : w.held = true ∨ e.isAwait = false → MergeMoves h integrationPath w e r w'.integration
  approved : w'.approved = readApproved w.held w.approved e r
  held : w'.held = holdsMerge w.held e r
  ready : MergeReady h w e
  raises : ∀ x, r = .error x → x.NoConflict

/-- The call marks a task as completed. -/
def Effect.Completes : Effect → Prop
  | .updateTask _ fields => fields.sets .completed
  | _ => False

/-- A task is completed only when the approved commit has been merged. -/
def Effect.Merged (e : Effect) (w : MergeWorld B) : Prop :=
  e.Completes → ∃ commit, w.approved = some commit ∧ Contains h commit w.integration

end MergeWorld

/-- Every run of the coroutine completes the task with its work merged, and ends so. -/
abbrev Merging {B : Type} (h : History (Files B)) (integrationPath : Str) {α : Type}
    (p : Coroutine α) (Post : α → MergeWorld B → Prop) (w : MergeWorld B) : Prop :=
  Ensures (Merges h integrationPath) (Effect.Merged h) p (Returned Post) w

section Merging

variable {B : Type} {h : History (Files B)} {integrationPath commit : Str} {w w' : MergeWorld B}
  {cfg : EngineConfig} {jobId : Text} {task : TaskRow} {cwd : Str} {α β : Type}

/-! ## Rules -/

/-- Calls that complete no task. -/
def Effect.Ordinary (e : Effect) : Prop := ¬ e.Completes

theorem ordinary_merged {e : Effect} (he : e.Ordinary) : e.Merged h w := fun hcompletes =>
  absurd hcompletes he

theorem ordinary_merging {p : Coroutine α} (hp : p.Makes Effect.Ordinary) :
    Merging h integrationPath p (fun _ _ => True) w := by
  have hkept : Ensures (Merges h integrationPath) (Effect.Merged h) p (fun _ _ => True) w :=
    hp.keeps (fun _ _ he _ => ordinary_merged he) (fun _ _ _ _ _ _ _ => trivial) trivial
  refine hkept.imp fun r w' _ => ?_
  cases r with
  | ok a => trivial
  | error x => trivial

theorem Effect.Keeps.ordinary {e : Effect} (he : e.Keeps) : e.Ordinary := by
  cases e with
  | updateTask taskId fields => exact he.elim
  | _ => exact fun hcompletes => hcompletes

/-- The coroutine has the merge lock, the commit is approved, and the worktree is so. -/
structure UnderLock (commit : Str) (P : Checkout B → Prop) (w : MergeWorld B) : Prop where
  held : w.held = true
  approved : w.approved = some commit
  worktree : P w.integration

theorem carries_does {tips : Str → Option Str} {command : GitCommand} {reply : command.Reply}
    {c c' : Checkout B} (hkeeps : (Effect.git cwd command).Keeps)
    (hdoes : command.Does h tips c reply c') : Respects h commit c c' := by
  have hline : Contains h commit c → Contains h commit c' := fun hcontains =>
    History.isAncestor_trans hcontains (hdoes.head_le fun target heq => by
      rw [heq] at hkeeps
      exact hkeeps)
  refine ⟨hline, ?_⟩
  rintro (hcontains | ⟨tip, hmerging, htip⟩)
  · exact Or.inl (hline hcontains)
  have hsame : c'.merging = c.merging → Carries h commit c' := fun heq =>
    Or.inr ⟨tip, heq.trans hmerging, htip⟩
  cases command with
  | assertWorktree expected => exact hsame (congrArg Checkout.merging hdoes)
  | head => exact hsame (congrArg Checkout.merging hdoes.2)
  | isClean => exact hsame (congrArg Checkout.merging hdoes.2)
  | unresolved => exact hsame (congrArg Checkout.merging hdoes.2)
  | mergeHeadExists => exact hsame (congrArg Checkout.merging hdoes.2)
  | diff base => exact hsame (congrArg Checkout.merging hdoes)
  | addAll =>
    refine hsame ?_
    rw [show c' = { c with index := c.files, unmerged := [] } from hdoes]
  | commit message =>
    -- the commit has what was being merged as a parent
    obtain ⟨-, new, hparents, -, rfl⟩ := hdoes
    refine Or.inl (History.isAncestor_trans htip (History.isAncestor_parent ?_))
    rw [hparents, hmerging]
    exact List.mem_cons_of_mem _ List.mem_cons_self
  | _ => exact hkeeps.elim

/-- Such a call, with the lock. -/
theorem keeps_step {e : Effect} {r : Except Raised e.Reply} (hkeeps : e.Keeps)
    (hheld : w.held = true) (happroved : w.approved = some commit)
    (hstep : Merges h integrationPath e w r w') :
    UnderLock commit (fun c' => Respects h commit w.integration c') w' := by
  have hmoves := hstep.moves (Or.inl hheld)
  -- an effect that leaves the candidate respects it
  have hsame : w'.integration = w.integration → Respects h commit w.integration w'.integration := by
    intro heq
    rw [heq]
    exact ⟨fun hc => hc, fun hc => hc⟩
  refine ⟨?_, ?_, ?_⟩
  -- the lock stays: by the effects that `Keeps` allows
  · rw [hstep.held, ← hheld]
    cases e with
    | acquire lock => exact hkeeps.elim
    | release lock => exact hkeeps.elim
    | _ => rfl
  -- no head is read that would be approved anew
  · rw [hstep.approved, hheld, ← happroved]
    cases e with
    | git cwd command =>
      cases command with
      | head =>
        cases r with
        | ok commit => rfl
        | error x => rfl
      | _ => rfl
    | _ => rfl
  -- by the effect: what it does to the candidate
  · cases e with
    | git cwd command =>
      cases r with
      | ok reply =>
        simp only [MergeMoves] at hmoves
        -- the command works on the candidate, or in another worktree
        split_ifs at hmoves
        · exact carries_does hkeeps hmoves
        · exact hsame hmoves
      | error x =>
        -- a command that raised may have been carried out
        rcases hmoves with heq | ⟨-, -, reply, hdoes⟩
        · exact hsame heq
        · exact carries_does hkeeps hdoes
    | runAgent name prompt cwd logPath => exact hmoves commit happroved
    | runGates final cwd logPath =>
      -- the gates may leave files, but move no commit
      refine ⟨fun hcontains => ?_, fun hcarries => ?_⟩
      · rw [Contains, hmoves.1]
        exact hcontains
      · rw [Carries, Contains, hmoves.1, hmoves.2]
        exact hcarries
    | acquire lock => exact hkeeps.elim
    | release lock => exact hkeeps.elim
    | updateTask taskId fields => exact hkeeps.elim
    | _ => exact hsame hmoves

/-! ## With the lock -/

/-- With the lock, and the commit approved, the program ends so. -/
abbrev Locked (h : History (Files B)) (integrationPath commit : Str) {α : Type} (p : Coroutine α)
    (P : Except Raised α → Checkout B → Prop) (w : MergeWorld B) : Prop :=
  Ensures (Merges h integrationPath) (Effect.Merged h) p (fun r => UnderLock commit (P r)) w

theorem UnderLock.imp {P Q : Checkout B → Prop} (hw : UnderLock commit P w)
    (hPQ : ∀ c, P c → Q c) : UnderLock commit Q w := ⟨hw.held, hw.approved, hPQ _ hw.worktree⟩

theorem Locked.bind {p : Coroutine α} {f : α → Coroutine β}
    {Mid : Except Raised α → Checkout B → Prop} {P : Except Raised β → Checkout B → Prop}
    (hp : Locked h integrationPath commit p Mid w)
    (hok : ∀ a w, UnderLock commit (Mid (.ok a)) w → Locked h integrationPath commit (f a) P w)
    (herror : ∀ x c, Mid (.error x) c → P (.error x) c) :
    Locked h integrationPath commit (p >>= f) P w :=
  Ensures.bind hp hok fun x _ hmid => hmid.imp (herror x)

/-- What respects the commit keeps what the worktree has of it. -/
def Respected (h : History (Files B)) (commit : Str) (P : Checkout B → Prop) : Prop :=
  ∀ c c', Respects h commit c c' → P c → P c'

theorem contains_respected : Respected h commit (Contains h commit) := fun _ _ hc => hc.1

theorem carries_respected : Respected h commit (Carries h commit) := fun _ _ hc => hc.2

theorem locked_keeps {p : Coroutine α} {P : Checkout B → Prop} (hp : p.Makes Effect.Keeps)
    (hrespected : Respected h commit P) (hw : UnderLock commit P w) :
    Locked h integrationPath commit p (fun _ => P) w := by
  refine hp.keeps (fun _ _ hkeeps _ => ordinary_merged hkeeps.ordinary) ?_ hw
  intro e w r w' hkeeps hw hstep
  exact (keeps_step hkeeps hw.held hw.approved hstep).imp fun c' hc =>
    hrespected _ c' hc hw.worktree

/-- A call that keeps everything, and what it replies. It raises no `MergeConflict`. -/
theorem locked_perform {e : Effect} {P : Except Raised e.Reply → Checkout B → Prop}
    (hkeeps : e.Keeps) (hheld : w.held = true) (happroved : w.approved = some commit)
    (hP : ∀ r c', MergeMoves h integrationPath w e r c' → Respects h commit w.integration c' →
      (∀ x, r = .error x → x.NoConflict) → P r c') :
    Locked h integrationPath commit (perform e) P w := by
  refine ensures_perform.mpr ⟨ordinary_merged hkeeps.ordinary, fun r w' hstep => ?_⟩
  have hnext := keeps_step hkeeps hheld happroved hstep
  exact ⟨hnext.held, hnext.approved,
    hP r _ (hstep.moves (Or.inl hheld)) hnext.worktree hstep.raises⟩

/-- `finish_before_cancel`: what has been done is done, if a cancellation is raised. -/
theorem locked_thread {p : Coroutine α} {P : Except Raised α → Checkout B → Prop}
    (hp : Locked h integrationPath commit p P w)
    (hcancelled : ∀ r x c, x.NoConflict → P r c → P (.error x) c) :
    Locked h integrationPath commit (finishBeforeCancel p) P w := by
  refine ensures_attempt_bind.mpr (hp.imp fun r w₁ hw => ?_)
  have hsuspend : Locked h integrationPath commit suspend
      (fun u c => (∀ x, u = .error x → x.NoConflict) ∧ P r c) w₁ := by
    refine locked_perform trivial hw.held hw.approved fun u c' hmoves _ hraises => ?_
    have hsame : c' = w₁.integration := hmoves
    rw [hsame]
    exact ⟨hraises, hw.worktree⟩
  refine Locked.bind hsuspend (fun _ w₂ hmid => ?_) fun x c hmid =>
    hcancelled r x c (hmid.1 x rfl) hmid.2
  exact ensures_ofExcept.mpr (hmid.imp fun c hc => hc.2)

/-- A command that reads, in the integration worktree. -/
theorem locked_read {command : GitCommand} {P : Except Raised command.Reply → Checkout B → Prop}
    (hkeeps : (Effect.git integrationPath command).Keeps) (hwrites : command.writes = false)
    (hheld : w.held = true) (happroved : w.approved = some commit)
    (hok : ∀ reply c', command.Does h w.branches w.integration reply c' → P (.ok reply) c')
    (herror : ∀ x : Raised, x.NoConflict → P (.error x) w.integration) :
    Locked h integrationPath commit (gitCommand integrationPath command) P w := by
  refine locked_perform hkeeps hheld happroved fun r c' hmoves _ hraises => ?_
  cases r with
  | ok reply =>
    simp only [MergeMoves, if_pos] at hmoves
    exact hok reply c' hmoves
  | error x =>
    rcases hmoves with heq | ⟨-, hwriting, -⟩
    · rw [heq]
      exact herror x (hraises x rfl)
    · exact absurd (hwriting.symm.trans hwrites) (by decide)

/-! ## The merge -/

theorem Checkout.Merged.contains {tip : Str} {c c' : Checkout B} (hmerged : c.Merged h tip c')
    (htip : h.isAncestor commit tip = true) : Contains h commit c' := by
  rcases hmerged with ⟨hover, rfl⟩ | ⟨-, -, -, new, hparents, hhead, -⟩
  · exact History.isAncestor_trans htip hover
  · rw [Contains, hhead]
    refine History.isAncestor_trans htip (History.isAncestor_parent ?_)
    rw [hparents]
    exact List.mem_cons_of_mem _ List.mem_cons_self

theorem Carries.committed {c c' : Checkout B} (hcarries : Carries h commit c)
    (hcommit : c.Committed h c') : Contains h commit c' := by
  rcases hcommit with ⟨-, new, hparents, -, rfl⟩
  rcases hcarries with hcontains | ⟨tip, hmerging, htip⟩
  · refine History.isAncestor_trans hcontains (History.isAncestor_parent ?_)
    rw [hparents]
    exact List.mem_cons_self
  · refine History.isAncestor_trans htip (History.isAncestor_parent ?_)
    rw [hparents, hmerging]
    exact List.mem_cons_of_mem _ List.mem_cons_self

/-- What a merge leaves: only one that is in conflict goes on. -/
def MergeLeft (h : History (Files B)) (commit : Str) : Except Raised Unit → Checkout B → Prop
  | .ok _, c => Contains h commit c
  | .error x, c => x.NoConflict ∨ Carries h commit c

/-- What the command leaves: where it exits with an error, it has not begun, or is in conflict. -/
def MergeReplied (h : History (Files B)) (commit : Str) :
    Except Raised (Option Str) → Checkout B → Prop
  | .ok none, c => Contains h commit c
  | .ok (some _), c => c.unmerged ≠ [] → Carries h commit c
  | .error x, _ => x.NoConflict

/-- What is found out about a merge that has exited with an error. -/
def ConflictRead (h : History (Files B)) (commit : Str) :
    Except Raised (List Str) → Checkout B → Prop
  | .ok unresolved, c => unresolved ≠ [] → Carries h commit c
  | .error x, _ => x.NoConflict

theorem mergeCommand_replied {branch : Str} (hw : UnderLock commit (fun _ => True) w) :
    Locked h integrationPath commit (gitCommand integrationPath (.merge branch))
      (MergeReplied h commit) w := by
  refine ensures_perform.mpr ⟨ordinary_merged fun hcompletes => hcompletes, fun r w' hstep => ?_⟩
  refine ⟨hstep.held.trans hw.held, hstep.approved.trans ?_, ?_⟩
  · rw [← hw.approved]
    rfl
  have hmoves := hstep.moves (Or.inl hw.held)
  rcases hstep.ready with ⟨hunmerged, hready⟩
  cases r with
  | error x => exact hstep.raises x rfl
  | ok stderr =>
    simp only [MergeMoves, if_pos] at hmoves
    rcases hmoves with ⟨tip, htip, hdoes⟩
    have hcommit := hready commit tip hw.approved htip
    cases (stderr : Option Str) with
    | none => exact Checkout.Merged.contains hdoes hcommit
    | some stderr =>
      intro hsome
      rcases hdoes with hsame | ⟨-, -, hmerging, -⟩
      · rw [hsame, hunmerged] at hsome
        exact absurd rfl hsome
      · exact Or.inr ⟨tip, hmerging, hcommit⟩

theorem conflict_read (hw : UnderLock commit (fun c => c.unmerged ≠ [] → Carries h commit c) w) :
    Locked h integrationPath commit (unresolvedFiles integrationPath)
      (ConflictRead h commit) w := by
  have hasserted : Locked h integrationPath commit
      (gitCommand integrationPath (.assertWorktree none)) (fun r c =>
        (c.unmerged ≠ [] → Carries h commit c) ∧ ∀ x, r = .error x → x.NoConflict) w := by
    refine locked_perform trivial hw.held hw.approved fun r c' hmoves _ hraises => ?_
    refine ⟨?_, hraises⟩
    have hsame : c' = w.integration := by
      cases r with
      | ok u =>
        simp only [MergeMoves, if_pos] at hmoves
        exact hmoves
      | error x => exact hmoves.resolve_right fun hwriting => absurd hwriting.2.1 (by decide)
    rw [hsame]
    exact hw.worktree
  refine Locked.bind hasserted (fun _ w₁ hw => ?_) fun x c hx => hx.2 x rfl
  refine locked_read trivial rfl hw.held hw.approved (fun unresolved c' hdoes => ?_) fun x hx => hx
  rcases hdoes with ⟨hreply, rfl⟩
  intro hsome
  refine hw.worktree.1 ?_
  rw [← show unresolved = w₁.integration.unmerged from hreply]
  exact hsome

/-- `merge`. -/
theorem merge_left {branch : Str} (hw : UnderLock commit (fun _ => True) w) :
    Locked h integrationPath commit (merge integrationPath branch) (MergeLeft h commit) w := by
  have hbefore : ∀ (e : Effect) (w₁ : MergeWorld B), e.Keeps → UnderLock commit (fun _ => True) w₁ →
      Locked h integrationPath commit (perform e)
        (fun r _ => ∀ x, r = .error x → x.NoConflict) w₁ :=
    fun e w₁ hkeeps hw => locked_perform hkeeps hw.held hw.approved fun _ _ _ _ hraises => hraises
  refine Locked.bind (hbefore (.git integrationPath (.assertWorktree none)) w trivial hw)
    (fun _ w₁ hw => ?_) fun x c hx => Or.inl (hx x rfl)
  refine Locked.bind (hbefore (.topology (.validateBranchName branch)) w₁ trivial
    (hw.imp fun _ _ => trivial)) (fun _ w₂ hw => ?_) fun x c hx => Or.inl (hx x rfl)
  refine Locked.bind (mergeCommand_replied (hw.imp fun _ _ => trivial)) (fun stderr w₃ hw => ?_)
    fun x c hx => Or.inl hx
  cases (stderr : Option Str) with
  | none => exact hw
  | some stderr =>
    refine Locked.bind (conflict_read hw) (fun unresolved w₄ hw => ?_) fun x c hx => Or.inl hx
    refine Ensures.ite (fun hsome => hw.imp fun c hcarries => Or.inr (hcarries hsome)) fun _ => ?_
    exact hw.imp fun c _ => Or.inl fun message hx => by cases hx

/-! ## The end of a merge in conflict -/

/-- What the end of a merge leaves. -/
def FinishLeft (h : History (Files B)) (commit : Str) {α : Type} : Except Raised α → Checkout B →
    Prop
  | .ok _, c => Contains h commit c
  | .error _, c => Carries h commit c

/-- Whether a merge is in progress. -/
def InProgress (h : History (Files B)) (commit : Str) : Except Raised Bool → Checkout B → Prop
  | .ok merging, c => Carries h commit c ∧ merging = c.merging.isSome
  | .error _, c => Carries h commit c

theorem finishLeft_keeps {p : Coroutine α} (hp : p.Makes Effect.Keeps)
    (hw : UnderLock commit (Contains h commit) w) :
    Locked h integrationPath commit p (FinishLeft h commit) w := by
  refine Ensures.imp (locked_keeps hp contains_respected hw) fun r w' hw => ?_
  cases r with
  | ok a => exact hw
  | error x => exact hw.imp fun c hc => Or.inl hc

theorem mergeInProgress_reads (hw : UnderLock commit (Carries h commit) w) :
    Locked h integrationPath commit (mergeInProgress integrationPath) (InProgress h commit) w := by
  refine Locked.bind (locked_keeps (makes_perform trivial) carries_respected hw) (fun _ w₁ hw => ?_)
    fun x c hc => hc
  refine locked_read trivial rfl hw.held hw.approved (fun merging c' hdoes => ?_) fun x _ => ?_
  · rcases hdoes with ⟨hreply, rfl⟩
    exact ⟨hw.worktree, hreply⟩
  · exact hw.worktree

/-- `finish_merge`. -/
theorem finishMerge_left (hw : UnderLock commit (Carries h commit) w) :
    Locked h integrationPath commit (finishMerge integrationPath) (FinishLeft h commit) w := by
  refine Locked.bind (locked_keeps (makes_perform trivial) carries_respected hw) (fun _ w₁ hw => ?_)
    fun x c hc => hc
  refine Locked.bind (locked_keeps unresolvedFiles_keeps carries_respected hw)
    (fun unresolved w₂ hw => ?_) fun x c hc => hc
  refine Ensures.ite (fun _ => hw) fun _ => ?_
  refine Locked.bind (locked_keeps (makes_perform trivial) carries_respected hw) (fun _ w₃ hw => ?_)
    fun x c hc => hc
  refine Locked.bind (mergeInProgress_reads hw) (fun merging w₄ hw => ?_) fun x c hc => hc
  refine Ensures.ite (fun _ => ?_) fun hover => ?_
  · -- the commit ends the merge
    refine locked_perform trivial hw.held hw.approved fun r c' hmoves hrespects _ => ?_
    cases r with
    | error x => exact hrespects.2 hw.worktree.1
    | ok u =>
      simp only [MergeMoves, if_pos] at hmoves
      exact hw.worktree.1.committed hmoves
  · have hcontains : UnderLock commit (Contains h commit) w₄ := by
      refine hw.imp fun c hc => hc.1.resolve_right ?_
      rintro ⟨tip, hmerging, -⟩
      rw [hc.2, hmerging] at hover
      exact hover rfl
    refine Locked.bind (finishLeft_keeps (makes_perform trivial) hcontains) (fun clean w₅ hw => ?_)
      fun x c hc => hc
    refine Ensures.ite (fun _ => hw) fun _ => finishLeft_keeps ?_ hw
    exact commitAll_keeps.bind fun _ => makes_pure

/-- Whether a conflict has been resolved. -/
def Resolved (h : History (Files B)) (commit : Str) : Except Raised Bool → Checkout B → Prop
  | .ok true, c => Contains h commit c
  | .ok false, c => Carries h commit c
  | .error _, c => Carries h commit c

theorem resolved_carries {r : Except Raised Bool} {c : Checkout B} (hr : Resolved h commit r c) :
    Carries h commit c := by
  rcases r with x | _ | _
  · exact hr
  · exact hr
  · exact Or.inl hr

theorem finishLeft_carries {r : Except Raised α} {c : Checkout B} (hr : FinishLeft h commit r c) :
    Carries h commit c := by
  cases r with
  | ok a => exact Or.inl hr
  | error x => exact hr

/-- What is tried, and given up where Git fails. -/
theorem resolved_exceptWhen {p : Coroutine Bool}
    (hp : Locked h integrationPath commit p (Resolved h commit) w) :
    Locked h integrationPath commit (exceptWhen Raised.isGitError p fun _ => pure false)
      (Resolved h commit) w := by
  refine Ensures.tryCatch hp (fun _ _ hr => hr) fun x w₁ hr => ?_
  exact Ensures.ite (fun _ => hr) fun _ => hr

theorem thread_finishMerge_left (hw : UnderLock commit (Carries h commit) w) :
    Locked h integrationPath commit (atomicToThread (finishMerge integrationPath))
      (FinishLeft h commit) w :=
  locked_thread (finishMerge_left hw) fun _ _ _ _ hr => finishLeft_carries hr

theorem tryFinishMerge_left (hw : UnderLock commit (Carries h commit) w) :
    Locked h integrationPath commit (tryFinishMerge integrationPath) (Resolved h commit) w :=
  resolved_exceptWhen (Locked.bind (thread_finishMerge_left hw) (fun _ _ hw => hw) fun _ _ hc => hc)

theorem tryFinishResolved_left {agentName : Str} (hw : UnderLock commit (Carries h commit) w) :
    Locked h integrationPath commit (tryFinishResolved jobId task integrationPath agentName)
      (Resolved h commit) w := by
  refine resolved_exceptWhen (Locked.bind (thread_finishMerge_left hw) (fun _ w₁ hw => ?_)
    fun _ _ hc => hc)
  refine Locked.bind (locked_keeps (thread_keeps unresolvedFiles_keeps) contains_respected hw)
    (fun unresolved w₂ hw => ?_) fun x c hc => Or.inl hc
  refine Ensures.ite (fun _ => ?_) fun _ => hw.imp fun c hc => Or.inl hc
  exact Locked.bind (locked_keeps recordEvent_keeps contains_respected hw) (fun _ _ hw => hw)
    fun x c hc => Or.inl hc

/-- The loop: an agent that has resolved the conflict has not given up the merge, so that what
`finish_merge` then commits has the branch in it. -/
theorem resolveLoop_left {originalError : Str} {cycles : List Nat}
    (hw : UnderLock commit (Carries h commit) w) :
    Locked h integrationPath commit
      (resolveLoop cfg jobId task integrationPath originalError cycles) (Resolved h commit) w := by
  induction cycles generalizing w with
  | nil => exact hw
  | cons cycle cycles ih =>
    -- listing the conflicts leaves the candidate
    refine Locked.bind (locked_keeps (thread_keeps unresolvedFiles_keeps) carries_respected hw)
      (fun unresolved w₁ hw => ?_) fun x c hc => hc
    -- what follows `tryFinishMerge`: the loop returns, or an agent is asked
    have hagent : ∀ (finished : Bool) (w₂ : MergeWorld B),
        UnderLock commit (Resolved h commit (.ok finished)) w₂ →
        Locked h integrationPath commit (if finished then return true
          else do
            let agentName : Str ←
              perform (.chooseRole cfg.integratorAgent cfg.workerAgents .integrator)
            let logPath := cfg.logsDir ++ lit "/" ++ jobId.val ++ lit "/" ++ task.logicalId.val ++
              lit "/merge-resolve-" ++ decimal cycle ++ lit "-" ++ agentName ++ lit ".log"
            let job ← perform (.getJob jobId)
            let result ← perform
              (.runAgent agentName (.resolve job.goal task originalError unresolved) integrationPath
                logPath)
            let resolved ← if AgentResult.ok result then
                tryFinishResolved jobId task integrationPath agentName
              else pure false
            if resolved then return true
            else resolveLoop cfg jobId task integrationPath originalError cycles)
          (Resolved h commit) w₂ := by
      intro finished w₂ hw
      refine Ensures.ite (fun hfinished => ?_) fun _ => ?_
      · rw [hfinished] at hw
        exact hw
      have hcarries := hw.imp fun _ => resolved_carries
      refine Locked.bind (locked_keeps (makes_perform trivial) carries_respected hcarries)
        (fun agentName w₃ hw => ?_) fun x c hc => hc
      refine Locked.bind (locked_keeps (makes_perform trivial) carries_respected hw)
        (fun job w₄ hw => ?_) fun x c hc => hc
      refine Locked.bind (locked_keeps (makes_perform trivial) carries_respected hw)
        (fun result w₅ hw => ?_) fun x c hc => hc
      -- what follows the agent: the loop returns, or the next cycle begins
      have hend : ∀ (resolved : Bool) (w₆ : MergeWorld B),
          UnderLock commit (Resolved h commit (.ok resolved)) w₆ →
          Locked h integrationPath commit (if resolved then return true
            else resolveLoop cfg jobId task integrationPath originalError cycles)
            (Resolved h commit) w₆ := by
        intro resolved w₆ hw
        refine Ensures.ite (fun hresolved => ?_) fun _ => ih (hw.imp fun _ => resolved_carries)
        rw [hresolved] at hw
        exact hw
      refine Ensures.ite (fun _ => ?_) fun _ => hend false w₅ hw
      exact Locked.bind (tryFinishResolved_left hw) hend fun x c hc => hc
    refine Ensures.ite (fun _ => ?_) fun _ => hagent false w₁ hw
    exact Locked.bind (tryFinishMerge_left hw) hagent fun x c hc => hc

/-! ## The transaction -/

/-- What has been merged, where it says so. -/
def MergedLeft (h : History (Files B)) (commit : Str) : Except Raised Bool → Checkout B → Prop
  | .ok true, c => Contains h commit c
  | .ok false, _ => True
  | .error _, _ => True

/-- What has been integrated, where it says so. -/
def IntegratedLeft (h : History (Files B)) (commit : Str) :
    Except Raised (Bool × Str) → Checkout B → Prop
  | .ok result, c => result.1 = true → Contains h commit c
  | .error _, _ => True

/-- Calls that leave the merge lock, and complete no task. -/
def Effect.Plain (e : Effect) : Prop := e.Ordinary ∧ ∀ held r, holdsMerge held e r = held

theorem ordinary_plain {e : Effect} (he : e.Ordinary) (hlock : Unlocked e) : e.Plain := by
  refine ⟨he, fun held r => ?_⟩
  cases e with
  | acquire lock => exact hlock.elim
  | release lock => exact hlock.elim
  | _ => rfl

theorem Quiet.plain {e : Effect} (he : Lockless Quiet e) : e.Plain := by
  refine ordinary_plain ?_ he.2
  cases e with
  | updateTask taskId fields => exact he.1.elim
  | _ => exact fun hcompletes => hcompletes

theorem readApproved_held {e : Effect} {r : Except Raised e.Reply} {before : Option Str} :
    readApproved true before e r = before := by
  unfold readApproved
  split
  · rfl
  · rfl

/-- With the lock, whatever is done in the worktree. -/
theorem locked_plain {p : Coroutine α} (hp : p.Makes Effect.Plain)
    (hw : UnderLock commit (fun _ => True) w) :
    Locked h integrationPath commit p (fun _ _ => True) w := by
  refine hp.keeps (fun _ _ hplain _ => ordinary_merged hplain.1) ?_ hw
  intro e w r w' hplain hw hstep
  refine ⟨hstep.held.trans ((hplain.2 _ r).trans hw.held), hstep.approved.trans ?_, trivial⟩
  rw [hw.held, readApproved_held, hw.approved]

theorem thread_plain {p : Coroutine α} (hp : p.Makes (InThread Quiet)) :
    (finishBeforeCancel p).Makes Effect.Plain :=
  (finishBeforeCancel_lockless trivial hp).mono fun _ => Quiet.plain

theorem mergeOrResolve_left (hw : UnderLock commit (fun _ => True) w) :
    Locked h integrationPath commit (mergeOrResolve cfg jobId task integrationPath)
      (MergedLeft h commit) w := by
  have hmerge : Locked h integrationPath commit
      (atomicToThread (merge integrationPath task.branch.val)) (MergeLeft h commit) w :=
    locked_thread (merge_left hw) fun r x c hx _ => Or.inl hx
  refine ensures_attempt_bind.mpr (hmerge.imp fun r w₁ hw => ?_)
  rcases r with (_ | message | _ | _ | _) | ⟨⟩
  · exact hw.imp fun _ _ => trivial
  · have hcarries : UnderLock commit (Carries h commit) w₁ :=
      hw.imp fun c hc => hc.resolve_left fun hx => absurd rfl (hx message)
    refine Locked.bind (locked_keeps recordEvent_keeps carries_respected hcarries)
      (fun _ w₂ hw => ?_) fun _ _ _ => trivial
    refine (resolveLoop_left hw).imp fun resolved w₃ hw => hw.imp fun c hc => ?_
    rcases resolved with x | _ | _
    · trivial
    · trivial
    · exact hc
  · exact hw.imp fun _ _ => trivial
  · exact hw.imp fun _ _ => trivial
  · exact hw.imp fun _ _ => trivial
  · exact hw

theorem verifyIntegration_merged {preMerge : Str} (hw : UnderLock commit (Contains h commit) w) :
    Locked h integrationPath commit (verifyIntegration cfg jobId task integrationPath preMerge)
      (IntegratedLeft h commit) w := by
  refine Locked.bind (locked_keeps runGates_keeps contains_respected hw) (fun gates w₁ hw => ?_)
    fun _ _ _ => trivial
  refine Ensures.ite (fun _ => hw.imp fun c hc _ => hc) fun _ => ?_
  refine Locked.bind (locked_keeps liftExn_makes contains_respected hw) (fun gatesText w₂ hw => ?_)
    fun _ _ _ => trivial
  refine Locked.bind (locked_keeps repairIntegration_keeps contains_respected hw)
    (fun repaired w₃ hw => ?_) fun _ _ _ => trivial
  have hend : ∀ (verified : Bool) (w₄ : MergeWorld B), UnderLock commit (Contains h commit) w₄ →
      Locked h integrationPath commit
        (if verified then return (true, [])
        else do
          atomicToThread (resetHard integrationPath preMerge)
          recordEvent jobId "integration.rolled_back" [(lit "task", .str task.logicalId.val)]
            task.id
          return (false, lit "Post-merge integration gates failed:\n" ++ gatesText))
        (IntegratedLeft h commit) w₄ := by
    intro verified w₄ hw
    refine Ensures.ite (fun _ => hw.imp fun c hc _ => hc) fun _ => ?_
    refine Locked.bind (locked_plain (thread_plain resetHard_quiet) (hw.imp fun _ _ => trivial))
      (fun _ w₅ hw => ?_) fun _ _ _ => trivial
    refine Locked.bind (locked_plain (recordEvent_quiet.mono fun _ => Quiet.plain) hw)
      (fun _ w₆ hw => ?_) fun _ _ _ => trivial
    exact hw.imp fun c _ hfalse => absurd hfalse Bool.false_ne_true
  refine Ensures.ite (fun _ => ?_) fun _ => hend false w₃ hw
  exact Locked.bind (locked_keeps runGates_keeps contains_respected hw)
    (fun gates w₄ hw => hend (allOk gates) w₄ hw) fun _ _ _ => trivial

theorem integrateBody_merged {preMerge : Str} (hw : UnderLock commit (fun _ => True) w) :
    Locked h integrationPath commit (integrateBody cfg jobId task integrationPath preMerge)
      (IntegratedLeft h commit) w := by
  refine Locked.bind (mergeOrResolve_left hw) (fun merged w₁ hw => ?_) fun _ _ _ => trivial
  refine Ensures.ite (fun hmerged => ?_) fun _ => ?_
  · rw [hmerged] at hw
    refine Locked.bind (verifyIntegration_merged hw) (fun result w₂ hw => ?_) fun _ _ _ => trivial
    rcases result with ⟨integrated, issue⟩
    refine Ensures.ite (fun hintegrated => ?_) fun _ => ?_
    · have hcontains := hw.imp fun c hc => hc hintegrated
      refine Locked.bind (locked_keeps (thread_keeps head_keeps) contains_respected hcontains)
        (fun _ w₃ hw => ?_) fun _ _ _ => trivial
      refine Locked.bind (locked_keeps recordEvent_keeps contains_respected hw) (fun _ w₄ hw => ?_)
        fun _ _ _ => trivial
      exact hw.imp fun c hc _ => hc
    · exact hw.imp fun c _ hfalse => absurd hfalse Bool.false_ne_true
  · refine Locked.bind (locked_plain (thread_plain abortMerge_quiet) (hw.imp fun _ _ => trivial))
      (fun _ w₂ hw => ?_) fun _ _ _ => trivial
    exact hw.imp fun c _ hfalse => absurd hfalse Bool.false_ne_true

/-- The transaction, between the locks. -/
theorem transaction_merged {preMerge : Str} (hw : UnderLock commit (fun _ => True) w) :
    Locked h integrationPath commit
      ((integrateBody cfg jobId task integrationPath preMerge).tryCatch fun x => do
        finishBeforeCancel (rollback integrationPath preMerge)
        .raise x) (IntegratedLeft h commit) w := by
  refine Ensures.tryCatch (integrateBody_merged hw) (fun _ _ hw => hw) fun x w₁ hw => ?_
  exact Locked.bind (locked_plain (thread_plain rollback_quiet) (hw.imp fun _ _ => trivial))
    (fun _ w₂ hw => hw.imp fun _ _ => trivial) fun _ _ _ => trivial

theorem repo_plain : (Effect.acquire .repo).Plain ∧ (Effect.release .repo).Plain :=
  ⟨⟨fun hcompletes => hcompletes, fun _ _ => rfl⟩, ⟨fun hcompletes => hcompletes, fun _ _ => rfl⟩⟩

theorem updateTask_plain {taskId : Text} {fields : TaskFields}
    (hfields : ¬ fields.sets .completed) :
    (Effect.updateTask taskId fields).Plain := ordinary_plain hfields trivial

/-- The repository's lock, in the merge lock. -/
theorem withRepo_merged {p : Coroutine (Bool × Str)} (hw : UnderLock commit (fun _ => True) w)
    (hp : ∀ w₁ : MergeWorld B, UnderLock commit (fun _ => True) w₁ →
      Locked h integrationPath commit p (IntegratedLeft h commit) w₁) :
    Locked h integrationPath commit (withLock .repo p) (IntegratedLeft h commit) w := by
  refine Locked.bind (locked_plain (makes_perform repo_plain.1) hw) (fun _ w₁ hw => ?_)
    fun _ _ _ => trivial
  refine ensures_attempt_bind.mpr ((hp w₁ hw).imp fun r w₂ hw => ?_)
  have hrelease : Locked h integrationPath commit (perform (.release .repo))
      (fun _ => IntegratedLeft h commit r) w₂ := by
    refine ensures_perform.mpr ⟨ordinary_merged repo_plain.2.1, fun u w₃ hstep => ?_⟩
    refine ⟨hstep.held.trans hw.held, hstep.approved.trans hw.approved, ?_⟩
    have hmoves := hstep.moves (Or.inl hw.held)
    cases u with
    | error x => exact hmoves.elim
    | ok u =>
      rw [show w₃.integration = w₂.integration from hmoves]
      exact hw.worktree
  exact Locked.bind hrelease (fun _ w₃ hw => ensures_ofExcept.mpr hw) fun _ _ _ => trivial

/-! ## Without the lock -/

/-- What is known of a task whose work is judged. -/
def Judged (w : MergeWorld B) : Prop := w.held = false ∧ ∃ commit, w.approved = some commit

/-- The approved commit has been merged. -/
def WorkMerged (h : History (Files B)) (w : MergeWorld B) : Prop :=
  ∃ commit, w.approved = some commit ∧ Contains h commit w.integration

theorem plain_free {held : Bool} {p : Coroutine α} (hp : p.Makes Effect.Plain)
    (hheld : w.held = held) :
    Ensures (Merges h integrationPath) (Effect.Merged h) p (fun _ w' => w'.held = held) w :=
  hp.keeps (fun _ _ hplain _ => ordinary_merged hplain.1)
    (fun _ _ r _ hplain hheld hstep => hstep.held.trans ((hplain.2 _ r).trans hheld)) hheld

theorem plain_judged {p : Coroutine α} (hp : p.Makes Effect.Plain) (hw : Judged w) :
    Ensures (Merges h integrationPath) (Effect.Merged h) p (fun _ => Judged) w := by
  refine hp.keeps (fun _ _ hplain _ => ordinary_merged hplain.1) ?_ hw
  intro e w r w' hplain hw hstep
  refine ⟨hstep.held.trans ((hplain.2 _ r).trans hw.1), ?_⟩
  rw [hstep.approved, hw.1]
  unfold readApproved
  split
  · exact ⟨_, rfl⟩
  · exact hw.2

theorem acquireMerge_takes (hheld : w.held = false) :
    Ensures (Merges h integrationPath) (Effect.Merged h) (perform (.acquire .merge))
      (fun r w' => w'.held = r.toBool ∧ w'.approved = w.approved) w := by
  refine ensures_perform.mpr ⟨ordinary_merged fun hcompletes => hcompletes, fun r w' hstep => ?_⟩
  refine ⟨?_, hstep.approved⟩
  rw [hstep.held, hheld]
  cases r with
  | ok u => rfl
  | error x => rfl

/-- What is done with the merge lock, and given back. -/
theorem withMerge_free {p : Coroutine α} (hp : p.Makes Effect.Plain) (hheld : w.held = false) :
    Ensures (Merges h integrationPath) (Effect.Merged h) (withLock .merge p)
      (fun _ w' => w'.held = false) w := by
  refine (acquireMerge_takes hheld).bind (fun _ w₁ hmid => ?_) fun _ _ hmid => hmid.1
  refine ensures_attempt_bind.mpr ((plain_free hp hmid.1).imp fun r w₂ _ => ?_)
  have hrelease : Ensures (Merges h integrationPath) (Effect.Merged h) (perform (.release .merge))
      (fun _ w' => w'.held = false) w₂ :=
    ensures_perform.mpr ⟨ordinary_merged fun hcompletes => hcompletes,
      fun _ _ hstep => hstep.held⟩
  exact hrelease.bind (fun _ _ hheld => ensures_ofExcept.mpr hheld) fun _ _ hheld => hheld

/-- `_integrate_task`: when it has given the lock back, what it says to be integrated is. -/
theorem integrateTask_merged (hw : Judged w) :
    Ensures (Merges h integrationPath) (Effect.Merged h)
      (integrateTask cfg jobId task integrationPath)
      (fun r w' => Judged w' ∧ Returned (fun result w' => result.1 = true → WorkMerged h w') r w')
      w := by
  rcases hw with ⟨hheld, commit, happroved⟩
  refine (acquireMerge_takes hheld).bind (fun _ w₁ hw => ?_) fun x w₁ hw =>
    ⟨⟨hw.1, commit, hw.2.trans happroved⟩, trivial⟩
  have hbody : Locked h integrationPath commit (withLock .repo do
      perform (.updateTask task.id { state := some (lit TaskState.integrating.value) })
      let preMerge ← toThread (head integrationPath)
      (integrateBody cfg jobId task integrationPath preMerge).tryCatch fun x => do
        finishBeforeCancel (rollback integrationPath preMerge)
        .raise x) (IntegratedLeft h commit) w₁ := by
    refine withRepo_merged ⟨hw.1, hw.2.trans happroved, trivial⟩ fun w₂ hw => ?_
    refine Locked.bind (locked_plain (makes_perform (updateTask_plain (by decide))) hw)
      (fun _ w₃ hw => ?_) fun _ _ _ => trivial
    exact Locked.bind (locked_plain (thread_plain head_quiet) hw)
      (fun preMerge w₄ hw => transaction_merged hw) fun _ _ _ => trivial
  refine ensures_attempt_bind.mpr (hbody.imp fun r w₂ hw => ?_)
  have hrelease : Ensures (Merges h integrationPath) (Effect.Merged h) (perform (.release .merge))
      (fun _ w' => w'.held = false ∧ w'.approved = some commit ∧
        IntegratedLeft h commit r w'.integration) w₂ := by
    refine ensures_perform.mpr ⟨ordinary_merged fun hcompletes => hcompletes, fun u w₃ hstep => ?_⟩
    refine ⟨hstep.held, hstep.approved.trans hw.approved, ?_⟩
    have hmoves := hstep.moves (Or.inl hw.held)
    cases u with
    | error x => exact hmoves.elim
    | ok u =>
      rw [show w₃.integration = w₂.integration from hmoves]
      exact hw.worktree
  refine hrelease.bind (fun _ w₃ hw => ensures_ofExcept.mpr ⟨⟨hw.1, commit, hw.2.1⟩, ?_⟩)
    fun x w₃ hw => ⟨⟨hw.1, commit, hw.2.1⟩, trivial⟩
  cases r with
  | ok result => exact fun hintegrated => ⟨commit, hw.2.1, hw.2.2 hintegrated⟩
  | error x => trivial

/-! ## The coroutine -/

theorem lockless_plain {p : Coroutine α} (hp : p.Makes (Lockless Quiet)) : p.Makes Effect.Plain :=
  hp.mono fun _ => Quiet.plain

theorem setState_plain {taskId : Text} {fields : TaskFields} {state : Str}
    (hfields : fields.state = some state) (hstate : state ≠ lit TaskState.completed.value) :
    (perform (.updateTask taskId fields)).Makes Effect.Plain :=
  makes_perform (updateTask_plain fun hsets => hstate (Option.some.inj (hfields.symm.trans hsets)))

theorem finishAttempt_plain {attemptId : Text} {state summary : Str} {returncode : Option Int} :
    (perform (.finishAttempt attemptId state returncode summary)).Makes Effect.Plain :=
  makes_perform (ordinary_plain (fun hcompletes => hcompletes) trivial)

theorem recordEvent_plain {kind : String} {payload : List (Str × Json NonFinite)}
    {taskId : Option Text} : (recordEvent jobId kind payload taskId).Makes Effect.Plain :=
  lockless_plain recordEvent_quiet

theorem runGates_plain {owner : Option TaskRow} {final : Bool} {suffix : Str} :
    (runGates cfg jobId owner cwd final suffix).Makes Effect.Plain := by
  refine Program.Makes.bind (makes_perform ?_) fun _ => recordEvent_plain.bind fun _ => makes_pure
  exact ordinary_plain (fun hcompletes => hcompletes) trivial

theorem failAttempt_plain {taskId attemptId : Text} {returncode : Option Int} {context : Str} :
    (failAttempt taskId attemptId returncode context).Makes Effect.Plain :=
  finishAttempt_plain.bind fun _ => setState_plain rfl (by decide)

theorem reviewTaskResilient_plain {goal : Text} {gates : List GateResult} {attemptNumber : Int} :
    (reviewTaskResilient cfg jobId task goal cwd gates attemptNumber).Makes Effect.Plain := by
  refine reviewTaskResilient_calls.mono fun e he => ordinary_plain ?_ he.2
  cases e with
  | updateTask taskId fields => exact he.1.elim
  | _ => exact fun hcompletes => hcompletes

/-- How an attempt leaves the lock; of a task that has been completed nothing more is asked. -/
def AttemptLeft : Except Raised AttemptOutcome → MergeWorld B → Prop
  | .ok .completed, _ => True
  | .ok (.retry _), w => w.held = false
  | .error _, _ => True

theorem retry_left {p : Coroutine Unit} {context : Str} (hp : p.Makes Effect.Plain)
    (hheld : w.held = false) :
    Ensures (Merges h integrationPath) (Effect.Merged h)
      (p >>= fun _ => pure (AttemptOutcome.retry context)) AttemptLeft w :=
  (plain_free hp hheld).bind (fun _ _ hheld => hheld) fun _ _ _ => trivial

/-- What ends the attempt is all that completes a task. -/
theorem completeTask_merged {taskId attemptId : Text} {checkout : TaskCheckout}
    {attemptNumber : Int} {agentName : Str} {review : ReviewResult} (hw : WorkMerged h w) :
    Merging h integrationPath
      (completeTask cfg jobId taskId attemptId checkout attemptNumber agentName review)
      (fun _ _ => True) w := by
  have hfinished : Merging h integrationPath (perform (.finishAttempt attemptId (lit "passed")
      (some 0) (if review.summary = [] then lit "passed gates and review" else review.summary)))
      (fun _ w' => WorkMerged h w') w := by
    refine ensures_perform.mpr ⟨ordinary_merged fun hcompletes => hcompletes, fun r w' hstep => ?_⟩
    cases r with
    | error x => trivial
    | ok u =>
      rcases hw with ⟨commit, happroved, hcontains⟩
      refine ⟨commit, hstep.approved.trans happroved, ?_⟩
      -- nobody else has had a turn since the lock was given back
      rw [show w'.integration = w.integration from hstep.moves (Or.inr rfl)]
      exact hcontains
  refine hfinished.andThen fun _ w₁ hw => ?_
  have hcompleted : Merging h integrationPath (perform (.updateTask taskId
      { state := some (lit TaskState.completed.value), resultSummary := some review.summary
        lastError := some [] })) (fun _ _ => True) w₁ := by
    refine ensures_perform.mpr ⟨fun _ => hw, fun r w₂ _ => ?_⟩
    cases r with
    | ok u => trivial
    | error x => trivial
  refine hcompleted.andThen fun _ w₂ _ => ordinary_merging ?_
  have hquiet : ∀ e, Quiet e → e.Ordinary := by
    intro e he
    cases e with
    | updateTask taskId fields => exact he.elim
    | _ => exact fun hcompletes => hcompletes
  refine Program.Makes.bind ((makes_of_lockless recordEvent_quiet).mono hquiet) fun _ => ?_
  exact makes_ite (cleanupTask_quiet.mono hquiet) makes_pure

theorem reviewAndIntegrate_left {taskId attemptId goal : Text} {checkout : TaskCheckout}
    {attemptNumber : Int} {agentName : Str} {gates : List GateResult} (hw : Judged w) :
    Ensures (Merges h integrationPath) (Effect.Merged h)
      (reviewAndIntegrate cfg jobId taskId attemptId goal checkout integrationPath attemptNumber
        agentName gates) AttemptLeft w := by
  refine (plain_judged (setState_plain rfl (by decide)) hw).bind (fun _ w₁ hw => ?_)
    fun _ _ _ => trivial
  refine Ensures.bind (plain_judged (lockless_plain getTask_quiet) hw) (fun task w₂ hw => ?_)
    fun _ _ _ => trivial
  refine (plain_judged reviewTaskResilient_plain hw).bind (fun review w₃ hw => ?_)
    fun _ _ _ => trivial
  refine Ensures.ite (fun _ => ?_) fun _ => ?_
  · refine Ensures.bind (plain_judged (lockless_plain getTask_quiet) hw) (fun task w₄ hw => ?_)
      fun _ _ _ => trivial
    refine (integrateTask_merged hw).bind (fun result w₅ hw => ?_) fun _ _ _ => trivial
    rcases result with ⟨integrated, feedback⟩
    refine Ensures.ite (fun hintegrated => ?_) fun _ => retry_left failAttempt_plain hw.1.1
    refine Ensures.bind (completeTask_merged (hw.2 hintegrated)) (fun _ _ _ => trivial)
      fun _ _ _ => trivial
  · refine (plain_judged failAttempt_plain hw).bind (fun _ w₄ hw => ?_) fun _ _ _ => trivial
    exact retry_left recordEvent_plain hw.1

/-- `commit_all`, without the lock: its commit is what is judged. -/
theorem commitAll_judged {message : Str} (hheld : w.held = false) :
    Ensures (Merges h integrationPath) (Effect.Merged h) (commitAll cwd message)
      (fun r w' => w'.held = false ∧ Returned (fun commit w' => w'.approved = some commit) r w')
      w := by
  have hplain : ∀ command : GitCommand, (gitCommand cwd command).Makes Effect.Plain := fun _ =>
    makes_perform (ordinary_plain (fun hcompletes => hcompletes) trivial)
  have hread : ∀ w₁ : MergeWorld B, w₁.held = false →
      Ensures (Merges h integrationPath) (Effect.Merged h) (head cwd)
        (fun r w' => w'.held = false ∧
          Returned (fun commit w' => w'.approved = some commit) r w') w₁ := by
    intro w₁ hheld
    refine ensures_perform.mpr ⟨ordinary_merged fun hcompletes => hcompletes, fun r w' hstep => ?_⟩
    refine ⟨hstep.held.trans hheld, ?_⟩
    cases r with
    | error x => trivial
    | ok commit =>
      refine hstep.approved.trans ?_
      rw [hheld]
      rfl
  refine (plain_free (hplain _) hheld).bind (fun _ w₁ hheld => ?_) fun _ _ hheld => ⟨hheld, trivial⟩
  refine Ensures.bind (plain_free (hplain .isClean) hheld) (fun clean w₂ hheld => ?_)
    fun _ _ hheld => ⟨hheld, trivial⟩
  refine Ensures.ite (fun _ => hread w₂ hheld) fun _ => ?_
  refine (plain_free (hplain _) hheld).bind (fun _ w₃ hheld => ?_) fun _ _ hheld => ⟨hheld, trivial⟩
  exact (plain_free (hplain _) hheld).bind (fun _ w₄ hheld => hread w₄ hheld) fun _ _ hheld =>
    ⟨hheld, trivial⟩

theorem judgeAttempt_left {attemptId goal : Text} {checkout : TaskCheckout} {attemptNumber : Int}
    {agentName : Str} {result : AgentResult} (hheld : w.held = false) :
    Ensures (Merges h integrationPath) (Effect.Merged h)
      (judgeAttempt cfg jobId task attemptId goal checkout integrationPath attemptNumber agentName
        result) AttemptLeft w := by
  refine Ensures.ite (fun _ => ?_) fun _ => ?_
  · have hcommitted : Merging h integrationPath (atomicToThread (commitAll checkout.worktree
        (lit "yolo(" ++ task.logicalId.val ++ lit "): " ++ task.title.val)))
        (fun _ => Judged) w := by
      refine ensures_attempt_bind.mpr ((commitAll_judged hheld).imp fun r w₁ hw => ?_)
      cases r with
      | error x =>
        exact (plain_free (lockless_plain suspend_quiet) hw.1).bind (fun _ _ _ => trivial)
          fun _ _ _ => trivial
      | ok commit =>
        exact (plain_judged (lockless_plain suspend_quiet) ⟨hw.1, commit, hw.2⟩).bind
          (fun _ _ hw => hw) fun _ _ _ => trivial
    refine Ensures.bind hcommitted (fun _ w₁ hw => ?_) fun _ _ _ => trivial
    refine (plain_judged runGates_plain hw).bind (fun gates w₂ hw => ?_) fun _ _ _ => trivial
    refine Ensures.ite (fun _ => reviewAndIntegrate_left hw) fun _ => ?_
    refine (plain_free liftExn_makes hw.1).bind (fun gatesText w₃ hheld => ?_) fun _ _ _ => trivial
    refine (plain_free failAttempt_plain hheld).bind (fun _ w₄ hheld => ?_) fun _ _ _ => trivial
    exact retry_left recordEvent_plain hheld
  · refine (plain_free failAttempt_plain hheld).bind (fun _ w₁ hheld => ?_) fun _ _ _ => trivial
    exact retry_left recordEvent_plain hheld

theorem attemptTask_left {taskId goal : Text} {checkout : TaskCheckout} {attemptNumber : Int}
    {context : Str} (hheld : w.held = false) :
    Ensures (Merges h integrationPath) (Effect.Merged h)
      (attemptTask cfg jobId taskId goal checkout integrationPath attemptNumber context)
      AttemptLeft w := by
  -- up to the agent nobody holds the lock: reads, and writes of the task's row
  refine Ensures.bind (plain_free (lockless_plain getJob_quiet) hheld) (fun job w₁ hheld => ?_)
    fun _ _ _ => trivial
  refine Ensures.ite (fun _ => trivial) fun _ => ?_
  refine Ensures.bind (plain_free (lockless_plain getTask_quiet) hheld) (fun task w₂ hheld => ?_)
    fun _ _ _ => trivial
  refine (plain_free (lockless_plain chooseWorker_quiet) hheld).bind (fun agentName w₃ hheld => ?_)
    fun _ _ _ => trivial
  refine (plain_free (setState_plain rfl (by decide)) hheld).bind (fun _ w₄ hheld => ?_)
    fun _ _ _ => trivial
  have hstart : ∀ args, (perform (.startAttempt args)).Makes Effect.Plain := fun args =>
    makes_perform (ordinary_plain (fun hcompletes => hcompletes) trivial)
  refine Ensures.bind (plain_free (hstart _) hheld) (fun attemptId w₅ hheld => ?_)
    fun _ _ _ => trivial
  refine (plain_free recordEvent_plain hheld).bind (fun _ w₆ hheld => ?_) fun _ _ _ => trivial
  have hagent : ∀ name prompt cwd logPath,
      (perform (.runAgent name prompt cwd logPath)).Makes Effect.Plain := fun _ _ _ _ =>
    makes_perform (ordinary_plain (fun hcompletes => hcompletes) trivial)
  refine ensures_attempt_bind.mpr ((plain_free (hagent _ _ _ _) hheld).imp
    fun outcome w₇ hheld => ?_)
  -- after an exception the attempt is over, and nothing has been judged
  have hfailed : ∀ x : Raised, Ensures (Merges h integrationPath) (Effect.Merged h) (do
      let retryContext := lit "Agent launch failed: " ++ x.message
      perform (.finishAttempt attemptId (lit "failed") none retryContext)
      perform (.updateTask taskId
        { state := some (lit TaskState.pending.value), lastError := some retryContext })
      recordEvent jobId "task.agent_error" [(lit "error", .str x.message)] taskId
      return AttemptOutcome.retry retryContext) AttemptLeft w₇ := by
    intro x
    refine (plain_free finishAttempt_plain hheld).bind (fun _ w₈ hheld => ?_) fun _ _ _ => trivial
    refine (plain_free (setState_plain rfl (by decide)) hheld).bind (fun _ w₉ hheld => ?_)
      fun _ _ _ => trivial
    exact retry_left recordEvent_plain hheld
  -- by how the agent ended
  cases outcome with
  | ok result => exact judgeAttempt_left hheld
  | error x =>
    cases x with
    -- cancelled: the attempt is closed, and the cancellation goes on
    | cancelledError =>
      exact (plain_free finishAttempt_plain hheld).bind (fun _ _ _ => trivial) fun _ _ _ => trivial
    | mergeConflict message => exact hfailed _
    | gitError message => exact hfailed _
    | yoloError message => exact hfailed _
    | error message => exact hfailed _

theorem attemptLoop_left {taskId goal : Text} {checkout : TaskCheckout} {remaining : Nat}
    {attemptNumber : Int} {context : Str} (hheld : w.held = false) :
    Merging h integrationPath
      (attemptLoop cfg jobId taskId goal checkout integrationPath remaining attemptNumber context)
      (fun _ _ => True) w := by
  induction remaining generalizing w attemptNumber context with
  | zero => trivial
  | succ remaining ih =>
    refine Ensures.bind (attemptTask_left hheld) (fun outcome w₁ hleft => ?_) fun _ _ _ => trivial
    cases outcome with
    | completed => trivial
    | retry context => exact ih hleft

theorem acquireWorktree_free (hheld : w.held = false) :
    Ensures (Merges h integrationPath) (Effect.Merged h)
      (acquireWorktree cfg jobId task integrationPath) (fun _ w' => w'.held = false) w := by
  have hrest : ∀ (fields : TaskFields) (checkout : TaskCheckout) (kind : String)
      (w₁ : MergeWorld B), fields.state = none → w₁.held = false →
      Ensures (Merges h integrationPath) (Effect.Merged h)
        (perform (.updateTask task.id fields) >>= fun _ =>
          recordEvent jobId kind checkout.payload task.id >>= fun _ => pure checkout)
        (fun _ w' => w'.held = false) w₁ := by
    intro fields checkout kind w₁ hnone hheld
    have hstate : (Effect.updateTask task.id fields).Plain := by
      refine updateTask_plain fun hsets => ?_
      cases hnone.symm.trans hsets
    exact plain_free ((makes_perform hstate).bind fun _ =>
      recordEvent_plain.bind fun _ => makes_pure) hheld
  have hknown : ∀ (known : Bool) (w₁ : MergeWorld B), w₁.held = false →
      Ensures (Merges h integrationPath) (Effect.Merged h)
        (if known then recoverWorktree cfg jobId task integrationPath
          else createWorktree cfg jobId task integrationPath) (fun _ w' => w'.held = false) w₁ := by
    intro known w₁ hheld
    refine Ensures.ite (fun _ => ?_) fun _ => ?_
    · refine Ensures.joinBoth (fun _ => plain_free makes_pure hheld)
        (fun _ => plain_free (thread_plain head_quiet) hheld) (fun base w₂ hheld => ?_)
        fun _ _ hheld => hheld
      refine Ensures.bind (withMerge_free (withLock_makes repo_plain.1 repo_plain.2
        (thread_plain ensureExistingBranchWorktree_quiet)) hheld) (fun _ w₃ hheld => ?_)
        fun _ _ hheld => hheld
      exact hrest _ _ _ w₃ rfl hheld
    · refine Ensures.bind (withMerge_free (withLock_makes repo_plain.1 repo_plain.2 ?_) hheld)
        (fun checkout w₂ hheld => hrest _ _ _ w₂ rfl hheld) fun _ _ hheld => hheld
      exact (thread_plain head_quiet).bind fun _ =>
        (thread_plain ensureWorktree_quiet).bind fun _ => makes_pure
  exact Ensures.joinBoth (fun _ => plain_free (thread_plain branchExists_quiet) hheld)
    (fun _ => plain_free makes_pure hheld) hknown fun _ _ hheld => hheld

theorem exhaustTask_plain {taskId : Text} {firstAttempt : Int} :
    (exhaustTask cfg jobId taskId firstAttempt).Makes Effect.Plain :=
  Program.Makes.bind (lockless_plain getTask_quiet) fun _ =>
    (setState_plain rfl (by decide)).bind fun _ => recordEvent_plain

theorem runTaskWithSlot_merging {taskId : Text} (hheld : w.held = false) :
    Merging h integrationPath (runTaskWithSlot cfg jobId taskId integrationPath)
      (fun _ _ => True) w := by
  refine Ensures.bind (plain_free (lockless_plain getTask_quiet) hheld) (fun task w₁ hheld => ?_)
    fun _ _ _ => trivial
  refine Ensures.bind (plain_free (lockless_plain getJob_quiet) hheld) (fun job w₂ hheld => ?_)
    fun _ _ _ => trivial
  refine (acquireWorktree_free hheld).bind (fun checkout w₃ hheld => ?_) fun _ _ _ => trivial
  refine (attemptLoop_left hheld).andThen fun completed w₄ _ => ?_
  refine Ensures.ite (fun _ => trivial) fun _ => ?_
  exact ordinary_merging ((exhaustTask_plain.mono fun _ => And.left).bind fun _ => makes_pure)

end Merging

/-- In every run of a task's coroutine, whatever agents, gates and the other coroutines do
meanwhile, the task is marked completed only when the commit that `commit_all` returned for it,
and that its gates and its reviewer then judged, is in the line of the integration worktree:
where the merge is in conflict, what the agents commit has it too. -/
theorem completed_work_is_merged {B : Type} (h : History (Files B)) (cfg : EngineConfig)
    (jobId taskId : Text) (integrationPath : Str) (c : Checkout B) (branches : Str → Option Str) :
    Ensures (Merges h integrationPath)
      (fun e w => e.Completes →
        ∃ commit, w.approved = some commit ∧ h.isAncestor commit w.integration.head = true)
      (runTask cfg jobId taskId integrationPath) (fun _ _ => True)
      { integration := c, branches } := by
  have hslot : ∀ e : Effect, e = .acquire .workerSlot ∨ e = .release .workerSlot → e.Plain := by
    rintro e (rfl | rfl)
    · exact ⟨fun hcompletes => hcompletes, fun _ _ => rfl⟩
    · exact ⟨fun hcompletes => hcompletes, fun _ _ => rfl⟩
  refine Ensures.bind (plain_free (makes_perform (hslot _ (Or.inl rfl))) rfl) (fun _ w₁ hheld => ?_)
    fun _ _ _ => trivial
  refine ensures_attempt_bind.mpr ((runTaskWithSlot_merging hheld).imp fun r w₂ _ => ?_)
  refine (ordinary_merging ((makes_perform (hslot _ (Or.inr rfl)).1).bind fun _ =>
    makes_ofExcept)).imp fun _ _ _ => trivial

end OmarchyYolo
