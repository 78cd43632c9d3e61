import OmarchyYolo.JobExecution
import Mathlib.Logic.Function.Basic

/-!
# OmarchyYolo.SourceApply — the accepted commit and the source checkout

The source checkout is fast-forwarded to an accepted commit, unless its owner has gone on
with it meanwhile. The repository is its commits, the branches, what is checked out, and what
else is in the worktree: a commit that comes may let `status` show what Git has ignored.

* `canFastForwardSource`, `fastForwardSource` — the other ways in;
* `History`, `SourceHistory`, `SourceRepo` — the commits, and the state of the source checkout;
* `sourceAnswer` — what Git does; `faulty` — where any command may fail;
* `Forwarded` — the one change that may be made; `GoesForward` — where it is made;
* `Guarded`, `Repeats`, `Agrees` — what is asked of the reconciliation;
* `source_reconciliation`: when it is guarded, and when it can be repeated.
-/

namespace OmarchyYolo

open Py Calls

/-! ## The other ways in -/

/-- `can_fast_forward_source`: whether, and the reason. -/
def canFastForwardSource (baseBranch baseCommit : Str) : JobCoroutine (Bool × Str) :=
  if baseBranch = lit "HEAD" then return (false, lit "source checkout was detached")
  else do
    let currentBranch : Str ← sourceCommand .branch
    if currentBranch ≠ baseBranch then
      return (false, lit "source worktree is now on " ++ currentBranch ++ lit ", not " ++
        baseBranch)
    else do
      let clean : Bool ← sourceCommand .isClean
      if clean then do
        let currentHead : Str ← sourceCommand .head
        if currentHead ≠ baseCommit then
          return (false, lit "source branch moved since job creation")
        else return (true, lit "ok")
      else return (false, lit "source worktree is dirty")

/-- `fast_forward_source`. -/
def fastForwardSource (integrationBranch baseBranch baseCommit : Str) : JobCoroutine Unit := do
  let acceptedCommit ← resolveBranchCommit integrationBranch
  let (outcome, reason) ←
    reconcileFastForwardSource integrationBranch baseBranch baseCommit acceptedCommit
  if outcome ≠ lit "applied" then
    shared (raiseGit (lit "automatic apply refused: " ++ reason))
  else return ()

/-! ## The repository -/

/-- The commits: the parents and the files of each. -/
structure History (T : Type) where
  parents : Str → List Str
  tree : Str → T
  /-- The files where there is no commit yet. -/
  empty : T
  isAncestor : Str → Str → Bool
  isAncestor_iff : ∀ a b, isAncestor a b = true ↔
    Relation.ReflTransGen (fun x y => x ∈ parents y) a b

/-- The commits, and what `status` says of the worktree under the files of one. What no commit
holds in a worktree, a `U`, is an untracked path, or a submodule. -/
structure SourceHistory (T U : Type) extends History T where
  /-- Git reads the files back as they are committed, through filters and line ends. -/
  roundTrips : T → Bool
  /-- `status` shows it: a path that these files do not ignore, a submodule that is not at
  their commit. -/
  shows : T → U → Bool
  /-- It is still there when the files are checked out. -/
  keeps : T → U → Bool

/-- The branches, all of which have names that Git takes, the `HEAD` of the source checkout,
its files, and the rest of its worktree. -/
structure SourceRepo (valid : Str → Bool) (T U : Type) where
  branches : Str → Option Str
  head : Head
  files : T
  rest : List U
  /-- What `symbolic-ref --short` prints of a branch, stripped: its name, unless another ref
  has the name, or white space is at an end of it. -/
  shortName : Str → Str
  branches_named : ∀ name commit, branches name = some commit → valid name = true ∧ commit ≠ []
  head_named : ∀ name, head = .branch name → valid name = true

section Git

variable {valid : Str → Bool} {T U : Type}

/-- `status` shows nothing in a worktree with the files of a commit. -/
def SourceHistory.Quiet (h : SourceHistory T U) (files : T) (rest : List U) : Prop :=
  h.roundTrips files = true ∧ ∀ x ∈ rest, h.shows files x = false

namespace SourceRepo

/-- The commit that `HEAD` is at. -/
def head? (w : SourceRepo valid T U) : Option Str :=
  match w.head with
  | .branch name => w.branches name
  | .detached commit => some commit

/-- `branch`: the name that is shown, or `HEAD` where it is detached. -/
def branch (w : SourceRepo valid T U) : Str :=
  match w.head with
  | .branch name => w.shortName name
  | .detached _ => lit "HEAD"

variable (h : SourceHistory T U)

/-- The files of the commit that `HEAD` is at. -/
def headTree (w : SourceRepo valid T U) : T :=
  match w.head? with
  | none => h.empty
  | some commit => h.tree commit

/-- `status --porcelain` prints nothing. -/
def Clean (w : SourceRepo valid T U) : Prop := w.files = w.headTree h ∧ h.Quiet w.files w.rest

instance [DecidableEq T] (w : SourceRepo valid T U) : Decidable (w.Clean h) :=
  inferInstanceAs (Decidable (_ ∧ _ ∧ ∀ x ∈ w.rest, _))

/-- `status` shows nothing when the files of a commit are checked out: it goes on ignoring what
Git has ignored, and moves no submodule. -/
def Settled (w : SourceRepo valid T U) (commit : Str) : Prop :=
  h.Quiet (h.tree commit) (w.rest.filter (h.keeps (h.tree commit)))

/-- The branch and the files move to the commit. -/
def moveBranch (w : SourceRepo valid T U) (name commit : Str) (hname : valid name = true)
    (hcommit : commit ≠ []) : SourceRepo valid T U where
  branches := Function.update w.branches name (some commit)
  head := w.head
  files := h.tree commit
  rest := w.rest.filter (h.keeps (h.tree commit))
  shortName := w.shortName
  branches_named := by
    intro other c hc
    by_cases hother : other = name
    · rw [hother, Function.update_self] at hc
      cases hc
      exact ⟨hother ▸ hname, hcommit⟩
    · rw [Function.update_of_ne hother] at hc
      exact w.branches_named other c hc
  head_named := w.head_named

/-- `merge --ff-only`, which moves `HEAD` to a commit. -/
def forward (w : SourceRepo valid T U) (commit : Str) (hcommit : commit ≠ []) :
    SourceRepo valid T U :=
  match hhead : w.head with
  | .branch name => w.moveBranch h name commit (w.head_named name hhead) hcommit
  | .detached _ => { w with
      head := .detached commit
      files := h.tree commit
      rest := w.rest.filter (h.keeps (h.tree commit))
      head_named := nofun }

theorem forward_of_branch (w : SourceRepo valid T U) {name : Str} (hhead : w.head = .branch name)
    (commit : Str) (hcommit : commit ≠ []) :
    w.forward h commit hcommit =
      w.moveBranch h name commit (w.head_named name hhead) hcommit := by
  unfold forward
  split
  · rename_i other hother
    cases hhead.symm.trans hother
    rfl
  · rename_i other hother
    cases hhead.symm.trans hother

end SourceRepo

/-- A command that exits with an error. -/
def exitError {α : Type} : Except Raised α := .error (.gitError [])

variable [DecidableEq T] (h : SourceHistory T U)

/-- What a command answers, and what it changes. A fast-forward is made where nothing is in its
way, and changes nothing elsewhere. -/
def sourceAnswer (e : JobEffect) (w : SourceRepo valid T U) :
    Except Raised e.Reply × SourceRepo valid T U :=
  match e with
  | .task (.topology (.validateBranchName name)) =>
    (if valid name then .ok () else exitError, w)
  | .source (.resolveBranch name) => (((w.branches name).map .ok).getD exitError, w)
  | .source .branch => (.ok w.branch, w)
  | .source .isClean => (.ok (decide (w.Clean h) : Bool), w)
  | .source .head => (((w.head?).map .ok).getD exitError, w)
  | .source (.isAncestor ancestor descendant) => (.ok (h.isAncestor ancestor descendant), w)
  | .source (.fastForward commit) =>
    match w.head? with
    | none => (exitError, w)
    | some current =>
      if hcommit : commit ≠ [] then
        if w.Clean h ∧ h.isAncestor current commit = true then
          (.ok (), w.forward h commit hcommit)
        else (exitError, w)
      else (exitError, w)
  | _ => (exitError, w)

/-- A command does its work, or raises, with its work done or not begun. -/
def faulty : Handler JobEffect JobEffect.Reply Raised (SourceRepo valid T U) := fun e w r w' =>
  (r = (sourceAnswer h e w).1 ∧ w' = (sourceAnswer h e w).2) ∨
    ∃ x, r = .error x ∧ (w' = w ∨ w' = (sourceAnswer h e w).2)

end Git

/-! ## The reconciliation -/

section Reconciliation

variable {valid : Str → Bool} {T U : Type} [DecidableEq T] (h : SourceHistory T U)
  (integrationBranch baseBranch baseCommit acceptedCommit : Str)

/-- Where the source is brought forward: the branch that is checked out, with nothing else in
its worktree, is shown as the base branch, is at the base commit, and is behind the accepted
one, the commit of the integration branch. -/
structure GoesForward (w : SourceRepo valid T U) : Prop where
  attached : baseBranch ≠ lit "HEAD"
  shown : w.branch = baseBranch
  clean : w.Clean h
  accepted : w.branches integrationBranch = some acceptedCommit
  base : w.head? = some baseCommit
  behind : h.isAncestor acceptedCommit baseCommit = false
  ancestor : h.isAncestor baseCommit acceptedCommit = true

/-- The one change: where the source is brought forward, a branch goes to the accepted commit,
with the files. -/
structure Forwarded (name : Str) (w w' : SourceRepo valid T U) : Prop where
  moves : GoesForward h integrationBranch baseBranch baseCommit acceptedCommit w
  checkedOut : w.head = .branch name
  head : w'.head = w.head
  branches : w'.branches = Function.update w.branches name (some acceptedCommit)
  files : w'.files = h.tree acceptedCommit
  rest : w'.rest = w.rest.filter (h.keeps (h.tree acceptedCommit))
  shortName : w'.shortName = w.shortName

/-- Whether the calls so far have come to the merge. -/
def Merged (calls : List (Reply JobEffect JobEffect.Reply Raised)) : Prop :=
  ∃ call ∈ calls, ∃ commit, call.1 = .source (.fastForward commit)

/-- The outcome without its reason. -/
def outcomeOf : Except Raised (Str × Str) → Except Raised Str := Except.map Prod.fst

/-- What is left of the repository. -/
structure Reconciled (Change : SourceRepo valid T U → Prop) (w : SourceRepo valid T U)
    (r : Except Raised (Str × Str))
    (c : SourceRepo valid T U × List (Reply JobEffect JobEffect.Reply Raised)) : Prop where
  change : c.1 = w ∨ Change c.1
  skipped : (∃ reason, r = .ok (lit "skipped", reason)) → c.1 = w
  unmerged : ¬ Merged c.2 → c.1 = w

/-- Whatever fails, the reconciliation brings the base branch forward, or leaves everything as
it is. -/
def Guarded (w : SourceRepo valid T U) : Prop :=
  Ensures (faulty h).traced (fun _ _ => True)
    (reconcileFastForwardSource integrationBranch baseBranch baseCommit acceptedCommit)
    (Reconciled (Forwarded h integrationBranch baseBranch baseCommit acceptedCommit baseBranch w) w)
    (w, [])

/-- The reconciliation, where no command fails. -/
def reconcileRun (w : SourceRepo valid T U) : Except Raised (Str × Str) × SourceRepo valid T U :=
  run (sourceAnswer h)
    (reconcileFastForwardSource integrationBranch baseBranch baseCommit acceptedCommit) w

/-- A second reconciliation has the same outcome, and changes nothing. -/
def Repeats (w : SourceRepo valid T U) : Prop :=
  ∀ r w', reconcileRun h integrationBranch baseBranch baseCommit acceptedCommit w = (r, w') →
    ∃ r', reconcileRun h integrationBranch baseBranch baseCommit acceptedCommit w' = (r', w') ∧
      outcomeOf r' = outcomeOf r

/-- The reconciliation applies what the predicate allows. -/
def Agrees (w : SourceRepo valid T U) : Prop :=
  ∀ reason, (run (sourceAnswer h) (canFastForwardSource baseBranch baseCommit) w).1 =
      .ok (true, reason) →
    w.branches integrationBranch = some acceptedCommit →
    h.isAncestor baseCommit acceptedCommit = true →
    ∃ reason' w', reconcileRun h integrationBranch baseBranch baseCommit acceptedCommit w =
      (.ok (lit "applied", reason'), w')

end Reconciliation

section Changes

variable {valid : Str → Bool} {T U : Type} {h : SourceHistory T U}
  {integrationBranch baseBranch baseCommit acceptedCommit : Str} {w : SourceRepo valid T U}
  {Change : SourceRepo valid T U → Prop}
  {c c' : SourceRepo valid T U × List (Reply JobEffect JobEffect.Reply Raised)}

/-- Nothing has been merged so far. -/
def Unmoved (w : SourceRepo valid T U)
    (c : SourceRepo valid T U × List (Reply JobEffect JobEffect.Reply Raised)) : Prop :=
  c.1 = w ∧ ¬ Merged c.2

/-- Nothing has been merged at the end. -/
theorem Unmoved.reconciled {r : Except Raised (Str × Str)} (hc : Unmoved w c) :
    Reconciled Change w r c :=
  ⟨Or.inl hc.1, fun _ => hc.1, fun _ => hc.1⟩

theorem Unmoved.snoc {reply : Reply JobEffect JobEffect.Reply Raised} (hc : Unmoved w c)
    (hreply : ∀ commit, reply.1 ≠ .source (.fastForward commit)) (hworld : c'.1 = w)
    (htrace : c'.2 = c.2 ++ [reply]) : Unmoved w c' := by
  refine ⟨hworld, ?_⟩
  rintro ⟨call, hmem, commit, hcall⟩
  rw [htrace] at hmem
  rcases List.mem_append.mp hmem with hbefore | hlast
  · exact hc.2 ⟨call, hbefore, commit, hcall⟩
  · rw [List.mem_singleton.mp hlast] at hcall
    exact hreply commit hcall

/-- The merge has been called, with effect or without. -/
def AfterMerge (Change : SourceRepo valid T U → Prop) (w : SourceRepo valid T U)
    (c : SourceRepo valid T U × List (Reply JobEffect JobEffect.Reply Raised)) : Prop :=
  (c.1 = w ∨ Change c.1) ∧ Merged c.2

theorem AfterMerge.reconciled {r : Except Raised (Str × Str)} (hc : AfterMerge Change w c)
    (hr : ∀ reason, r ≠ .ok (lit "skipped", reason)) : Reconciled Change w r c where
  change := hc.1
  skipped hskipped := by
    obtain ⟨reason, heq⟩ := hskipped
    exact absurd heq (hr reason)
  unmerged hunmerged := absurd hc.2 hunmerged

variable [DecidableEq T]

theorem AfterMerge.head (hc : AfterMerge Change w c) :
    Ensures (faulty h).traced (fun _ _ => True) (sourceCommand .head)
      (fun _ => AfterMerge Change w) c := by
  refine ensures_perform.mpr ⟨trivial, fun r c' hstep => ?_⟩
  obtain ⟨hanswer, htrace⟩ := hstep
  have hsame : c'.1 = c.1 := by
    rcases hanswer with ⟨-, hw⟩ | ⟨x, -, hw | hw⟩
    · exact hw
    · exact hw
    · exact hw
  constructor
  · rw [hsame]
    exact hc.1
  · obtain ⟨call, hmem, hcall⟩ := hc.2
    exact ⟨call, by rw [htrace]; exact List.mem_append_left _ hmem, hcall⟩

/-- A command that only reads: its reply is right, if there is one. -/
theorem traced_reads {e : JobEffect} {r : Except Raised e.Reply} (hc : Unmoved w c)
    (he : ∀ commit, e ≠ .source (.fastForward commit)) (hsame : (sourceAnswer h e w).2 = w)
    (hstep : (faulty h).traced e c r c') :
    Unmoved w c' ∧ ∀ a, r = .ok a → (sourceAnswer h e w).1 = .ok a := by
  obtain ⟨hanswer, htrace⟩ := hstep
  rw [hc.1] at hanswer
  rcases hanswer with ⟨hr, hw⟩ | ⟨x, hr, hw⟩
  · exact ⟨hc.snoc he (hw.trans hsame) htrace, fun a ha => hr.symm.trans ha⟩
  · refine ⟨hc.snoc he ?_ htrace, fun a ha => ?_⟩
    · rcases hw with hw | hw
      · exact hw
      · exact hw.trans hsame
    · cases hr.symm.trans ha

theorem source_reads (command : SourceCommand) (hc : Unmoved w c)
    (he : ∀ commit, command ≠ .fastForward commit)
    (hsame : (sourceAnswer h (.source command) w).2 = w) :
    Ensures (faulty h).traced (fun _ _ => True) (sourceCommand command)
      (fun r c' => Unmoved w c' ∧ ∀ a, r = .ok a →
        (sourceAnswer h (.source command) w).1 = .ok a) c := by
  refine ensures_perform.mpr ⟨trivial, fun r c' hstep => traced_reads hc ?_ hsame hstep⟩
  intro commit heq
  exact he commit (JobEffect.source.inj heq)

/-- Such a command, before the rest of the reconciliation. -/
theorem reads_then {α : Type} {p : JobCoroutine α} {f : α → JobCoroutine (Str × Str)}
    {Right : α → Prop}
    (hp : Ensures (faulty h).traced (fun _ _ => True) p
      (fun r c' => Unmoved w c' ∧ ∀ a, r = .ok a → Right a) c)
    (hf : ∀ a c', Unmoved w c' → Right a → Ensures (faulty h).traced (fun _ _ => True) (f a)
      (Reconciled Change w) c') :
    Ensures (faulty h).traced (fun _ _ => True) (p >>= f) (Reconciled Change w) c :=
  hp.bind (fun a c' hmid => hf a c' hmid.1 (hmid.2 a rfl)) fun _ _ hmid => hmid.1.reconciled

theorem resolveBranchCommit_answers {branch : Str} (hc : Unmoved w c) :
    Ensures (faulty h).traced (fun _ _ => True) (resolveBranchCommit branch)
      (fun r c' => Unmoved w c' ∧ ∀ commit, r = .ok commit → w.branches branch = some commit)
      c := by
  have hvalidate : Ensures (faulty h).traced (fun _ _ => True)
      (shared (topologyCommand (.validateBranchName branch))) (fun _ c' => Unmoved w c') c :=
    ensures_embed.mpr (ensures_perform.mpr
      ⟨trivial, fun r c' hstep => (traced_reads
        (e := .task (.topology (.validateBranchName branch))) hc nofun rfl hstep).1⟩)
  have hraised : ∀ x c', Unmoved w c' → Unmoved w c' ∧ ∀ commit,
      (.error x : Except Raised Str) = .ok commit → w.branches branch = some commit := by
    intro x c' hc'
    refine ⟨hc', fun commit heq => ?_⟩
    cases heq
  refine hvalidate.bind (fun _ c₁ hc₁ => ?_) hraised
  refine (source_reads (.resolveBranch branch) hc₁ nofun rfl).bind
    (fun (commit : Str) c₂ hmid => ?_) fun x c₂ hmid => hraised x c₂ hmid.1
  refine Ensures.ite (fun _ => hraised _ c₂ hmid.1) fun _ => ⟨hmid.1, fun commit' heq => ?_⟩
  cases heq
  have hanswer := hmid.2 commit rfl
  cases hbranch : w.branches branch with
  | none =>
    simp only [sourceAnswer, hbranch] at hanswer
    cases hanswer
  | some found =>
    simp only [sourceAnswer, hbranch] at hanswer
    cases hanswer
    rfl

/-- The source has been brought forward. -/
def SomeForwarded (h : SourceHistory T U)
    (integrationBranch baseBranch baseCommit acceptedCommit : Str) (w w' : SourceRepo valid T U) :
    Prop :=
  ∃ name, Forwarded h integrationBranch baseBranch baseCommit acceptedCommit name w w'

omit [DecidableEq T] in
theorem checkedOut_of_branch (hbranch : w.branch = baseBranch) (hne : baseBranch ≠ lit "HEAD") :
    ∃ name, w.head = .branch name ∧ w.shortName name = baseBranch := by
  unfold SourceRepo.branch at hbranch
  split at hbranch
  · rename_i name hhead
    exact ⟨name, hhead, hbranch⟩
  · exact absurd hbranch.symm hne

omit [DecidableEq T] in
/-- A merge that is made where the source is to be brought forward. -/
theorem GoesForward.forwarded
    (hw : GoesForward h integrationBranch baseBranch baseCommit acceptedCommit w)
    (hcommit : acceptedCommit ≠ []) :
    SomeForwarded h integrationBranch baseBranch baseCommit acceptedCommit w
      (w.forward h acceptedCommit hcommit) := by
  obtain ⟨name, hhead, -⟩ := checkedOut_of_branch hw.shown hw.attached
  rw [w.forward_of_branch h hhead]
  exact ⟨name, hw, hhead, rfl, rfl, rfl, rfl, rfl⟩

/-- The merge, where it is come to: all that it can do is to bring the branch forward. -/
theorem fastForward_step {r : Except Raised Unit} (hc : Unmoved w c)
    (hne : baseBranch ≠ lit "HEAD") (hbranch : w.branch = baseBranch) (hclean : w.Clean h)
    (haccepted : w.branches integrationBranch = some acceptedCommit)
    (hbase : w.head? = some baseCommit) (hbehind : h.isAncestor acceptedCommit baseCommit = false)
    (hstep : (faulty h).traced (.source (.fastForward acceptedCommit)) c r c') :
    AfterMerge (SomeForwarded h integrationBranch baseBranch baseCommit acceptedCommit w) w c' := by
  obtain ⟨hanswer, htrace⟩ := hstep
  rw [hc.1] at hanswer
  constructor
  · have hcommit := (w.branches_named integrationBranch acceptedCommit haccepted).2
    have hforward : (sourceAnswer h (.source (.fastForward acceptedCommit)) w).2 = w ∨
        SomeForwarded h integrationBranch baseBranch baseCommit acceptedCommit w
          (sourceAnswer h (.source (.fastForward acceptedCommit)) w).2 := by
      simp only [sourceAnswer, hbase, dif_pos hcommit]
      split
      · rename_i hway
        right
        exact GoesForward.forwarded ⟨hne, hbranch, hclean, haccepted, hbase, hbehind, hway.2⟩
          hcommit
      · exact Or.inl rfl
    rcases hanswer with ⟨-, hw⟩ | ⟨x, -, hw | hw⟩
    · rw [hw]
      exact hforward
    · exact Or.inl hw
    · rw [hw]
      exact hforward
  · exact ⟨_, by rw [htrace]; exact List.mem_append_right _ (List.mem_singleton_self _),
      acceptedCommit, rfl⟩

theorem head_of_answer {commit : Str}
    (hanswer : (sourceAnswer h (.source .head) w).1 = .ok commit) : w.head? = some commit := by
  cases hhead : w.head? with
  | none =>
    simp only [sourceAnswer, hhead] at hanswer
    cases hanswer
  | some found =>
    simp only [sourceAnswer, hhead] at hanswer
    cases hanswer
    rfl

/-- From the source's own commit on. -/
theorem reconcileFromHead_changes (hc : Unmoved w c) (hne : baseBranch ≠ lit "HEAD")
    (hbranch : w.branch = baseBranch) (hclean : w.Clean h)
    (haccepted : w.branches integrationBranch = some acceptedCommit) :
    Ensures (faulty h).traced (fun _ _ => True)
      (reconcileFromHead baseCommit acceptedCommit)
      (Reconciled (SomeForwarded h integrationBranch baseBranch baseCommit acceptedCommit w) w)
      c := by
  refine reads_then (source_reads .head hc nofun rfl) fun (currentHead : Str) c₁ hc₁ hhead => ?_
  refine Ensures.ite (fun _ => hc₁.reconciled) fun _ => ?_
  refine reads_then (source_reads (.isAncestor acceptedCommit currentHead) hc₁ nofun rfl)
    fun (contained : Bool) c₂ hc₂ hanswer => ?_
  refine Ensures.ite (fun _ => hc₂.reconciled) fun hcontained => ?_
  refine Ensures.ite (fun _ => hc₂.reconciled) fun hbase => ?_
  obtain rfl : currentHead = baseCommit := not_not.mp hbase
  have hbehind : h.isAncestor acceptedCommit currentHead = false :=
    (Except.ok.inj hanswer).trans (Bool.eq_false_iff.mpr hcontained)
  -- the merge, after which the reconciliation has not been skipped
  have hmerge : Ensures (faulty h).traced (fun _ _ => True)
      (sourceCommand (.fastForward acceptedCommit)) (fun _ => AfterMerge
        (SomeForwarded h integrationBranch baseBranch currentHead acceptedCommit w) w) c₂ :=
    ensures_perform.mpr ⟨trivial, fun r c' hstep => fastForward_step hc₂ hne hbranch hclean
      haccepted (head_of_answer hhead) hbehind hstep⟩
  refine hmerge.bind (fun _ c₃ hc₃ => ?_) fun x c₃ hc₃ => hc₃.reconciled nofun
  refine Ensures.bind (hc₃.head) (fun (finalHead : Str) c₄ hc₄ => ?_)
    fun x c₄ hc₄ => hc₄.reconciled nofun
  refine Ensures.ite (fun _ => hc₄.reconciled nofun) fun _ => hc₄.reconciled fun reason heq => ?_
  have hfirst : lit "applied" = lit "skipped" := congrArg Prod.fst (Except.ok.inj heq)
  exact absurd hfirst (by decide)

/-- Whatever fails, the reconciliation brings the branch that is checked out forward, or leaves
everything as it is. -/
theorem reconcile_changes (hc : Unmoved w c) :
    Ensures (faulty h).traced (fun _ _ => True)
      (reconcileFastForwardSource integrationBranch baseBranch baseCommit acceptedCommit)
      (Reconciled (SomeForwarded h integrationBranch baseBranch baseCommit acceptedCommit w) w)
      c := by
  refine reads_then (resolveBranchCommit_answers hc) fun integrationCommit c₁ hc₁ hresolved => ?_
  refine Ensures.ite (fun _ => hc₁.reconciled) fun haccepted => ?_
  obtain rfl : integrationCommit = acceptedCommit := not_not.mp haccepted
  refine Ensures.ite (fun _ => hc₁.reconciled) fun hne => ?_
  refine reads_then (source_reads .branch hc₁ nofun rfl) fun (currentBranch : Str) c₂ hc₂ hcur => ?_
  refine Ensures.ite (fun _ => hc₂.reconciled) fun hbranch => ?_
  obtain rfl : currentBranch = baseBranch := not_not.mp hbranch
  refine reads_then (source_reads .isClean hc₂ nofun rfl) fun (clean : Bool) c₃ hc₃ hclean => ?_
  refine Ensures.ite (fun heq => ?_) fun _ => hc₃.reconciled
  have hbranch : w.branch = currentBranch := Except.ok.inj hcur
  have hdecided : decide (w.Clean h) = clean := Except.ok.inj hclean
  exact reconcileFromHead_changes hc₃ hne hbranch (of_decide_eq_true (hdecided.trans heq)) hresolved

end Changes

/-! ### Where no command fails -/

section Answers

variable {valid : Str → Bool} {T U : Type} [DecidableEq T] {h : SourceHistory T U}
  {integrationBranch baseBranch baseCommit acceptedCommit : Str} {w w' : SourceRepo valid T U}

theorem run_source {α : Type} {command : SourceCommand} {f : command.Reply → JobCoroutine α}
    {a : command.Reply} {result : Except Raised α × SourceRepo valid T U}
    (hanswer : sourceAnswer h (.source command) w = (.ok a, w))
    (hrest : run (sourceAnswer h) (f a) w = result) :
    run (sourceAnswer h) (sourceCommand command >>= f) w = result :=
  run_then (run_perform.trans hanswer) hrest

theorem answer_head {commit : Str} (hhead : w.head? = some commit) :
    sourceAnswer h (.source .head) w = (.ok commit, w) := by
  simp only [sourceAnswer, hhead]
  rfl

theorem run_resolveBranchCommit {branch commit : Str} (hbranch : w.branches branch = some commit) :
    run (sourceAnswer h) (resolveBranchCommit branch) w = (.ok commit, w) := by
  obtain ⟨hname, hcommit⟩ := w.branches_named branch commit hbranch
  have hvalidate : run (sourceAnswer h) (shared (topologyCommand (.validateBranchName branch))) w =
      (.ok (), w) := by
    show (_, _) = _
    simp only [sourceAnswer, hname, if_true]
    rfl
  have hanswer : sourceAnswer h (.source (.resolveBranch branch)) w = (.ok commit, w) := by
    simp only [sourceAnswer, hbranch]
    rfl
  exact run_then hvalidate (run_source hanswer (run_ite_neg hcommit))

/-- All that is checked before the source's own commit. -/
theorem run_reconcile_checked (haccepted : w.branches integrationBranch = some acceptedCommit)
    (hne : baseBranch ≠ lit "HEAD") (hbranch : w.branch = baseBranch) (hclean : w.Clean h) :
    reconcileRun h integrationBranch baseBranch baseCommit acceptedCommit w =
      run (sourceAnswer h) (reconcileFromHead baseCommit acceptedCommit) w := by
  have hanswer : sourceAnswer h (.source .branch) w = (.ok baseBranch, w) := by
    rw [← hbranch]
    rfl
  have hstatus : sourceAnswer h (.source .isClean) w = (.ok true, w) := by
    show (Except.ok (decide (w.Clean h)), w) = _
    rw [decide_eq_true hclean]
    rfl
  refine run_then (run_resolveBranchCommit haccepted) ?_
  refine (run_ite_neg (not_not.mpr rfl)).trans ((run_ite_neg hne).trans ?_)
  refine run_source hanswer ((run_ite_neg (not_not.mpr rfl)).trans ?_)
  exact run_source hstatus (run_ite_pos rfl)

/-- Where the accepted commit has been merged. -/
theorem run_reconcile_already (haccepted : w.branches integrationBranch = some acceptedCommit)
    (hne : baseBranch ≠ lit "HEAD") (hbranch : w.branch = baseBranch) (hclean : w.Clean h)
    (hhead : w.head? = some acceptedCommit) :
    reconcileRun h integrationBranch baseBranch baseCommit acceptedCommit w =
      (.ok (lit "applied", lit "source already at accepted commit"), w) := by
  rw [run_reconcile_checked haccepted hne hbranch hclean]
  exact run_source (answer_head hhead) (run_ite_pos rfl)

/-- Where something is in the worktree. -/
theorem run_reconcile_dirty (haccepted : w.branches integrationBranch = some acceptedCommit)
    (hne : baseBranch ≠ lit "HEAD") (hbranch : w.branch = baseBranch) (hdirty : ¬ w.Clean h) :
    reconcileRun h integrationBranch baseBranch baseCommit acceptedCommit w =
      (.ok (lit "skipped", lit "source worktree is dirty"), w) := by
  have hanswer : sourceAnswer h (.source .branch) w = (.ok baseBranch, w) := by
    rw [← hbranch]
    rfl
  have hstatus : sourceAnswer h (.source .isClean) w = (.ok false, w) := by
    show (Except.ok (decide (w.Clean h)), w) = _
    rw [decide_eq_false hdirty]
    rfl
  refine run_then (run_resolveBranchCommit haccepted) ?_
  refine (run_ite_neg (not_not.mpr rfl)).trans ((run_ite_neg hne).trans ?_)
  refine run_source hanswer ((run_ite_neg (not_not.mpr rfl)).trans ?_)
  exact run_source hstatus (run_ite_neg Bool.false_ne_true)

section Again

variable {name : Str}
  (hw : Forwarded h integrationBranch baseBranch baseCommit acceptedCommit name w w')

include hw

omit [DecidableEq T] in
/-- What a second reconciliation finds of a branch that has been brought forward. -/
theorem Forwarded.found : w'.head? = some acceptedCommit ∧
    w'.branches integrationBranch = some acceptedCommit ∧ w'.branch = baseBranch := by
  have hhead : w'.head = .branch name := hw.head.trans hw.checkedOut
  refine ⟨?_, ?_, ?_⟩
  · rw [SourceRepo.head?, hhead]
    show w'.branches name = _
    rw [hw.branches, Function.update_self]
  · rw [hw.branches]
    by_cases hsame : integrationBranch = name
    · rw [hsame, Function.update_self]
    · rw [Function.update_of_ne hsame]
      exact hw.moves.accepted
  · have hshown := hw.moves.shown
    rw [SourceRepo.branch, hw.checkedOut] at hshown
    rw [SourceRepo.branch, hhead, hw.shortName]
    exact hshown

omit [DecidableEq T] in
/-- It is clean exactly when `status` has nothing new to show. -/
theorem Forwarded.clean_iff : w'.Clean h ↔ w.Settled h acceptedCommit := by
  have hfiles : w'.files = w'.headTree h := by
    rw [SourceRepo.headTree, hw.found.1]
    exact hw.files
  rw [SourceRepo.Clean, SourceRepo.Settled, hw.files, hw.rest]
  rw [hw.files] at hfiles
  exact and_iff_right hfiles

/-- A second reconciliation says what the first did, unless `status` shows something now. -/
theorem Forwarded.again :
    reconcileRun h integrationBranch baseBranch baseCommit acceptedCommit w' =
      (if w'.Clean h then .ok (lit "applied", lit "source already at accepted commit")
        else .ok (lit "skipped", lit "source worktree is dirty"), w') := by
  obtain ⟨hcommit, haccepted, hbranch⟩ := hw.found
  by_cases hclean : w'.Clean h
  · rw [if_pos hclean]
    exact run_reconcile_already haccepted hw.moves.attached hbranch hclean hcommit
  · rw [if_neg hclean]
    exact run_reconcile_dirty haccepted hw.moves.attached hbranch hclean

end Again

/-- Where the source is brought forward, and nothing fails. -/
theorem GoesForward.run
    (hw : GoesForward h integrationBranch baseBranch baseCommit acceptedCommit w) :
    ∃ w', reconcileRun h integrationBranch baseBranch baseCommit acceptedCommit w =
        (.ok (lit "applied", lit "source fast-forwarded to accepted commit"), w') ∧
      SomeForwarded h integrationBranch baseBranch baseCommit acceptedCommit w w' := by
  have hcommit := (w.branches_named integrationBranch acceptedCommit hw.accepted).2
  have hmoved : baseCommit ≠ acceptedCommit := by
    rintro rfl
    cases hw.behind.symm.trans hw.ancestor
  have hforwarded := hw.forwarded hcommit
  obtain ⟨name, hname⟩ := hforwarded
  have hmerge : sourceAnswer h (.source (.fastForward acceptedCommit)) w =
      (.ok (), w.forward h acceptedCommit hcommit) := by
    simp only [sourceAnswer, hw.base, dif_pos hcommit]
    exact if_pos ⟨hw.clean, hw.ancestor⟩
  have hanswer : sourceAnswer h (.source (.isAncestor acceptedCommit baseCommit)) w =
      (.ok false, w) := by
    rw [← hw.behind]
    rfl
  refine ⟨w.forward h acceptedCommit hcommit, ?_, name, hname⟩
  rw [run_reconcile_checked hw.accepted hw.attached hw.shown hw.clean]
  refine run_source (answer_head hw.base) ((run_ite_neg hmoved).trans ?_)
  refine run_source hanswer ((run_ite_neg Bool.false_ne_true).trans ?_)
  refine (run_ite_neg (not_not.mpr rfl)).trans (run_then (run_perform.trans hmerge) ?_)
  exact run_source (answer_head hname.found.1) (run_ite_neg (not_not.mpr rfl))

/-- Where the source has the accepted commit already. -/
theorem run_reconcile_contained (haccepted : w.branches integrationBranch = some acceptedCommit)
    (hne : baseBranch ≠ lit "HEAD") (hbranch : w.branch = baseBranch) (hclean : w.Clean h)
    {current : Str} (hhead : w.head? = some current) (hmoved : current ≠ acceptedCommit)
    (hcontained : h.isAncestor acceptedCommit current = true) :
    reconcileRun h integrationBranch baseBranch baseCommit acceptedCommit w =
      (.ok (lit "applied", lit "source already contains accepted commit"), w) := by
  have hanswer : sourceAnswer h (.source (.isAncestor acceptedCommit current)) w =
      (.ok true, w) := by
    rw [← hcontained]
    rfl
  rw [run_reconcile_checked haccepted hne hbranch hclean]
  refine run_source (answer_head hhead) ((run_ite_neg hmoved).trans ?_)
  exact run_source hanswer (run_ite_pos rfl)

/-- On a branch whose commit is the base commit, with nothing else in the worktree. -/
theorem reconcile_applies (haccepted : w.branches integrationBranch = some acceptedCommit)
    (hne : baseBranch ≠ lit "HEAD") (hbranch : w.branch = baseBranch) (hclean : w.Clean h)
    (hbase : w.head? = some baseCommit)
    (hancestor : h.isAncestor baseCommit acceptedCommit = true) :
    ∃ reason w', reconcileRun h integrationBranch baseBranch baseCommit acceptedCommit w =
      (.ok (lit "applied", reason), w') := by
  by_cases hmoved : baseCommit = acceptedCommit
  · rw [hmoved] at hbase
    exact ⟨_, w, run_reconcile_already haccepted hne hbranch hclean hbase⟩
  cases hcontained : h.isAncestor acceptedCommit baseCommit with
  | true =>
    exact ⟨_, w, run_reconcile_contained haccepted hne hbranch hclean hbase hmoved hcontained⟩
  | false =>
    have hmoves : GoesForward h integrationBranch baseBranch baseCommit acceptedCommit w :=
      ⟨hne, hbranch, hclean, haccepted, hbase, hcontained, hancestor⟩
    obtain ⟨w', hrun, -⟩ := hmoves.run
    exact ⟨_, w', hrun⟩

omit [DecidableEq T] in
theorem unmoved_start : Unmoved w (w, []) :=
  ⟨rfl, fun ⟨_, hmem, _⟩ => absurd hmem List.not_mem_nil⟩

/-- What is ensured of the reconciliation holds where no command fails. -/
theorem reconcileRun_ensured {Change : SourceRepo valid T U → Prop}
    (hensured : Ensures (faulty h).traced (fun _ _ => True)
      (reconcileFastForwardSource integrationBranch baseBranch baseCommit acceptedCommit)
      (Reconciled Change w) (w, [])) :
    ∃ calls, Reconciled Change w
      (reconcileRun h integrationBranch baseBranch baseCommit acceptedCommit w).1
      ((reconcileRun h integrationBranch baseBranch baseCommit acceptedCommit w).2, calls) :=
  hensured.traced_run fun _ _ => Or.inl ⟨rfl, rfl⟩

omit [DecidableEq T] in
/-- The source that is brought forward is another one. -/
theorem Forwarded.ne {name : Str}
    (hw : Forwarded h integrationBranch baseBranch baseCommit acceptedCommit name w w') :
    w' ≠ w := by
  rintro rfl
  have hsame : acceptedCommit = baseCommit :=
    Option.some.inj (hw.found.1.symm.trans hw.moves.base)
  have hrefl := (h.isAncestor_iff baseCommit baseCommit).mpr .refl
  have hbehind := hw.moves.behind
  rw [hsame, hrefl] at hbehind
  cases hbehind

/-- The base branch is the one that is brought forward exactly when it is the one that is
checked out, wherever one is. -/
theorem guarded_iff :
    Guarded h integrationBranch baseBranch baseCommit acceptedCommit w ↔
      (GoesForward h integrationBranch baseBranch baseCommit acceptedCommit w →
        w.head = .branch baseBranch) := by
  constructor
  · intro hguarded hmoves
    obtain ⟨w', hrun, name, hforwarded⟩ := hmoves.run
    obtain ⟨calls, hreconciled⟩ := reconcileRun_ensured hguarded
    rw [hrun] at hreconciled
    exact (hreconciled.change.resolve_left hforwarded.ne).checkedOut
  · intro hbase
    have hchanges : Ensures (faulty h).traced (fun _ _ => True)
        (reconcileFastForwardSource integrationBranch baseBranch baseCommit acceptedCommit)
        (Reconciled (SomeForwarded h integrationBranch baseBranch baseCommit acceptedCommit w) w)
        (w, []) := reconcile_changes unmoved_start
    refine hchanges.imp fun r c hreconciled => ⟨?_, hreconciled.skipped, hreconciled.unmerged⟩
    refine hreconciled.change.imp id ?_
    rintro ⟨name, hforwarded⟩
    have hhead := hbase hforwarded.moves
    rw [hforwarded.checkedOut] at hhead
    cases hhead
    exact hforwarded

/-- A second reconciliation, right after the first, repeats it exactly when a source that the
first has brought forward is clean still. -/
theorem repeats_iff :
    Repeats h integrationBranch baseBranch baseCommit acceptedCommit w ↔
      (GoesForward h integrationBranch baseBranch baseCommit acceptedCommit w →
        w.Settled h acceptedCommit) := by
  constructor
  · intro hrepeats hmoves
    obtain ⟨w', hrun, name, hforwarded⟩ := hmoves.run
    obtain ⟨r', hrun', hsame⟩ := hrepeats _ _ hrun
    rw [← hforwarded.clean_iff]
    by_contra hdirty
    rw [hforwarded.again, if_neg hdirty] at hrun'
    cases hrun'
    exact absurd (Except.ok.inj hsame) (by decide)
  · intro hsettled r w' hrun
    obtain ⟨calls, hreconciled⟩ :=
      reconcileRun_ensured (h := h) (w := w) (reconcile_changes unmoved_start)
    rw [hrun] at hreconciled
    rcases hreconciled.change with hsame | ⟨name, hforwarded⟩
    · have hkept : w' = w := hsame
      rw [hkept] at hrun ⊢
      exact ⟨r, hrun, rfl⟩
    · have hforwarded :
            Forwarded h integrationBranch baseBranch baseCommit acceptedCommit name w w' :=
        hforwarded
      obtain ⟨w₁, happlied, -⟩ := hforwarded.moves.run
      have hclean := hforwarded.clean_iff.mpr (hsettled hforwarded.moves)
      refine ⟨_, hforwarded.again, ?_⟩
      have hr : r = .ok (lit "applied", lit "source fast-forwarded to accepted commit") :=
        congrArg Prod.fst (hrun.symm.trans happlied)
      rw [if_pos hclean, hr]
      rfl

/-- `fast_forward_source` comes to the reconciliation with the commit of the branch. -/
theorem run_fastForwardSource {outcome reason : Str}
    (haccepted : w.branches integrationBranch = some acceptedCommit)
    (hrun : reconcileRun h integrationBranch baseBranch baseCommit acceptedCommit w =
      (.ok (outcome, reason), w')) :
    run (sourceAnswer h) (fastForwardSource integrationBranch baseBranch baseCommit) w =
      (if outcome = lit "applied" then .ok () else
        .error (.gitError (lit "automatic apply refused: " ++ reason)), w') := by
  refine run_then (run_resolveBranchCommit haccepted) (run_then hrun ?_)
  by_cases happlied : outcome = lit "applied"
  · rw [if_pos happlied]
    exact run_ite_neg (not_not.mpr happlied)
  · rw [if_neg happlied]
    exact run_ite_pos happlied

/-- What the predicate has checked. -/
theorem canFastForwardSource_true {reason : Str}
    (hcan : (run (sourceAnswer h) (canFastForwardSource baseBranch baseCommit) w).1 =
      .ok (true, reason)) :
    baseBranch ≠ lit "HEAD" ∧ w.branch = baseBranch ∧ w.Clean h ∧ w.head? = some baseCommit := by
  -- what the run comes to along a branch of the code
  have hout : ∀ {r : Except Raised (Bool × Str) × SourceRepo valid T U},
      run (sourceAnswer h) (canFastForwardSource baseBranch baseCommit) w = r →
        r.1 = .ok (true, reason) := by
    rintro r rfl
    exact hcan
  unfold canFastForwardSource at hout
  have hcurrent : sourceAnswer h (.source .branch) w = (.ok w.branch, w) := rfl
  have hstatus : sourceAnswer h (.source .isClean) w = (.ok (decide (w.Clean h)), w) := rfl
  -- each branch but the last returns a reason that is not the accepted one
  by_cases hne : baseBranch = lit "HEAD"
  · cases hout (run_ite_pos hne)
  by_cases hbranch : w.branch = baseBranch
  swap
  · cases hout ((run_ite_neg hne).trans (run_source hcurrent (run_ite_pos hbranch)))
  by_cases hclean : w.Clean h
  swap
  · rw [decide_eq_false hclean] at hstatus
    cases hout ((run_ite_neg hne).trans (run_source hcurrent
      ((run_ite_neg (not_not.mpr hbranch)).trans (run_source hstatus
        (run_ite_neg Bool.false_ne_true)))))
  rw [decide_eq_true hclean] at hstatus
  refine ⟨hne, hbranch, hclean, ?_⟩
  -- the head is read, or the repository has none
  cases hhead : w.head? with
  | none =>
    have hanswer : sourceAnswer h (.source .head) w = (exitError, w) := by
      simp only [sourceAnswer, hhead]
      rfl
    cases hout ((run_ite_neg hne).trans (run_source hcurrent
      ((run_ite_neg (not_not.mpr hbranch)).trans (run_source hstatus
        ((run_ite_pos rfl).trans (run_bind_error (run_perform.trans hanswer)))))))
  | some current =>
    -- it is the commit the job started from, or the source has moved
    by_cases hsame : current = baseCommit
    · rw [hsame]
    · cases hout ((run_ite_neg hne).trans (run_source hcurrent
        ((run_ite_neg (not_not.mpr hbranch)).trans (run_source hstatus
          ((run_ite_pos rfl).trans (run_source (answer_head hhead) (run_ite_pos hsame)))))))

end Answers

/-- The reconciliation touches no branch but the base branch exactly when the branch that it
brings forward has the name that is shown of it; it can be repeated exactly when a source that
it brings forward stays clean; and it applies what the predicate allows. -/
theorem source_reconciliation {valid : Str → Bool} {T U : Type} [DecidableEq T]
    (h : SourceHistory T U) (integrationBranch baseBranch baseCommit acceptedCommit : Str)
    (w : SourceRepo valid T U) :
    (Guarded h integrationBranch baseBranch baseCommit acceptedCommit w ↔
      (GoesForward h integrationBranch baseBranch baseCommit acceptedCommit w →
        w.head = .branch baseBranch)) ∧
    (Repeats h integrationBranch baseBranch baseCommit acceptedCommit w ↔
      (GoesForward h integrationBranch baseBranch baseCommit acceptedCommit w →
        w.Settled h acceptedCommit)) ∧
    Agrees h integrationBranch baseBranch baseCommit acceptedCommit w := by
  refine ⟨guarded_iff, repeats_iff, ?_⟩
  intro reason hcan haccepted hancestor
  obtain ⟨hne, hbranch, hclean, hbase⟩ := canFastForwardSource_true hcan
  exact reconcile_applies haccepted hne hbranch hclean hbase hancestor

/-! ## A repository -/

/-- Two commits, one after the other; the files of the second ignore `*.log`, those of the
first `build/`. -/
def twoCommits : SourceHistory Nat Str where
  parents commit := if commit = lit "b" then [lit "a"] else []
  tree commit := if commit = lit "b" then 2 else 1
  empty := 0
  isAncestor x y := decide (x = y ∨ x = lit "a" ∧ y = lit "b")
  isAncestor_iff x y := by
    rw [decide_eq_true_iff]
    constructor
    · rintro (rfl | ⟨rfl, rfl⟩)
      · exact .refl
      · exact .single (List.mem_singleton_self _)
    · intro hpath
      induction hpath with
      | refl => exact Or.inl rfl
      | @tail y z hbefore hlast ih =>
        split at hlast
        · rename_i hz
          obtain rfl := List.mem_singleton.mp hlast
          rcases ih with rfl | ⟨rfl, hother⟩
          · exact Or.inr ⟨rfl, hz⟩
          · exact Or.inr ⟨rfl, hz⟩
        · exact absurd hlast List.not_mem_nil
  roundTrips _ := true
  shows files path := if files = 2 then ¬ lit ".log" <:+ path else ¬ lit "build/" <+: path
  keeps _ _ := true

/-- The source at the first commit, and a candidate at the second. -/
def smallSource (rest : List Str) : SourceRepo (fun _ => true) Nat Str where
  branches name :=
    if name = lit "main" then some (lit "a")
    else if name = lit "yolo" then some (lit "b")
    else none
  head := .branch (lit "main")
  files := 1
  rest := rest
  shortName := id
  branches_named := by
    intro name commit hcommit
    split at hcommit
    · cases hcommit
      exact ⟨rfl, by decide⟩
    · split at hcommit
      · cases hcommit
        exact ⟨rfl, by decide⟩
      · cases hcommit
  head_named _ _ := rfl

/-- A log of a build is ignored before and after: the source is brought forward, and a second
reconciliation finds it so. -/
theorem small_source_applied :
    Guarded twoCommits (lit "yolo") (lit "main") (lit "a") (lit "b")
        (smallSource [lit "build/make.log"]) ∧
      Repeats twoCommits (lit "yolo") (lit "main") (lit "a") (lit "b")
        (smallSource [lit "build/make.log"]) ∧
      ∃ reason w', reconcileRun twoCommits (lit "yolo") (lit "main") (lit "a") (lit "b")
        (smallSource [lit "build/make.log"]) = (.ok (lit "applied", reason), w') := by
  obtain ⟨hguarded, hrepeats, hagrees⟩ := source_reconciliation twoCommits (lit "yolo")
    (lit "main") (lit "a") (lit "b") (smallSource [lit "build/make.log"])
  exact ⟨hguarded.mpr fun _ => rfl, hrepeats.mpr fun _ => ⟨rfl, by decide⟩,
    hagrees (lit "ok") rfl rfl rfl⟩

/-- The commit that comes does not ignore what has been built: the first reconciliation has
applied it, and the second one says that it is skipped. -/
theorem built_source_not_repeated :
    ¬ (Guarded twoCommits (lit "yolo") (lit "main") (lit "a") (lit "b")
        (smallSource [lit "build/parser.o"]) ∧
      Repeats twoCommits (lit "yolo") (lit "main") (lit "a") (lit "b")
        (smallSource [lit "build/parser.o"]) ∧
      Agrees twoCommits (lit "yolo") (lit "main") (lit "a") (lit "b")
        (smallSource [lit "build/parser.o"])) := by
  rintro ⟨-, hrepeats, -⟩
  obtain ⟨r, hrun, hsame⟩ := hrepeats _ _ rfl
  have hskipped : outcomeOf r = .ok (lit "skipped") :=
    congrArg (fun result => outcomeOf result.1) hrun.symm
  have happlied : outcomeOf r = .ok (lit "applied") := hsame
  exact absurd (Except.ok.inj (hskipped.symm.trans happlied)) (by decide)

end OmarchyYolo
