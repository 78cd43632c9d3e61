import OmarchyYolo.CandidateRows

/-!
# OmarchyYolo.PublishedBranch — the branch of a published candidate

Agents may do anything in the worktree of a candidate: detach its `HEAD`, switch
it to another branch, commit there. Acceptance journals the commit of that `HEAD`;
what is published of the candidate is the name of a branch. The way that applies
the source reads the branch again, the other way does not.

* `Candidate` — the database, and the refs of the repository;
* `RunnerAnswers` — what a call of a runner does to both;
* `publication` — runs, crashes and restarts of the runners of one job;
* `Candidate.Kept` — the invariant; `JobEffect.Guarded` — what a call needs to keep it;
* `runJob_guarded` — a runner makes its calls only where they keep it;
* `published_branch_is_accepted` — the published branch, in the runs that accept at the tip.
-/

namespace OmarchyYolo

open Py PyJson Calls Sql Txn Lts

/-! ## Refs -/

/-- The branches of the repository, with their commits, and the `HEAD`s of the worktrees. -/
structure Refs where
  branches : Str → Option Str
  heads : Str → Head

/-- The commit that the `HEAD` of the worktree is at. -/
def Refs.head? (refs : Refs) (path : Str) : Option Str :=
  match refs.heads path with
  | .branch name => refs.branches name
  | .detached commit => some commit

/-- The database and the repository. -/
structure Candidate where
  store : Store
  refs : Refs
  /-- Whether coroutines of tasks may be at work in worktrees. -/
  tasksAtWork : Bool := false

/-! ## Calls -/

def TopologyCommand.writes : TopologyCommand → Bool
  | .addNewBranch _ _ _ | .addWorktree _ _ | .prune | .createBranch _ _ | .removeWorktree _
  | .deleteBranch _ => true
  | _ => false

/-- During the call, an agent, a gate, a reviewer or Git may change a worktree. -/
def JobEffect.atWork : JobEffect → Bool
  | .task (.runAgent _ _ _ _) | .task (.runGates _ _ _) | .task (.reviewTask _ _ _ _ _ _ _) => true
  | .task (.git _ command) => command.writes
  | .task (.topology command) => command.writes
  | .plan _ _ _ _ | .finalReview _ _ _ _ | .executeDag _ _ | .removeTree _ => true
  | _ => false

/-- How a call may move the refs; no other actor moves them. -/
def RefsMove (e : JobEffect) (w : Candidate) (refs' : Refs) : Prop :=
  w.tasksAtWork = false →
    match e with
    | .source (.fastForward commit) =>
      ∀ name, refs'.branches name = w.refs.branches name ∨ refs'.branches name = some commit
    | e => e.atWork = false → refs' = w.refs

/-- The task graph returns when its tasks have been completed; where it raises, some may still
be at work, until they are cancelled. -/
def TasksMove (e : JobEffect) (r : Except Raised e.Reply) (before after : Bool) : Prop :=
  match e, r with
  | .executeDag _ _, .ok _ => after = false
  | .executeDag _ _, .error _ => True
  | .cancelActive, _ => before = false → after = false
  | _, _ => after = before

/-- What a reply says of the refs. -/
def ReadsRefs (e : JobEffect) (r : Except Raised e.Reply) (refs : Refs) : Prop :=
  match e, r with
  | .task (.git path .head), .ok commit => refs.head? path = some commit
  | .source (.resolveBranch name), .ok commit => refs.branches name = some commit
  | _, _ => True

/-- What a call of a runner of the job does, beside the others who use the database. -/
structure RunnerAnswers (F : Type) [PyFloat F] (sha256 : Str → Str) (jobId : Text)
    (e : JobEffect) (w : Candidate) (r : Except Raised e.Reply) (w' : Candidate) : Prop where
  store : ∃ s, w.store.Others F sha256 jobId s ∧ AnswersJob sha256 e s r w'.store
  refs : RefsMove e w w'.refs
  tasks : TasksMove e r w.tasksAtWork w'.tasksAtWork
  reads : ReadsRefs e r w'.refs

/-! ## Runs -/

/-- The acceptance of the job has been journaled, and is not published. -/
def Candidate.Journaled (w : Candidate) (jobId : Text) : Prop :=
  ∃ j ∈ w.store.jobs, j.id = jobId ∧ j.acceptancePhase ∈ journaledPhases

inductive PublicationStep where
  /-- The runner goes on with the reply to its call. -/
  | call (reply : Reply JobEffect JobEffect.Reply Raised)
  /-- A new runner; the one before, if there is one, has crashed. -/
  | start (cfg : JobConfig)

/-- The runners of a job, one after another, from an empty database and any repository. What
happens between two of them to a candidate that is not journaled is left open. -/
def publication (F : Type) [PyFloat F] (sha256 : Str → Str) (jobId : Text) :
    System (JobCoroutine Unit × Candidate) PublicationStep where
  init c := c.1 = .ret () ∧ c.2.store = Store.empty
  step c l c' :=
    match l with
    | .call reply => ∃ next, c.1 = .call reply.1 next ∧
        RunnerAnswers F sha256 jobId reply.1 c.2 reply.2 c'.2 ∧ c'.1 = next reply.2
    | .start cfg => c'.1 = runJob cfg jobId ∧ c.2.store.Others F sha256 jobId c'.2.store ∧
        c'.2.tasksAtWork = false ∧ (c.2.Journaled jobId → c'.2.refs = c.2.refs)

/-- The call journals no acceptance, or one that is to be applied to the source, or that of a
candidate whose worktree is at the tip of its branch. -/
def JobEffect.AtTip (e : JobEffect) (w : Candidate) : Prop :=
  match e with
  | .prepareAcceptedJob id _ => ∀ j ∈ w.store.jobs, j.id = id → j.autoApply = true ∨
      w.refs.head? j.integrationPath.val = w.refs.branches j.integrationBranch.val
  | _ => True

/-- The step journals an acceptance at the tip only. -/
def AcceptsAtTip (c : JobCoroutine Unit × Candidate) : PublicationStep → Prop
  | .call reply => reply.1.AtTip c.2
  | .start _ => True

/-- The calls of a runner in such a run. -/
def tipHandler (F : Type) [PyFloat F] (sha256 : Str → Str) (jobId : Text) :
    Handler JobEffect JobEffect.Reply Raised Candidate :=
  fun e w r w' => RunnerAnswers F sha256 jobId e w r w' ∧ e.AtTip w

/-! ## The invariant -/

/-- A journaled acceptance that is not to be applied is the tip of the branch. -/
structure Candidate.Kept (sha256 : Str → Str) (jobId : Text) (w : Candidate) : Prop where
  store : w.store.Sound sha256
  idle : ∀ j ∈ w.store.jobs, j.id = jobId → j.acceptancePhase ∈ journaledPhases →
    w.tasksAtWork = false
  tip : ∀ j ∈ w.store.jobs, j.id = jobId → j.acceptancePhase ∈ journaledPhases →
    j.sourceApplyIntent = .notRequested →
      w.refs.branches j.integrationBranch.val = some j.acceptedCommit.val

/-- No acceptance is journaled that has not been published. -/
structure Candidate.Open (sha256 : Str → Str) (jobId : Text) (w : Candidate) : Prop where
  store : w.store.Sound sha256
  phase : ∀ j ∈ w.store.jobs, j.id = jobId → j.acceptancePhase ∉ journaledPhases

/-- What a call of a runner needs. -/
def JobEffect.Guarded (sha256 : Str → Str) (jobId : Text) (e : JobEffect) (w : Candidate) : Prop :=
  w.Kept sha256 jobId ∧
    match e with
    | .prepareAcceptedJob id args => id = jobId ∧ w.Open sha256 jobId ∧ w.tasksAtWork = false ∧
        ∃ j ∈ w.store.jobs, j.id = jobId ∧ args.sourceApplyIntent = applyIntent j ∧
          w.refs.head? j.integrationPath.val = some args.acceptedCommit
    | .markApplyStarted id _ => id = jobId
    | .publishCompletedJob id _ => id = jobId ∧
        ∀ j ∈ w.store.jobs, j.id = jobId → j.acceptancePhase ∈ journaledPhases →
          w.refs.branches j.integrationBranch.val = some j.acceptedCommit.val
    | .source (.fastForward commit) =>
        ∀ j ∈ w.store.jobs, j.id = jobId → j.acceptancePhase ∈ journaledPhases →
          j.acceptedCommit.val = commit
    | e => e.atWork = true → w.Open sha256 jobId

section Step

variable {F : Type} [PyFloat F] {sha256 : Str → Str} {jobId : Text} {w w' : Candidate}

theorem Candidate.Open.kept (h : w.Open sha256 jobId) : w.Kept sha256 jobId where
  store := h.store
  idle j hj hid hphase := absurd hphase (h.phase j hj hid)
  tip j hj hid hphase := absurd hphase (h.phase j hj hid)

/-- The phase `none` is not journaled. -/
theorem none_not_journaled {j : JobRow} (h : j.acceptancePhase = .none) :
    j.acceptancePhase ∉ journaledPhases := by
  rw [h]
  decide

theorem Candidate.Open.moves {edge : JobRow → JobRow → Prop} [CandidateEdge edge]
    (h : w.Open sha256 jobId) (hsound : w'.store.Sound sha256)
    (hmoves : w.store.JobMoves jobId edge w'.store) : w'.Open sha256 jobId where
  store := hsound
  phase j' hj' hid' := by
    rcases hmoves.backward j' hj' hid' with ⟨j, hj, hid, hedge⟩ | hnone
    · rw [(CandidateEdge.standing hedge).acceptancePhase]
      exact h.phase j hj hid
    · exact none_not_journaled hnone

/-- Where the candidate moves so, an acceptance that is journaled has been before. -/
theorem journaled_backward {s s' : Store} {edge : JobRow → JobRow → Prop} [CandidateEdge edge]
    (hmoves : s.JobMoves jobId edge s') {j' : JobRow} (hj' : j' ∈ s'.jobs) (hid' : j'.id = jobId)
    (hphase' : j'.acceptancePhase ∈ journaledPhases) :
    ∃ j ∈ s.jobs, j.id = jobId ∧ j.acceptancePhase ∈ journaledPhases ∧ edge j j' := by
  rcases hmoves.backward j' hj' hid' with ⟨j, hj, hid, hedge⟩ | hnone
  · rw [(CandidateEdge.standing hedge).acceptancePhase] at hphase'
    exact ⟨j, hj, hid, hphase', hedge⟩
  · exact absurd hphase' (none_not_journaled hnone)

/-- The invariant is kept, when the row of the job moves so, and nothing else does where its
acceptance is journaled. -/
theorem Candidate.Kept.moves {edge : JobRow → JobRow → Prop} [CandidateEdge edge]
    (h : w.Kept sha256 jobId) (hsound : w'.store.Sound sha256)
    (hmoves : w.store.JobMoves jobId edge w'.store)
    (hsame : w.Journaled jobId → w'.refs = w.refs ∧ w'.tasksAtWork = w.tasksAtWork) :
    w'.Kept sha256 jobId := by
  refine ⟨hsound, fun j' hj' hid' hphase' => ?_, fun j' hj' hid' hphase' hintent => ?_⟩
  · obtain ⟨j, hj, hid, hphase, -⟩ := journaled_backward hmoves hj' hid' hphase'
    rw [(hsame ⟨j, hj, hid, hphase⟩).2]
    exact h.idle j hj hid hphase
  · obtain ⟨j, hj, hid, hphase, hedge⟩ := journaled_backward hmoves hj' hid' hphase'
    have hstanding := CandidateEdge.standing hedge
    rw [(hsame ⟨j, hj, hid, hphase⟩).1, hstanding.integrationBranch, hstanding.acceptedCommit]
    exact h.tip j hj hid hphase (hstanding.sourceApplyIntent.symm.trans hintent)

/-! ## One call -/

/-- The calls that go on with an acceptance. -/
def JobEffect.journals : JobEffect → Bool
  | .prepareAcceptedJob _ _ | .markApplyStarted _ _ | .publishCompletedJob _ _ => true
  | _ => false

variable {e : JobEffect} {r : Except Raised e.Reply}

theorem RunnerAnswers.sound (h : RunnerAnswers F sha256 jobId e w r w')
    (hs : w.store.Sound sha256) : w'.store.Sound sha256 := by
  obtain ⟨s, hothers, hanswer⟩ := h.store
  exact answersJob_sound (hothers.sound hs) hanswer

/-- Most calls leave the candidate alone. -/
theorem RunnerAnswers.keepsCandidate (h : RunnerAnswers F sha256 jobId e w r w')
    (he : e.accepts = false) : w.store.JobMoves jobId JobRow.SameCandidate w'.store := by
  obtain ⟨s, hothers, hanswer⟩ := h.store
  exact trans_of (Store.JobMoves jobId JobRow.SameCandidate) hothers.keepsCandidate
    (answersJob_keepsCandidate hanswer he)

/-- So does any call that raises. -/
theorem RunnerAnswers.error {x : Raised} (h : RunnerAnswers F sha256 jobId e w (.error x) w') :
    w.store.JobMoves jobId JobRow.SameCandidate w'.store := by
  obtain ⟨s, hothers, hanswer⟩ := h.store
  rw [answersJob_error hanswer]
  exact hothers.keepsCandidate

/-- And its standing stays, whatever the call, if it is not about the acceptance. -/
theorem RunnerAnswers.standing (h : RunnerAnswers F sha256 jobId e w r w')
    (he : e.journals = false) : w.store.JobMoves jobId JobRow.SameStanding w'.store := by
  cases e with
  | updateJob id fields =>
    obtain ⟨s, hothers, hanswer⟩ := h.store
    exact trans_of (Store.JobMoves jobId JobRow.SameStanding) hothers.keepsCandidate.standing
      (answersJob_updateJob hanswer)
  | prepareAcceptedJob | markApplyStarted | publishCompletedJob => cases he
  | _ => exact (h.keepsCandidate rfl).standing

/-- A call that is not at work in a worktree, beside no task that is, leaves the refs alone. -/
theorem RunnerAnswers.still (h : RunnerAnswers F sha256 jobId e w r w')
    (hwork : e.atWork = false) (hidle : w.tasksAtWork = false)
    (hforward : ∀ commit, e ≠ .source (.fastForward commit)) :
    w'.refs = w.refs ∧ w'.tasksAtWork = w.tasksAtWork := by
  have hrefs := h.refs hidle
  have htasks := h.tasks
  cases e with
  | executeDag => cases hwork
  | cancelActive =>
    refine ⟨hrefs rfl, ?_⟩
    rw [hidle]
    exact htasks hidle
  | source command =>
    cases command with
    | fastForward commit => exact absurd rfl (hforward commit)
    | _ => exact ⟨hrefs rfl, htasks⟩
  | _ => exact ⟨hrefs hwork, htasks⟩

/-- An acceptance at the tip of the branch. -/
theorem kept_prepared {id : Text} {args : Acceptance}
    (h : (JobEffect.prepareAcceptedJob id args).Guarded sha256 jobId w)
    (hanswer : RunnerAnswers F sha256 jobId (.prepareAcceptedJob id args) w (.ok ()) w')
    (htip : (JobEffect.prepareAcceptedJob id args).AtTip w) : w'.Kept sha256 jobId := by
  obtain ⟨hkept, rfl, hopen, hidle, j₀, hj₀, hid₀, hintended, hhead⟩ := h
  obtain ⟨s, hothers, hprepare⟩ := hanswer.store
  have hmoves := hothers.keepsCandidate
  have hbefore : ∀ j ∈ s.jobs, j.id = id → j.acceptancePhase ∉ journaledPhases := by
    intro j hj hid hphase
    obtain ⟨j₁, hj₁, hid₁, hphase₁, -⟩ := journaled_backward hmoves hj hid hphase
    exact hopen.phase j₁ hj₁ hid₁ hphase₁
  obtain ⟨hrefs, htasks⟩ := hanswer.still rfl hidle nofun
  refine ⟨hanswer.sound hkept.store, fun _ _ _ _ => htasks.trans hidle, ?_⟩
  intro j' hj' hid' _ hintent
  obtain ⟨j, hj, hid, hbranch, hcommit, -, hargs⟩ :=
    answersJob_prepared hprepare hbefore j' hj' hid'
  -- the row that the runner has read is the one that is written
  obtain ⟨j₁, hj₁, hid₁, hsame⟩ := hmoves.forward j₀ hj₀ hid₀
  obtain rfl : j = j₁ := Store.eq_of_id hj hj₁ (hid.trans hid₁.symm)
  rcases htip j₀ hj₀ hid₀ with hauto | hattip
  · -- the source is to be changed
    rw [hintended, applyIntent, if_pos hauto, hintent] at hargs
    exact absurd hargs (by decide)
  · rw [hrefs, hbranch, hsame.standing.integrationBranch, ← hattip, hhead, hcommit]

/-- An acceptance that is taken up. -/
theorem kept_applying {id : Text} {acceptedCommit : Str}
    (h : (JobEffect.markApplyStarted id acceptedCommit).Guarded sha256 jobId w)
    (hanswer : RunnerAnswers F sha256 jobId (.markApplyStarted id acceptedCommit) w (.ok ()) w') :
    w'.Kept sha256 jobId := by
  obtain ⟨hkept, rfl⟩ := h
  obtain ⟨s, hothers, hmark⟩ := hanswer.store
  have hrows := answersJob_applying hmark
  refine ⟨hanswer.sound hkept.store, fun j' hj' hid' _ => ?_, fun j' hj' hid' _ hintent => ?_⟩
  · obtain ⟨j, hj, hid, -, -, hphase, -⟩ := hrows j' hj' hid'
    obtain ⟨j₀, hj₀, hid₀, hphase₀, -⟩ := journaled_backward hothers.keepsCandidate hj hid hphase
    have hidle := hkept.idle j₀ hj₀ hid₀ hphase₀
    exact (hanswer.still rfl hidle nofun).2.trans hidle
  · obtain ⟨-, -, -, -, -, -, -, hrequested⟩ := hrows j' hj' hid'
    rw [hrequested] at hintent
    cases hintent

/-- A publication. -/
theorem open_published {id : Text} {args : Publication}
    (h : (JobEffect.publishCompletedJob id args).Guarded sha256 jobId w)
    (hanswer : RunnerAnswers F sha256 jobId (.publishCompletedJob id args) w (.ok ()) w') :
    w'.Open sha256 jobId := by
  obtain ⟨hkept, rfl, -⟩ := h
  obtain ⟨s, hothers, hpublish⟩ := hanswer.store
  refine ⟨hanswer.sound hkept.store, fun j' hj' hid' => ?_⟩
  rw [(answersJob_published hpublish j' hj' hid').1]
  decide

/-- The source is moved to the commit that has been accepted. -/
theorem kept_forward {commit : Str} {r : Except Raised Unit}
    (h : (JobEffect.source (.fastForward commit)).Guarded sha256 jobId w)
    (hanswer : RunnerAnswers F sha256 jobId (.source (.fastForward commit)) w r w') :
    w'.Kept sha256 jobId := by
  obtain ⟨hkept, hcommit⟩ := h
  have hmoves := hanswer.keepsCandidate rfl
  refine ⟨hanswer.sound hkept.store, fun j' hj' hid' hphase' => ?_,
    fun j' hj' hid' hphase' hintent => ?_⟩
  · obtain ⟨j, hj, hid, hphase, -⟩ := journaled_backward hmoves hj' hid' hphase'
    have htasks : w'.tasksAtWork = w.tasksAtWork := hanswer.tasks
    exact htasks.trans (hkept.idle j hj hid hphase)
  · obtain ⟨j, hj, hid, hphase, hsame⟩ := journaled_backward hmoves hj' hid' hphase'
    have hstanding := hsame.standing
    rw [hstanding.integrationBranch, hstanding.acceptedCommit]
    rcases hanswer.refs (hkept.idle j hj hid hphase) j.integrationBranch.val with hstays | hmoved
    · rw [hstays]
      exact hkept.tip j hj hid hphase (hstanding.sourceApplyIntent.symm.trans hintent)
    · rw [hmoved, hcommit j hj hid hphase]

/-- A guarded call keeps the invariant. -/
theorem JobEffect.Guarded.keeps (h : e.Guarded sha256 jobId w)
    (hanswer : RunnerAnswers F sha256 jobId e w r w') (htip : e.AtTip w) :
    w'.Kept sha256 jobId := by
  have hkept := h.1
  have hsound := hanswer.sound hkept.store
  -- a call that is not at work in a worktree leaves the branches to the job
  have hquiet : (∀ commit, e ≠ .source (.fastForward commit)) → w.Journaled jobId →
      e.atWork = false → w'.refs = w.refs ∧ w'.tasksAtWork = w.tasksAtWork := by
    rintro hforward ⟨j, hj, hid, hphase⟩ hwork
    exact hanswer.still hwork (hkept.idle j hj hid hphase) hforward
  -- a call that is at work in a worktree is made before there is an acceptance
  have hother : (∀ commit, e ≠ .source (.fastForward commit)) → e.journals = false →
      (e.atWork = true → w.Open sha256 jobId) → w'.Kept sha256 jobId := by
    intro hforward hjournals hwork
    refine hkept.moves hsound (hanswer.standing hjournals) fun hjournaled => ?_
    refine hquiet hforward hjournaled (eq_false_of_ne_true fun hatwork => ?_)
    obtain ⟨j, hj, hid, hphase⟩ := hjournaled
    exact (hwork hatwork).phase j hj hid hphase
  -- a call that raised has rolled back
  have herror : ∀ x, r = .error x → e.journals = true → w'.Kept sha256 jobId := by
    rintro x rfl hjournals
    refine hkept.moves hsound hanswer.error fun hjournaled => hquiet ?_ hjournaled ?_
    · rintro commit rfl
      cases hjournals
    · cases e with
      | prepareAcceptedJob | markApplyStarted | publishCompletedJob => rfl
      | _ => cases hjournals
  -- by the call: the three that journal, the fast-forward, and all others
  cases e with
  | prepareAcceptedJob id args =>
    -- each of them returns, or raises
    cases r with
    | ok a => exact kept_prepared h hanswer htip
    | error x => exact herror x rfl rfl
  | markApplyStarted id acceptedCommit =>
    cases r with
    | ok a => exact kept_applying h hanswer
    | error x => exact herror x rfl rfl
  | publishCompletedJob id args =>
    cases r with
    | ok a => exact (open_published h hanswer).kept
    | error x => exact herror x rfl rfl
  | source command =>
    cases command with
    | fastForward commit => exact kept_forward h hanswer
    | _ => exact hother nofun rfl h.2
  | _ => exact hother nofun rfl h.2

end Step

/-! ## Programs -/

/-- The calls that are no part of an acceptance. -/
def JobEffect.plain : JobEffect → Bool
  | .prepareAcceptedJob _ _ | .markApplyStarted _ _ | .publishCompletedJob _ _
  | .source (.fastForward _) | .executeDag _ _ => false
  | _ => true

/-- Those of them that are not at work in a worktree. -/
def JobEffect.quiet (e : JobEffect) : Bool := e.plain && !e.atWork

/-- Those that leave the candidate alone, besides. -/
def JobEffect.reading (e : JobEffect) : Bool := e.quiet && !e.accepts

/-- The row that has been read is still that of the candidate, no task is at work, and the refs
are such. -/
structure Candidate.Reads (sha256 : Str → Str) (jobId : Text) (job : JobRow) (P : Refs → Prop)
    (w : Candidate) : Prop where
  kept : w.Kept sha256 jobId
  id : job.id = jobId
  row : ∃ j ∈ w.store.jobs, j.id = jobId ∧ job.SameCandidate j
  idle : w.tasksAtWork = false
  refs : P w.refs

/-- A result, or else the invariant. -/
def OrKept {α : Type} (sha256 : Str → Str) (jobId : Text) (Good : α → Candidate → Prop) :
    Except Raised α → Candidate → Prop
  | .ok a, w => Good a w
  | .error _, w => w.Kept sha256 jobId

section Programs

variable {F : Type} [PyFloat F] {sha256 : Str → Str} {jobId : Text} {w w' : Candidate} {α β : Type}
  {e : JobEffect} {r : Except Raised e.Reply} {p : JobCoroutine α} {job : JobRow}
  {P : Refs → Prop}

/-- The runs of a program whose calls are guarded. -/
abbrev Guards (F : Type) [PyFloat F] (sha256 : Str → Str) (jobId : Text) (p : JobCoroutine α)
    (Post : Except Raised α → Candidate → Prop) (w : Candidate) : Prop :=
  Ensures (tipHandler F sha256 jobId) (JobEffect.Guarded sha256 jobId) p Post w

theorem plain_journals (he : e.plain = true) : e.journals = false := by
  cases e with
  | prepareAcceptedJob | markApplyStarted | publishCompletedJob => cases he
  | _ => rfl

theorem plain_forward (he : e.plain = true) (commit : Str) : e ≠ .source (.fastForward commit) := by
  rintro rfl
  cases he

theorem plain_guarded (he : e.plain = true) (h : w.Kept sha256 jobId)
    (hwork : e.atWork = true → w.Open sha256 jobId) : e.Guarded sha256 jobId w := by
  refine ⟨h, ?_⟩
  cases e with
  | prepareAcceptedJob | markApplyStarted | publishCompletedJob => cases he
  | source command =>
    cases command with
    | fastForward => cases he
    | _ => exact hwork
  | _ => exact hwork

theorem quiet_plain (he : e.quiet = true) : e.plain = true ∧ e.atWork = false := by
  unfold JobEffect.quiet at he
  rw [Bool.and_eq_true, Bool.not_eq_true'] at he
  exact he

theorem quiet_guarded (he : e.quiet = true) (h : w.Kept sha256 jobId) :
    e.Guarded sha256 jobId w := by
  obtain ⟨hplain, hwork⟩ := quiet_plain he
  refine plain_guarded hplain h fun hatwork => ?_
  rw [hwork] at hatwork
  cases hatwork

/-- A plain call leaves no task at work where none is. -/
theorem plain_idle (he : e.plain = true) (h : RunnerAnswers F sha256 jobId e w r w')
    (hidle : w.tasksAtWork = false) : w'.tasksAtWork = false := by
  have htasks := h.tasks
  cases e with
  | executeDag => cases he
  | cancelActive => exact htasks hidle
  | _ => exact htasks.trans hidle

theorem plain_keepsOpen (hp : p.Makes fun e => e.plain = true)
    (h : w.Open sha256 jobId) : Guards F sha256 jobId p (fun _ w' => w'.Open sha256 jobId) w := by
  refine hp.keeps (fun e w he h => plain_guarded he h.kept fun _ => h) ?_ h
  intro e w r w' he h hanswer
  exact h.moves (hanswer.1.sound h.store) (hanswer.1.standing (plain_journals he))

theorem plain_keepsReady (hp : p.Makes fun e => e.plain = true)
    (h : w.Open sha256 jobId) (hidle : w.tasksAtWork = false) :
    Guards F sha256 jobId p (fun _ w' => w'.Open sha256 jobId ∧ w'.tasksAtWork = false) w := by
  refine hp.keeps (fun e w he (h : w.Open sha256 jobId ∧ w.tasksAtWork = false) =>
    plain_guarded he h.1.kept fun _ => h.1) ?_ ⟨h, hidle⟩
  intro e w r w' he h hanswer
  exact ⟨h.1.moves (hanswer.1.sound h.1.store) (hanswer.1.standing (plain_journals he)),
    plain_idle he hanswer.1 h.2⟩

theorem quiet_keepsKept (hp : p.Makes fun e => e.quiet = true)
    (h : w.Kept sha256 jobId) : Guards F sha256 jobId p (fun _ w' => w'.Kept sha256 jobId) w := by
  refine hp.keeps (fun e w he h => quiet_guarded he h) ?_ h
  intro e w r w' he h hanswer
  exact (quiet_guarded he h).keeps hanswer.1 hanswer.2

/-- A call that reads leaves what has been read as it is. -/
theorem Candidate.Reads.step (h : w.Reads sha256 jobId job P) (he : e.reading = true)
    (hanswer : tipHandler F sha256 jobId e w r w') :
    w'.Reads sha256 jobId job P ∧ w'.refs = w.refs := by
  unfold JobEffect.reading at he
  rw [Bool.and_eq_true, Bool.not_eq_true'] at he
  obtain ⟨hquiet, haccepts⟩ := he
  obtain ⟨hplain, hwork⟩ := quiet_plain hquiet
  obtain ⟨hrefs, htasks⟩ := hanswer.1.still hwork h.idle (plain_forward hplain)
  obtain ⟨j, hj, hid, hsame⟩ := h.row
  obtain ⟨j', hj', hid', hsame'⟩ := (hanswer.1.keepsCandidate haccepts).forward j hj hid
  have hrow : job.SameCandidate j' := trans_of JobRow.SameCandidate hsame hsame'
  refine ⟨⟨(quiet_guarded hquiet h.kept).keeps hanswer.1 hanswer.2, h.id, ⟨j', hj', hid', hrow⟩,
    htasks.trans h.idle, ?_⟩, hrefs⟩
  rw [hrefs]
  exact h.refs

theorem reading_quiet (he : e.reading = true) : e.quiet = true := by
  unfold JobEffect.reading at he
  rw [Bool.and_eq_true] at he
  exact he.1

theorem reading_keepsReads (hp : p.Makes fun e => e.reading = true)
    (h : w.Reads sha256 jobId job P) :
    Guards F sha256 jobId p (fun _ w' => w'.Reads sha256 jobId job P) w := by
  refine hp.keeps (fun e w he h => quiet_guarded (reading_quiet he) h.kept) ?_ h
  intro e w r w' he h hanswer
  exact (h.step he hanswer).1

/-! ## Acceptance -/

/-- What calls that read leave as it is. -/
structure Calm (F : Type) [PyFloat F] (sha256 : Str → Str) (jobId : Text)
    (Good : Candidate → Prop) : Prop where
  kept : ∀ w, Good w → w.Kept sha256 jobId
  step : ∀ e w r w', e.reading = true → Good w → tipHandler F sha256 jobId e w r w' → Good w'

theorem calm_kept : Calm F sha256 jobId fun w => w.Kept sha256 jobId where
  kept _ h := h
  step _ _ _ _ he h hanswer := (quiet_guarded (reading_quiet he) h).keeps hanswer.1 hanswer.2

theorem calm_open : Calm F sha256 jobId fun w => w.Open sha256 jobId where
  kept _ h := h.kept
  step _ _ _ _ he h hanswer := by
    have hplain := (quiet_plain (reading_quiet he)).1
    exact h.moves (hanswer.1.sound h.store) (hanswer.1.standing (plain_journals hplain))

theorem calm_reads : Calm F sha256 jobId fun w => w.Reads sha256 jobId job P where
  kept _ h := h.kept
  step _ _ _ _ he h hanswer := (h.step he hanswer).1

/-- A call that reads, with what it says of the refs. -/
theorem calm_perform {Good : Candidate → Prop} (hcalm : Calm F sha256 jobId Good)
    (he : e.reading = true) (h : Good w) :
    Guards F sha256 jobId (performJob e) (fun r w' => Good w' ∧ ReadsRefs e r w'.refs) w := by
  refine ensures_perform.mpr ⟨quiet_guarded (reading_quiet he) (hcalm.kept w h), ?_⟩
  exact fun r w' hanswer => ⟨hcalm.step e w r w' he h hanswer, hanswer.1.reads⟩

theorem calm_then {Good : Candidate → Prop} (hcalm : Calm F sha256 jobId Good)
    (he : e.reading = true) (h : Good w) {f : e.Reply → JobCoroutine β}
    {Post : β → Candidate → Prop}
    (hrest : ∀ a w', Good w' → Guards F sha256 jobId (f a) (OrKept sha256 jobId Post) w') :
    Guards F sha256 jobId (performJob e >>= f) (OrKept sha256 jobId Post) w :=
  (calm_perform hcalm he h).bind (fun a w' h => hrest a w' h.1) fun _ w' h => hcalm.kept w' h.1

/-- What follows a program whatever its outcome. -/
theorem calm_finally {Good : α → Candidate → Prop} (hcalm : ∀ a, Calm F sha256 jobId (Good a))
    (he : e.reading = true) (h : Guards F sha256 jobId p (OrKept sha256 jobId Good) w) :
    Guards F sha256 jobId (p.attempt >>= fun outcome => performJob e >>= fun _ => .ofExcept outcome)
      (OrKept sha256 jobId Good) w := by
  refine ensures_attempt_bind.mpr (h.mono (fun _ _ hguard => hguard) fun outcome w' hmid => ?_)
  cases outcome with
  | ok a => exact calm_then (hcalm a) he hmid fun _ w' h => ensures_ofExcept.mpr h
  | error x => exact calm_then calm_kept he hmid fun _ w' h => ensures_ofExcept.mpr h

theorem finishJobBeforeCancel_orKept {Good : α → Candidate → Prop}
    (hcalm : ∀ a, Calm F sha256 jobId (Good a))
    (h : Guards F sha256 jobId p (OrKept sha256 jobId Good) w) :
    Guards F sha256 jobId (finishJobBeforeCancel p) (OrKept sha256 jobId Good) w :=
  calm_finally (e := .task .suspend) hcalm rfl h

theorem withJobLock_orKept {lock : Lock} {Before : Candidate → Prop}
    {Good : α → Candidate → Prop} (hbefore : Calm F sha256 jobId Before)
    (hcalm : ∀ a, Calm F sha256 jobId (Good a)) (hw : Before w)
    (h : ∀ w, Before w → Guards F sha256 jobId p (OrKept sha256 jobId Good) w) :
    Guards F sha256 jobId (withJobLock lock p) (OrKept sha256 jobId Good) w :=
  calm_then (e := .task (.acquire lock)) hbefore rfl hw fun _ w' hw' =>
    calm_finally (e := .task (.release lock)) hcalm rfl (h w' hw')

/-- A part that only reads. -/
theorem reading_then {f : α → JobCoroutine β} {Post : β → Candidate → Prop}
    (hp : p.Makes fun e => e.reading = true) (h : w.Reads sha256 jobId job P)
    (hrest : ∀ a w', w'.Reads sha256 jobId job P →
      Guards F sha256 jobId (f a) (OrKept sha256 jobId Post) w') :
    Guards F sha256 jobId (p >>= f) (OrKept sha256 jobId Post) w :=
  (reading_keepsReads hp h).bind hrest fun _ _ h => h.kept

/-- The row is read. -/
theorem getJob_reads (h : w.Kept sha256 jobId) (hidle : w.tasksAtWork = false) (hP : P w.refs) :
    Guards F sha256 jobId (shared (perform (.getJob jobId)))
      (OrKept sha256 jobId fun j w' => w'.Reads sha256 jobId j P) w := by
  refine ensures_embed.mpr (ensures_perform.mpr ⟨quiet_guarded rfl h, fun r w' hanswer => ?_⟩)
  have hkept := (quiet_guarded rfl h).keeps hanswer.1 hanswer.2
  cases r with
  | error x => exact hkept
  | ok j =>
    obtain ⟨hrefs, htasks⟩ := hanswer.1.still rfl hidle nofun
    obtain ⟨s, -, x, hx, hrun⟩ := hanswer.1.store
    obtain rfl : x = getJob jobId.val := hx
    obtain ⟨hsame, id, hid, hjob⟩ := getJob_cases hrun
    obtain ⟨hmem, hown⟩ := Store.mem_of_job? hjob
    have hjobId : j.id = jobId := hown.trans (Text.ext hid)
    refine ⟨hkept, hjobId, ⟨j, ?_, hjobId, .refl j⟩, htasks.trans hidle, ?_⟩
    · rw [hsame]
      exact hmem
    · rw [hrefs]
      exact hP

/-- The row of the job, where one has been read. -/
theorem Candidate.Reads.same (h : w.Reads sha256 jobId job P) {j : JobRow} (hj : j ∈ w.store.jobs)
    (hid : j.id = jobId) : job.SameCandidate j := by
  obtain ⟨j₀, hj₀, hid₀, hsame⟩ := h.row
  rw [Store.eq_of_id hj hj₀ (hid.trans hid₀.symm)]
  exact hsame

theorem Candidate.Reads.open (h : w.Reads sha256 jobId job P)
    (hphase : job.acceptancePhase ∉ journaledPhases) : w.Open sha256 jobId where
  store := h.kept.store
  phase j hj hid := by
    rw [(h.same hj hid).standing.acceptancePhase]
    exact hphase

/-! ## Changing the source -/

theorem shared_reads {q : Coroutine α} (h : q.Makes fun e => (JobEffect.task e).reading = true) :
    (shared q).Makes fun e => e.reading = true := h.embed

/-- The branch of the candidate is at the commit that has been accepted. -/
def JobRow.AtCommit (job : JobRow) (refs : Refs) : Prop :=
  refs.branches job.integrationBranch.val = some job.acceptedCommit.val

theorem resolveBranchCommit_reads {branch : Str} (h : w.Reads sha256 jobId job P) :
    Guards F sha256 jobId (resolveBranchCommit branch) (OrKept sha256 jobId fun commit w' =>
      w'.Reads sha256 jobId job fun refs => refs.branches branch = some commit) w := by
  refine reading_then (shared_reads (makes_perform rfl)) h fun _ w₁ h₁ => ?_
  refine (calm_perform (e := .source (.resolveBranch branch)) calm_reads rfl h₁).bind
    (fun (commit : Str) w₂ h₂ => ?_) fun _ _ h₂ => h₂.1.kept
  have hread : w₂.refs.branches branch = some commit := h₂.2
  have hkept : w₂.Kept sha256 jobId := h₂.1.kept
  refine Ensures.ite (fun _ => hkept) fun _ => ?_
  exact ⟨hkept, h₂.1.id, h₂.1.row, h₂.1.idle, hread⟩

theorem reconcileFromHead_reads {baseCommit : Str} (h : w.Reads sha256 jobId job job.AtCommit) :
    Guards F sha256 jobId (reconcileFromHead baseCommit job.acceptedCommit.val)
      (OrKept sha256 jobId fun _ w' => w'.Reads sha256 jobId job job.AtCommit) w := by
  refine calm_then (e := .source .head) calm_reads rfl h fun (currentHead : Str) w₁ h₁ => ?_
  refine Ensures.ite (fun _ => h₁) fun _ => ?_
  refine calm_then (e := .source (.isAncestor _ currentHead)) calm_reads rfl h₁
    fun (contained : Bool) w₂ h₂ => ?_
  refine Ensures.ite (fun _ => h₂) fun _ => Ensures.ite (fun _ => h₂) fun _ => ?_
  have hguard : (JobEffect.source (.fastForward job.acceptedCommit.val)).Guarded sha256 jobId w₂ :=
    ⟨h₂.kept, fun j hj hid _ => congrArg Text.val (h₂.same hj hid).standing.acceptedCommit⟩
  -- the branch stays, or goes where it is
  have hstep : ∀ r w₃, tipHandler F sha256 jobId (.source (.fastForward job.acceptedCommit.val))
      w₂ r w₃ → w₃.Reads sha256 jobId job job.AtCommit := by
    intro r w₃ hanswer
    obtain ⟨j, hj, hid, hsame⟩ := h₂.row
    obtain ⟨j', hj', hid', hsame'⟩ := (hanswer.1.keepsCandidate rfl).forward j hj hid
    have htasks : w₃.tasksAtWork = w₂.tasksAtWork := hanswer.1.tasks
    refine ⟨hguard.keeps hanswer.1 hanswer.2, h₂.id,
      ⟨j', hj', hid', trans_of JobRow.SameCandidate hsame hsame'⟩, htasks.trans h₂.idle, ?_⟩
    rcases hanswer.1.refs h₂.idle job.integrationBranch.val with hstays | hmoved
    · exact hstays.trans h₂.refs
    · exact hmoved
  have hforward : Guards F sha256 jobId (sourceCommand (.fastForward job.acceptedCommit.val))
      (fun _ w' => w'.Reads sha256 jobId job job.AtCommit) w₂ :=
    ensures_perform.mpr ⟨hguard, hstep⟩
  refine hforward.bind (fun _ w₃ h₃ => ?_) fun _ _ h₃ => h₃.kept
  refine calm_then (e := .source .head) calm_reads rfl h₃ fun (finalHead : Str) w₄ h₄ => ?_
  exact Ensures.ite (fun _ => h₄.kept) fun _ => h₄

theorem reconcile_reads {baseBranch baseCommit : Str}
    (h : w.Reads sha256 jobId job P) :
    Guards F sha256 jobId (reconcileFastForwardSource job.integrationBranch.val baseBranch
      baseCommit job.acceptedCommit.val)
      (OrKept sha256 jobId fun _ w' => w'.Reads sha256 jobId job job.AtCommit) w := by
  refine (resolveBranchCommit_reads h).bind (fun commit w₁ h₁ => ?_) fun _ _ h₁ => h₁
  refine Ensures.ite (fun _ => h₁.kept) fun hcommit => ?_
  rw [Ne, not_not] at hcommit
  have hread : w₁.Reads sha256 jobId job job.AtCommit := by
    refine ⟨h₁.kept, h₁.id, h₁.row, h₁.idle, ?_⟩
    rw [JobRow.AtCommit, ← hcommit]
    exact h₁.refs
  refine Ensures.ite (fun _ => hread) fun _ => ?_
  refine calm_then (e := .source .branch) calm_reads rfl hread
    fun (currentBranch : Str) w₂ h₂ => ?_
  refine Ensures.ite (fun _ => h₂) fun _ => ?_
  refine calm_then (e := .source .isClean) calm_reads rfl h₂
    fun (clean : Bool) w₃ h₃ => ?_
  exact Ensures.ite (fun _ => reconcileFromHead_reads h₃) fun _ => h₃

theorem startApplying_reads (h : w.Reads sha256 jobId job P) :
    Guards F sha256 jobId (startApplying job)
      (OrKept sha256 jobId fun applying w' => w'.Reads sha256 jobId applying fun _ => True) w := by
  refine Ensures.ite (fun _ => ?_) fun _ => ⟨h.kept, h.id, h.row, h.idle, trivial⟩
  have hguard : (JobEffect.markApplyStarted job.id job.acceptedCommit.val).Guarded sha256 jobId w :=
    ⟨h.kept, h.id⟩
  have hmark : Guards F sha256 jobId
      (performJob (.markApplyStarted job.id job.acceptedCommit.val))
      (fun _ w' => w'.Kept sha256 jobId ∧ w'.tasksAtWork = false) w := by
    refine ensures_perform.mpr ⟨hguard, fun r w' hanswer => ?_⟩
    have htasks : w'.tasksAtWork = w.tasksAtWork := hanswer.1.tasks
    exact ⟨hguard.keeps hanswer.1 hanswer.2, htasks.trans h.idle⟩
  refine hmark.bind (fun _ w₁ h₁ => ?_) fun _ _ h₁ => h₁.1
  rw [h.id]
  exact getJob_reads h₁.1 h₁.2 trivial

/-- Before a publication, the branch of the candidate is at the commit, whichever way. -/
theorem applySource_reads (h : w.Reads sha256 jobId job P)
    (hphase : job.acceptancePhase ∈ journaledPhases) :
    Guards F sha256 jobId (applySource job)
      (OrKept sha256 jobId fun applied w' =>
        w'.Reads sha256 jobId applied.1 applied.1.AtCommit) w := by
  unfold applySource
  cases hintent : job.sourceApplyIntent with
  | notRequested =>
    refine ⟨h.kept, h.id, h.row, h.idle, ?_⟩
    -- as it was when the acceptance was journaled
    obtain ⟨j, hj, hid, hsame⟩ := h.row
    have hstanding := hsame.standing
    have hjournaled : j.acceptancePhase ∈ journaledPhases := by
      rw [hstanding.acceptancePhase]
      exact hphase
    have htip := h.kept.tip j hj hid hjournaled (hstanding.sourceApplyIntent.trans hintent)
    rw [hstanding.integrationBranch, hstanding.acceptedCommit] at htip
    exact htip
  | requested =>
    refine (startApplying_reads h).bind (fun applying w₁ h₁ => ?_) fun _ _ h₁ => h₁
    have hreconciled : Guards F sha256 jobId
        (withJobLock .repo <| finishJobBeforeCancel <| reconcileFastForwardSource
          applying.integrationBranch.val applying.baseBranch.val applying.baseCommit.val
          applying.acceptedCommit.val)
        (OrKept sha256 jobId fun _ w' => w'.Reads sha256 jobId applying applying.AtCommit) w₁ :=
      withJobLock_orKept calm_reads (fun _ => calm_reads) h₁ fun w₂ h₂ =>
        finishJobBeforeCancel_orKept (fun _ => calm_reads) (reconcile_reads h₂)
    exact hreconciled.bind (fun outcome w₃ h₃ => h₃) fun _ _ h₃ => h₃

/-! ## Accepting -/

/-- The coroutines of tasks have no part in an acceptance. -/
theorem shared_plain {q : Coroutine α} : (shared q).Makes fun e => e.plain = true :=
  (makes_of_forall (fun _ => rfl) q).embed

/-- The commit that the worktree is at. -/
theorem head_reads {path : Str} (h : w.Reads sha256 jobId job P) :
    Guards F sha256 jobId (shared (toThread (head path)))
      (OrKept sha256 jobId fun commit w' =>
        w'.Reads sha256 jobId job fun refs => refs.head? path = some commit) w := by
  refine ensures_embed.mpr (ensures_attempt_bind.mpr (ensures_perform.mpr ?_))
  refine ⟨quiet_guarded rfl h.kept, fun outcome w₁ hanswer => ?_⟩
  have h₁ := (h.step (e := .task (.git path .head)) rfl hanswer).1
  have hreads : ReadsRefs (.task (.git path .head)) outcome w₁.refs := hanswer.1.reads
  have hthere : w₁.Reads sha256 jobId job fun refs => refs = w₁.refs :=
    ⟨h₁.kept, h₁.id, h₁.row, h₁.idle, rfl⟩
  -- the thread has ended, and the refs stay until the waiting has
  have hsuspend : Ensures (fun e => tipHandler F sha256 jobId (.task e))
      (fun e => (JobEffect.task e).Guarded sha256 jobId) suspend
      (fun _ w₂ => w₂.Reads sha256 jobId job fun refs => refs = w₁.refs) w₁ :=
    ensures_perform.mpr ⟨quiet_guarded rfl h₁.kept,
      fun r w₂ hanswer => (hthere.step (e := .task .suspend) rfl hanswer).1⟩
  refine hsuspend.bind (fun _ w₂ h₂ => ensures_ofExcept.mpr ?_) fun _ _ h₂ => h₂.kept
  cases outcome with
  | error x => exact h₂.kept
  | ok commit =>
    refine ⟨h₂.kept, h₂.id, h₂.row, h₂.idle, ?_⟩
    rw [h₂.refs]
    exact hreads

theorem verifiedDossier_calls {id : Text} :
    (verifiedDossier id).Makes fun e => e.reading = true := by
  refine Program.Makes.bind (makes_perform rfl) fun (dossier : Option DossierRow) => ?_
  cases dossier with
  | none => exact makes_raise
  | some dossier =>
    apply makes_ite makes_raise
    apply makes_ite makes_raise
    refine Program.Makes.bind (makes_perform rfl) fun (verified : Bool) => ?_
    exact makes_ite makes_pure makes_raise

theorem resumeAcceptedJob_open (h : w.Reads sha256 jobId job P) :
    Guards F sha256 jobId (resumeAcceptedJob job)
      (OrKept sha256 jobId fun _ w' => w'.Open sha256 jobId) w := by
  refine Ensures.ite (fun _ => h.kept) fun hphase => ?_
  rw [not_not] at hphase
  refine Ensures.ite (fun _ => h.kept) fun _ => ?_
  refine reading_then verifiedDossier_calls h fun dossier w₁ h₁ => ?_
  refine (applySource_reads h₁ hphase).bind ?_ fun _ _ h₂ => h₂
  rintro ⟨applied, outcome, reason⟩ w₂ h₂
  have hguard : ∀ args,
      (JobEffect.publishCompletedJob applied.id args).Guarded sha256 jobId w₂ := by
    refine fun args => ⟨h₂.kept, h₂.id, fun j hj hid _ => ?_⟩
    have hstanding := (h₂.same hj hid).standing
    rw [hstanding.integrationBranch, hstanding.acceptedCommit]
    exact h₂.refs
  have hpublish : ∀ args, Guards F sha256 jobId (performJob (.publishCompletedJob applied.id args))
      (OrKept sha256 jobId fun _ w' => w'.Open sha256 jobId) w₂ := by
    refine fun args => ensures_perform.mpr ⟨hguard args, fun r w' hanswer => ?_⟩
    cases r with
    | ok a => exact open_published (hguard args) hanswer.1
    | error x => exact (hguard args).keeps hanswer.1 hanswer.2
  refine (hpublish _).bind (fun _ w₃ h₃ => ?_) fun _ _ h₃ => h₃
  refine (calm_perform (e := .notify _ _) calm_open rfl h₃).mono (fun _ _ hguard => hguard) ?_
  intro r w' h
  cases r with
  | ok a => exact h.1
  | error x => exact h.1.kept

/-- The acceptance of a candidate: its commit is that of the worktree. -/
theorem completeAcceptedJob_open {finalSummary : Str} (h : w.Open sha256 jobId)
    (hidle : w.tasksAtWork = false) :
    Guards F sha256 jobId (completeAcceptedJob jobId finalSummary)
      (OrKept sha256 jobId fun _ w' => w'.Open sha256 jobId) w := by
  -- the job is read again, and is not accepted yet
  have hread := getJob_reads (F := F) (P := fun _ => True) h.kept hidle trivial
  have hopen := plain_keepsOpen (F := F) (p := shared (perform (.getJob jobId))) shared_plain h
  refine (hread.and hopen).bind ?_ fun _ _ h₁ => h₁.1
  rintro accepted w₁ ⟨h₁, hopen₁⟩
  have hphase : accepted.acceptancePhase ∉ journaledPhases := by
    obtain ⟨j, hj, hid, hsame⟩ := h₁.row
    rw [← hsame.standing.acceptancePhase]
    exact hopen₁.phase j hj hid
  -- then its head, and its dossier
  refine (head_reads h₁).bind (fun finalCommit w₂ h₂ => ?_) fun _ _ h₂ => h₂
  refine calm_then (e := .buildDossier accepted.id finalCommit finalSummary (applyIntent accepted))
    calm_reads rfl h₂ ?_
  rintro ⟨content, digest⟩ w₃ h₃
  -- the guard of the acceptance: the candidate is at the commit that was read
  have hguard : ∀ dossier, (JobEffect.prepareAcceptedJob accepted.id
      { acceptedCommit := finalCommit, finalSummary := finalSummary
        sourceApplyIntent := applyIntent accepted
        dossier := dossier }).Guarded sha256 jobId w₃ := by
    intro dossier
    obtain ⟨j, hj, hid, hsame⟩ := h₃.row
    refine ⟨h₃.kept, h₃.id, h₃.open hphase, h₃.idle, j, hj, hid, ?_, ?_⟩
    · show applyIntent accepted = applyIntent j
      unfold applyIntent
      rw [hsame.autoApply]
    · rw [hsame.integrationPath]
      exact h₃.refs
  have hprepare : ∀ dossier, Guards F sha256 jobId (performJob (.prepareAcceptedJob accepted.id
      { acceptedCommit := finalCommit, finalSummary := finalSummary
        sourceApplyIntent := applyIntent accepted, dossier := dossier }))
      (fun _ w' => w'.Kept sha256 jobId ∧ w'.tasksAtWork = false) w₃ := by
    refine fun dossier => ensures_perform.mpr ⟨hguard dossier, fun r w' hanswer => ?_⟩
    have htasks : w'.tasksAtWork = w₃.tasksAtWork := hanswer.1.tasks
    exact ⟨(hguard dossier).keeps hanswer.1 hanswer.2, htasks.trans h₃.idle⟩
  -- accepted: what is left is as after a restart
  refine (hprepare _).bind (fun _ w₄ h₄ => ?_) fun _ _ h₄ => h₄.1
  rw [h₃.id]
  exact (getJob_reads (P := fun _ => True) h₄.1 h₄.2 trivial).bind
    (fun job w₅ h₅ => resumeAcceptedJob_open h₅) fun _ _ h₅ => h₅

end Programs

/-! ## Before and after an acceptance -/

section Stages

variable {cfg : JobConfig} {jobId : Text} {integrationPath : Str} {job : JobRow} {α : Type}

theorem performJob_plain {e : JobEffect} (h : e.plain = true) :
    (performJob e).Makes fun e => e.plain = true := makes_perform h

theorem withJobLock_plain {lock : Lock} {p : JobCoroutine α}
    (h : p.Makes fun e => e.plain = true) : (withJobLock lock p).Makes fun e => e.plain = true := by
  refine (performJob_plain rfl).bind fun _ => h.attempt.bind fun outcome => ?_
  exact (performJob_plain rfl).bind fun _ => makes_ofExcept

theorem finishJobBeforeCancel_plain {p : JobCoroutine α} (h : p.Makes fun e => e.plain = true) :
    (finishJobBeforeCancel p).Makes fun e => e.plain = true := by
  refine h.attempt.bind fun outcome => ?_
  exact (performJob_plain rfl).bind fun _ => makes_ofExcept

theorem planJob_plain : (planJob cfg jobId integrationPath).Makes fun e => e.plain = true := by
  refine shared_plain.bind fun job => ?_
  refine (performJob_plain rfl).bind fun _ => ?_
  refine shared_plain.bind fun _ => shared_plain.bind fun plannerName => ?_
  refine Program.Makes.bind (Program.Makes.tryCatch ?_ fun x => ?_) fun tasks =>
    performJob_plain rfl
  · refine (performJob_plain rfl).bind fun planned => ?_
    exact shared_plain.bind fun _ => makes_pure
  · exact makes_ite (shared_plain.bind fun _ => makes_pure) makes_raise

theorem planUnplanned_plain :
    (planUnplanned cfg jobId integrationPath).Makes fun e => e.plain = true := by
  refine Program.Makes.bind (performJob_plain rfl) fun (tasks : List TaskRow) => ?_
  exact makes_ite (withJobLock_plain planJob_plain) makes_pure

theorem repairOrRaise_plain {issue : Str} {failure : String} :
    (repairOrRaise cfg jobId integrationPath issue failure).Makes fun e => e.plain = true :=
  shared_plain.bind fun _ => makes_ite makes_pure makes_raise

theorem finalizeLoop_plain {reviewerName : Str} {cycles : List Nat} :
    (finalizeLoop cfg jobId integrationPath reviewerName cycles).Makes
      fun e => e.plain = true := by
  induction cycles with
  | nil => exact makes_raise
  | cons cycle cycles ih =>
    refine shared_plain.bind fun gates => ?_
    apply makes_ite
    · refine (performJob_plain rfl).bind fun review => ?_
      refine shared_plain.bind fun _ => ?_
      apply makes_ite makes_pure
      apply makes_ite makes_raise
      exact repairOrRaise_plain.bind fun _ => ih
    · refine shared_plain.bind fun gatesText => ?_
      apply makes_ite makes_raise
      exact repairOrRaise_plain.bind fun _ => ih

theorem finalize_plain : (finalize cfg jobId integrationPath).Makes fun e => e.plain = true :=
  shared_plain.bind fun _ => finalizeLoop_plain

theorem removePresent_plain {path : Str} :
    (removePresent path).Makes fun e => e.plain = true :=
  shared_plain.bind fun _ =>
    makes_ite (finishJobBeforeCancel_plain shared_plain) makes_pure

theorem cleanupTasks_plain {tasks : List TaskRow} :
    (cleanupTasks tasks).Makes fun e => e.plain = true := by
  induction tasks with
  | nil => exact makes_pure
  | cons task tasks ih =>
    refine (makes_ite makes_pure removePresent_plain).bind fun _ => ?_
    exact (makes_ite makes_pure (finishJobBeforeCancel_plain shared_plain)).bind fun _ => ih

theorem cleanupJob_plain :
    (cleanupJob cfg jobId integrationPath).Makes fun e => e.plain = true := by
  refine makes_ite (Program.Makes.tryCatch (withJobLock_plain ?_) fun x => ?_) makes_pure
  · refine (performJob_plain rfl).bind fun tasks => cleanupTasks_plain.bind fun _ => ?_
    refine removePresent_plain.bind fun _ => ?_
    refine Program.Makes.bind (performJob_plain rfl) fun (present : Bool) => ?_
    exact makes_ite (finishJobBeforeCancel_plain (performJob_plain rfl)) makes_pure
  · exact makes_ite shared_plain (shared_plain.bind fun _ => makes_raise)

/-! ## Settling -/

theorem performJob_quiet {e : JobEffect} (h : e.quiet = true) :
    (performJob e).Makes fun e => e.quiet = true := makes_perform h

theorem sharedCall_quiet {e : Effect} (h : (JobEffect.task e).quiet = true) :
    (shared (perform e)).Makes fun e => e.quiet = true :=
  Program.Makes.embed (makes_perform h)

theorem recordJobEvent_quiet {kind : String} {payload : List (Str × Json NonFinite)} :
    (recordJobEvent jobId kind payload).Makes fun e => e.quiet = true := sharedCall_quiet rfl

theorem settleJob_quiet {taskState : TaskState} {attemptState summary : Str}
    {fields : JobFields} :
    (settleJob jobId taskState attemptState summary fields).Makes fun e => e.quiet = true :=
  (performJob_quiet rfl).bind fun _ => performJob_quiet rfl

theorem settleCancelled_quiet : (settleCancelled jobId).Makes fun e => e.quiet = true := by
  refine (performJob_quiet rfl).bind fun _ => ?_
  refine (sharedCall_quiet rfl).bind fun current => ?_
  apply makes_ite makes_pure
  apply makes_ite recordJobEvent_quiet
  apply makes_ite
  · refine settleJob_quiet.bind fun _ => ?_
    exact recordJobEvent_quiet.bind fun _ => performJob_quiet rfl
  · exact settleJob_quiet.bind fun _ => recordJobEvent_quiet

theorem settleFailed_quiet {message : Str} :
    (settleFailed jobId job message).Makes fun e => e.quiet = true := by
  refine (performJob_quiet rfl).bind fun _ => ?_
  refine (sharedCall_quiet rfl).bind fun current => ?_
  apply makes_ite
  · exact recordJobEvent_quiet.bind fun _ => performJob_quiet rfl
  · refine settleJob_quiet.bind fun _ => ?_
    exact recordJobEvent_quiet.bind fun _ => performJob_quiet rfl

end Stages

/-! ## The runner -/

section Runner

variable {F : Type} [PyFloat F] {sha256 : Str → Str} {jobId : Text} {w : Candidate} {α β : Type}
  {cfg : JobConfig} {integrationPath : Str} {job : JobRow} {P : Refs → Prop}

/-- A part before an acceptance, or after a publication. -/
theorem plain_then {p : JobCoroutine α} {f : α → JobCoroutine β} {Post : β → Candidate → Prop}
    (hp : p.Makes fun e => e.plain = true) (h : w.Open sha256 jobId)
    (hrest : ∀ a w', w'.Open sha256 jobId →
      Guards F sha256 jobId (f a) (OrKept sha256 jobId Post) w') :
    Guards F sha256 jobId (p >>= f) (OrKept sha256 jobId Post) w :=
  (plain_keepsOpen hp h).bind hrest fun _ _ h => h.kept

/-- The same, when the tasks have been completed. -/
theorem ready_then {p : JobCoroutine α} {f : α → JobCoroutine β} {Post : β → Candidate → Prop}
    (hp : p.Makes fun e => e.plain = true) (h : w.Open sha256 jobId)
    (hidle : w.tasksAtWork = false)
    (hrest : ∀ a w', w'.Open sha256 jobId → w'.tasksAtWork = false →
      Guards F sha256 jobId (f a) (OrKept sha256 jobId Post) w') :
    Guards F sha256 jobId (p >>= f) (OrKept sha256 jobId Post) w :=
  (plain_keepsReady hp h hidle).bind (fun a w' h => hrest a w' h.1 h.2) fun _ _ h => h.1.kept

/-- A last part. -/
theorem plain_last {p : JobCoroutine α} (hp : p.Makes fun e => e.plain = true)
    (h : w.Open sha256 jobId) :
    Guards F sha256 jobId p (OrKept sha256 jobId fun _ w' => w'.Kept sha256 jobId) w := by
  refine (plain_keepsOpen hp h).mono (fun _ _ hguard => hguard) fun r w' h => ?_
  cases r with
  | ok a => exact h.kept
  | error x => exact h.kept

theorem concludeJob_guarded (h : w.Open sha256 jobId) (hidle : w.tasksAtWork = false) :
    Guards F sha256 jobId (concludeJob cfg jobId integrationPath)
      (OrKept sha256 jobId fun _ w' => w'.Kept sha256 jobId) w := by
  refine ready_then shared_plain h hidle fun current w₁ h₁ hidle₁ => ?_
  refine Ensures.ite (fun _ => h₁.kept) fun _ => ?_
  refine ready_then (withJobLock_plain finalize_plain) h₁ hidle₁ fun finalSummary w₂ h₂ hidle₂ => ?_
  have hread := getJob_reads (F := F) (P := fun _ => True) h₂.kept hidle₂ trivial
  have hready := plain_keepsReady (F := F) (p := shared (perform (.getJob jobId))) shared_plain h₂
    hidle₂
  refine (hread.and hready).bind (fun job w₃ h₃ => ?_) fun _ _ h₃ => h₃.1
  obtain ⟨hreads, hopen, hidle₃⟩ := h₃
  have hjob : job.id = jobId := hreads.id
  rw [hjob]
  refine (finishJobBeforeCancel_orKept (fun _ => calm_open)
    (completeAcceptedJob_open hopen hidle₃)).bind (fun _ w₄ h₄ => ?_) fun _ _ h₄ => h₄
  exact plain_last cleanupJob_plain h₄

theorem resumeRun_guarded (h : w.Reads sha256 jobId job P) :
    Guards F sha256 jobId (resumeRun cfg jobId job integrationPath)
      (OrKept sha256 jobId fun _ w' => w'.Kept sha256 jobId) w := by
  refine (finishJobBeforeCancel_orKept (fun _ => calm_open) (resumeAcceptedJob_open h)).bind
    (fun _ w₁ h₁ => ?_) fun _ _ h₁ => h₁
  exact plain_then shared_plain h₁ fun completed w₂ h₂ => plain_last cleanupJob_plain h₂

/-- The tasks are at work until the graph has returned. -/
theorem executeDag_guarded (h : w.Open sha256 jobId) :
    Guards F sha256 jobId (performJob (.executeDag jobId integrationPath))
      (OrKept sha256 jobId fun _ w' => w'.Open sha256 jobId ∧ w'.tasksAtWork = false) w := by
  refine ensures_perform.mpr ⟨⟨h.kept, fun _ => h⟩, fun r w' hanswer => ?_⟩
  have hopen : w'.Open sha256 jobId :=
    h.moves (hanswer.1.sound h.store) (hanswer.1.standing rfl)
  have htasks := hanswer.1.tasks
  cases r with
  | ok a => exact ⟨hopen, htasks⟩
  | error x => exact hopen.kept

theorem candidateRun_guarded (h : w.Open sha256 jobId) :
    Guards F sha256 jobId (candidateRun cfg jobId job integrationPath)
      (OrKept sha256 jobId fun _ w' => w'.Kept sha256 jobId) w := by
  refine plain_then shared_plain h fun _ w₁ h₁ => ?_
  refine plain_then (performJob_plain rfl) h₁ fun _ w₂ h₂ => ?_
  refine plain_then shared_plain h₂ fun _ w₃ h₃ => ?_
  refine plain_then planUnplanned_plain h₃ fun _ w₄ h₄ => ?_
  refine plain_then (performJob_plain rfl) h₄ fun _ w₅ h₅ => ?_
  refine plain_then shared_plain h₅ fun _ w₆ h₆ => ?_
  exact (executeDag_guarded h₆).bind (fun _ w₇ h₇ => concludeJob_guarded h₇.1 h₇.2)
    fun _ _ h₇ => h₇

/-- A runner makes its calls only where they keep the invariant. -/
theorem runJob_guarded (h : w.Kept sha256 jobId) (hidle : w.tasksAtWork = false) :
    Guards F sha256 jobId (runJob cfg jobId) (fun _ w' => w'.Kept sha256 jobId) w := by
  have hread := getJob_reads (F := F) (P := fun _ => True) h hidle trivial
  refine hread.bind (fun job w₁ h₁ => ?_) fun _ _ h₁ => h₁
  have hparent : (shared (topologyCommand (.ensureParent
      (cfg.worktreesDir ++ lit "/" ++ jobId.val ++ lit "/integration")))).Makes
        fun e => e.reading = true := shared_reads (makes_perform rfl)
  refine (reading_keepsReads hparent h₁).bind (fun _ w₂ h₂ => ?_) fun _ _ h₂ => h₂.kept
  have hbody : Guards F sha256 jobId (runBody cfg jobId job
      (cfg.worktreesDir ++ lit "/" ++ jobId.val ++ lit "/integration"))
      (OrKept sha256 jobId fun _ w' => w'.Kept sha256 jobId) w₂ :=
    Ensures.ite (fun _ => resumeRun_guarded h₂) fun hphase => candidateRun_guarded (h₂.open hphase)
  refine ensures_attempt_bind.mpr (hbody.mono (fun _ _ hguard => hguard) fun outcome w₃ h₃ => ?_)
  cases outcome with
  | ok a => exact h₃
  | error x =>
    exact quiet_keepsKept
      (Program.Makes.join settleFailed_quiet settleCancelled_quiet fun _ => makes_raise) h₃

end Runner

/-! ## Runs of runners -/

section Runs

variable {F : Type} [PyFloat F] {sha256 : Str → Str} {jobId : Text} {w w' : Candidate}
  {c c' : JobCoroutine Unit × Candidate} {l : PublicationStep}

/-- The invariant of runs: it holds now, and before every call that is still to be made. -/
def Keeping (F : Type) [PyFloat F] (sha256 : Str → Str) (jobId : Text)
    (c : JobCoroutine Unit × Candidate) : Prop :=
  c.2.Kept sha256 jobId ∧ Guards F sha256 jobId c.1 (fun _ w => w.Kept sha256 jobId) c.2

/-- The next runner finds the journal as it was. -/
theorem start_kept {cfg : JobConfig} (h : c.2.Kept sha256 jobId)
    (hstep : (publication F sha256 jobId).step c (.start cfg) c') : c'.2.Kept sha256 jobId := by
  obtain ⟨-, hothers, hidle', hrefs⟩ := hstep
  refine h.moves (hothers.sound h.store) hothers.keepsCandidate fun hjournaled => ?_
  refine ⟨hrefs hjournaled, ?_⟩
  obtain ⟨j, hj, hid, hphase⟩ := hjournaled
  rw [hidle', h.idle j hj hid hphase]

theorem reachable_keeping
    (h : ((publication F sha256 jobId).restrict AcceptsAtTip).Reachable c) :
    Keeping F sha256 jobId c := by
  refine h.invariant ?_ ?_
  · rintro ⟨p, w⟩ ⟨hp, hw⟩
    obtain rfl : p = .ret () := hp
    have hnone : ∀ j, j ∉ w.store.jobs := by
      rw [show w.store = Store.empty from hw]
      exact Table.not_mem_empty
    have hopen : w.Open sha256 jobId := by
      refine ⟨?_, fun j hj => absurd hj (hnone j)⟩
      rw [show w.store = Store.empty from hw]
      exact Store.empty_sound
    exact ⟨hopen.kept, hopen.kept⟩
  · rintro c l c' - ⟨hkept, hguards⟩ ⟨hstep, htip⟩
    cases l with
    | call reply =>
      obtain ⟨next, hcall, hanswer, hnext⟩ := hstep
      rw [hcall] at hguards
      rw [Keeping, hnext]
      exact ⟨hguards.1.keeps hanswer htip, hguards.2 reply.2 c'.2 ⟨hanswer, htip⟩⟩
    | start cfg =>
      have hkept' := start_kept hkept hstep
      rw [Keeping, hstep.1]
      exact ⟨hkept', runJob_guarded hkept' hstep.2.2.1⟩

/-- A job is not completed while its standing stays. -/
theorem not_completed_of_standing {s s' : Store} (hs : s.Sound sha256) (hs' : s'.Sound sha256)
    (hmoves : s.JobMoves jobId JobRow.SameStanding s') {j j' : JobRow}
    (hj : j ∈ s.jobs) (hid : j.id = jobId) (hopen : j.state ≠ .completed)
    (hj' : j' ∈ s'.jobs) (hid' : j'.id = jobId) : j'.state ≠ .completed := by
  intro hdone
  have hphase' := (hs'.valid j' hj').published_iff.mpr hdone
  obtain ⟨j₁, hj₁, hid₁, hstanding⟩ := hmoves.forward j hj hid
  obtain rfl : j₁ = j' := Store.eq_of_id hj₁ hj' (hid₁.trans hid'.symm)
  rw [hstanding.acceptancePhase] at hphase'
  exact hopen ((hs.valid j hj).published_iff.mp hphase')

/-- Where a guarded call completes the job, it publishes the tip of the branch. -/
theorem completed_at_tip {e : JobEffect} {r : Except Raised e.Reply}
    (h : e.Guarded sha256 jobId w) (hanswer : RunnerAnswers F sha256 jobId e w r w')
    {j j' : JobRow} (hj : j ∈ w.store.jobs) (hid : j.id = jobId) (hopen : j.state ≠ .completed)
    (hj' : j' ∈ w'.store.jobs) (hid' : j'.id = jobId) (hdone : j'.state = .completed) :
    j'.AtCommit w'.refs := by
  have hsound := hanswer.sound h.1.store
  -- a completed job has been published
  have hphase' := (hsound.valid j' hj').published_iff.mpr hdone
  have hstays : ¬ w.store.JobMoves jobId JobRow.SameStanding w'.store := fun hmoves =>
    not_completed_of_standing h.1.store hsound hmoves hj hid hopen hj' hid' hdone
  -- only one of the three calls that journal completes a job
  have hjournals : e.journals = true :=
    eq_true_of_ne_false fun hjournals => hstays (hanswer.standing hjournals)
  -- a call that raised has rolled back
  cases r with
  | error x => exact absurd hanswer.error.standing hstays
  | ok a =>
    obtain ⟨s, hothers, hcall⟩ := hanswer.store
    have hmoves := hothers.keepsCandidate
    cases e with
    -- this call leaves the job `accepted`
    | prepareAcceptedJob id args =>
      obtain ⟨-, rfl, hbefore, -⟩ := h
      have hnone : ∀ j ∈ s.jobs, j.id = id → j.acceptancePhase ∉ journaledPhases := by
        intro j₁ hj₁ hid₁ hphase₁
        obtain ⟨j₀, hj₀, hid₀, hphase₀, -⟩ := journaled_backward hmoves hj₁ hid₁ hphase₁
        exact hbefore.phase j₀ hj₀ hid₀ hphase₀
      obtain ⟨-, -, -, -, -, haccepted, -⟩ := answersJob_prepared hcall hnone j' hj' hid'
      rw [haccepted] at hphase'
      cases hphase'
    -- this one leaves it `applying`
    | markApplyStarted id acceptedCommit =>
      obtain ⟨-, rfl⟩ := h
      obtain ⟨-, -, -, -, -, -, hjournaled, -⟩ := answersJob_applying hcall j' hj' hid'
      rw [hphase'] at hjournaled
      exact absurd hjournaled (by decide)
    -- this one publishes the job, with the candidate at the accepted commit
    | publishCompletedJob id args =>
      obtain ⟨hkept, rfl, htip⟩ := h
      obtain ⟨-, j₁, hj₁, hid₁, hbranch, hcommit, hbefore⟩ := answersJob_published hcall j' hj' hid'
      obtain ⟨j₂, hj₂, hid₂, hsame⟩ := hmoves.forward j hj hid
      obtain rfl : j₁ = j₂ := Store.eq_of_id hj₁ hj₂ (hid₁.trans hid₂.symm)
      have hstanding := hsame.standing
      have hphase : j.acceptancePhase ∈ journaledPhases := by
        -- the job was journaled, or was completed already
        rcases hbefore with hcompleted | hjournaled
        · have hpublished := ((hothers.sound hkept.store).valid j₁ hj₁).published_iff.mpr hcompleted
          rw [hstanding.acceptancePhase] at hpublished
          exact absurd ((hkept.store.valid j hj).published_iff.mp hpublished) hopen
        · rw [← hstanding.acceptancePhase]
          exact hjournaled
      -- the branches do not move after the acceptance
      have hrefs := (hanswer.still rfl (hkept.idle j hj hid hphase) nofun).1
      rw [JobRow.AtCommit, hrefs, hbranch, hcommit, hstanding.integrationBranch,
        hstanding.acceptedCommit]
      exact htip j hj hid hphase
    | _ => cases hjournals

/-- In every run that journals acceptances without application at the tip of the branch only,
whatever agents, gates and reviews do: when a job is completed, its branch is at the commit that
has been accepted. -/
theorem published_branch_is_accepted
    (h : ((publication F sha256 jobId).restrict AcceptsAtTip).Reachable c)
    (hstep : (publication F sha256 jobId).step c l c') {j j' : JobRow} (hj : j ∈ c.2.store.jobs)
    (hid : j.id = jobId) (hopen : j.state ≠ .completed) (hj' : j' ∈ c'.2.store.jobs)
    (hid' : j'.id = jobId) (hdone : j'.state = .completed) :
    c'.2.refs.branches j'.integrationBranch.val = some j'.acceptedCommit.val := by
  obtain ⟨hkept, hguards⟩ := reachable_keeping h
  cases l with
  | call reply =>
    obtain ⟨next, hcall, hanswer, -⟩ := hstep
    rw [hcall] at hguards
    exact completed_at_tip hguards.1 hanswer hj hid hopen hj' hid' hdone
  | start cfg =>
    obtain ⟨-, hothers, -⟩ := hstep
    exact absurd hdone (not_completed_of_standing hkept.store (hothers.sound hkept.store)
      hothers.keepsCandidate.standing hj hid hopen hj' hid')

end Runs

/-! ## A candidate off its branch -/

instance (e : JobEffect) (w : Candidate) : Decidable (e.AtTip w) :=
  match e with
  | .prepareAcceptedJob id _ => inferInstanceAs (Decidable (∀ j ∈ w.store.jobs.rows, j.id = id →
      j.autoApply = true ∨
        w.refs.head? j.integrationPath.val = w.refs.branches j.integrationBranch.val))
  | .task _ | .updateJob _ _ | .listTasks _ | .addTasks _ _ | .settleInflight _ _ _ _
  | .markApplyStarted _ _ | .stagedDossier _ | .publishCompletedJob _ _ | .buildDossier _ _ _ _
  | .verifyDossier _ _ | .plan _ _ _ _ | .finalReview _ _ _ _ | .executeDag _ _ | .cancelActive
  | .source _ | .exists _ | .removeTree _ | .notify _ _ | .discover _ => isTrue trivial

/-- The job, which is not to be applied. -/
def offBranchJob : List (Operation NonFinite) := demoAccepted.take 1

/-- Its task is completed while the task graph is at work. -/
def offBranchTask : List (Operation NonFinite) :=
  [.call (.updateTask (lit "task-1") { state := some (lit "running"), attempts := some 1 } 7),
   .call (.startAttempt (Text.lit "attempt-1") 7
    { jobId := lit "job-1", taskId := lit "task-1", number := 1, agent := lit "claude"
      worktree := lit "/task", branch := lit "task", logPath := lit "/log" }),
   .call (.finishAttempt (lit "attempt-1") (lit "passed") (some 0) [] 8),
   .call (.updateTask (lit "task-1") { state := some (lit "reviewing") } 9),
   .call (.updateTask (lit "task-1") { state := some (lit "integrating") } 9),
   .call (.updateTask (lit "task-1") { state := some (lit "completed") } 9)]

/-- Git, for a repository with one commit and a second one that is made where `HEAD` is detached. -/
def offBranchGit (cwd : Str) (command : GitCommand) (refs : Refs) :
    Except Raised command.Reply × Refs :=
  match command with
  | .head =>
    match refs.head? cwd with
    | some commit => (.ok commit, refs)
    | none => (.error (.gitError []), refs)
  | .isClean => (.ok (refs.heads cwd != .detached (lit "c0")), refs)
  | .commit _ =>
    (.ok (), { refs with heads := Function.update refs.heads cwd (.detached (lit "c1")) })
  | .mergeHeadExists => (.ok false, refs)
  | .assertWorktree _ | .addAll => (.ok (), refs)
  | .diff _ | .unresolved | .merge _ | .mergeAbort | .resetHard _ | .clean =>
    (.error (.gitError []), refs)

/-- The candidate gets a branch and a worktree on it. -/
def offBranchTopology (command : TopologyCommand) (refs : Refs) :
    Except Raised command.Reply × Refs :=
  match command with
  | .validateBranchName _ | .ensureParent _ | .prune => (.ok (), refs)
  | .pathExists _ | .branchExists _ | .isSymlink _ | .gitFileExists _ => (.ok false, refs)
  | .createBranch branch ref =>
    (.ok (), { refs with branches := Function.update refs.branches branch (some ref) })
  | .addWorktree path branch =>
    (.ok (), { refs with heads := Function.update refs.heads path (.branch branch) })
  | .addNewBranch _ _ _ | .removeWorktree _ | .deleteBranch _ => (.error (.gitError []), refs)

/-- The answers of a run; where the agent is one that detaches `HEAD`, the gates want it to. -/
def offBranchAnswer (detaches : Bool) (w : Candidate) :
    (e : JobEffect) → Except Raised e.Reply × Candidate
  | .task (.git cwd command) =>
    ((offBranchGit cwd command w.refs).1, { w with refs := (offBranchGit cwd command w.refs).2 })
  | .task (.topology command) =>
    ((offBranchTopology command w.refs).1, { w with refs := (offBranchTopology command w.refs).2 })
  | .task (.runAgent _ _ cwd _) =>
    (.ok { returncode := 0, stdout := [], stderr := [] },
      { w with refs.heads := Function.update w.refs.heads cwd (.detached (lit "c0")) })
  | .task (.runGates _ cwd _) =>
    let returncode := if detaches && w.refs.heads cwd != .detached (lit "c1") then 1 else 0
    (.ok [{ command := lit "make", returncode := returncode, stdout := [], stderr := [] }], w)
  | .task (.chooseRole candidate _ _) => (.ok candidate, w)
  | .task e => ((scriptedAnswer w.store e).1, { w with store := (scriptedAnswer w.store e).2 })
  | .updateJob jobId fields => answered (updateJob jobId.val fields 7)
  | .listTasks jobId => answered (listTasks jobId.val)
  | .addTasks jobId planned =>
    answered (dropReply (addTasks jobId.val (fun _ => Text.lit "task-1") 7 planned))
  | .settleInflight jobId taskState attemptState summary =>
    answered (settleInflight jobId.val taskState attemptState summary 7)
  | .prepareAcceptedJob jobId args => answered (prepareAcceptedJob demoDigest jobId.val args 7 7)
  | .markApplyStarted jobId acceptedCommit =>
    answered (markApplyStarted jobId.val acceptedCommit 7)
  | .stagedDossier jobId => answered (getStagedDossier jobId.val)
  | .publishCompletedJob jobId args => answered (publishCompletedJob demoDigest jobId.val args 7)
  | .buildDossier _ _ _ _ => (.ok (lit "dossier", demoDigest []), w)
  | .verifyDossier _ _ => (.ok true, w)
  | .plan goal _ _ _ => (.ok (lit "One task", fallbackPlan goal), w)
  | .finalReview _ _ _ _ => (.ok { verdict := lit "pass", summary := lit "Good" }, w)
  | .executeDag _ _ =>
    match runOperations demoDigest offBranchTask w.store with
    | some store => (.ok (), { w with store := store, tasksAtWork := false })
    | none => (.error (.error []), w)
  | .cancelActive | .source _ | .exists _ | .removeTree _ | .notify _ _ | .discover _ =>
    (.error (.error []), w)
where
  answered {α : Type} (x : StoreDb α) : Except Raised α × Candidate :=
    ((askStore w.store x).1,
      { w with store := (askStore w.store x).2 })

/-- A repository with one branch. -/
def offBranchRefs : Refs where
  branches name := if name = lit "main" then some (lit "c0") else none
  heads _ := .branch (lit "main")

/-- The start of the runner. -/
def offBranchStart : Option (JobCoroutine Unit × Candidate) :=
  (runOperations demoDigest offBranchJob Store.empty).map fun store =>
    (runJob smallRunner (Text.lit "job-1"), { store := store, refs := offBranchRefs })

/-- The runner goes on; where the agent is not one that detaches `HEAD`, acceptance is at the tip
of the branch. -/
def offBranchNext (detaches : Bool) (c : JobCoroutine Unit × Candidate) (_ : Unit) :
    Option (JobCoroutine Unit × Candidate) :=
  match c.1 with
  | .call e next =>
    if detaches = true ∨ e.AtTip c.2 then
      some (next (offBranchAnswer detaches c.2 e).1, (offBranchAnswer detaches c.2 e).2)
    else none
  | _ => none

/-- Operations of others, where they succeed. -/
theorem others_of_runOperations {F : Type} [PyFloat F] {sha256 : Str → Str} {jobId : Text}
    {ops : List (Operation F)} (hops : ∀ op ∈ ops, ¬ op.Accepts jobId) {s s' : Store}
    (h : runOperations sha256 ops s = some s') : s.Others F sha256 jobId s' := by
  induction ops generalizing s with
  | nil =>
    cases h
    exact .refl
  | cons op ops ih =>
    rw [List.forall_mem_cons] at hops
    unfold runOperations at h
    split at h
    · rename_i t hrun
      exact .head ⟨op, hops.1, hrun⟩ (ih hops.2 h)
    · cases h

theorem offBranchJob_others : ∀ op ∈ offBranchJob, ¬ op.Accepts (Text.lit "job-1") := by
  rw [offBranchJob, demoAccepted, List.take_succ_cons, List.take_zero, List.forall_mem_cons]
  exact ⟨not_false, fun _ hop => absurd hop List.not_mem_nil⟩

theorem offBranchTask_others : ∀ op ∈ offBranchTask, ¬ op.Accepts (Text.lit "job-1") := by
  simp only [offBranchTask, List.forall_mem_cons, List.not_mem_nil, false_implies, implies_true,
    and_true, Operation.Accepts, not_false_eq_true]

/-- Git moves the refs with the commands that write. -/
theorem offBranchGit_refs {cwd : Str} {command : GitCommand} {refs : Refs}
    (h : command.writes = false) : (offBranchGit cwd command refs).2 = refs := by
  cases command with
  | head =>
    unfold offBranchGit
    split <;> rfl
  | commit => cases h
  | _ => rfl

theorem offBranchTopology_refs {command : TopologyCommand} {refs : Refs}
    (h : command.writes = false) : (offBranchTopology command refs).2 = refs := by
  cases command with
  | createBranch | addWorktree => cases h
  | _ => rfl

theorem offBranchGit_reads {cwd : Str} {command : GitCommand} {refs : Refs} :
    ReadsRefs (.task (.git cwd command)) (offBranchGit cwd command refs).1
      (offBranchGit cwd command refs).2 := by
  cases command with
  | head =>
    unfold offBranchGit
    split
    · assumption
    · trivial
  | _ => trivial

theorem scriptedAnswer_answersJob (s : Store) (e : Effect) :
    AnswersJob demoDigest (.task e) s (scriptedAnswer s e).1 (scriptedAnswer s e).2 :=
  scriptedAnswer_answers s e

/-- The answers are such as a runner may have. -/
theorem offBranchAnswer_answers (detaches : Bool) (e : JobEffect) (w : Candidate) :
    RunnerAnswers NonFinite demoDigest (Text.lit "job-1") e w (offBranchAnswer detaches w e).1
      (offBranchAnswer detaches w e).2 := by
  -- an operation of the database
  have hstore : ∀ {α : Type} (x : StoreDb α) {operation : StoreDb α → Prop}, operation x →
      ∃ s, w.store.Others NonFinite demoDigest (Text.lit "job-1") s ∧ Answers operation s
        (offBranchAnswer.answered w x).1 (offBranchAnswer.answered w x).2.store :=
    fun x _ hx => ⟨w.store, .refl, askStore_answers w.store x hx⟩
  have hsame : ∃ s, w.store.Others NonFinite demoDigest (Text.lit "job-1") s ∧ w.store = s :=
    ⟨w.store, .refl, rfl⟩
  -- by the call: operations of the database, commands of Git, agents
  cases e with
  | task e =>
    cases e with
    | git cwd command =>
      exact ⟨hsame, fun _ hwork => offBranchGit_refs hwork, rfl, offBranchGit_reads⟩
    | topology command =>
      exact ⟨hsame, fun _ hwork => offBranchTopology_refs hwork, rfl, trivial⟩
    | runAgent => exact ⟨hsame, fun _ hwork => absurd hwork nofun, rfl, trivial⟩
    | runGates | chooseRole => exact ⟨hsame, fun _ _ => rfl, rfl, trivial⟩
    | _ =>
      exact ⟨⟨w.store, .refl, scriptedAnswer_answersJob w.store _⟩, fun _ _ => rfl, rfl, trivial⟩
  | updateJob | markApplyStarted | settleInflight | publishCompletedJob =>
    exact ⟨hstore _ ⟨7, rfl⟩, fun _ _ => rfl, rfl, trivial⟩
  | listTasks | stagedDossier => exact ⟨hstore _ rfl, fun _ _ => rfl, rfl, trivial⟩
  | addTasks => exact ⟨hstore _ ⟨_, 7, rfl⟩, fun _ _ => rfl, rfl, trivial⟩
  | prepareAcceptedJob => exact ⟨hstore _ ⟨7, 7, rfl⟩, fun _ _ => rfl, rfl, trivial⟩
  | executeDag jobId path =>
    simp only [offBranchAnswer]
    split
    · rename_i store hrun
      exact ⟨⟨store, others_of_runOperations offBranchTask_others hrun, rfl⟩, fun _ _ => rfl, rfl,
        trivial⟩
    · exact ⟨hsame, fun _ _ => rfl, trivial, trivial⟩
  | cancelActive => exact ⟨hsame, fun _ _ => rfl, fun h => h, trivial⟩
  | source command =>
    cases command with
    | fastForward commit => exact ⟨hsame, fun _ _ => Or.inl rfl, rfl, trivial⟩
    | _ => exact ⟨hsame, fun _ _ => rfl, rfl, trivial⟩
  | _ => exact ⟨hsame, fun _ _ => rfl, rfl, trivial⟩

theorem offBranchNext_step {detaches : Bool} {c c' : JobCoroutine Unit × Candidate}
    (h : offBranchNext detaches c () = some c') : ∃ l,
      (publication NonFinite demoDigest (Text.lit "job-1")).step c l c' ∧
        (detaches = false → AcceptsAtTip c l) := by
  unfold offBranchNext at h
  split at h
  · rename_i e next hcall
    split_ifs at h with hallowed
    cases h
    refine ⟨.call ⟨e, (offBranchAnswer detaches c.2 e).1⟩,
      ⟨next, hcall, offBranchAnswer_answers detaches e c.2, rfl⟩, fun hattached => ?_⟩
    exact hallowed.resolve_left (ne_true_of_eq_false hattached)
  · cases h

/-- The run up to the publication, and the publication. -/
def offBranchRun (detaches : Bool) (calls : Nat) :
    Option ((JobCoroutine Unit × Candidate) × (JobCoroutine Unit × Candidate)) := do
  let start ← offBranchStart
  let before ← (List.replicate calls ()).foldlM (offBranchNext detaches) start
  let after ← offBranchNext detaches before ()
  return (before, after)

/-- The state of the job before and after, and whether its branch is at the accepted commit. -/
def offBranchReport (detaches : Bool) (calls : Nat) : Option (List (Text × JobState) ×
    List (Text × JobState × Bool)) :=
  (offBranchRun detaches calls).map fun (before, after) =>
    (before.2.store.jobs.rows.map fun j => (j.id, j.state),
      after.2.store.jobs.rows.map fun j => (j.id, j.state,
        after.2.refs.branches j.integrationBranch.val == some j.acceptedCommit.val))

/-- The run starts from an empty database. -/
theorem offBranchRun_reachable {detaches : Bool} {calls : Nat}
    {c c' : JobCoroutine Unit × Candidate} (h : offBranchRun detaches calls = some (c, c')) :
    (publication NonFinite demoDigest (Text.lit "job-1")).Reachable c ∧
      (detaches = false → ((publication NonFinite demoDigest (Text.lit "job-1")).restrict
        AcceptsAtTip).Reachable c) ∧
      ∃ l, (publication NonFinite demoDigest (Text.lit "job-1")).step c l c' := by
  unfold offBranchRun at h
  obtain ⟨start, hstart, h⟩ := Option.bind_eq_some_iff.mp h
  obtain ⟨before, hbefore, h⟩ := Option.bind_eq_some_iff.mp h
  obtain ⟨after, hafter, h⟩ := Option.bind_eq_some_iff.mp h
  cases h
  obtain ⟨store, hcreated, rfl⟩ := Option.map_eq_some_iff.mp hstart
  have hfirst : (publication NonFinite demoDigest (Text.lit "job-1")).step
      (.ret (), { store := Store.empty, refs := offBranchRefs }) (.start smallRunner)
      (runJob smallRunner (Text.lit "job-1"), { store := store, refs := offBranchRefs }) :=
    ⟨rfl, others_of_runOperations offBranchJob_others hcreated, rfl, fun _ => rfl⟩
  refine ⟨?_, fun hattached => ?_, ?_⟩
  · have hinit : (publication NonFinite demoDigest (Text.lit "job-1")).Reachable
        (.ret (), { store := Store.empty, refs := offBranchRefs }) :=
      System.reachable_init ⟨rfl, rfl⟩
    refine (hinit.step hfirst).steps (System.steps_of_foldlM (fun c _ c' hnext => ?_) hbefore)
    obtain ⟨l, hstep, -⟩ := offBranchNext_step hnext
    exact ⟨l, hstep⟩
  · have hinit : ((publication NonFinite demoDigest (Text.lit "job-1")).restrict
        AcceptsAtTip).Reachable (.ret (), { store := Store.empty, refs := offBranchRefs }) :=
      System.reachable_init ⟨rfl, rfl⟩
    have hallowed : AcceptsAtTip (.ret (), { store := Store.empty, refs := offBranchRefs })
        (.start smallRunner) := trivial
    refine (hinit.step ⟨hfirst, hallowed⟩).steps
      (System.steps_of_foldlM (fun c _ c' hnext => ?_) hbefore)
    obtain ⟨l, hstep, htip⟩ := offBranchNext_step hnext
    exact ⟨l, hstep, htip hattached⟩
  · obtain ⟨l, hstep, -⟩ := offBranchNext_step hafter
    exact ⟨l, hstep⟩

/-- The rows that a report is about. -/
theorem offBranchReport_rows {detaches atCommit : Bool} {calls : Nat}
    (h : offBranchReport detaches calls =
      some ([(Text.lit "job-1", .running)], [(Text.lit "job-1", .completed, atCommit)])) :
    ∃ c c', offBranchRun detaches calls = some (c, c') ∧
      (∃ j ∈ c.2.store.jobs, j.id = Text.lit "job-1" ∧ j.state = .running) ∧
      ∃ j ∈ c'.2.store.jobs, j.id = Text.lit "job-1" ∧ j.state = .completed ∧
        (c'.2.refs.branches j.integrationBranch.val == some j.acceptedCommit.val) = atCommit := by
  obtain ⟨⟨c, c'⟩, hrun, hreport⟩ := Option.map_eq_some_iff.mp h
  obtain ⟨hbefore, hafter⟩ := Prod.mk.inj hreport
  have hmem : (Text.lit "job-1", JobState.running) ∈
      c.2.store.jobs.rows.map fun j => (j.id, j.state) := by
    rw [hbefore]
    exact List.mem_singleton.mpr rfl
  have hmem' : (Text.lit "job-1", JobState.completed, atCommit) ∈
      c'.2.store.jobs.rows.map fun j => (j.id, j.state,
        c'.2.refs.branches j.integrationBranch.val == some j.acceptedCommit.val) := by
    rw [hafter]
    exact List.mem_singleton.mpr rfl
  obtain ⟨j, hj, hrow⟩ := List.mem_map.mp hmem
  obtain ⟨j', hj', hrow'⟩ := List.mem_map.mp hmem'
  obtain ⟨hid, hstate⟩ := Prod.mk.inj hrow
  obtain ⟨hid', hrest⟩ := Prod.mk.inj hrow'
  obtain ⟨hstate', hcommit⟩ := Prod.mk.inj hrest
  exact ⟨c, c', hrun, ⟨j, hj, hid, hstate⟩, j', hj', hid', hstate', hcommit⟩

/-- The repairing agent has detached `HEAD`: its commit is accepted, and the branch is published
without it. -/
theorem detached_candidate_published : ∃ c l c',
    (publication NonFinite demoDigest (Text.lit "job-1")).Reachable c ∧
      (publication NonFinite demoDigest (Text.lit "job-1")).step c l c' ∧
      (∃ j ∈ c.2.store.jobs, j.id = Text.lit "job-1" ∧ j.state ≠ .completed) ∧
      ∃ j' ∈ c'.2.store.jobs, j'.id = Text.lit "job-1" ∧ j'.state = .completed ∧
        c'.2.refs.branches j'.integrationBranch.val ≠ some j'.acceptedCommit.val := by
  have hreport : offBranchReport true 63 =
      some ([(Text.lit "job-1", .running)], [(Text.lit "job-1", .completed, false)]) := by
    decide +kernel
  obtain ⟨c, c', hrun, ⟨j, hj, hid, hstate⟩, j', hj', hid', hstate', hcommit⟩ :=
    offBranchReport_rows hreport
  obtain ⟨hreach, -, l, hstep⟩ := offBranchRun_reachable hrun
  have hopen : j.state ≠ .completed := by
    rw [hstate]
    exact nofun
  exact ⟨c, l, c', hreach, hstep, ⟨j, hj, hid, hopen⟩, j', hj', hid', hstate',
    fun heq => absurd (beq_iff_eq.mpr heq) (ne_true_of_eq_false hcommit)⟩

/-- Without it, the branch is published at the commit. -/
theorem attached_candidate_published : ∃ c l c',
    ((publication NonFinite demoDigest (Text.lit "job-1")).restrict AcceptsAtTip).Reachable c ∧
      (publication NonFinite demoDigest (Text.lit "job-1")).step c l c' ∧
      ∃ j' ∈ c'.2.store.jobs, j'.state = .completed ∧
        c'.2.refs.branches j'.integrationBranch.val = some j'.acceptedCommit.val := by
  have hreport : offBranchReport false 51 =
      some ([(Text.lit "job-1", .running)], [(Text.lit "job-1", .completed, true)]) := by
    decide +kernel
  obtain ⟨c, c', hrun, ⟨j, hj, hid, hstate⟩, j', hj', hid', hstate', -⟩ :=
    offBranchReport_rows hreport
  obtain ⟨-, hrestricted, l, hstep⟩ := offBranchRun_reachable hrun
  have hopen : j.state ≠ .completed := by
    rw [hstate]
    exact nofun
  exact ⟨c, l, c', hrestricted rfl, hstep, j', hj', hstate',
    published_branch_is_accepted (hrestricted rfl) hstep hj hid hopen hj' hid' hstate'⟩

end OmarchyYolo
