import OmarchyYolo.Checkout
import OmarchyYolo.PublishedBranch

/-!
# OmarchyYolo.FinalGates — what the final gates have vouched for

Gates write what they like in the integration worktree, and agents do anything
there; a repair commits what it finds, and an integration nothing after its gates.
What is accepted is the commit of `HEAD`; what has been tested are the files. Those that Git
ignores are never removed, and are left out here.

* `Vouching` — the worktree, and what the last final gates and the last audit have said;
* `VouchAnswers` — what a call of the runner does;
* `commitAll_cleans`, `repairIntegration_cleans` — a repair leaves nothing uncommitted;
* `finalize_vouches` — what a finalization that returns has come to;
* `final_gates_vouch` — every acceptance of every run.
-/

namespace OmarchyYolo

open Py PyJson Sql Calls

/-! ## The candidate under test -/

/-- The database and the integration worktree, with what has been noted of the finalization. -/
structure Vouching (B : Type) where
  store : Store
  checkout : Checkout B
  /-- How often the final gates have been run since the task graph has returned. -/
  rounds : Nat
  /-- The worktree when they were last started, and their results. -/
  gated : Option (Checkout B × List GateResult)
  /-- The results that the last audit was about, and what it has said. -/
  audited : Option (List GateResult × ReviewResult)

section Vouching

variable {B : Type} (h : History (Files B)) (integrationPath : Str)

/-- How a call may change the worktree. Gates write files, reviewers nothing, and a command that
fails anything where it writes; during the calls that are not named, anything may be done. -/
def TestedChanges (e : JobEffect) (r : Except Raised e.Reply) (c c' : Checkout B) : Prop :=
  match e, r with
  | .task (.git cwd command), .ok reply =>
    if cwd = integrationPath then ∃ tips, command.Does h tips c reply c' else c' = c
  | .task (.git cwd command), .error _ => cwd = integrationPath ∧ command.writes = true ∨ c' = c
  | .task (.runGates _ _ _), _ => c' = { c with files := c'.files }
  | .task (.event _ _ _ _), _ | .task (.getJob _), _ | .task .suspend, _ | .task (.release _), _
  | .finalReview _ _ _ _, _ | .buildDossier _ _ _ _, _ => c' = c
  | _, _ => True

/-- What is noted of a call, which leaves the database and the worktree so. -/
def Vouching.note (w : Vouching B) (store : Store) (c : Checkout B) :
    (e : JobEffect) → Except Raised e.Reply → Vouching B
  | .executeDag _ _, _ => { store, checkout := c, rounds := 0, gated := none, audited := none }
  | .task (.runGates true _ _), .ok results =>
    { w with store, checkout := c, rounds := w.rounds + 1, gated := some (w.checkout, results) }
  | .finalReview _ results _ _, .ok review =>
    { w with store, checkout := c, audited := some (results, review) }
  | _, _ => { w with store, checkout := c }

/-- What a call of the runner does, beside the others who use the database. -/
structure VouchAnswers (F : Type) [PyFloat F] (sha256 : Str → Str) (jobId : Text) (e : JobEffect)
    (w : Vouching B) (r : Except Raised e.Reply) (w' : Vouching B) : Prop where
  store : ∃ s, w.store.Others F sha256 jobId s ∧ AnswersJob sha256 e s r w'.store
  checkout : TestedChanges h integrationPath e r w.checkout w'.checkout
  noted : w' = w.note w'.store w'.checkout e r

/-- The commit has been tested: it was that of `HEAD` when the last final gates were started, they
have passed, and so has the audit of their results. After a repair, nothing was uncommitted. -/
def Vouching.Tested (w : Vouching B) (commit : Str) : Prop :=
  ∃ started results review, w.gated = some (started, results) ∧ allOk results = true ∧
    w.audited = some (results, review) ∧ review.passed = true ∧ started.head = commit ∧
    (1 < w.rounds → started.Clean h)

/-- An acceptance is of a commit that has been tested. -/
def JobEffect.Vouched (e : JobEffect) (w : Vouching B) : Prop :=
  match e with
  | .prepareAcceptedJob _ args => w.Tested h args.acceptedCommit
  | _ => True

end Vouching

/-- Every acceptance of every run of the program is of a commit that has been tested. -/
abbrev Vouches {B : Type} (h : History (Files B)) (F : Type) [PyFloat F] (sha256 : Str → Str)
    (jobId : Text) (integrationPath : Str) {α : Type} (p : JobCoroutine α)
    (Post : Except Raised α → Vouching B → Prop) (w : Vouching B) : Prop :=
  Ensures (VouchAnswers h integrationPath F sha256 jobId) (JobEffect.Vouched h) p Post w

section Programs

variable {B : Type} {h : History (Files B)} {F : Type} [PyFloat F] {sha256 : Str → Str}
  {jobId : Text} {integrationPath : Str} {w w' : Vouching B} {e : JobEffect}
  {r : Except Raised e.Reply} {α β : Type} {p : JobCoroutine α} {cfg : JobConfig}

/-! ## Calls -/

theorem vouched_of_accepts (he : e.accepts = false) : e.Vouched h w := by
  cases e with
  | prepareAcceptedJob => cases he
  | _ => trivial

/-- The row of the job has the worktree. -/
def Vouching.Placed (w : Vouching B) (jobId : Text) (integrationPath : Str) : Prop :=
  ∃ j ∈ w.store.jobs, j.id = jobId ∧ j.integrationPath.val = integrationPath

theorem VouchAnswers.placed (hanswer : VouchAnswers h integrationPath F sha256 jobId e w r w')
    (he : e.accepts = false) (hplaced : w.Placed jobId integrationPath) :
    w'.Placed jobId integrationPath := by
  obtain ⟨s, hothers, hcall⟩ := hanswer.store
  obtain ⟨j, hj, hid, hpath⟩ := hplaced
  obtain ⟨j₁, hj₁, hid₁, hsame⟩ := hothers.keepsCandidate.forward j hj hid
  obtain ⟨j₂, hj₂, hid₂, hsame'⟩ := (answersJob_keepsCandidate hcall he).forward j₁ hj₁ hid₁
  refine ⟨j₂, hj₂, hid₂, ?_⟩
  rw [hsame'.integrationPath, hsame.integrationPath]
  exact hpath

theorem placed_keeps (hp : p.Makes fun e => e.accepts = false)
    (hplaced : w.Placed jobId integrationPath) :
    Vouches h F sha256 jobId integrationPath p (fun _ w' => w'.Placed jobId integrationPath) w :=
  hp.keeps (fun _ _ he _ => vouched_of_accepts he)
    (fun _ _ _ _ he hplaced hanswer => hanswer.placed he hplaced) hplaced

/-- The coroutines of tasks write no candidate. -/
theorem shared_accepts {q : Coroutine α} : (shared q).Makes fun e => e.accepts = false :=
  (makes_of_forall (fun _ => rfl) q).embed

/-- The call is an acceptance. -/
def JobEffect.prepares : JobEffect → Bool
  | .prepareAcceptedJob _ _ => true
  | _ => false

theorem plain_prepares (he : e.plain = true) : e.prepares = false := by
  cases e with
  | prepareAcceptedJob => cases he
  | _ => rfl

/-- Where nothing is to be established, and no acceptance is made, nothing has to be. -/
theorem vouches_trivially (hp : p.Makes fun e => e.prepares = false) :
    Vouches h F sha256 jobId integrationPath p (Returned fun _ _ => True) w := by
  have hguarded : ∀ (e : JobEffect) (w : Vouching B), e.prepares = false → e.Vouched h w := by
    intro e w he
    cases e with
    | prepareAcceptedJob => cases he
    | _ => trivial
  refine Ensures.imp (hp.keeps (fun e w he _ => hguarded e w he) (fun _ _ _ _ _ _ _ => trivial)
    (trivial : (fun _ : Vouching B => True) w)) fun r w' _ => ?_
  cases r with
  | ok a => trivial
  | error x => trivial

theorem shared_prepares {q : Coroutine α} : (shared q).Makes fun e => e.prepares = false :=
  (makes_of_forall (fun _ => rfl) q).embed

/-- The calls during which nobody is at work in the worktree. -/
def JobEffect.still : JobEffect → Bool
  | .task (.event _ _ _ _) | .task (.getJob _) | .task .suspend | .task (.release _)
  | .buildDossier _ _ _ _ => true
  | _ => false

/-- The database alone goes on. -/
def Vouching.Waits (w w' : Vouching B) : Prop := w' = { w with store := w'.store }

theorem VouchAnswers.waits (hanswer : VouchAnswers h integrationPath F sha256 jobId e w r w')
    (he : e.still = true) : w.Waits w' := by
  have hsame : w'.checkout = w.checkout := by
    have hchanges := hanswer.checkout
    cases e with
    | task e =>
      cases e with
      | event | getJob | suspend | release => cases r <;> exact hchanges
      | _ => cases he
    | buildDossier => cases r <;> exact hchanges
    | _ => cases he
  have hnoted : w' = { w with store := w'.store, checkout := w'.checkout } := by
    refine hanswer.noted.trans ?_
    cases e with
    | task e =>
      cases e with
      | event | getJob | suspend | release => rfl
      | _ => cases he
    | buildDossier => rfl
    | _ => cases he
  rw [hsame] at hnoted
  exact hnoted

theorem Vouching.Waits.trans {w'' : Vouching B} (hw : w.Waits w') (hw' : w'.Waits w'') :
    w.Waits w'' := by
  unfold Vouching.Waits at hw hw' ⊢
  rw [hw'] at ⊢
  rw [hw]

theorem vouched_of_still (he : e.still = true) : e.Vouched h w := by
  cases e with
  | prepareAcceptedJob => cases he
  | _ => trivial

theorem still_waits (hp : p.Makes fun e => e.still = true) :
    Vouches h F sha256 jobId integrationPath p (fun _ w' => w.Waits w') w :=
  hp.keeps (fun _ _ he _ => vouched_of_still he)
    (fun _ _ _ _ he hwaits hanswer => hwaits.trans (hanswer.waits he)) rfl

/-! ## Repairs -/

/-- The same, of a coroutine of a task. -/
abbrev RepairRuns {B : Type} (h : History (Files B)) (F : Type) [PyFloat F] (sha256 : Str → Str)
    (jobId : Text) (integrationPath : Str) {α : Type} (q : Coroutine α)
    (Good : α → Vouching B → Prop) (w : Vouching B) : Prop :=
  Ensures (fun e => VouchAnswers h integrationPath F sha256 jobId (.task e))
    (fun e => (JobEffect.task e).Vouched h) q (Returned Good) w

theorem repairRuns_trivial {q : Coroutine α} :
    RepairRuns h F sha256 jobId integrationPath q (fun _ _ => True) w :=
  ensures_trivial.imp fun _ _ hpost => hpost

/-- A call after which the worktree is as before. -/
theorem repairRuns_still {e : Effect} (he : (JobEffect.task e).still = true) :
    RepairRuns h F sha256 jobId integrationPath (perform e) (fun _ w' => w.Waits w') w := by
  refine ensures_perform.mpr ⟨trivial, fun r w' hanswer => ?_⟩
  cases r with
  | ok a => exact hanswer.waits he
  | error x => trivial

/-- A command in the worktree. -/
theorem gitCommand_runs {command : GitCommand} {Good : command.Reply → Vouching B → Prop}
    (hok : ∀ tips reply w', command.Does h tips w.checkout reply w'.checkout →
      w' = { w with store := w'.store, checkout := w'.checkout } → Good reply w') :
    RepairRuns h F sha256 jobId integrationPath (gitCommand integrationPath command) Good w := by
  refine ensures_perform.mpr ⟨trivial, fun r w' hanswer => ?_⟩
  cases r with
  | error x => trivial
  | ok reply =>
    have hchanges := hanswer.checkout
    simp only [TestedChanges, if_pos] at hchanges
    rcases hchanges with ⟨tips, hdoes⟩
    exact hok tips reply w' hdoes hanswer.noted

/-- What is committed is everything. -/
theorem clean_of_committed {c c' c'' : Checkout B} (hadded : c.AddedAll c')
    (hcommitted : c'.Committed h c'') : c''.Clean h := by
  rcases hadded with rfl
  rcases hcommitted with ⟨-, commit, -, htree, rfl⟩
  exact ⟨htree.symm, rfl, htree.symm⟩

/-- `commit_all` leaves nothing uncommitted. -/
theorem commitAll_cleans {message : Str} :
    RepairRuns h F sha256 jobId integrationPath (commitAll integrationPath message)
      (fun _ w' => w'.checkout.Clean h) w := by
  refine repairRuns_trivial.andThen fun _ w₁ _ => ?_
  have hstatus : RepairRuns h F sha256 jobId integrationPath (isClean integrationPath)
      (fun clean w' => clean = true → w'.checkout.Clean h) w₁ := by
    refine gitCommand_runs fun _ clean w' hdoes _ => ?_
    rcases hdoes with ⟨hclean, hsame⟩
    rw [hsame]
    exact hclean.mp
  have hhead : ∀ w₂ : Vouching B, w₂.checkout.Clean h →
      RepairRuns h F sha256 jobId integrationPath (head integrationPath)
        (fun _ w' => w'.checkout.Clean h) w₂ := by
    intro w₂ hclean
    refine gitCommand_runs fun _ commit w' hdoes _ => ?_
    rw [hdoes.2]
    exact hclean
  refine hstatus.andThen fun clean w₂ hclean => Ensures.ite (fun htrue => ?_) fun _ => ?_
  · exact hhead w₂ (hclean htrue)
  have hadd : RepairRuns h F sha256 jobId integrationPath (gitCommand integrationPath .addAll)
      (fun _ w' => w₂.checkout.AddedAll w'.checkout) w₂ :=
    gitCommand_runs fun _ _ _ hdoes _ => hdoes
  refine hadd.andThen fun _ w₃ hadded => ?_
  have hcommit : RepairRuns h F sha256 jobId integrationPath
      (gitCommand integrationPath (.commit (some message)))
      (fun _ w' => w'.checkout.Clean h) w₃ :=
    gitCommand_runs fun _ _ _ hdoes _ => clean_of_committed hadded hdoes
  exact hcommit.andThen fun _ w₄ hclean => hhead w₄ hclean

theorem Vouching.Waits.clean (hwaits : w.Waits w') (hclean : w.checkout.Clean h) :
    w'.checkout.Clean h := by
  rw [hwaits]
  exact hclean

/-- What a thread leaves stays until its caller goes on. -/
theorem atomicToThread_cleans {q : Coroutine α}
    (hq : RepairRuns h F sha256 jobId integrationPath q (fun _ w' => w'.checkout.Clean h) w) :
    RepairRuns h F sha256 jobId integrationPath (atomicToThread q)
      (fun _ w' => w'.checkout.Clean h) w := by
  refine ensures_attempt_bind.mpr (hq.imp fun outcome w₁ hmid => ?_)
  cases outcome with
  | error x => exact Ensures.andThen repairRuns_trivial fun _ _ _ => trivial
  | ok a => exact (repairRuns_still rfl).andThen fun _ w₂ hwaits => hwaits.clean hmid

/-- An agent that has repaired the issue leaves nothing uncommitted. -/
theorem repairWith_cleans {issue : Str} {owner : Option Text} {cycle : Nat} {agentName : Str} :
    RepairRuns h F sha256 jobId integrationPath
      (repairWith cfg.toEngineConfig jobId integrationPath issue owner cycle agentName)
      (fun repaired w' => repaired = true → w'.checkout.Clean h) w := by
  refine repairRuns_trivial.andThen fun job w₁ _ => ?_
  refine repairRuns_trivial.andThen fun result w₂ _ => ?_
  refine Ensures.ite (fun _ => ?_) fun _ hfalse => absurd hfalse Bool.false_ne_true
  refine (atomicToThread_cleans commitAll_cleans).andThen fun _ w₃ hclean => ?_
  refine (repairRuns_still rfl).andThen fun _ w₄ hwaits => ?_
  exact fun _ => hwaits.clean hclean

theorem repairLoop_cleans {issue : Str} {owner : Option Text} {candidates : List Str} {cycle : Nat}
    {actualSeen : List Str} :
    RepairRuns h F sha256 jobId integrationPath
      (repairLoop cfg.toEngineConfig jobId integrationPath issue owner candidates cycle actualSeen)
      (fun repaired w' => repaired = true → w'.checkout.Clean h) w := by
  induction candidates generalizing w cycle actualSeen with
  | nil => exact fun hfalse => absurd hfalse Bool.false_ne_true
  | cons candidate candidates ih =>
    refine Ensures.ite (fun _ hfalse => absurd hfalse Bool.false_ne_true) fun _ => ?_
    refine repairRuns_trivial.andThen fun choice w₁ _ => ?_
    cases choice with
    | none => exact ih
    | some agentName =>
      refine Ensures.ite (fun _ => ih) fun _ => ?_
      have hagent : RepairRuns h F sha256 jobId integrationPath
          (exceptWhen Raised.isException
            (repairWith cfg.toEngineConfig jobId integrationPath issue owner cycle agentName)
            fun x => do
              recordRepairError jobId owner x
              return false)
          (fun repaired w' => repaired = true → w'.checkout.Clean h) w₁ := by
        refine repairWith_cleans.tryCatch (fun _ _ hclean => hclean) fun x w₂ _ => ?_
        refine Ensures.ite (fun _ => ?_) fun _ => trivial
        exact repairRuns_trivial.andThen fun _ w₃ _ hfalse => absurd hfalse Bool.false_ne_true
      refine hagent.andThen fun repaired w₂ hclean => ?_
      exact Ensures.ite (fun htrue _ => hclean htrue) fun _ => ih

/-- A repair leaves nothing uncommitted. -/
theorem repairIntegration_cleans {issue : Str} {owner : Option Text} :
    RepairRuns h F sha256 jobId integrationPath
      (repairIntegration cfg.toEngineConfig jobId integrationPath issue owner)
      (fun repaired w' => repaired = true → w'.checkout.Clean h) w := repairLoop_cleans

/-! ## The finalization -/

/-- What the next final gates find: the worktree as the tasks have left it, or as a repair has. -/
def Vouching.Ready (h : History (Files B)) (w : Vouching B) : Prop :=
  w.rounds = 0 ∨ w.checkout.Clean h

/-- The final gates: what they were started on is noted, and `HEAD` stays. -/
theorem finalGates_runs {suffix : Str} (hready : w.Ready h) :
    Vouches h F sha256 jobId integrationPath
      (shared (runGates cfg.toEngineConfig jobId none integrationPath true suffix))
      (Returned fun results w' => ∃ started, w'.gated = some (started, results) ∧
        started.head = w'.checkout.head ∧ (1 < w'.rounds → started.Clean h)) w := by
  refine ensures_embed.mpr ?_
  -- the gates note the checkout on which they started
  have hgates : ∀ logPath, RepairRuns h F sha256 jobId integrationPath
      (perform (.runGates true integrationPath logPath))
      (fun results w' => ∃ started, w'.gated = some (started, results) ∧
        started.head = w'.checkout.head ∧ (1 < w'.rounds → started.Clean h)) w := by
    intro logPath
    refine ensures_perform.mpr ⟨trivial, fun r w' hanswer => ?_⟩
    -- gates that raised have noted nothing
    cases r with
    | error x => trivial
    | ok results =>
      have hfiles : w'.checkout = { w.checkout with files := w'.checkout.files } :=
        hanswer.checkout
      have hnoted : w' = { w with
          store := w'.store, checkout := w'.checkout, rounds := w.rounds + 1
          gated := some (w.checkout, results) } := hanswer.noted
      have hrounds : w'.rounds = w.rounds + 1 := congrArg Vouching.rounds hnoted
      have hhead : w'.checkout.head = w.checkout.head := by rw [hfiles]
      refine ⟨w.checkout, congrArg Vouching.gated hnoted, hhead.symm, fun hlater => ?_⟩
      -- the first round needs no clean checkout, a later one has it from the repair
      rcases hready with hfirst | hclean
      · omega
      · exact hclean
  refine (hgates _).andThen fun results w₁ hmid => ?_
  -- the event leaves the note
  refine (repairRuns_still rfl).andThen fun _ w₂ hwaits => ?_
  show ∃ started, w₂.gated = some (started, results) ∧ _
  rw [hwaits]
  exact hmid

/-- A call of the runner after which the worktree is as before. -/
theorem vouches_still (hp : p.Makes fun e => e.still = true) :
    Vouches h F sha256 jobId integrationPath p (Returned fun _ w' => w.Waits w') w := by
  refine (still_waits hp).imp fun r w' hwaits => ?_
  cases r with
  | ok a => exact hwaits
  | error x => trivial

/-- Reviewers write nothing. -/
theorem finalReview_runs {reviewerName : Str} {results : List GateResult} {cycle : Nat} :
    Vouches h F sha256 jobId integrationPath
      (performJob (.finalReview integrationPath results reviewerName cycle))
      (Returned fun review w' =>
        w' = { w with store := w'.store, audited := some (results, review) }) w := by
  refine ensures_perform.mpr ⟨trivial, fun r w' hanswer => ?_⟩
  cases r with
  | error x => trivial
  | ok review =>
    have hsame : w'.checkout = w.checkout := hanswer.checkout
    have hnoted : w' = { w with
        store := w'.store, checkout := w'.checkout, audited := some (results, review) } :=
      hanswer.noted
    rw [hsame] at hnoted
    exact hnoted

theorem repairOrRaise_cleans {issue : Str} {failure : String} :
    Vouches h F sha256 jobId integrationPath
      (repairOrRaise cfg jobId integrationPath issue failure)
      (Returned fun _ w' => w'.checkout.Clean h) w := by
  have hrepair : Vouches h F sha256 jobId integrationPath
      (shared (repairIntegration cfg.toEngineConfig jobId integrationPath issue))
      (Returned fun repaired w' => repaired = true → w'.checkout.Clean h) w :=
    ensures_embed.mpr repairIntegration_cleans
  exact hrepair.andThen fun repaired w₁ hclean =>
    Ensures.ite (fun htrue => hclean htrue) fun _ => trivial

/-- What a finalization that returns has come to. -/
theorem finalizeLoop_vouches {reviewerName : Str} {cycles : List Nat} (hready : w.Ready h) :
    Vouches h F sha256 jobId integrationPath
      (finalizeLoop cfg jobId integrationPath reviewerName cycles)
      (Returned fun _ w' => w'.Tested h w'.checkout.head) w := by
  induction cycles generalizing w with
  | nil => trivial
  | cons cycle cycles ih =>
    refine (finalGates_runs hready).andThen fun results w₁ hgated => ?_
    rcases hgated with ⟨started, hgated, hhead, hclean⟩
    refine Ensures.ite (fun hok => ?_) fun _ => ?_
    · refine finalReview_runs.andThen fun (review : ReviewResult) w₂ hreviewed => ?_
      refine Ensures.andThen (vouches_still (Program.Makes.embed (makes_perform rfl)))
        fun _ w₃ hwaits => ?_
      have htested : review.passed = true → w₃.Tested h w₃.checkout.head := by
        intro hpassed
        refine ⟨started, results, review, ?_⟩
        rw [hwaits, hreviewed]
        exact ⟨hgated, hok, rfl, hpassed, hhead, hclean⟩
      refine Ensures.ite (fun hpassed => htested hpassed) fun _ => ?_
      refine Ensures.ite (fun _ => trivial) fun _ => ?_
      exact repairOrRaise_cleans.andThen fun _ w₄ hclean => ih (Or.inr hclean)
    · have hformat : Vouches h F sha256 jobId integrationPath
          (shared (liftExn (formatGates results))) (Returned fun _ _ => True) w₁ :=
        vouches_trivially shared_prepares
      refine hformat.andThen fun gatesText w₂ _ => ?_
      refine Ensures.ite (fun _ => trivial) fun _ => ?_
      exact repairOrRaise_cleans.andThen fun _ w₃ hclean => ih (Or.inr hclean)

/-- The calls of a finalization are those of tasks, and the audits. -/
theorem finalize_makes {Q : JobEffect → Prop} (htask : ∀ e, Q (.task e))
    (hreview : ∀ cwd results name cycle, Q (.finalReview cwd results name cycle)) :
    (finalize cfg jobId integrationPath).Makes Q := by
  have hshared : ∀ {α : Type} (q : Coroutine α), (shared q).Makes Q := fun q =>
    (makes_of_forall htask q).embed
  have hrepair : ∀ issue failure,
      (repairOrRaise cfg jobId integrationPath issue failure).Makes Q := fun _ _ =>
    (hshared _).bind fun _ => makes_ite makes_pure makes_raise
  have hloop : ∀ reviewerName cycles,
      (finalizeLoop cfg jobId integrationPath reviewerName cycles).Makes Q := by
    intro reviewerName cycles
    induction cycles with
    | nil => exact makes_raise
    | cons cycle cycles ih =>
      refine (hshared _).bind fun results => ?_
      apply makes_ite
      · refine Program.Makes.bind (makes_perform (hreview _ _ _ _)) fun review => ?_
        refine (hshared _).bind fun _ => ?_
        apply makes_ite makes_pure
        apply makes_ite makes_raise
        exact (hrepair _ _).bind fun _ => ih
      · refine (hshared _).bind fun gatesText => ?_
        apply makes_ite makes_raise
        exact (hrepair _ _).bind fun _ => ih
  exact (hshared _).bind fun reviewerName => hloop reviewerName _

theorem withJobLock_makes {Q : JobEffect → Prop} {lock : Lock} (htask : ∀ e, Q (.task e))
    (hp : p.Makes Q) : (withJobLock lock p).Makes Q :=
  Program.Makes.bind (makes_perform (htask _)) fun _ => hp.attempt.bind fun _ =>
    Program.Makes.bind (makes_perform (htask _)) fun _ => makes_ofExcept

/-- The final gates have not been run since the task graph has returned. -/
theorem VouchAnswers.unstarted (hanswer : VouchAnswers h integrationPath F sha256 jobId e w r w')
    (he : ∀ cwd logPath, e ≠ .task (.runGates true cwd logPath)) (hrounds : w.rounds = 0) :
    w'.rounds = 0 := by
  rw [hanswer.noted]
  unfold Vouching.note
  split
  · rfl
  · rename_i cwd logPath results
    exact absurd rfl (he cwd logPath)
  · exact hrounds
  · exact hrounds

theorem task_unstarted {e : Effect} (he : ∀ cwd logPath, e ≠ .runGates true cwd logPath)
    (hrounds : w.rounds = 0) :
    Vouches h F sha256 jobId integrationPath (performJob (.task e))
      (Returned fun _ w' => w'.rounds = 0) w := by
  refine ensures_perform.mpr ⟨trivial, fun r w' hanswer => ?_⟩
  cases r with
  | error x => trivial
  | ok a =>
    exact hanswer.unstarted (fun cwd logPath heq => he cwd logPath (JobEffect.task.inj heq)) hrounds

/-- What a finalization that returns has come to. -/
theorem finalize_vouches (hrounds : w.rounds = 0) :
    Vouches h F sha256 jobId integrationPath (finalize cfg jobId integrationPath)
      (Returned fun _ w' => w'.Tested h w'.checkout.head) w := by
  have hchoice : Vouches h F sha256 jobId integrationPath
      (shared (perform (.chooseRole cfg.reviewerAgent cfg.workerAgents .reviewer)))
      (Returned fun _ w' => w'.rounds = 0) w := by
    refine ensures_embed.mpr (ensures_perform.mpr ⟨trivial, fun r w' hanswer => ?_⟩)
    cases r with
    | error x => trivial
    | ok a => exact hanswer.unstarted (fun _ _ heq => by cases heq) hrounds
  exact hchoice.andThen fun reviewerName w₁ hrounds => finalizeLoop_vouches (Or.inl hrounds)

/-! ## The acceptance -/

/-- The row of the job, with the worktree. -/
theorem getJob_placed (hplaced : w.Placed jobId integrationPath) :
    Vouches h F sha256 jobId integrationPath (shared (perform (.getJob jobId)))
      (Returned fun j w' => j.id = jobId ∧ j.integrationPath.val = integrationPath ∧
        w.Waits w') w := by
  refine ensures_embed.mpr (ensures_perform.mpr ⟨trivial, fun r w' hanswer => ?_⟩)
  cases r with
  | error x => trivial
  | ok j =>
    rcases hanswer.placed rfl hplaced with ⟨j₀, hj₀, hid₀, hpath⟩
    rcases hanswer.store with ⟨s, -, x, hx, hrun⟩
    obtain rfl : x = getJob jobId.val := hx
    rcases getJob_cases hrun with ⟨hsame, id, hid, hjob⟩
    rcases Store.mem_of_job? hjob with ⟨hmem, hown⟩
    have hjobId : j.id = jobId := hown.trans (Text.ext hid)
    rw [← hsame] at hmem
    have hrow : j = j₀ := Store.eq_of_id hmem hj₀ (hjobId.trans hid₀.symm)
    rw [hrow]
    exact ⟨hid₀, hpath, hanswer.waits rfl⟩

/-- The commit that is read is that of the worktree. -/
theorem head_runs :
    Vouches h F sha256 jobId integrationPath (shared (toThread (head integrationPath)))
      (Returned fun commit w' => commit = w.checkout.head ∧ w.Waits w') w := by
  refine ensures_embed.mpr (ensures_attempt_bind.mpr ?_)
  have hread : RepairRuns h F sha256 jobId integrationPath (head integrationPath)
      (fun commit w' => commit = w.checkout.head ∧ w.Waits w') w := by
    refine gitCommand_runs fun _ commit w' hdoes hnoted => ⟨hdoes.1, ?_⟩
    rw [hdoes.2] at hnoted
    exact hnoted
  refine hread.imp fun outcome w₁ hmid => ?_
  cases outcome with
  | error x => exact Ensures.andThen repairRuns_trivial fun _ _ _ => trivial
  | ok commit =>
    refine (repairRuns_still rfl).andThen fun _ w₂ hwaits => ?_
    exact ⟨hmid.1, hmid.2.trans hwaits⟩

/-- From the journal on, there is no further acceptance. -/
theorem resumeAcceptedJob_prepares {job : JobRow} :
    (resumeAcceptedJob job).Makes fun e => e.prepares = false := by
  -- each call of the resumption, from the inside out: none prepares an acceptance
  have hperform : ∀ e : JobEffect, e.prepares = false →
      (performJob e).Makes fun e => e.prepares = false := fun _ he => makes_perform he
  have hresolve : ∀ branch, (resolveBranchCommit branch).Makes fun e => e.prepares = false :=
    fun _ => shared_prepares.bind fun _ => Program.Makes.bind (hperform _ rfl) fun _ =>
      makes_ite shared_prepares makes_pure
  have hfromHead : ∀ base accepted,
      (reconcileFromHead base accepted).Makes fun e => e.prepares = false := by
    intro base accepted
    refine Program.Makes.bind (hperform _ rfl) fun _ => ?_
    apply makes_ite makes_pure
    refine Program.Makes.bind (hperform _ rfl) fun _ => ?_
    apply makes_ite makes_pure
    apply makes_ite makes_pure
    refine Program.Makes.bind (hperform _ rfl) fun _ => ?_
    refine Program.Makes.bind (hperform _ rfl) fun _ => ?_
    exact makes_ite shared_prepares makes_pure
  have hreconcile : ∀ integration branch base accepted,
      (reconcileFastForwardSource integration branch base accepted).Makes
        fun e => e.prepares = false := by
    intro integration branch base accepted
    refine (hresolve _).bind fun _ => ?_
    apply makes_ite shared_prepares
    apply makes_ite makes_pure
    refine Program.Makes.bind (hperform _ rfl) fun _ => ?_
    apply makes_ite makes_pure
    refine Program.Makes.bind (hperform _ rfl) fun _ => ?_
    exact makes_ite (hfromHead _ _) makes_pure
  have happly : ∀ accepted, (applySource accepted).Makes fun e => e.prepares = false := by
    intro accepted
    unfold applySource
    cases accepted.sourceApplyIntent with
    | notRequested => exact makes_pure
    | requested =>
      refine Program.Makes.bind
        (makes_ite ((hperform _ rfl).bind fun _ => shared_prepares) makes_pure) fun _ => ?_
      refine (withJobLock_makes (fun _ => rfl) ?_).bind fun _ => makes_pure
      exact (hreconcile _ _ _ _).attempt.bind fun _ => (hperform _ rfl).bind fun _ =>
        makes_ofExcept
  -- the dossier is verified, the source applied, and the job published
  apply makes_ite makes_raise
  apply makes_ite makes_raise
  have hverified : (verifiedDossier job.id).Makes fun e => e.prepares = false :=
    verifiedDossier_calls.mono fun e he => plain_prepares (quiet_plain (reading_quiet he)).1
  refine hverified.bind fun dossier => (happly job).bind fun _ => ?_
  exact (hperform _ rfl).bind fun _ => hperform _ rfl

theorem Vouching.Waits.tested {commit : Str} (hwaits : w.Waits w') (htested : w.Tested h commit) :
    w'.Tested h commit := by
  rw [hwaits]
  exact htested

theorem Vouching.Waits.head (hwaits : w.Waits w') : w'.checkout.head = w.checkout.head := by
  rw [hwaits]

/-- The acceptance of a candidate is of the commit that has been tested. -/
theorem completeAcceptedJob_vouches {finalSummary : Str}
    (hplaced : w.Placed jobId integrationPath) (htested : w.Tested h w.checkout.head) :
    Vouches h F sha256 jobId integrationPath (completeAcceptedJob jobId finalSummary)
      (Returned fun _ _ => True) w := by
  refine (getJob_placed hplaced).andThen fun accepted w₁ hread => ?_
  rcases hread with ⟨-, hpath, hwaits₁⟩
  rw [hpath]
  refine head_runs.andThen fun finalCommit w₂ hread => ?_
  rcases hread with ⟨hcommit, hwaits₂⟩
  have hbuilt : Vouches h F sha256 jobId integrationPath
      (performJob (.buildDossier accepted.id finalCommit finalSummary (applyIntent accepted)))
      (Returned fun _ w' => w₂.Waits w') w₂ := vouches_still (makes_perform rfl)
  refine hbuilt.andThen ?_
  rintro ⟨content, digest⟩ w₃ hwaits₃
  have haccepted : w₃.Tested h finalCommit := by
    rw [hcommit, hwaits₁.head]
    exact hwaits₃.tested (hwaits₂.tested (hwaits₁.tested htested))
  have hprepare : ∀ dossier, Vouches h F sha256 jobId integrationPath
      (performJob (.prepareAcceptedJob accepted.id
        { acceptedCommit := finalCommit, finalSummary := finalSummary
          sourceApplyIntent := applyIntent accepted, dossier := dossier }))
      (Returned fun _ _ => True) w₃ := by
    refine fun dossier => ensures_perform.mpr ⟨haccepted, fun r w' _ => ?_⟩
    cases r with
    | ok a => trivial
    | error x => trivial
  refine (hprepare _).andThen fun _ w₄ _ => ?_
  exact vouches_trivially (shared_prepares.bind fun _ => resumeAcceptedJob_prepares)

/-- What follows a program whatever its outcome, and leaves the worktree alone. -/
theorem vouches_finally {Good : α → Vouching B → Prop} (he : e.still = true)
    (hgood : ∀ a w w', Good a w → w.Waits w' → Good a w')
    (hp : Vouches h F sha256 jobId integrationPath p (Returned Good) w) :
    Vouches h F sha256 jobId integrationPath
      (p.attempt >>= fun outcome => performJob e >>= fun _ => .ofExcept outcome)
      (Returned Good) w := by
  refine ensures_attempt_bind.mpr (hp.imp fun outcome w₁ hmid => ?_)
  refine (vouches_still (makes_perform he)).andThen fun _ w₂ hwaits => ?_
  refine ensures_ofExcept.mpr ?_
  cases outcome with
  | ok a => exact hgood a w₁ w₂ hmid hwaits
  | error x => trivial

/-! ## The runner -/

/-- A part that writes no candidate. -/
theorem placed_then {f : α → JobCoroutine β} {Mid : α → Vouching B → Prop}
    {Post : β → Vouching B → Prop} (hp : p.Makes fun e => e.accepts = false)
    (hplaced : w.Placed jobId integrationPath)
    (hmid : Vouches h F sha256 jobId integrationPath p (Returned Mid) w)
    (hrest : ∀ a w', Mid a w' → w'.Placed jobId integrationPath →
      Vouches h F sha256 jobId integrationPath (f a) (Returned Post) w') :
    Vouches h F sha256 jobId integrationPath (p >>= f) (Returned Post) w :=
  ((placed_keeps hp hplaced).and hmid).bind (fun a w' hboth => hrest a w' hboth.2 hboth.1)
    fun _ _ _ => trivial

theorem concludeJob_vouches (hrounds : w.rounds = 0) (hplaced : w.Placed jobId integrationPath) :
    Vouches h F sha256 jobId integrationPath (concludeJob cfg jobId integrationPath)
      (Returned fun _ _ => True) w := by
  -- the job is read, and no gate has run yet
  refine placed_then shared_accepts hplaced (getJob_placed hplaced)
    fun current w₁ hread hplaced₁ => ?_
  rcases hread with ⟨-, -, hwaits₁⟩
  refine Ensures.ite (fun _ => trivial) fun _ => ?_
  have hrounds₁ : w₁.rounds = 0 := by
    rw [hwaits₁]
    exact hrounds
  -- the finalization ends with gates that passed on the head of then
  have hfinal : Vouches h F sha256 jobId integrationPath
      (withJobLock .workerSlot (finalize cfg jobId integrationPath))
      (Returned fun _ w' => w'.Tested h w'.checkout.head) w₁ := by
    have hacquire : ∀ cwd logPath, Effect.acquire .workerSlot ≠ .runGates true cwd logPath :=
      fun _ _ heq => by cases heq
    refine (task_unstarted hacquire hrounds₁).andThen fun _ w₂ hrounds₂ => ?_
    refine vouches_finally (e := .task (.release .workerSlot)) rfl (fun _ w w' htested hwaits => ?_)
      (finalize_vouches hrounds₂)
    rw [hwaits.head]
    exact hwaits.tested htested
  refine placed_then (withJobLock_makes (fun _ => rfl)
    (finalize_makes (fun _ => rfl) fun _ _ _ _ => rfl)) hplaced₁ hfinal
    fun finalSummary w₂ htested hplaced₂ => ?_
  -- reading the job once more leaves the head and the note
  refine placed_then shared_accepts hplaced₂ (getJob_placed hplaced₂)
    fun job w₃ hread hplaced₃ => ?_
  rcases hread with ⟨hid, -, hwaits₃⟩
  rw [hid]
  have htested₃ : w₃.Tested h w₃.checkout.head := by
    rw [hwaits₃.head]
    exact hwaits₃.tested htested
  -- so the acceptance is of a commit that was tested
  have hcomplete : Vouches h F sha256 jobId integrationPath
      (finishJobBeforeCancel (completeAcceptedJob jobId finalSummary))
      (Returned fun _ _ => True) w₃ :=
    vouches_finally (e := .task .suspend) rfl (fun _ _ _ _ _ => trivial)
      (completeAcceptedJob_vouches hplaced₃ htested₃)
  exact hcomplete.andThen fun _ w₄ _ =>
    vouches_trivially (cleanupJob_plain.mono fun _ he => plain_prepares he)

/-- The column that an update of the worktree binds. -/
theorem bindTexts_integrationPath {texts : JobTexts}
    (htexts : JobFields.bindTexts { integrationPath := some integrationPath } = .ok texts) :
    ∃ path : Text, texts.integrationPath = some path ∧ path.val = integrationPath := by
  simp only [JobFields.bindTexts, bind_ok_iff, bindOption, Except.map] at htexts
  rcases htexts with ⟨path?, hpath, _, -, _, -, hret⟩
  cases hret
  split at hpath
  · cases hpath
  · rename_i path hbound
    cases hpath
    exact ⟨path, rfl, bindText_eq_ok.mp hbound⟩

/-- The row of the job gets the worktree. -/
theorem updateJob_places :
    Vouches h F sha256 jobId integrationPath
      (performJob (.updateJob jobId { integrationPath := some integrationPath }))
      (Returned fun _ w' => w'.Placed jobId integrationPath) w := by
  refine ensures_perform.mpr ⟨trivial, fun r w' hanswer => ?_⟩
  cases r with
  | error x => trivial
  | ok a =>
    rcases hanswer.store with ⟨s, -, x, hx, hrun⟩
    rcases hx with ⟨now, rfl⟩
    rcases updateJob_cases hrun with ⟨hempty, -⟩ |
      ⟨id, job, texts, target, hid, hjob, -, -, -, -, htexts, hwritten, -⟩
    · rw [JobFields.isEmpty, beq_iff_eq] at hempty
      cases hempty
    · rcases Store.mem_of_job? hjob with ⟨hmem, hown⟩
      rcases bindTexts_integrationPath htexts with ⟨path, hbound, hpath⟩
      have hhit : (job.id == id && job.state == job.state) = true := by
        simp only [hown, beq_self_eq_true, Bool.and_self]
      have hrow : JobFields.write { integrationPath := some integrationPath } texts target now job ∈
          s.jobs.update (fun j => j.id == id && j.state == job.state)
            (JobFields.write { integrationPath := some integrationPath } texts target now)
            (JobFields.write_id { integrationPath := some integrationPath } texts target now) :=
        Table.mem_update_of_pos _ hmem hhit
      show ∃ j ∈ w'.store.jobs, j.id = jobId ∧ j.integrationPath.val = integrationPath
      rw [hwritten]
      refine ⟨_, hrow, hown.trans (Text.ext hid), ?_⟩
      rw [JobFields.write, hbound]
      exact hpath

theorem planUnplanned_accepts :
    (planUnplanned cfg jobId integrationPath).Makes fun e => e.accepts = false := by
  have hperform : ∀ e : JobEffect, e.accepts = false →
      (performJob e).Makes fun e => e.accepts = false := fun _ he => makes_perform he
  have hplan : (planJob cfg jobId integrationPath).Makes fun e => e.accepts = false := by
    refine shared_accepts.bind fun job => ?_
    refine (hperform _ rfl).bind fun _ => ?_
    refine shared_accepts.bind fun _ => shared_accepts.bind fun plannerName => ?_
    refine Program.Makes.bind (Program.Makes.tryCatch ?_ fun x => ?_) fun tasks => hperform _ rfl
    · refine (hperform _ rfl).bind fun planned => ?_
      exact shared_accepts.bind fun _ => makes_pure
    · exact makes_ite (shared_accepts.bind fun _ => makes_pure) makes_raise
  refine Program.Makes.bind (hperform _ rfl) fun (tasks : List TaskRow) => ?_
  exact makes_ite (withJobLock_makes (fun _ => rfl) hplan) makes_pure

/-- A run that makes an acceptance makes it of a commit that has been tested. -/
theorem candidateRun_vouches {job : JobRow} :
    Vouches h F sha256 jobId integrationPath (candidateRun cfg jobId job integrationPath)
      (Returned fun _ _ => True) w := by
  refine (vouches_trivially shared_prepares).andThen fun _ w₁ _ => ?_
  refine updateJob_places.andThen fun _ w₂ hplaced₂ => ?_
  refine placed_then shared_accepts hplaced₂ (vouches_trivially shared_prepares)
    fun _ w₃ _ hplaced₃ => ?_
  refine placed_then planUnplanned_accepts hplaced₃
    (vouches_trivially (planUnplanned_plain.mono fun _ he => plain_prepares he))
    fun _ w₄ _ hplaced₄ => ?_
  refine placed_then (makes_perform rfl) hplaced₄ (vouches_trivially (makes_perform rfl))
    fun _ w₅ _ hplaced₅ => ?_
  refine placed_then shared_accepts hplaced₅ (vouches_trivially shared_prepares)
    fun _ w₆ _ hplaced₆ => ?_
  have hgraph : Vouches h F sha256 jobId integrationPath
      (performJob (.executeDag jobId integrationPath)) (Returned fun _ w' => w'.rounds = 0)
      w₆ := by
    refine ensures_perform.mpr ⟨trivial, fun r w' hanswer => ?_⟩
    cases r with
    | error x => trivial
    | ok a =>
      rw [hanswer.noted]
      rfl
  exact placed_then (makes_perform rfl) hplaced₆ hgraph fun _ w₇ hrounds hplaced₇ =>
    concludeJob_vouches hrounds hplaced₇

end Programs

/-- Whatever the tasks, the agents and the gates do in the integration worktree, and whichever
command fails: each acceptance of each run of the runner is of the commit that `HEAD` was at when
the last final gates were started, these gates have passed, and so has the audit of their results;
and if a repair has gone before, then apart from what Git ignores they have tested the files of
that commit and no others. -/
theorem final_gates_vouch {B : Type} (h : History (Files B)) (F : Type) [PyFloat F]
    (sha256 : Str → Str) (cfg : JobConfig) (jobId : Text) (w : Vouching B) :
    Vouches h F sha256 jobId (cfg.worktreesDir ++ lit "/" ++ jobId.val ++ lit "/integration")
      (runJob cfg jobId) (Returned fun _ _ => True) w := by
  refine (vouches_trivially shared_prepares).andThen fun job w₁ _ => ?_
  refine (vouches_trivially shared_prepares).andThen fun _ w₂ _ => ?_
  have hbody : Vouches h F sha256 jobId
      (cfg.worktreesDir ++ lit "/" ++ jobId.val ++ lit "/integration")
      (runBody cfg jobId job (cfg.worktreesDir ++ lit "/" ++ jobId.val ++ lit "/integration"))
      (Returned fun _ _ => True) w₂ := by
    refine Ensures.ite (fun _ => ?_) fun _ => candidateRun_vouches
    refine vouches_trivially (Program.Makes.bind ?_ fun _ => shared_prepares.bind fun _ =>
      cleanupJob_plain.mono fun _ he => plain_prepares he)
    exact resumeAcceptedJob_prepares.attempt.bind fun _ =>
      Program.Makes.bind (makes_perform rfl) fun _ => makes_ofExcept
  refine hbody.tryCatch (fun _ _ _ => trivial) fun x w₃ _ => vouches_trivially ?_
  have hsettled : (settleFailed jobId job x.message).Makes fun e => e.prepares = false :=
    settleFailed_quiet.mono fun e he => plain_prepares (quiet_plain he).1
  have hcancelled : (settleCancelled jobId).Makes fun e => e.prepares = false :=
    settleCancelled_quiet.mono fun e he => plain_prepares (quiet_plain he).1
  exact Program.Makes.join hsettled hcancelled fun _ => makes_raise

end OmarchyYolo
