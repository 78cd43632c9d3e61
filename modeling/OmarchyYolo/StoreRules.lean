import OmarchyYolo.Lib.Follows
import OmarchyYolo.Lib.JsonLoads
import OmarchyYolo.StoreInvariants

/-!
# OmarchyYolo.StoreRules — what the statements keep, the operations keep

Every operation is a sequence of statements in transactions. A relation between
stores that each of the statements follows is followed by the operations.

* `Allows` — what is asked of the relation, statement by statement;
* `operation_follows` — the operations follow it.
-/

namespace OmarchyYolo

open Py PyJson Sql Txn

/-- The columns that say what has been accepted of a job. -/
structure JobRow.SameStanding (j j' : JobRow) : Prop where
  integrationBranch : j'.integrationBranch = j.integrationBranch
  acceptedCommit : j'.acceptedCommit = j.acceptedCommit
  acceptancePhase : j'.acceptancePhase = j.acceptancePhase
  sourceApplyIntent : j'.sourceApplyIntent = j.sourceApplyIntent

/-- The same, with the worktree of the candidate, what is to be done with it, and why it has not
been done. -/
structure JobRow.SameCandidate (j j' : JobRow) : Prop where
  standing : j.SameStanding j'
  integrationPath : j'.integrationPath = j.integrationPath
  autoApply : j'.autoApply = j.autoApply
  sourceApplyReason : j'.sourceApplyReason = j.sourceApplyReason

/-- The row of a job as it is inserted. -/
structure JobRow.Fresh (j : JobRow) : Prop where
  acceptancePhase : j.acceptancePhase = .none
  acceptedCommit : j.acceptedCommit.val = []
  sourceApplyReason : j.sourceApplyReason.val = []

theorem JobRow.SameStanding.refl (j : JobRow) : j.SameStanding j := ⟨rfl, rfl, rfl, rfl⟩

theorem JobRow.SameCandidate.refl (j : JobRow) : j.SameCandidate j := ⟨.refl j, rfl, rfl, rfl⟩

/-- An integer that a column holds. -/
def FitsColumn (n : Int) : Prop := -2 ^ 63 ≤ n ∧ n < 2 ^ 63

theorem fitsColumn_of_bindInt {n m : Int} (h : bindInt n = .ok m) : FitsColumn m := by
  unfold bindInt at h
  split_ifs at h with hfits
  cases h
  exact hfits

/-- The statements follow the relation: `restates` and `rewrites` are the ways of rewriting jobs
and tasks that it allows, and `readable` are the payloads of events. -/
structure Allows (R : Store → Store → Prop) (restates : (JobRow → Bool) → (JobRow → JobRow) → Prop)
    (rewrites : (TaskRow → TaskRow) → Prop) (readable : Str → Prop) : Prop where
  jobs : ∀ p f keeps, restates p f → Follows R (updateJobs p f keeps)
  tasks : ∀ p f keeps, rewrites f → Follows R (updateTasks p f keeps)
  /-- Only running attempts are rewritten. -/
  attempts : ∀ p f keeps, (∀ a, p a = true → a.state = .running) →
    Follows R (updateAttempts p f keeps)
  dossiers : ∀ p keeps, Follows R (updateDossiers p publishDossier keeps)
  job : ∀ job : JobRow, job.Fresh → Follows R (insertJob job)
  task : ∀ task : TaskRow, task.attempts = 0 → Follows R (insertTask task)
  dossier : ∀ dossier : DossierRow, FitsColumn dossier.schemaVersion →
    Follows R (upsertDossier dossier)
  event : ∀ jobId taskId kind payload now, readable payload →
    Follows R (insertEvent jobId taskId kind payload now)
  /-- Most operations leave the candidate alone. -/
  kept : ∀ p f, (∀ j : JobRow, j.SameCandidate (f j)) → restates p f
  moved : ∀ state now, rewrites (moveTask state now)
  settled : ∀ state now summary, rewrites (settleTask state now summary)
  /-- The payload of an event that has none. -/
  bare : readable (jsonDumps (.obj .nil : Json NonFinite))

/-- The operation inserts an attempt. -/
def Operation.Starts {F : Type} (op : Operation F) : Prop :=
  ∃ newId now args, op = .call (.startAttempt newId now args)

/-- The operation rewrites a task so, by the fields that it is given. -/
def Operation.Writes {F : Type} (op : Operation F) (f : TaskRow → TaskRow) : Prop :=
  ∃ taskId fields now columns target, op = .call (.updateTask taskId fields now) ∧
    fields.bindColumns = .ok columns ∧ f = columns.write target now

/-- The operation rewrites jobs so: by the fields that it is given, or in accepting a candidate. -/
def Operation.States {F : Type} (op : Operation F) (p : JobRow → Bool) (f : JobRow → JobRow) :
    Prop :=
  match op with
  | .call (.updateJob jobId fields now) => (∀ j, p j = true → j.id.val = jobId) ∧
      ∃ texts target, fields.bindTexts = .ok texts ∧ f = fields.write texts target now
  | .call (.prepareAcceptedJob jobId _ _ _) | .call (.markApplyStarted jobId _ _)
  | .call (.publishCompletedJob jobId _ _) => ∀ j, p j = true → j.id.val = jobId
  | _ => False

/-- The operation may write an event of its own with this payload. -/
def Operation.Tells {F : Type} (op : Operation F) (payload : Json NonFinite) : Prop :=
  match op with
  | .call (.createJob _ _ args) => payload = createdPayload args.goal args.repo
  | .call (.prepareAcceptedJob _ args _ _) => payload = acceptedPayload args
  | .call (.markApplyStarted _ acceptedCommit _) => payload = applyStartedPayload acceptedCommit
  | .call (.publishCompletedJob _ args _) =>
    ∃ job outcome, ∃ event ∈ publicationEvents job args outcome, event.2 = payload
  | _ => False

theorem publicationEvents_floatFree (job : JobRow) (args : Publication)
    (outcome : SourceApplyOutcome) : ∀ event ∈ publicationEvents job args outcome,
      ∃ ms : Members NonFinite, event.2 = .obj ms ∧ ms.FloatFree := by
  intro event hevent
  rcases List.mem_append.mp hevent with hevent | hevent
  · rcases List.mem_append.mp hevent with hevent | hevent
    · rw [List.mem_singleton.mp hevent]
      exact ⟨_, rfl, trivial, trivial, trivial, trivial⟩
    · cases outcome with
      | applied =>
        rw [List.mem_singleton.mp hevent]
        exact ⟨_, rfl, trivial, trivial, trivial⟩
      | skipped =>
        rw [List.mem_singleton.mp hevent]
        exact ⟨_, rfl, trivial, trivial⟩
      | none | notRequested => exact absurd hevent List.not_mem_nil
  · rw [List.mem_singleton.mp hevent]
    exact ⟨_, rfl, trivial, trivial, trivial, trivial, trivial, trivial⟩

/-- The operations write no floats of their own. -/
theorem Operation.Tells.floatFree {F : Type} {op : Operation F} {payload : Json NonFinite}
    (h : op.Tells payload) : ∃ ms : Members NonFinite, payload = .obj ms ∧ ms.FloatFree := by
  unfold Operation.Tells at h
  split at h
  · exact ⟨_, h, trivial, trivial, trivial⟩
  · exact ⟨_, h, trivial, trivial, trivial, trivial⟩
  · exact ⟨_, h, trivial, trivial⟩
  · obtain ⟨job, outcome, event, hmem, rfl⟩ := h
    exact publicationEvents_floatFree job _ outcome event hmem
  · exact h.elim

/-- The operation may write the candidate of the job. -/
def Operation.Accepts {F : Type} (jobId : Text) : Operation F → Prop
  | .call (.updateJob id fields _) =>
    id = jobId.val ∧ (fields.integrationPath.isSome ∨ fields.autoApply.isSome)
  | .call (.prepareAcceptedJob id _ _ _) | .call (.markApplyStarted id _ _)
  | .call (.publishCompletedJob id _ _) => id = jobId.val
  | _ => False

/-- Jobs are rewritten, and their candidates stay. -/
theorem Allows.restate {R : Store → Store → Prop}
    {restates : (JobRow → Bool) → (JobRow → JobRow) → Prop}
    {rewrites : (TaskRow → TaskRow) → Prop} {readable : Str → Prop}
    (h : Allows R restates rewrites readable) (p : JobRow → Bool) (f : JobRow → JobRow)
    (keeps : ∀ j, Row.key (f j) = Row.key j) (hf : ∀ j : JobRow, j.SameCandidate (f j)) :
    Follows R (updateJobs p f keeps) :=
  h.jobs p f keeps (h.kept p f hf)

/-- What an update writes of the standing of a job. -/
theorem JobFields.write_standing {fields : JobFields} (texts : JobTexts) (target : JobState)
    (now : Timestamp) (j : JobRow) : j.SameStanding (fields.write texts target now j) :=
  ⟨rfl, rfl, rfl, rfl⟩

theorem JobFields.write_kept {fields : JobFields} {texts : JobTexts}
    (h : fields.bindTexts = .ok texts) (hpath : fields.integrationPath = none)
    (happly : fields.autoApply = none) (target : JobState) (now : Timestamp) (j : JobRow) :
    j.SameCandidate (fields.write texts target now j) := by
  obtain ⟨path, hbind, h⟩ := bind_ok_iff.mp h
  obtain ⟨_, -, h⟩ := bind_ok_iff.mp h
  obtain ⟨_, -, h⟩ := bind_ok_iff.mp h
  cases h
  rw [hpath] at hbind
  cases hbind
  refine ⟨write_standing _ target now j, rfl, ?_, rfl⟩
  show fields.autoApply.getD j.autoApply = j.autoApply
  rw [happly]
  rfl

section Follows

variable {R : Store → Store → Prop} [IsPreorder Store R]
  {restates : (JobRow → Bool) → (JobRow → JobRow) → Prop} {rewrites : (TaskRow → TaskRow) → Prop}
  {readable : Str → Prop} {sha256 : Str → Str}

theorem validateSnapshot_follows (jobId : Text) : Follows R (validateSnapshot jobId) :=
  .of_same fun s r h => by rw [(validateSnapshot_ok_iff.mp h).1]

theorem validateSnapshots_follows (jobIds : List Text) : Follows R (validateSnapshots jobIds) := by
  induction jobIds with
  | nil => exact .pure ()
  | cons jobId jobIds ih => exact .bind (validateSnapshot_follows jobId) fun _ => ih

omit [IsPreorder Store R] in
theorem runningOf_running {ids : List Text} (attempt : AttemptRow)
    (hmem : runningOf ids attempt = true) : attempt.state = .running := by
  unfold runningOf at hmem
  rw [Bool.and_eq_true, beq_iff_eq] at hmem
  exact hmem.2

theorem getJob_follows (jobId : Str) : FollowsDb R (getJob jobId) :=
  .transaction (.bind (.lift _) fun _ => .bind (.query _) fun _ => .orRaise _ _)

theorem listTasks_follows (jobId : Str) : FollowsDb R (listTasks jobId) :=
  .transaction (.bind (.lift _) fun _ => .query _)

/-! ## Operations -/

variable (h : Allows R restates rewrites readable)
include h

theorem insertJobEvents_follows {jobId : Text} {now : Timestamp}
    {events : List (String × Json NonFinite)}
    (htold : ∀ event ∈ events, readable (jsonDumps event.2)) :
    Follows R (insertJobEvents jobId now events) := by
  induction events with
  | nil => exact .pure ()
  | cons event events ih =>
    rw [List.forall_mem_cons] at htold
    exact .bind (h.event _ _ _ _ _ htold.1) fun _ => ih htold.2

theorem createJob_follows (newId : Text) (now : Timestamp) (args : NewJob)
    (htold : readable (jsonDumps (createdPayload args.goal args.repo))) :
    FollowsDb R (createJob newId now args) := by
  refine .bind (.transaction ?_) fun _ => getJob_follows _
  refine .bind (.lift _) fun repo => .bind (.lift _) fun goal => .bind (.lift _) fun baseBranch =>
    .bind (.lift _) fun baseCommit => .bind (.lift _) fun branch => ?_
  exact .bind (h.job _ ⟨rfl, rfl, rfl⟩) fun _ =>
    .bind (insertJobEvents_follows h (List.forall_mem_singleton.mpr htold)) fun _ =>
    validateSnapshot_follows _

theorem insertPlanned_follows (jobId : Text) (newId : Nat → Text) (now : Timestamp)
    (planned : List PlannedTask) (seq : Nat) :
    Follows R (insertPlanned jobId newId now planned seq) := by
  induction planned generalizing seq with
  | nil => exact .pure ()
  | cons task planned ih =>
    refine .bind (.lift _) fun logicalId => .bind (.lift _) fun title =>
      .bind (.lift _) fun description => .bind (.lift _) fun dependencies =>
      .bind (.lift _) fun acceptance => .bind (.lift _) fun preferredAgent => ?_
    exact .bind (h.task _ rfl) fun _ => ih (seq + 1)

theorem addTasks_follows (jobId : Str) (newId : Nat → Text) (now : Timestamp)
    (planned : List PlannedTask) :
    FollowsDb R (addTasks jobId newId now planned) := by
  refine .bind (.transaction ?_) fun _ => listTasks_follows _
  refine .bind (.lift _) fun id => .bind (.query _) fun _ => .bind (.orRaise _ _) fun job =>
    .bind (.lift _) fun _ => .bind (.lift _) fun _ => .bind (.query _) fun startSeq => ?_
  exact .bind (insertPlanned_follows h _ _ _ _ _) fun _ => validateSnapshot_follows _

theorem event_follows {G : Type} [PyFloat G] (jobId kind : Str) {payload : Members G}
    (taskId : Option Str) (now : Timestamp) (hread : readable (encodePayload payload)) :
    FollowsDb R (event jobId kind payload taskId now) := by
  refine .transaction ?_
  refine .bind (.lift _) fun id => .bind (.lift _) fun task => .bind (.lift _) fun kind =>
    .bind (.query _) fun rowid => ?_
  exact .bind (h.event _ _ _ _ _ hread) fun _ => .pure _

theorem jobEvent_follows (jobId : Str) (kind : String) (now : Timestamp) :
    FollowsDb R (jobEvent jobId kind now) :=
  .bind (event_follows h _ _ _ _ h.bare) fun _ => .pure _

theorem updateJob_follows (jobId : Str) (fields : JobFields) (now : Timestamp)
    (hstates : ∀ p texts target, (∀ j, p j = true → j.id.val = jobId) →
      fields.bindTexts = .ok texts → restates p (fields.write texts target now)) :
    FollowsDb R (updateJob jobId fields now) := by
  refine .ite (.throw _) (.ite (.pure _) (.transaction ?_))
  refine .bindLift fun id hid => .bind (.query _) fun _ => .bind (.orRaise _ _) fun job =>
    .bind (.lift _) fun _ => .bind (.lift _) fun target => .bind (.lift _) fun _ =>
    .bind (.lift _) fun _ => .bindLift fun texts htexts => ?_
  refine .bind (h.jobs _ _ _ (hstates _ texts target (fun j hj => ?_) htexts)) fun _ =>
    .bind (.lift _) fun _ => validateSnapshot_follows _
  rw [Bool.and_eq_true, beq_iff_eq] at hj
  rw [hj.1]
  exact bindText_eq_ok.mp hid

/-- The stop flag says nothing of the candidate. -/
theorem updateStop_follows (jobId : Str) {fields : JobFields} (now : Timestamp)
    (hpath : fields.integrationPath = none) (happly : fields.autoApply = none) :
    FollowsDb R (updateJob jobId fields now) :=
  updateJob_follows h _ _ _ fun _ _ _ _ htexts =>
    h.kept _ _ (JobFields.write_kept htexts hpath happly _ _)

theorem activateJob_follows (job : JobRow) (taskId : Str) (target : TaskState) (now : Timestamp) :
    Follows R (activateJob job taskId target now) :=
  .ite (.bind (.lift _) fun _ => .bind
    (h.restate _ _ _ fun _ => ⟨⟨rfl, rfl, rfl, rfl⟩, rfl, rfl, rfl⟩)
    fun _ => .lift _) (.pure _)

theorem updateTask_follows (taskId : Str) (fields : TaskFields) (now : Timestamp)
    (hwrite : ∀ columns target, fields.bindColumns = .ok columns →
      rewrites (columns.write target now)) :
    FollowsDb R (updateTask taskId fields now) := by
  refine .ite (.throw _) (.ite (.pure _) (.transaction ?_))
  refine .bind (.lift _) fun id => .bind (.query _) fun _ => .bind (.orRaise _ _) fun task =>
    .bind (.lift _) fun target => .bind (.lift _) fun _ => .bind (.query _) fun _ =>
    .bind (.orRaise _ _) fun job => .bind (.lift _) fun _ => ?_
  refine .bind (activateJob_follows h _ _ _ _) fun _ => .bind (.query _) fun running =>
    .bind (.lift _) fun _ => .bindLift fun columns hcolumns => ?_
  exact .bind (h.tasks _ _ _ (hwrite columns _ hcolumns)) fun _ => .bind (.lift _) fun _ =>
    validateSnapshot_follows _

omit h in
theorem startAttempt_follows
    (hinsert : ∀ attempt, FitsColumn attempt.number → Follows R (insertAttempt attempt))
    (newId : Text) (now : Timestamp) (args : NewAttempt) :
    FollowsDb R (startAttempt newId now args) := by
  refine .bind (.transaction ?_) fun _ => .pure _
  refine .bind (.lift _) fun taskId => .bind (.query _) fun _ => .bind (.orRaise _ _) ?_
  rintro ⟨task, job⟩
  refine .bind (.lift _) fun _ => .bind (.lift _) fun _ => .bind (.lift _) fun _ =>
    .bind (.lift _) fun _ => .bind (.query _) fun running => .bind (.lift _) fun _ =>
    .bindLift fun number hnumber => .bind (.lift _) fun agent => .bind (.lift _) fun worktree =>
    .bind (.lift _) fun branch => .bind (.lift _) fun logPath => ?_
  exact .bind (hinsert _ (fitsColumn_of_bindInt hnumber)) fun _ => validateSnapshot_follows _

theorem finishAttempt_follows (attemptId state : Str) (returncode : Option Int) (summary : Str)
    (now : Timestamp) :
    FollowsDb R (finishAttempt attemptId state returncode summary now) := by
  refine .transaction ?_
  refine .bind (.lift _) fun id => .bind (.query _) fun _ => .bind (.orRaise _ _) fun attempt =>
    .bind (.lift _) fun target => .bindLift fun _ hrunning => .bind (.lift _) fun _ =>
    .bind (.lift _) fun _ => .bind (.lift _) fun returncode => .bind (.lift _) fun summary => ?_
  refine .bind (h.attempts _ _ _ fun a ha => ?_) fun _ => .bind (.lift _) fun _ =>
    validateSnapshot_follows _
  rw [forbidIf_eq_ok, not_not] at hrunning
  rw [Bool.and_eq_true, beq_iff_eq, beq_iff_eq] at ha
  exact ha.2.trans hrunning

theorem settleInflight_follows (jobId : Str) (taskState : TaskState) (attemptState summary : Str)
    (now : Timestamp) :
    FollowsDb R (settleInflight jobId taskState attemptState summary now) := by
  refine .transaction ?_
  refine .bind (.raiseIf _ _) fun _ => .bind (.orRaise _ _) fun attemptState =>
    .bind (.lift _) fun id => .bind (.query _) fun _ => .bind (.orRaise _ _) fun job =>
    .bind (.lift _) fun _ => .bind (.lift _) fun boundedSummary => ?_
  exact .bind (h.attempts _ _ _ runningOf_running) fun _ =>
    .bind (h.tasks _ _ _ (h.settled _ _ _)) fun _ => validateSnapshot_follows _

theorem retryFailedTasks_follows (jobId : Str) (now : Timestamp) :
    FollowsDb R (retryFailedTasks jobId now) := by
  refine .bind (getJob_follows _) fun job => .transaction ?_
  exact .bind (.lift _) fun _ => .bind (.lift _) fun _ =>
    .bind (h.tasks _ _ _ (h.moved _ _)) fun _ => validateSnapshot_follows _

theorem resumeRows_follows (jobId : Str) (now : Timestamp) :
    Follows R (resumeRows jobId now) := by
  refine .bind (.lift _) fun id => .bind (.query _) fun _ => .bind (.orRaise _ _) fun job =>
    .bind (.lift _) fun _ => .bind (.lift _) fun _ => .bind (.lift _) fun _ => ?_
  exact .bind (h.attempts _ _ _ runningOf_running) fun _ =>
    .bind (h.tasks _ _ _ (h.moved _ _)) fun _ =>
    .bind (h.restate _ _ _ fun _ => ⟨⟨rfl, rfl, rfl, rfl⟩, rfl, rfl, rfl⟩) fun _ =>
    .bind (.lift _) fun _ => validateSnapshot_follows _

theorem recoverGroup_follows (maxVariables : Nat) (ids : List Text) (taskState : TaskState)
    (note : Text) (jobState : JobState) (stopRequested : Bool) (now : Timestamp) :
    Follows R (recoverGroup maxVariables ids taskState note jobState stopRequested now) :=
  .bind (.raiseIf _ _) fun _ => .bind (h.tasks _ _ _ (h.moved _ _)) fun _ =>
    .bind (.raiseIf _ _) fun _ => .bind (h.attempts _ _ _ runningOf_running) fun _ =>
    .bind (.raiseIf _ _) fun _ =>
    .bind (h.restate _ _ _ fun _ => ⟨⟨rfl, rfl, rfl, rfl⟩, rfl, rfl, rfl⟩) fun _ => .pure _

theorem recoverRows_follows (maxVariables : Nat) (now : Timestamp) :
    Follows R (recoverRows maxVariables now) := by
  refine .bind (.query _) fun groups => .bind (.lift _) fun _ => .bind (.raiseIf _ _) fun _ => ?_
  exact .bind (h.restate _ _ _ fun _ => ⟨⟨rfl, rfl, rfl, rfl⟩, rfl, rfl, rfl⟩) fun _ =>
    .bind (recoverGroup_follows h _ _ _ _ _ _ _) fun _ =>
    .bind (recoverGroup_follows h _ _ _ _ _ _ _) fun _ =>
    .bind (validateSnapshots_follows _) fun _ => .pure _

theorem jobEvents_follows (kind : String) (at' : Text → Timestamp) (jobIds : List Text) :
    FollowsDb R (jobEvents kind at' jobIds) := by
  induction jobIds with
  | nil => exact .pure ()
  | cons jobId jobIds ih => exact .bind (jobEvent_follows h _ _ _) fun _ => ih

theorem recoverIncomplete_follows (maxVariables : Nat) (now : Timestamp) (at' : Text → Timestamp) :
    FollowsDb R (recoverIncomplete maxVariables now at') :=
  .bind (.transaction (recoverRows_follows h maxVariables now)) fun _ =>
    .bind (jobEvents_follows h _ _ _) fun _ => .bind (jobEvents_follows h _ _ _) fun _ =>
    .bind (jobEvents_follows h _ _ _) fun _ => .pure _

theorem stageDossierLocked_follows (jobId : Text) (dossier : NewDossier) (now : Timestamp) :
    Follows R (stageDossierLocked jobId dossier now) :=
  .bindLift fun _ hversion => .bind (.lift _) fun _ => .bind (.lift _) fun _ =>
    h.dossier _ (fitsColumn_of_bindInt hversion)

theorem stageDossier_follows (jobId : Str) (dossier : NewDossier) (now : Timestamp) :
    FollowsDb R (stageDossier sha256 jobId dossier now) := by
  refine .transaction ?_
  refine .bind (.raiseIf _ _) fun _ => .bind (.lift _) fun matched => .bind (.lift _) fun _ =>
    .bind (.lift _) fun id => .bind (.query _) fun _ => .bind (.orRaise _ _) fun job =>
    .bind (.lift _) fun _ => ?_
  exact stageDossierLocked_follows h _ _ _

theorem journalAcceptance_follows (job : JobRow) (args : Acceptance) (intent : SourceApplyIntent)
    (stagedAt now : Timestamp)
    (hstates : ∀ p f, (∀ j, p j = true → j.id = job.id) → restates p f)
    (htold : readable (jsonDumps (acceptedPayload args))) :
    Follows R (journalAcceptance job args intent stagedAt now) := by
  refine .bind (.lift _) fun _ => .bind (.lift _) fun _ => .bind (.lift _) fun _ =>
    .bind (.query _) fun snapshot => .bind (.lift _) fun _ =>
    .bind (stageDossierLocked_follows h _ _ _) fun _ => .bind (.lift _) fun acceptedCommit =>
    .bind (.lift _) fun finalSummary =>
    .bind (h.jobs _ _ _ (hstates _ _ fun j hj => ?_)) fun rowcount =>
    .bind (.lift _) fun _ =>
    .bind (insertJobEvents_follows h (List.forall_mem_singleton.mpr htold)) fun _ =>
    validateSnapshot_follows _
  simp only [Bool.and_eq_true, beq_iff_eq] at hj
  exact hj.1.1

theorem prepareAcceptedJob_follows (jobId : Str) (args : Acceptance) (stagedAt now : Timestamp)
    (hstates : ∀ p f, (∀ j, p j = true → j.id.val = jobId) → restates p f)
    (htold : readable (jsonDumps (acceptedPayload args))) :
    FollowsDb R (prepareAcceptedJob sha256 jobId args stagedAt now) := by
  refine .transaction ?_
  refine .bind (.orRaise _ _) fun intent => .bind (.raiseIf _ _) fun _ => .bind (.raiseIf _ _)
    fun _ => .bind (.lift _) fun matched => .bind (.lift _) fun _ => .bindLift fun id hid =>
    .bindQuery fun s => .bindOrRaise fun job hjob => .ite ?_ ?_
  · exact .bind (.query _) fun dossier => .lift _
  · refine journalAcceptance_follows h _ _ _ _ _ (fun p f hp => hstates p f fun j hj => ?_) htold
    rw [hp j hj, (Store.mem_of_job? hjob).2]
    exact bindText_eq_ok.mp hid

theorem markApplyStarted_follows (jobId acceptedCommit : Str) (now : Timestamp)
    (hstates : ∀ p f, (∀ j, p j = true → j.id.val = jobId) → restates p f)
    (htold : readable (jsonDumps (applyStartedPayload acceptedCommit))) :
    FollowsDb R (markApplyStarted jobId acceptedCommit now) := by
  refine .transaction ?_
  refine .bindLift fun id hid => .bind (.query _) fun _ => .bind (.orRaise _ _) fun job =>
    .bind (.lift _) fun _ => .bind (.lift _) fun _ => .ite (.pure _) ?_
  refine .bind (.lift _) fun _ => .bind (h.jobs _ _ _ (hstates _ _ fun j hj => ?_)) fun rowcount =>
    .bind (.lift _) fun _ =>
    .bind (insertJobEvents_follows h (List.forall_mem_singleton.mpr htold)) fun _ =>
    validateSnapshot_follows _
  rw [Bool.and_eq_true, beq_iff_eq] at hj
  rw [hj.1]
  exact bindText_eq_ok.mp hid

theorem publishAcceptance_follows (job : JobRow) (args : Publication)
    (outcome : SourceApplyOutcome) (now : Timestamp)
    (hstates : ∀ p f, (∀ j, p j = true → j.id = job.id) → restates p f)
    (htold : ∀ event ∈ publicationEvents job args outcome, readable (jsonDumps event.2)) :
    Follows R (publishAcceptance job args outcome now) := by
  refine .bind (.lift _) fun _ => .bind (.lift _) fun _ => .bind (.lift _) fun _ =>
    .bind (.query _) fun snapshot => .bind (.lift _) fun _ => .bind (.lift _) fun finalSummary =>
    .bind (.lift _) fun reason => .bind (h.jobs _ _ _ (hstates _ _ fun j hj => ?_)) fun rowcount =>
    .bind (.lift _) fun _ => .bind (h.dossiers _ _) fun published => .bind (.lift _) fun _ => ?_
  · simp only [Bool.and_eq_true, beq_iff_eq] at hj
    exact hj.1.1
  · exact .bind (insertJobEvents_follows h htold) fun _ => validateSnapshot_follows _

theorem publishCompletedJob_follows (jobId : Str) (args : Publication) (now : Timestamp)
    (hstates : ∀ p f, (∀ j, p j = true → j.id.val = jobId) → restates p f)
    (htold : ∀ job outcome, ∀ event ∈ publicationEvents job args outcome,
      readable (jsonDumps event.2)) :
    FollowsDb R (publishCompletedJob sha256 jobId args now) := by
  refine .transaction ?_
  refine .bind (.orRaise _ _) fun outcome => .bindLift fun id hid => .bindQuery fun s =>
    .bindOrRaise fun job hjob => .bind (.query _) fun _ => .bind (.orRaise _ _) fun dossier =>
    .bind (.lift _) fun _ => .ite ?_ ?_
  · exact .bind (.lift _) fun _ => .lift _
  · refine publishAcceptance_follows h _ _ _ _ (fun p f hp => hstates p f fun j hj => ?_)
      (htold _ _)
    rw [hp j hj, (Store.mem_of_job? hjob).2]
    exact bindText_eq_ok.mp hid

/-- A call follows the relation, if the rewriting of a task by its fields and the payloads of its
own events are ones that the relation allows, and the insertion of an attempt, where the call
inserts one, follows it. -/
theorem call_follows {F : Type} (call : Call)
    (htold : ∀ payload, (Operation.call (F := F) call).Tells payload →
      readable (jsonDumps payload))
    (hstates : ∀ p f, (Operation.call (F := F) call).States p f → restates p f)
    (hwrite : ∀ f, (Operation.call (F := F) call).Writes f → rewrites f)
    (hstart : (Operation.call (F := F) call).Starts →
      ∀ attempt, FitsColumn attempt.number → Follows R (insertAttempt attempt)) :
    FollowsDb R (call.run sha256) := by
  cases call with
  | createJob => exact .dropReply (createJob_follows h _ _ _ (htold _ rfl))
  | addTasks => exact .dropReply (addTasks_follows h _ _ _ _)
  | updateJob jobId fields now =>
    exact updateJob_follows h _ _ _ fun p texts target hp htexts =>
      hstates p _ ⟨hp, texts, target, htexts, rfl⟩
  | updateTask taskId fields now =>
    exact updateTask_follows h _ _ _ fun columns target hcolumns =>
      hwrite _ ⟨taskId, fields, now, columns, target, rfl, hcolumns, rfl⟩
  | startAttempt newId now args =>
    exact .dropReply (startAttempt_follows (hstart ⟨newId, now, args, rfl⟩) _ _ _)
  | finishAttempt => exact finishAttempt_follows h _ _ _ _ _
  | settleInflight => exact settleInflight_follows h _ _ _ _ _
  | prepareResume =>
    exact .bind (.transaction (resumeRows_follows h _ _)) fun _ => jobEvent_follows h _ _ _
  | retryFailedTasks => exact retryFailedTasks_follows h _ _
  | recoverIncomplete => exact .dropReply (recoverIncomplete_follows h _ _ _)
  | requestStop | clearStop =>
    exact .bind (updateStop_follows h _ _ rfl rfl) fun _ => jobEvent_follows h _ _ _
  | stageDossier => exact stageDossier_follows h _ _ _
  | prepareAcceptedJob => exact prepareAcceptedJob_follows h _ _ _ _ hstates (htold _ rfl)
  | markApplyStarted => exact markApplyStarted_follows h _ _ _ hstates (htold _ rfl)
  | publishCompletedJob =>
    exact publishCompletedJob_follows h _ _ _ hstates fun job outcome event hevent =>
      htold _ ⟨job, outcome, event, hevent, rfl⟩

/-- So does an operation, if the payload of its event is one that the relation allows. -/
theorem operation_follows {F : Type} [PyFloat F] (op : Operation F)
    (htold : ∀ payload, op.Tells payload → readable (jsonDumps payload))
    (hstates : ∀ p f, op.States p f → restates p f) (hwrite : ∀ f, op.Writes f → rewrites f)
    (hstart : op.Starts →
      ∀ attempt, FitsColumn attempt.number → Follows R (insertAttempt attempt))
    (hread : ∀ payload : Members F, readable (encodePayload payload)) :
    FollowsDb R (op.run sha256) := by
  cases op with
  | call call => exact call_follows h call htold hstates hwrite hstart
  | event jobId kind payload taskId now =>
    exact .dropReply (event_follows h _ _ _ _ (hread payload))
  | crashedResume => exact .transaction (resumeRows_follows h _ _)
  | crashedRecovery => exact .dropReply (.transaction (recoverRows_follows h _ _))

end Follows

end OmarchyYolo
