import OmarchyYolo.Records

/-!
# OmarchyYolo.Provenance — the acceptance journal

`stage_dossier`, `prepare_accepted_job`, `mark_apply_started` and
`publish_completed_job`. The last three repeat harmlessly: a call that finds its
own effect commits without writing. `hashlib.sha256(...).hexdigest()` is the
parameter `sha256`, of which nothing is assumed.
-/

namespace OmarchyYolo

open Py PyJson Sql Txn

section

variable (sha256 : Str → Str)

/-- `_digest_matches`. -/
def digestMatches (content expected : Str) : Except Exn Bool :=
  if isText content then .ok (expected.length == 64 && sha256 content == expected)
  else .error .unicodeEncodeError

theorem digestMatches_eq_true {content expected : Str}
    (h : digestMatches sha256 content expected = .ok true) :
    expected.length = 64 ∧ sha256 content = expected := by
  unfold digestMatches at h
  split_ifs at h with htext
  rw [Except.ok.injEq, Bool.and_eq_true, beq_iff_eq, beq_iff_eq] at h
  exact h

/-! ## Staging -/

/-- A dossier as it is handed over. -/
structure NewDossier where
  schemaVersion : Int
  sha256 : Str
  content : Str
deriving DecidableEq, Repr

/-- `_stage_dossier_locked`. -/
def stageDossierLocked (jobId : Text) (dossier : NewDossier) (now : Timestamp) : StoreTx Unit := do
  let schemaVersion ← lift (bindInt dossier.schemaVersion)
  let digest ← lift (bindText dossier.sha256)
  let content ← lift (bindText dossier.content)
  upsertDossier
    { jobId := jobId, schemaVersion := schemaVersion, sha256 := digest, content := content
      published := false, createdAt := now }

/-- `stage_dossier`. -/
def stageDossier (jobId : Str) (dossier : NewDossier) (now : Timestamp) : StoreDb Unit :=
  transaction do
    raiseIf (dossier.schemaVersion < 1)
      (.valueError (lit "dossier schema_version must be positive") [])
    let matched ← lift (digestMatches sha256 dossier.content dossier.sha256)
    lift (forbidIf (matched = false)
      (lit "refusing dossier whose SHA-256 does not match its content"))
    let id ← lift (bindText jobId)
    let job ← orRaise (← selectJob id) (.keyError jobId)
    lift (forbidIf (job.state = .completed ∨ job.acceptancePhase ≠ .none)
      (lit "cannot replace dossier after acceptance begins (" ++ lit job.acceptancePhase.value ++
        lit ")"))
    stageDossierLocked id dossier now

/-! ## Accepting -/

/-- The keyword arguments of `prepare_accepted_job`. -/
structure Acceptance where
  acceptedCommit : Str
  finalSummary : Str
  sourceApplyIntent : Str
  dossier : NewDossier
deriving DecidableEq, Repr

/-- `source_apply_intent`, one of `{"requested", "not-requested"}`. -/
def SourceApplyIntent.ofValue? (text : Str) : Option SourceApplyIntent :=
  [SourceApplyIntent.requested, .notRequested].find? fun intent => lit intent.value == text

/-- The row after `UPDATE jobs` of a preparation. -/
def acceptJob (acceptedCommit finalSummary : Text) (intent : SourceApplyIntent) (now : Timestamp)
    (job : JobRow) : JobRow :=
  { job with
    acceptedCommit := acceptedCommit
    acceptancePhase := .accepted
    sourceApplyIntent := intent
    sourceApplyOutcome := .none
    sourceApplyReason := Text.lit ""
    finalSummary := finalSummary
    error := Text.lit ""
    stopRequested := false
    updatedAt := now }

theorem acceptJob_id (acceptedCommit finalSummary : Text) (intent : SourceApplyIntent)
    (now : Timestamp) (job : JobRow) :
    (acceptJob acceptedCommit finalSummary intent now job).id = job.id := rfl

/-- The payload of `job.accepted`. -/
def acceptedPayload (args : Acceptance) : Json NonFinite :=
  .obj (.ofList
    [(lit "accepted_commit", .str args.acceptedCommit),
     (lit "source_apply_intent", .str args.sourceApplyIntent),
     (lit "dossier_sha256", .str args.dossier.sha256)])

/-- The accepted job and its dossier are those of the arguments. -/
def Acceptance.Same (args : Acceptance) (job : JobRow) (dossier : Option DossierRow) : Prop :=
  job.acceptedCommit.val = args.acceptedCommit ∧
    lit job.sourceApplyIntent.value = args.sourceApplyIntent ∧
    job.finalSummary.val = args.finalSummary ∧
    match dossier with
    | none => False
    | some dossier => dossier.schemaVersion = args.dossier.schemaVersion ∧
        dossier.sha256.val = args.dossier.sha256 ∧ dossier.content.val = args.dossier.content

instance (args : Acceptance) (job : JobRow) (dossier : Option DossierRow) :
    Decidable (args.Same job dossier) := by
  unfold Acceptance.Same
  cases dossier <;> infer_instance

/-- Everything of `prepare_accepted_job` after its replay check. -/
def journalAcceptance (job : JobRow) (args : Acceptance) (intent : SourceApplyIntent)
    (stagedAt now : Timestamp) : StoreTx Unit := do
  lift (forbidIf (job.acceptancePhase ≠ .none)
    (lit "cannot prepare acceptance from phase " ++ lit job.acceptancePhase.value))
  lift (forbidIf (job.state ∉ [JobState.running, .stopping])
    (lit "acceptance requires running/stopping job, got " ++ lit job.state.value))
  lift (validateJobTransition job.state .completed)
  let snapshot ← query fun s => s.snapshot job
  lift (validateJobSnapshot
    { snapshot with stopRequested := false, acceptancePhase := some .accepted })
  stageDossierLocked job.id args.dossier stagedAt
  let acceptedCommit ← lift (bindText args.acceptedCommit)
  let finalSummary ← lift (bindText args.finalSummary)
  let rowcount ← updateJobs
    (fun j => j.id == job.id && j.acceptancePhase == .none && j.state == job.state)
    (acceptJob acceptedCommit finalSummary intent now)
    (acceptJob_id acceptedCommit finalSummary intent now)
  lift (forbidIf (rowcount ≠ 1)
    (lit "stale job state while journaling acceptance for " ++ job.id.val))
  insertJobEvents job.id now [("job.accepted", acceptedPayload args)]
  validateSnapshot job.id

/-- `prepare_accepted_job`; `stagedAt` and `now` are its two readings of the clock. -/
def prepareAcceptedJob (jobId : Str) (args : Acceptance) (stagedAt now : Timestamp) :
    StoreDb Unit :=
  transaction do
    let intent ← orRaise (SourceApplyIntent.ofValue? args.sourceApplyIntent)
      (.valueError (lit "invalid source apply intent: " ++ args.sourceApplyIntent) [])
    raiseIf (args.acceptedCommit = [] ∨ 128 < args.acceptedCommit.length)
      (.valueError (lit "accepted_commit must be a non-empty bounded Git object id") [])
    raiseIf (args.dossier.schemaVersion < 1)
      (.valueError (lit "dossier schema_version must be positive") [])
    let matched ← lift (digestMatches sha256 args.dossier.content args.dossier.sha256)
    lift (forbidIf (matched = false) (lit "refusing accepted dossier with invalid SHA-256"))
    let id ← lift (bindText jobId)
    let job ← orRaise (← selectJob id) (.keyError jobId)
    if job.acceptancePhase ∈ [AcceptancePhase.accepted, .applying] then do
      let dossier ← selectDossier id
      lift (forbidIf (¬ args.Same job dossier)
        (lit "accepted job metadata changed across idempotent preparation"))
    else journalAcceptance job args intent stagedAt now

/-! ## Applying -/

/-- The row after `UPDATE jobs SET acceptance_phase = 'applying'`. -/
def startApply (now : Timestamp) (job : JobRow) : JobRow :=
  { job with acceptancePhase := .applying, updatedAt := now }

theorem startApply_id (now : Timestamp) (job : JobRow) : (startApply now job).id = job.id := rfl

/-- The payload of `job.apply_started`. -/
def applyStartedPayload (acceptedCommit : Str) : Json NonFinite :=
  .obj (.ofList [(lit "accepted_commit", .str acceptedCommit)])

/-- `mark_apply_started`. -/
def markApplyStarted (jobId acceptedCommit : Str) (now : Timestamp) : StoreDb Unit :=
  transaction do
    let id ← lift (bindText jobId)
    let job ← orRaise (← selectJob id) (.keyError jobId)
    lift (forbidIf (job.acceptedCommit.val ≠ acceptedCommit)
      (lit "accepted commit changed before source application"))
    lift (forbidIf (job.sourceApplyIntent ≠ .requested)
      (lit "source application was not requested"))
    if job.acceptancePhase = .applying then pure ()
    else do
      lift (forbidIf (job.acceptancePhase ≠ .accepted)
        (lit "source application requires accepted phase, got " ++ lit job.acceptancePhase.value))
      let rowcount ← updateJobs (fun j => j.id == id && j.acceptancePhase == .accepted)
        (startApply now) (startApply_id now)
      lift (forbidIf (rowcount ≠ 1)
        (lit "stale acceptance phase while starting source apply for " ++ jobId))
      insertJobEvents id now [("job.apply_started", applyStartedPayload acceptedCommit)]
      validateSnapshot id

/-! ## Publishing -/

/-- The keyword arguments of `publish_completed_job`. -/
structure Publication where
  dossierSchemaVersion : Int
  dossierSha256 : Str
  finalSummary : Str
  sourceApplyOutcome : Str
  sourceApplyReason : Str := []
deriving DecidableEq, Repr

/-- `source_apply_outcome`, one of `{"applied", "skipped", "not-requested"}`. -/
def SourceApplyOutcome.ofValue? (text : Str) : Option SourceApplyOutcome :=
  [SourceApplyOutcome.applied, .skipped, .notRequested].find? fun outcome =>
    lit outcome.value == text

/-- `source_apply_reason[-4_000:]`. -/
def Publication.reason (args : Publication) : Str := lastChars 4000 args.sourceApplyReason

/-- The row after `UPDATE jobs` of a publication. -/
def completeJob (finalSummary reason : Text) (outcome : SourceApplyOutcome) (now : Timestamp)
    (job : JobRow) : JobRow :=
  { job with
    state := .completed
    stopRequested := false
    finalSummary := finalSummary
    error := Text.lit ""
    acceptancePhase := .published
    sourceApplyOutcome := outcome
    sourceApplyReason := reason
    updatedAt := now }

theorem completeJob_id (finalSummary reason : Text) (outcome : SourceApplyOutcome)
    (now : Timestamp) (job : JobRow) :
    (completeJob finalSummary reason outcome now job).id = job.id := rfl

/-- The row after `UPDATE dossiers SET published = 1`. -/
def publishDossier (dossier : DossierRow) : DossierRow := { dossier with published := true }

theorem publishDossier_jobId (dossier : DossierRow) :
    (publishDossier dossier).jobId = dossier.jobId := rfl

/-- The payload of `job.dossier_created`. -/
def dossierCreatedPayload (job : JobRow) (args : Publication) : Json NonFinite :=
  .obj (.ofList
    [(lit "sha256", .str args.dossierSha256),
     (lit "schema_version", .int args.dossierSchemaVersion),
     (lit "accepted_commit", .str job.acceptedCommit.val)])

/-- The payload of `job.applied`. -/
def appliedPayload (job : JobRow) : Json NonFinite :=
  .obj (.ofList
    [(lit "branch", .str job.baseBranch.val),
     (lit "accepted_commit", .str job.acceptedCommit.val)])

/-- The payload of `job.apply_skipped`. -/
def skippedPayload (args : Publication) : Json NonFinite :=
  .obj (.ofList [(lit "reason", .str args.reason)])

/-- The payload of `job.completed`. -/
def completedPayload (job : JobRow) (args : Publication) : Json NonFinite :=
  .obj (.ofList
    [(lit "summary", .str args.finalSummary),
     (lit "branch", .str job.integrationBranch.val),
     (lit "dossier_sha256", .str args.dossierSha256),
     (lit "accepted_commit", .str job.acceptedCommit.val),
     (lit "source_apply_outcome", .str args.sourceApplyOutcome)])

/-- The events of a publication. -/
def publicationEvents (job : JobRow) (args : Publication) (outcome : SourceApplyOutcome) :
    List (String × Json NonFinite) :=
  [("job.dossier_created", dossierCreatedPayload job args)] ++
  (match outcome with
    | .applied => [("job.applied", appliedPayload job)]
    | .skipped => [("job.apply_skipped", skippedPayload args)]
    | _ => []) ++
  [("job.completed", completedPayload job args)]

/-- The phase and the outcome that a publication needs under the job's intent. -/
def validatePublication (job : JobRow) (outcome : SourceApplyOutcome) : Except Exn Unit :=
  match job.sourceApplyIntent with
  | .notRequested =>
    forbidIf (job.acceptancePhase ≠ .accepted ∨ outcome ≠ .notRequested)
      (lit "non-applied acceptance must publish from accepted/not-requested state")
  | .requested =>
    forbidIf (job.acceptancePhase ≠ .applying ∨
        outcome ∉ [SourceApplyOutcome.applied, .skipped])
      (lit ("requested source application must publish from applying " ++
        "with applied/skipped outcome"))

/-- Everything of `publish_completed_job` after its checks of the dossier, for a
job that is not completed. -/
def publishAcceptance (job : JobRow) (args : Publication) (outcome : SourceApplyOutcome)
    (now : Timestamp) : StoreTx Unit := do
  lift (validatePublication job outcome)
  lift (forbidIf (job.acceptedCommit.val = []) (lit "accepted job is missing accepted_commit"))
  lift (validateJobTransition job.state .completed)
  let snapshot ← query fun s => s.snapshot job
  lift (validateJobSnapshot
    { snapshot with
      state := .completed, stopRequested := false, acceptancePhase := some .published })
  let finalSummary ← lift (bindText args.finalSummary)
  let reason ← lift (bindText args.reason)
  let rowcount ← updateJobs
    (fun j => j.id == job.id && j.state == job.state && j.acceptancePhase == job.acceptancePhase)
    (completeJob finalSummary reason outcome now) (completeJob_id finalSummary reason outcome now)
  lift (forbidIf (rowcount ≠ 1)
    (lit "stale job state while publishing completion for " ++ job.id.val))
  let published ← updateDossiers
    (fun d => d.jobId == job.id && d.published == false && d.sha256.val == args.dossierSha256)
    publishDossier publishDossier_jobId
  lift (forbidIf (published ≠ 1) (lit "staged dossier could not be published atomically"))
  insertJobEvents job.id now (publicationEvents job args outcome)
  validateSnapshot job.id

/-- The checks of the staged dossier. -/
def verifyDossier (dossier : DossierRow) (args : Publication) : Except Exn Unit := do
  forbidIf (dossier.schemaVersion ≠ args.dossierSchemaVersion)
    (lit "staged dossier schema version changed before publication")
  forbidIf (dossier.sha256.val ≠ args.dossierSha256)
    (lit "staged dossier digest changed before publication")
  let matched ← digestMatches sha256 dossier.content.val args.dossierSha256
  forbidIf (matched = false) (lit "staged dossier content failed SHA-256 verification")

/-- `publish_completed_job`. -/
def publishCompletedJob (jobId : Str) (args : Publication) (now : Timestamp) : StoreDb Unit :=
  transaction do
    let outcome ← orRaise (SourceApplyOutcome.ofValue? args.sourceApplyOutcome)
      (.valueError (lit "invalid source apply outcome: " ++ args.sourceApplyOutcome) [])
    let id ← lift (bindText jobId)
    let job ← orRaise (← selectJob id) (.keyError jobId)
    let dossier ← orRaise (← selectDossier id)
      (.stateTransitionError (lit "cannot publish completion without a staged dossier"))
    lift (verifyDossier sha256 dossier args)
    if job.state = .completed then do
      lift (forbidIf (¬ (dossier.published = true ∧ job.acceptancePhase = .published))
        (lit "completed job contains an unpublished acceptance"))
      lift (forbidIf (job.sourceApplyOutcome ≠ outcome)
        (lit "completed job source-apply outcome changed across idempotent publication"))
    else publishAcceptance job args outcome now

/-- `get_staged_dossier`. -/
def getStagedDossier (jobId : Str) : StoreDb (Option DossierRow) :=
  transaction do
    let id ← lift (bindText jobId)
    selectDossier id

/-! ## What a successful call has done -/

/-- The row of a dossier that has been staged. -/
structure NewDossier.Row (dossier : NewDossier) (jobId : Text) (row : DossierRow) : Prop where
  jobId : row.jobId = jobId
  schemaVersion : row.schemaVersion = dossier.schemaVersion
  digest : row.sha256.val = dossier.sha256
  content : row.content.val = dossier.content
  published : row.published = false

variable {s s' : Store}

theorem stageDossierLocked_ok {jobId : Text} {dossier : NewDossier} {now : Timestamp}
    {r : Unit × Store} (h : stageDossierLocked jobId dossier now s = .ok r) :
    ∃ row, dossier.Row jobId row ∧ s.upsertDossier? row = some r.2 := by
  unfold stageDossierLocked at h
  simp only [tx_bind_ok_iff, lift_ok_iff, bindText_eq_ok, upsertDossier, writeOrRaise_ok_iff] at h
  obtain ⟨version, _, ⟨hversion, rfl⟩, digest, _, ⟨hdigest, rfl⟩, content, _, ⟨hcontent, rfl⟩,
    hupsert⟩ := h
  exact ⟨_, ⟨rfl, bindInt_eq hversion, hdigest, hcontent, rfl⟩, hupsert⟩

theorem stageDossier_cases {jobId : Str} {dossier : NewDossier} {now : Timestamp}
    (h : stageDossier sha256 jobId dossier now s = .ok () s') :
    ∃ job ∈ s.jobs, job.id.val = jobId ∧ job.state ≠ .completed ∧ job.acceptancePhase = .none ∧
      digestMatches sha256 dossier.content dossier.sha256 = .ok true ∧
      ∃ row, dossier.Row job.id row ∧ s.upsertDossier? row = some s' := by
  rw [stageDossier, transaction_ok_iff] at h
  simp only [tx_bind_ok_iff, lift_ok_iff, bindText_eq_ok, raiseIf_ok_iff, selectJob_ok_iff,
    orRaise_ok_iff, forbidIf_eq_ok, not_or, Decidable.not_not, ne_eq] at h
  obtain ⟨_, _, ⟨-, hpair⟩, matched, _, ⟨hdigest, rfl⟩, _, _, ⟨hmatched, rfl⟩, id, _, ⟨hid, rfl⟩, _,
    _, hsel, job, _, ⟨hjob, rfl⟩, _, _, ⟨hopen, rfl⟩, hstage⟩ := h
  cases hpair
  cases hsel
  obtain ⟨hmem, rfl⟩ := Store.mem_of_job? hjob
  rw [Bool.not_eq_false] at hmatched
  rw [hmatched] at hdigest
  exact ⟨job, hmem, hid, hopen.1, hopen.2, hdigest, stageDossierLocked_ok hstage⟩

/-- What journaling an acceptance writes. -/
structure Journaled (job : JobRow) (args : Acceptance) (intent : SourceApplyIntent)
    (now : Timestamp) (s s' : Store) : Prop where
  phase : job.acceptancePhase = .none
  state : job.state ∈ [JobState.running, .stopping]
  writes : ∃ (row : DossierRow) (t : Store) (acceptedCommit finalSummary : Text),
    args.dossier.Row job.id row ∧ s.upsertDossier? row = some t ∧
    acceptedCommit.val = args.acceptedCommit ∧ finalSummary.val = args.finalSummary ∧
    AppendsEvents job.id [("job.accepted", acceptedPayload args)]
      (t.updateJobs (fun j => j.id == job.id && j.acceptancePhase == .none && j.state == job.state)
        (acceptJob acceptedCommit finalSummary intent now)
        (acceptJob_id acceptedCommit finalSummary intent now)) s'
  validated : s'.Validated job.id

theorem journalAcceptance_cases {job : JobRow} {args : Acceptance} {intent : SourceApplyIntent}
    {stagedAt now : Timestamp} {r : Unit × Store}
    (h : journalAcceptance job args intent stagedAt now s = .ok r) :
    Journaled job args intent now s r.2 := by
  unfold journalAcceptance at h
  simp only [tx_bind_ok_iff, lift_ok_iff, bindText_eq_ok, forbidIf_eq_ok, query_ok_iff,
    updateJobs_ok_iff, validateSnapshot_ok_iff, Decidable.not_not, ne_eq] at h
  obtain ⟨_, _, ⟨hphase, rfl⟩, _, _, ⟨hstate, rfl⟩, _, _, ⟨-, rfl⟩, _, _, hquery, _, _, ⟨-, rfl⟩,
    _, t, hstage, commit, _, ⟨hcommit, rfl⟩, summary, _, ⟨hsummary, rfl⟩, _, _, hupdate, _, _,
    ⟨-, rfl⟩, _, _, hevents, hret, hvalid⟩ := h
  cases hquery
  cases hupdate
  obtain ⟨row, hrow, hupsert⟩ := stageDossierLocked_ok hstage
  have happend := insertJobEvents_ok hevents
  rw [hret]
  exact ⟨hphase, hstate, ⟨row, _, commit, summary, hrow, hupsert, hcommit, hsummary, happend⟩,
    hvalid⟩

theorem prepareAcceptedJob_cases {jobId : Str} {args : Acceptance} {stagedAt now : Timestamp}
    (h : prepareAcceptedJob sha256 jobId args stagedAt now s = .ok () s') :
    ∃ job ∈ s.jobs, ∃ intent, job.id.val = jobId ∧
      SourceApplyIntent.ofValue? args.sourceApplyIntent = some intent ∧
      args.acceptedCommit ≠ [] ∧
      digestMatches sha256 args.dossier.content args.dossier.sha256 = .ok true ∧
      ((job.acceptancePhase ∈ [AcceptancePhase.accepted, .applying] ∧
          args.Same job (s.dossier? job.id) ∧ s' = s) ∨
        Journaled job args intent now s s') := by
  rw [prepareAcceptedJob, transaction_ok_iff] at h
  simp only [tx_bind_ok_iff, lift_ok_iff, bindText_eq_ok, raiseIf_ok_iff, selectJob_ok_iff,
    orRaise_ok_iff, forbidIf_eq_ok] at h
  obtain ⟨intent, _, ⟨hintent, rfl⟩, _, _, ⟨hcommit, hpair⟩, _, _, ⟨-, hpair'⟩, matched, _,
    ⟨hdigest, rfl⟩, _, _, ⟨hmatched, rfl⟩, id, _, ⟨hid, rfl⟩, _, _, hsel, job, _, ⟨hjob, rfl⟩,
    hbody⟩ := h
  cases hpair
  cases hpair'
  cases hsel
  obtain ⟨hmem, rfl⟩ := Store.mem_of_job? hjob
  rw [Bool.not_eq_false] at hmatched
  rw [hmatched] at hdigest
  refine ⟨job, hmem, intent, hid, hintent, fun hnil => hcommit (Or.inl hnil), hdigest, ?_⟩
  split_ifs at hbody with hphase
  · -- the replay
    simp only [tx_bind_ok_iff, selectDossier_ok_iff, lift_ok_iff, forbidIf_eq_ok,
      Decidable.not_not] at hbody
    obtain ⟨_, _, hselect, hsame, hs⟩ := hbody
    cases hselect
    exact Or.inl ⟨hphase, hsame, hs⟩
  · exact Or.inr (journalAcceptance_cases hbody)

theorem markApplyStarted_cases {jobId acceptedCommit : Str} {now : Timestamp}
    (h : markApplyStarted jobId acceptedCommit now s = .ok () s') :
    ∃ job ∈ s.jobs, job.id.val = jobId ∧ job.acceptedCommit.val = acceptedCommit ∧
      job.sourceApplyIntent = .requested ∧
      ((job.acceptancePhase = .applying ∧ s' = s) ∨
        (job.acceptancePhase = .accepted ∧
          AppendsEvents job.id [("job.apply_started", applyStartedPayload acceptedCommit)]
            (s.updateJobs (fun j => j.id == job.id && j.acceptancePhase == .accepted)
              (startApply now) (startApply_id now)) s' ∧
          s'.Validated job.id)) := by
  rw [markApplyStarted, transaction_ok_iff] at h
  simp only [tx_bind_ok_iff, lift_ok_iff, bindText_eq_ok, selectJob_ok_iff, orRaise_ok_iff,
    forbidIf_eq_ok, Decidable.not_not, ne_eq] at h
  obtain ⟨id, _, ⟨hid, rfl⟩, _, _, hsel, job, _, ⟨hjob, rfl⟩, _, _, ⟨hcommit, rfl⟩, _, _,
    ⟨hintent, rfl⟩, hbody⟩ := h
  cases hsel
  obtain ⟨hmem, rfl⟩ := Store.mem_of_job? hjob
  refine ⟨job, hmem, hid, hcommit, hintent, ?_⟩
  split_ifs at hbody with hphase
  · rw [tx_pure_ok_iff] at hbody
    cases hbody
    exact Or.inl ⟨hphase, rfl⟩
  · simp only [tx_bind_ok_iff, lift_ok_iff, forbidIf_eq_ok, updateJobs_ok_iff,
      validateSnapshot_ok_iff, Decidable.not_not] at hbody
    obtain ⟨_, _, ⟨haccepted, rfl⟩, _, _, hupdate, _, _, ⟨-, rfl⟩, _, _, hevents, hret, hvalid⟩ :=
      hbody
    cases hupdate
    cases hret
    exact Or.inr ⟨haccepted, insertJobEvents_ok hevents, hvalid⟩

/-- What publishing an acceptance writes. -/
structure Published (job : JobRow) (args : Publication) (outcome : SourceApplyOutcome)
    (now : Timestamp) (s s' : Store) : Prop where
  allowed : validatePublication job outcome = .ok ()
  commit : job.acceptedCommit.val ≠ []
  state : JobState.completed ∈ jobTransitions job.state
  unpublished : ∃ dossier ∈ s.dossiers, dossier.jobId = job.id ∧ dossier.published = false ∧
    dossier.sha256.val = args.dossierSha256
  writes : ∃ finalSummary reason : Text, finalSummary.val = args.finalSummary ∧
    reason.val = args.reason ∧
    AppendsEvents job.id (publicationEvents job args outcome)
      ((s.updateJobs
        (fun j => j.id == job.id && j.state == job.state &&
          j.acceptancePhase == job.acceptancePhase)
        (completeJob finalSummary reason outcome now)
        (completeJob_id finalSummary reason outcome now)).updateDossiers
        (fun d => d.jobId == job.id && d.published == false && d.sha256.val == args.dossierSha256)
        publishDossier publishDossier_jobId) s'
  validated : s'.Validated job.id

/-- The completed row is in the store. -/
theorem Published.completed {job : JobRow} {args : Publication} {outcome : SourceApplyOutcome}
    {now : Timestamp} (h : Published job args outcome now s s') (hjob : job ∈ s.jobs) :
    ∃ j ∈ s'.jobs, j.id = job.id ∧ j.acceptancePhase = .published ∧
      j.finalSummary.val = args.finalSummary := by
  obtain ⟨summary, reason, hsummary, -, hevents⟩ := h.writes
  have hwritten : (job.id == job.id && job.state == job.state &&
      job.acceptancePhase == job.acceptancePhase) = true := by
    simp only [beq_self_eq_true, Bool.and_self]
  refine ⟨completeJob summary reason outcome now job, ?_, rfl, rfl, hsummary⟩
  rw [hevents.1.jobs]
  refine Table.mem_update_of_pos (f := completeJob summary reason outcome now)
    (completeJob_id summary reason outcome now) hjob ?_
  exact hwritten

theorem publishAcceptance_cases {job : JobRow} {args : Publication} {outcome : SourceApplyOutcome}
    {now : Timestamp} {r : Unit × Store}
    (h : publishAcceptance job args outcome now s = .ok r) :
    Published job args outcome now s r.2 := by
  unfold publishAcceptance at h
  simp only [tx_bind_ok_iff, lift_ok_iff, bindText_eq_ok, forbidIf_eq_ok,
    validateJobTransition_eq_ok, query_ok_iff, updateJobs_ok_iff, updateDossiers_ok_iff,
    validateSnapshot_ok_iff, Decidable.not_not, ne_eq] at h
  obtain ⟨_, _, ⟨houtcome, rfl⟩, _, _, ⟨hcommit, rfl⟩, _, _, ⟨hstate, rfl⟩, _, _, hquery, _, _,
    ⟨-, rfl⟩, summary, _, ⟨hsummary, rfl⟩, reason, _, ⟨hreason, rfl⟩, _, _, hupdate, _, _, ⟨-, rfl⟩,
    _, _, hdossiers, _, _, ⟨hcount, rfl⟩, _, _, hevents, hret, hvalid⟩ := h
  cases hquery
  cases hupdate
  cases hdossiers
  have happend := insertJobEvents_ok hevents
  rw [hret]
  -- the one row the second update has counted
  obtain ⟨dossier, hone⟩ := List.length_eq_one_iff.mp hcount
  have hmem := List.mem_singleton.mpr (rfl : dossier = dossier)
  rw [← hone, Table.mem_select] at hmem
  simp only [Bool.and_eq_true, beq_iff_eq] at hmem
  obtain ⟨hdossier, ⟨hjob, hpublished⟩, hdigest⟩ := hmem
  exact ⟨houtcome, hcommit, hstate, ⟨dossier, hdossier, hjob, hpublished, hdigest⟩,
    ⟨summary, reason, hsummary, hreason, happend⟩, hvalid⟩

/-- The staged dossier is the one the arguments name, and its content has its digest. -/
structure Verified (dossier : DossierRow) (args : Publication) : Prop where
  schemaVersion : dossier.schemaVersion = args.dossierSchemaVersion
  digest : dossier.sha256.val = args.dossierSha256
  content : digestMatches sha256 dossier.content.val args.dossierSha256 = .ok true

theorem verifyDossier_ok {dossier : DossierRow} {args : Publication}
    (h : verifyDossier sha256 dossier args = .ok ()) : Verified sha256 dossier args := by
  unfold verifyDossier at h
  simp only [bind_ok_iff, forbidIf_eq_ok, Decidable.not_not, ne_eq] at h
  obtain ⟨-, hversion, -, hdigest, matched, hmatch, hmatched⟩ := h
  rw [Bool.not_eq_false] at hmatched
  rw [hmatched] at hmatch
  exact ⟨hversion, hdigest, hmatch⟩

theorem publishCompletedJob_cases {jobId : Str} {args : Publication} {now : Timestamp}
    (h : publishCompletedJob sha256 jobId args now s = .ok () s') :
    ∃ job ∈ s.jobs, ∃ dossier ∈ s.dossiers, ∃ outcome, job.id.val = jobId ∧
      dossier.jobId = job.id ∧ SourceApplyOutcome.ofValue? args.sourceApplyOutcome = some outcome ∧
      Verified sha256 dossier args ∧
      ((job.state = .completed ∧ dossier.published = true ∧ job.acceptancePhase = .published ∧
          job.sourceApplyOutcome = outcome ∧ s' = s) ∨
        (job.state ≠ .completed ∧ Published job args outcome now s s')) := by
  rw [publishCompletedJob, transaction_ok_iff] at h
  simp only [tx_bind_ok_iff, lift_ok_iff, bindText_eq_ok, selectJob_ok_iff, selectDossier_ok_iff,
    orRaise_ok_iff] at h
  obtain ⟨outcome, _, ⟨houtcome, rfl⟩, id, _, ⟨hid, rfl⟩, _, _, hsel, job, _, ⟨hjob, rfl⟩, _, _,
    hselect, dossier, _, ⟨hdossier, rfl⟩, _, _, ⟨hverify, rfl⟩, hbody⟩ := h
  cases hsel
  cases hselect
  obtain ⟨hmem, rfl⟩ := Store.mem_of_job? hjob
  obtain ⟨hmem', howner⟩ := Store.mem_of_dossier? hdossier
  refine ⟨job, hmem, dossier, hmem', outcome, hid, howner, houtcome,
    verifyDossier_ok sha256 hverify, ?_⟩
  split_ifs at hbody with hcompleted
  · simp only [tx_bind_ok_iff, lift_ok_iff, forbidIf_eq_ok, Decidable.not_not, ne_eq] at hbody
    obtain ⟨_, _, ⟨hpublished, rfl⟩, hsame, hs⟩ := hbody
    exact Or.inl ⟨hcompleted, hpublished.1, hpublished.2, hsame, hs⟩
  · exact Or.inr ⟨hcompleted, publishAcceptance_cases hbody⟩

end

end OmarchyYolo
