import OmarchyYolo.JobExecution
import OmarchyYolo.TaskLives

/-!
# OmarchyYolo.CandidateRows — the candidate of a job in the database

The row of a job names the branch and the worktree of its candidate, and what has
been accepted of it. Few operations write these columns, and for one job only its
runner calls them.

* `Store.JobMoves` — the row of one job moves along a relation;
* `Store.Others` — what others do, who leave the candidate alone;
* `AnswersJob` — what a call of a runner does to the database;
* `answersJob_prepared`, `answersJob_applying`, `answersJob_published` — the row after an
  acceptance has been journaled, taken up and published.
-/

namespace OmarchyYolo

open Py PyJson Calls Sql Txn

/-! ## The row of a job -/

/-- The relations between rows of a job that leave its standing alone. -/
class CandidateEdge (edge : JobRow → JobRow → Prop) : Prop extends IsPreorder JobRow edge where
  kept : ∀ {j j' : JobRow}, j.SameCandidate j' → edge j j'
  standing : ∀ {j j' : JobRow}, edge j j' → j.SameStanding j'

theorem JobRow.SameStanding.trans {j j' j'' : JobRow} (h : j.SameStanding j')
    (h' : j'.SameStanding j'') : j.SameStanding j'' :=
  ⟨h'.integrationBranch.trans h.integrationBranch, h'.acceptedCommit.trans h.acceptedCommit,
    h'.acceptancePhase.trans h.acceptancePhase, h'.sourceApplyIntent.trans h.sourceApplyIntent⟩

instance : CandidateEdge JobRow.SameStanding where
  refl := .refl
  trans _ _ _ := .trans
  kept h := h.standing
  standing h := h

instance : CandidateEdge JobRow.SameCandidate where
  refl := .refl
  trans _ _ _ h h' :=
    ⟨h.standing.trans h'.standing, h'.integrationPath.trans h.integrationPath,
      h'.autoApply.trans h.autoApply, h'.sourceApplyReason.trans h.sourceApplyReason⟩
  kept h := h
  standing h := h.standing

/-- The row of the job moves along the relation, or is a new one. -/
structure Store.JobMoves (jobId : Text) (edge : JobRow → JobRow → Prop) (s s' : Store) : Prop where
  forward : ∀ j ∈ s.jobs, j.id = jobId → ∃ j' ∈ s'.jobs, j'.id = jobId ∧ edge j j'
  backward : ∀ j' ∈ s'.jobs, j'.id = jobId →
    (∃ j ∈ s.jobs, j.id = jobId ∧ edge j j') ∨ j'.acceptancePhase = .none

section Moves

variable {jobId : Text} {edge : JobRow → JobRow → Prop} [CandidateEdge edge] {s s' : Store}

theorem Store.JobMoves.of_same (h : s'.jobs = s.jobs) : s.JobMoves jobId edge s' where
  forward j hj hid := ⟨j, h ▸ hj, hid, refl_of edge j⟩
  backward j hj hid := Or.inl ⟨j, h ▸ hj, hid, refl_of edge j⟩

/-- Where the candidate stays, its standing does. -/
theorem Store.JobMoves.standing (h : s.JobMoves jobId edge s') :
    s.JobMoves jobId JobRow.SameStanding s' where
  forward j hj hid := by
    obtain ⟨j', hj', hid', hedge⟩ := h.forward j hj hid
    exact ⟨j', hj', hid', CandidateEdge.standing hedge⟩
  backward j' hj' hid' := by
    rcases h.backward j' hj' hid' with ⟨j, hj, hid, hedge⟩ | hnone
    · exact Or.inl ⟨j, hj, hid, CandidateEdge.standing hedge⟩
    · exact Or.inr hnone

instance : IsPreorder Store (Store.JobMoves jobId edge) where
  refl _ := .of_same rfl
  trans s t u h h' := by
    refine ⟨fun j hj hid => ?_, fun j'' hj'' hid => ?_⟩
    · obtain ⟨j', hj', hid', hedge⟩ := h.forward j hj hid
      obtain ⟨j'', hj'', hid'', hedge'⟩ := h'.forward j' hj' hid'
      exact ⟨j'', hj'', hid'', trans_of edge hedge hedge'⟩
    · rcases h'.backward j'' hj'' hid with ⟨j', hj', hid', hedge'⟩ | hnone
      · rcases h.backward j' hj' hid' with ⟨j, hj, hid, hedge⟩ | hnone
        · exact Or.inl ⟨j, hj, hid, trans_of edge hedge hedge'⟩
        · -- the new row keeps its phase
          exact Or.inr ((CandidateEdge.standing hedge').acceptancePhase.trans hnone)
      · exact Or.inr hnone

theorem Store.JobMoves.update {p : JobRow → Bool} {f : JobRow → JobRow}
    {keeps : ∀ j, (f j).id = j.id} (hf : ∀ j, p j = true → j.id = jobId → edge j (f j)) :
    s.JobMoves jobId edge (s.updateJobs p f keeps) := by
  have hmove : ∀ j : JobRow, j.id = jobId → edge j (Table.setWhere p f j) := by
    intro j hid
    by_cases hp : p j = true
    · rw [Table.setWhere_pos hp]
      exact hf j hp hid
    · rw [Table.setWhere_neg hp]
      exact refl_of edge j
  have hkey : ∀ j : JobRow, (Table.setWhere p f j).id = j.id := fun j =>
    Table.key_setWhere (ρ := JobRow) keeps j
  constructor
  · intro j hj hid
    have hmem : Table.setWhere p f j ∈ s.jobs.update p f keeps := Table.mem_update.mpr ⟨j, hj, rfl⟩
    exact ⟨_, hmem, (hkey j).trans hid, hmove j hid⟩
  · intro j' hj' hid
    have hmem : j' ∈ s.jobs.update p f keeps := hj'
    obtain ⟨j, hj, rfl⟩ := Table.mem_update.mp hmem
    have hid' : j.id = jobId := (hkey j).symm.trans hid
    exact Or.inl ⟨j, hj, hid', hmove j hid'⟩

/-- The statements move the row of the job so, when they rewrite it so. -/
theorem allows_jobMoves :
    Allows (Store.JobMoves jobId edge)
      (fun p f => ∀ j, p j = true → j.id = jobId → edge j (f j)) (fun _ => True)
      (fun _ => True) where
  -- by the statement: rows of jobs along the edge, other tables not at all
  jobs p f keeps hf s r h := by
    rw [updateJobs_ok_iff.mp h]
    exact .update hf
  tasks p f keeps _ s r h := by
    rw [updateTasks_ok_iff.mp h]
    exact .of_same rfl
  attempts p f keeps _ s r h := by
    rw [updateAttempts_ok_iff.mp h]
    exact .of_same rfl
  dossiers p keeps s r h := by
    rw [updateDossiers_ok_iff.mp h]
    exact .of_same rfl
  job row hfresh s r h := by
    obtain ⟨jobs, keeps, hinsert, heq⟩ := Store.insertJob?_eq_some (writeOrRaise_ok_iff.mp h)
    rw [heq]
    constructor
    -- a job that was there is still there
    · exact fun j hj hid => ⟨j, (Table.mem_insert? hinsert).mpr (Or.inl hj), hid, refl_of edge j⟩
    · intro j hj hid
      -- a job after the statement was there before, or is the one inserted
      rcases (Table.mem_insert? hinsert).mp hj with hj | rfl
      · exact Or.inl ⟨j, hj, hid, refl_of edge j⟩
      · exact Or.inr hfresh.acceptancePhase
  task row _ s r h := by
    have honly := (Store.insertTask?_eq_some (writeOrRaise_ok_iff.mp h)).2
    exact .of_same honly.jobs
  dossier row _ s r h := by
    have honly := (Store.upsertDossier?_eq_some (writeOrRaise_ok_iff.mp h)).2
    exact .of_same honly.jobs
  event jobId taskId kind payload now _ s r h := by
    obtain ⟨payload', -, hinsert⟩ := insertEvent_ok h
    have honly := (Store.insertEvent?_eq_some hinsert).2
    exact .of_same honly.jobs
  kept _ f hf j _ _ := CandidateEdge.kept (hf j)
  moved _ _ := trivial
  settled _ _ _ := trivial
  bare := trivial

end Moves

/-! ## Operations -/

section Operations

variable {F : Type} [PyFloat F] {sha256 : Str → Str} {jobId : Text}

theorem insertAttempt_jobMoves {edge : JobRow → JobRow → Prop} [CandidateEdge edge]
    (attempt : AttemptRow) : Follows (Store.JobMoves jobId edge) (insertAttempt attempt) :=
  fun _ _ h => .of_same (Store.insertAttempt?_eq_some (writeOrRaise_ok_iff.mp h)).2.jobs

/-- Any other operation leaves it alone. -/
theorem Operation.run_keepsCandidate {op : Operation F} (hop : ¬ op.Accepts jobId) :
    FollowsDb (Store.JobMoves jobId JobRow.SameCandidate) (op.run sha256) := by
  refine operation_follows allows_jobMoves op (fun _ _ => trivial)
    (fun p f hstates j hp hid => ?_) (fun _ _ => trivial)
      (fun _ attempt _ => insertAttempt_jobMoves attempt) fun _ => trivial
  -- only four operations rewrite jobs by their arguments
  unfold Operation.States at hstates
  split at hstates
  · rename_i id fields now
    obtain ⟨hrows, texts, target, htexts, rfl⟩ := hstates
    have hown : id = jobId.val := (hrows j hp).symm.trans (congrArg Text.val hid)
    have hnone := not_or.mp fun h => hop ⟨hown, h⟩
    exact JobFields.write_kept htexts (Option.not_isSome_iff_eq_none.mp hnone.1)
      (Option.not_isSome_iff_eq_none.mp hnone.2) _ _ _
  · exact absurd ((hstates j hp).symm.trans (congrArg Text.val hid)) hop
  · exact absurd ((hstates j hp).symm.trans (congrArg Text.val hid)) hop
  · exact absurd ((hstates j hp).symm.trans (congrArg Text.val hid)) hop
  · exact hstates.elim

/-- An update of the job leaves what has been accepted of it alone. -/
theorem updateJob_standing (id : Str) (fields : JobFields) (now : Timestamp) :
    FollowsDb (Store.JobMoves jobId JobRow.SameStanding) (updateJob id fields now) :=
  updateJob_follows allows_jobMoves _ _ _ fun _ texts target _ _ _ _ _ =>
    JobFields.write_standing texts target now _

/-- What others do to the database while the runner of the job is between its calls. -/
def Store.Others (F : Type) [PyFloat F] (sha256 : Str → Str) (jobId : Text) :
    Store → Store → Prop :=
  Relation.ReflTransGen fun s s' =>
    ∃ op : Operation F, ¬ op.Accepts jobId ∧ op.run sha256 s = .ok () s'

variable {s s' : Store}

theorem Store.Others.keepsCandidate (h : s.Others F sha256 jobId s') :
    s.JobMoves jobId JobRow.SameCandidate s' := by
  induction h with
  | refl => exact refl_of (Store.JobMoves jobId JobRow.SameCandidate) s
  | tail _ hlast ih =>
    obtain ⟨op, hop, hrun⟩ := hlast
    exact trans_of _ ih (Operation.run_keepsCandidate hop _ _ _ hrun)

theorem Store.Others.sound (h : s.Others F sha256 jobId s') (hs : s.Sound sha256) :
    s'.Sound sha256 := by
  induction h with
  | refl => exact hs
  | tail _ hlast ih =>
    obtain ⟨op, -, hrun⟩ := hlast
    exact Operation.run_sound ih hrun

end Operations

/-! ## Calls of a runner -/

/-- Whether the call is an operation of the database. -/
def JobEffect.isOperation : JobEffect → Bool
  | .task e => e.isOperation
  | .updateJob _ _ | .listTasks _ | .addTasks _ _ | .settleInflight _ _ _ _
  | .prepareAcceptedJob _ _ | .markApplyStarted _ _ | .stagedDossier _
  | .publishCompletedJob _ _ => true
  | _ => false

/-- The operation that a call of the database is, for some clock and fresh identifiers. -/
def JobOperationOf (sha256 : Str → Str) : (e : JobEffect) → StoreDb e.Reply → Prop
  | .task e, x => OperationOf e x
  | .updateJob jobId fields, x => ∃ now, x = updateJob jobId.val fields now
  | .listTasks jobId, x => x = listTasks jobId.val
  | .addTasks jobId planned, x =>
    ∃ newId now, x = dropReply (addTasks jobId.val newId now planned)
  | .settleInflight jobId taskState attemptState summary, x =>
    ∃ now, x = settleInflight jobId.val taskState attemptState summary now
  | .prepareAcceptedJob jobId args, x =>
    ∃ stagedAt now, x = prepareAcceptedJob sha256 jobId.val args stagedAt now
  | .markApplyStarted jobId acceptedCommit, x =>
    ∃ now, x = markApplyStarted jobId.val acceptedCommit now
  | .stagedDossier jobId, x => x = getStagedDossier jobId.val
  | .publishCompletedJob jobId args, x =>
    ∃ now, x = publishCompletedJob sha256 jobId.val args now
  | _, _ => False

/-- What a call does to the database. -/
def AnswersJob (sha256 : Str → Str) (e : JobEffect) (s : Store) (r : Except Raised e.Reply)
    (s' : Store) : Prop :=
  if e.isOperation then Answers (JobOperationOf sha256 e) s r s' else s' = s

/-- The call may write the candidate of a job. -/
def JobEffect.accepts : JobEffect → Bool
  | .updateJob _ fields => fields.integrationPath.isSome || fields.autoApply.isSome
  | .prepareAcceptedJob _ _ | .markApplyStarted _ _ | .publishCompletedJob _ _ => true
  | _ => false

section Calls

variable {sha256 : Str → Str} {jobId : Text} {e : JobEffect} {s s' : Store}

theorem listTasks_same {id : Str} {tasks : List TaskRow} (h : listTasks id s = .ok tasks s') :
    s' = s := by
  rw [listTasks, transaction_ok_iff] at h
  simp only [tx_bind_ok_iff, lift_ok_iff, query_ok_iff] at h
  obtain ⟨_, _, ⟨-, rfl⟩, hpair⟩ := h
  cases hpair
  rfl

theorem getStagedDossier_same {id : Str} {dossier : Option DossierRow}
    (h : getStagedDossier id s = .ok dossier s') : s' = s := by
  rw [getStagedDossier, transaction_ok_iff] at h
  simp only [tx_bind_ok_iff, lift_ok_iff, selectDossier_ok_iff] at h
  obtain ⟨_, _, ⟨-, rfl⟩, hpair⟩ := h
  cases hpair
  rfl

variable (jobId) in
/-- A call changes nothing, or is an operation, which writes the candidate of a job only if the
call does. -/
theorem answersJob_operation {r : Except Raised e.Reply} (h : AnswersJob sha256 e s r s') :
    s' = s ∨ ∃ op : Operation NonFinite, op.run sha256 s = .ok () s' ∧
      (op.Accepts jobId → e.accepts = true) := by
  unfold AnswersJob at h
  split_ifs at h with hop
  · cases r with
    -- a raised error has rolled the transaction back
    | error x => exact Or.inl h
    | ok a =>
      obtain ⟨x, hx, hrun⟩ := h
      -- by the call: reads leave the store, writes are one operation each
      cases e with
      | task e =>
        have hanswer : Answers (OperationOf e) s (.ok a) s' := ⟨x, hx, hrun⟩
        rcases answers_operation sha256 hanswer with hsame | ⟨op, hop, -, hkeeps⟩
        · exact Or.inl hsame
        · exact Or.inr ⟨op, hop, fun haccepts => absurd haccepts (hkeeps jobId)⟩
      | updateJob id fields =>
        obtain ⟨now, rfl⟩ := hx
        refine Or.inr ⟨.call (.updateJob id.val fields now), hrun, fun haccepts => ?_⟩
        exact Bool.or_eq_true_iff.mpr haccepts.2
      | listTasks id =>
        cases hx
        exact Or.inl (listTasks_same hrun)
      | addTasks id planned =>
        obtain ⟨newId, now, rfl⟩ := hx
        exact Or.inr ⟨.call (.addTasks id.val newId now planned), hrun, False.elim⟩
      | settleInflight id taskState attemptState summary =>
        obtain ⟨now, rfl⟩ := hx
        exact Or.inr ⟨.call (.settleInflight id.val taskState attemptState summary now), hrun,
          False.elim⟩
      | prepareAcceptedJob id args =>
        obtain ⟨stagedAt, now, rfl⟩ := hx
        exact Or.inr ⟨.call (.prepareAcceptedJob id.val args stagedAt now), hrun, fun _ => rfl⟩
      | markApplyStarted id acceptedCommit =>
        obtain ⟨now, rfl⟩ := hx
        exact Or.inr ⟨.call (.markApplyStarted id.val acceptedCommit now), hrun, fun _ => rfl⟩
      | stagedDossier id =>
        cases hx
        exact Or.inl (getStagedDossier_same hrun)
      | publishCompletedJob id args =>
        obtain ⟨now, rfl⟩ := hx
        exact Or.inr ⟨.call (.publishCompletedJob id.val args now), hrun, fun _ => rfl⟩
      | _ => cases hop
  · exact Or.inl h

theorem answersJob_error {x : Raised} (h : AnswersJob sha256 e s (.error x) s') : s' = s := by
  unfold AnswersJob at h
  split_ifs at h with hop
  · exact h
  · exact h

theorem answersJob_sound {r : Except Raised e.Reply} (hs : s.Sound sha256)
    (h : AnswersJob sha256 e s r s') : s'.Sound sha256 := by
  rcases answersJob_operation (Text.lit "") h with rfl | ⟨op, hrun, -⟩
  · exact hs
  · exact Operation.run_sound hs hrun

/-- Most calls leave every candidate alone. -/
theorem answersJob_keepsCandidate {r : Except Raised e.Reply} (h : AnswersJob sha256 e s r s')
    (he : e.accepts = false) : s.JobMoves jobId JobRow.SameCandidate s' := by
  rcases answersJob_operation jobId h with rfl | ⟨op, hrun, haccepts⟩
  · exact refl_of (Store.JobMoves jobId JobRow.SameCandidate) s'
  · have hop : ¬ op.Accepts jobId := fun hop => absurd (haccepts hop) (ne_true_of_eq_false he)
    exact Operation.run_keepsCandidate hop _ _ _ hrun

theorem answersJob_updateJob {id : Text} {fields : JobFields} {r : Except Raised Unit}
    (h : AnswersJob sha256 (.updateJob id fields) s r s') :
    s.JobMoves jobId JobRow.SameStanding s' := by
  cases r with
  | error x =>
    rw [answersJob_error h]
    exact refl_of (Store.JobMoves jobId JobRow.SameStanding) s
  | ok a =>
    obtain ⟨x, ⟨now, rfl⟩, hrun⟩ := h
    exact updateJob_standing _ _ _ _ _ _ hrun

/-! ## Acceptance -/

/-- The row of a job, after an update that has hit it. -/
theorem Store.row_of_update {job j' : JobRow} (hjob : job ∈ s.jobs) {p : JobRow → Bool}
    {f : JobRow → JobRow} (keeps : ∀ j, (f j).id = j.id) (hp : p job = true)
    (hj' : j' ∈ (s.updateJobs p f keeps).jobs) (hid : j'.id = job.id) : j' = f job := by
  have hmem : j' ∈ s.jobs.update p f keeps := hj'
  have hwritten : f job ∈ s.jobs.update p f keeps := Table.mem_update_of_pos keeps hjob hp
  exact Table.eq_of_clash hmem hwritten (hid.trans (keeps job).symm)

/-- What journaling leaves in the row, where nothing has been journaled before. -/
theorem answersJob_prepared {args : Acceptance}
    (h : AnswersJob sha256 (.prepareAcceptedJob jobId args) s (.ok ()) s')
    (hopen : ∀ j ∈ s.jobs, j.id = jobId → j.acceptancePhase ∉ journaledPhases) :
    ∀ j' ∈ s'.jobs, j'.id = jobId → ∃ j ∈ s.jobs, j.id = jobId ∧
      j'.integrationBranch = j.integrationBranch ∧
      j'.acceptedCommit.val = args.acceptedCommit ∧ j'.acceptancePhase = .accepted ∧
      SourceApplyIntent.ofValue? args.sourceApplyIntent = some j'.sourceApplyIntent := by
  obtain ⟨x, ⟨stagedAt, now, rfl⟩, hrun⟩ := h
  obtain ⟨job, hjob, intent, hid, hintent, -, -, hcases⟩ := prepareAcceptedJob_cases sha256 hrun
  have hown : job.id = jobId := Text.ext hid
  rcases hcases with ⟨hphase, -⟩ | hjournaled
  · exact absurd hphase (hopen job hjob hown)
  · obtain ⟨row, t, commit, summary, -, hupsert, hcommit, -, hevents, -⟩ := hjournaled.writes
    have hsame : t.jobs = s.jobs := (Store.upsertDossier?_eq_some hupsert).2.jobs
    have hhit : (job.id == job.id && job.acceptancePhase == .none && job.state == job.state) =
        true := by
      rw [hjournaled.phase]
      simp only [beq_self_eq_true, Bool.and_self]
    intro j' hj' hid'
    rw [hevents.jobs] at hj'
    obtain rfl := Store.row_of_update (hsame ▸ hjob) _ hhit hj' (hid'.trans hown.symm)
    exact ⟨job, hjob, hown, rfl, hcommit, rfl, hintent⟩

/-- The row of a job whose source is being changed. -/
theorem answersJob_applying {acceptedCommit : Str}
    (h : AnswersJob sha256 (.markApplyStarted jobId acceptedCommit) s (.ok ()) s') :
    ∀ j' ∈ s'.jobs, j'.id = jobId → ∃ j ∈ s.jobs, j.id = jobId ∧
      j'.integrationBranch = j.integrationBranch ∧ j'.acceptedCommit = j.acceptedCommit ∧
      j.acceptancePhase ∈ journaledPhases ∧ j'.acceptancePhase ∈ journaledPhases ∧
      j'.sourceApplyIntent = .requested := by
  obtain ⟨x, ⟨now, rfl⟩, hrun⟩ := h
  obtain ⟨job, hjob, hid, -, hintent, hcases⟩ := markApplyStarted_cases hrun
  have hown : job.id = jobId := Text.ext hid
  intro j' hj' hid'
  rcases hcases with ⟨hphase, rfl⟩ | ⟨hphase, hevents, -⟩
  · obtain rfl : j' = job := Store.eq_of_id hj' hjob (hid'.trans hown.symm)
    have hjournaled : j'.acceptancePhase ∈ journaledPhases := by
      rw [hphase]
      decide
    exact ⟨j', hj', hid', rfl, rfl, hjournaled, hjournaled, hintent⟩
  · have hhit : (job.id == job.id && job.acceptancePhase == .accepted) = true := by
      rw [hphase]
      simp only [beq_self_eq_true, Bool.and_self]
    have hjournaled : job.acceptancePhase ∈ journaledPhases := by
      rw [hphase]
      decide
    rw [hevents.1.jobs] at hj'
    obtain rfl := Store.row_of_update hjob _ hhit hj' (hid'.trans hown.symm)
    have happlying : AcceptancePhase.applying ∈ journaledPhases := by decide
    exact ⟨job, hjob, hown, rfl, rfl, hjournaled, happlying, hintent⟩

/-- The row of a job that has been published, and where it has come from. -/
theorem answersJob_published {args : Publication}
    (h : AnswersJob sha256 (.publishCompletedJob jobId args) s (.ok ()) s') :
    ∀ j' ∈ s'.jobs, j'.id = jobId → j'.acceptancePhase = .published ∧
      ∃ j ∈ s.jobs, j.id = jobId ∧ j'.integrationBranch = j.integrationBranch ∧
        j'.acceptedCommit = j.acceptedCommit ∧
        (j.state = .completed ∨ j.acceptancePhase ∈ journaledPhases) := by
  obtain ⟨x, ⟨now, rfl⟩, hrun⟩ := h
  obtain ⟨job, hjob, _, -, outcome, hid, -, -, -, hcases⟩ := publishCompletedJob_cases sha256 hrun
  have hown : job.id = jobId := Text.ext hid
  intro j' hj' hid'
  rcases hcases with ⟨hstate, -, hphase, -, rfl⟩ | ⟨-, hpublished⟩
  · obtain rfl : j' = job := Store.eq_of_id hj' hjob (hid'.trans hown.symm)
    exact ⟨hphase, j', hj', hid', rfl, rfl, Or.inl hstate⟩
  · obtain ⟨summary, reason, -, -, hevents⟩ := hpublished.writes
    have hhit : (job.id == job.id && job.state == job.state &&
        job.acceptancePhase == job.acceptancePhase) = true := by
      simp only [beq_self_eq_true, Bool.and_self]
    have hjournaled : job.acceptancePhase ∈ journaledPhases := by
      rcases validatePublication_ok hpublished.allowed with ⟨-, hphase, -⟩ | ⟨-, hphase, -⟩
      · rw [hphase]
        decide
      · rw [hphase]
        decide
    rw [hevents.1.jobs] at hj'
    obtain rfl := Store.row_of_update hjob (completeJob_id summary reason outcome now) hhit hj'
      (hid'.trans hown.symm)
    exact ⟨rfl, job, hjob, hown, rfl, rfl, Or.inr hjournaled⟩

end Calls

end OmarchyYolo
