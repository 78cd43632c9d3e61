import OmarchyYolo.StoreRules

/-!
# OmarchyYolo.ColumnBounds — what the columns of a store hold

Some columns are bounded by the operations that write them: the accepted commit, of
which `prepare_accepted_job` takes 128 characters, the reason that
`publish_completed_job` cuts, and the integers, which are parameters of statements.

* `Store.Bounded` — these bounds; `reachable_bounded` — of every reachable store.
-/

namespace OmarchyYolo

open Py PyJson Sql Txn Lts

/-- The texts of an acceptance. -/
structure JobRow.Bounded (j : JobRow) : Prop where
  acceptedCommit : j.acceptedCommit.val.length ≤ 128
  sourceApplyReason : j.sourceApplyReason.val.length ≤ 4000

structure Store.Bounded (s : Store) : Prop where
  jobs : ∀ j ∈ s.jobs, j.Bounded
  tasks : ∀ t ∈ s.tasks, FitsColumn t.attempts
  attempts : ∀ a ∈ s.attempts, FitsColumn a.number

/-- The bounds are kept. -/
def Store.KeepsBounds (s s' : Store) : Prop := s.Bounded → s'.Bounded

instance : IsPreorder Store Store.KeepsBounds where
  refl _ h := h
  trans _ _ _ h h' hbounded := h' (h hbounded)

theorem JobRow.Fresh.bounded {j : JobRow} (h : j.Fresh) : j.Bounded where
  acceptedCommit := by
    rw [h.acceptedCommit]
    exact Nat.zero_le 128
  sourceApplyReason := by
    rw [h.sourceApplyReason]
    exact Nat.zero_le 4000

theorem JobRow.SameCandidate.bounded {j j' : JobRow} (h : j.SameCandidate j') (hj : j.Bounded) :
    j'.Bounded where
  acceptedCommit := by
    rw [h.standing.acceptedCommit]
    exact hj.acceptedCommit
  sourceApplyReason := by
    rw [h.sourceApplyReason]
    exact hj.sourceApplyReason

/-! ## Statements -/

section Statements

variable {s s' : Store}

theorem Store.Bounded.of_same (h : s.Bounded) (hjobs : s'.jobs = s.jobs)
    (htasks : s'.tasks = s.tasks) (hattempts : s'.attempts = s.attempts) : s'.Bounded where
  jobs := by
    rw [hjobs]
    exact h.jobs
  tasks := by
    rw [htasks]
    exact h.tasks
  attempts := by
    rw [hattempts]
    exact h.attempts

/-- Rows that are rewritten within their bounds. -/
theorem bounded_update {ρ : Type} [Row ρ] {t : Table ρ} {P : ρ → Prop} {p : ρ → Bool} {f : ρ → ρ}
    (keeps : ∀ r, Row.key (f r) = Row.key r) (h : ∀ r ∈ t, P r)
    (hf : ∀ r, p r = true → P r → P (f r)) : ∀ r ∈ t.update p f keeps, P r := by
  intro r hr
  obtain ⟨r₀, hr₀, rfl⟩ := Table.mem_update.mp hr
  by_cases hp : p r₀ = true
  · rw [Table.setWhere_pos hp]
    exact hf r₀ hp (h r₀ hr₀)
  · rw [Table.setWhere_neg hp]
    exact h r₀ hr₀

theorem bounded_insert {ρ : Type} [Row ρ] {t t' : Table ρ} {P : ρ → Prop} {row : ρ}
    (h : ∀ r ∈ t, P r) (hinsert : t.insert? row = some t') (hrow : P row) : ∀ r ∈ t', P r := by
  intro r hr
  rcases (Table.mem_insert? hinsert).mp hr with hr | rfl
  · exact h r hr
  · exact hrow

theorem Store.Bounded.updateJobs {p : JobRow → Bool} {f : JobRow → JobRow}
    (keeps : ∀ j, (f j).id = j.id) (h : s.Bounded)
    (hf : ∀ j, p j = true → j.Bounded → (f j).Bounded) : (s.updateJobs p f keeps).Bounded where
  jobs := bounded_update keeps h.jobs hf
  tasks := h.tasks
  attempts := h.attempts

theorem insertAttempt_keepsBounds {attempt : AttemptRow} (hnumber : FitsColumn attempt.number) :
    Follows Store.KeepsBounds (insertAttempt attempt) := by
  intro s r h hbounded
  obtain ⟨hrow, honly⟩ := Store.insertAttempt?_eq_some (writeOrRaise_ok_iff.mp h)
  constructor
  · rw [honly.jobs]
    exact hbounded.jobs
  · rw [honly.tasks]
    exact hbounded.tasks
  · exact bounded_insert hbounded.attempts hrow hnumber

/-- The statements keep the bounds, where rows are rewritten within them. -/
theorem allows_keepsBounds :
    Allows Store.KeepsBounds (fun p f => ∀ j : JobRow, p j = true → j.Bounded → (f j).Bounded)
      -- by the statement: rows of jobs and tasks within their bounds, attempts by their key
      (fun f => ∀ t : TaskRow, FitsColumn t.attempts → FitsColumn (f t).attempts)
      (fun _ => True) where
  jobs p f keeps hf s r h hbounded := by
    rw [updateJobs_ok_iff.mp h]
    exact hbounded.updateJobs keeps hf
  tasks p f keeps hf s r h hbounded := by
    rw [updateTasks_ok_iff.mp h]
    exact ⟨hbounded.jobs, bounded_update keeps hbounded.tasks fun t _ => hf t, hbounded.attempts⟩
  attempts p f keeps _ s r h hbounded := by
    rw [updateAttempts_ok_iff.mp h]
    refine ⟨hbounded.jobs, hbounded.tasks, bounded_update keeps hbounded.attempts fun a _ ha => ?_⟩
    -- the number is part of the key
    have hnumber : (f a).number = a.number := congrArg (fun k => k.2.2.2) (keeps a)
    rwa [hnumber]
  dossiers p keeps s r h hbounded := by
    rw [updateDossiers_ok_iff.mp h]
    exact hbounded.of_same rfl rfl rfl
  -- a new job is within the bounds, and a new task has made no attempt
  job row hfresh s r h hbounded := by
    obtain ⟨jobs, keeps, hinsert, heq⟩ := Store.insertJob?_eq_some (writeOrRaise_ok_iff.mp h)
    rw [heq]
    exact ⟨bounded_insert hbounded.jobs hinsert hfresh.bounded, hbounded.tasks, hbounded.attempts⟩
  task row hzero s r h hbounded := by
    obtain ⟨hrow, honly⟩ := Store.insertTask?_eq_some (writeOrRaise_ok_iff.mp h)
    constructor
    · rw [honly.jobs]
      exact hbounded.jobs
    · refine bounded_insert hbounded.tasks hrow ?_
      rw [hzero]
      exact ⟨by decide, by decide⟩
    · rw [honly.attempts]
      exact hbounded.attempts
  -- dossiers and events are in tables of their own
  dossier row _ s r h hbounded := by
    have honly := (Store.upsertDossier?_eq_some (writeOrRaise_ok_iff.mp h)).2
    exact hbounded.of_same honly.jobs honly.tasks honly.attempts
  event jobId taskId kind payload now _ s r h hbounded := by
    obtain ⟨payload', -, hinsert⟩ := insertEvent_ok h
    have honly := (Store.insertEvent?_eq_some hinsert).2
    exact hbounded.of_same honly.jobs honly.tasks honly.attempts
  kept _ f hf j _ hj := (hf j).bounded hj
  moved _ _ _ ht := ht
  settled _ _ _ _ ht := ht
  bare := trivial

end Statements

/-! ## Operations -/

section Operations

variable {F : Type} [PyFloat F] {sha256 : Str → Str} {s s' : Store}

theorem length_lastChars_le (n : Nat) (text : Str) : (lastChars n text).length ≤ n := by
  rw [lastChars, List.length_drop]
  omega

/-- `prepare_accepted_job` takes commits of at most 128 characters. -/
theorem prepareAcceptedJob_commit {jobId : Str} {args : Acceptance} {stagedAt now : Timestamp}
    (h : prepareAcceptedJob sha256 jobId args stagedAt now s = .ok () s') :
    args.acceptedCommit.length ≤ 128 := by
  rw [prepareAcceptedJob, transaction_ok_iff] at h
  simp only [tx_bind_ok_iff, raiseIf_ok_iff, orRaise_ok_iff] at h
  obtain ⟨_, _, -, _, _, ⟨hcommit, -⟩, -⟩ := h
  exact Nat.le_of_not_lt fun hlong => hcommit (Or.inr hlong)

theorem prepareAcceptedJob_keepsBounds {jobId : Str} {args : Acceptance}
    {stagedAt now : Timestamp} (h : prepareAcceptedJob sha256 jobId args stagedAt now s = .ok () s')
    (hbounded : s.Bounded) : s'.Bounded := by
  have hlen := prepareAcceptedJob_commit h
  obtain ⟨job, -, intent, -, -, -, -, hcases⟩ := prepareAcceptedJob_cases sha256 h
  rcases hcases with ⟨-, -, rfl⟩ | hjournal
  · exact hbounded
  · obtain ⟨row, t, commit, summary, -, hupsert, hcommit, -, hevents⟩ := hjournal.writes
    have honly := (Store.upsertDossier?_eq_some hupsert).2
    have ht : t.Bounded := hbounded.of_same honly.jobs honly.tasks honly.attempts
    refine (ht.updateJobs (acceptJob_id commit summary intent now) fun j _ _ => ?_).of_same
      hevents.1.jobs hevents.1.tasks hevents.1.attempts
    constructor
    · show commit.val.length ≤ 128
      rwa [hcommit]
    · exact Nat.zero_le 4000

theorem markApplyStarted_keepsBounds {jobId acceptedCommit : Str} {now : Timestamp}
    (h : markApplyStarted jobId acceptedCommit now s = .ok () s') (hbounded : s.Bounded) :
    s'.Bounded := by
  obtain ⟨job, -, -, -, -, hcases⟩ := markApplyStarted_cases h
  rcases hcases with ⟨-, rfl⟩ | ⟨-, hevents, -⟩
  · exact hbounded
  · refine (hbounded.updateJobs (startApply_id now) fun j _ hj => ?_).of_same
      hevents.1.jobs hevents.1.tasks hevents.1.attempts
    exact ⟨hj.acceptedCommit, hj.sourceApplyReason⟩

theorem publishCompletedJob_keepsBounds {jobId : Str} {args : Publication} {now : Timestamp}
    (h : publishCompletedJob sha256 jobId args now s = .ok () s') (hbounded : s.Bounded) :
    s'.Bounded := by
  obtain ⟨job, -, _, -, outcome, -, -, -, -, hcases⟩ := publishCompletedJob_cases sha256 h
  rcases hcases with ⟨-, -, -, -, rfl⟩ | ⟨-, hpublished⟩
  · exact hbounded
  · obtain ⟨summary, reason, -, hreason, hevents⟩ := hpublished.writes
    refine (hbounded.updateJobs (completeJob_id summary reason outcome now) fun j _ hj =>
      ?_).of_same
      hevents.1.jobs hevents.1.tasks hevents.1.attempts
    refine ⟨hj.acceptedCommit, ?_⟩
    show reason.val.length ≤ 4000
    rw [hreason]
    exact length_lastChars_le 4000 _

/-- What `update_task` writes as the number of attempts fits the column. -/
theorem TaskColumns.write_fits {fields : TaskFields} {columns : TaskColumns}
    (h : fields.bindColumns = .ok columns) (target : TaskState) (now : Timestamp) {t : TaskRow}
    (ht : FitsColumn t.attempts) : FitsColumn (columns.write target now t).attempts := by
  obtain ⟨attempts, hattempts, h⟩ := bind_ok_iff.mp h
  simp only [bind_ok_iff] at h
  obtain ⟨_, -, _, -, _, -, _, -, _, -, _, -, h⟩ := h
  cases h
  show FitsColumn (attempts.getD t.attempts)
  cases hfields : fields.attempts with
  | none =>
    rw [hfields] at hattempts
    cases hattempts
    exact ht
  | some n =>
    rw [hfields] at hattempts
    obtain ⟨m, hm, h⟩ := bind_ok_iff.mp hattempts
    cases h
    exact fitsColumn_of_bindInt hm

/-- The operation takes the acceptance of a job on. -/
def Operation.journals : Operation F → Bool
  | .call (.prepareAcceptedJob _ _ _ _) | .call (.markApplyStarted _ _ _)
  | .call (.publishCompletedJob _ _ _) => true
  | _ => false

/-- The other operations leave the columns of an acceptance alone. -/
theorem Operation.run_keepsBounds_of_plain {op : Operation F} (hop : op.journals = false) :
    FollowsDb Store.KeepsBounds (op.run sha256) := by
  refine operation_follows allows_keepsBounds op (fun _ _ => trivial) ?_ ?_ ?_ fun _ => trivial
  · intro p f hstates j hp hj
    unfold Operation.States at hstates
    split at hstates
    · -- an update of a job writes neither
      obtain ⟨-, texts, target, -, rfl⟩ := hstates
      exact ⟨hj.acceptedCommit, hj.sourceApplyReason⟩
    · cases hop
    · cases hop
    · cases hop
    · exact hstates.elim
  · rintro f ⟨taskId, fields, now, columns, target, rfl, hcolumns, rfl⟩ t ht
    exact TaskColumns.write_fits hcolumns target now ht
  · intro _ attempt hnumber
    exact insertAttempt_keepsBounds hnumber

theorem Operation.run_keepsBounds (op : Operation F) :
    FollowsDb Store.KeepsBounds (op.run sha256) := by
  cases hop : op.journals with
  | false => exact Operation.run_keepsBounds_of_plain hop
  | true =>
    intro s r s' h
    unfold Operation.journals at hop
    split at hop
    · exact prepareAcceptedJob_keepsBounds h
    · exact markApplyStarted_keepsBounds h
    · exact publishCompletedJob_keepsBounds h
    · cases hop

theorem reachable_bounded (h : (database F sha256).Reachable s) : s.Bounded := by
  refine h.invariant ?_ ?_
  · rintro _ rfl
    constructor
    · exact fun j hj => absurd hj (Table.not_mem_empty j)
    · exact fun t ht => absurd ht (Table.not_mem_empty t)
    · exact fun a ha => absurd ha (Table.not_mem_empty a)
  · intro s op s' _ hbounded hstep
    exact op.run_keepsBounds _ _ _ hstep hbounded

end Operations

end OmarchyYolo
