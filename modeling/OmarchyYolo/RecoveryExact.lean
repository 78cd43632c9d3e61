import OmarchyYolo.StoreInvariants

/-!
# OmarchyYolo.RecoveryExact — recovery is total, exact and stable

`recover_incomplete` aborts when one of the jobs it has put back does not
validate. On a sound store it never does, and what it makes of each row follows
from the job alone. It also names every interrupted job in one statement, and
SQLite bounds the parameters of a statement.

* `JobRow.fate` — what recovery does with a job;
* `recoverRows_of_valid` — the validators do not fail;
* `Store.Nameable` — the statements have as many parameters as SQLite allows;
* `Store.SameRows`, `Store.PutBack` — the rows of a job that recovery leaves, and
  of one that it puts back;
* `recovery_exact_iff` — what a store looks like after recovery, and after another.
-/

namespace OmarchyYolo

open Py PyJson Sql Txn Lts

/-! ## The fate of a job -/

/-- What recovery does with a job: nothing; it stays accepted; it is put back to
queued, or to stopped. -/
inductive Fate where
  | untouched
  | kept
  | queued
  | stopped
deriving DecidableEq, Repr

def JobRow.fate (j : JobRow) : Fate :=
  if j.state.terminal then .untouched
  else if j.acceptancePhase ∈ [AcceptancePhase.accepted, .applying] then .kept
  else if j.stopRequested = false ∧ j.state ≠ .stopping then .queued
  else .stopped

variable {s s' : Store}

/-- Where recovery takes a job. -/
theorem Store.interrupted_job_fate {now : Timestamp} {j : JobRow} (hj : j ∈ s.jobs) :
    s.interrupted.job now j =
      match j.fate with
      | .untouched => j
      | .kept => keepAccepted now j
      | .queued => putBack .queued false now j
      | .stopped => putBack .stopped true now j := by
  rw [Store.interrupted_job hj, JobRow.fate]
  split_ifs <;> rfl

theorem Store.active_iff_fate {j : JobRow} (hj : j ∈ s.jobs) :
    idIn (s.interrupted.active.map JobRow.id) j = true ↔ j.fate = .queued := by
  rw [Store.mem_group (fun _ h => (Store.mem_interrupted_active.mp h).1) hj,
    Store.mem_interrupted_active, JobRow.fate]
  split_ifs with hterminal hphase hactive
  · exact ⟨fun h => absurd hterminal (by rw [h.2.1]; decide), nofun⟩
  · exact ⟨fun h => absurd hphase h.2.2.1, nofun⟩
  · exact ⟨fun _ => rfl, fun _ => ⟨hj, Bool.not_eq_true _ ▸ hterminal, hphase, hactive⟩⟩
  · exact ⟨fun h => absurd h.2.2.2 hactive, nofun⟩

theorem Store.stopped_iff_fate {j : JobRow} (hj : j ∈ s.jobs) :
    idIn (s.interrupted.stopped.map JobRow.id) j = true ↔ j.fate = .stopped := by
  rw [Store.mem_group (fun _ h => (Store.mem_interrupted_stopped.mp h).1) hj,
    Store.mem_interrupted_stopped, JobRow.fate]
  split_ifs with hterminal hphase hactive
  · exact ⟨fun h => absurd hterminal (by rw [h.2.1]; decide), nofun⟩
  · exact ⟨fun h => absurd hphase h.2.2.1, nofun⟩
  · exact ⟨fun h => absurd hactive h.2.2.2, nofun⟩
  · exact ⟨fun _ => rfl, fun _ => ⟨hj, Bool.not_eq_true _ ▸ hterminal, hphase, hactive⟩⟩

/-- Where recovery takes a task of a job. -/
theorem Store.interrupted_task_fate {now : Timestamp} {j : JobRow} (hj : j ∈ s.jobs) {t : TaskRow}
    (hown : t.jobId = j.id) :
    s.interrupted.task now t =
      if t.state.inflight then
        match j.fate with
        | .queued => moveTask .pending now t
        | .stopped => moveTask .stopped now t
        | _ => t
      else t := by
  have hactive : inflightOf (s.interrupted.active.map JobRow.id) t = true ↔
      j.fate = .queued ∧ t.state.inflight = true := by
    rw [inflightOf, Bool.and_eq_true, hown, ← Store.active_iff_fate hj, idIn]
  have hstopped : inflightOf (s.interrupted.stopped.map JobRow.id) t = true ↔
      j.fate = .stopped ∧ t.state.inflight = true := by
    rw [inflightOf, Bool.and_eq_true, hown, ← Store.stopped_iff_fate hj, idIn]
  rw [Interrupted.task_eq]
  simp only [hactive, hstopped]
  by_cases hrun : t.state.inflight = true
  · cases j.fate <;> simp [hrun]
  · simp [hrun]

/-- Where recovery takes an attempt of a job. -/
theorem Store.interrupted_attempt_fate {now : Timestamp} {j : JobRow} (hj : j ∈ s.jobs)
    {a : AttemptRow} (hown : a.jobId = j.id) :
    s.interrupted.attempt now a =
      if a.state = .running then
        match j.fate with
        | .queued => closeAttempt .cancelled now (Text.lit "interrupted by daemon restart") a
        | .stopped => closeAttempt .cancelled now (Text.lit "interrupted while stop was requested")
            a
        | _ => a
      else a := by
  have hactive : runningOf (s.interrupted.active.map JobRow.id) a = true ↔
      j.fate = .queued ∧ a.state = .running := by
    rw [runningOf, Bool.and_eq_true, beq_iff_eq, hown, ← Store.active_iff_fate hj, idIn]
  have hstopped : runningOf (s.interrupted.stopped.map JobRow.id) a = true ↔
      j.fate = .stopped ∧ a.state = .running := by
    rw [runningOf, Bool.and_eq_true, beq_iff_eq, hown, ← Store.stopped_iff_fate hj, idIn]
  rw [Interrupted.attempt_eq]
  simp only [hactive, hstopped]
  by_cases hrun : a.state = .running
  · cases j.fate <;> simp [hrun]
  · simp [hrun]

/-! ## The rows after recovery -/

section Recovered

variable {now : Timestamp}

theorem Store.mem_recovered_jobs {j' : JobRow} :
    j' ∈ (s.recovered now).jobs ↔ ∃ j ∈ s.jobs, j' = s.interrupted.job now j := by
  rw [← Table.mem_rows, Store.recovered_jobs, List.mem_map]
  exact ⟨fun ⟨j, hj, h⟩ => ⟨j, hj, h.symm⟩, fun ⟨j, hj, h⟩ => ⟨j, hj, h.symm⟩⟩

theorem Store.mem_recovered_tasks {t' : TaskRow} :
    t' ∈ (s.recovered now).tasks ↔ ∃ t ∈ s.tasks, t' = s.interrupted.task now t := by
  rw [← Table.mem_rows, Store.recovered_tasks, List.mem_map]
  exact ⟨fun ⟨t, ht, h⟩ => ⟨t, ht, h.symm⟩, fun ⟨t, ht, h⟩ => ⟨t, ht, h.symm⟩⟩

theorem Store.mem_recovered_attempts {a' : AttemptRow} :
    a' ∈ (s.recovered now).attempts ↔ ∃ a ∈ s.attempts, a' = s.interrupted.attempt now a := by
  rw [← Table.mem_rows, Store.recovered_attempts, List.mem_map]
  exact ⟨fun ⟨a, ha, h⟩ => ⟨a, ha, h.symm⟩, fun ⟨a, ha, h⟩ => ⟨a, ha, h.symm⟩⟩

theorem Store.interrupted_task_key (s : Store) (now : Timestamp) (t : TaskRow) :
    Row.key (s.interrupted.task now t) = Row.key t := (recovered_task t).1

theorem Store.interrupted_task_jobId (s : Store) (now : Timestamp) (t : TaskRow) :
    (s.interrupted.task now t).jobId = t.jobId :=
  congrArg (fun k => k.2.1) (s.interrupted_task_key now t)

theorem Store.interrupted_attempt_key (s : Store) (now : Timestamp) (a : AttemptRow) :
    Row.key (s.interrupted.attempt now a) = Row.key a := (recovered_attempt a).1

theorem Store.interrupted_attempt_jobId (s : Store) (now : Timestamp) (a : AttemptRow) :
    (s.interrupted.attempt now a).jobId = a.jobId :=
  congrArg (fun k => k.2.1) (s.interrupted_attempt_key now a)

/-- A task of a job after recovery comes from one of the same job. -/
theorem Store.recovered_task_of {j : JobRow} (hj : j ∈ s.jobs) {t' : TaskRow}
    (ht' : t' ∈ (s.recovered now).tasks) (hown : t'.jobId = j.id) :
    ∃ t ∈ s.tasks, t.jobId = j.id ∧ t'.id = t.id ∧ t' =
      if t.state.inflight then
        match j.fate with
        | .queued => moveTask .pending now t
        | .stopped => moveTask .stopped now t
        | _ => t
      else t := by
  obtain ⟨t, ht, rfl⟩ := Store.mem_recovered_tasks.mp ht'
  have hjob : t.jobId = j.id := (s.interrupted_task_jobId now t).symm.trans hown
  exact ⟨t, ht, hjob, congrArg Prod.fst (s.interrupted_task_key now t),
    Store.interrupted_task_fate hj hjob⟩

/-- The running attempts of a valid store belong to jobs that recovery puts back. -/
theorem Store.fate_of_running (hvalid : ∀ j ∈ s.jobs, s.JobValid j) {j : JobRow} (hj : j ∈ s.jobs)
    {a : AttemptRow} (ha : a ∈ s.attempts) (hown : a.jobId = j.id) (hrun : a.state = .running) :
    j.fate = .queued ∨ j.fate = .stopped := by
  have hstate := (hvalid j hj).running_state a ha hown hrun
  have hterminal : ¬ j.state.terminal = true := by
    rcases List.mem_pair.mp hstate with h | h
    · rw [h]
      decide
    · rw [h]
      decide
  have hphase : j.acceptancePhase ∉ [AcceptancePhase.accepted, .applying] := by
    intro hphase
    refine (hvalid j hj).accepted_running ?_ a ha hown hrun
    intro hnone
    rw [hnone] at hphase
    exact absurd hphase (by decide)
  rw [JobRow.fate, if_neg hterminal, if_neg hphase]
  split_ifs
  · exact Or.inl rfl
  · exact Or.inr rfl

/-- No attempt is running after recovery. -/
theorem Store.recovered_not_running (hvalid : ∀ j ∈ s.jobs, s.JobValid j) {a' : AttemptRow}
    (ha' : a' ∈ (s.recovered now).attempts) : a'.state ≠ .running := by
  obtain ⟨a, ha, rfl⟩ := Store.mem_recovered_attempts.mp ha'
  obtain ⟨t, ht, -, hown⟩ := s.attemptTask a ha
  obtain ⟨j, hj, hid⟩ := s.taskJob t ht
  have hjob : a.jobId = j.id := hown.symm.trans hid.symm
  rw [Store.interrupted_attempt_fate hj hjob]
  split_ifs with hrun
  · rcases Store.fate_of_running hvalid hj ha hjob hrun with h | h
    · rw [h, closeAttempt_state]
      decide
    · rw [h, closeAttempt_state]
      decide
  · exact hrun

/-- What a job that recovery has put back requires of its tasks. -/
theorem Store.recovered_not_inflight {j : JobRow} (hj : j ∈ s.jobs)
    (hfate : j.fate = .queued ∨ j.fate = .stopped) {t' : TaskRow}
    (ht' : t' ∈ (s.recovered now).tasks) (hown : t'.jobId = j.id) : t'.state.inflight = false := by
  obtain ⟨t, -, -, -, rfl⟩ := Store.recovered_task_of hj ht' hown
  split_ifs with hrun
  · rcases hfate with h | h
    · rw [h, moveTask_state]
      decide
    · rw [h, moveTask_state]
      decide
  · exact Bool.not_eq_true _ ▸ hrun

/-- A job put back is valid: its acceptance has not begun, none of its tasks is in
flight and none of its attempts is running. -/
theorem Store.putBack_valid {j : JobRow} {state : JobState} {stop : Bool}
    (hphase : j.acceptancePhase = .none) (hstate : state ≠ .completed)
    (hstop : state = .stopped → stop = true)
    (htasks : ∀ t ∈ s.tasks, t.jobId = j.id → t.state.inflight = false)
    (hattempts : ∀ a ∈ s.attempts, a.state ≠ .running) :
    s.JobValid (putBack state stop now j) where
  completed_tasks h := absurd h hstate
  settled_tasks _ := htasks
  stopped_stop := hstop
  completed_stop h := absurd h hstate
  running_state a ha _ hrun := absurd hrun (hattempts a ha)
  running_inflight a ha _ hrun := absurd hrun (hattempts a ha)
  accepted_tasks h := absurd hphase h
  accepted_running h := absurd hphase h
  accepted_state h := by
    change j.acceptancePhase ∈ _ at h
    rw [hphase] at h
    exact absurd h (by decide)
  published_iff := by
    refine ⟨fun h => ?_, fun h => absurd h hstate⟩
    change j.acceptancePhase = .published at h
    rw [hphase] at h
    cases h

theorem JobRow.fate_eq_kept {j : JobRow} :
    j.fate = .kept ↔ j.state.terminal = false ∧
      j.acceptancePhase ∈ [AcceptancePhase.accepted, .applying] := by
  unfold JobRow.fate
  split_ifs with hterminal hphase
  · exact ⟨nofun, fun h => absurd hterminal (by rw [h.1]; decide)⟩
  · exact ⟨fun _ => ⟨Bool.not_eq_true _ ▸ hterminal, hphase⟩, fun _ => rfl⟩
  · exact ⟨nofun, fun h => absurd h.2 hphase⟩
  · exact ⟨nofun, fun h => absurd h.2 hphase⟩

theorem JobRow.fate_put_back {j : JobRow} (h : j.fate = .queued ∨ j.fate = .stopped) :
    j.state.terminal = false ∧ j.acceptancePhase ∉ [AcceptancePhase.accepted, .applying] := by
  unfold JobRow.fate at h
  split_ifs at h with hterminal hphase hactive
  · rcases h with h | h <;> cases h
  · rcases h with h | h <;> cases h
  · exact ⟨Bool.not_eq_true _ ▸ hterminal, hphase⟩
  · exact ⟨Bool.not_eq_true _ ▸ hterminal, hphase⟩

/-- Every job that recovery touches is valid after it. -/
theorem Store.recovered_valid (hvalid : ∀ j ∈ s.jobs, s.JobValid j) {j : JobRow} (hj : j ∈ s.jobs)
    (hfate : j.fate ≠ .untouched) : (s.recovered now).JobValid (s.interrupted.job now j) := by
  -- a job that is put back has accepted nothing
  have hput : j.fate = .queued ∨ j.fate = .stopped → j.acceptancePhase = .none := by
    intro h
    obtain ⟨hrun, hphase⟩ := JobRow.fate_put_back h
    exact Store.open_of_interrupted hvalid hj hrun hphase
  have hrunning : ∀ a ∈ (s.recovered now).attempts, a.state ≠ .running :=
    fun a ha => Store.recovered_not_running hvalid ha
  rw [Store.interrupted_job_fate hj]
  cases h : j.fate with
  -- by the fate of the job: what `_validate` asks is asked of its rows after the recovery
  | untouched => exact absurd h hfate
  | kept =>
    -- an accepted job keeps its completed tasks, and has no running attempt
    obtain ⟨hopen, hphase⟩ := JobRow.fate_eq_kept.mp h
    have hbefore := hvalid j hj
    have hnone : j.acceptancePhase ≠ .none := by
      rintro heq
      rw [heq] at hphase
      exact absurd hphase (by decide)
    have htasks : ∀ t' ∈ (s.recovered now).tasks, t'.jobId = j.id → t'.state = .completed := by
      intro t' ht' hown
      obtain ⟨t, ht, hjob, -, rfl⟩ := Store.recovered_task_of hj ht' hown
      rw [h]
      split_ifs
      · exact hbefore.accepted_tasks hnone t ht hjob
      · exact hbefore.accepted_tasks hnone t ht hjob
    have hstate := hbefore.accepted_state hphase
    have hunsettled : ¬ j.state ∈ [JobState.queued, .stopped, .failed] := by
      rcases List.mem_pair.mp hstate with heq | heq
      · rw [heq]
        decide
      · rw [heq]
        decide
    -- the conditions on completed tasks, settled and stopped states, attempts and phases, in
    -- order
    constructor
    · exact fun _ => htasks
    · exact fun hsettled => absurd hsettled hunsettled
    · intro hstopped
      change j.state = .stopped at hstopped
      rw [hstopped] at hunsettled
      exact absurd (by decide) hunsettled
    · exact fun _ => rfl
    · exact fun a ha _ hrun => absurd hrun (hrunning a ha)
    · exact fun a ha _ hrun => absurd hrun (hrunning a ha)
    · exact fun _ => htasks
    · exact fun _ a ha _ => hrunning a ha
    · exact fun _ => hstate
    · exact hbefore.published_iff
  -- put back as queued: no stop is asked of it, and none of its tasks is in flight
  | queued =>
    exact Store.putBack_valid (hput (Or.inl h)) (by decide) nofun
      (fun _ ht hown => Store.recovered_not_inflight hj (Or.inl h) ht hown) hrunning
  -- put back as stopped: the stop it was asked for is what a stopped job must have
  | stopped =>
    exact Store.putBack_valid (hput (Or.inr h)) (by decide) (fun _ => rfl)
      (fun _ ht hown => Store.recovered_not_inflight hj (Or.inr h) ht hown) hrunning

end Recovered

/-! ## Totality -/

/-- The states of the interrupted jobs of a valid store can be put back. -/
theorem Store.interrupted_validate (hvalid : ∀ j ∈ s.jobs, s.JobValid j) :
    s.interrupted.validate = .ok () := by
  have haccepted : ∀ j ∈ s.interrupted.accepted,
      forbidIf (j.state ∉ [JobState.running, .stopping])
        (lit "accepted recovery found invalid job state " ++ lit j.state.value) = .ok () := by
    intro j hj
    obtain ⟨hmem, -, hphase⟩ := Store.mem_interrupted_accepted.mp hj
    rw [forbidIf_eq_ok, Decidable.not_not]
    exact (hvalid j hmem).accepted_state hphase
  have hactive : ∀ j ∈ s.interrupted.active, validateJobTransition j.state .queued = .ok () := by
    intro j hj
    obtain ⟨-, hrun, -⟩ := Store.mem_interrupted_active.mp hj
    exact validateJobTransition_eq_ok.mpr (queued_mem_jobTransitions hrun)
  have hstopped : ∀ j ∈ s.interrupted.stopped, (do
      if j.state ≠ .stopping then validateJobTransition j.state .stopping
      validateJobTransition .stopping .stopped) = Except.ok () := by
    intro j hj
    obtain ⟨-, hrun, -⟩ := Store.mem_interrupted_stopped.mp hj
    have hlast : validateJobTransition .stopping .stopped = .ok () :=
      validateJobTransition_eq_ok.mpr (by decide)
    by_cases hstate : j.state = .stopping
    · rw [if_neg (not_not.mpr hstate)]
      exact hlast
    · have hfirst : validateJobTransition j.state .stopping = .ok () :=
        validateJobTransition_eq_ok.mpr (stopping_mem_jobTransitions hrun)
      rw [if_pos hstate, hfirst]
      exact hlast
  rw [Interrupted.validate, forM_eq_ok.mpr haccepted, forM_eq_ok.mpr hactive]
  exact forM_eq_ok.mpr hstopped

/-- A row of the store that is found by its id. -/
theorem Store.Validated.of_valid {j : JobRow} (hj : j ∈ s.jobs) (h : s.JobValid j) :
    s.Validated j.id := ⟨j, Store.job?_eq_some hj, h⟩

/-- Recovery of a valid store fails only on the number of its parameters. -/
theorem recoverRows_of_valid (hvalid : ∀ j ∈ s.jobs, s.JobValid j) {maxVariables : Nat}
    (hfits : s.interrupted.Fits maxVariables) (now : Timestamp) :
    recoverRows maxVariables now s = .ok (s.interrupted, s.recovered now) := by
  have hgroup : ∀ j ∈ s.jobs, j.fate ≠ .untouched → (s.recovered now).Validated j.id := by
    intro j hj hfate
    have hmem : s.interrupted.job now j ∈ (s.recovered now).jobs :=
      Store.mem_recovered_jobs.mpr ⟨j, hj, rfl⟩
    have hvalidated := Store.Validated.of_valid hmem (Store.recovered_valid hvalid hj hfate)
    rw [(recovered_job hj).1] at hvalidated
    exact hvalidated
  refine recoverRows_ok_iff.mpr ⟨rfl, hfits, s.interrupted_validate hvalid, ?_⟩
  intro jobId hmem
  simp only [List.mem_append, List.mem_map, Store.mem_interrupted_accepted,
    Store.mem_interrupted_active, Store.mem_interrupted_stopped] at hmem
  rcases hmem with (⟨j, ⟨hj, hrun, -⟩, rfl⟩ | ⟨j, ⟨hj, hrun, -⟩, rfl⟩) | ⟨j, ⟨hj, hrun, -⟩, rfl⟩
  all_goals
    refine hgroup j hj ?_
    intro hfate
    unfold JobRow.fate at hfate
    split_ifs at hfate with hterminal
    rw [hrun] at hterminal
    cases hterminal

/-! ## The parameters of a statement -/

/-- The jobs of a fate. -/
def Store.fated (s : Store) (fate : Fate) : List JobRow := s.jobs.select fun j => j.fate == fate

/-- The parameters that the longest statement about jobs of a fate has besides one for each job. -/
def Fate.others : Fate → Nat
  | .untouched => 0
  | .kept => 1
  | .queued | .stopped => 5

/-- A statement can name the jobs of each fate: SQLite allows it so many parameters. -/
def Store.Nameable (s : Store) (maxVariables : Nat) : Prop :=
  ∀ fate ≠ .untouched, s.fated fate = [] ∨ (s.fated fate).length + fate.others ≤ maxVariables

/-- The groups that recovery makes are the jobs of each fate. -/
theorem Store.interrupted_fated (s : Store) :
    s.interrupted = ⟨s.fated .kept, s.fated .queued, s.fated .stopped⟩ := by
  unfold Store.interrupted Store.fated Table.select
  simp only [List.filter_filter, Interrupted.mk.injEq]
  -- each group is a filter of the jobs by conditions that the fate decides
  refine ⟨List.filter_congr ?_, List.filter_congr ?_, List.filter_congr ?_⟩
  all_goals
    intro j _
    rw [Bool.eq_iff_iff]
    unfold JobRow.fate
    split_ifs with hterminal hphase hrun
    all_goals simp_all
  cases hstop : j.stopRequested with
  | false => exact Or.inr (hrun hstop)
  | true => exact Or.inl rfl

theorem Store.nameable_iff {maxVariables : Nat} :
    s.Nameable maxVariables ↔ s.interrupted.Fits maxVariables := by
  rw [Store.interrupted_fated]
  constructor
  · intro h
    exact ⟨h .kept (by decide), h .queued (by decide), h .stopped (by decide)⟩
  · rintro ⟨hkept, hqueued, hstopped⟩ fate hfate
    cases fate with
    | untouched => exact absurd rfl hfate
    | kept => exact hkept
    | queued => exact hqueued
    | stopped => exact hstopped

/-! ## Exactness -/

section Exact

variable {maxVariables : Nat} {now : Timestamp} {at' : Text → Timestamp} {reply : List Text}

/-- The tables after a recovery and its events. -/
theorem recoverIncomplete_tables (h : recoverIncomplete maxVariables now at' s = .ok reply s') :
    s'.jobs = (s.recovered now).jobs ∧ s'.tasks = (s.recovered now).tasks ∧
      s'.attempts = (s.recovered now).attempts ∧ s'.dossiers = s.dossiers ∧
      reply = s.interrupted.accepted.map JobRow.id ++ s.interrupted.active.map JobRow.id := by
  obtain ⟨t, hrows, honly, hreply⟩ := recoverIncomplete_rows h
  obtain ⟨-, rfl, -⟩ := recoverRows_cases hrows
  exact ⟨honly.jobs, honly.tasks, honly.attempts, honly.dossiers, hreply⟩

/-- A task of a job that recovery does not put back stays, and no other appears. -/
theorem Store.recovered_tasks_kept {j : JobRow} (hj : j ∈ s.jobs)
    (hfate : j.fate = .untouched ∨ j.fate = .kept) {u : TaskRow} (hown : u.jobId = j.id) :
    u ∈ (s.recovered now).tasks ↔ u ∈ s.tasks := by
  have hsame : ∀ {t : TaskRow}, t.jobId = j.id → s.interrupted.task now t = t := by
    intro t ht
    rw [Store.interrupted_task_fate hj ht]
    rcases hfate with h | h
    · rw [h, ite_self]
    · rw [h, ite_self]
  constructor
  · intro hu
    obtain ⟨t, ht, rfl⟩ := Store.mem_recovered_tasks.mp hu
    have hjob : t.jobId = j.id := (s.interrupted_task_jobId now t).symm.trans hown
    rw [hsame hjob]
    exact ht
  · intro hu
    exact Store.mem_recovered_tasks.mpr ⟨u, hu, (hsame hown).symm⟩

theorem Store.recovered_attempts_kept {j : JobRow} (hj : j ∈ s.jobs)
    (hfate : j.fate = .untouched ∨ j.fate = .kept) {a : AttemptRow} (hown : a.jobId = j.id) :
    a ∈ (s.recovered now).attempts ↔ a ∈ s.attempts := by
  have hsame : ∀ {b : AttemptRow}, b.jobId = j.id → s.interrupted.attempt now b = b := by
    intro b hb
    rw [Store.interrupted_attempt_fate hj hb]
    rcases hfate with h | h
    · rw [h, ite_self]
    · rw [h, ite_self]
  constructor
  · intro ha
    obtain ⟨b, hb, rfl⟩ := Store.mem_recovered_attempts.mp ha
    have hjob : b.jobId = j.id := (s.interrupted_attempt_jobId now b).symm.trans hown
    rw [hsame hjob]
    exact hb
  · intro ha
    exact Store.mem_recovered_attempts.mpr ⟨a, ha, (hsame hown).symm⟩

/-- An accepted job of a valid store is in no terminal state. -/
theorem Store.fate_of_accepted (hvalid : ∀ j ∈ s.jobs, s.JobValid j) {j : JobRow} (hj : j ∈ s.jobs)
    (hphase : j.acceptancePhase ∈ [AcceptancePhase.accepted, .applying]) : j.fate = .kept := by
  refine JobRow.fate_eq_kept.mpr ⟨?_, hphase⟩
  rcases List.mem_pair.mp ((hvalid j hj).accepted_state hphase) with h | h
  · rw [h]
    decide
  · rw [h]
    decide

/-! ## The reply -/

theorem Store.job_ids_nodup (s : Store) : (s.jobs.rows.map JobRow.id).Nodup := by
  rw [List.Nodup, List.pairwise_map]
  exact s.jobs.distinct

theorem Store.group_ids_nodup {p : JobRow → Bool} : ((s.jobs.rows.filter p).map JobRow.id).Nodup :=
  s.job_ids_nodup.sublist (List.filter_sublist.map JobRow.id)

/-- Recovery names each job once. -/
theorem Store.recovered_reply_nodup (s : Store) :
    (s.interrupted.accepted.map JobRow.id ++ s.interrupted.active.map JobRow.id).Nodup := by
  rw [List.nodup_append]
  refine ⟨?_, ?_, ?_⟩
  · unfold Store.interrupted Table.select
    simp only [List.filter_filter]
    exact Store.group_ids_nodup
  · unfold Store.interrupted Table.select
    simp only [List.filter_filter]
    exact Store.group_ids_nodup
  · rintro id haccepted id' hactive rfl
    obtain ⟨j, hj, rfl⟩ := List.mem_map.mp haccepted
    obtain ⟨j', hj', hid⟩ := List.mem_map.mp hactive
    obtain ⟨hmem, -, hphase⟩ := Store.mem_interrupted_accepted.mp hj
    obtain ⟨hmem', -, hphase', -⟩ := Store.mem_interrupted_active.mp hj'
    rw [Store.eq_of_id hmem' hmem hid] at hphase'
    exact hphase' hphase

/-- The jobs that recovery names are those that are accepted or queued after it. -/
theorem Store.mem_recovered_reply (hvalid : ∀ j ∈ s.jobs, s.JobValid j) {jobId : Text} :
    jobId ∈ s.interrupted.accepted.map JobRow.id ++ s.interrupted.active.map JobRow.id ↔
      ∃ j' ∈ (s.recovered now).jobs, j'.id = jobId ∧
        (j'.acceptancePhase ∈ [AcceptancePhase.accepted, .applying] ∨ j'.state = .queued) := by
  simp only [List.mem_append, List.mem_map]
  -- each job in the reply is restarted, and each restarted job is in the reply
  constructor
  · rintro (⟨j, hj, rfl⟩ | ⟨j, hj, rfl⟩)
    -- an accepted job keeps its phase
    · obtain ⟨hmem, hrun, hphase⟩ := Store.mem_interrupted_accepted.mp hj
      refine ⟨_, Store.mem_recovered_jobs.mpr ⟨j, hmem, rfl⟩, (recovered_job hmem).1, Or.inl ?_⟩
      rw [Store.interrupted_job_fate hmem, JobRow.fate_eq_kept.mpr ⟨hrun, hphase⟩]
      exact hphase
    -- an active job is queued
    · obtain ⟨hmem, -⟩ := Store.mem_interrupted_active.mp hj
      have hfate : j.fate = .queued := by
        rw [← Store.active_iff_fate hmem]
        exact (Store.mem_group (fun _ h => (Store.mem_interrupted_active.mp h).1) hmem).mpr hj
      refine ⟨_, Store.mem_recovered_jobs.mpr ⟨j, hmem, rfl⟩, (recovered_job hmem).1, Or.inr ?_⟩
      rw [Store.interrupted_job_fate hmem, hfate]
      rfl
  · rintro ⟨_, hj', rfl, hcase⟩
    obtain ⟨j, hj, rfl⟩ := Store.mem_recovered_jobs.mp hj'
    rw [(recovered_job hj).1]
    rw [Store.interrupted_job_fate hj] at hcase
    -- by the fate of the job it was
    cases hfate : j.fate with
    | untouched =>
      rw [hfate] at hcase
      -- an untouched job has a terminal state, so it is neither accepted nor queued
      rcases hcase with hphase | hqueued
      · rw [Store.fate_of_accepted hvalid hj hphase] at hfate
        cases hfate
      · unfold JobRow.fate at hfate
        split_ifs at hfate with hterminal
        rw [hqueued] at hterminal
        exact absurd hterminal (by decide)
    -- kept and queued jobs are the two groups of the reply
    | kept =>
      obtain ⟨hrun, hphase⟩ := JobRow.fate_eq_kept.mp hfate
      exact Or.inl ⟨j, Store.mem_interrupted_accepted.mpr ⟨hj, hrun, hphase⟩, rfl⟩
    | queued =>
      refine Or.inr ⟨j, ?_, rfl⟩
      rw [← Store.mem_group (fun _ h => (Store.mem_interrupted_active.mp h).1) hj]
      exact (Store.active_iff_fate hj).mpr hfate
    | stopped =>
      -- a stopped job has accepted nothing and is not queued
      rw [hfate] at hcase
      rcases hcase with hphase | hqueued
      · rw [Store.fate_of_accepted hvalid hj hphase] at hfate
        cases hfate
      · cases hqueued

/-! ## Stability -/

/-- What a second recovery would do with a job after the first. -/
theorem Store.recovered_fate {j : JobRow} (hj : j ∈ s.jobs) :
    (s.interrupted.job now j).fate = if j.fate = .stopped then .untouched else j.fate := by
  rw [Store.interrupted_job_fate hj]
  cases hfate : j.fate with
  | untouched => exact hfate
  | kept =>
    obtain ⟨hrun, hphase⟩ := JobRow.fate_eq_kept.mp hfate
    exact JobRow.fate_eq_kept.mpr ⟨hrun, hphase⟩
  | queued =>
    obtain ⟨-, hphase⟩ := JobRow.fate_put_back (Or.inl hfate)
    have hterminal : ¬ (putBack .queued false now j).state.terminal = true := by
      change ¬ JobState.queued.terminal = true
      decide
    have hphase' : (putBack .queued false now j).acceptancePhase ∉
        [AcceptancePhase.accepted, .applying] := hphase
    change (putBack .queued false now j).fate = .queued
    rw [JobRow.fate, if_neg hterminal, if_neg hphase']
    rfl
  | stopped => rfl

/-- A second recovery has no more jobs to name than the first. -/
theorem Store.recovered_nameable {maxVariables : Nat} (hjobs : s'.jobs = (s.recovered now).jobs)
    (h : s.Nameable maxVariables) : s'.Nameable maxVariables := by
  have hrows : ∀ fate, s'.fated fate = (s.jobs.rows.filter fun j =>
      (s.interrupted.job now j).fate == fate).map (s.interrupted.job now) := by
    intro fate
    rw [Store.fated, Table.select, hjobs, Store.recovered_jobs, List.filter_map]
    rfl
  intro fate hfate
  rw [hrows, List.map_eq_nil_iff, List.length_map]
  by_cases hstopped : fate = .stopped
  · refine Or.inl (List.filter_eq_nil_iff.mpr ?_)
    intro j hj
    rw [Store.recovered_fate hj, hstopped, beq_iff_eq]
    split_ifs with hfate
    · decide
    · exact hfate
  · have hsame : (s.jobs.rows.filter fun j => (s.interrupted.job now j).fate == fate) =
        s.fated fate := by
      refine List.filter_congr fun j hj => ?_
      rw [Store.recovered_fate hj]
      split_ifs with hold
      · rw [hold, beq_eq_false_iff_ne.mpr (Ne.symm hfate),
          beq_eq_false_iff_ne.mpr (Ne.symm hstopped)]
      · rfl
    rw [hsame]
    exact h fate hfate

/-- A second recovery rewrites the clock of the jobs, and nothing else. -/
theorem Store.recovered_again (hvalid : ∀ j ∈ s'.jobs, s'.JobValid j)
    (hjobs : s'.jobs = (s.recovered now).jobs) (hattempts : ∀ a ∈ s'.attempts, a.state ≠ .running)
    (now' : Timestamp) :
    (s'.recovered now').tasks = s'.tasks ∧ (s'.recovered now').attempts = s'.attempts ∧
      ∀ j ∈ s'.jobs, ∃ at', { j with updatedAt := at' } ∈ (s'.recovered now').jobs := by
  -- after one recovery no job is put back as stopped, and those queued or kept are as a second
  -- one writes them
  have hfates : ∀ j ∈ s'.jobs, j.fate ≠ .stopped ∧
      (j.fate = .queued → j.state = .queued ∧ j.stopRequested = false) ∧
      (j.fate = .kept → j.stopRequested = false ∧ j.error = Text.lit "") := by
    intro j' hj'
    rw [hjobs] at hj'
    obtain ⟨j, hj, rfl⟩ := Store.mem_recovered_jobs.mp hj'
    rw [Store.recovered_fate hj]
    cases hfate : j.fate with
    | untouched => exact ⟨by decide, nofun, nofun⟩
    | kept =>
      refine ⟨by decide, nofun, fun _ => ?_⟩
      rw [Store.interrupted_job_fate hj, hfate]
      exact ⟨rfl, rfl⟩
    | queued =>
      refine ⟨by decide, fun _ => ?_, nofun⟩
      rw [Store.interrupted_job_fate hj, hfate]
      exact ⟨rfl, rfl⟩
    | stopped => exact ⟨by decide, nofun, nofun⟩
  refine ⟨?_, ?_, ?_⟩
  · -- the tasks of the jobs put back are not in flight any more
    apply Table.ext
    rw [Store.recovered_tasks]
    refine (List.map_congr_left ?_).trans (List.map_id _)
    intro t ht
    obtain ⟨j, hj, hid⟩ := s'.taskJob t ht
    obtain ⟨hstopped, hqueued, -⟩ := hfates j hj
    rw [Store.interrupted_task_fate hj hid.symm]
    split_ifs with hrun
    -- only a queued job could change its task, and none of its tasks is in flight
    · cases hfate : j.fate with
      | untouched => rfl
      | kept => rfl
      | queued =>
        have hsettled := (hvalid j hj).settled_tasks (by rw [(hqueued hfate).1]; decide)
          t ht hid.symm
        rw [hsettled] at hrun
        cases hrun
      | stopped => exact absurd hfate hstopped
    · rfl
  -- no attempt is running any more
  · apply Table.ext
    rw [Store.recovered_attempts]
    refine (List.map_congr_left ?_).trans (List.map_id _)
    intro a ha
    obtain ⟨t, ht, -, hown⟩ := s'.attemptTask a ha
    obtain ⟨j, hj, hid⟩ := s'.taskJob t ht
    rw [Store.interrupted_attempt_fate hj (hown.symm.trans hid.symm), if_neg (hattempts a ha)]
    rfl
  -- only the time of the update moves
  · intro j hj
    have hmem : s'.interrupted.job now' j ∈ (s'.recovered now').jobs :=
      Store.mem_recovered_jobs.mpr ⟨j, hj, rfl⟩
    rw [Store.interrupted_job_fate hj] at hmem
    obtain ⟨hstopped, hqueued, hkept⟩ := hfates j hj
    cases hfate : j.fate with
    | untouched =>
      rw [hfate] at hmem
      exact ⟨j.updatedAt, hmem⟩
    | kept =>
      rw [hfate] at hmem
      refine ⟨now', ?_⟩
      have hsame : keepAccepted now' j = { j with updatedAt := now' } := by
        rw [keepAccepted, ← (hkept hfate).1, ← (hkept hfate).2]
      rw [← hsame]
      exact hmem
    | queued =>
      rw [hfate] at hmem
      refine ⟨now', ?_⟩
      have hsame : putBack .queued false now' j = { j with updatedAt := now' } := by
        rw [putBack, ← (hqueued hfate).1, ← (hqueued hfate).2]
      rw [← hsame]
      exact hmem
    | stopped => exact absurd hfate hstopped

/-! ## The rows of a job -/

/-- The tasks and attempts of a job are as they were. -/
structure Store.SameRows (s s' : Store) (jobId : Text) : Prop where
  tasks : ∀ t : TaskRow, t.jobId = jobId → (t ∈ s'.tasks ↔ t ∈ s.tasks)
  attempts : ∀ a : AttemptRow, a.jobId = jobId → (a ∈ s'.attempts ↔ a ∈ s.attempts)

/-- A job is put back to `state`, and its tasks in flight to `taskState`. -/
structure Store.PutBack (s s' : Store) (j : JobRow) (state : JobState) (stop : Bool)
    (taskState : TaskState) (now : Timestamp) : Prop where
  job : { j with state := state, stopRequested := stop, updatedAt := now } ∈ s'.jobs
  tasks : ∀ t' : TaskRow, t'.jobId = j.id → (t' ∈ s'.tasks ↔ ∃ t ∈ s.tasks,
    t' = if t.state.inflight then { t with state := taskState, updatedAt := now } else t)

theorem Store.recovered_sameRows {j : JobRow} (hj : j ∈ s.jobs)
    (hfate : j.fate = .untouched ∨ j.fate = .kept)
    (htasks : s'.tasks = (s.recovered now).tasks)
    (hattempts : s'.attempts = (s.recovered now).attempts) : s.SameRows s' j.id := by
  constructor
  · intro t hown
    rw [htasks]
    exact Store.recovered_tasks_kept hj hfate hown
  · intro a hown
    rw [hattempts]
    exact Store.recovered_attempts_kept hj hfate hown

/-- The tasks of a job that is put back. -/
theorem Store.recovered_putBack {j : JobRow} (hj : j ∈ s.jobs) {state : JobState} {stop : Bool}
    {taskState : TaskState} (hjob : s.interrupted.job now j = putBack state stop now j)
    (htask : ∀ t : TaskRow, t.jobId = j.id → s.interrupted.task now t =
      if t.state.inflight then moveTask taskState now t else t)
    (hjobs : s'.jobs = (s.recovered now).jobs) (htasks : s'.tasks = (s.recovered now).tasks) :
    s.PutBack s' j state stop taskState now := by
  constructor
  · rw [hjobs]
    exact Store.mem_recovered_jobs.mpr ⟨j, hj, hjob.symm⟩
  · intro t' hown
    rw [htasks, Store.mem_recovered_tasks]
    constructor
    · rintro ⟨t, ht, rfl⟩
      have hjob : t.jobId = j.id := (s.interrupted_task_jobId now t).symm.trans hown
      exact ⟨t, ht, htask t hjob⟩
    · rintro ⟨t, ht, rfl⟩
      refine ⟨t, ht, (htask t ?_).symm⟩
      split_ifs at hown
      · exact hown
      · exact hown

/-- The store after a recovery with a reply. Finished jobs are as they were, accepted jobs
lose their stop request, every other job is queued or stopped, and the reply names the jobs to
run again. -/
structure Store.RecoveredTo (s s' : Store) (now : Timestamp) (reply : List Text) : Prop where
  finished : ∀ j ∈ s.jobs, j.state.terminal = true → j ∈ s'.jobs ∧ s.SameRows s' j.id
  accepted : ∀ j ∈ s.jobs, j.acceptancePhase ∈ [AcceptancePhase.accepted, .applying] →
    { j with stopRequested := false, error := Text.lit "", updatedAt := now } ∈ s'.jobs ∧
      s.SameRows s' j.id
  ordinary : ∀ j ∈ s.jobs, j.state.terminal = false →
    j.acceptancePhase ∉ [AcceptancePhase.accepted, .applying] →
      if j.stopRequested = false ∧ j.state ≠ .stopping then
        s.PutBack s' j .queued false .pending now
      else s.PutBack s' j .stopped true .stopped now
  dossiers : s'.dossiers = s.dossiers
  attempts : ∀ a ∈ s'.attempts, a.state ≠ .running
  nodup : reply.Nodup
  reply : ∀ jobId, jobId ∈ reply ↔ ∃ j ∈ s'.jobs, j.id = jobId ∧
    (j.acceptancePhase ∈ [AcceptancePhase.accepted, .applying] ∨ j.state = .queued)

/-- What recovery makes of a valid store. -/
theorem recoverIncomplete_recoveredTo (hvalid : ∀ j ∈ s.jobs, s.JobValid j)
    (h : recoverIncomplete maxVariables now at' s = .ok reply s') :
    s.RecoveredTo s' now reply := by
  obtain ⟨hjobs, htasks, hattempts, hdossiers, rfl⟩ := recoverIncomplete_tables h
  -- the parts of `RecoveredTo`, in order
  constructor
  -- a terminal job is untouched
  · intro j hj hterminal
    have hfate : j.fate = .untouched := if_pos hterminal
    have hmem : s.interrupted.job now j ∈ (s.recovered now).jobs :=
      Store.mem_recovered_jobs.mpr ⟨j, hj, rfl⟩
    rw [Store.interrupted_job_fate hj, hfate, ← hjobs] at hmem
    exact ⟨hmem, Store.recovered_sameRows hj (Or.inl hfate) htasks hattempts⟩
  -- an accepted job is kept
  · intro j hj hphase
    have hfate := Store.fate_of_accepted hvalid hj hphase
    have hmem : s.interrupted.job now j ∈ (s.recovered now).jobs :=
      Store.mem_recovered_jobs.mpr ⟨j, hj, rfl⟩
    rw [Store.interrupted_job_fate hj, hfate, ← hjobs] at hmem
    exact ⟨hmem, Store.recovered_sameRows hj (Or.inr hfate) htasks hattempts⟩
  -- any other interrupted job is put back, as queued or as stopped
  · intro j hj hrun hphase
    have hterminal : ¬ j.state.terminal = true := by
      rw [hrun]
      decide
    split_ifs with hactive
    · have hfate : j.fate = .queued := by
        rw [JobRow.fate, if_neg hterminal, if_neg hphase, if_pos hactive]
      refine Store.recovered_putBack hj ?_ ?_ hjobs htasks
      · rw [Store.interrupted_job_fate hj, hfate]
      · intro t hown
        rw [Store.interrupted_task_fate hj hown, hfate]
    · have hfate : j.fate = .stopped := by
        rw [JobRow.fate, if_neg hterminal, if_neg hphase, if_neg hactive]
      refine Store.recovered_putBack hj ?_ ?_ hjobs htasks
      · rw [Store.interrupted_job_fate hj, hfate]
      · intro t hown
        rw [Store.interrupted_task_fate hj hown, hfate]
  -- the dossiers, the attempts and the reply
  · exact hdossiers
  · intro a ha
    rw [hattempts] at ha
    exact Store.recovered_not_running hvalid ha
  · exact s.recovered_reply_nodup
  · intro jobId
    rw [hjobs]
    exact Store.mem_recovered_reply hvalid

/-- Recovery of a reachable store returns, is exact, and is stable under another one, if and only
if a statement can name the jobs of each fate. Nothing else can make it fail. -/
theorem recovery_exact_iff {F : Type} [PyFloat F] {sha256 : Str → Str}
    (h : (database F sha256).Reachable s) (maxVariables : Nat) (now : Timestamp)
    (at' : Text → Timestamp) :
    (∃ reply s', recoverIncomplete maxVariables now at' s = .ok reply s' ∧
      s.RecoveredTo s' now reply ∧
      ∀ now' at'', ∃ reply' s'', recoverIncomplete maxVariables now' at'' s' = .ok reply' s'' ∧
        s''.tasks = s'.tasks ∧ s''.attempts = s'.attempts ∧
          ∀ j ∈ s'.jobs, ∃ updatedAt, { j with updatedAt := updatedAt } ∈ s''.jobs) ↔
      s.Nameable maxVariables := by
  have hvalid := (reachable_sound h).valid
  constructor
  · rintro ⟨reply, s', hrecover, -, -⟩
    obtain ⟨t, hrows, -, -⟩ := recoverIncomplete_rows hrecover
    exact Store.nameable_iff.mpr (recoverRows_ok_iff.mp hrows).2.1
  intro hnames
  have hfits := Store.nameable_iff.mp hnames
  obtain ⟨reply, s', hrecover⟩ := recoverIncomplete_ok (recoverRows_of_valid hvalid hfits now) at'
  have hexact := recoverIncomplete_recoveredTo hvalid hrecover
  obtain ⟨hjobs, -⟩ := recoverIncomplete_tables hrecover
  refine ⟨reply, s', hrecover, hexact, ?_⟩
  intro now' at''
  have hstep : (Operation.call (F := F) (.recoverIncomplete maxVariables now at')).run sha256 s =
      .ok () s' := dropReply_ok_iff.mpr ⟨_, hrecover⟩
  have hvalid' := Operation.run_valid hvalid hstep
  -- the second recovery has no more jobs to name than the first
  have hfits' := Store.nameable_iff.mp (Store.recovered_nameable hjobs hnames)
  obtain ⟨reply', s'', hagain⟩ :=
    recoverIncomplete_ok (recoverRows_of_valid hvalid' hfits' now') at''
  obtain ⟨hjobs', htasks', hattempts', -⟩ := recoverIncomplete_tables hagain
  obtain ⟨hsameTasks, hsameAttempts, hsameJobs⟩ :=
    Store.recovered_again hvalid' hjobs hexact.attempts now'
  refine ⟨reply', s'', hagain, htasks'.trans hsameTasks, hattempts'.trans hsameAttempts, ?_⟩
  rw [hjobs']
  exact hsameJobs

/-- Recovery of a store with an accepted job names the job, within six parameters. -/
theorem recovery_exact_accepted :
    ∃ s, runOperations demoDigest demoAccepted Store.empty = some s ∧
      ∃ reply s', recoverIncomplete 6 5 (fun _ => 6) s = .ok reply s' ∧ reply ≠ [] ∧
        reply.Nodup := by
  have hrun : (runOperations demoDigest demoAccepted Store.empty).map
      (fun s => s.jobs.rows.map fun j => (j.acceptancePhase, j.fate)) =
        some [(.accepted, .kept)] := by
    decide +kernel
  obtain ⟨s, hs, hjobs⟩ := Option.map_eq_some_iff.mp hrun
  obtain ⟨j, hrows, hj⟩ := List.map_eq_singleton_iff.mp hjobs
  obtain ⟨hphase, hfate⟩ := Prod.mk.inj hj
  have hnames : s.Nameable 6 := by
    intro fate _
    have hsmall : (s.fated fate).length ≤ 1 := by
      rw [Store.fated, Table.select, hrows]
      exact List.length_filter_le _ _
    have hothers : fate.others ≤ 5 := by cases fate <;> decide
    exact Or.inr (by omega)
  obtain ⟨reply, s', hrecover, hexact, -⟩ :=
    (recovery_exact_iff (runOperations_reachable hs) 6 5 fun _ => 6).mpr hnames
  refine ⟨s, hs, reply, s', hrecover, ?_, hexact.nodup⟩
  have haccepted : j.acceptancePhase ∈ [AcceptancePhase.accepted, .applying] := by
    rw [hphase]
    decide
  have hmem : j ∈ s.jobs := by
    rw [← Table.mem_rows, hrows]
    exact List.mem_singleton.mpr rfl
  intro hnil
  have hin := (hexact.reply j.id).mpr
    ⟨_, (hexact.accepted j hmem haccepted).1, rfl, Or.inl haccepted⟩
  rw [hnil] at hin
  exact absurd hin List.not_mem_nil

/-- A queued job of a crowd. -/
def waitingJob (i : Nat) : JobRow where
  id                := crowdId i
  repo              := Text.lit "/src"
  goal              := Text.lit "Add the parser"
  state             := .queued
  baseBranch        := Text.lit "main"
  baseCommit        := Text.lit "0000000000000000000000000000000000000000"
  integrationBranch := Text.lit "yolo/run_000000000000/integration"
  createdAt         := i
  updatedAt         := i

/-- With 32762 queued jobs, and the 32766 parameters that SQLite allows by default, recovery
raises and changes nothing. -/
theorem recovery_crowd_raises :
    ∃ s, (database NonFinite demoDigest).Reachable s ∧
      s.jobs.rows = (List.range 32762).map waitingJob ∧
      ∀ now at', ∃ e, recoverIncomplete 32766 now at' s = .error e s := by
  have hcrowd : ∃ s, (database NonFinite demoDigest).Reachable s ∧
      s.jobs.rows = (List.range 32762).map waitingJob :=
    created_reachable (fun _ => rfl) (fun _ => rfl) (by decide)
  obtain ⟨s, hreach, hrows⟩ := hcrowd
  refine ⟨s, hreach, hrows, ?_⟩
  intro now at'
  have hqueued : s.fated .queued = (List.range 32762).map waitingJob := by
    rw [Store.fated, Table.select, hrows, List.filter_eq_self]
    intro j hj
    obtain ⟨i, -, rfl⟩ := List.mem_map.mp hj
    rfl
  have hmany : ¬ s.Nameable 32766 := by
    intro hnames
    have hlength : (s.fated .queued).length = 32762 := by
      rw [hqueued, List.length_map, List.length_range]
    have hothers : Fate.queued.others = 5 := rfl
    rcases hnames .queued (by decide) with hnil | hfits
    · rw [hnil] at hlength
      cases hlength
    · omega
  cases hrun : recoverIncomplete 32766 now at' s with
  | ok reply s' =>
    obtain ⟨t, hrecover, -, -⟩ := recoverIncomplete_rows hrun
    exact absurd (Store.nameable_iff.mpr (recoverRows_ok_iff.mp hrecover).2.1) hmany
  | error e s' =>
    have hsame := recoverIncomplete_atomic 32766 now at' s e s' hrun
    rw [hsame]
    exact ⟨e, rfl⟩

end Exact

end OmarchyYolo
