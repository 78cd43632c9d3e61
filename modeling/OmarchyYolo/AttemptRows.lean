import OmarchyYolo.Lib.Follows
import OmarchyYolo.StoreRules

/-!
# OmarchyYolo.AttemptRows — the numbers of attempts in the database

The number of a task's attempts stands in its row, and the attempts have rows of
their own, which are written in other transactions. Only the coroutines of tasks
write numbers: whatever else is done to the database, counters and numbers stay.

* `Store.numbersOf` — the numbers of a task's attempts, as they were created;
* `Store.Counts` — the numbering stays: every operation but the two that write
  numbers, `Operation.run_counts`;
* `Store.CountsFor` — the same for one task, whatever happens to the others;
* `Store.Numbered` — the invariant, with a step for each way of changing the rows.
-/

namespace OmarchyYolo

open Py PyJson Sql Txn

/-! ## Numbers -/

/-- The numbers of the attempts of a task, in the order of their creation. -/
def Store.numbersOf (s : Store) (taskId : Text) : List Int :=
  (s.attempts.select fun a => a.taskId == taskId).map AttemptRow.number

/-- `tasks.attempts` of the task. -/
def Store.Counter (s : Store) (taskId : Text) (number : Int) : Prop :=
  ∃ t ∈ s.tasks, t.id = taskId ∧ t.attempts = number

/-- No attempt of the task is running. -/
def Store.Idle (s : Store) (taskId : Text) : Prop :=
  ∀ a ∈ s.attempts, a.taskId = taskId → a.state ≠ .running

/-- The numbers of a task increase, up to its counter. -/
structure Store.Numbered (s : Store) : Prop where
  increasing : ∀ taskId, (s.numbersOf taskId).Pairwise (· < ·)
  bounded : ∀ t ∈ s.tasks, ∀ a ∈ s.attempts, a.taskId = t.id → a.number ≤ t.attempts

variable {s s' : Store} {taskId : Text} {number : Int}

theorem Store.mem_numbersOf {n : Int} :
    n ∈ s.numbersOf taskId ↔ ∃ a ∈ s.attempts, a.taskId = taskId ∧ a.number = n := by
  simp only [Store.numbersOf, List.mem_map, Table.mem_select, beq_iff_eq, and_assoc]

theorem Store.empty_numbered : Store.empty.Numbered where
  increasing _ := .nil
  bounded t ht := absurd ht (Table.not_mem_empty t)

/-! ## Operations that write no number -/

/-- The counters and the numbers are the same, and no attempt has been started. -/
structure Store.Counts (s s' : Store) : Prop where
  tasks : Table.Evolves (fun t t' => t'.attempts = t.attempts) (fun _ => True) s.tasks s'.tasks
  attempts : Table.Evolves (fun a a' => a'.state = .running → a.state = .running)
    (fun _ => False) s.attempts s'.attempts

theorem Store.Counts.of_same (htasks : s'.tasks = s.tasks) (hattempts : s'.attempts = s.attempts) :
    s.Counts s' := by
  constructor
  · rw [htasks]
    exact .refl fun _ _ => rfl
  · rw [hattempts]
    exact .refl fun _ _ h => h

instance : IsPreorder Store Store.Counts where
  refl _ := .of_same rfl rfl
  trans _ _ _ h h' :=
    ⟨h.tasks.trans h'.tasks (fun _ _ _ _ hsame hsame' => hsame'.trans hsame)
        (fun _ _ _ _ => trivial) fun _ _ => trivial,
      h.attempts.trans h'.attempts (fun _ _ _ _ hback hback' hrun => hback (hback' hrun))
        (fun _ _ hfalse _ => hfalse) fun _ hfalse => hfalse⟩

/-- The statements keep the numbering, when the rewriting of a task keeps its counter. -/
theorem allows_counts :
    Allows Store.Counts (fun _ _ => True) (fun f => ∀ t, (f t).attempts = t.attempts)
      (fun _ => True) where
  jobs p f keeps _ s r h := by
    rw [updateJobs_ok_iff.mp h]
    exact .of_same rfl rfl
  tasks p f keeps hf s r h := by
    rw [updateTasks_ok_iff.mp h]
    exact ⟨.update keeps (fun t _ _ => hf t) fun _ _ => rfl, .refl fun _ _ hrun => hrun⟩
  attempts p f keeps hrunning s r h := by
    rw [updateAttempts_ok_iff.mp h]
    exact ⟨.refl fun _ _ => rfl, .update keeps (fun a _ hp _ => hrunning a hp) fun _ _ hrun => hrun⟩
  dossiers p keeps s r h := by
    rw [updateDossiers_ok_iff.mp h]
    exact .of_same rfl rfl
  job row _ s r h := by
    obtain ⟨jobs, keeps, -, heq⟩ := Store.insertJob?_eq_some (writeOrRaise_ok_iff.mp h)
    rw [heq]
    exact .of_same rfl rfl
  task row _ s r h := by
    obtain ⟨hrow, honly⟩ := Store.insertTask?_eq_some (writeOrRaise_ok_iff.mp h)
    refine ⟨.insert hrow (fun _ _ => rfl) trivial, ?_⟩
    rw [honly.attempts]
    exact .refl fun _ _ hrun => hrun
  dossier row _ s r h := by
    have honly := (Store.upsertDossier?_eq_some (writeOrRaise_ok_iff.mp h)).2
    exact .of_same honly.tasks honly.attempts
  event jobId taskId kind payload now _ s r h := by
    obtain ⟨payload', -, hinsert⟩ := insertEvent_ok h
    have honly := (Store.insertEvent?_eq_some hinsert).2
    exact .of_same honly.tasks honly.attempts
  kept _ _ _ := trivial
  moved _ _ _ := rfl
  settled _ _ _ _ := rfl
  bare := trivial

/-- The two operations that write a number. -/
def Operation.writesNumber {F : Type} : Operation F → Bool
  | .call (.startAttempt _ _ _) => true
  | .call (.updateTask _ fields _) => fields.attempts.isSome
  | _ => false

/-- The columns of an update without number leave the counter. -/
theorem TaskFields.bindColumns_attempts {fields : TaskFields} {columns : TaskColumns}
    (h : fields.bindColumns = .ok columns) : columns.attempts = fields.attempts := by
  obtain ⟨attempts, hattempts, h⟩ := bind_ok_iff.mp h
  obtain ⟨_, -, h⟩ := bind_ok_iff.mp h
  obtain ⟨_, -, h⟩ := bind_ok_iff.mp h
  obtain ⟨_, -, h⟩ := bind_ok_iff.mp h
  obtain ⟨_, -, h⟩ := bind_ok_iff.mp h
  obtain ⟨_, -, h⟩ := bind_ok_iff.mp h
  obtain ⟨_, -, h⟩ := bind_ok_iff.mp h
  cases h
  show attempts = fields.attempts
  cases hfields : fields.attempts with
  | none =>
    rw [hfields] at hattempts
    cases hattempts
    rfl
  | some n =>
    rw [hfields] at hattempts
    obtain ⟨m, hm, h⟩ := bind_ok_iff.mp hattempts
    cases h
    rw [bindInt_eq hm]

/-- Any other operation keeps the numbering. -/
theorem Operation.run_counts {F : Type} [PyFloat F] {sha256 : Str → Str} {op : Operation F}
    (hop : op.writesNumber = false) : FollowsDb Store.Counts (op.run sha256) := by
  refine operation_follows allows_counts op (fun _ _ => trivial) (fun _ _ _ => trivial) ?_ ?_
    fun _ => trivial
  · rintro f ⟨taskId, fields, now, columns, target, rfl, hcolumns, rfl⟩ t
    have hnone : fields.attempts = none :=
      Option.not_isSome_iff_eq_none.mp (ne_true_of_eq_false hop)
    show columns.attempts.getD t.attempts = t.attempts
    rw [TaskFields.bindColumns_attempts hcolumns, hnone]
    rfl
  · rintro ⟨newId, now, args, rfl⟩
    cases hop

/-! ## One task -/

/-- The attempts of the task, and its counter, are the same but for the end of attempts. -/
structure Store.CountsFor (taskId : Text) (s s' : Store) : Prop where
  running : ∀ a' ∈ s'.attempts, a'.taskId = taskId → a'.state = .running →
    ∃ a ∈ s.attempts, a.id = a'.id ∧ a.taskId = taskId ∧ a.state = .running
  numbers : ∀ a' ∈ s'.attempts, a'.taskId = taskId →
    ∃ a ∈ s.attempts, a.taskId = taskId ∧ a.number = a'.number
  counter : ∀ number, s.Counter taskId number → s'.Counter taskId number

theorem Store.Counts.countsFor (h : s.Counts s') (taskId : Text) : s.CountsFor taskId s' where
  running a' ha' htask hrun := by
    rcases h.attempts.backward ha' with ⟨a, ha, hkey, hback⟩ | hfalse
    · have htask' : a'.taskId = a.taskId := congrArg (fun k => k.2.2.1) hkey
      have hid : a'.id = a.id := congrArg Prod.fst hkey
      exact ⟨a, ha, hid.symm, htask'.symm.trans htask, hback hrun⟩
    · exact hfalse.elim
  numbers a' ha' htask := by
    rcases h.attempts.backward ha' with ⟨a, ha, hkey, -⟩ | hfalse
    · have htask' : a'.taskId = a.taskId := congrArg (fun k => k.2.2.1) hkey
      have hnumber : a'.number = a.number := congrArg (fun k => k.2.2.2) hkey
      exact ⟨a, ha, htask'.symm.trans htask, hnumber.symm⟩
    · exact hfalse.elim
  counter number := by
    rintro ⟨t, ht, hid, hcount⟩
    obtain ⟨t', ht', hkey, hsame⟩ := h.tasks.forward ht
    have hid' : t'.id = t.id := congrArg Prod.fst hkey
    exact ⟨t', ht', hid'.trans hid, hsame.trans hcount⟩

theorem Store.CountsFor.idle (h : s.CountsFor taskId s') (hidle : s.Idle taskId) :
    s'.Idle taskId := by
  intro a' ha' htask hrun
  obtain ⟨a, ha, -, htask', hrun'⟩ := h.running a' ha' htask hrun
  exact hidle a ha htask' hrun'

/-- Two rows of a task are the same row. -/
theorem Store.eq_of_taskId {t t' : TaskRow} (ht : t ∈ s.tasks) (ht' : t' ∈ s.tasks)
    (h : t.id = t'.id) : t = t' := Table.eq_of_clash ht ht' (Or.inl h)

theorem Store.Counts.numbersOf_eq (h : s.Counts s') (taskId : Text) :
    s'.numbersOf taskId = s.numbersOf taskId := by
  have hkeys : ∀ u : Store, u.numbersOf taskId =
      ((u.attempts.rows.map Row.key).filter fun k => k.2.2.1 == taskId).map (fun k => k.2.2.2) := by
    intro u
    rw [List.filter_map, List.map_map]
    rfl
  rw [hkeys, hkeys, h.attempts.map_key]

theorem Store.Numbered.counts (hs : s.Numbered) (h : s.Counts s') : s'.Numbered where
  increasing taskId := by
    rw [h.numbersOf_eq]
    exact hs.increasing taskId
  bounded t' ht' a' ha' htask := by
    -- the attempt is of a task that has been there
    obtain ⟨a, ha, htask', hnumber⟩ := (h.countsFor t'.id).numbers a' ha' htask
    obtain ⟨t, ht, hid, -⟩ := s.attemptTask a ha
    obtain ⟨t'', ht'', hkey, hsame⟩ := h.tasks.forward ht
    have hid' : t''.id = t.id := congrArg Prod.fst hkey
    have heq : t'' = t' := Store.eq_of_taskId ht'' ht' (hid'.trans (hid.trans htask'))
    rw [← hnumber, ← heq, hsame]
    exact hs.bounded t ht a ha hid.symm

/-! ## The two operations that write numbers -/

/-- The number goes to the task; attempts are as they were. -/
theorem updateTask_counts {id : Text} {fields : TaskFields} {now : Timestamp}
    (h : updateTask id.val fields now s = .ok () s') (hfields : fields.attempts = some number) :
    s'.attempts = s.attempts ∧ s'.Counter id number ∧
      Table.Evolves (fun t t' => t'.attempts = t.attempts ∨ t'.id = id ∧ t'.attempts = number)
        (fun _ => False) s.tasks s'.tasks := by
  rcases updateTask_cases h with ⟨hempty, -⟩ |
    ⟨id', task, job, columns, target, t, hid, htask, -, -, -, -, hactive, -, hcolumns, rfl, -⟩
  · have hnone : fields = {} := eq_of_beq hempty
    rw [hnone] at hfields
    cases hfields
  · obtain rfl : id' = id := Text.ext hid
    obtain ⟨hmem, htaskId⟩ := Store.mem_of_task? htask
    have htasks : t.tasks = s.tasks := by
      rcases hactive with rfl | ⟨-, -, rfl⟩
      · rfl
      · rfl
    have hattempts : t.attempts = s.attempts := by
      rcases hactive with rfl | ⟨-, -, rfl⟩
      · rfl
      · rfl
    have hwrite : ∀ u, (columns.write target now u).attempts = number := by
      intro u
      show columns.attempts.getD u.attempts = number
      rw [TaskFields.bindColumns_attempts hcolumns, hfields]
      rfl
    refine ⟨hattempts, ⟨columns.write target now task, ?_, htaskId, hwrite task⟩, ?_⟩
    · refine Table.mem_update_of_pos (columns.write_key target now) ?_ ?_
      · rw [htasks]
        exact hmem
      · rw [Bool.and_eq_true, beq_iff_eq, beq_iff_eq]
        exact ⟨htaskId, rfl⟩
    · rw [← htasks]
      refine Table.Evolves.update (columns.write_key target now) (fun u _ hp => ?_)
        fun _ _ => Or.inl rfl
      rw [Bool.and_eq_true, beq_iff_eq] at hp
      exact Or.inr ⟨hp.1, hwrite u⟩

/-- Nothing changes for another task. -/
theorem updateTask_countsFor {id : Text} {fields : TaskFields} {now : Timestamp}
    (h : updateTask id.val fields now s = .ok () s') (hfields : fields.attempts = some number)
    (hother : taskId ≠ id) : s.CountsFor taskId s' := by
  obtain ⟨hattempts, -, hrows⟩ := updateTask_counts h hfields
  constructor
  · rw [hattempts]
    exact fun a ha htask hrun => ⟨a, ha, rfl, htask, hrun⟩
  · rw [hattempts]
    exact fun a ha htask => ⟨a, ha, htask, rfl⟩
  · rintro count ⟨t, ht, hid, hcount⟩
    obtain ⟨t', ht', hkey, hsame⟩ := hrows.forward ht
    have hid' : t'.id = t.id := congrArg Prod.fst hkey
    refine ⟨t', ht', hid'.trans hid, ?_⟩
    rcases hsame with hsame | ⟨hown, -⟩
    · exact hsame.trans hcount
    · exact absurd (hid.symm.trans (hid'.symm.trans hown)) hother

/-- The numbering goes on, if the number is not below the counter. -/
theorem Store.Numbered.marked (hs : s.Numbered) {id : Text} {fields : TaskFields}
    {now : Timestamp} (h : updateTask id.val fields now s = .ok () s')
    (hfields : fields.attempts = some number) {before : Int} (hcounter : s.Counter id before)
    (hle : before ≤ number) : s'.Numbered := by
  obtain ⟨hattempts, -, hrows⟩ := updateTask_counts h hfields
  constructor
  · intro taskId
    unfold Store.numbersOf
    rw [hattempts]
    exact hs.increasing taskId
  · intro t' ht' a ha htask
    rw [hattempts] at ha
    rcases hrows.backward ht' with ⟨t, ht, hkey, hsame | ⟨hid', hnumber⟩⟩ | hfalse
    · have hid : t'.id = t.id := congrArg Prod.fst hkey
      rw [hsame]
      exact hs.bounded t ht a ha (htask.trans hid)
    · obtain ⟨t₀, ht₀, hid₀, hbefore⟩ := hcounter
      have hbound := hs.bounded t₀ ht₀ a ha (htask.trans (hid'.trans hid₀.symm))
      omega
    · exact hfalse.elim

/-- A row of the attempt is added. -/
theorem startAttempt_counts {newId r : Text} {now : Timestamp} {args : NewAttempt}
    (h : startAttempt newId now args s = .ok r s') (hargs : args.taskId = taskId.val) :
    s'.tasks = s.tasks ∧ ∃ attempt : AttemptRow, attempt.id = r ∧ attempt.taskId = taskId ∧
      attempt.number = args.number ∧ s'.attempts.rows = s.attempts.rows ++ [attempt] := by
  obtain ⟨task, job, attempt, -, -, hid, -, -, -, -, -, -, hnew, -, htask, hnumber, -, -, hinsert,
    -⟩ := startAttempt_cases h
  obtain ⟨hrow, honly⟩ := Store.insertAttempt?_eq_some hinsert
  refine ⟨honly.tasks, attempt, hnew.trans (startAttempt_reply h).symm, ?_, hnumber,
    (Table.insert?_eq_some.mp hrow).2⟩
  rw [htask]
  exact Text.ext (hid.trans hargs)

theorem startAttempt_countsFor {newId r id : Text} {now : Timestamp} {args : NewAttempt}
    (h : startAttempt newId now args s = .ok r s') (hargs : args.taskId = id.val)
    (hother : taskId ≠ id) : s.CountsFor taskId s' := by
  obtain ⟨htasks, attempt, -, hown, -, hrows⟩ := startAttempt_counts h hargs
  have hold : ∀ a ∈ s'.attempts, a.taskId = taskId → a ∈ s.attempts := by
    intro a ha htask
    rw [← Table.mem_rows, hrows, List.mem_append, List.mem_singleton] at ha
    rcases ha with ha | rfl
    · exact ha
    · exact absurd (htask.symm.trans hown) hother
  refine ⟨fun a ha htask hrun => ⟨a, hold a ha htask, rfl, htask, hrun⟩,
    fun a ha htask => ⟨a, hold a ha htask, htask, rfl⟩, ?_⟩
  rintro number ⟨t, ht, hcounter⟩
  rw [← htasks] at ht
  exact ⟨t, ht, hcounter⟩

/-- The numbering goes on, if the number is above all others and stands in the counter. -/
theorem Store.Numbered.started (hs : s.Numbered) {newId r : Text} {now : Timestamp}
    {args : NewAttempt} (h : startAttempt newId now args s = .ok r s')
    (hargs : args.taskId = taskId.val)
    (habove : ∀ a ∈ s.attempts, a.taskId = taskId → a.number < args.number)
    (hcounter : s.Counter taskId args.number) : s'.Numbered := by
  obtain ⟨htasks, attempt, -, hown, hnumber, hrows⟩ := startAttempt_counts h hargs
  constructor
  · intro other
    have hnew : s'.numbersOf other = s.numbersOf other ++
        (([attempt].filter fun a => a.taskId == other).map AttemptRow.number) := by
      unfold Store.numbersOf Table.select
      rw [hrows, List.filter_append, List.map_append]
    rw [hnew]
    refine List.pairwise_append.mpr ⟨hs.increasing other, ?_, ?_⟩
    · refine List.Pairwise.map _ (fun _ _ hlt => hlt) (List.Pairwise.filter _ ?_)
      exact List.pairwise_singleton _ _
    · intro n hn n' hn'
      obtain ⟨a, ha, htask, rfl⟩ := Store.mem_numbersOf.mp hn
      simp only [List.mem_map, List.mem_filter, List.mem_singleton, beq_iff_eq] at hn'
      obtain ⟨a', ⟨rfl, hother⟩, rfl⟩ := hn'
      rw [hnumber]
      exact habove a ha (htask.trans (hother.symm.trans hown))
  · intro t ht a ha htask
    rw [htasks] at ht
    rw [← Table.mem_rows, hrows, List.mem_append, List.mem_singleton] at ha
    rcases ha with ha | rfl
    · exact hs.bounded t ht a ha htask
    · obtain ⟨t₀, ht₀, hid₀, hbefore⟩ := hcounter
      have hlast : a.number = t.attempts := by
        rw [Store.eq_of_taskId ht ht₀ (htask.symm.trans (hown.trans hid₀.symm)), hbefore, hnumber]
      exact Int.le_of_eq hlast

/-- An attempt that has been finished is not running. -/
theorem finishAttempt_closes {id : Text} {state summary : Str} {returncode : Option Int}
    {now : Timestamp} (h : finishAttempt id.val state returncode summary now s = .ok () s') :
    ∀ a ∈ s'.attempts, a.id = id → a.state ≠ .running := by
  obtain ⟨attempt, target, returncode', summary', hattempt, hid, -, hterminal, -, -, rfl, -⟩ :=
    finishAttempt_cases h
  intro a' ha' hid' hrun
  obtain ⟨a, ha, rfl⟩ := Store.mem_updateAttempts.mp ha'
  unfold Table.setWhere at hid' hrun
  split_ifs at hid' hrun with hp
  · exact hterminal hrun
  · -- the row that the update leaves is the one it writes
    have heq : a = attempt :=
      Table.eq_of_clash ha hattempt (Or.inl (hid'.trans (Text.ext hid.symm)))
    rw [heq, Bool.and_eq_true, beq_iff_eq, beq_iff_eq] at hp
    exact hp ⟨rfl, rfl⟩

/-! ## Tasks and completed jobs stay -/

/-- The task is one of the job. -/
def Store.Owns (s : Store) (jobId taskId : Text) : Prop :=
  ∃ t ∈ s.tasks, t.id = taskId ∧ t.jobId = jobId

/-- The job is completed. -/
def Store.Completed (s : Store) (jobId : Text) : Prop :=
  ∃ j ∈ s.jobs, j.id = jobId ∧ j.state = .completed

section Operations

variable {F : Type} [PyFloat F] {sha256 : Str → Str}

theorem Operation.run_owns {jobId : Text} (hs : s.Sound sha256) {op : Operation F}
    (h : op.run sha256 s = .ok () s') (howns : s.Owns jobId taskId) : s'.Owns jobId taskId := by
  obtain ⟨t, ht, hid, hjob⟩ := howns
  obtain ⟨published, hprogress, -⟩ := op.run_progress hs.valid h
  cases hprogress.tasks with
  | rewritten rows =>
    obtain ⟨t', ht', hkey, -⟩ := rows.forward ht
    have hid' : t'.id = t.id := congrArg Prod.fst hkey
    have hjob' : t'.jobId = t.jobId := congrArg (fun k => k.2.1) hkey
    exact ⟨t', ht', hid'.trans hid, hjob'.trans hjob⟩
  | planned owner added job rows =>
    refine ⟨t, ?_, hid, hjob⟩
    rw [← Table.mem_rows, rows]
    exact List.mem_append_left _ ht

theorem Operation.run_completed {jobId : Text} (hs : s.Sound sha256) {op : Operation F}
    (h : op.run sha256 s = .ok () s') (hdone : s.Completed jobId) : s'.Completed jobId := by
  obtain ⟨j, hj, hid, hstate⟩ := hdone
  obtain ⟨published, hprogress, -⟩ := op.run_progress hs.valid h
  obtain ⟨j', hj', hkey, -, hstep⟩ := hprogress.jobs.forward hj
  have hid' : j'.id = j.id := hkey
  have hphase := hstep.published_stays ((hs.valid j hj).published_iff.mpr hstate)
  exact ⟨j', hj', hid'.trans hid, ((Operation.run_sound hs h).valid j' hj').published_iff.mp hphase⟩

/-- A task that is pending has no running attempt. -/
theorem Store.Sound.idle (hs : s.Sound sha256) {task : TaskRow} (ht : task ∈ s.tasks)
    (hstate : task.state = .pending) : s.Idle task.id := by
  intro a ha htask hrun
  obtain ⟨t, ht', hid, hjob⟩ := s.attemptTask a ha
  obtain ⟨j, hj, hjid⟩ := s.taskJob t ht'
  have heq : t = task := Store.eq_of_taskId ht' ht (hid.trans htask)
  have hinflight := (hs.valid j hj).running_inflight a ha (hjob.symm.trans hjid.symm) hrun t ht' hid
    hjob
  rw [heq, hstate] at hinflight
  cases hinflight

/-- A job with a pending task is not completed. -/
theorem Store.Sound.open_of_pending (hs : s.Sound sha256) {task : TaskRow} (ht : task ∈ s.tasks)
    (hstate : task.state = .pending) : ¬ s.Completed task.jobId := by
  rintro ⟨j, hj, hid, hdone⟩
  have hcompleted := (hs.valid j hj).completed_tasks hdone task ht hid.symm
  rw [hstate] at hcompleted
  cases hcompleted

end Operations

end OmarchyYolo
