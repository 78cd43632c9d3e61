import OmarchyYolo.Scheduler
import OmarchyYolo.TaskExecution

/-!
# OmarchyYolo.TaskEvidence — what the calls of a task's coroutine vouch for

The coroutine of a task runs against the store of the daemon. Other coroutines,
requests and agents act between its calls, but leave the rows of its task and of
that task's attempts alone. The replies it has had so far are evidence for what it
may do next.

* `storeHandler` — the calls against the store;
* `Evidence`, `observe` — what the replies so far say;
* `Permitted` — what the coroutine may call on which evidence;
* `Tied` — the attempts of the evidence are those of the store.
-/

namespace OmarchyYolo

open Py PyJson Calls Sql Txn

/-! ## Calls against the store -/

/-- The rows of the task and of its attempts are the same. -/
structure Undisturbed (taskId : Text) (s s' : Store) : Prop where
  tasks : ∀ t : TaskRow, t.id = taskId → (t ∈ s'.tasks ↔ t ∈ s.tasks)
  attempts : ∀ a : AttemptRow, a.taskId = taskId → (a ∈ s'.attempts ↔ a ∈ s.attempts)

theorem Undisturbed.refl (taskId : Text) (s : Store) : Undisturbed taskId s s :=
  ⟨fun _ _ => Iff.rfl, fun _ _ => Iff.rfl⟩

/-- An operation of the database answers, or raises and changes nothing. -/
def Answers {α : Type} (operation : StoreDb α → Prop) (s : Store) (r : Except Raised α)
    (s' : Store) : Prop :=
  match r with
  | .ok a => ∃ x, operation x ∧ x s = .ok a s'
  | .error _ => s' = s

/-- An operation of the database, on a store; what it raises is not told apart. -/
def askStore {α : Type} (s : Store) (x : StoreDb α) : Except Raised α × Store :=
  match x s with
  | .ok a s' => (.ok a, s')
  | .error _ _ => (.error (.error []), s)

theorem askStore_answers {α : Type} (s : Store) (x : StoreDb α) {operation : StoreDb α → Prop}
    (h : operation x) : Answers operation s (askStore s x).1 (askStore s x).2 := by
  unfold askStore
  cases hrun : x s with
  | ok a s' => exact ⟨x, h, hrun⟩
  | error e s' => rfl

/-- The operation that a call of the database is, for some clock and fresh identifier. -/
def OperationOf : (e : Effect) → StoreDb e.Reply → Prop
  | .getJob jobId, x => x = OmarchyYolo.getJob jobId.val
  | .getTask taskId, x => x = OmarchyYolo.getTask taskId.val
  | .updateTask taskId fields, x => ∃ now, x = OmarchyYolo.updateTask taskId.val fields now
  | .startAttempt args, x => ∃ newId now, x = OmarchyYolo.startAttempt newId now args
  | .finishAttempt attemptId state returncode summary, x =>
    ∃ now, x = OmarchyYolo.finishAttempt attemptId.val state returncode summary now
  | .event jobId kind payload taskId, x =>
    ∃ now, x = dropReply (OmarchyYolo.event jobId.val kind payload (taskId.map Text.val) now)
  | _, _ => False

/-- Whether the call is an operation of the database. -/
def Effect.isOperation : Effect → Bool
  | .getJob _ | .getTask _ | .updateTask _ _ | .startAttempt _ | .finishAttempt _ _ _ _
  | .event _ _ _ _ => true
  | _ => false

/-- A call of a coroutine of the task: the database does what it is asked, and
anything else may be answered by anything, while others act. -/
def storeHandler (taskId : Text) : Handler Effect Effect.Reply Raised Store := fun e s r s' =>
  if e.isOperation then Answers (OperationOf e) s r s' else Undisturbed taskId s s'

/-! ## Evidence -/

/-- What the replies that a coroutine has had say. -/
structure Evidence where
  /-- The attempts started so far, the latest first, each with its terminal records. -/
  attempts : List (Text × List Str) := []
  /-- Of the latest attempt: the worker's result was ok, -/
  worker : Bool := false
  /-- its gates were all ok, -/
  gates : Bool := false
  /-- and the last review passed. -/
  review : Bool := false
  /-- The task was set to integrating. -/
  integrating : Bool := false
  /-- The merge has succeeded. -/
  merged : Bool := false
  /-- No file was unresolved when last asked, after the merge and the last agent. -/
  resolved : Bool := false
  /-- Since then a commit has succeeded, or the worktree was clean. -/
  finished : Bool := false
  /-- The last gates on the candidate, after the last repair, were all ok. -/
  postGates : Bool := false
deriving DecidableEq, Repr

/-- A terminal record of an attempt. -/
def addRecord (attemptId : Text) (state : Str) : List (Text × List Str) → List (Text × List Str)
  | [] => []
  | (id, records) :: attempts =>
    if id = attemptId then (id, records ++ [state]) :: attempts
    else (id, records) :: addRecord attemptId state attempts

/-- Whether the fields set the state. -/
def TaskFields.sets (fields : TaskFields) (state : TaskState) : Prop :=
  fields.state = some (lit state.value)

instance (fields : TaskFields) (state : TaskState) : Decidable (fields.sets state) :=
  inferInstanceAs (Decidable (_ = _))

namespace Evidence

/-- What an agent's result says: a worker's counts for the attempt, and an integrator
puts in question what was established before it. -/
def agentResult (ev : Evidence) (ok : Bool) : Prompt → Evidence
  | .work _ _ _ => { ev with worker := ok }
  | .resolve _ _ _ _ => { ev with resolved := false, finished := false }
  | .repair _ _ => { ev with postGates := false }

/-- What the gates say, of the task's worktree or of the candidate. -/
def gateResults (ev : Evidence) (ok : Bool) : Evidence :=
  if ev.integrating then { ev with postGates := ok } else { ev with gates := ok }

/-- What the start of a merge leaves, with its result. -/
def mergeResult (ev : Evidence) (ok : Bool) : Evidence :=
  { ev with merged := ok, resolved := false, finished := false, postGates := false }

/-- What a command of Git says. -/
def gitReply (ev : Evidence) :
    (command : GitCommand) → Except Raised command.Reply → Evidence
  | .merge _, .ok stderr => ev.mergeResult (Option.isNone stderr)
  | .merge _, .error _ => ev.mergeResult false
  | .unresolved, .ok files => { ev with resolved := List.isEmpty (files : List Str) }
  | .unresolved, .error _ => { ev with resolved := false }
  | .commit _, .ok _ => { ev with finished := true }
  | .isClean, .ok clean => { ev with finished := ev.finished || (clean : Bool) }
  | _, _ => ev

end Evidence

/-- The evidence after a reply. -/
def observe (ev : Evidence) : (e : Effect) → Except Raised e.Reply → Evidence
  | .startAttempt _, .ok attemptId => { attempts := (attemptId, []) :: ev.attempts }
  | .finishAttempt attemptId state _ _, .ok _ =>
    { ev with attempts := addRecord attemptId state ev.attempts }
  | .updateTask _ fields, .ok _ =>
    if fields.sets .integrating then { ev with integrating := true } else ev
  | .runAgent _ prompt _ _, .ok result => ev.agentResult (AgentResult.ok result) prompt
  | .runAgent _ prompt _ _, .error _ => ev.agentResult false prompt
  | .runGates _ _ _, .ok results => ev.gateResults (allOk results)
  | .runGates _ _ _, .error _ => ev.gateResults false
  | .reviewTask _ _ _ _ _ _ _, .ok review => { ev with review := ReviewResult.passed review }
  | .reviewTask _ _ _ _ _ _ _, .error _ => { ev with review := false }
  | .git _ command, r => ev.gitReply command r
  | _, _ => ev

/-- The evidence of a run. -/
def evidence (calls : List (Reply Effect Effect.Reply Raised)) : Evidence :=
  calls.foldl (fun ev call => observe ev call.1 call.2) {}

@[simp] theorem evidence_append (calls : List (Reply Effect Effect.Reply Raised)) (e : Effect)
    (r : Except Raised e.Reply) :
    evidence (calls ++ [⟨e, r⟩]) = observe (evidence calls) e r := by
  simp only [evidence, List.foldl_append, List.foldl_cons, List.foldl_nil]

namespace Evidence

/-- The attempts were recorded as failed, once each. -/
def Failed (attempts : List (Text × List Str)) : Prop := ∀ a ∈ attempts, a.2 = [lit "failed"]

/-- The latest attempt has these records, and every other one has failed. -/
def Latest (records : List Str) (ev : Evidence) : Prop :=
  ∃ attemptId attempts, ev.attempts = (attemptId, records) :: attempts ∧ Failed attempts

/-- The worker, the gates and the reviewer have approved the latest attempt. -/
structure Approved (ev : Evidence) : Prop where
  worker : ev.worker = true
  gates : ev.gates = true
  review : ev.review = true

/-- The merge has succeeded, or its conflict was resolved. -/
def Integrated (ev : Evidence) : Prop :=
  ev.merged = true ∨ (ev.resolved = true ∧ ev.finished = true)

end Evidence

/-- What the coroutine of a task may call on the evidence that it has. -/
def Permitted (taskId : Text) (ev : Evidence) : Effect → Prop
  | .startAttempt args => args.taskId = taskId.val ∧ Evidence.Failed ev.attempts
  | .updateTask id fields => id = taskId ∧
      (fields.sets .integrating → ev.Approved ∧ ev.Latest []) ∧
      (fields.sets .completed → ev.Approved ∧ ev.Integrated ∧ ev.postGates = true ∧
        ev.Latest [lit "passed"])
  | _ => True

/-! ## Evidence and store -/

/-- A terminal record is the state of the row; an attempt without is running. -/
def Recorded (row : AttemptRow) : List Str → Prop
  | [] => row.state = .running
  | [record] => AttemptState.ofValue? record = some row.state ∧ row.state ≠ .running
  | _ => False

/-- The attempts of the evidence are attempts of the task, with their records. -/
structure Tied (taskId : Text) (s : Store) (ev : Evidence) : Prop where
  distinct : (ev.attempts.map Prod.fst).Nodup
  recorded : ∀ a ∈ ev.attempts, ∃ row ∈ s.attempts, row.id = a.1 ∧ row.taskId = taskId ∧
    Recorded row a.2

section Tied

variable {taskId : Text} {s s' : Store} {ev : Evidence}

theorem storeHandler_operation {e : Effect} {reply : e.Reply} (he : e.isOperation = true)
    (h : storeHandler taskId e s (.ok reply) s') : ∃ x, OperationOf e x ∧ x s = .ok reply s' := by
  rw [storeHandler, if_pos he] at h
  exact h

theorem storeHandler_error {e : Effect} {x : Raised} (he : e.isOperation = true)
    (h : storeHandler taskId e s (.error x) s') : s' = s := by
  rw [storeHandler, if_pos he] at h
  exact h

theorem storeHandler_elsewhere {e : Effect} {r : Except Raised e.Reply}
    (he : e.isOperation = false) (h : storeHandler taskId e s r s') : Undisturbed taskId s s' := by
  rw [storeHandler, if_neg (by simp [he])] at h
  exact h

theorem storeHandler_startAttempt {args : NewAttempt} {attemptId : Text}
    (h : storeHandler taskId (.startAttempt args) s (.ok attemptId) s') :
    ∃ now, OmarchyYolo.startAttempt attemptId now args s = .ok attemptId s' := by
  obtain ⟨_, ⟨newId, now, rfl⟩, hstart⟩ := storeHandler_operation rfl h
  obtain rfl := startAttempt_reply hstart
  exact ⟨now, hstart⟩

/-- No other call changes a terminal record, or starts an attempt. -/
theorem storeHandler_attempts {e : Effect} {r : Except Raised e.Reply}
    (hstart : ∀ args, e ≠ .startAttempt args)
    (hfinish : ∀ attemptId state returncode summary,
      e ≠ .finishAttempt attemptId state returncode summary)
    (h : storeHandler taskId e s r s') {a : AttemptRow} (ha : a ∈ s.attempts)
    (hown : a.taskId = taskId) : a ∈ s'.attempts := by
  by_cases he : e.isOperation = true
  · cases r with
    | error x => rwa [storeHandler_error he h]
    | ok reply =>
      obtain ⟨x, hx, hok⟩ := storeHandler_operation he h
      cases e with
      | getJob jobId =>
        cases hx
        rwa [(getJob_cases hok).1]
      | getTask id =>
        cases hx
        rwa [(getTask_cases hok).1]
      | updateTask id fields =>
        obtain ⟨now, rfl⟩ := hx
        rcases updateTask_cases hok with ⟨-, rfl⟩ |
          ⟨_, _, _, _, _, t, _, _, _, _, _, _, hactivated, _, _, rfl, _⟩
        · exact ha
        · rwa [← hactivated.attempts] at ha
      | startAttempt args => exact absurd rfl (hstart args)
      | finishAttempt attemptId state returncode summary =>
        exact absurd rfl (hfinish attemptId state returncode summary)
      | event jobId kind payload id =>
        obtain ⟨now, rfl⟩ := hx
        obtain ⟨reply, hevent⟩ := dropReply_ok_iff.mp hok
        rwa [(event_onlyEvents hevent).attempts]
      | _ => cases he
  · exact ((storeHandler_elsewhere (by simpa using he) h).attempts a hown).mpr ha

/-- Only the start and the end of an attempt change the attempts of the evidence. -/
theorem observe_attempts {e : Effect} {r : Except Raised e.Reply}
    (hstart : ∀ args, e ≠ .startAttempt args)
    (hfinish : ∀ attemptId state returncode summary,
      e ≠ .finishAttempt attemptId state returncode summary) :
    (observe ev e r).attempts = ev.attempts := by
  cases e with
  | startAttempt args => exact absurd rfl (hstart args)
  | finishAttempt attemptId state returncode summary =>
    exact absurd rfl (hfinish attemptId state returncode summary)
  | updateTask id fields =>
    cases r with
    | error x => rfl
    | ok reply =>
      simp only [observe]
      split_ifs <;> rfl
  | runAgent name prompt cwd logPath =>
    cases r <;> cases prompt <;> rfl
  | runGates final cwd logPath =>
    cases r <;> · simp only [observe, Evidence.gateResults]; split_ifs <;> rfl
  | reviewTask name goal task diff gates cwd logPath => cases r <;> rfl
  | git cwd command => cases command <;> cases r <;> rfl
  | _ => cases r <;> rfl

theorem mem_addRecord {attemptId : Text} {state : Str} {attempts : List (Text × List Str)}
    (hdistinct : (attempts.map Prod.fst).Nodup) {a : Text × List Str}
    (ha : a ∈ addRecord attemptId state attempts) :
    (a.1 ≠ attemptId ∧ a ∈ attempts) ∨
      ∃ records, (attemptId, records) ∈ attempts ∧ a = (attemptId, records ++ [state]) := by
  induction attempts with
  | nil => cases ha
  | cons head attempts ih =>
    obtain ⟨id, records⟩ := head
    obtain ⟨hnotin, hdistinct⟩ := List.nodup_cons.mp hdistinct
    simp only [addRecord] at ha
    split_ifs at ha with hid
    · subst hid
      rcases List.mem_cons.mp ha with rfl | hmem
      · exact Or.inr ⟨records, List.mem_cons_self, rfl⟩
      · -- the identifier occurs once
        refine Or.inl ⟨?_, List.mem_cons_of_mem _ hmem⟩
        intro hid
        exact hnotin (List.mem_map.mpr ⟨a, hmem, hid⟩)
    · rcases List.mem_cons.mp ha with rfl | hmem
      · exact Or.inl ⟨hid, List.mem_cons_self⟩
      · rcases ih hdistinct hmem with ⟨hne, hmem⟩ | ⟨records', hmem, heq⟩
        · exact Or.inl ⟨hne, List.mem_cons_of_mem _ hmem⟩
        · exact Or.inr ⟨records', List.mem_cons_of_mem _ hmem, heq⟩

theorem addRecord_ids (attemptId : Text) (state : Str) (attempts : List (Text × List Str)) :
    (addRecord attemptId state attempts).map Prod.fst = attempts.map Prod.fst := by
  induction attempts with
  | nil => rfl
  | cons head attempts ih =>
    simp only [addRecord]
    split_ifs
    · rfl
    · rw [List.map_cons, List.map_cons, ih]

theorem Tied.startAttempt (h : Tied taskId s ev) {args : NewAttempt} {attemptId : Text}
    (hargs : args.taskId = taskId.val)
    (hstep : storeHandler taskId (.startAttempt args) s (.ok attemptId) s') :
    Tied taskId s' { attempts := (attemptId, []) :: ev.attempts } := by
  obtain ⟨now, hstart⟩ := storeHandler_startAttempt hstep
  obtain ⟨task, job, attempt, -, -, htask, -, -, -, -, -, -, hid, -, hown, -, hstate, -, hins, -⟩ :=
    startAttempt_cases hstart
  obtain ⟨hrow, -⟩ := Store.insertAttempt?_eq_some hins
  have hfresh := (Table.insert?_eq_some.mp hrow).1
  constructor
  · -- the new row does not clash with those of the earlier attempts
    refine List.nodup_cons.mpr ⟨?_, h.distinct⟩
    intro hmem
    obtain ⟨a, ha, heq⟩ := List.mem_map.mp hmem
    obtain ⟨row, hrow, hrowid, -⟩ := h.recorded a ha
    exact hfresh row hrow (Or.inl (hrowid.trans (heq.trans hid.symm)))
  · intro a ha
    rcases List.mem_cons.mp ha with rfl | ha
    · exact ⟨attempt, (Table.mem_insert? hrow).mpr (Or.inr rfl), hid,
        hown.trans (Text.ext (htask.trans hargs)), hstate⟩
    · obtain ⟨row, hmem, hrest⟩ := h.recorded a ha
      exact ⟨row, (Table.mem_insert? hrow).mpr (Or.inl hmem), hrest⟩

theorem Tied.finishAttempt (h : Tied taskId s ev) {attemptId : Text} {state : Str}
    {returncode : Option Int} {summary : Str} {u : Unit}
    (hstep : storeHandler taskId (.finishAttempt attemptId state returncode summary) s (.ok u) s') :
    Tied taskId s' { ev with attempts := addRecord attemptId state ev.attempts } := by
  obtain ⟨_, ⟨now, rfl⟩, hfinish⟩ := storeHandler_operation rfl hstep
  obtain ⟨attempt, target, returncode', summary', hattempt, hid, hrun, htarget, -, hstate, rfl,
    -⟩ :=
    finishAttempt_cases hfinish
  obtain rfl := Text.ext hid
  constructor
  · show ((addRecord attempt.id state ev.attempts).map Prod.fst).Nodup
    rw [addRecord_ids]
    exact h.distinct
  · intro a ha
    rcases mem_addRecord h.distinct ha with ⟨hne, ha⟩ | ⟨records, hmem, rfl⟩
    · -- the row of another attempt stays
      obtain ⟨row, hrow, hrowid, hrest⟩ := h.recorded a ha
      refine ⟨row, Store.mem_updateAttempts.mpr ⟨row, hrow, (Table.setWhere_neg ?_).symm⟩, hrowid,
        hrest⟩
      intro hp
      simp only [Bool.and_eq_true, beq_iff_eq] at hp
      exact hne (hrowid.symm.trans hp.1)
    · -- the attempt was running, so that this is its first record
      obtain ⟨row, hrow, hrowid, hown, hrecorded⟩ := h.recorded _ hmem
      obtain rfl : row = attempt := Table.eq_of_clash hrow hattempt (Or.inl hrowid)
      have hnone : records = [] := by
        match records, hrecorded with
        | [], _ => rfl
        | [_], ⟨_, hterminal⟩ => exact absurd hrun hterminal
      subst hnone
      refine ⟨_, Store.mem_updateAttempts.mpr ⟨row, hrow, (Table.setWhere_pos ?_).symm⟩, rfl, hown,
        hstate,
        htarget⟩
      simp only [beq_self_eq_true, Bool.and_self]

/-- Every permitted call keeps the tie. -/
theorem Tied.step (h : Tied taskId s ev) {e : Effect} {r : Except Raised e.Reply}
    (hpermitted : Permitted taskId ev e) (hstep : storeHandler taskId e s r s') :
    Tied taskId s' (observe ev e r) := by
  by_cases hstart : ∃ args, e = .startAttempt args
  · obtain ⟨args, rfl⟩ := hstart
    cases r with
    | ok attemptId => exact h.startAttempt hpermitted.1 hstep
    | error x =>
      rw [storeHandler_error rfl hstep]
      exact h
  by_cases hfinish : ∃ attemptId state returncode summary,
      e = .finishAttempt attemptId state returncode summary
  · obtain ⟨attemptId, state, returncode, summary, rfl⟩ := hfinish
    cases r with
    | ok u => exact h.finishAttempt hstep
    | error x =>
      rw [storeHandler_error rfl hstep]
      exact h
  · simp only [not_exists] at hstart hfinish
    have hattempts : (observe ev e r).attempts = ev.attempts := observe_attempts hstart hfinish
    constructor
    · rw [hattempts]
      exact h.distinct
    · rw [hattempts]
      intro a ha
      obtain ⟨row, hrow, hid, hown, hrecorded⟩ := h.recorded a ha
      exact ⟨row, storeHandler_attempts hstart hfinish hstep hrow hown, hid, hown, hrecorded⟩

end Tied

end OmarchyYolo
