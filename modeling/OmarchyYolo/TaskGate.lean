import OmarchyYolo.QuietCalls
import OmarchyYolo.TaskEvidence

/-!
# OmarchyYolo.TaskGate — what is accepted has passed every stage

The coroutine of a task makes no call without the evidence for it, and ends with
the task completed or, after every attempt has failed, with the task failed.

* `Gated` — a program that calls only what it may, and what it ends with;
* `Later` — what quiet calls leave of the evidence;
* `integrateTask_gated`, `attemptTask_gated` — a stage, from what the stages before
  it have established;
* `task_acceptance_gate` — every run of the coroutine.
-/

namespace OmarchyYolo

open Py PyJson Calls Sql Txn

/-- The store, and the calls so far. -/
abbrev GateWorld := Store × List (Reply Effect Effect.Reply Raised)

/-- Every call of the program is permitted on the evidence there is, and what it returns
is as stated. -/
abbrev Gated {α : Type} (taskId : Text) (p : Coroutine α) (Post : α → GateWorld → Prop)
    (w : GateWorld) : Prop :=
  Ensures (storeHandler taskId).traced (fun e w => Permitted taskId (evidence w.2) e) p
    (Returned Post) w

/-! ## Quiet calls -/

/-- The evidence is the same, but that a commit may have succeeded meanwhile. -/
structure Evidence.Same (ev ev' : Evidence) : Prop where
  eq : ev' = { ev with finished := ev'.finished }
  finished : ev.finished = true → ev'.finished = true

theorem Evidence.Same.refl (ev : Evidence) : ev.Same ev := ⟨rfl, fun h => h⟩

theorem Evidence.Same.trans {ev ev' ev'' : Evidence} (h : ev.Same ev') (h' : ev'.Same ev'') :
    ev.Same ev'' := by
  refine ⟨?_, fun hf => h'.finished (h.finished hf)⟩
  have heq := h'.eq
  rw [h.eq] at heq
  exact heq

/-- The task is in the state. -/
def InState (s : Store) (taskId : Text) (state : TaskState) : Prop :=
  ∃ t ∈ s.tasks, t.id = taskId ∧ t.state = state

/-- A world after quiet calls. -/
structure Later (taskId : Text) (w w' : GateWorld) : Prop where
  same : (evidence w.2).Same (evidence w'.2)
  state : ∀ state, InState w.1 taskId state → InState w'.1 taskId state

theorem Later.refl (taskId : Text) (w : GateWorld) : Later taskId w w := ⟨.refl _, fun _ h => h⟩

theorem Later.trans {taskId : Text} {w w' w'' : GateWorld} (h : Later taskId w w')
    (h' : Later taskId w' w'') : Later taskId w w'' :=
  ⟨h.same.trans h'.same, fun state hstate => h'.state state (h.state state hstate)⟩

section Gated

variable {taskId jobId : Text} {α β : Type} {w w' : GateWorld} {cfg : EngineConfig} {cwd : Str}

theorem traced_evidence {e : Effect} {r : Except Raised e.Reply}
    (h : (storeHandler taskId).traced e w r w') : evidence w'.2 = observe (evidence w.2) e r := by
  rw [h.2, evidence_append]

theorem observe_setup {ev : Evidence} {e : Effect} {r : Except Raised e.Reply}
    (h : Setup taskId e) : ev.Same (observe ev e r) := by
  rcases h with h | ⟨fields, rfl, hfields⟩
  · cases e with
    | git cwd command =>
      cases command with
      | commit message => cases r <;> exact ⟨rfl, fun h => by first | exact h | rfl⟩
      | isClean =>
        cases r with
        | error x => exact .refl ev
        | ok clean =>
          refine ⟨rfl, fun h => ?_⟩
          show (ev.finished || (clean : Bool)) = true
          rw [h]
          exact Bool.true_or clean
      | merge branch => exact h.elim
      | unresolved => exact h.elim
      | _ => cases r <;> exact .refl ev
    | _ => first | exact h.elim | (cases r <;> exact .refl ev)
  · have hsets : ¬ fields.sets .integrating := by
      rw [TaskFields.sets, hfields]
      exact Option.some_ne_none _ ∘ Eq.symm
    cases r with
    | error x => exact .refl ev
    | ok u =>
      simp only [observe, if_neg hsets]
      exact .refl ev

theorem setup_permitted {ev : Evidence} {e : Effect} (h : Setup taskId e) :
    Permitted taskId ev e := by
  rcases h with h | ⟨fields, rfl, hfields⟩
  · cases e <;> first | exact h.elim | trivial
  · refine ⟨rfl, ?_, ?_⟩
    · intro hsets
      rw [TaskFields.sets, hfields] at hsets
      cases hsets
    · intro hsets
      rw [TaskFields.sets, hfields] at hsets
      cases hsets

theorem InState.of_tasks {s s' : Store} {state : TaskState} (h : InState s taskId state)
    (htasks : ∀ t ∈ s.tasks, t.id = taskId → t ∈ s'.tasks) : InState s' taskId state := by
  rcases h with ⟨t, ht, hid, hstate⟩
  exact ⟨t, htasks t ht hid, hid, hstate⟩

theorem ofValue?_value (state : TaskState) : TaskState.ofValue? (lit state.value) = some state := by
  cases state <;> decide

/-- What a successful update of the task leaves: the state that it sets, if it sets one. -/
theorem updateTask_inState {s s' : Store} {fields : TaskFields} {now : Timestamp}
    (h : updateTask taskId.val fields now s = .ok () s') :
    (fields.state = none → ∀ state, InState s taskId state → InState s' taskId state) ∧
    (∀ state : TaskState, fields.sets state → InState s' taskId state) := by
  rcases updateTask_cases h with ⟨hempty, rfl⟩ |
    ⟨id, task, job, columns, target, t, hid, htask, -, htarget, -, -, hactivated, -, -, rfl, -⟩
  · refine ⟨fun _ _ hstate => hstate, fun state hsets => ?_⟩
    -- fields that set a state are not empty
    rw [TaskFields.isEmpty, beq_iff_eq] at hempty
    rw [TaskFields.sets, hempty] at hsets
    cases hsets
  · obtain rfl := Text.ext hid
    obtain ⟨hmem, rfl⟩ := Store.mem_of_task? htask
    rw [← hactivated.tasks] at hmem
    have hwritten : InState (t.updateTasks (fun u => u.id == task.id && u.state == task.state)
        (columns.write target now) (columns.write_key target now)) task.id target :=
      ⟨_, Table.mem_update_of_pos (columns.write_key target now) hmem (by simp), rfl, rfl⟩
    constructor
    · rintro hnone state ⟨u, hu, hid, rfl⟩
      rw [hnone] at htarget
      obtain rfl := targetState_none htarget
      rw [← hactivated.tasks] at hu
      obtain rfl : u = task := Table.eq_of_clash hu hmem (Or.inl hid)
      exact hwritten
    · intro state hsets
      rw [hsets] at htarget
      have hvalue := targetState_some htarget
      rw [ofValue?_value] at hvalue
      cases hvalue
      exact hwritten

theorem setup_later {e : Effect} {r : Except Raised e.Reply} (h : Setup taskId e)
    (hstep : (storeHandler taskId).traced e w r w') : Later taskId w w' := by
  refine ⟨?_, fun state hstate => ?_⟩
  · rw [traced_evidence hstep]
    exact observe_setup h
  have hstore := hstep.1
  by_cases he : e.isOperation = true
  · cases r with
    | error x => rwa [storeHandler_error he hstore]
    | ok reply =>
      obtain ⟨x, hx, hok⟩ := storeHandler_operation he hstore
      rcases h with h | ⟨fields, rfl, hfields⟩
      · cases e with
        | getJob id =>
          cases hx
          rwa [(getJob_cases hok).1]
        | getTask id =>
          cases hx
          rwa [(getTask_cases hok).1]
        | event id kind payload task =>
          obtain ⟨now, rfl⟩ := hx
          obtain ⟨reply, hevent⟩ := dropReply_ok_iff.mp hok
          refine hstate.of_tasks fun t ht _ => ?_
          rwa [(event_onlyEvents hevent).tasks]
        | _ => first | exact h.elim | cases he
      · obtain ⟨now, rfl⟩ := hx
        exact (updateTask_inState hok).1 hfields state hstate
  · have hkept := storeHandler_elsewhere (by simpa using he) hstore
    exact hstate.of_tasks fun t ht hid => (hkept.tasks t hid).mpr ht

theorem quiet_later {e : Effect} {r : Except Raised e.Reply}
    (hstep : (storeHandler taskId).traced e w r w') (h : Quiet e) : Later taskId w w' :=
  setup_later (Or.inl h) hstep

/-! ## Rules -/

theorem setup_gated {p : Coroutine α} (h : p.Makes (Setup taskId)) :
    Gated taskId p (fun _ w' => Later taskId w w') w := by
  refine Ensures.imp (h.keeps (fun e w he _ => setup_permitted he)
    (fun e w₁ r w₂ he hlater hstep => hlater.trans (setup_later he hstep)) (Later.refl taskId w))
    fun r w' hlater => ?_
  cases r with
  | ok a => exact hlater
  | error x => trivial

theorem quiet_gated {p : Coroutine α} (h : p.Makes Quiet) :
    Gated taskId p (fun _ w' => Later taskId w w') w := setup_gated (setup_of_quiet h)

theorem lockless_gated {p : Coroutine α} (h : p.Makes (Lockless Quiet)) :
    Gated taskId p (fun _ w' => Later taskId w w') w := quiet_gated (makes_of_lockless h)

theorem inThread_gated {p : Coroutine α} (h : p.Makes (InThread Quiet)) :
    Gated taskId p (fun _ w' => Later taskId w w') w := quiet_gated (makes_of_inThread h)

theorem Gated.mono {p : Coroutine α} {Post Post' : α → GateWorld → Prop}
    (h : Gated taskId p Post w) (hpost : ∀ a w', Post a w' → Post' a w') :
    Gated taskId p Post' w := by
  refine Ensures.imp h fun r w' hr => ?_
  cases r with
  | ok a => exact hpost a w' hr
  | error x => trivial

theorem attempt_gated {p : Coroutine α} {f : Except Raised α → Coroutine β}
    {Mid : Except Raised α → GateWorld → Prop} {Post : β → GateWorld → Prop}
    (h : Ensures (storeHandler taskId).traced (fun e w => Permitted taskId (evidence w.2) e)
      p Mid w)
    (hf : ∀ outcome w', Mid outcome w' → Gated taskId (f outcome) Post w') :
    Gated taskId (p.attempt >>= f) Post w := by
  rw [Gated, ensures_bind, ensures_attempt]
  exact Ensures.imp h hf

/-- What quiet calls keep survives the delivery of a cancellation. -/
theorem finishBeforeCancel_gated {p : Coroutine α} {Post : α → GateWorld → Prop}
    (h : Gated taskId p Post w)
    (hlater : ∀ a w₁ w₂, Post a w₁ → Later taskId w₁ w₂ → Post a w₂) :
    Gated taskId (finishBeforeCancel p) Post w := by
  refine attempt_gated h fun outcome w₁ hout => ?_
  refine (lockless_gated suspend_quiet).andThen fun _ w₂ hl => ?_
  rw [ensures_ofExcept]
  cases outcome with
  | ok a => exact hlater a w₁ w₂ hout hl
  | error x => trivial

theorem withLock_gated {lock : Lock} {p : Coroutine α} {Post : α → GateWorld → Prop}
    (h : ∀ w₁, Later taskId w w₁ → Gated taskId p Post w₁)
    (hlater : ∀ a w₁ w₂, Post a w₁ → Later taskId w₁ w₂ → Post a w₂) :
    Gated taskId (withLock lock p) Post w := by
  refine (quiet_gated acquire_quiet).andThen fun _ w₁ hl => ?_
  refine attempt_gated (h w₁ hl) fun outcome w₂ hout => ?_
  refine (quiet_gated release_quiet).andThen fun _ w₃ hl => ?_
  rw [ensures_ofExcept]
  cases outcome with
  | ok a => exact hlater a w₂ w₃ hout hl
  | error x => trivial

theorem exceptWhen_gated {caught : Raised → Bool} {p : Coroutine α}
    {handler : Raised → Coroutine α} {Post : α → GateWorld → Prop} (h : Gated taskId p Post w)
    (hhandler : ∀ x w', Gated taskId (handler x) Post w') :
    Gated taskId (exceptWhen caught p handler) Post w := by
  refine Ensures.tryCatch h (fun _ _ hr => hr) fun x w' _ => ?_
  split_ifs
  · exact hhandler x w'
  · trivial

/-- A call that is permitted on any evidence, with what its reply adds to it. -/
theorem perform_gated {e : Effect} {Post : e.Reply → GateWorld → Prop}
    (hpermitted : Permitted taskId (evidence w.2) e)
    (hpost : ∀ reply w', storeHandler taskId e w.1 (.ok reply) w'.1 →
      evidence w'.2 = observe (evidence w.2) e (.ok reply) → Post reply w') :
    Gated taskId (perform e) Post w := by
  refine ensures_perform.mpr ⟨hpermitted, fun r w' hstep => ?_⟩
  cases r with
  | ok reply => exact hpost reply w' hstep.1 (traced_evidence hstep)
  | error x => trivial

/-! ## Merging -/

theorem Evidence.Same.resolved {ev ev' : Evidence} (h : ev.Same ev') :
    ev'.resolved = ev.resolved := by rw [h.eq]

theorem Evidence.Same.merged {ev ev' : Evidence} (h : ev.Same ev') : ev'.merged = ev.merged := by
  rw [h.eq]

theorem Evidence.Same.postGates {ev ev' : Evidence} (h : ev.Same ev') :
    ev'.postGates = ev.postGates := by rw [h.eq]

theorem Evidence.Same.integrated {ev ev' : Evidence} (h : ev.Same ev') (hev : ev.Integrated) :
    ev'.Integrated := by
  rcases hev with hmerged | ⟨hresolved, hfinished⟩
  · exact Or.inl (h.merged.trans hmerged)
  · exact Or.inr ⟨h.resolved.trans hresolved, h.finished hfinished⟩

/-- The conflict is resolved, and the merge is committed. -/
def Evidence.Resolved (ev : Evidence) : Prop := ev.resolved = true ∧ ev.finished = true

theorem Evidence.Same.isResolved {ev ev' : Evidence} (h : ev.Same ev') (hev : ev.Resolved) :
    ev'.Resolved := ⟨h.resolved.trans hev.1, h.finished hev.2⟩

theorem isClean_gated :
    Gated taskId (isClean cwd) (fun clean w' => Later taskId w w' ∧
      (clean = true → (evidence w'.2).finished = true)) w := by
  refine ensures_perform.mpr ⟨trivial, fun r w' hstep => ?_⟩
  cases r with
  | error x => trivial
  | ok clean =>
    refine ⟨quiet_later hstep trivial, fun hclean => ?_⟩
    rw [traced_evidence hstep]
    show ((evidence w.2).finished || (clean : Bool)) = true
    rw [hclean]
    exact Bool.or_true _

theorem commit_gated {message : Option Str} :
    Gated taskId (gitCommand cwd (.commit message)) (fun _ w' => Later taskId w w' ∧
      (evidence w'.2).finished = true) w := by
  refine ensures_perform.mpr ⟨trivial, fun r w' hstep => ?_⟩
  cases r with
  | error x => trivial
  | ok u =>
    refine ⟨quiet_later hstep trivial, ?_⟩
    rw [traced_evidence hstep]
    rfl

theorem commitAll_gated {message : Str} :
    Gated taskId (commitAll cwd message) (fun _ w' => Later taskId w w' ∧
      (evidence w'.2).finished = true) w := by
  refine (inThread_gated assertWorktree_quiet).andThen fun _ w₁ hl₁ => ?_
  refine isClean_gated.andThen fun clean w₂ ⟨hl₂, hclean⟩ => ?_
  split
  · rename_i heq
    exact (inThread_gated head_quiet).mono fun _ w₃ hl₃ =>
      ⟨hl₁.trans (hl₂.trans hl₃), hl₃.same.finished (hclean heq)⟩
  · refine (inThread_gated addAll_quiet).andThen fun _ w₃ hl₃ => ?_
    refine commit_gated.andThen fun _ w₄ ⟨hl₄, hfinished⟩ => ?_
    exact (inThread_gated head_quiet).mono fun _ w₅ hl₅ =>
      ⟨hl₁.trans (hl₂.trans (hl₃.trans (hl₄.trans hl₅))), hl₅.same.finished hfinished⟩

theorem unresolvedFiles_gated :
    Gated taskId (unresolvedFiles cwd) (fun files w' =>
      ((evidence w.2).finished = true → (evidence w'.2).finished = true) ∧
      (files = [] → (evidence w'.2).resolved = true)) w := by
  refine (inThread_gated assertWorktree_quiet).andThen fun _ w₁ hl => ?_
  refine perform_gated trivial fun files w₂ _ hev => ?_
  rw [hev]
  refine ⟨hl.same.finished, fun hfiles => ?_⟩
  show List.isEmpty (files : List Str) = true
  rw [hfiles]
  rfl

theorem merge_gated {branch : Str} :
    Gated taskId (merge cwd branch) (fun _ w' => (evidence w'.2).merged = true) w := by
  refine (inThread_gated assertWorktree_quiet).andThen fun _ _ _ => ?_
  refine (inThread_gated topology_quiet).andThen fun _ w₁ _ => ?_
  have hcommand : Gated taskId (gitCommand cwd (.merge branch)) (fun stderr w' =>
      stderr = (none : Option Str) → (evidence w'.2).merged = true) w₁ := by
    refine perform_gated trivial fun stderr w₂ _ hev hnone => ?_
    rw [hev, hnone]
    rfl
  refine hcommand.andThen fun stderr w₂ hmerged => ?_
  cases (stderr : Option Str) with
  | none => exact hmerged rfl
  | some stderr =>
    refine unresolvedFiles_gated.andThen fun _ _ _ => ?_
    split_ifs <;> trivial

theorem finishMerge_gated :
    Gated taskId (finishMerge cwd) (fun _ w' => (evidence w'.2).Resolved) w := by
  refine (inThread_gated assertWorktree_quiet).andThen fun _ _ _ => ?_
  refine unresolvedFiles_gated.andThen fun unresolved w₁ ⟨_, hresolved⟩ => ?_
  split
  · trivial
  rename_i hnone
  have hresolved := hresolved (not_not.mp hnone)
  refine (inThread_gated addAll_quiet).andThen fun _ w₂ hl₂ => ?_
  refine (inThread_gated mergeInProgress_quiet).andThen fun merging w₃ hl₃ => ?_
  have hresolved₃ := (hl₂.trans hl₃).same.resolved.trans hresolved
  refine Ensures.ite (fun _ => ?_) fun _ => ?_
  · exact commit_gated.mono fun _ w₄ ⟨hl₄, hfinished⟩ =>
      ⟨hl₄.same.resolved.trans hresolved₃, hfinished⟩
  · refine isClean_gated.andThen fun clean w₄ ⟨hl₄, hclean⟩ => ?_
    split
    · rename_i heq
      exact ⟨hl₄.same.resolved.trans hresolved₃, hclean heq⟩
    · exact commitAll_gated.andThen fun _ w₅ ⟨hl₅, hfinished⟩ =>
        ⟨(hl₄.trans hl₅).same.resolved.trans hresolved₃, hfinished⟩

theorem tryFinishMerge_gated :
    Gated taskId (tryFinishMerge cwd)
      (fun finished w' => finished = true → (evidence w'.2).Resolved) w := by
  refine exceptWhen_gated ?_ fun _ _ => Bool.noConfusion
  exact (finishBeforeCancel_gated finishMerge_gated fun _ _ _ h hl =>
    hl.same.isResolved h).andThen fun _ _ h _ => h

theorem tryFinishResolved_gated {task : TaskRow} {agentName : Str} :
    Gated taskId (tryFinishResolved jobId task cwd agentName)
      (fun finished w' => finished = true → (evidence w'.2).Resolved) w := by
  refine exceptWhen_gated ?_ fun _ _ => Bool.noConfusion
  refine (finishBeforeCancel_gated finishMerge_gated fun _ _ _ h hl =>
    hl.same.isResolved h).andThen fun _ w₁ hmerged => ?_
  refine (finishBeforeCancel_gated unresolvedFiles_gated fun _ _ _ h hl =>
    ⟨fun hf => hl.same.finished (h.1 hf), fun hnone =>
      hl.same.resolved.trans (h.2 hnone)⟩).andThen fun unresolved w₂ ⟨hfinished, hresolved⟩ => ?_
  split
  · rename_i hnone
    exact (lockless_gated recordEvent_quiet).andThen fun _ w₃ hl _ =>
      hl.same.isResolved ⟨hresolved hnone, hfinished hmerged.2⟩
  · exact Bool.noConfusion

/-! ## Integration -/

/-- What an integration in progress leaves: the attempts, and the verdicts on the work. -/
structure Evidence.SameWork (ev ev' : Evidence) : Prop where
  attempts : ev'.attempts = ev.attempts
  worker : ev'.worker = ev.worker
  gates : ev'.gates = ev.gates
  review : ev'.review = ev.review
  integrating : ev'.integrating = ev.integrating

theorem Evidence.SameWork.refl (ev : Evidence) : ev.SameWork ev := ⟨rfl, rfl, rfl, rfl, rfl⟩

theorem Evidence.SameWork.trans {ev ev' ev'' : Evidence} (h : ev.SameWork ev')
    (h' : ev'.SameWork ev'') : ev.SameWork ev'' :=
  ⟨h'.attempts.trans h.attempts, h'.worker.trans h.worker, h'.gates.trans h.gates,
    h'.review.trans h.review, h'.integrating.trans h.integrating⟩

theorem Evidence.Same.sameWork {ev ev' : Evidence} (h : ev.Same ev') : ev.SameWork ev' := by
  rw [h.eq]
  exact ⟨rfl, rfl, rfl, rfl, rfl⟩

theorem Evidence.SameWork.approved {ev ev' : Evidence} (h : ev.SameWork ev') (hev : ev.Approved) :
    ev'.Approved :=
  ⟨h.worker.trans hev.worker, h.gates.trans hev.gates, h.review.trans hev.review⟩

theorem observe_integrationCall {ev : Evidence} {e : Effect} {r : Except Raised e.Reply}
    (h : IntegrationCall e) (hev : ev.integrating = true) : ev.SameWork (observe ev e r) := by
  cases e with
  | runAgent name prompt cwd logPath =>
    cases prompt with
    | work goal task context => exact h.elim
    | _ => cases r <;> exact ⟨rfl, rfl, rfl, rfl, rfl⟩
  | runGates final cwd logPath =>
    cases r <;>
    · simp only [observe, Evidence.gateResults, if_pos hev]
      exact ⟨rfl, rfl, rfl, rfl, rfl⟩
  | git cwd command => cases command <;> cases r <;> exact ⟨rfl, rfl, rfl, rfl, rfl⟩
  | _ => first | exact h.elim | (cases r <;> exact .refl ev)

theorem integrationCall_permitted {ev : Evidence} {e : Effect} (h : IntegrationCall e) :
    Permitted taskId ev e := by
  cases e <;> first | exact h.elim | trivial

/-- An integration in progress keeps the attempts and the verdicts on the work. -/
theorem integration_gated {p : Coroutine α} (h : p.Makes IntegrationCall)
    (hw : (evidence w.2).integrating = true) :
    Gated taskId p (fun _ w' => (evidence w.2).SameWork (evidence w'.2)) w := by
  have hkeeps : Ensures (storeHandler taskId).traced (fun e w => Permitted taskId (evidence w.2) e)
    p
      (fun _ w' => (evidence w.2).SameWork (evidence w'.2)) w := by
    refine h.keeps (fun e w he _ => integrationCall_permitted he)
      (fun e w₁ r w₂ he hsame hstep => ?_)
      (Evidence.SameWork.refl _)
    rw [traced_evidence hstep]
    exact hsame.trans (observe_integrationCall he (hsame.integrating.trans hw))
  refine Ensures.imp hkeeps fun r w' hsame => ?_
  cases r with
  | ok a => exact hsame
  | error x => trivial

theorem Gated.and {p : Coroutine α} {Post Post' : α → GateWorld → Prop} (h : Gated taskId p Post w)
    (h' : Gated taskId p Post' w) : Gated taskId p (fun a w' => Post a w' ∧ Post' a w') w := by
  refine Ensures.imp (Ensures.and h h') fun r w' hr => ?_
  cases r with
  | ok a => exact hr
  | error x => trivial

theorem runAgent_gated {name : Str} {prompt : Prompt} {logPath : Str} :
    Gated taskId (perform (.runAgent name prompt cwd logPath)) (fun _ _ => True) w :=
  perform_gated trivial fun _ _ _ _ => trivial

theorem resolveLoop_gated {task : TaskRow} {originalError : Str} {cycles : List Nat} :
    Gated taskId (resolveLoop cfg jobId task cwd originalError cycles)
      (fun resolved w' => resolved = true → (evidence w'.2).Resolved) w := by
  induction cycles generalizing w with
  | nil => exact Bool.noConfusion
  | cons cycle cycles ih =>
    refine (finishBeforeCancel_gated (unresolvedFiles_gated.mono fun _ _ _ => trivial)
      fun _ _ _ _ _ => trivial).andThen fun unresolved w₁ _ => ?_
    refine Ensures.join (fun _ => tryFinishMerge_gated) (fun _ => Bool.noConfusion)
      fun finished w₂ hfinished => Ensures.ite (fun heq _ => hfinished heq) fun _ => ?_
    -- an agent is asked to resolve what is left
    refine (lockless_gated chooseRole_quiet).andThen fun agentName _ _ => ?_
    refine (lockless_gated getJob_quiet).andThen fun job _ _ => ?_
    refine runAgent_gated.andThen fun result w₃ _ => ?_
    exact Ensures.join (fun _ => tryFinishResolved_gated) (fun _ => Bool.noConfusion)
      fun resolved w₄ hresolved => Ensures.ite (fun heq _ => hresolved heq) fun _ => ih

theorem mergeOrResolve_gated {task : TaskRow} :
    Gated taskId (mergeOrResolve cfg jobId task cwd)
      (fun merged w' => merged = true → (evidence w'.2).Integrated) w := by
  refine attempt_gated (finishBeforeCancel_gated merge_gated fun _ _ _ h hl =>
    hl.same.merged.trans h) fun outcome w₁ hmerged => ?_
  rcases outcome with (_ | message | _ | _ | _) | ⟨⟩
  · trivial
  · refine (lockless_gated recordEvent_quiet).andThen fun _ w₂ _ => ?_
    exact resolveLoop_gated.mono fun _ _ h heq => Or.inr (h heq)
  · trivial
  · trivial
  · trivial
  · exact fun _ => Or.inl hmerged

/-- The gates on the candidate leave all but their own verdict. -/
theorem postGates_gated {task : Option TaskRow} {final : Bool} {suffix : Str}
    (hw : (evidence w.2).integrating = true) (hev : (evidence w.2).Integrated) :
    Gated taskId (runGates cfg jobId task cwd final suffix) (fun results w' =>
      (evidence w'.2).integrating = true ∧ (evidence w'.2).Integrated ∧
        (evidence w'.2).postGates = allOk results) w := by
  have hgates : ∀ logPath, Gated taskId (perform (.runGates final cwd logPath)) (fun results w' =>
      (evidence w'.2).integrating = true ∧ (evidence w'.2).Integrated ∧
        (evidence w'.2).postGates = allOk results) w := by
    refine fun logPath => perform_gated trivial fun results w₁ _ hev₁ => ?_
    rw [hev₁]
    simp only [observe, Evidence.gateResults, if_pos hw]
    exact ⟨hw, hev, trivial⟩
  refine (hgates _).andThen fun results w₁ hmid => ?_
  obtain ⟨hw₁, hev₁, hresults⟩ := hmid
  exact (lockless_gated recordEvent_quiet).andThen fun _ w₂ hl =>
    ⟨hl.same.sameWork.integrating.trans hw₁, hl.same.integrated hev₁,
      hl.same.postGates.trans hresults⟩

theorem observe_repairCall {ev : Evidence} {e : Effect} {r : Except Raised e.Reply}
    (h : RepairCall e) (hev : ev.Integrated) : (observe ev e r).Integrated := by
  by_cases hquiet : Quiet e
  · have hsetup : Setup ⟨[], rfl⟩ e := Or.inl hquiet
    exact (observe_setup hsetup).integrated hev
  · cases e with
    | runAgent name prompt cwd logPath =>
      cases prompt with
      | repair goal issue => cases r <;> exact hev
      | _ => exact h.elim
    | _ => exact absurd h hquiet

theorem repair_gated {issue : Str} {owner : Option Text} (hw : (evidence w.2).integrating = true)
    (hev : (evidence w.2).Integrated) :
    Gated taskId (repairIntegration cfg jobId cwd issue owner) (fun _ w' =>
      (evidence w'.2).integrating = true ∧ (evidence w'.2).Integrated) w := by
  have hcalls : (repairIntegration cfg jobId cwd issue owner).Makes RepairCall :=
    makes_of_lockless repairIntegration_calls
  have hkeeps : Ensures (storeHandler taskId).traced (fun e w => Permitted taskId (evidence w.2) e)
      (repairIntegration cfg jobId cwd issue owner) (fun _ w' => (evidence w'.2).Integrated) w := by
    refine hcalls.keeps (fun e w he _ => integrationCall_permitted he.integrationCall)
      (fun e w₁ r w₂ he h hstep => ?_) hev
    rw [traced_evidence hstep]
    exact observe_repairCall he h
  refine Ensures.imp (Ensures.and hkeeps
    (integration_gated (hcalls.mono fun _ => RepairCall.integrationCall) hw)) fun r w' h => ?_
  cases r with
  | ok repaired => exact ⟨h.2.integrating.trans hw, h.1⟩
  | error x => trivial

theorem verifyIntegration_gated {task : TaskRow} {preMerge : Str}
    (hw : (evidence w.2).integrating = true) (hev : (evidence w.2).Integrated) :
    Gated taskId (verifyIntegration cfg jobId task cwd preMerge) (fun verdict w' =>
      verdict.1 = true → (evidence w'.2).Integrated ∧ (evidence w'.2).postGates = true) w := by
  refine (postGates_gated hw hev).andThen fun gates w₁ ⟨hw₁, hev₁, hgates⟩ => ?_
  refine Ensures.ite (fun hok _ => ⟨hev₁, hgates.trans hok⟩) fun _ => ?_
  refine (quiet_gated liftExn_makes).andThen fun gatesText w₂ hl => ?_
  refine (repair_gated (hl.same.sameWork.integrating.trans hw₁)
    (hl.same.integrated hev₁)).andThen fun repaired w₃ ⟨hw₃, hev₃⟩ => ?_
  -- the gates are run again after a repair
  have hjudge : ∀ (issue : Str) (verified : Bool) (w' : GateWorld),
    (verified = true → (evidence w'.2).Integrated ∧
      (evidence w'.2).postGates = true) → Gated taskId
      (if verified = true then pure (true, []) else do
        atomicToThread (resetHard cwd preMerge)
        recordEvent jobId "integration.rolled_back" [(lit "task", .str task.logicalId.val)] task.id
        return (false, issue))
      (fun verdict w' => verdict.1 = true → (evidence w'.2).Integrated ∧
        (evidence w'.2).postGates = true) w' := by
    intro issue verified w' hverified
    refine Ensures.ite (fun heq _ => hverified heq) fun _ => ?_
    refine (lockless_gated (finishBeforeCancel_lockless trivial resetHard_quiet)).andThen
      fun _ _ _ => ?_
    exact (lockless_gated recordEvent_quiet).andThen fun _ _ _ => Bool.noConfusion
  refine Ensures.ite (fun _ => ?_) fun _ => hjudge _ false w₃ Bool.noConfusion
  refine (postGates_gated hw₃ hev₃).andThen fun gates w₄ ⟨hw₄, hev₄, hgates₄⟩ => ?_
  exact hjudge _ _ w₄ fun heq => ⟨hev₄, hgates₄.trans heq⟩

theorem integrateBody_gated {task : TaskRow} {preMerge : Str}
    (hw : (evidence w.2).integrating = true) :
    Gated taskId (integrateBody cfg jobId task cwd preMerge) (fun verdict w' =>
      verdict.1 = true → (evidence w'.2).Integrated ∧ (evidence w'.2).postGates = true) w := by
  refine (Gated.and mergeOrResolve_gated
    (integration_gated (makes_of_lockless mergeOrResolve_calls) hw)).andThen
    fun merged w₁ ⟨hmerged, hsame⟩ => ?_
  refine Ensures.ite (fun heq => ?_) fun _ => ?_
  · refine (verifyIntegration_gated (hsame.integrating.trans hw) (hmerged heq)).andThen
      fun verdict w₂ hverdict => ?_
    refine Ensures.ite (fun heq => ?_) fun heq => ?_
    · refine (lockless_gated (finishBeforeCancel_lockless trivial head_quiet)).andThen
        fun commit w₃ hl₃ => ?_
      refine (lockless_gated recordEvent_quiet).andThen fun _ w₄ hl₄ _ => ?_
      have hl := hl₃.trans hl₄
      obtain ⟨hev, hgates⟩ := hverdict heq
      exact ⟨hl.same.integrated hev, hl.same.postGates.trans hgates⟩
    · exact fun htrue => absurd htrue Bool.noConfusion
  · exact (lockless_gated (finishBeforeCancel_lockless trivial abortMerge_quiet)).andThen
      fun _ _ _ => Bool.noConfusion

/-! ## Records -/

theorem sets_inj {fields : TaskFields} {state state' : TaskState} (h : fields.sets state)
    (h' : fields.sets state') : state = state' := by
  have heq := ofValue?_value state
  rw [← Option.some_inj.mp (h'.symm.trans h), ofValue?_value] at heq
  exact (Option.some_inj.mp heq).symm

/-- An update that sets the task's state. -/
theorem setState_gated {fields : TaskFields} {state : TaskState} (hsets : fields.sets state)
    (hpermitted : Permitted taskId (evidence w.2) (.updateTask taskId fields)) :
    Gated taskId (perform (.updateTask taskId fields)) (fun _ w' => InState w'.1 taskId state ∧
      evidence w'.2 = if state = .integrating then { evidence w.2 with integrating := true }
        else evidence w.2) w := by
  refine perform_gated hpermitted fun _ w' hstore hev => ?_
  obtain ⟨_, ⟨now, rfl⟩, hok⟩ := storeHandler_operation rfl hstore
  refine ⟨(updateTask_inState hok).2 state hsets, ?_⟩
  rw [hev]
  simp only [observe]
  by_cases hstate : state = .integrating
  · subst hstate
    rw [if_pos hsets, if_pos rfl]
  · rw [if_neg fun h => hstate (sets_inj hsets h), if_neg hstate]

/-- States that need no evidence. -/
theorem setFree_gated {fields : TaskFields} (state : TaskState) (hsets : fields.sets state)
    (hstate : state ≠ .integrating ∧ state ≠ .completed) :
    Gated taskId (perform (.updateTask taskId fields)) (fun _ w' => InState w'.1 taskId state ∧
      evidence w'.2 = evidence w.2) w := by
  refine (setState_gated hsets ⟨rfl, fun h => absurd (sets_inj hsets h) hstate.1,
    fun h => absurd (sets_inj hsets h) hstate.2⟩).mono fun _ w' ⟨hin, hev⟩ => ⟨hin, ?_⟩
  rw [hev, if_neg hstate.1]

namespace Evidence

/-- The attempt is the latest, without a terminal record, after so many that have failed. -/
def Open (attemptId : Text) (count : Nat) (ev : Evidence) : Prop :=
  ∃ attempts, ev.attempts = (attemptId, []) :: attempts ∧ Failed attempts ∧ attempts.length = count

/-- So many attempts have been made, and have failed. -/
def Closed (count : Nat) (ev : Evidence) : Prop := Failed ev.attempts ∧ ev.attempts.length = count

/-- The latest attempt has passed, after so many that have failed. -/
def Passed (count : Nat) (ev : Evidence) : Prop :=
  ∃ attemptId attempts, ev.attempts = (attemptId, [lit "passed"]) :: attempts ∧ Failed attempts ∧
    attempts.length = count

theorem failed_cons {attemptId : Text} {attempts : List (Text × List Str)} (h : Failed attempts) :
    Failed ((attemptId, [lit "failed"]) :: attempts) := by
  intro a ha
  rcases List.mem_cons.mp ha with rfl | ha
  · rfl
  · exact h a ha

theorem Open.latest {attemptId : Text} {count : Nat} {ev : Evidence}
    (h : ev.Open attemptId count) : ev.Latest [] := by
  rcases h with ⟨attempts, hattempts, hfailed, -⟩
  exact ⟨attemptId, attempts, hattempts, hfailed⟩

theorem Passed.latest {count : Nat} {ev : Evidence} (h : ev.Passed count) :
    ev.Latest [lit "passed"] := by
  rcases h with ⟨attemptId, attempts, hattempts, hfailed, -⟩
  exact ⟨attemptId, attempts, hattempts, hfailed⟩

theorem Open.of_attempts {attemptId : Text} {count : Nat} {ev ev' : Evidence}
    (h : ev.Open attemptId count) (hattempts : ev'.attempts = ev.attempts) :
    ev'.Open attemptId count := by
  rw [Open, hattempts]
  exact h

theorem Closed.of_attempts {count : Nat} {ev ev' : Evidence} (h : ev.Closed count)
    (hattempts : ev'.attempts = ev.attempts) : ev'.Closed count := by
  rw [Closed, hattempts]
  exact h

theorem Passed.of_attempts {count : Nat} {ev ev' : Evidence} (h : ev.Passed count)
    (hattempts : ev'.attempts = ev.attempts) : ev'.Passed count := by
  rw [Passed, hattempts]
  exact h

end Evidence

/-- The terminal record of the latest attempt. -/
theorem finishAttempt_gated {attemptId : Text} {count : Nat} {state : Str}
    {returncode : Option Int} {summary : Str} (hopen : (evidence w.2).Open attemptId count) :
    Gated taskId (perform (.finishAttempt attemptId state returncode summary)) (fun _ w' =>
      ∃ attempts, evidence w'.2 =
          { evidence w.2 with attempts := (attemptId, [state]) :: attempts } ∧
        Evidence.Failed attempts ∧ attempts.length = count) w := by
  refine perform_gated trivial fun _ w' _ hev => ?_
  rcases hopen with ⟨attempts, hattempts, hfailed, hcount⟩
  refine ⟨attempts, ?_, hfailed, hcount⟩
  rw [hev]
  simp only [observe, hattempts, addRecord, if_true, List.nil_append]

/-- A record of failure, and the task is pending again. -/
theorem recordFailure_gated {attemptId : Text} {count : Nat} {returncode : Option Int}
    {summary : Str} {fields : TaskFields} (hopen : (evidence w.2).Open attemptId count)
    (hsets : fields.sets .pending) :
    Gated taskId (do
      perform (.finishAttempt attemptId (lit "failed") returncode summary)
      perform (.updateTask taskId fields)) (fun _ w' => (evidence w'.2).Closed (count + 1)) w := by
  refine (finishAttempt_gated hopen).andThen fun _ w₁ ⟨attempts, hev, hfailed, hcount⟩ => ?_
  refine (setFree_gated .pending hsets (by decide)).mono fun _ w₂ ⟨_, hev₂⟩ => ?_
  rw [hev₂, hev]
  exact ⟨Evidence.failed_cons hfailed, by rw [List.length_cons, hcount]⟩

/-- What the integration of an approved attempt leaves. -/
structure Evidence.Judged (attemptId : Text) (count : Nat) (success : Bool) (ev : Evidence) :
    Prop where
  isOpen : ev.Open attemptId count
  approved : ev.Approved
  integrated : success = true → ev.Integrated
  postGates : success = true → ev.postGates = true

theorem Evidence.Judged.same {attemptId : Text} {count : Nat} {success : Bool}
    {ev ev' : Evidence} (h : ev.Judged attemptId count success) (hsame : ev.Same ev') :
    ev'.Judged attemptId count success where
  isOpen := h.isOpen.of_attempts hsame.sameWork.attempts
  approved := hsame.sameWork.approved h.approved
  integrated heq := hsame.integrated (h.integrated heq)
  postGates heq := hsame.postGates.trans (h.postGates heq)

theorem integrateTask_gated {task : TaskRow} {attemptId : Text} {count : Nat}
    (htask : task.id = taskId) (hopen : (evidence w.2).Open attemptId count)
    (happroved : (evidence w.2).Approved) :
    Gated taskId (integrateTask cfg jobId task cwd) (fun verdict w' =>
      (evidence w'.2).Judged attemptId count verdict.1) w := by
  subst htask
  refine withLock_gated (fun w₁ hl₁ => withLock_gated (fun w₂ hl₂ => ?_)
    fun _ _ _ h hl => h.same hl.same) fun _ _ _ h hl => h.same hl.same
  have hsame := (hl₁.trans hl₂).same.sameWork
  have hopen := hopen.of_attempts hsame.attempts
  have happroved := hsame.approved happroved
  have hsets : TaskFields.sets { state := some (lit TaskState.integrating.value) } .integrating :=
    rfl
  refine (setState_gated hsets ⟨rfl, fun _ => ⟨happroved, hopen.latest⟩,
    fun h => absurd (sets_inj hsets h) (by decide)⟩).andThen fun _ w₃ ⟨_, hev₃⟩ => ?_
  rw [if_pos rfl] at hev₃
  have hwork₃ : (evidence w₃.2).integrating = true ∧ (evidence w₃.2).Open attemptId count ∧
      (evidence w₃.2).Approved := by
    rw [hev₃]
    exact ⟨rfl, hopen, happroved.worker, happroved.gates, happroved.review⟩
  refine (lockless_gated (finishBeforeCancel_lockless trivial head_quiet)).andThen
    fun preMerge w₄ hl => ?_
  have hsame₄ := hl.same.sameWork
  have hworking := hsame₄.integrating.trans hwork₃.1
  refine Ensures.tryCatch (Gated.and (integrateBody_gated hworking)
    (integration_gated (makes_of_lockless integrateBody_calls) hworking)) ?_ ?_
  · rintro verdict w₅ ⟨hverdict, hsame₅⟩
    have hsame := hsame₄.trans hsame₅
    exact ⟨hwork₃.2.1.of_attempts hsame.attempts, hsame.approved hwork₃.2.2,
      fun heq => (hverdict heq).1, fun heq => (hverdict heq).2⟩
  · -- the exception is raised again
    intro x w₅ _
    exact (lockless_gated (finishBeforeCancel_lockless trivial rollback_quiet)).andThen
      fun _ _ _ => trivial

/-! ## Attempts -/

/-- What an attempt ends with. -/
def AttemptEnd (taskId : Text) (count : Nat) : AttemptOutcome → GateWorld → Prop
  | .completed, w => (evidence w.2).Passed count ∧ InState w.1 taskId .completed
  | .retry _, w => (evidence w.2).Closed (count + 1)

theorem failAttempt_gated {attemptId : Text} {count : Nat} {returncode : Option Int}
    {retryContext : Str} (hopen : (evidence w.2).Open attemptId count) :
    Gated taskId (failAttempt taskId attemptId returncode retryContext)
      (fun _ w' => (evidence w'.2).Closed (count + 1)) w := recordFailure_gated hopen rfl

theorem completeTask_gated {attemptId : Text} {count : Nat} {checkout : TaskCheckout}
    {attemptNumber : Int} {agentName : Str} {review : ReviewResult}
    (h : (evidence w.2).Judged attemptId count true) :
    Gated taskId (completeTask cfg jobId taskId attemptId checkout attemptNumber agentName review)
      (fun _ w' => AttemptEnd taskId count .completed w') w := by
  refine (finishAttempt_gated h.isOpen).andThen fun _ w₁ ⟨attempts, hev₁, hfailed, hcount⟩ => ?_
  have hpassed : (evidence w₁.2).Passed count := by
    rw [hev₁]
    exact ⟨attemptId, attempts, rfl, hfailed, hcount⟩
  have hready : (evidence w₁.2).Approved ∧ (evidence w₁.2).Integrated ∧
      (evidence w₁.2).postGates = true ∧ (evidence w₁.2).Latest [lit "passed"] := by
    refine ⟨?_, ?_, ?_, hpassed.latest⟩ <;> rw [hev₁]
    · exact ⟨h.approved.worker, h.approved.gates, h.approved.review⟩
    · exact h.integrated rfl
    · exact h.postGates rfl
  have hsets : TaskFields.sets
      { state := some (lit TaskState.completed.value), resultSummary := some review.summary
        lastError := some [] } .completed := rfl
  refine (setState_gated hsets ⟨rfl, fun h => absurd (sets_inj hsets h) (by decide),
    fun _ => hready⟩).andThen fun _ w₂ ⟨hstate, hev₂⟩ => ?_
  rw [if_neg (by decide)] at hev₂
  rw [← hev₂] at hpassed
  -- what follows is housekeeping
  have hkept : ∀ {w'}, Later taskId w₂ w' → AttemptEnd taskId count .completed w' := fun hl =>
    ⟨hpassed.of_attempts hl.same.sameWork.attempts, hl.state _ hstate⟩
  refine (lockless_gated recordEvent_quiet).andThen fun _ w₃ hl₃ =>
    Ensures.ite (fun _ => ?_) fun _ => ?_
  · exact (quiet_gated cleanupTask_quiet).mono fun _ w₄ hl₄ => hkept (hl₃.trans hl₄)
  · exact hkept hl₃

/-- What the calls of a review leave. -/
theorem observe_taskReviewCall (ev : Evidence) {e : Effect} (r : Except Raised e.Reply)
    (h : TaskReviewCall e) : (observe ev e r).attempts = ev.attempts ∧
      (observe ev e r).worker = ev.worker ∧ (observe ev e r).gates = ev.gates := by
  by_cases hquiet : Quiet e
  · have hsetup : Setup ⟨[], rfl⟩ e := Or.inl hquiet
    have hsame : ev.SameWork (observe ev e r) := (observe_setup hsetup).sameWork
    exact ⟨hsame.attempts, hsame.worker, hsame.gates⟩
  · cases e with
    | reviewTask name goal task diff gates cwd logPath => cases r <;> exact ⟨rfl, rfl, rfl⟩
    | _ => exact absurd h hquiet

theorem taskReviewCall_permitted {ev : Evidence} {e : Effect} (h : TaskReviewCall e) :
    Permitted taskId ev e := by
  cases e <;> first | exact h.elim | trivial

theorem review_keeps {p : Coroutine α} (h : p.Makes TaskReviewCall) :
    Gated taskId p (fun _ w' => (evidence w'.2).attempts = (evidence w.2).attempts ∧
      (evidence w'.2).worker = (evidence w.2).worker ∧
      (evidence w'.2).gates = (evidence w.2).gates) w := by
  have hkeeps : Ensures (storeHandler taskId).traced (fun e w => Permitted taskId (evidence w.2) e)
    p
      (fun _ w' => (evidence w'.2).attempts = (evidence w.2).attempts ∧
        (evidence w'.2).worker = (evidence w.2).worker ∧
        (evidence w'.2).gates = (evidence w.2).gates) w := by
    refine h.keeps (fun e w he _ => taskReviewCall_permitted he)
      (fun e w₁ r w₂ he hsame hstep => ?_)
      ⟨rfl, rfl, rfl⟩
    rw [traced_evidence hstep]
    have hcall := observe_taskReviewCall (evidence w₁.2) r he
    exact ⟨hcall.1.trans hsame.1, hcall.2.1.trans hsame.2.1, hcall.2.2.trans hsame.2.2⟩
  refine Ensures.imp hkeeps fun r w' hsame => ?_
  cases r with
  | ok a => exact hsame
  | error x => trivial

theorem reviewLoop_gated {task : TaskRow} {goal : Text} {diff worktree : Str}
    {gates : List GateResult} {attemptNumber : Int} {candidates tried errors : List Str} :
    Gated taskId
      (reviewLoop cfg jobId task goal diff worktree gates attemptNumber candidates tried errors)
      (fun review w' => review.passed = true → (evidence w'.2).review = true) w := by
  -- without candidates the reply is `retry`
  induction candidates generalizing w tried errors with
  | nil =>
    intro hpassed
    have hretry : (lit "retry" == lit "pass") = false := by decide
    exact Bool.noConfusion (hretry.symm.trans hpassed)
  | cons candidate candidates ih =>
    refine attempt_gated (lockless_gated chooseRole_quiet)
      fun (choice : Except Raised Str) w₁ _ => ?_
    -- no role is chosen: the next candidate, or the error
    cases choice with
    | error x => exact Ensures.ite (fun _ => ih) fun _ => trivial
    | ok agentName =>
      refine Ensures.ite (fun _ => ih) fun _ => ?_
      -- the review is noted as evidence when it is heard
      have hreview : ∀ logPath, Gated taskId (do
          let review : ReviewResult ← perform
            (.reviewTask agentName goal task diff gates worktree logPath)
          recordEvent jobId "task.reviewed"
            [(lit "agent", .str agentName), (lit "verdict", .str review.verdict),
              (lit "findings", jsonStrs review.findings)] task.id
          return review)
          (fun review w' => review.passed = true → (evidence w'.2).review = true) w₁ := by
        intro logPath
        have hcall : Gated taskId
            (perform (.reviewTask agentName goal task diff gates worktree logPath))
            (fun (review : ReviewResult) w' =>
              review.passed = true → (evidence w'.2).review = true) w₁ := by
          refine perform_gated trivial fun (review : ReviewResult) w' _ hev hpassed => ?_
          rw [hev]
          exact hpassed
        refine hcall.andThen fun (review : ReviewResult) w₂ hpassed => ?_
        refine (lockless_gated recordEvent_quiet).andThen fun _ w₃ hl heq => ?_
        rw [hl.same.sameWork.review]
        exact hpassed heq
      refine attempt_gated (hreview _) fun reviewed w₂ hpassed => ?_
      cases reviewed with
      | ok review => exact hpassed
      | error x => exact Ensures.ite (fun _ => ih) fun _ => trivial

theorem reviewTaskResilient_gated {task : TaskRow} {goal : Text} {worktree : Str}
    {gates : List GateResult} {attemptNumber : Int} :
    Gated taskId (reviewTaskResilient cfg jobId task goal worktree gates attemptNumber)
      (fun review w' => review.passed = true → (evidence w'.2).review = true) w :=
  (lockless_gated (finishBeforeCancel_lockless trivial diffWorktree_quiet)).andThen fun _ _ _ =>
    reviewLoop_gated

/-- `get_task` answers with a row of the task. -/
theorem getTask_gated :
    Gated taskId (perform (.getTask taskId)) (fun (task : TaskRow) w' =>
      task.id = taskId ∧ Later taskId w w') w := by
  refine ensures_perform.mpr ⟨trivial, fun r w' hstep => ?_⟩
  cases r with
  | error x => trivial
  | ok task =>
    obtain ⟨_, rfl, hok⟩ := storeHandler_operation rfl hstep.1
    obtain ⟨-, row, -, hid, rfl⟩ := getTask_cases hok
    exact ⟨Text.ext hid, quiet_later hstep trivial⟩

/-- The latest attempt is open, its worker's result was ok, and its gates were. -/
structure Evidence.Working (attemptId : Text) (count : Nat) (ev : Evidence) : Prop where
  isOpen : ev.Open attemptId count
  worker : ev.worker = true
  gates : ev.gates = true

theorem Evidence.Working.sameWork {attemptId : Text} {count : Nat} {ev ev' : Evidence}
    (h : ev.Working attemptId count) (hsame : ev.SameWork ev') : ev'.Working attemptId count :=
  ⟨h.isOpen.of_attempts hsame.attempts, hsame.worker.trans h.worker, hsame.gates.trans h.gates⟩

theorem reviewAndIntegrate_gated {attemptId : Text} {count : Nat} {goal : Text}
    {checkout : TaskCheckout} {attemptNumber : Int} {agentName : Str} {gates : List GateResult}
    (hw : (evidence w.2).Working attemptId count) :
    Gated taskId (reviewAndIntegrate cfg jobId taskId attemptId goal checkout cwd attemptNumber
      agentName gates) (AttemptEnd taskId count) w := by
  refine Ensures.andThen (setFree_gated .reviewing rfl (by decide)) fun _ w₁ ⟨_, hev₁⟩ => ?_
  refine getTask_gated.andThen fun task w₂ ⟨_, hl₂⟩ => ?_
  refine (Gated.and reviewTaskResilient_gated
    (review_keeps (makes_of_lockless reviewTaskResilient_calls))).andThen
    fun review w₃ ⟨hpassed, hkept⟩ => ?_
  have hw₂ : (evidence w₂.2).Working attemptId count := by
    rw [← hev₁] at hw
    exact hw.sameWork hl₂.same.sameWork
  have hw₃ : (evidence w₃.2).Working attemptId count :=
    ⟨hw₂.isOpen.of_attempts hkept.1, hkept.2.1.trans hw₂.worker, hkept.2.2.trans hw₂.gates⟩
  refine Ensures.ite (fun hpass => ?_) fun _ => ?_
  · -- an approved attempt
    refine getTask_gated.andThen fun task w₄ ⟨htask, hl₄⟩ => ?_
    have hw₄ := hw₃.sameWork hl₄.same.sameWork
    refine (integrateTask_gated htask hw₄.isOpen ⟨hw₄.worker, hw₄.gates,
      hl₄.same.sameWork.review.trans (hpassed hpass)⟩).andThen fun verdict w₅ hjudged => ?_
    refine Ensures.ite (fun heq => ?_) fun _ => ?_
    · rw [heq] at hjudged
      exact (completeTask_gated hjudged).andThen fun _ _ h => h
    · exact (failAttempt_gated hjudged.isOpen).andThen fun _ _ h => h
  · refine (failAttempt_gated hw₃.isOpen).andThen fun _ w₄ hclosed => ?_
    exact (lockless_gated recordEvent_quiet).andThen fun _ w₅ hl =>
      hclosed.of_attempts hl.same.sameWork.attempts

theorem judgeAttempt_gated {task : TaskRow} {attemptId : Text} {count : Nat} {goal : Text}
    {checkout : TaskCheckout} {attemptNumber : Int} {agentName : Str} {result : AgentResult}
    (htask : task.id = taskId) (hopen : (evidence w.2).Open attemptId count)
    (hworker : (evidence w.2).worker = result.ok)
    (hworking : (evidence w.2).integrating = false) :
    Gated taskId (judgeAttempt cfg jobId task attemptId goal checkout cwd attemptNumber agentName
      result) (AttemptEnd taskId count) w := by
  subst htask
  -- the worker ended well, or the attempt has failed
  refine Ensures.ite (fun hok => ?_) fun _ => ?_
  · refine (lockless_gated (finishBeforeCancel_lockless trivial commitAll_quiet)).andThen
      fun _ w₁ hl₁ => ?_
    have hsame₁ := hl₁.same.sameWork
    -- the gates of the task's worktree
    have hgates : ∀ logPath, Gated task.id (perform (.runGates false checkout.worktree logPath))
        (fun (results : List GateResult) w' => (evidence w'.2).Open attemptId count ∧
          (evidence w'.2).worker = true ∧ (evidence w'.2).gates = allOk results) w₁ := by
      refine fun logPath => perform_gated trivial fun (results : List GateResult) w₂ _ hev => ?_
      rw [hev]
      simp only [observe, Evidence.gateResults, hsame₁.integrating, hworking, Bool.false_eq_true,
        if_false]
      exact ⟨hopen.of_attempts hsame₁.attempts, hsame₁.worker.trans (hworker.trans hok), trivial⟩
    have hrun : Gated task.id (runGates cfg jobId (some task) checkout.worktree false)
        (fun results w' => (evidence w'.2).Open attemptId count ∧
          (evidence w'.2).worker = true ∧ (evidence w'.2).gates = allOk results) w₁ := by
      refine (hgates _).andThen fun results w₂ hmid => ?_
      obtain ⟨hopen₂, hworker₂, hgates₂⟩ := hmid
      refine (lockless_gated recordEvent_quiet).andThen fun _ w₃ hl₃ => ?_
      have hsame₃ := hl₃.same.sameWork
      exact ⟨hopen₂.of_attempts hsame₃.attempts, hsame₃.worker.trans hworker₂,
        hsame₃.gates.trans hgates₂⟩
    refine hrun.andThen fun results w₂ hmid => ?_
    obtain ⟨hopen₂, hworker₂, hgates₂⟩ := hmid
    -- the gates passed, or the attempt has failed
    refine Ensures.ite (fun hall => ?_) fun _ => ?_
    · exact reviewAndIntegrate_gated ⟨hopen₂, hworker₂, hgates₂.trans hall⟩
    · refine (quiet_gated liftExn_makes).andThen fun gatesText w₃ hl₃ => ?_
      refine (failAttempt_gated (hopen₂.of_attempts hl₃.same.sameWork.attempts)).andThen
        fun _ w₄ hclosed => ?_
      exact (lockless_gated recordEvent_quiet).andThen fun _ w₅ hl =>
        hclosed.of_attempts hl.same.sameWork.attempts
  · refine (failAttempt_gated hopen).andThen fun _ w₁ hclosed => ?_
    exact (lockless_gated recordEvent_quiet).andThen fun _ w₂ hl =>
      hclosed.of_attempts hl.same.sameWork.attempts

/-- A new attempt, with nothing said about it. -/
theorem startAttempt_gated {args : NewAttempt} {count : Nat} (hargs : args.taskId = taskId.val)
    (hclosed : (evidence w.2).Closed count) :
    Gated taskId (perform (.startAttempt args)) (fun (attemptId : Text) w' =>
      (evidence w'.2).Open attemptId count ∧ (evidence w'.2).integrating = false) w := by
  refine perform_gated ⟨hargs, hclosed.1⟩ fun attemptId w' _ hev => ?_
  rw [hev]
  exact ⟨⟨_, rfl, hclosed.1, hclosed.2⟩, rfl⟩

/-- What the worker's run says. -/
theorem work_gated {name : Str} {goal : Text} {task : TaskRow} {retryContext : Str}
    {logPath : Str} :
    Ensures (storeHandler taskId).traced (fun e w => Permitted taskId (evidence w.2) e)
      (perform (.runAgent name (.work goal task retryContext) cwd logPath))
      (fun (outcome : Except Raised AgentResult) w' =>
        (evidence w'.2).attempts = (evidence w.2).attempts ∧
        (evidence w'.2).integrating = (evidence w.2).integrating ∧
        ∀ result, outcome = .ok result → (evidence w'.2).worker = result.ok) w := by
  refine ensures_perform.mpr ⟨trivial, fun r w' hstep => ?_⟩
  rw [traced_evidence hstep]
  cases r with
  | ok result =>
    refine ⟨rfl, rfl, fun result' heq => ?_⟩
    cases heq
    rfl
  | error x => exact ⟨rfl, rfl, fun _ heq => by cases heq⟩

theorem attemptTask_gated {goal : Text} {checkout : TaskCheckout} {attemptNumber : Int}
    {retryContext : Str} {count : Nat} (hclosed : (evidence w.2).Closed count) :
    Gated taskId (attemptTask cfg jobId taskId goal checkout cwd attemptNumber retryContext)
      (AttemptEnd taskId count) w := by
  -- before the attempt is opened nothing has been noted of it
  refine (lockless_gated getJob_quiet).andThen fun (job : JobRow) w₁ hl₁ => ?_
  refine Ensures.ite (fun _ => trivial) fun _ => ?_
  refine getTask_gated.andThen fun (task : TaskRow) w₂ ⟨htask, hl₂⟩ => ?_
  refine (lockless_gated chooseWorker_quiet).andThen fun agentName w₃ hl₃ => ?_
  have hclosed₃ := hclosed.of_attempts (hl₁.trans (hl₂.trans hl₃)).same.sameWork.attempts
  refine Ensures.andThen (setFree_gated .running rfl (by decide)) fun _ w₄ ⟨_, hev₄⟩ => ?_
  rw [← hev₄] at hclosed₃
  refine Ensures.andThen (startAttempt_gated rfl hclosed₃)
    fun (attemptId : Text) w₅ ⟨hopen₅, hworking₅⟩ => ?_
  refine (lockless_gated recordEvent_quiet).andThen fun _ w₆ hl₆ => ?_
  have hopen₆ := hopen₅.of_attempts hl₆.same.sameWork.attempts
  have hworking₆ := hl₆.same.sameWork.integrating.trans hworking₅
  -- the attempt is open with no evidence but the worker's result
  refine attempt_gated work_gated fun (outcome : Except Raised AgentResult) w₇
    ⟨hattempts, hintegrating, hworker⟩ => ?_
  have hopen₇ := hopen₆.of_attempts hattempts
  -- an exception other than a cancellation is a failed attempt
  have hfailed : ∀ x : Raised, Gated taskId (do
      let retryContext := lit "Agent launch failed: " ++ x.message
      perform (.finishAttempt attemptId (lit "failed") none retryContext)
      perform (.updateTask taskId
        { state := some (lit TaskState.pending.value), lastError := some retryContext })
      recordEvent jobId "task.agent_error" [(lit "error", .str x.message)] taskId
      return AttemptOutcome.retry retryContext) (AttemptEnd taskId count) w₇ := by
    intro x
    refine (finishAttempt_gated hopen₇).andThen fun _ w₈ ⟨attempts, hev₈, hfailed, hcount⟩ => ?_
    refine Ensures.andThen (setFree_gated .pending rfl (by decide)) fun _ w₉ ⟨_, hev₉⟩ => ?_
    refine (lockless_gated recordEvent_quiet).andThen fun _ w' hl => ?_
    have hclosed : (evidence w₉.2).Closed (count + 1) := by
      rw [hev₉, hev₈]
      exact ⟨Evidence.failed_cons hfailed, by rw [List.length_cons, hcount]⟩
    exact hclosed.of_attempts hl.same.sameWork.attempts
  -- by how the agent ended
  rcases outcome with (_ | message | message | message | message) | result
  · exact (finishAttempt_gated hopen₇).andThen fun _ _ _ => trivial
  · exact hfailed (.mergeConflict message)
  · exact hfailed (.gitError message)
  · exact hfailed (.yoloError message)
  · exact hfailed (.error message)
  · exact judgeAttempt_gated htask hopen₇ (hworker result rfl) (hintegrating.trans hworking₆)

/-- What the loop over the attempts ends with. -/
theorem attemptLoop_gated {goal : Text} {checkout : TaskCheckout} {remaining count : Nat}
    {attemptNumber : Int} {retryContext : Str} (hclosed : (evidence w.2).Closed count) :
    Gated taskId
      (attemptLoop cfg jobId taskId goal checkout cwd remaining attemptNumber retryContext)
      (fun completed w' => if completed = true then
          (∃ failed < count + remaining, (evidence w'.2).Passed failed) ∧
            InState w'.1 taskId .completed
        else (evidence w'.2).Closed (count + remaining)) w := by
  induction remaining generalizing w count attemptNumber retryContext with
  | zero => exact hclosed
  | succ remaining ih =>
    refine (attemptTask_gated hclosed).andThen fun outcome w₁ hend => ?_
    cases outcome with
    | completed => exact ⟨⟨count, by omega, hend.1⟩, hend.2⟩
    | retry retryContext =>
      rw [show count + (remaining + 1) = count + 1 + remaining by omega]
      exact ih hend

/-- What a run of the coroutine ends with. -/
def TaskEnd (taskId : Text) (maxAttempts : Nat) (completed : Bool) (w : GateWorld) : Prop :=
  if completed = true then
    (∃ failed < maxAttempts, (evidence w.2).Passed failed) ∧ InState w.1 taskId .completed
  else (evidence w.2).Closed maxAttempts ∧ InState w.1 taskId .failed

theorem exhaustTask_gated {firstAttempt : Int} {count : Nat}
    (hclosed : (evidence w.2).Closed count) :
    Gated taskId (exhaustTask cfg jobId taskId firstAttempt) (fun _ w' =>
      (evidence w'.2).Closed count ∧ InState w'.1 taskId .failed) w := by
  refine getTask_gated.andThen fun (task : TaskRow) w₁ ⟨_, hl₁⟩ => ?_
  refine Ensures.andThen (setFree_gated .failed rfl (by decide)) fun _ w₂ ⟨hstate, hev₂⟩ => ?_
  refine (lockless_gated recordEvent_quiet).mono fun _ w₃ hl₃ => ⟨?_, hl₃.state _ hstate⟩
  have hclosed₁ := hclosed.of_attempts hl₁.same.sameWork.attempts
  rw [← hev₂] at hclosed₁
  exact hclosed₁.of_attempts hl₃.same.sameWork.attempts

theorem runTaskWithSlot_gated (hw : evidence w.2 = {}) :
    Gated taskId (runTaskWithSlot cfg jobId taskId cwd) (TaskEnd taskId cfg.maxAttempts) w := by
  have hclosed : (evidence w.2).Closed 0 := by
    rw [hw]
    exact ⟨fun _ ha => absurd ha List.not_mem_nil, rfl⟩
  refine getTask_gated.andThen fun (task : TaskRow) w₁ ⟨htask, hl₁⟩ => ?_
  refine (lockless_gated getJob_quiet).andThen fun (job : JobRow) w₂ hl₂ => ?_
  have hsetup : (acquireWorktree cfg jobId task cwd).Makes (Setup taskId) := by
    rw [← htask]
    exact acquireWorktree_setup
  refine (setup_gated hsetup).andThen fun checkout w₃ hl₃ => ?_
  have hclosed₃ := hclosed.of_attempts (hl₁.trans (hl₂.trans hl₃)).same.sameWork.attempts
  refine (attemptLoop_gated hclosed₃).andThen fun completed w₄ hend => ?_
  rw [Nat.zero_add] at hend
  refine Ensures.ite (fun heq => ?_) fun heq => ?_
  · rw [if_pos heq] at hend
    exact hend
  · rw [if_neg heq] at hend
    exact (exhaustTask_gated hend).andThen fun _ w₅ h => h

end Gated

/-! ## Every run -/

/-- The runs of the coroutine of a task, from a store. -/
def taskRuns (cfg : EngineConfig) (jobId taskId : Text) (integrationPath : Str) (start : Store) :
    Lts.System (Coroutine Bool × GateWorld) (Reply Effect Effect.Reply Raised) :=
  system (storeHandler taskId).traced (runTaskWithSlot cfg jobId taskId integrationPath)
    fun w => w = (start, [])

theorem taskRuns_gated {cfg : EngineConfig} {jobId taskId : Text} {integrationPath : Str}
    {start : Store} {c : Coroutine Bool × GateWorld}
    (hc : (taskRuns cfg jobId taskId integrationPath start).Reachable c) :
    Gated taskId c.1 (TaskEnd taskId cfg.maxAttempts) c.2 := by
  refine Ensures.of_reachable (fun w hw => ?_) hc
  rw [hw]
  exact runTaskWithSlot_gated rfl

/-- The attempts of a run are attempts of the task, with their records. -/
theorem taskRuns_tied {cfg : EngineConfig} {jobId taskId : Text} {integrationPath : Str}
    {start : Store} {c : Coroutine Bool × GateWorld}
    (hc : (taskRuns cfg jobId taskId integrationPath start).Reachable c) :
    Tied taskId c.2.1 (evidence c.2.2) := by
  have hstep : ∀ c l c', (taskRuns cfg jobId taskId integrationPath start).Reachable c →
      Tied taskId c.2.1 (evidence c.2.2) →
      (taskRuns cfg jobId taskId integrationPath start).step c l c' →
      Tied taskId c'.2.1 (evidence c'.2.2) := by
    rintro ⟨p, w⟩ ⟨e, r⟩ ⟨p', w'⟩ hreach htied ⟨next, hcall, hhandler, -⟩
    have hgated := taskRuns_gated hreach
    have hcall : p = .call e next := hcall
    subst hcall
    show Tied taskId w'.1 (evidence w'.2)
    rw [traced_evidence hhandler]
    exact htied.step hgated.1 hhandler.1
  refine Lts.System.Reachable.invariant (fun c hinit => ?_) hstep hc
  obtain ⟨-, hstart⟩ := hinit
  rw [hstart]
  exact ⟨List.nodup_nil, fun a ha => absurd ha List.not_mem_nil⟩

/-- What a run that returns has left: the task is completed, after an attempt recorded as
passed; or it has failed, and with it every one of as many attempts as a run may make. -/
def RunEnded (cfg : EngineConfig) (taskId : Text) (completed : Bool) (w : GateWorld) : Prop :=
  FinishedTask w.1 taskId (.returned completed) ∧
    if completed = true then ∃ failed < cfg.maxAttempts, (evidence w.2).Passed failed
    else (evidence w.2).Closed cfg.maxAttempts ∧ ∀ a ∈ (evidence w.2).attempts,
      ∃ row ∈ w.1.attempts, row.id = a.1 ∧ row.taskId = taskId ∧ row.state = .failed

/-- Whatever the agents, the gates, the reviewers and Git reply: the coroutine of a task
makes only the calls for which it has the evidence, every attempt has its records in the
database, and a run that returns has ended as it says. -/
theorem task_acceptance_gate (cfg : EngineConfig) (jobId taskId : Text) (integrationPath : Str)
    (start : Store) {c : Coroutine Bool × GateWorld}
    (hc : (taskRuns cfg jobId taskId integrationPath start).Reachable c) :
    (∀ e next, c.1 = .call e next → Permitted taskId (evidence c.2.2) e) ∧
    Tied taskId c.2.1 (evidence c.2.2) ∧
    (∀ completed, c.1 = .ret completed → RunEnded cfg taskId completed c.2) := by
  have hgated := taskRuns_gated hc
  have htied := taskRuns_tied hc
  obtain ⟨p, w⟩ := c
  refine ⟨?_, htied, ?_⟩
  · rintro e next hcall
    have hcall : p = .call e next := hcall
    subst hcall
    exact hgated.1
  · rintro completed hret
    have hret : p = .ret completed := hret
    subst hret
    have hend : TaskEnd taskId cfg.maxAttempts completed w := hgated
    cases completed with
    | true => exact ⟨hend.2, hend.1⟩
    | false =>
      refine ⟨hend.2, hend.1, fun a ha => ?_⟩
      obtain ⟨row, hrow, hid, hown, hrecorded⟩ := htied.recorded a ha
      refine ⟨row, hrow, hid, hown, ?_⟩
      rw [hend.1.1 a ha] at hrecorded
      have hfailed : AttemptState.ofValue? (lit "failed") = some .failed := by decide
      exact Option.some_inj.mp (hrecorded.1.symm.trans hfailed)

/-! ## Two runs -/

/-- How an attempt goes. -/
inductive Trial where
  | gatesFail
  | rejected
  | integrationFails
  | accepted
deriving DecidableEq, Repr

/-- The identifier of an attempt. -/
def trialAttempt (started : Nat) : Text :=
  Text.lit (if started = 0 then "attempt-1" else "attempt-2")

/-- The gates fail in the worktree of the task, or on the merged candidate. -/
def Trial.gatesFailAt (trial : Trial) (cwd : Str) : Bool :=
  if cwd = lit "/candidate" then trial == .integrationFails else trial == .gatesFail

/-- The database is asked; agents succeed, and the gates and the reviewer do what the trial
says. -/
def trialAnswer (trial : Trial) (s : Store) : (e : Effect) → Except Raised e.Reply × Store
  | .getJob jobId => askStore s (getJob jobId.val)
  | .getTask taskId => askStore s (getTask taskId.val)
  | .updateTask taskId fields => askStore s (updateTask taskId.val fields 7)
  | .startAttempt args => askStore s (startAttempt (trialAttempt s.attempts.rows.length) 7 args)
  | .finishAttempt attemptId state returncode summary =>
    askStore s (finishAttempt attemptId.val state returncode summary 7)
  | .event jobId kind payload taskId =>
    askStore s (dropReply (event jobId.val kind payload (taskId.map Text.val) 7))
  | .available _ => (.ok [lit "claude"], s)
  | .chooseRole candidate _ _ => (.ok candidate, s)
  | .runAgent _ _ _ _ => (.ok ⟨0, lit "done", []⟩, s)
  | .runGates _ cwd _ =>
    (.ok [⟨lit "make test", if trial.gatesFailAt cwd then 2 else 0, [], [], false⟩], s)
  | .reviewTask _ _ _ _ _ _ _ =>
    (.ok { verdict := if trial = .rejected then lit "retry" else lit "pass"
           summary := lit "Reads well", findings := [] }, s)
  | .git _ .head => (.ok (lit "c1"), s)
  | .git _ .isClean => (.ok false, s)
  | .git _ .mergeHeadExists => (.ok false, s)
  | .git _ .unresolved => (.ok [], s)
  | .git _ (.diff _) => (.ok (lit "+x"), s)
  | .git _ (.merge _) => (.ok none, s)
  | .git _ (.assertWorktree _) | .git _ .addAll | .git _ (.commit _) | .git _ .mergeAbort
  | .git _ (.resetHard _) | .git _ .clean => (.ok (), s)
  | .topology (.pathExists _) | .topology (.branchExists _) | .topology (.isSymlink _)
  | .topology (.gitFileExists _) => (.ok false, s)
  | .topology (.validateBranchName _) | .topology (.ensureParent _)
  | .topology (.addNewBranch _ _ _) | .topology (.addWorktree _ _) | .topology .prune
  | .topology (.createBranch _ _) | .topology (.removeWorktree _)
  | .topology (.deleteBranch _) => (.ok (), s)
  | .acquire _ | .release _ | .suspend => (.ok (), s)
  | _ => (.error (.error []), s)

theorem trialAnswer_handler (taskId : Text) (trial : Trial) (s : Store) (e : Effect) :
    storeHandler taskId e s (trialAnswer trial s e).1 (trialAnswer trial s e).2 := by
  cases e with
  | getJob jobId => exact askStore_answers s (getJob jobId.val) rfl
  | getTask id => exact askStore_answers s (getTask id.val) rfl
  | updateTask id fields => exact askStore_answers s (updateTask id.val fields 7) ⟨7, rfl⟩
  | startAttempt args =>
    exact askStore_answers s (startAttempt (trialAttempt s.attempts.rows.length) 7 args) ⟨_, 7, rfl⟩
  | finishAttempt attemptId state returncode summary =>
    exact askStore_answers s (finishAttempt attemptId.val state returncode summary 7) ⟨7, rfl⟩
  | event jobId kind payload id =>
    exact askStore_answers s (dropReply (event jobId.val kind payload (id.map Text.val) 7)) ⟨7, rfl⟩
  | git cwd command => cases command <;> exact .refl taskId s
  | topology command => cases command <;> exact .refl taskId s
  | _ => exact .refl taskId s

/-- The coroutine, after some calls; the trials are those of the attempts started so far. -/
def trialRun (trials : Nat → Trial) :
    Nat → Coroutine Bool × GateWorld → Coroutine Bool × GateWorld
  | calls + 1, (.call e next, w) =>
    let (reply, s) := trialAnswer (trials w.1.attempts.rows.length) w.1 e
    trialRun trials calls (next reply, s, w.2 ++ [⟨e, reply⟩])
  | _, c => c

theorem trialRun_reachable {cfg : EngineConfig} {jobId taskId : Text} {integrationPath : Str}
    {start : Store} (trials : Nat → Trial) {c : Coroutine Bool × GateWorld} (calls : Nat)
    (hc : (taskRuns cfg jobId taskId integrationPath start).Reachable c) :
    (taskRuns cfg jobId taskId integrationPath start).Reachable (trialRun trials calls c) := by
  induction calls generalizing c with
  | zero => exact hc
  | succ calls ih =>
    obtain ⟨p, w⟩ := c
    cases p with
    | ret a => exact hc
    | raise x => exact hc
    | call e next =>
      refine ih (hc.step (l := ⟨e, (trialAnswer (trials w.1.attempts.rows.length) w.1 e).1⟩) ?_)
      exact ⟨next, rfl, ⟨trialAnswer_handler taskId _ w.1 e, rfl⟩, rfl⟩

/-- A job that runs, with a task. -/
def trialJob : StoreDb Unit := do
  let _ ← createJob (Text.lit "job-1") 1
    { repo := lit "/repo", goal := lit "Add the parser", baseBranch := lit "main"
      baseCommit := lit "c0", integrationBranch := lit "yolo/job-1/integration"
      autoApply := false }
  let _ ← addTasks (lit "job-1") (fun _ => Text.lit "task-1") 2
    [{ logicalId := lit "T1", title := lit "Parser", description := lit "Add it" }]
  updateJob (lit "job-1") { state := some (lit "running") } 3

def trialStore : Store :=
  match trialJob Store.empty with
  | .ok _ s => s
  | .error _ s => s

/-- The run of the task in which the attempts go so. -/
def trialEnd (trials : Nat → Trial) (calls : Nat) : Coroutine Bool × GateWorld :=
  trialRun trials calls
    (runTaskWithSlot smallEngine (Text.lit "job-1") (Text.lit "task-1") (lit "/candidate"),
      trialStore, [])

/-- What a coroutine has returned. -/
def returned? : Coroutine Bool → Option Bool
  | .ret completed => some completed
  | _ => none

/-- A first attempt that fails its gates, and a second one that is reviewed, merged and
verified: the task is completed. A first attempt that the reviewer rejects, and a second one that
fails the gates after the merge and their repair: the budget of two attempts is exhausted, and the
task has failed. -/
theorem task_acceptance_gate_trials :
    (∃ c, (taskRuns smallEngine (Text.lit "job-1") (Text.lit "task-1") (lit "/candidate")
        trialStore).Reachable c ∧ c.1 = .ret true ∧
      (evidence c.2.2).attempts.map Prod.snd = [[lit "passed"], [lit "failed"]] ∧
      RunEnded smallEngine (Text.lit "task-1") true c.2) ∧
    ∃ c, (taskRuns smallEngine (Text.lit "job-1") (Text.lit "task-1") (lit "/candidate")
        trialStore).Reachable c ∧ c.1 = .ret false ∧
      (evidence c.2.2).attempts.map Prod.snd = [[lit "failed"], [lit "failed"]] ∧
      RunEnded smallEngine (Text.lit "task-1") false c.2 := by
  have hreturned : ∀ {p : Coroutine Bool} {completed : Bool},
      returned? p = some completed → p = .ret completed := by
    intro p completed h
    cases p with
    | ret a => exact congrArg Program.ret (Option.some.inj h)
    | raise x => cases h
    | call e next => cases h
  have hreach : ∀ trials, (taskRuns smallEngine (Text.lit "job-1") (Text.lit "task-1")
      (lit "/candidate") trialStore).Reachable (trialEnd trials 150) :=
    fun trials => trialRun_reachable trials 150 (Lts.System.reachable_init ⟨rfl, rfl⟩)
  let accepted : Nat → Trial := fun started => if started = 1 then .gatesFail else .accepted
  let undone : Nat → Trial := fun started => if started = 1 then .rejected else .integrationFails
  have haccepted : (returned? (trialEnd accepted 150).1,
      (evidence (trialEnd accepted 150).2.2).attempts.map Prod.snd) =
        (some true, [[lit "passed"], [lit "failed"]]) := by
    decide +kernel
  have hundone : (returned? (trialEnd undone 150).1,
      (evidence (trialEnd undone 150).2.2).attempts.map Prod.snd) =
        (some false, [[lit "failed"], [lit "failed"]]) := by
    decide +kernel
  obtain ⟨htrue, hpassed⟩ := Prod.mk.inj haccepted
  obtain ⟨hfalse, hfailed⟩ := Prod.mk.inj hundone
  obtain ⟨-, -, hcompleted⟩ := task_acceptance_gate smallEngine _ _ _ _ (hreach accepted)
  obtain ⟨-, -, hexhausted⟩ := task_acceptance_gate smallEngine _ _ _ _ (hreach undone)
  exact ⟨⟨_, hreach accepted, hreturned htrue, hpassed, hcompleted true (hreturned htrue)⟩,
    ⟨_, hreach undone, hreturned hfalse, hfailed, hexhausted false (hreturned hfalse)⟩⟩

end OmarchyYolo
