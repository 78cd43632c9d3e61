import OmarchyYolo.JobExecution
import OmarchyYolo.Lib.Stages

/-!
# OmarchyYolo.Finalization — the candidate that a finalization returns

`_finalize` is a program of four stages: the choice of a reviewer, the final gates, the
hierarchical review and a repair. Gates and reviews may fail in any order, and share
one count of cycles and one repair.

* `FinalStage`, `finalStages` — the program of the stages;
* `finalize_eq_interpret` — it is `_finalize`, with a program for each stage;
* `Finalization` — what every run of it has come to;
* `finalStages_comes` — that it has, whatever the stages come to.
-/

namespace OmarchyYolo

open Py PyJson Calls

/-! ## The stages -/

inductive FinalStage where
  /-- The choice of the reviewer. -/
  | reviewer
  /-- `_run_gates`, of a cycle. -/
  | gates (cycle : Nat)
  /-- `_hierarchical_final_review`, and the event about it. -/
  | review (reviewerName : Str) (gates : List GateResult) (cycle : Nat)
  /-- `_repair_integration`: whether an agent has repaired the issue. -/
  | repair (issue : Str)
deriving DecidableEq, Repr

def FinalStage.Reply : FinalStage → Type
  | reviewer => Str
  | gates _ => List GateResult
  | review _ _ _ => ReviewResult
  | repair _ => Bool

/-- A stage with what it has come to. -/
abbrev FinalReply := Calls.Reply FinalStage FinalStage.Reply Raised

/-- A program of stages. -/
abbrev FinalProgram := Program FinalStage FinalStage.Reply Raised

def exhausted : Str := lit "finalization exhausted without a passing audit"

/-- An exception of a function that is no coroutine. -/
def raiseExn {α : Type} : Except Exn α → FinalProgram α
  | .ok a => .ret a
  | .error e => .raise (.ofExn e)

def reviewerStage : FinalProgram Str := Program.perform FinalStage.reviewer

def gatesStage (cycle : Nat) : FinalProgram (List GateResult) :=
  Program.perform (FinalStage.gates cycle)

def reviewStage (reviewerName : Str) (gates : List GateResult) (cycle : Nat) :
    FinalProgram ReviewResult :=
  Program.perform (FinalStage.review reviewerName gates cycle)

def repairStage (issue : Str) : FinalProgram Bool := Program.perform (FinalStage.repair issue)

/-- An agent repairs the issue, or the finalization ends. -/
def repairedOrRaise (issue : Str) (failure : String) : FinalProgram Unit := do
  let repaired ← repairStage issue
  if repaired then return () else .raise (.yoloError (lit failure))

section Stages

variable (maxFinalCycles : Nat)

/-- The loop, over the cycles that are left. -/
def stagesLoop (reviewerName : Str) : List Nat → FinalProgram Str
  | [] => .raise (.yoloError exhausted)
  | cycle :: cycles => do
    let gates ← gatesStage cycle
    if allOk gates then do
      let review ← reviewStage reviewerName gates cycle
      if review.passed then
        return if review.summary = [] then lit "All tasks, gates, and final review passed."
          else review.summary
      else if maxFinalCycles ≤ cycle then .raise (.yoloError (auditFailure review))
      else do
        repairedOrRaise (auditIssue review)
          "final audit requested repairs but no integration agent could complete them"
        stagesLoop reviewerName cycles
    else do
      let gatesText ← raiseExn (formatGates gates)
      let issue := lit "Final repository gates failed:\n" ++ gatesText
      if maxFinalCycles ≤ cycle then .raise (.yoloError issue)
      else do
        repairedOrRaise issue "final gates failed and no integration agent could repair them"
        stagesLoop reviewerName cycles

def finalStages : FinalProgram Str := do
  let reviewerName ← reviewerStage
  stagesLoop maxFinalCycles reviewerName (List.range (maxFinalCycles + 1))

end Stages

/-! ## The stages as programs -/

section Programs

variable (cfg : JobConfig) (jobId : Text) (integrationPath : Str)

def stageProgram : (stage : FinalStage) → JobCoroutine stage.Reply
  | .reviewer => shared (perform (.chooseRole cfg.reviewerAgent cfg.workerAgents .reviewer))
  | .gates cycle => shared (runGates cfg.toEngineConfig jobId none integrationPath true
      (lit "cycle-" ++ decimal cycle))
  | .review reviewerName gates cycle => do
    let review : ReviewResult ← performJob (.finalReview integrationPath gates reviewerName cycle)
    recordJobEvent jobId "final.reviewed" (auditPayload cycle review)
    return review
  | .repair issue => shared (repairIntegration cfg.toEngineConfig jobId integrationPath issue)

theorem interpret_raiseExn {α : Type} (r : Except Exn α) :
    (raiseExn r).interpret (stageProgram cfg jobId integrationPath) = shared (liftExn r) := by
  cases r with
  | ok a => rfl
  | error e => rfl

theorem interpret_reviewerStage : reviewerStage.interpret (stageProgram cfg jobId integrationPath) =
    shared (perform (.chooseRole cfg.reviewerAgent cfg.workerAgents .reviewer)) :=
  Program.interpret_perform _ FinalStage.reviewer

theorem interpret_gatesStage (cycle : Nat) :
    (gatesStage cycle).interpret (stageProgram cfg jobId integrationPath) =
      shared (runGates cfg.toEngineConfig jobId none integrationPath true
        (lit "cycle-" ++ decimal cycle)) :=
  Program.interpret_perform _ (FinalStage.gates cycle)

theorem interpret_reviewStage (reviewerName : Str) (gates : List GateResult) (cycle : Nat) :
    (reviewStage reviewerName gates cycle).interpret (stageProgram cfg jobId integrationPath) =
      (performJob (.finalReview integrationPath gates reviewerName cycle) >>=
        fun review : ReviewResult =>
          recordJobEvent jobId "final.reviewed" (auditPayload cycle review) >>= fun _ =>
            .ret review) :=
  Program.interpret_perform _ (FinalStage.review reviewerName gates cycle)

theorem interpret_repairStage (issue : Str) :
    (repairStage issue).interpret (stageProgram cfg jobId integrationPath) =
      shared (repairIntegration cfg.toEngineConfig jobId integrationPath issue) :=
  Program.interpret_perform _ (FinalStage.repair issue)

theorem interpret_repairedOrRaise (issue : Str) (failure : String) :
    (repairedOrRaise issue failure).interpret (stageProgram cfg jobId integrationPath) =
      repairOrRaise cfg jobId integrationPath issue failure := by
  unfold repairedOrRaise repairOrRaise
  rw [Program.interpret_bind, interpret_repairStage]
  congr 1
  funext repaired
  exact Program.interpret_ite ..

theorem interpret_stagesLoop (reviewerName : Str) (cycles : List Nat) :
    (stagesLoop cfg.maxFinalCycles reviewerName cycles).interpret
        (stageProgram cfg jobId integrationPath) =
      finalizeLoop cfg jobId integrationPath reviewerName cycles := by
  induction cycles with
  | nil => rfl
  | cons cycle cycles ih =>
    -- the rest of a cycle, after a repair
    have hrepair : ∀ issue failure, (repairedOrRaise issue failure >>= fun _ =>
        stagesLoop cfg.maxFinalCycles reviewerName cycles).interpret
          (stageProgram cfg jobId integrationPath) =
        (repairOrRaise cfg jobId integrationPath issue failure >>= fun _ =>
          finalizeLoop cfg jobId integrationPath reviewerName cycles) := by
      intro issue failure
      rw [Program.interpret_bind, interpret_repairedOrRaise, ih]
    unfold stagesLoop finalizeLoop
    rw [Program.interpret_bind, interpret_gatesStage]
    congr 1
    funext gates
    rw [Program.interpret_ite]
    congr 1
    · rw [Program.interpret_bind, interpret_reviewStage]
      refine (Program.bind_assoc _ _ _).trans ?_
      congr 1
      funext review
      refine (Program.bind_assoc _ _ _).trans ?_
      congr 1
      funext _
      show Program.interpret _ (ite _ _ _) = _
      rw [Program.interpret_ite, Program.interpret_ite, hrepair]
      rfl
    · rw [Program.interpret_bind, interpret_raiseExn]
      congr 1
      funext gatesText
      rw [Program.interpret_ite, hrepair]
      rfl

/-- The finalization, by its stages. -/
theorem finalize_eq_interpret : finalize cfg jobId integrationPath =
    (finalStages cfg.maxFinalCycles).interpret (stageProgram cfg jobId integrationPath) := by
  unfold finalStages
  rw [Program.interpret_bind, interpret_reviewerStage]
  unfold finalize
  congr 1
  funext reviewerName
  exact (interpret_stagesLoop ..).symm

end Programs

/-! ## What a finalization has come to -/

def isRepair (stage : FinalReply) : Bool :=
  match stage.1 with
  | .repair _ => true
  | _ => false

/-- The stages of a finalization with at most so many repairs, and its end. -/
structure Finalization (repairs : Nat) (stages : List FinalReply) (r : Except Raised Str) :
    Prop where
  /-- What returns has seen, in its last two stages, all gates of a cycle pass, and then the
  review of the cycle. -/
  verified : ∀ summary, r = .ok summary → ∃ before cycle reviewerName gates review,
    stages = before ++
      [⟨.gates cycle, .ok gates⟩, ⟨.review reviewerName gates cycle, .ok review⟩] ∧
    allOk gates = true ∧ review.passed = true
  bounded : stages.countP isRepair ≤ repairs
  /-- After a repair come the gates again, unless it has failed. -/
  regated : ∀ before issue reply after, stages = before ++ ⟨.repair issue, reply⟩ :: after →
    (after = [] ∧ ∃ x, r = .error x) ∨
      ∃ cycle answer rest, after = ⟨.gates cycle, answer⟩ :: rest
  /-- The loop does not end by itself: only a stage could raise its error. -/
  unexhausted : r = .error (.yoloError exhausted) →
    ∃ before stage, stages = before ++ [⟨stage, .error (.yoloError exhausted)⟩]

/-- Stages without a repair. -/
def Plain (stages : List FinalReply) : Prop := ∀ stage ∈ stages, isRepair stage = false

section Finalization

variable {n : Nat} {pre stages : List FinalReply} {r : Except Raised Str} {x : Raised}
  {issue : Str} {reply : Except Raised Bool}

theorem Plain.countP (h : Plain pre) : pre.countP isRepair = 0 :=
  List.countP_eq_zero.mpr fun stage hstage =>
    Bool.eq_false_iff.mp (h stage hstage)

/-- A repair after stages without one. -/
theorem Plain.split {before after : List FinalReply} (h : Plain pre)
    (heq : pre ++ stages = before ++ ⟨.repair issue, reply⟩ :: after) :
    ∃ middle, stages = middle ++ ⟨.repair issue, reply⟩ :: after := by
  rcases List.append_eq_append_iff.mp heq with ⟨middle, hbefore, hstages⟩ | ⟨middle, hpre, hrest⟩
  · exact ⟨middle, hstages⟩
  · cases middle with
    | nil => exact ⟨[], hrest.symm⟩
    | cons stage middle =>
      obtain ⟨hstage, -⟩ := List.cons_eq_cons.mp hrest
      have hmem : stage ∈ pre := by
        rw [hpre]
        exact List.mem_append_right _ List.mem_cons_self
      have hplain := h stage hmem
      rw [← hstage] at hplain
      cases hplain

/-- Stages without a repair, before a finalization. -/
theorem Finalization.prepend (h : Finalization n stages r) (hpre : Plain pre) :
    Finalization n (pre ++ stages) r where
  verified summary hr := by
    obtain ⟨before, cycle, reviewerName, gates, review, rfl, hverified⟩ := h.verified summary hr
    exact ⟨pre ++ before, cycle, reviewerName, gates, review,
      (List.append_assoc ..).symm, hverified⟩
  bounded := by
    rw [List.countP_append, hpre.countP, Nat.zero_add]
    exact h.bounded
  regated before issue reply after heq := by
    obtain ⟨middle, hmiddle⟩ := hpre.split heq
    exact h.regated middle issue reply after hmiddle
  unexhausted hr := by
    obtain ⟨before, stage, rfl⟩ := h.unexhausted hr
    exact ⟨pre ++ before, stage, (List.append_assoc ..).symm⟩

/-- A repair, before a finalization that goes on with the gates. -/
theorem Finalization.repaired {cycle : Nat} {answer : Except Raised (List GateResult)}
    (h : Finalization n (⟨.gates cycle, answer⟩ :: stages) r) :
    Finalization (n + 1) (⟨.repair issue, reply⟩ :: ⟨.gates cycle, answer⟩ :: stages) r where
  verified summary hr := by
    obtain ⟨before, cycle', reviewerName, gates, review, heq, hverified⟩ := h.verified summary hr
    exact ⟨⟨.repair issue, reply⟩ :: before, cycle', reviewerName, gates, review,
      congrArg (List.cons _) heq, hverified⟩
  bounded := by
    rw [List.countP_cons_of_pos rfl]
    exact Nat.succ_le_succ h.bounded
  regated before issue' reply' after heq := by
    cases before with
    | nil =>
      obtain ⟨-, hafter⟩ := List.cons_eq_cons.mp heq
      exact Or.inr ⟨cycle, answer, stages, hafter.symm⟩
    | cons stage before =>
      obtain ⟨-, hrest⟩ := List.cons_eq_cons.mp heq
      exact h.regated before issue' reply' after hrest
  unexhausted hr := by
    obtain ⟨before, stage, heq⟩ := h.unexhausted hr
    exact ⟨⟨.repair issue, reply⟩ :: before, stage, congrArg (List.cons _) heq⟩

/-- The end of a finalization that raises without a repair. -/
theorem finalization_raised (hplain : Plain stages) (hx : x = .yoloError exhausted →
    ∃ before stage, stages = before ++ [⟨stage, .error (.yoloError exhausted)⟩]) :
    Finalization n stages (.error x) where
  verified summary hr := by cases hr
  bounded := by
    rw [hplain.countP]
    exact Nat.zero_le n
  regated before issue reply after heq := by
    rw [← List.append_nil stages] at heq
    obtain ⟨middle, hmiddle⟩ := hplain.split heq
    exact absurd hmiddle.symm (List.append_ne_nil_of_right_ne_nil _ (List.cons_ne_nil _ _))
  unexhausted hr := hx (Except.error.inj hr)

/-- The end of a finalization that raises after a repair. -/
theorem finalization_unrepaired (hx : x = .yoloError exhausted →
    reply = .error (.yoloError exhausted)) :
    Finalization (n + 1) [⟨.repair issue, reply⟩] (.error x) where
  verified summary hr := by cases hr
  bounded := Nat.succ_le_succ (Nat.zero_le n)
  regated before issue' reply' after heq := by
    left
    refine ⟨?_, x, rfl⟩
    cases before with
    | nil => exact (List.cons_eq_cons.mp heq).2.symm
    | cons stage before =>
      obtain ⟨-, hrest⟩ := List.cons_eq_cons.mp heq
      exact absurd hrest.symm (List.append_ne_nil_of_right_ne_nil _ (List.cons_ne_nil _ _))
  unexhausted hr := by
    rw [hx (Except.error.inj hr)]
    exact ⟨[], .repair issue, rfl⟩

theorem Finalization.mono {m : Nat} (h : Finalization n stages r) (hle : n ≤ m) :
    Finalization m stages r where
  verified := h.verified
  bounded := h.bounded.trans hle
  regated := h.regated
  unexhausted := h.unexhausted

/-- The gates of a cycle, all of which have passed, and the review that has passed. -/
theorem finalization_verified {cycle : Nat} {reviewerName : Str} {gates : List GateResult}
    {review : ReviewResult} (hgates : allOk gates = true) (hreview : review.passed = true)
    {summary : Str} : Finalization 0
      [⟨.gates cycle, .ok gates⟩, ⟨.review reviewerName gates cycle, .ok review⟩]
      (.ok summary) where
  verified _ _ := ⟨[], cycle, reviewerName, gates, review, rfl, hgates, hreview⟩
  bounded := Nat.zero_le 0
  regated before issue reply after heq := by
    have hplain : Plain [⟨.gates cycle, .ok gates⟩,
        ⟨.review reviewerName gates cycle, .ok review⟩] := by
      intro stage hstage
      rcases List.mem_cons.mp hstage with rfl | hstage
      · rfl
      · rw [List.mem_singleton.mp hstage]
        rfl
    have hmem : (⟨.repair issue, reply⟩ : FinalReply) ∈ [(⟨.gates cycle, .ok gates⟩ : FinalReply),
        ⟨.review reviewerName gates cycle, .ok review⟩] := by
      rw [heq]
      exact List.mem_append_right _ List.mem_cons_self
    exact absurd (hplain _ hmem) (Ne.symm Bool.false_ne_true)
  unexhausted hr := by cases hr

end Finalization

/-! ## Every run -/

section Runs

variable {maxFinalCycles : Nat} {reviewerName : Str} {stages : List FinalReply}
  {r : Except Raised Str}

/-- A repair, and what comes after it. -/
structure Repairing (next : FinalProgram Str) (issue : Str) (reply : Except Raised Bool)
    (last : List FinalReply) (r : Except Raised Str) : Prop where
  goesOn : reply = .ok true → next.Comes last r
  ends : reply ≠ .ok true → last = [] ∧ ∃ x, r = .error x ∧
    (x = .yoloError exhausted → reply = .error (.yoloError exhausted))

theorem repairedOrRaise_comes {next : FinalProgram Str} {issue : Str} {failure : String}
    (hfailure : lit failure ≠ exhausted)
    (h : (repairedOrRaise issue failure >>= fun _ => next).Comes stages r) :
    ∃ reply last, stages = ⟨.repair issue, reply⟩ :: last ∧ Repairing next issue reply last r := by
  unfold repairedOrRaise at h
  rw [Program.bind_assoc] at h
  obtain ⟨reply, last, rfl, hlast⟩ :=
    (Program.comes_perform_bind (e := FinalStage.repair issue)).mp h
  refine ⟨reply, last, rfl, ?_⟩
  match reply, hlast with
  | .ok true, hlast => exact ⟨fun _ => hlast, fun hne => absurd rfl hne⟩
  | .ok false, hlast =>
    obtain ⟨rfl, rfl⟩ := hlast
    refine ⟨fun heq => ?_, fun _ => ⟨rfl, _, rfl, fun heq => ?_⟩⟩
    · cases heq
    · exact absurd (Raised.yoloError.inj heq) hfailure
  | .error x, hlast =>
    obtain ⟨rfl, rfl⟩ := hlast
    refine ⟨fun heq => ?_, fun _ => ⟨rfl, x, rfl, fun heq => congrArg _ heq⟩⟩
    cases heq

/-- The error of the loop's end begins otherwise than the ones before it. -/
theorem auditFailure_ne (review : ReviewResult) : auditFailure review ≠ exhausted := by
  intro heq
  have hprefix : lit "final " = lit "finali" := congrArg (List.take 6) heq
  exact absurd hprefix (by decide)

theorem gatesIssue_ne (gatesText : Str) :
    lit "Final repository gates failed:\n" ++ gatesText ≠ exhausted := by
  intro heq
  have hprefix : lit "Final " = lit "finali" := congrArg (List.take 6) heq
  exact absurd hprefix (by decide)

/-- A text with a lone surrogate is what `format_gates` may raise about. -/
theorem formatGates_error {gates : List GateResult} {e : Exn} (h : formatGates gates = .error e) :
    Raised.ofExn e ≠ .yoloError exhausted := by
  unfold formatGates truncateUtf8 utf8Bytes at h
  split at h
  · simp only [bind, Except.bind, pure, Except.pure] at h
    split at h
    · cases h
    · cases h
  · cases h
    exact nofun

/-- One cycle: it ends the finalization, or comes to a repair. -/
theorem cycle_comes {cycle : Nat} {cycles : List Nat}
    (h : (stagesLoop maxFinalCycles reviewerName (cycle :: cycles)).Comes stages r) :
    (∃ answer rest, stages = ⟨.gates cycle, answer⟩ :: rest) ∧
      (Finalization 0 stages r ∨ cycle < maxFinalCycles ∧ ∃ pre issue reply last,
        Plain pre ∧ stages = pre ++ ⟨.repair issue, reply⟩ :: last ∧
        Repairing (stagesLoop maxFinalCycles reviewerName cycles) issue reply last r) := by
  -- the gates answer first, and what follows depends on them
  obtain ⟨answer, rest, rfl, hrest⟩ :=
    (Program.comes_perform_bind (e := FinalStage.gates cycle)).mp h
  refine ⟨⟨answer, rest, rfl⟩, ?_⟩
  have hgates : Plain [(⟨.gates cycle, answer⟩ : FinalReply)] := by
    intro stage hstage
    rw [List.mem_singleton.mp hstage]
    rfl
  -- the gates raise: the finalization ends with their error
  cases answer with
  | error x =>
    obtain ⟨rfl, rfl⟩ := hrest
    exact Or.inl (finalization_raised hgates fun heq => ⟨[], .gates cycle, by rw [heq]; rfl⟩)
  | ok gates =>
    have hrest : Program.Comes (ite _ _ _) rest r := hrest
    -- the gates pass: the review is asked
    by_cases hok : allOk gates = true
    · rw [if_pos hok] at hrest
      obtain ⟨answer, last, rfl, hlast⟩ :=
        (Program.comes_perform_bind (e := FinalStage.review reviewerName gates cycle)).mp hrest
      have hboth : Plain [(⟨.gates cycle, .ok gates⟩ : FinalReply),
          ⟨.review reviewerName gates cycle, answer⟩] := by
        intro stage hstage
        rcases List.mem_cons.mp hstage with rfl | hstage
        · rfl
        · rw [List.mem_singleton.mp hstage]
          rfl
      -- the review raises
      cases answer with
      | error x =>
        obtain ⟨rfl, rfl⟩ := hlast
        exact Or.inl (finalization_raised hboth fun heq =>
          ⟨[⟨.gates cycle, .ok gates⟩], .review reviewerName gates cycle, by rw [heq]; rfl⟩)
      | ok review =>
        have hlast : Program.Comes (ite _ _ _) last r := hlast
        -- it passes: the candidate is verified
        by_cases hpassed : review.passed = true
        · rw [if_pos hpassed] at hlast
          obtain ⟨rfl, rfl⟩ := hlast
          exact Or.inl (finalization_verified hok hpassed)
        rw [if_neg hpassed] at hlast
        -- it fails: out of cycles the audit failure is raised, else a repair follows
        by_cases hmax : maxFinalCycles ≤ cycle
        · rw [if_pos hmax] at hlast
          obtain ⟨rfl, rfl⟩ := hlast
          exact Or.inl (finalization_raised hboth fun heq =>
            absurd (Raised.yoloError.inj heq) (auditFailure_ne review))
        · rw [if_neg hmax] at hlast
          obtain ⟨reply, last, rfl, hrepairing⟩ := repairedOrRaise_comes (by decide) hlast
          exact Or.inr ⟨Nat.lt_of_not_le hmax, _, _, reply, last, hboth, rfl, hrepairing⟩
    -- a gate fails: its report goes into the issue
    · rw [if_neg hok] at hrest
      cases htext : formatGates gates with
      | error e =>
        rw [htext] at hrest
        obtain ⟨rfl, rfl⟩ := hrest
        exact Or.inl (finalization_raised hgates fun heq =>
          absurd heq (formatGates_error htext))
      | ok gatesText =>
        rw [htext] at hrest
        have hrest : Program.Comes (ite _ _ _) rest r := hrest
        -- out of cycles the issue is raised, else a repair follows
        by_cases hmax : maxFinalCycles ≤ cycle
        · rw [if_pos hmax] at hrest
          obtain ⟨rfl, rfl⟩ := hrest
          exact Or.inl (finalization_raised hgates fun heq =>
            absurd (Raised.yoloError.inj heq) (gatesIssue_ne gatesText))
        · rw [if_neg hmax] at hrest
          obtain ⟨reply, last, rfl, hrepairing⟩ := repairedOrRaise_comes (by decide) hrest
          exact Or.inr ⟨Nat.lt_of_not_le hmax, _, _, reply, last, hgates, rfl, hrepairing⟩

/-- The loop over the cycles from `k` on. -/
theorem stagesLoop_comes {n k : Nat} (hk : k + n = maxFinalCycles)
    (h : (stagesLoop maxFinalCycles reviewerName (List.range' k (n + 1))).Comes stages r) :
    Finalization n stages r := by
  induction n generalizing k stages with
  | zero =>
    obtain ⟨-, hfinal | ⟨hlt, -⟩⟩ := cycle_comes h
    · exact hfinal
    · exact absurd hlt (by omega)
  | succ n ih =>
    obtain ⟨-, hfinal | ⟨-, pre, issue, reply, last, hpre, rfl, hrepairing⟩⟩ := cycle_comes h
    · exact hfinal.mono (Nat.zero_le _)
    refine Finalization.prepend ?_ hpre
    by_cases hreply : reply = .ok true
    · have hnext := hrepairing.goesOn hreply
      obtain ⟨⟨answer, rest, rfl⟩, -⟩ := cycle_comes hnext
      exact (ih (by omega) hnext).repaired
    · obtain ⟨rfl, x, rfl, hx⟩ := hrepairing.ends hreply
      exact finalization_unrepaired hx

/-- Whatever the stages come to. -/
theorem finalStages_comes (h : (finalStages maxFinalCycles).Comes stages r) :
    Finalization maxFinalCycles stages r := by
  obtain ⟨answer, rest, rfl, hrest⟩ := (Program.comes_perform_bind (e := FinalStage.reviewer)).mp h
  have hreviewer : Plain [(⟨.reviewer, answer⟩ : FinalReply)] := by
    intro stage hstage
    rw [List.mem_singleton.mp hstage]
    rfl
  cases answer with
  | error x =>
    obtain ⟨rfl, rfl⟩ := hrest
    exact finalization_raised hreviewer fun heq => ⟨[], .reviewer, by rw [heq]; rfl⟩
  | ok reviewerName =>
    have hloop : (stagesLoop maxFinalCycles reviewerName
        (List.range (maxFinalCycles + 1))).Comes rest r := hrest
    rw [List.range_eq_range'] at hloop
    exact (stagesLoop_comes (Nat.zero_add _) hloop).prepend hreviewer

end Runs

/-- Every run of the finalization is one of its stages, each of which makes its own calls; and
it returns only what has passed the gates and then the review of one cycle, after the last
repair, of which there are no more than configured. -/
theorem finalize_verifies (cfg : JobConfig) (jobId : Text) (integrationPath : Str)
    (calls : List (Calls.Reply JobEffect JobEffect.Reply Raised)) (r : Except Raised Str)
    (h : (finalize cfg jobId integrationPath).Comes calls r) :
    ∃ stages, Program.Staged (stageProgram cfg jobId integrationPath) stages calls ∧
      Finalization cfg.maxFinalCycles stages r := by
  rw [finalize_eq_interpret] at h
  obtain ⟨stages, hstages, hstaged⟩ := h.stages
  exact ⟨stages, hstaged, finalStages_comes hstages⟩

/-- A gate that fails. -/
def brokenGate : GateResult where
  command    := lit "make test"
  returncode := 2
  stdout     := []
  stderr     := lit "1 failed"

/-- The same gate, after a repair. -/
def repairedGate : GateResult := { brokenGate with returncode := 0, stderr := [] }

/-- The job that is finalized. -/
def finalJob : JobRow where
  id                := Text.lit "job_1"
  repo              := Text.lit "/src"
  goal              := Text.lit "Add the parser"
  state             := .running
  baseBranch        := Text.lit "main"
  baseCommit        := Text.lit "c0"
  integrationBranch := Text.lit "yolo/job_1/integration"
  createdAt         := 1
  updatedAt         := 1

/-- A finalization whose first gates fail; an agent repairs the candidate, which then passes the
gates and the review of the next cycle. -/
theorem finalize_verifies_repaired :
    ∃ calls stages,
      (finalize smallRunner (Text.lit "job_1") (lit "/w")).Comes calls (.ok (lit "fine")) ∧
        Program.Staged (stageProgram smallRunner (Text.lit "job_1") (lit "/w")) stages
          calls ∧ Finalization 2 stages (.ok (lit "fine")) := by
  have hrun : ∃ calls, (finalize smallRunner (Text.lit "job_1") (lit "/w")).Comes calls
      (.ok (lit "fine")) :=
    ⟨_, .ok (lit "codex"), _, rfl,
      -- the gates of cycle 0
      .ok [brokenGate], _, rfl, .ok (), _, rfl,
      -- the repair, and its commit
      .ok (lit "claude"), _, rfl, .ok finalJob, _, rfl,
      .ok { returncode := 0, stdout := lit "done", stderr := [] }, _, rfl, .ok (), _, rfl,
      .ok false, _, rfl, .ok (), _, rfl, .ok (), _, rfl, .ok (lit "c2"), _, rfl, .ok (), _, rfl,
      .ok (), _, rfl,
      -- the gates and the review of cycle 1
      .ok [repairedGate], _, rfl, .ok (), _, rfl,
      .ok { verdict := lit "pass", summary := lit "fine" }, _, rfl, .ok (), [], rfl, rfl, rfl⟩
  rcases hrun with ⟨calls, hrun⟩
  obtain ⟨stages, hstaged, hfinal⟩ := finalize_verifies smallRunner (Text.lit "job_1")
    (lit "/w") calls _ hrun
  exact ⟨calls, stages, hrun, hstaged, hfinal⟩

end OmarchyYolo
