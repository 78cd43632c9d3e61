import OmarchyYolo.StoreInvariants

/-!
# OmarchyYolo.AcceptanceFrozen — what acceptance freezes

Once the acceptance of a job has begun, its metadata, its dossier, its tasks and
its attempts stay as they are, whatever operations follow with whatever
arguments, with one exception: `publish_completed_job` writes the final summary
it is given.

* `Store.Frozen` — a job and its rows in a store, and in a later one;
* `accepted_metadata_frozen` — the frozen stores are those of the runs that
  publish the summary of the journal.
-/

namespace OmarchyYolo

open Py PyJson Sql Txn Lts

/-- The phases acceptance can go on to. -/
def laterPhases : AcceptancePhase → List AcceptancePhase
  | .none => []
  | .accepted => [.accepted, .applying, .published]
  | .applying => [.applying, .published]
  | .published => [.published]

theorem mem_laterPhases_self {phase : AcceptancePhase} (h : phase ≠ .none) :
    phase ∈ laterPhases phase := by
  cases phase with
  | none => exact absurd rfl h
  | accepted => decide
  | applying => decide
  | published => decide

theorem laterPhases_trans {a b c : AcceptancePhase} (hb : b ∈ laterPhases a)
    (hc : c ∈ laterPhases b) : c ∈ laterPhases a := by
  revert hb hc
  cases a <;> cases b <;> cases c <;> decide

theorem laterPhases_ne_none {a b : AcceptancePhase} (h : b ∈ laterPhases a) : b ≠ .none := by
  revert h
  cases a <;> cases b <;> decide

/-- A dossier, but for its publication. -/
structure DossierRow.Same (d d' : DossierRow) : Prop where
  jobId : d'.jobId = d.jobId
  schemaVersion : d'.schemaVersion = d.schemaVersion
  digest : d'.sha256 = d.sha256
  content : d'.content = d.content

theorem DossierRow.Same.trans {d d' d'' : DossierRow} (h : d.Same d') (h' : d'.Same d'') :
    d.Same d'' :=
  ⟨h'.jobId.trans h.jobId, h'.schemaVersion.trans h.schemaVersion, h'.digest.trans h.digest,
    h'.content.trans h.content⟩

/-- The job of `s` has gone on to the job of `s'` as acceptance allows. -/
structure Store.Frozen (s : Store) (j : JobRow) (s' : Store) (j' : JobRow) : Prop where
  id : j'.id = j.id
  phase : j'.acceptancePhase ∈ laterPhases j.acceptancePhase
  origin : j.SameOrigin j'
  acceptance : j.SameAcceptance j'
  summary : j'.finalSummary = j.finalSummary
  dossier : ∀ d ∈ s.dossiers, d.jobId = j.id → ∃ d' ∈ s'.dossiers, d.Same d'
  staged : ∀ d' ∈ s'.dossiers, d'.jobId = j.id → ∃ d ∈ s.dossiers, d.Same d'
  tasks : ∀ t : TaskRow, t.jobId = j.id → (t ∈ s'.tasks ↔ t ∈ s.tasks)
  attempts : ∀ a : AttemptRow, a.jobId = j.id → (a ∈ s'.attempts ↔ a ∈ s.attempts)

variable {s t s' : Store}

theorem Store.Frozen.refl {j : JobRow} (hphase : j.acceptancePhase ≠ .none) : s.Frozen j s j where
  id := rfl
  phase := mem_laterPhases_self hphase
  origin := .refl j
  acceptance := .refl j
  summary := rfl
  dossier d hd _ := ⟨d, hd, rfl, rfl, rfl, rfl⟩
  staged d hd _ := ⟨d, hd, rfl, rfl, rfl, rfl⟩
  tasks _ _ := Iff.rfl
  attempts _ _ := Iff.rfl

theorem Store.Frozen.trans {j j' j'' : JobRow} (h : s.Frozen j t j') (h' : t.Frozen j' s' j'') :
    s.Frozen j s' j'' where
  id := h'.id.trans h.id
  phase := laterPhases_trans h.phase h'.phase
  origin :=
    ⟨h'.origin.repo.trans h.origin.repo, h'.origin.goal.trans h.origin.goal,
      h'.origin.baseBranch.trans h.origin.baseBranch,
      h'.origin.baseCommit.trans h.origin.baseCommit,
      h'.origin.integrationBranch.trans h.origin.integrationBranch,
      h'.origin.createdAt.trans h.origin.createdAt⟩
  acceptance :=
    ⟨h'.acceptance.acceptedCommit.trans h.acceptance.acceptedCommit,
      h'.acceptance.sourceApplyIntent.trans h.acceptance.sourceApplyIntent,
      h'.acceptance.autoApply.trans h.acceptance.autoApply,
      h'.acceptance.integrationPath.trans h.acceptance.integrationPath⟩
  summary := h'.summary.trans h.summary
  dossier d hd hown := by
    obtain ⟨d', hd', hsame⟩ := h.dossier d hd hown
    obtain ⟨d'', hd'', hsame'⟩ := h'.dossier d' hd' ((hsame.jobId.trans hown).trans h.id.symm)
    exact ⟨d'', hd'', hsame.trans hsame'⟩
  staged d'' hd'' hown := by
    obtain ⟨d', hd', hsame'⟩ := h'.staged d'' hd'' (hown.trans h.id.symm)
    obtain ⟨d, hd, hsame⟩ := h.staged d' hd' (hsame'.jobId.symm.trans hown)
    exact ⟨d, hd, hsame.trans hsame'⟩
  tasks u hown := (h'.tasks u (hown.trans h.id.symm)).trans (h.tasks u hown)
  attempts a hown := (h'.attempts a (hown.trans h.id.symm)).trans (h.attempts a hown)

/-! ## One operation -/

variable {sha256 : Str → Str} {published : Text → Str → Prop}

/-- A job that is accepted goes on as acceptance allows. -/
theorem JobRow.PhaseStep.later {j j' : JobRow} (h : j.PhaseStep published j')
    (hphase : j.acceptancePhase ≠ .none) :
    j'.acceptancePhase ∈ laterPhases j.acceptancePhase ∧ j.SameAcceptance j' ∧
      (j'.finalSummary = j.finalSummary ∨ published j.id j'.finalSummary.val) := by
  cases h with
  | opened before => exact absurd before hphase
  | accepted before => exact absurd before hphase
  | kept before after same summary =>
    rw [after]
    exact ⟨mem_laterPhases_self hphase, same, Or.inl summary⟩
  | applying before after intent same summary =>
    rw [after, before]
    exact ⟨by decide, same, Or.inl summary⟩
  | publish before after same summary =>
    refine ⟨?_, same, Or.inr summary⟩
    rcases validatePublication_ok before with ⟨-, hbefore, -⟩ | ⟨-, hbefore, -⟩
    · rw [after, hbefore]
      decide
    · rw [after, hbefore]
      decide

/-- An accepted job is not open. -/
theorem Store.not_open {j : JobRow} (hj : j ∈ s.jobs) (hphase : j.acceptancePhase ≠ .none) :
    ¬ s.Open j.id := by
  rintro ⟨j', hj', hid, hopen⟩
  rw [Store.eq_of_id hj' hj hid] at hopen
  exact hphase hopen

/-- Progress keeps what acceptance has frozen, if it keeps the summary. -/
theorem Progress.frozen (h : Progress sha256 s.Open published s s') {j : JobRow} (hj : j ∈ s.jobs)
    (hphase : j.acceptancePhase ≠ .none)
    (hsummary : ∀ summary, published j.id summary → summary = j.finalSummary.val) :
    ∃ j' ∈ s'.jobs, s.Frozen j s' j' := by
  have hopen := Store.not_open hj hphase
  obtain ⟨j', hj', hkey, horigin, hstep⟩ := h.jobs.forward hj
  obtain ⟨hlater, hsame, hkept⟩ := hstep.later hphase
  refine ⟨j', hj', hkey, hlater, horigin, hsame, ?_, ?_, ?_, ?_, ?_⟩
  -- the summary is the one that was journaled, or the one of this publication
  · rcases hkept with hkept | hpublished
    · exact hkept
    · exact Text.ext (hsummary _ hpublished)
  -- `dossier`: each dossier of the job is still there, at most published by the step
  · intro d hd hown
    obtain ⟨d', hd', -, hmove⟩ := h.dossiers.forward hd
    refine ⟨d', hd', ?_⟩
    rcases hmove with ⟨hin, -⟩ | ⟨-, rfl⟩ | rfl
    -- a dossier that is staged belongs to a job that is open, and this one is accepted
    · rw [hown] at hin
      exact absurd hin hopen
    · exact ⟨rfl, rfl, rfl, rfl⟩
    · exact ⟨rfl, rfl, rfl, rfl⟩
  -- `staged`: each dossier of the job was there before
  · intro d' hd' hown
    rcases h.dossiers.backward hd' with ⟨d, hd, hkey, hmove⟩ | ⟨hin, -⟩
    · refine ⟨d, hd, ?_⟩
      rcases hmove with ⟨hin, -⟩ | ⟨-, rfl⟩ | rfl
      · have hjob : d'.jobId = d.jobId := hkey
        rw [← hjob, hown] at hin
        exact absurd hin hopen
      · exact ⟨rfl, rfl, rfl, rfl⟩
      · exact ⟨rfl, rfl, rfl, rfl⟩
    -- a new dossier belongs to an open job
    · rw [hown] at hin
      exact absurd hin hopen
  -- the tasks: rewritten rows and new ones are of open jobs
  · intro u hown
    cases h.tasks with
    | rewritten rows =>
      constructor
      -- a row after the step comes from one before
      · intro hu
        rcases rows.backward hu with ⟨u₀, hu₀, hkey, -, hin | rfl⟩ | hfalse
        · have hjob : u.jobId = u₀.jobId := congrArg (fun k => k.2.1) hkey
          rw [← hjob, hown] at hin
          exact absurd hin hopen
        · exact hu₀
        · exact hfalse.elim
      -- a row before the step is still there
      · intro hu
        obtain ⟨u', hu', -, -, hin | rfl⟩ := rows.forward hu
        · rw [hown] at hin
          exact absurd hin hopen
        · exact hu'
    | planned owner added job rows own =>
      rw [← Table.mem_rows, rows, List.mem_append]
      refine ⟨fun hu => hu.resolve_right ?_, Or.inl⟩
      -- planned tasks are added to a job that is open
      intro hu
      rw [← own u hu, hown] at job
      exact hopen job
  -- the attempts: closed ones and new ones are of open jobs
  · intro a hown
    cases h.attempts with
    | closed rows =>
      constructor
      · intro ha
        rcases rows.backward ha with ⟨a₀, ha₀, hkey, ⟨hin, -⟩ | rfl⟩ | hfalse
        · have hjob : a.jobId = a₀.jobId := congrArg (fun k => k.2.1) hkey
          rw [← hjob, hown] at hin
          exact absurd hin hopen
        · exact ha₀
        · exact hfalse.elim
      -- an attempt before the step is still there
      · intro ha
        obtain ⟨a', ha', -, ⟨hin, -⟩ | rfl⟩ := rows.forward ha
        · rw [hown] at hin
          exact absurd hin hopen
        · exact ha'
    | started attempt job running unfinished only row =>
      rw [Table.mem_insert? row]
      refine ⟨fun ha => ha.resolve_right ?_, Or.inl⟩
      -- an attempt is started for a job that is open
      rintro rfl
      rw [hown] at job
      exact hopen job

/-! ## Runs -/

variable {F : Type} [PyFloat F]

/-- An operation that publishes a job, if at all, with this summary. -/
def Operation.PublishesOnly (jobId : Text) (summary : Str) (s : Store) (op : Operation F) : Prop :=
  ∀ other, op.Publishes s jobId other → other = summary

/-- A publication writes its summary to the job. -/
theorem publishes_writes {op : Operation F} {jobId : Text} {summary : Str}
    (h : op.run sha256 s = .ok () s') (hpublishes : op.Publishes s jobId summary) :
    ∃ j' ∈ s'.jobs, j'.id = jobId ∧ j'.finalSummary.val = summary := by
  cases op with
  | call c =>
    cases c with
    | publishCompletedJob id args now =>
      obtain ⟨rfl, rfl, j, hj, rfl, hopen⟩ := hpublishes
      obtain ⟨job, hjob, _, -, outcome, hid, -, -, -, hcases⟩ := publishCompletedJob_cases sha256 h
      have heq := Store.eq_of_id hjob hj (Text.ext hid)
      rw [heq] at hcases
      rcases hcases with ⟨hcompleted, -⟩ | ⟨-, hpublish⟩
      · exact absurd hcompleted hopen
      · obtain ⟨j', hj', hid', -, hsummary⟩ := hpublish.completed hj
        exact ⟨j', hj', hid', hsummary⟩
    | _ => exact hpublishes.elim
  | _ => exact hpublishes.elim

/-- The metadata of an accepted job, its dossier, its tasks and its attempts are
frozen in every run whose publications of the job carry the summary of the journal,
and in no run that such a publication with another summary ends. -/
theorem accepted_metadata_frozen (h : (database F sha256).Reachable s) {j : JobRow}
    (hj : j ∈ s.jobs) (hphase : j.acceptancePhase ≠ .none) :
    (∀ t, ((database F sha256).restrict fun t op =>
        op.PublishesOnly j.id j.finalSummary.val t).Steps s t → ∃ j' ∈ t.jobs, s.Frozen j t j') ∧
      ∀ t (op : Operation F) t', (database F sha256).Steps s t → op.run sha256 t = .ok () t' →
        ¬ op.PublishesOnly j.id j.finalSummary.val t → ¬ ∃ j' ∈ t'.jobs, s.Frozen j t' j' := by
  constructor
  · intro t hsteps
    induction hsteps with
    | refl => exact ⟨j, hj, .refl hphase⟩
    | @tail t u hbefore hlast ih =>
      obtain ⟨op, hstep, honly⟩ := hlast
      obtain ⟨j', hj', hfrozen⟩ := ih
      have hsound := reachable_sound (h.steps (System.restrict_steps hbefore))
      obtain ⟨published, hprogress, hpublishes⟩ := op.run_progress hsound.valid hstep
      -- the summary that is published is the one of the journal
      obtain ⟨j'', hj'', hfrozen'⟩ := hprogress.frozen hj' (laterPhases_ne_none hfrozen.phase) <| by
        intro summary hsummary
        have hnamed := hpublishes _ _ hsummary
        rw [hfrozen.id] at hnamed
        rw [honly summary hnamed, hfrozen.summary]
      exact ⟨j'', hj'', hfrozen.trans hfrozen'⟩
  · rintro t op t' - hstep hother ⟨j', hj', hfrozen⟩
    apply hother
    intro summary hpublishes
    obtain ⟨j'', hj'', hid, hsummary⟩ := publishes_writes hstep hpublishes
    rw [← hsummary, Store.eq_of_id hj'' hj' (hid.trans hfrozen.id.symm), hfrozen.summary]

/-- A stop request that comes too late. -/
def demoStop : Operation NonFinite := .call (.requestStop (lit "job-1") 5 6)

/-- A late stop request leaves what acceptance has frozen. -/
theorem accepted_metadata_frozen_stop :
    ∃ s t, runOperations demoDigest demoAccepted Store.empty = some s ∧
      runOperations demoDigest [demoStop] s = some t ∧
      ∃ j ∈ s.jobs, ∃ j' ∈ t.jobs, s.Frozen j t j' := by
  have hrun : ((runOperations demoDigest demoAccepted Store.empty).bind fun s =>
      (runOperations demoDigest [demoStop] s).map fun _ =>
        s.jobs.rows.map JobRow.acceptancePhase) = some [.accepted] := by
    decide +kernel
  obtain ⟨s, hs, hrun⟩ := Option.bind_eq_some_iff.mp hrun
  obtain ⟨t, ht, hphases⟩ := Option.map_eq_some_iff.mp hrun
  obtain ⟨j, hj, hphase⟩ := List.mem_map.mp
    (hphases ▸ List.mem_singleton.mpr rfl :
      AcceptancePhase.accepted ∈ s.jobs.rows.map JobRow.acceptancePhase)
  have hopen : j.acceptancePhase ≠ .none := by
    rw [hphase]
    decide
  have hstep := run_of_runOperations ht
  obtain ⟨hfrozen, -⟩ := accepted_metadata_frozen (runOperations_reachable hs) hj hopen
  exact ⟨s, t, hs, ht, j, hj, hfrozen t (.single ⟨demoStop, hstep, fun _ => False.elim⟩)⟩

/-- Publication replaces the summary that acceptance has journaled. -/
theorem publication_replaces_summary :
    ∃ s t, (database NonFinite demoDigest).Reachable s ∧
      (database NonFinite demoDigest).Steps s t ∧
      ∃ j ∈ s.jobs, j.acceptancePhase ≠ .none ∧ ¬ ∃ j' ∈ t.jobs, s.Frozen j t j' := by
  have hrun : ((runOperations demoDigest demoAccepted Store.empty).bind fun s =>
      (runOperations demoDigest [demoPublication] s).map fun t =>
        (s.jobs.rows.map fun j => (j.acceptancePhase, j.finalSummary),
          t.jobs.rows.map JobRow.finalSummary)) =
      some ([(.accepted, Text.lit "Added the parser")], [Text.lit "Done"]) := by
    decide +kernel
  obtain ⟨s, hs, hrun⟩ := Option.bind_eq_some_iff.mp hrun
  obtain ⟨t, ht, hrows⟩ := Option.map_eq_some_iff.mp hrun
  obtain ⟨hbefore, hafter⟩ := Prod.mk.inj hrows
  obtain ⟨j, hj, hsummary⟩ := List.mem_map.mp
    (hbefore ▸ List.mem_singleton.mpr rfl :
      (AcceptancePhase.accepted, Text.lit "Added the parser") ∈
      s.jobs.rows.map fun j => (j.acceptancePhase, j.finalSummary))
  obtain ⟨hphase, hjournal⟩ := Prod.mk.inj hsummary
  refine ⟨s, t, runOperations_reachable hs, runOperations_steps ht, j, hj, ?_, ?_⟩
  · rw [hphase]
    decide
  · rintro ⟨j', hj', hfrozen⟩
    have hdone : j'.finalSummary = Text.lit "Done" := by
      have hmem : j'.finalSummary ∈ t.jobs.rows.map JobRow.finalSummary := List.mem_map_of_mem hj'
      rw [hafter] at hmem
      exact List.mem_singleton.mp hmem
    have hkept := hfrozen.summary
    rw [hdone, hjournal] at hkept
    revert hkept
    decide

end OmarchyYolo
