import OmarchyYolo.AcceptanceFrozen
import OmarchyYolo.PublishedBranch
import OmarchyYolo.SourceApply

/-!
# OmarchyYolo.ApplyOutcome — what is said of the source of a completed job

The source is reconciled before the job is published, by a runner that may crash in
between; the next one reconciles it again, after its owner has gone on with it. What the
first has done is recorded nowhere: the outcome is that of the last reconciliation.

* `JobRow.Later` — an accepted job, in a later store;
* `Applying` — the database and the source, with what the fast-forward has moved;
* `Applying.Kept` — where the fast-forward has left the source, until its owner moves it;
* `reconcile_truthful`, `resumeAcceptedJob_truthful` — one runner;
* `apply_outcome_truthful` — every run of runners.
-/

namespace OmarchyYolo

open Py PyJson Calls Lts

/-! ## Accepted rows -/

/-- The row of an accepted job, and a later one. -/
structure JobRow.Later (j j' : JobRow) : Prop where
  id : j'.id = j.id
  phase : j'.acceptancePhase ∈ laterPhases j.acceptancePhase
  origin : j.SameOrigin j'
  acceptance : j.SameAcceptance j'

theorem JobRow.Later.refl {j : JobRow} (hphase : j.acceptancePhase ≠ .none) : j.Later j :=
  ⟨rfl, mem_laterPhases_self hphase, .refl j, .refl j⟩

theorem JobRow.Later.trans {j j' j'' : JobRow} (h : j.Later j') (h' : j'.Later j'') :
    j.Later j'' where
  id := h'.id.trans h.id
  phase := laterPhases_trans h.phase h'.phase
  origin :=
    ⟨h'.origin.repo.trans h.origin.repo, h'.origin.goal.trans h.origin.goal,
      h'.origin.baseBranch.trans h.origin.baseBranch,
      h'.origin.baseCommit.trans h.origin.baseCommit,
      h'.origin.integrationBranch.trans h.origin.integrationBranch,
      h'.origin.createdAt.trans h.origin.createdAt⟩
  acceptance :=
    ⟨h'.acceptance.acceptedCommit.trans h.acceptance.acceptedCommit,
      h'.acceptance.sourceApplyIntent.trans h.acceptance.sourceApplyIntent,
      h'.acceptance.autoApply.trans h.acceptance.autoApply,
      h'.acceptance.integrationPath.trans h.acceptance.integrationPath⟩

section Rows

variable {F : Type} [PyFloat F] {sha256 : Str → Str} {jobId : Text} {s s' : Store} {j : JobRow}

/-- No operation takes an acceptance back. -/
theorem operation_later {op : Operation F} (hs : s.Sound sha256) (h : op.run sha256 s = .ok () s')
    (hj : j ∈ s.jobs) (hphase : j.acceptancePhase ≠ .none) : ∃ j' ∈ s'.jobs, j.Later j' := by
  obtain ⟨published, hprogress, -⟩ := op.run_progress hs.valid h
  obtain ⟨j', hj', hkey, horigin, hstep⟩ := hprogress.jobs.forward hj
  have hlater := hstep.later hphase
  exact ⟨j', hj', hkey, hlater.1, horigin, hlater.2.1⟩

theorem others_later (hs : s.Sound sha256) (h : s.Others F sha256 jobId s') (hj : j ∈ s.jobs)
    (hphase : j.acceptancePhase ≠ .none) : ∃ j' ∈ s'.jobs, j.Later j' := by
  induction h with
  | refl => exact ⟨j, hj, .refl hphase⟩
  | tail hbefore hlast ih =>
    obtain ⟨op, -, hrun⟩ := hlast
    obtain ⟨j', hj', hlater⟩ := ih
    obtain ⟨j'', hj'', hlater'⟩ := operation_later (Store.Others.sound hbefore hs) hrun hj'
      (laterPhases_ne_none hlater.phase)
    exact ⟨j'', hj'', hlater.trans hlater'⟩

theorem answersJob_later {e : JobEffect} {r : Except Raised e.Reply} (hs : s.Sound sha256)
    (h : AnswersJob sha256 e s r s') (hj : j ∈ s.jobs) (hphase : j.acceptancePhase ≠ .none) :
    ∃ j' ∈ s'.jobs, j.Later j' := by
  rcases answersJob_operation (Text.lit "") h with rfl | ⟨op, hrun, -⟩
  · exact ⟨j, hj, .refl hphase⟩
  · exact operation_later hs hrun hj hphase

end Rows

/-! ## The world -/

/-- Git is at work in the source. -/
def JobEffect.atSource : JobEffect → Bool
  | .source _ | .task (.topology (.validateBranchName _)) => true
  | _ => false

/-- The call is the fast-forward of the source. -/
def JobEffect.Forwards (e : JobEffect) : Prop := ∃ commit, e = .source (.fastForward commit)

/-- The database and the source. -/
structure Applying (valid : Str → Bool) (T U : Type) where
  store : Store
  source : SourceRepo valid T U
  /-- The source when Git was last at work there. -/
  seen : SourceRepo valid T U
  /-- A fast-forward has moved the source. -/
  advanced : Prop
  /-- Others have moved the source since. -/
  touched : Prop
  /-- A fast-forward has left the source with something that `status` shows: the accepted commit
  does not ignore it. -/
  untidy : Prop

section World

variable {valid : Str → Bool} {T U : Type} [DecidableEq T] (h : SourceHistory T U) (F : Type)
    [PyFloat F]
  (sha256 : Str → Str) (jobId : Text)

/-- What a call of a runner does. While Git is at work in the source, nobody else is; at any other
call others may do anything there. -/
structure ApplyAnswers (e : JobEffect) (w : Applying valid T U) (r : Except Raised e.Reply)
    (w' : Applying valid T U) : Prop where
  store : ∃ s, w.store.Others F sha256 jobId s ∧ AnswersJob sha256 e s r w'.store
  source : e.atSource = true → faulty h e w.source r w'.source ∧ w'.seen = w'.source
  seen : e.atSource = false → w'.seen = w.seen
  advanced : w'.advanced ↔ w.advanced ∨ e.Forwards ∧ w'.source ≠ w.source
  touched : w'.touched ↔ w.touched ∨ w.advanced ∧ e.atSource = false ∧ w'.source ≠ w.source
  untidy : w'.untidy ↔ w.untidy ∨ e.Forwards ∧ w'.source ≠ w.source ∧ ¬ w'.source.Clean h

/-- The runners of a job, one after another, from an empty database and any repository. Between
two of them, as in between their calls, others may do anything in the source. -/
def applying : System (JobCoroutine Unit × Applying valid T U) PublicationStep where
  init c := c.1 = .ret () ∧ c.2.store = Store.empty ∧ ¬ c.2.advanced ∧ ¬ c.2.touched ∧ ¬ c.2.untidy
  step c l c' :=
    match l with
    | .call reply => ∃ next, c.1 = .call reply.1 next ∧
        ApplyAnswers h F sha256 jobId reply.1 c.2 reply.2 c'.2 ∧ c'.1 = next reply.2
    | .start cfg => c'.1 = runJob cfg jobId ∧ c.2.store.Others F sha256 jobId c'.2.store ∧
        c'.2.seen = c.2.seen ∧ (c'.2.advanced ↔ c.2.advanced) ∧
        (c'.2.touched ↔ c.2.touched ∨ c.2.advanced ∧ c'.2.source ≠ c.2.source) ∧
        (c'.2.untidy ↔ c.2.untidy)

/-! ## The invariant -/

/-- The branch of that name is checked out at the commit. -/
structure SourceRepo.At (w : SourceRepo valid T U) (branch commit : Str) : Prop where
  shown : w.branch = branch
  tip : w.head? = some commit

/-- What the fast-forward of the job has left, in the source and in the database. -/
structure Applying.Advanced (w : Applying valid T U) (j : JobRow) : Prop where
  phase : j.acceptancePhase ≠ .none
  intent : j.sourceApplyIntent = .requested
  attached : j.baseBranch.val ≠ lit "HEAD"
  source : ¬ w.touched → w.source.At j.baseBranch.val j.acceptedCommit.val
  clean : ¬ w.touched → ¬ w.untidy → w.source.Clean h

structure Applying.Kept (w : Applying valid T U) : Prop where
  store : w.store.Sound sha256
  advanced : w.advanced → ∃ j ∈ w.store.jobs, j.id = jobId ∧ w.Advanced h j

/-- What is recorded of the source is so. -/
structure Applying.Truthful (w : Applying valid T U) (outcome : Str) : Prop where
  applied : outcome = lit "applied" → ∀ j ∈ w.store.jobs, j.id = jobId →
    ∃ commit, w.seen.At j.baseBranch.val commit ∧
      h.isAncestor j.acceptedCommit.val commit = true
  skipped : outcome = lit "skipped" → w.advanced → w.touched ∨ w.untidy
  notRequested : outcome = lit "not-requested" → ¬ w.advanced

/-- What a call needs. -/
def JobEffect.Applies (e : JobEffect) (w : Applying valid T U) : Prop :=
  w.Kept h sha256 jobId ∧
    match e with
    | .source (.fastForward commit) => ∃ j ∈ w.store.jobs, j.id = jobId ∧
        j.acceptancePhase ≠ .none ∧ j.sourceApplyIntent = .requested ∧
        j.acceptedCommit.val = commit ∧ j.baseBranch.val ≠ lit "HEAD" ∧
        w.source.branch = j.baseBranch.val
    | .publishCompletedJob id args => id = jobId ∧ w.Truthful h jobId args.sourceApplyOutcome
    | _ => True

end World

/-! ## One call -/

section Step

variable {valid : Str → Bool} {T U : Type} [DecidableEq T] {h : SourceHistory T U} {F : Type}
    [PyFloat F]
  {sha256 : Str → Str} {jobId : Text} {w w' : Applying valid T U} {e : JobEffect}
  {r : Except Raised e.Reply} {j : JobRow}

theorem ApplyAnswers.sound (hanswer : ApplyAnswers h F sha256 jobId e w r w')
    (hs : w.store.Sound sha256) : w'.store.Sound sha256 := by
  obtain ⟨s, hothers, hcall⟩ := hanswer.store
  exact answersJob_sound (hothers.sound hs) hcall

theorem ApplyAnswers.later (hanswer : ApplyAnswers h F sha256 jobId e w r w')
    (hs : w.store.Sound sha256) (hj : j ∈ w.store.jobs) (hphase : j.acceptancePhase ≠ .none) :
    ∃ j' ∈ w'.store.jobs, j.Later j' := by
  obtain ⟨s, hothers, hcall⟩ := hanswer.store
  obtain ⟨j₁, hj₁, hlater⟩ := others_later hs hothers hj hphase
  obtain ⟨j₂, hj₂, hlater'⟩ :=
    answersJob_later (hothers.sound hs) hcall hj₁ (laterPhases_ne_none hlater.phase)
  exact ⟨j₂, hj₂, hlater.trans hlater'⟩

/-- Git reads the source, unless it is the fast-forward. -/
theorem sourceAnswer_reads {source : SourceRepo valid T U} (he : ¬ e.Forwards) :
    (sourceAnswer h e source).2 = source := by
  cases e with
  | source command =>
    cases command with
    | fastForward commit => exact absurd ⟨commit, rfl⟩ he
    | _ => rfl
  | task e =>
    cases e with
    | topology command => cases command <;> rfl
    | _ => rfl
  | _ => rfl

theorem ApplyAnswers.reads (hanswer : ApplyAnswers h F sha256 jobId e w r w')
    (hsource : e.atSource = true) (he : ¬ e.Forwards) : w'.source = w.source := by
  have hsame : (sourceAnswer h e w.source).2 = w.source := sourceAnswer_reads he
  rcases (hanswer.source hsource).1 with ⟨-, hw⟩ | ⟨x, -, hw | hw⟩
  · exact hw.trans hsame
  · exact hw
  · exact hw.trans hsame

omit [DecidableEq T] in
theorem SourceRepo.forward_at {source : SourceRepo valid T U} {branch commit : Str}
    (hbranch : source.branch = branch) (hne : branch ≠ lit "HEAD") (hcommit : commit ≠ []) :
    (source.forward h commit hcommit).At branch commit := by
  obtain ⟨name, hhead, hshown⟩ := checkedOut_of_branch hbranch hne
  rw [source.forward_of_branch h hhead]
  have hkept : (source.moveBranch h name commit (source.head_named name hhead) hcommit).head =
      .branch name := hhead
  constructor
  · rw [SourceRepo.branch, hkept]
    exact hshown
  · rw [SourceRepo.head?, hkept]
    exact Function.update_self name (some commit) source.branches

/-- The fast-forward leaves the source as it is, or its branch at the commit. -/
theorem sourceAnswer_forwards {source : SourceRepo valid T U} {branch commit : Str}
    (hbranch : source.branch = branch) (hne : branch ≠ lit "HEAD") :
    (sourceAnswer h (.source (.fastForward commit)) source).2 = source ∨
      (sourceAnswer h (.source (.fastForward commit)) source).2.At branch commit := by
  cases hcurrent : source.head? with
  | none =>
    left
    simp only [sourceAnswer, hcurrent]
  | some current =>
    by_cases hcommit : commit ≠ []
    · simp only [sourceAnswer, hcurrent, dif_pos hcommit]
      split
      · exact Or.inr (SourceRepo.forward_at hbranch hne hcommit)
      · exact Or.inl rfl
    · left
      simp only [sourceAnswer, hcurrent, dif_neg hcommit]

theorem ApplyAnswers.forwards {commit branch : Str}
    {r : Except Raised (JobEffect.source (.fastForward commit)).Reply}
    (hanswer : ApplyAnswers h F sha256 jobId (.source (.fastForward commit)) w r w')
    (hbranch : w.source.branch = branch) (hne : branch ≠ lit "HEAD") :
    w'.source = w.source ∨ w'.source.At branch commit := by
  rcases (hanswer.source rfl).1 with ⟨-, hw⟩ | ⟨x, -, hw | hw⟩
  · rw [hw]
    exact sourceAnswer_forwards hbranch hne
  · exact Or.inl hw
  · rw [hw]
    exact sourceAnswer_forwards hbranch hne

omit [DecidableEq T] in
/-- A call that is no fast-forward keeps what the fast-forward has left. -/
theorem Applying.Advanced.later {j' : JobRow} (hj : w.Advanced h j) (hlater : j.Later j')
    (hsource : ¬ w'.touched → ¬ w.touched ∧ w'.source = w.source)
    (huntidy : w.untidy → w'.untidy) : w'.Advanced h j' where
  phase := laterPhases_ne_none hlater.phase
  intent := hlater.acceptance.sourceApplyIntent.trans hj.intent
  attached := by
    rw [hlater.origin.baseBranch]
    exact hj.attached
  source huntouched := by
    obtain ⟨hbefore, hsame⟩ := hsource huntouched
    rw [hlater.origin.baseBranch, hlater.acceptance.acceptedCommit, hsame]
    exact hj.source hbefore
  clean huntouched htidy := by
    obtain ⟨hbefore, hsame⟩ := hsource huntouched
    rw [hsame]
    exact hj.clean hbefore fun hwas => htidy (huntidy hwas)

/-- The owner of the source has not moved it at a call at which nothing of it is noted. -/
theorem ApplyAnswers.untouched (hanswer : ApplyAnswers h F sha256 jobId e w r w')
    (hadvanced : w.advanced) (he : ¬ e.Forwards) (huntouched : ¬ w'.touched) :
    ¬ w.touched ∧ w'.source = w.source := by
  rw [hanswer.touched, not_or] at huntouched
  refine ⟨huntouched.1, ?_⟩
  cases hsource : e.atSource with
  | true => exact hanswer.reads hsource he
  | false =>
    by_contra hmoved
    exact huntouched.2 ⟨hadvanced, hsource, hmoved⟩

/-- A guarded call keeps the invariant. -/
theorem JobEffect.Applies.keeps (hguard : e.Applies h sha256 jobId w)
    (hanswer : ApplyAnswers h F sha256 jobId e w r w') : w'.Kept h sha256 jobId := by
  obtain ⟨hkept, hneeds⟩ := hguard
  refine ⟨hanswer.sound hkept.store, fun hadvanced' => ?_⟩
  -- only the fast-forward moves the source; what it needs is in its guard
  by_cases he : e.Forwards
  · obtain ⟨commit, rfl⟩ := he
    obtain ⟨j, hj, hid, hphase, hintent, hcommit, hattached, hbranch⟩ := hneeds
    obtain ⟨j', hj', hlater⟩ := hanswer.later hkept.store hj hphase
    refine ⟨j', hj', hlater.id.trans hid, ?_⟩
    by_cases hsame : w'.source = w.source
    -- the later facts about the row stay true of the source as it was
    · -- it has not moved the source, so one before has
      have hbefore : w.advanced :=
        (hanswer.advanced.mp hadvanced').resolve_right fun hmoved => hmoved.2 hsame
      obtain ⟨j₀, hj₀, hid₀, hadvanced⟩ := hkept.advanced hbefore
      obtain rfl : j₀ = j := Store.eq_of_id hj₀ hj (hid₀.trans hid.symm)
      exact hadvanced.later hlater (fun huntouched =>
        ⟨fun htouched => huntouched (hanswer.touched.mpr (Or.inl htouched)), hsame⟩)
        fun huntidy => hanswer.untidy.mpr (Or.inl huntidy)
    · -- it has: the source is at the commit, and clean unless something is shown there now
      have hat := (hanswer.forwards hbranch hattached).resolve_left hsame
      refine
        { phase := laterPhases_ne_none hlater.phase
          intent := hlater.acceptance.sourceApplyIntent.trans hintent
          attached := ?_
          source := fun _ => ?_
          clean := fun _ htidy => ?_ }
      · rw [hlater.origin.baseBranch]
        exact hattached
      · rw [hlater.origin.baseBranch, hlater.acceptance.acceptedCommit, hcommit]
        exact hat
      · by_contra hdirty
        exact htidy (hanswer.untidy.mpr (Or.inr ⟨⟨commit, rfl⟩, hsame, hdirty⟩))
  -- any other effect leaves the source, so the facts of before carry over
  · have hbefore : w.advanced := (hanswer.advanced.mp hadvanced').resolve_right fun hmoved =>
      he hmoved.1
    obtain ⟨j, hj, hid, hadvanced⟩ := hkept.advanced hbefore
    obtain ⟨j', hj', hlater⟩ := hanswer.later hkept.store hj hadvanced.phase
    exact ⟨j', hj', hlater.id.trans hid, hadvanced.later hlater (hanswer.untouched hbefore he)
      fun huntidy => hanswer.untidy.mpr (Or.inl huntidy)⟩

end Step

/-! ## Programs -/

/-- The program makes its calls where they keep the invariant. -/
abbrev Truthfully {valid : Str → Bool} {T U : Type} [DecidableEq T] (h : SourceHistory T U)
    (F : Type)
    [PyFloat F] (sha256 : Str → Str) (jobId : Text) {α : Type} (p : JobCoroutine α)
    (Post : Except Raised α → Applying valid T U → Prop) (w : Applying valid T U) : Prop :=
  Ensures (ApplyAnswers h F sha256 jobId) (JobEffect.Applies h sha256 jobId) p Post w

/-- Calls that neither move the source nor say anything of it. -/
def JobEffect.Silent : JobEffect → Prop
  | .source (.fastForward _) | .publishCompletedJob _ _ => False
  | _ => True

/-- The row that has been read is still that of the job, or an earlier one of an accepted job. -/
structure Applying.Reads {valid : Str → Bool} {T U : Type} (h : SourceHistory T U)
    (sha256 : Str → Str)
    (jobId : Text) (job : JobRow) (w : Applying valid T U) : Prop where
  kept : w.Kept h sha256 jobId
  id : job.id = jobId
  row : job.acceptancePhase ≠ .none → ∃ j ∈ w.store.jobs, job.Later j

/-- A result, or else the invariant. -/
def OrSettled {valid : Str → Bool} {T U : Type} (h : SourceHistory T U) (sha256 : Str → Str)
    (jobId : Text) {α : Type} (Good : α → Applying valid T U → Prop) :
    Except Raised α → Applying valid T U → Prop
  | .ok a, w => Good a w
  | .error _, w => w.Kept h sha256 jobId

section Programs

variable {valid : Str → Bool} {T U : Type} [DecidableEq T] {h : SourceHistory T U} {F : Type}
    [PyFloat F]
  {sha256 : Str → Str} {jobId : Text} {w w' : Applying valid T U} {e : JobEffect}
  {r : Except Raised e.Reply} {job : JobRow} {α β : Type} {p : JobCoroutine α}

omit [DecidableEq T] in
theorem silent_applies (he : e.Silent) (hw : w.Kept h sha256 jobId) :
    e.Applies h sha256 jobId w := by
  refine ⟨hw, ?_⟩
  cases e with
  | source command =>
    cases command with
    | fastForward commit => exact he.elim
    | _ => trivial
  | publishCompletedJob id args => exact he.elim
  | _ => trivial

theorem silent_of_plain (he : e.plain = true) : e.Silent := by
  cases e with
  | source command =>
    cases command with
    | fastForward commit => cases he
    | _ => trivial
  | publishCompletedJob id args => cases he
  | _ => trivial

theorem silent_keeps (hp : p.Makes JobEffect.Silent) (hw : w.Kept h sha256 jobId) :
    Truthfully h F sha256 jobId p (fun _ w' => w'.Kept h sha256 jobId) w :=
  hp.keeps (fun _ _ he hw => silent_applies he hw)
    (fun _ _ _ _ he hw hanswer => (silent_applies he hw).keeps hanswer) hw

/-- Parts that are neither an acceptance nor a publication. -/
theorem plain_silent (hp : p.Makes fun e => e.plain = true) : p.Makes JobEffect.Silent :=
  hp.mono fun _ => silent_of_plain

theorem Applying.Reads.step (hw : w.Reads h sha256 jobId job) (he : e.Applies h sha256 jobId w)
    (hanswer : ApplyAnswers h F sha256 jobId e w r w') : w'.Reads h sha256 jobId job := by
  refine ⟨he.keeps hanswer, hw.id, fun hphase => ?_⟩
  obtain ⟨j, hj, hlater⟩ := hw.row hphase
  obtain ⟨j', hj', hlater'⟩ :=
    hanswer.later hw.kept.store hj (laterPhases_ne_none hlater.phase)
  exact ⟨j', hj', hlater.trans hlater'⟩

theorem silent_reads (hp : p.Makes JobEffect.Silent) (hw : w.Reads h sha256 jobId job) :
    Truthfully h F sha256 jobId p (fun _ w' => w'.Reads h sha256 jobId job) w :=
  hp.keeps (fun _ _ he hw => silent_applies he hw.kept)
    (fun _ _ _ _ he hw hanswer => hw.step (silent_applies he hw.kept) hanswer) hw

omit [DecidableEq T] in
/-- The row of the job, where one has been read. -/
theorem Applying.Reads.later (hw : w.Reads h sha256 jobId job)
    (hphase : job.acceptancePhase ≠ .none) {j : JobRow} (hj : j ∈ w.store.jobs)
    (hid : j.id = jobId) : job.Later j := by
  obtain ⟨j₀, hj₀, hlater⟩ := hw.row hphase
  rw [Store.eq_of_id hj hj₀ (hid.trans (hlater.id.trans hw.id).symm)]
  exact hlater

/-- The row is read. -/
theorem getJob_truthful (hw : w.Kept h sha256 jobId) :
    Truthfully h F sha256 jobId (shared (perform (.getJob jobId)))
      (OrSettled h sha256 jobId fun j w' => w'.Reads h sha256 jobId j ∧ j ∈ w'.store.jobs) w := by
  have he : (JobEffect.task (.getJob jobId)).Silent := trivial
  refine ensures_embed.mpr (ensures_perform.mpr ⟨silent_applies he hw, fun r w' hanswer => ?_⟩)
  have hkept := (silent_applies he hw).keeps hanswer
  cases r with
  | error x => exact hkept
  | ok j =>
    obtain ⟨s, -, x, hx, hrun⟩ := hanswer.store
    obtain rfl : x = getJob jobId.val := hx
    obtain ⟨hsame, id, hid, hjob⟩ := getJob_cases hrun
    obtain ⟨hmem, hown⟩ := Store.mem_of_job? hjob
    rw [← hsame] at hmem
    exact ⟨⟨hkept, hown.trans (Text.ext hid), fun hphase => ⟨j, hmem, .refl hphase⟩⟩, hmem⟩

theorem silent_then {f : α → JobCoroutine β} {Post : β → Applying valid T U → Prop}
    (hp : p.Makes JobEffect.Silent) (hw : w.Kept h sha256 jobId)
    (hrest : ∀ a w', w'.Kept h sha256 jobId →
      Truthfully h F sha256 jobId (f a) (OrSettled h sha256 jobId Post) w') :
    Truthfully h F sha256 jobId (p >>= f) (OrSettled h sha256 jobId Post) w :=
  (silent_keeps hp hw).bind hrest fun _ _ hw => hw

theorem reads_silently {f : α → JobCoroutine β} {Post : β → Applying valid T U → Prop}
    (hp : p.Makes JobEffect.Silent) (hw : w.Reads h sha256 jobId job)
    (hrest : ∀ a w', w'.Reads h sha256 jobId job →
      Truthfully h F sha256 jobId (f a) (OrSettled h sha256 jobId Post) w') :
    Truthfully h F sha256 jobId (p >>= f) (OrSettled h sha256 jobId Post) w :=
  (silent_reads hp hw).bind hrest fun _ _ hw => hw.kept

/-! ## The reconciliation -/

/-- Git has been at work in the source, and has found it so. -/
structure Applying.Looked (h : SourceHistory T U) (sha256 : Str → Str) (jobId : Text) (job : JobRow)
    (source : SourceRepo valid T U) (w : Applying valid T U) : Prop where
  reads : w.Reads h sha256 jobId job
  found : w.source = source
  seen : w.seen = source

/-- A command that reads: its reply is that of the source as it is found. -/
theorem sourceCall_looks {source : SourceRepo valid T U} (hsource : e.atSource = true)
    (he : ¬ e.Forwards) (hsilent : e.Silent) (hw : w.Reads h sha256 jobId job)
    (hsame : w.source = source) :
    Truthfully h F sha256 jobId (performJob e) (fun r w' =>
      w'.Looked h sha256 jobId job source ∧
        ∀ a, r = .ok a → (sourceAnswer h e source).1 = .ok a) w := by
  refine ensures_perform.mpr ⟨silent_applies hsilent hw.kept, fun r w' hanswer => ?_⟩
  have hfound : w'.source = source := (hanswer.reads hsource he).trans hsame
  refine ⟨⟨hw.step (silent_applies hsilent hw.kept) hanswer, hfound,
    (hanswer.source hsource).2.trans hfound⟩, fun a ha => ?_⟩
  rcases (hanswer.source hsource).1 with ⟨hr, -⟩ | ⟨x, hr, -⟩
  · rw [← hsame, ← hr]
    exact ha
  · cases hr.symm.trans ha

theorem looked_then {source : SourceRepo valid T U} {f : e.Reply → JobCoroutine β}
    {Post : β → Applying valid T U → Prop} (hsource : e.atSource = true) (he : ¬ e.Forwards)
    (hsilent : e.Silent) (hw : w.Looked h sha256 jobId job source)
    (hrest : ∀ a w', w'.Looked h sha256 jobId job source →
      (sourceAnswer h e source).1 = .ok a →
        Truthfully h F sha256 jobId (f a) (OrSettled h sha256 jobId Post) w') :
    Truthfully h F sha256 jobId (performJob e >>= f) (OrSettled h sha256 jobId Post) w :=
  (sourceCall_looks hsource he hsilent hw.reads hw.found).bind
    (fun a w' hmid => hrest a w' hmid.1 (hmid.2 a rfl)) fun _ _ hmid => hmid.1.reads.kept

/-- What is said of the source of an accepted job is so. -/
structure Applying.Reconciled (h : SourceHistory T U) (sha256 : Str → Str) (jobId : Text)
    (job : JobRow)
    (outcome : Str) (w : Applying valid T U) : Prop where
  reads : w.Reads h sha256 jobId job
  accepted : job.acceptancePhase ≠ .none
  truthful : w.Truthful h jobId outcome

omit [DecidableEq T] in
/-- The source is where a fast-forward of the job has left it. -/
theorem Applying.Looked.reached {source : SourceRepo valid T U}
    (hw : w.Looked h sha256 jobId job source) (hphase : job.acceptancePhase ≠ .none)
    (hadvanced : w.advanced) (huntouched : ¬ w.touched) (htidy : ¬ w.untidy) :
    job.baseBranch.val ≠ lit "HEAD" ∧
      source.At job.baseBranch.val job.acceptedCommit.val ∧ source.Clean h := by
  obtain ⟨j, hj, hid, hleft⟩ := hw.reads.kept.advanced hadvanced
  have hlater := hw.reads.later hphase hj hid
  have hattached := hleft.attached
  have hreached := hleft.source huntouched
  have hclean := hleft.clean huntouched htidy
  rw [hlater.origin.baseBranch] at hattached hreached
  rw [hlater.acceptance.acceptedCommit, hw.found] at hreached
  rw [hw.found] at hclean
  exact ⟨hattached, hreached, hclean⟩

omit [DecidableEq T] in
theorem truthful_skipped (hskipped : w.advanced → w.touched ∨ w.untidy) :
    w.Truthful h jobId (lit "skipped") where
  applied heq := absurd heq (by decide)
  skipped _ := hskipped
  notRequested heq := absurd heq (by decide)

omit [DecidableEq T] in
theorem truthful_applied (happlied : ∀ j ∈ w.store.jobs, j.id = jobId →
    ∃ commit, w.seen.At j.baseBranch.val commit ∧
      h.isAncestor j.acceptedCommit.val commit = true) :
    w.Truthful h jobId (lit "applied") where
  applied _ := happlied
  skipped heq := absurd heq (by decide)
  notRequested heq := absurd heq (by decide)

omit [DecidableEq T] in
theorem truthful_notRequested (hkept : ¬ w.advanced) :
    w.Truthful h jobId (lit "not-requested") where
  applied heq := absurd heq (by decide)
  skipped heq := absurd heq (by decide)
  notRequested _ := hkept

omit [DecidableEq T] in
/-- It is not skipped, where a fast-forward has left it so. -/
theorem Applying.Looked.skipped {source : SourceRepo valid T U}
    (hw : w.Looked h sha256 jobId job source) (hphase : job.acceptancePhase ≠ .none)
    (hother : job.baseBranch.val ≠ lit "HEAD" →
      source.At job.baseBranch.val job.acceptedCommit.val → ¬ source.Clean h) :
    w.Reconciled h sha256 jobId job (lit "skipped") := by
  refine ⟨hw.reads, hphase, truthful_skipped fun hadvanced => ?_⟩
  by_contra hleft
  rw [not_or] at hleft
  have hreached := hw.reached hphase hadvanced hleft.1 hleft.2
  exact hother hreached.1 hreached.2.1 hreached.2.2

omit [DecidableEq T] in
/-- It is applied, where the branch has the commit. -/
theorem Applying.Looked.applied {source : SourceRepo valid T U} {commit : Str}
    (hw : w.Looked h sha256 jobId job source) (hphase : job.acceptancePhase ≠ .none)
    (htip : source.At job.baseBranch.val commit)
    (hcontained : h.isAncestor job.acceptedCommit.val commit = true) :
    w.Reconciled h sha256 jobId job (lit "applied") := by
  refine ⟨hw.reads, hphase, truthful_applied fun j hj hid => ?_⟩
  have hlater := hw.reads.later hphase hj hid
  rw [hlater.origin.baseBranch, hlater.acceptance.acceptedCommit, hw.seen]
  exact ⟨commit, htip, hcontained⟩

/-- From the source's own commit on. -/
theorem reconcileFromHead_truthful {source : SourceRepo valid T U}
    (hw : w.Looked h sha256 jobId job source) (hphase : job.acceptancePhase ≠ .none)
    (hintent : job.sourceApplyIntent = .requested) (hattached : job.baseBranch.val ≠ lit "HEAD")
    (hbranch : source.branch = job.baseBranch.val) :
    Truthfully h F sha256 jobId (reconcileFromHead job.baseCommit.val job.acceptedCommit.val)
      (OrSettled h sha256 jobId fun result w' => w'.Reconciled h sha256 jobId job result.1) w := by
  have hforwards : ∀ command : SourceCommand, (∀ commit, command ≠ .fastForward commit) →
      ¬ (JobEffect.source command).Forwards := by
    rintro command hcommand ⟨commit, heq⟩
    exact hcommand commit (JobEffect.source.inj heq)
  have hlook : ¬ (JobEffect.source .head).Forwards := hforwards _ fun _ heq => by cases heq
  refine looked_then (e := .source .head) rfl hlook trivial hw
    fun (currentHead : Str) w₁ hw hread => ?_
  -- the head that has been read is the tip of the base branch
  have htip : source.At job.baseBranch.val currentHead := ⟨hbranch, head_of_answer hread⟩
  refine Ensures.ite (fun heq => ?_) fun hbehind => ?_
  -- the source is at the accepted commit already
  · refine hw.applied hphase htip ?_
    rw [heq]
    exact (h.isAncestor_iff _ _).mpr .refl
  refine looked_then (e := .source (.isAncestor _ currentHead)) rfl
    (hforwards _ fun _ heq => by cases heq) trivial hw fun (contained : Bool) w₂ hw hanswer => ?_
  refine Ensures.ite (fun htrue => ?_) fun _ => ?_
  -- or beyond it
  · have hcontained : h.isAncestor job.acceptedCommit.val currentHead = contained :=
      Except.ok.inj hanswer
    exact hw.applied hphase htip (hcontained.trans htrue)
  refine Ensures.ite (fun _ => ?_) fun _ => ?_
  -- it has moved elsewhere: skipped, and it was not this job that moved it
  · refine hw.skipped hphase fun _ hreached => absurd ?_ hbehind
    exact Option.some.inj (htip.tip.symm.trans hreached.tip)
  obtain ⟨j, hj, hlater⟩ := hw.reads.row hphase
  have hfound : w₂.source.branch = j.baseBranch.val := by
    rw [hw.found, hlater.origin.baseBranch]
    exact hbranch
  -- the guard of the fast-forward: it is requested, and the base branch is checked out
  have hguard : (JobEffect.source (.fastForward job.acceptedCommit.val)).Applies h sha256 jobId
      w₂ := by
    refine ⟨hw.reads.kept, j, hj, hlater.id.trans hw.reads.id, laterPhases_ne_none hlater.phase,
      hlater.acceptance.sourceApplyIntent.trans hintent,
      congrArg Text.val hlater.acceptance.acceptedCommit, ?_, hfound⟩
    rw [hlater.origin.baseBranch]
    exact hattached
  have hforward : Truthfully h F sha256 jobId
      (sourceCommand (.fastForward job.acceptedCommit.val)) (fun _ w' =>
        w'.Reads h sha256 jobId job ∧ w'.source.branch = job.baseBranch.val) w₂ := by
    -- after the fast-forward the base branch is still checked out
    refine ensures_perform.mpr ⟨hguard, fun r w₃ hanswer => ⟨hw.reads.step hguard hanswer, ?_⟩⟩
    rw [hw.found.symm] at hbranch
    rcases hanswer.forwards hbranch hattached with hsame | hreached
    · rw [hsame]
      exact hbranch
    · exact hreached.shown
  refine hforward.bind (fun _ w₃ hw => ?_) fun _ _ hw => hw.1.kept
  refine Ensures.bind (sourceCall_looks (e := .source .head) rfl hlook trivial hw.1 rfl)
    (fun (finalHead : Str) w₄ hmid => ?_) fun _ _ hmid => hmid.1.reads.kept
  refine Ensures.ite (fun _ => hmid.1.reads.kept) fun heq => ?_
  -- the head is read again, and has to be the accepted commit
  refine hmid.1.applied hphase ⟨hw.2, head_of_answer (hmid.2 finalHead rfl)⟩ ?_
  rw [not_not.mp heq]
  exact (h.isAncestor_iff _ _).mpr .refl

omit [DecidableEq T] in
theorem shared_perform (e : Effect) : shared (perform e) = performJob (.task e) := by
  have hreply : ∀ r : Except Raised e.Reply,
      (Program.ofExcept r).embed JobEffect.task = (.ofExcept r : JobCoroutine e.Reply) := by
    intro r
    cases r with
    | ok a => rfl
    | error x => rfl
  exact congrArg (Program.call (JobEffect.task e)) (funext hreply)

/-- `reconcile_fast_forward_source`, of an accepted job that is to be applied. -/
theorem reconcile_truthful (hw : w.Reads h sha256 jobId job)
    (hphase : job.acceptancePhase ≠ .none) (hintent : job.sourceApplyIntent = .requested) :
    Truthfully h F sha256 jobId (reconcileFastForwardSource job.integrationBranch.val
      job.baseBranch.val job.baseCommit.val job.acceptedCommit.val)
      (OrSettled h sha256 jobId fun result w' => w'.Reconciled h sha256 jobId job result.1) w := by
  -- no command before the branch is looked at moves the source
  have hnamed : ∀ branch, ¬ (JobEffect.task (.topology (.validateBranchName branch))).Forwards := by
    rintro branch ⟨commit, heq⟩
    cases heq
  have hresolved : Truthfully h F sha256 jobId (resolveBranchCommit job.integrationBranch.val)
      (OrSettled h sha256 jobId fun _ w' => w'.Looked h sha256 jobId job w.source) w := by
    -- the integration branch has to be at the accepted commit
    have hvalidated : Truthfully h F sha256 jobId
        (shared (perform (.topology (.validateBranchName job.integrationBranch.val))))
        (fun _ w' => w'.Looked h sha256 jobId job w.source) w := by
      rw [shared_perform]
      exact (sourceCall_looks rfl (hnamed _) trivial hw rfl).imp fun _ _ hmid => hmid.1
    refine Ensures.bind hvalidated (fun _ w₁ hmid => ?_) fun _ _ hmid => hmid.reads.kept
    refine looked_then (e := .source (.resolveBranch job.integrationBranch.val)) rfl ?_ trivial
      hmid fun (commit : Str) w₂ hw _ => ?_
    · rintro ⟨commit, heq⟩
      cases heq
    · exact Ensures.ite (fun _ => hw.reads.kept) fun _ => hw
  refine hresolved.bind (fun integrationCommit w₁ hw => ?_) fun _ _ hw => hw
  refine Ensures.ite (fun _ => hw.reads.kept) fun _ => ?_
  -- a detached source is skipped
  refine Ensures.ite (fun heq => hw.skipped hphase fun hattached => absurd heq hattached)
    fun hattached => ?_
  refine looked_then (e := .source .branch) rfl ?_ trivial hw
    fun (currentBranch : Str) w₂ hw hanswer => ?_
  · rintro ⟨commit, heq⟩
    cases heq
  have hbranch : w.source.branch = currentBranch := Except.ok.inj hanswer
  refine Ensures.ite (fun hother => ?_) fun hsame => ?_
  -- another branch is checked out: then the job has not advanced this one
  · refine hw.skipped hphase fun _ hreached => absurd ?_ hother
    rw [← hbranch, hreached.shown]
  refine looked_then (e := .source .isClean) rfl ?_ trivial hw
    fun (clean : Bool) w₃ hw hanswer => ?_
  · rintro ⟨commit, heq⟩
    cases heq
  have hclean : decide (w.source.Clean h) = clean := Except.ok.inj hanswer
  refine Ensures.ite (fun _ => ?_) fun hdirty => ?_
  -- clean: the head decides
  · exact reconcileFromHead_truthful hw hphase hintent hattached (hbranch.trans (not_not.mp hsame))
  -- dirty: the source has been touched, or the commit has made it so
  · refine hw.skipped hphase fun _ _ hstill => hdirty ?_
    rw [← hclean]
    exact decide_eq_true hstill

/-! ## The publication -/

/-- What others do in the source afterwards makes nothing of it untrue. -/
theorem Applying.Reconciled.step {outcome : Str} (hw : w.Reconciled h sha256 jobId job outcome)
    (he : e.Silent) (hsource : e.atSource = false)
    (hanswer : ApplyAnswers h F sha256 jobId e w r w') :
    w'.Reconciled h sha256 jobId job outcome := by
  have hreads := hw.reads.step (silent_applies he hw.reads.kept) hanswer
  have hbefore : w'.advanced → w.advanced := by
    intro hadvanced
    refine (hanswer.advanced.mp hadvanced).resolve_right ?_
    rintro ⟨⟨commit, rfl⟩, -⟩
    cases hsource
  refine ⟨hreads, hw.accepted, fun happlied j' hj' hid' => ?_, fun hskipped hadvanced => ?_,
    fun hnone hadvanced => hw.truthful.notRequested hnone (hbefore hadvanced)⟩
  · obtain ⟨j, hj, hlater⟩ := hw.reads.row hw.accepted
    have hlater' := hreads.later hw.accepted hj' hid'
    have htruth := hw.truthful.applied happlied j hj (hlater.id.trans hw.reads.id)
    rw [hlater.origin.baseBranch, hlater.acceptance.acceptedCommit] at htruth
    rw [hlater'.origin.baseBranch, hlater'.acceptance.acceptedCommit, hanswer.seen hsource]
    exact htruth
  · refine (hw.truthful.skipped hskipped (hbefore hadvanced)).imp ?_ ?_
    · exact fun htouched => hanswer.touched.mpr (Or.inl htouched)
    · exact fun huntidy => hanswer.untidy.mpr (Or.inl huntidy)

/-- What follows a program whatever its outcome. -/
theorem settled_finally {Good : α → Applying valid T U → Prop}
    (hkept : ∀ a w, Good a w → w.Kept h sha256 jobId) (he : e.Silent)
    (hgood : ∀ a w r w', Good a w → ApplyAnswers h F sha256 jobId e w r w' → Good a w')
    (hp : Truthfully h F sha256 jobId p (OrSettled h sha256 jobId Good) w) :
    Truthfully h F sha256 jobId
      (p.attempt >>= fun outcome => performJob e >>= fun _ => .ofExcept outcome)
      (OrSettled h sha256 jobId Good) w := by
  refine ensures_attempt_bind.mpr (hp.imp fun outcome w' hmid => ?_)
  have hstill : w'.Kept h sha256 jobId := by
    cases outcome with
    | ok a => exact hkept a w' hmid
    | error x => exact hmid
  have hcall : Truthfully h F sha256 jobId (performJob e)
      (fun _ w'' => OrSettled h sha256 jobId Good outcome w'' ∧ w''.Kept h sha256 jobId) w' := by
    refine ensures_perform.mpr ⟨silent_applies he hstill, fun r w'' hanswer => ?_⟩
    have hafter := (silent_applies he hstill).keeps hanswer
    refine ⟨?_, hafter⟩
    cases outcome with
    | ok a => exact hgood a w' r w'' hmid hanswer
    | error x => exact hafter
  exact hcall.bind (fun _ _ hmid => ensures_ofExcept.mpr hmid.1) fun _ _ hmid => hmid.2

/-- The row of an accepted job that is to be applied, read again. -/
theorem startApplying_truthful (hw : w.Reads h sha256 jobId job)
    (hphase : job.acceptancePhase ≠ .none) (hintent : job.sourceApplyIntent = .requested) :
    Truthfully h F sha256 jobId (startApplying job)
      (OrSettled h sha256 jobId fun applying w' => w'.Reads h sha256 jobId applying ∧
        applying.acceptancePhase ≠ .none ∧ applying.sourceApplyIntent = .requested) w := by
  refine Ensures.ite (fun _ => ?_) fun _ => ⟨hw, hphase, hintent⟩
  refine reads_silently (makes_perform trivial) hw fun _ w₁ hw₁ => ?_
  rw [hw.id]
  have hagain : Truthfully h F sha256 jobId (shared (perform (.getJob jobId)))
      (fun _ w' => w'.Reads h sha256 jobId job) w₁ :=
    silent_reads (Program.Makes.embed (makes_perform trivial)) hw₁
  refine ((getJob_truthful hw₁.kept).and hagain).imp fun r w₂ hmid => ?_
  cases r with
  | error x => exact hmid.1
  | ok applying =>
    have hlater := hmid.2.later hphase hmid.1.2 hmid.1.1.id
    exact ⟨hmid.1.1, laterPhases_ne_none hlater.phase,
      hlater.acceptance.sourceApplyIntent.trans hintent⟩

/-- The change of the source, or none. -/
theorem applySource_truthful (hw : w.Reads h sha256 jobId job)
    (hphase : job.acceptancePhase ≠ .none) :
    Truthfully h F sha256 jobId (applySource job)
      (OrSettled h sha256 jobId fun result w' =>
        w'.Reconciled h sha256 jobId result.1 result.2.1) w := by
  unfold applySource
  cases hintent : job.sourceApplyIntent with
  | notRequested =>
    refine ⟨hw, hphase, truthful_notRequested fun hadvanced => ?_⟩
    obtain ⟨j, hj, hid, hleft⟩ := hw.kept.advanced hadvanced
    have hkept := (hw.later hphase hj hid).acceptance.sourceApplyIntent
    rw [hintent, hleft.intent] at hkept
    cases hkept
  | requested =>
    refine (startApplying_truthful hw hphase hintent).bind (fun applying w₁ hw => ?_)
      fun _ _ hw => hw
    obtain ⟨hreads, hphase, hintent⟩ := hw
    have hstep : ∀ (e : JobEffect), e.Silent → e.atSource = false →
        ∀ (result : Str × Str) (w : Applying valid T U) (r : Except Raised e.Reply)
          (w' : Applying valid T U), w.Reconciled h sha256 jobId applying result.1 →
            ApplyAnswers h F sha256 jobId e w r w' →
              w'.Reconciled h sha256 jobId applying result.1 :=
      fun e he hsource result w r w' hw hanswer => hw.step he hsource hanswer
    have hreconciled : Truthfully h F sha256 jobId
        (withJobLock .repo <| finishJobBeforeCancel <| reconcileFastForwardSource
          applying.integrationBranch.val applying.baseBranch.val applying.baseCommit.val
          applying.acceptedCommit.val)
        (OrSettled h sha256 jobId fun result w' =>
          w'.Reconciled h sha256 jobId applying result.1) w₁ := by
      refine reads_silently (makes_perform trivial) hreads fun _ w₂ hreads => ?_
      refine settled_finally (fun _ _ hw => hw.reads.kept) trivial (hstep _ trivial rfl) ?_
      exact settled_finally (fun _ _ hw => hw.reads.kept) trivial (hstep _ trivial rfl)
        (reconcile_truthful hreads hphase hintent)
    exact hreconciled.bind (fun result w₃ hw => hw) fun _ _ hw => hw

/-- A result that is of no further use. -/
abbrev StillKept {valid : Str → Bool} {T U : Type} (h : SourceHistory T U) (sha256 : Str → Str)
    (jobId : Text) {α : Type} : Except Raised α → Applying valid T U → Prop :=
  OrSettled h sha256 jobId fun _ w' => w'.Kept h sha256 jobId

theorem silent_last (hp : p.Makes JobEffect.Silent) (hw : w.Kept h sha256 jobId) :
    Truthfully h F sha256 jobId p (StillKept h sha256 jobId) w := by
  refine (silent_keeps hp hw).imp fun r w' hkept => ?_
  cases r with
  | ok a => exact hkept
  | error x => exact hkept

theorem resumeAcceptedJob_truthful (hw : w.Reads h sha256 jobId job) :
    Truthfully h F sha256 jobId (resumeAcceptedJob job) (StillKept h sha256 jobId) w := by
  refine Ensures.ite (fun _ => hw.kept) fun hphase => ?_
  have haccepted : job.acceptancePhase ≠ .none := by
    intro hnone
    rw [not_not, hnone] at hphase
    exact absurd hphase (by decide)
  refine Ensures.ite (fun _ => hw.kept) fun _ => ?_
  have hverified : (verifiedDossier job.id).Makes JobEffect.Silent :=
    verifiedDossier_calls.mono fun e he => silent_of_plain (quiet_plain (reading_quiet he)).1
  refine reads_silently hverified hw fun dossier w₁ hw => ?_
  refine (applySource_truthful hw haccepted).bind ?_ fun _ _ hw => hw
  rintro ⟨applied, outcome, reason⟩ w₂ hw
  have hpublish : ∀ args : Publication, args.sourceApplyOutcome = outcome →
      Truthfully h F sha256 jobId (performJob (.publishCompletedJob applied.id args))
        (fun _ w' => w'.Kept h sha256 jobId) w₂ := by
    rintro args rfl
    have hguard : (JobEffect.publishCompletedJob applied.id args).Applies h sha256 jobId w₂ :=
      ⟨hw.reads.kept, hw.reads.id, hw.truthful⟩
    exact ensures_perform.mpr ⟨hguard, fun r w' hanswer => hguard.keeps hanswer⟩
  exact (hpublish _ rfl).bind (fun _ w₃ hkept => silent_last (makes_perform trivial) hkept)
    fun _ _ hkept => hkept

theorem completeAcceptedJob_truthful {finalSummary : Str} (hw : w.Kept h sha256 jobId) :
    Truthfully h F sha256 jobId (completeAcceptedJob jobId finalSummary) (StillKept h sha256 jobId)
      w := by
  refine (getJob_truthful hw).bind (fun accepted w₁ hw => ?_) fun _ _ hw => hw
  refine reads_silently (plain_silent shared_plain) hw.1 fun finalCommit w₂ hw => ?_
  refine reads_silently (p := performJob (.buildDossier _ _ _ _)) (makes_perform trivial) hw ?_
  rintro ⟨content, digest⟩ w₃ hw
  refine reads_silently (makes_perform trivial) hw fun _ w₄ hw => ?_
  rw [hw.id]
  exact (getJob_truthful hw.kept).bind (fun job w₅ hw => resumeAcceptedJob_truthful hw.1)
    fun _ _ hw => hw

/-! ## The runner -/

variable {cfg : JobConfig} {integrationPath : Str}

theorem finishJobBeforeCancel_stillKept
    (hp : Truthfully h F sha256 jobId p (StillKept h sha256 jobId) w) :
    Truthfully h F sha256 jobId (finishJobBeforeCancel p) (StillKept h sha256 jobId) w :=
  settled_finally (e := .task .suspend) (fun _ _ hw => hw) trivial
    (fun _ _ _ _ hw hanswer => (silent_applies (e := .task .suspend) trivial hw).keeps hanswer) hp

theorem concludeJob_truthful (hw : w.Kept h sha256 jobId) :
    Truthfully h F sha256 jobId (concludeJob cfg jobId integrationPath) (StillKept h sha256 jobId)
      w := by
  refine silent_then (plain_silent shared_plain) hw fun current w₁ hw => ?_
  refine Ensures.ite (fun _ => hw) fun _ => ?_
  refine silent_then (plain_silent (withJobLock_plain finalize_plain)) hw fun summary w₂ hw => ?_
  refine (getJob_truthful hw).bind (fun job w₃ hw => ?_) fun _ _ hw => hw
  rw [hw.1.id]
  exact (finishJobBeforeCancel_stillKept (completeAcceptedJob_truthful hw.1.kept)).bind
    (fun _ w₄ hw => silent_last (plain_silent cleanupJob_plain) hw) fun _ _ hw => hw

theorem resumeRun_truthful (hw : w.Reads h sha256 jobId job) :
    Truthfully h F sha256 jobId (resumeRun cfg jobId job integrationPath) (StillKept h sha256 jobId)
      w := by
  refine (finishJobBeforeCancel_stillKept (resumeAcceptedJob_truthful hw)).bind
    (fun _ w₁ hw => ?_) fun _ _ hw => hw
  exact silent_then (plain_silent shared_plain) hw fun completed w₂ hw =>
    silent_last (plain_silent cleanupJob_plain) hw

theorem candidateRun_truthful (hw : w.Kept h sha256 jobId) :
    Truthfully h F sha256 jobId (candidateRun cfg jobId job integrationPath)
      (StillKept h sha256 jobId) w := by
  refine silent_then (plain_silent shared_plain) hw fun _ w₁ hw => ?_
  refine silent_then (makes_perform trivial) hw fun _ w₂ hw => ?_
  refine silent_then (plain_silent shared_plain) hw fun _ w₃ hw => ?_
  refine silent_then (plain_silent planUnplanned_plain) hw fun _ w₄ hw => ?_
  refine silent_then (makes_perform trivial) hw fun _ w₅ hw => ?_
  refine silent_then (plain_silent shared_plain) hw fun _ w₆ hw => ?_
  exact silent_then (makes_perform trivial) hw fun _ w₇ hw => concludeJob_truthful hw

/-- A runner says of the source what is so, however often it has been there before. -/
theorem runJob_truthful (hw : w.Kept h sha256 jobId) :
    Truthfully h F sha256 jobId (runJob cfg jobId) (fun _ w' => w'.Kept h sha256 jobId) w := by
  refine (getJob_truthful hw).bind (fun job w₁ hw => ?_) fun _ _ hw => hw
  refine (silent_reads (plain_silent shared_plain) hw.1).bind (fun _ w₂ hw => ?_)
    fun _ _ hw => hw.kept
  have hbody : Truthfully h F sha256 jobId (runBody cfg jobId job
      (cfg.worktreesDir ++ lit "/" ++ jobId.val ++ lit "/integration")) (StillKept h sha256 jobId)
      w₂ :=
    Ensures.ite (fun _ => resumeRun_truthful hw) fun _ => candidateRun_truthful hw.kept
  refine ensures_attempt_bind.mpr (hbody.imp fun outcome w₃ hw => ?_)
  cases outcome with
  | ok a => exact hw
  | error x =>
    have hsettled : (settleFailed jobId job x.message).Makes JobEffect.Silent :=
      settleFailed_quiet.mono fun e he => silent_of_plain (quiet_plain he).1
    have hcancelled : (settleCancelled jobId).Makes JobEffect.Silent :=
      settleCancelled_quiet.mono fun e he => silent_of_plain (quiet_plain he).1
    exact silent_keeps (Program.Makes.join hsettled hcancelled fun _ => makes_raise) hw

end Programs

/-! ## What completes a job -/

section Completion

variable {F : Type} [PyFloat F] {sha256 : Str → Str} {jobId : Text} {s s' : Store} {e : JobEffect}
  {r : Except Raised e.Reply} {j j' : JobRow}

/-- An operation that publishes nothing completes no job. -/
theorem not_completed_of_run {op : Operation F} (hs : s.Sound sha256) (hs' : s'.Sound sha256)
    (hrun : op.run sha256 s = .ok () s') (hquiet : ∀ id summary, ¬ op.Publishes s id summary)
    (hj : j ∈ s.jobs) (hopen : j.state ≠ .completed) (hj' : j' ∈ s'.jobs) (hid : j'.id = j.id) :
    j'.state ≠ .completed := by
  intro hdone
  have hafter := (hs'.valid j' hj').published_iff.mpr hdone
  have hbefore : j.acceptancePhase ≠ .published := fun heq =>
    hopen ((hs.valid j hj).published_iff.mp heq)
  obtain ⟨published, hprogress, hpublishes⟩ := op.run_progress hs.valid hrun
  obtain ⟨j₁, hj₁, hkey, -, hstep⟩ := hprogress.jobs.forward hj
  have hid₁ : j₁.id = j.id := hkey
  obtain rfl : j₁ = j' := Store.eq_of_id hj₁ hj' (hid₁.trans hid.symm)
  cases hstep with
  | opened before after =>
    rw [hafter] at after
    cases after
  | accepted before after =>
    rw [hafter] at after
    cases after
  | kept before after => exact hbefore (after.symm.trans hafter)
  | applying before after =>
    rw [hafter] at after
    cases after
  | publish before after same summary => exact hquiet _ _ (hpublishes _ _ summary)

/-- A publication that completes the job is of an accepted one, and writes the outcome that it is
given. -/
theorem published_outcome {id : Text} {args : Publication}
    (h : AnswersJob sha256 (.publishCompletedJob id args) s (.ok ()) s') (hj : j ∈ s.jobs)
    (hopen : j.state ≠ .completed) (hj' : j' ∈ s'.jobs) (hid : j'.id = j.id)
    (hown : j.id = id) : j.acceptancePhase ≠ .none ∧
      lit j'.sourceApplyOutcome.value = args.sourceApplyOutcome := by
  obtain ⟨x, ⟨now, rfl⟩, hrun⟩ := h
  obtain ⟨job, hjob, _, -, outcome, hid₀, -, hnamed, -, hcases⟩ :=
    publishCompletedJob_cases sha256 hrun
  obtain rfl : job = j := Store.eq_of_id hjob hj ((Text.ext hid₀).trans hown.symm)
  obtain ⟨-, hpublished⟩ := hcases.resolve_left fun hdone => hopen hdone.1
  obtain ⟨summary, reason, -, -, hevents⟩ := hpublished.writes
  have hhit : (job.id == job.id && job.state == job.state &&
      job.acceptancePhase == job.acceptancePhase) = true := by
    simp only [beq_self_eq_true, Bool.and_self]
  rw [hevents.1.jobs] at hj'
  rw [Store.row_of_update hjob (completeJob_id summary reason outcome now) hhit hj' hid]
  unfold SourceApplyOutcome.ofValue? at hnamed
  have hfound := List.find?_some hnamed
  refine ⟨fun hnone => ?_, beq_iff_eq.mp hfound⟩
  have hallowed := validatePublication_ok hpublished.allowed
  rw [hnone] at hallowed
  rcases hallowed with ⟨-, hphase, -⟩ | ⟨-, hphase, -⟩ <;> cases hphase

/-- Only a publication completes a job. -/
theorem completed_by_publication (hs : s.Sound sha256) (h : AnswersJob sha256 e s r s')
    (hj : j ∈ s.jobs) (hopen : j.state ≠ .completed) (hj' : j' ∈ s'.jobs) (hid : j'.id = j.id)
    (hdone : j'.state = .completed) : ∃ id args, e = .publishCompletedJob id args ∧
      (j.id = id → j.acceptancePhase ≠ .none ∧
        lit j'.sourceApplyOutcome.value = args.sourceApplyOutcome) := by
  have hs' := answersJob_sound hs h
  cases r with
  | error x =>
    rw [answersJob_error h] at hj'
    rw [Store.eq_of_id hj' hj hid] at hdone
    exact absurd hdone hopen
  | ok a =>
    -- a call that is an operation which publishes nothing
    have hquiet : ∀ op : Operation NonFinite, op.run sha256 s = .ok () s' →
        (∀ id summary, ¬ op.Publishes s id summary) → False := fun op hrun hnever =>
      not_completed_of_run hs hs' hrun hnever hj hopen hj' hid hdone
    cases e with
    | publishCompletedJob id args =>
      exact ⟨id, args, rfl, published_outcome h hj hopen hj' hid⟩
    | prepareAcceptedJob id args =>
      obtain ⟨x, ⟨stagedAt, now, rfl⟩, hrun⟩ := h
      exact (hquiet (.call (.prepareAcceptedJob id.val args stagedAt now)) hrun
        fun _ _ hpublishes => hpublishes).elim
    | markApplyStarted id acceptedCommit =>
      obtain ⟨x, ⟨now, rfl⟩, hrun⟩ := h
      exact (hquiet (.call (.markApplyStarted id.val acceptedCommit now)) hrun
        fun _ _ hpublishes => hpublishes).elim
    | updateJob id fields =>
      obtain ⟨x, ⟨now, rfl⟩, hrun⟩ := h
      exact (hquiet (.call (.updateJob id.val fields now)) hrun
        fun _ _ hpublishes => hpublishes).elim
    | _ =>
      have hmoves : s.JobMoves j.id JobRow.SameCandidate s' := answersJob_keepsCandidate h rfl
      exact absurd hdone (not_completed_of_standing hs hs' hmoves.standing hj rfl hopen hj' hid)

end Completion

/-! ## Runs of runners -/

section Runs

variable {valid : Str → Bool} {T U : Type} [DecidableEq T] {h : SourceHistory T U} {F : Type}
    [PyFloat F]
  {sha256 : Str → Str} {jobId : Text} {c c' : JobCoroutine Unit × Applying valid T U}
  {l : PublicationStep}

/-- The invariant of runs: it holds now, and before every call that is still to be made. -/
def StaysTruthful (h : SourceHistory T U) (F : Type) [PyFloat F] (sha256 : Str → Str) (jobId : Text)
    (c : JobCoroutine Unit × Applying valid T U) : Prop :=
  c.2.Kept h sha256 jobId ∧ Truthfully h F sha256 jobId c.1 (fun _ w => w.Kept h sha256 jobId) c.2

/-- The next runner finds what the ones before have left, or what the owner has made of it. -/
theorem start_applying {cfg : JobConfig} (hkept : c.2.Kept h sha256 jobId)
    (hstep : (applying h F sha256 jobId).step c (.start cfg) c') : c'.2.Kept h sha256 jobId := by
  obtain ⟨-, hothers, -, hadvanced, htouched, huntidy⟩ := hstep
  refine ⟨hothers.sound hkept.store, fun hadvanced' => ?_⟩
  have hbefore := hadvanced.mp hadvanced'
  obtain ⟨j, hj, hid, hleft⟩ := hkept.advanced hbefore
  obtain ⟨j', hj', hlater⟩ := others_later hkept.store hothers hj hleft.phase
  refine ⟨j', hj', hlater.id.trans hid, hleft.later hlater (fun huntouched => ?_) huntidy.mpr⟩
  rw [htouched, not_or] at huntouched
  refine ⟨huntouched.1, ?_⟩
  by_contra hmoved
  exact huntouched.2 ⟨hbefore, hmoved⟩

theorem reachable_truthful (hc : (applying h F sha256 jobId).Reachable c) :
    StaysTruthful h F sha256 jobId c := by
  refine hc.invariant ?_ ?_
  · rintro ⟨p, w⟩ ⟨hp, hw, hadvanced, -⟩
    obtain rfl : p = .ret () := hp
    have hkept : w.Kept h sha256 jobId := by
      refine ⟨?_, fun hmoved => absurd hmoved hadvanced⟩
      rw [show w.store = Store.empty from hw]
      exact Store.empty_sound
    exact ⟨hkept, hkept⟩
  · rintro c l c' - ⟨hkept, hrest⟩ hstep
    cases l with
    | call reply =>
      obtain ⟨next, hcall, hanswer, hnext⟩ := hstep
      rw [hcall] at hrest
      rw [StaysTruthful, hnext]
      exact ⟨hrest.1.keeps hanswer, hrest.2 reply.2 c'.2 hanswer⟩
    | start cfg =>
      have hkept' := start_applying hkept hstep
      rw [StaysTruthful, hstep.1]
      exact ⟨hkept', runJob_truthful hkept'⟩

/-- Whatever the runners of a job have been through, and whatever others do to the source in
between: when the job is completed, the outcome that is recorded of the source is so. It has been
applied: the branch that the job has started from was checked out, at a commit that contains the
accepted one, when Git was last at work there. It has been skipped: no runner has ever moved the
source, or others have since, or the accepted commit has made `status` show something there. It
has not been requested: no runner has ever moved it. -/
theorem apply_outcome_truthful (hc : (applying h F sha256 jobId).Reachable c)
    (hstep : (applying h F sha256 jobId).step c l c') {j j' : JobRow} (hj : j ∈ c.2.store.jobs)
    (hid : j.id = jobId) (hopen : j.state ≠ .completed) (hj' : j' ∈ c'.2.store.jobs)
    (hid' : j'.id = jobId) (hdone : j'.state = .completed) :
    (j'.sourceApplyOutcome = .applied →
      ∃ commit, c'.2.seen.At j'.baseBranch.val commit ∧
        h.isAncestor j'.acceptedCommit.val commit = true) ∧
    (j'.sourceApplyOutcome = .skipped → c'.2.advanced → c'.2.touched ∨ c'.2.untidy) ∧
    (j'.sourceApplyOutcome = .notRequested → ¬ c'.2.advanced) := by
  obtain ⟨hkept, hrest⟩ := reachable_truthful hc
  -- the runner starts, or one of its calls is answered
  cases l with
  | start cfg =>
    obtain ⟨-, hothers, -⟩ := hstep
    -- no operation of the others completes the job
    exact absurd hdone (not_completed_of_standing hkept.store (hothers.sound hkept.store)
      hothers.keepsCandidate.standing hj hid hopen hj' hid')
  | call reply =>
    obtain ⟨next, hcall, hanswer, -⟩ := hstep
    rw [hcall] at hrest
    have hguard := hrest.1
    obtain ⟨e, r⟩ := reply
    obtain ⟨s, hothers, hjob⟩ := hanswer.store
    have hs := hothers.sound hkept.store
    -- the row, as the others leave it
    obtain ⟨j₁, hj₁, hid₁, hsame⟩ := hothers.keepsCandidate.forward j hj hid
    have hopen₁ : j₁.state ≠ .completed := not_completed_of_standing hkept.store hs
      hothers.keepsCandidate.standing hj hid hopen hj₁ hid₁
    obtain ⟨id, args, rfl, houtcome⟩ := completed_by_publication hs hjob hj₁ hopen₁ hj'
      (hid'.trans hid₁.symm) hdone
    obtain ⟨-, rfl, htruthful⟩ := hguard
    obtain ⟨hphase, hnamed⟩ := houtcome hid₁
    -- a publication does not move the source
    have hadvanced : c'.2.advanced → c.2.advanced := fun hadvanced' =>
      (hanswer.advanced.mp hadvanced').resolve_right fun hmoved => by
        obtain ⟨commit, heq⟩ := hmoved.1
        cases heq
    -- by the outcome that was published
    refine ⟨fun happlied => ?_, fun hskipped hadvanced' => ?_, fun hnone hadvanced' => ?_⟩
    · rw [happlied] at hnamed
      obtain ⟨commit, htip, hcontained⟩ := htruthful.applied hnamed.symm j hj hid
      -- the branch and the commit of the row stay
      rw [hsame.standing.acceptancePhase] at hphase
      obtain ⟨j₂, hj₂, hlater⟩ := hanswer.later hkept.store hj hphase
      obtain rfl : j₂ = j' := Store.eq_of_id hj₂ hj' ((hlater.id.trans hid).trans hid'.symm)
      refine ⟨commit, ?_, ?_⟩
      · rw [hanswer.seen rfl, hlater.origin.baseBranch]
        exact htip
      · rw [hlater.acceptance.acceptedCommit]
        exact hcontained
    · rw [hskipped] at hnamed
      refine (htruthful.skipped hnamed.symm (hadvanced hadvanced')).imp ?_ ?_
      · exact fun htouched => hanswer.touched.mpr (Or.inl htouched)
      · exact fun huntidy => hanswer.untidy.mpr (Or.inl huntidy)
    · rw [hnone] at hnamed
      exact htruthful.notRequested hnamed.symm (hadvanced hadvanced')

end Runs

/-! ## A job that is applied -/

/-- The job, which is to be applied. -/
def appliedJob : List (Operation NonFinite) :=
  [.call (.createJob (Text.lit "job-1") 1
    { repo := lit "/repo", goal := lit "Add the parser", baseBranch := lit "main"
      baseCommit := lit "c0", integrationBranch := lit "yolo/job-1/integration"
      autoApply := true })]

/-- The source, at the commit that is accepted. -/
def appliedSource : SourceRepo (fun _ => true) Nat Str where
  branches name :=
    if name = lit "main" ∨ name = lit "yolo/job-1/integration" then some (lit "c0") else none
  head := .branch (lit "main")
  files := 1
  rest := [lit "build/parser.o"]
  shortName := id
  branches_named := by
    intro name commit hcommit
    split at hcommit
    · cases hcommit
      exact ⟨rfl, by decide⟩
    · cases hcommit
  head_named _ _ := rfl

/-- The source stays; the fast-forward fails. -/
def appliedAnswer (w : Candidate) : (e : JobEffect) → Except Raised e.Reply × Candidate
  | .source (.fastForward _) => (.error (.gitError []), w)
  | .source command => ((sourceAnswer twoCommits (.source command) appliedSource).1, w)
  | e => offBranchAnswer false w e

/-- The database of the run, and the source. -/
def Candidate.applied (w : Candidate) : Applying (fun _ => true) Nat Str where
  store := w.store
  source := appliedSource
  seen := appliedSource
  advanced := False
  touched := False
  untidy := False

/-- The runners of the job, in such a repository. -/
abbrev appliedRuns : System (JobCoroutine Unit × Applying (fun _ => true) Nat Str)
    PublicationStep :=
  applying twoCommits NonFinite demoDigest (Text.lit "job-1")

/-- The runner goes on. -/
def appliedNext (c : JobCoroutine Unit × Candidate) (_ : Unit) :
    Option (JobCoroutine Unit × Candidate) :=
  match c.1 with
  | .call e next => some (next (appliedAnswer c.2 e).1, (appliedAnswer c.2 e).2)
  | _ => none

/-- The run up to the publication, and the publication. -/
def appliedRun (calls : Nat) :
    Option ((JobCoroutine Unit × Candidate) × (JobCoroutine Unit × Candidate)) := do
  let store ← runOperations demoDigest appliedJob Store.empty
  let before ← (List.replicate calls ()).foldlM appliedNext
    (runJob smallRunner (Text.lit "job-1"), { store := store, refs := offBranchRefs })
  let after ← appliedNext before ()
  return (before, after)

/-- The state of the job before, and its outcome after. -/
def appliedReport (calls : Nat) : Option (List (Text × JobState) ×
    List (Text × JobState × SourceApplyOutcome)) :=
  (appliedRun calls).map fun (before, after) =>
    (before.2.store.jobs.rows.map fun j => (j.id, j.state),
      after.2.store.jobs.rows.map fun j => (j.id, j.state, j.sourceApplyOutcome))

theorem appliedJob_others : ∀ op ∈ appliedJob, ¬ op.Accepts (Text.lit "job-1") := by
  rw [appliedJob, List.forall_mem_cons]
  exact ⟨not_false, fun _ hop => absurd hop List.not_mem_nil⟩

/-- The answers are such as a runner may have. -/
theorem appliedAnswer_answers (e : JobEffect) (w : Candidate) :
    ApplyAnswers twoCommits NonFinite demoDigest (Text.lit "job-1") e w.applied
      (appliedAnswer w e).1 (appliedAnswer w e).2.applied := by
  have hstays : ∀ {p : Prop}, (False ↔ False ∨ p ∧ appliedSource ≠ appliedSource) :=
    ⟨False.elim, fun hmoved => hmoved.elim id fun hmoved => hmoved.2 rfl⟩
  have htouched : (False ↔ False ∨ False ∧ e.atSource = false ∧ appliedSource ≠ appliedSource) :=
    ⟨False.elim, fun hmoved => hmoved.elim id And.left⟩
  have huntidy : (False ↔ False ∨ e.Forwards ∧ appliedSource ≠ appliedSource ∧
      ¬ appliedSource.Clean twoCommits) :=
    ⟨False.elim, fun hmoved => hmoved.elim id fun hmoved => hmoved.2.1 rfl⟩
  have hlater := (offBranchAnswer_answers false e w).store
  cases e with
  | source command =>
    have hstore : ∃ s, w.store.Others NonFinite demoDigest (Text.lit "job-1") s ∧ w.store = s :=
      ⟨w.store, .refl, rfl⟩
    cases command with
    | fastForward commit =>
      exact ⟨hstore, fun _ => ⟨Or.inr ⟨_, rfl, Or.inl rfl⟩, rfl⟩, fun _ => rfl, hstays, htouched,
        huntidy⟩
    | _ =>
      exact ⟨hstore, fun _ => ⟨Or.inl ⟨rfl, rfl⟩, rfl⟩, fun _ => rfl, hstays, htouched, huntidy⟩
  | task e =>
    refine ⟨hlater, fun hsource => ?_, fun _ => rfl, hstays, htouched, huntidy⟩
    cases e with
    | topology command =>
      cases command with
      | validateBranchName name => exact ⟨Or.inl ⟨rfl, rfl⟩, rfl⟩
      | _ => cases hsource
    | _ => cases hsource
  | _ => exact ⟨hlater, fun hsource => absurd hsource Bool.false_ne_true, fun _ => rfl, hstays,
      htouched, huntidy⟩

theorem appliedNext_step {c c' : JobCoroutine Unit × Candidate}
    (h : appliedNext c () = some c') : ∃ l,
      appliedRuns.step (c.1, c.2.applied) l
        (c'.1, c'.2.applied) := by
  unfold appliedNext at h
  split at h
  · rename_i e next hcall
    cases h
    exact ⟨.call ⟨e, (appliedAnswer c.2 e).1⟩, next, hcall, appliedAnswer_answers e c.2, rfl⟩
  · cases h

theorem appliedNext_steps {calls : List Unit} {c c' : JobCoroutine Unit × Candidate}
    (h : calls.foldlM appliedNext c = some c') :
    appliedRuns.Steps (c.1, c.2.applied) (c'.1, c'.2.applied) := by
  induction calls generalizing c with
  | nil =>
    cases h
    exact .refl
  | cons _ calls ih =>
    rw [List.foldlM_cons] at h
    obtain ⟨t, hnext, hrest⟩ := Option.bind_eq_some_iff.mp h
    obtain ⟨l, hstep⟩ := appliedNext_step hnext
    exact .head ⟨l, hstep⟩ (ih hrest)

/-- The run starts from an empty database. -/
theorem appliedRun_reachable {calls : Nat} {c c' : JobCoroutine Unit × Candidate}
    (h : appliedRun calls = some (c, c')) :
    appliedRuns.Reachable (c.1, c.2.applied) ∧
      ∃ l, appliedRuns.step (c.1, c.2.applied) l
        (c'.1, c'.2.applied) := by
  unfold appliedRun at h
  obtain ⟨store, hcreated, h⟩ := Option.bind_eq_some_iff.mp h
  obtain ⟨before, hbefore, h⟩ := Option.bind_eq_some_iff.mp h
  obtain ⟨after, hafter, h⟩ := Option.bind_eq_some_iff.mp h
  cases h
  have hinit : appliedRuns.Reachable
      (.ret (), Candidate.applied { store := Store.empty, refs := offBranchRefs }) :=
    System.reachable_init ⟨rfl, rfl, id, id, id⟩
  have hfirst : appliedRuns.step
      (.ret (), Candidate.applied { store := Store.empty, refs := offBranchRefs })
      (.start smallRunner) (runJob smallRunner (Text.lit "job-1"),
        Candidate.applied { store := store, refs := offBranchRefs }) :=
    ⟨rfl, others_of_runOperations appliedJob_others hcreated, rfl, Iff.rfl,
      ⟨False.elim, fun htouched => htouched.elim id And.left⟩, Iff.rfl⟩
  exact ⟨(hinit.step hfirst).steps (appliedNext_steps hbefore), appliedNext_step hafter⟩

/-- The source has the commit of the job that has been applied. -/
theorem apply_outcome_truthful_applied : ∃ c l c',
    appliedRuns.Reachable c ∧
      appliedRuns.step c l c' ∧
      ∃ j' ∈ c'.2.store.jobs, j'.state = .completed ∧
        ∃ commit, c'.2.seen.At j'.baseBranch.val commit ∧
          twoCommits.isAncestor j'.acceptedCommit.val commit = true := by
  have hreport : appliedReport 61 = some ([(Text.lit "job-1", .running)],
      [(Text.lit "job-1", .completed, .applied)]) := by
    decide +kernel
  obtain ⟨⟨c, c'⟩, hrun, hreport⟩ := Option.map_eq_some_iff.mp hreport
  obtain ⟨hbefore, hafter⟩ := Prod.mk.inj hreport
  obtain ⟨j, hj, hrow⟩ := List.mem_map.mp
    (hbefore ▸ List.mem_singleton.mpr rfl : (Text.lit "job-1", JobState.running) ∈
      c.2.store.jobs.rows.map fun j => (j.id, j.state))
  obtain ⟨j', hj', hrow'⟩ := List.mem_map.mp
    (hafter ▸ List.mem_singleton.mpr rfl :
      (Text.lit "job-1", JobState.completed, SourceApplyOutcome.applied) ∈
        c'.2.store.jobs.rows.map fun j => (j.id, j.state, j.sourceApplyOutcome))
  obtain ⟨hid, hstate⟩ := Prod.mk.inj hrow
  obtain ⟨hid', hrest⟩ := Prod.mk.inj hrow'
  obtain ⟨hstate', happlied⟩ := Prod.mk.inj hrest
  have hopen : j.state ≠ .completed := by
    rw [hstate]
    intro heq
    cases heq
  obtain ⟨hreach, l, hstep⟩ := appliedRun_reachable hrun
  have htruthful := apply_outcome_truthful hreach hstep hj hid hopen hj' hid' hstate'
  exact ⟨_, l, _, hreach, hstep, j', hj', hstate', htruthful.1 happlied⟩

end OmarchyYolo
