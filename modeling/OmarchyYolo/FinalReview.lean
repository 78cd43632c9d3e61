import OmarchyYolo.Reviewer
import OmarchyYolo.ReviewSource

/-!
# OmarchyYolo.FinalReview — the hierarchical final review

Shards, files and the whole candidate are reviewed in three levels;
`reviewFailure` turns the reviews of one level into a failing verdict.

* `reviewFailure_eq_none_iff`: a level fails exactly when one of its non-passing
  reviews is voiced, that is, has a finding (or, without findings, a summary)
  that is not blank;
* `hierarchicalFinalReview_eq`: the result, level by level;
* `final_review_fail_closed_iff`: when the review is fail-closed.
-/

namespace OmarchyYolo

open Py PyJson

/-! ## The review -/

/-- The texts a non-passing review contributes: `review.findings or (review.summary,)`. -/
def ReviewResult.voice (review : ReviewResult) : List Str :=
  if review.findings = [] then [review.summary] else review.findings

/-- The labelled findings of the non-passing reviews. -/
def failureFindings (entries : List (Str × ReviewResult)) : List Str :=
  entries.flatMap fun (label, review) =>
    if review.passed then []
    else (review.voice.filter (· ≠ [])).map fun finding => label ++ lit ": " ++ finding

/-- `_review_failure`. -/
def reviewFailure (summary : Str) (entries : List (Str × ReviewResult)) : Option ReviewResult :=
  let findings := failureFindings entries
  let sawFail := entries.any fun (_, review) => !review.passed && review.verdict == lit "fail"
  if findings = [] then none
  else some {
    verdict := if sawFail then lit "fail" else lit "retry"
    summary
    findings :=
      if 64 < findings.length then
        findings.take 64 ++
          [decimal (findings.length - 64) ++ lit " additional findings omitted"]
      else findings }

/-- The calls of the reviewer, with what they depend on. -/
inductive ReviewCall where
  /-- The shard at a position of the chunk list. -/
  | chunk (position : Nat) (chunk : ReviewChunk) (chunkTotal : Nat)
  /-- The synthesis of the file at a position of the manifest. -/
  | file (position : Nat) (path : Str) (chunkReviews : List ReviewResult)
  | synthesis (manifest : List Str) (fileReviews : List (Str × ReviewResult))

/-- The loop over the shards, from a position on. -/
def reviewChunks (ask : ReviewCall → Except Exn ReviewResult) (manifest : List Str)
    (chunkTotal : Nat) : Nat → List ReviewChunk → Except Exn (List (ReviewChunk × ReviewResult))
  | _, [] => .ok []
  | position, chunk :: chunks => do
    let review ← ask (.chunk position chunk chunkTotal)
    match chunk.files.find? (· ∉ manifest) with
    | some filePath =>
      raise (lit "final-review shard referenced a file outside the manifest: " ++ filePath)
    | none =>
      let reviews ← reviewChunks ask manifest chunkTotal (position + 1) chunks
      return (chunk, review) :: reviews

/-- `chunk_reviews_by_file[path]`. -/
def chunkReviewsOf (reviews : List (ReviewChunk × ReviewResult)) (path : Str) :
    List ReviewResult :=
  reviews.flatMap fun (chunk, review) => (chunk.files.filter (· = path)).map fun _ => review

/-- The loop over the manifest, from a position on: the reviews of the files, or
the result returned early. -/
def reviewFiles (ask : ReviewCall → Except Exn ReviewResult)
    (chunkReviews : List (ReviewChunk × ReviewResult)) :
    Nat → List Str → Except Exn (Except ReviewResult (List (Str × ReviewResult)))
  | _, [] => .ok (.ok [])
  | position, path :: paths =>
    match chunkReviewsOf chunkReviews path with
    | [] => return .error {
        verdict := lit "fail"
        summary := lit "hierarchical review lost changed-file coverage"
        findings := [lit "no reviewed shard represented " ++ path] }
    | [review] => do
      let rest ← reviewFiles ask chunkReviews (position + 1) paths
      return rest.map ((path, review) :: ·)
    | reviews => do
      let review ← ask (.file position path reviews)
      let rest ← reviewFiles ask chunkReviews (position + 1) paths
      return rest.map ((path, review) :: ·)

/-- The label of a shard's findings. -/
def chunkLabel (chunk : ReviewChunk) : Str := lit "chunk " ++ decimal chunk.index

/-- `_hierarchical_final_review`, of a manifest and its shards. -/
def hierarchicalFinalReview (ask : ReviewCall → Except Exn ReviewResult) (manifest : List Str)
    (chunks : List ReviewChunk) : Except Exn ReviewResult := do
  let chunkResults ← reviewChunks ask manifest chunks.length 0 chunks
  match reviewFailure (lit "hierarchical shard audit found material defects")
      (chunkResults.map fun (chunk, review) => (chunkLabel chunk, review)) with
  | some failure => return failure
  | none =>
    match ← reviewFiles ask chunkResults 0 manifest with
    | .error lost => return lost
    | .ok fileReviews =>
      match reviewFailure (lit "file-level semantic synthesis found material defects")
          fileReviews with
      | some failure => return failure
      | none => ask (.synthesis manifest fileReviews)

/-- The prompt of a call. -/
def ReviewCall.prompt (goal : Str) (gates : List GateResult) : ReviewCall → Except Exn Str
  | .chunk _ shard chunkTotal =>
    finalChunkPrompt goal shard.text gates shard.files shard.index chunkTotal
  | .file _ path chunkReviews => fileSynthesisPrompt goal gates path chunkReviews
  | .synthesis manifest fileReviews => finalSynthesisPrompt goal gates manifest fileReviews

/-- A call as the reviewer makes it: the prompt, the child process, its reply. -/
def Reviewer.ask (F : Type) [PyFloat F] (limits : Limits)
    (child : ReviewCall → Str → Except Exn AgentResult) (agentName goal : Str)
    (gates : List GateResult) (call : ReviewCall) : Except Exn ReviewResult := do
  let prompt ← call.prompt goal gates
  let result ← CommandAgent.run (child call) prompt
  Reviewer.run F limits agentName result

/-! ## Accepted reviews -/

/-- A result `Reviewer._run` can return. -/
def Accepted (F : Type) [PyFloat F] (review : ReviewResult) : Prop :=
  ∃ limits agentName result, Reviewer.run F limits agentName result = .ok review

/-- The verdict is one of the three, a pass has no findings, and any other
verdict says something. -/
structure ReviewResult.WellFormed (review : ReviewResult) : Prop where
  verdict : review.verdict ∈ [lit "pass", lit "retry", lit "fail"]
  pass : review.passed = true → review.findings = [] ∧ review.summary ≠ []
  nonPass : review.passed = false → review.summary ≠ [] ∨ ∃ finding ∈ review.findings, finding ≠ []

variable {F : Type}

theorem readReview_wellFormed {payload : Members F} {review : ReviewResult}
    (h : readReview payload = .ok review) : review.WellFormed := by
  unfold readReview at h
  split at h
  · simp only [bind_ok_iff, rejectIf_eq_ok, exists_const] at h
    obtain ⟨hverdict, -, h⟩ := h
    split at h
    · simp only [bind_ok_iff, rejectIf_eq_ok, exists_const] at h
      obtain ⟨-, findings, -, h⟩ := h
      split_ifs at h with hpass
      · simp only [bind_ok_iff, rejectIf_eq_ok, exists_const, not_not] at h
        obtain ⟨hfindings, hsummary, h⟩ := h
        cases h
        exact ⟨not_not.mp hverdict, fun _ => ⟨hfindings, hsummary⟩,
          fun hn => by simp [ReviewResult.passed, hpass] at hn⟩
      · simp only [bind_ok_iff, rejectIf_eq_ok, exists_const] at h
        obtain ⟨hspeaks, h⟩ := h
        cases h
        refine ⟨not_not.mp hverdict, fun hp => ?_, fun _ => ?_⟩
        · exact absurd (beq_iff_eq.mp hp) hpass
        · by_contra hnone
          push Not at hnone
          exact hspeaks hnone
    · cases h
  · cases h

variable [PyFloat F]

theorem Accepted.wellFormed {review : ReviewResult} (h : Accepted F review) :
    review.WellFormed := by
  obtain ⟨limits, agentName, result, h⟩ := h
  simp only [Reviewer.run, bind_ok_iff, rejectIf_eq_ok, exists_const] at h
  obtain ⟨-, payload, -, h⟩ := h
  exact readReview_wellFormed h

/-! ## One level -/

/-- Findings, all of them blank. -/
def ReviewResult.Silent (review : ReviewResult) : Prop :=
  review.findings ≠ [] ∧ ∀ finding ∈ review.findings, finding = []

/-- A review that does not pass is voiced, or its findings are blank. -/
theorem ReviewResult.WellFormed.voiced_iff {review : ReviewResult} (h : review.WellFormed)
    (hp : review.passed = false) :
    (∃ text ∈ review.voice, text ≠ []) ↔ ¬ review.Silent := by
  unfold ReviewResult.voice ReviewResult.Silent
  split_ifs with hf
  · refine ⟨fun _ hs => hs.1 hf, fun _ => ?_⟩
    rcases h.nonPass hp with hs | ⟨f, hmem, -⟩
    · exact ⟨_, List.mem_singleton_self _, hs⟩
    · rw [hf] at hmem
      cases hmem
  · push Not
    exact ⟨fun hex _ => hex, fun hex => hex hf⟩

/-- A level fails exactly when one of its non-passing reviews is voiced. -/
theorem reviewFailure_eq_none_iff (summary : Str) (entries : List (Str × ReviewResult)) :
    reviewFailure summary entries = none ↔
      ∀ e ∈ entries, e.2.passed = false → ∀ text ∈ e.2.voice, text = [] := by
  have hfindings : reviewFailure summary entries = none ↔ failureFindings entries = [] := by
    simp only [reviewFailure]
    split_ifs with h
    · exact ⟨fun _ => h, fun _ => rfl⟩
    · exact ⟨nofun, fun h' => absurd h' h⟩
  rw [hfindings, failureFindings, List.flatMap_eq_nil_iff]
  refine forall₂_congr fun e _ => ?_
  cases hp : e.2.passed with
  | true => simp [hp]
  | false => simp [hp]

/-- A failing level does not pass. -/
theorem reviewFailure_not_passed {summary : Str} {entries : List (Str × ReviewResult)}
    {failure : ReviewResult} (h : reviewFailure summary entries = some failure) :
    failure.passed = false := by
  simp only [reviewFailure] at h
  split_ifs at h <;> cases h <;> rfl

/-- Among well-formed reviews, those that do not pass contribute nothing exactly
when they are silent. -/
theorem blank_iff_silent {α : Type} {entries : List (α × ReviewResult)}
    (h : ∀ e ∈ entries, e.2.WellFormed) :
    (∀ e ∈ entries, e.2.passed = false → ∀ text ∈ e.2.voice, text = []) ↔
      ∀ e ∈ entries, e.2.passed = false → e.2.Silent := by
  refine forall₂_congr fun e he => forall_congr' fun hp => ?_
  have := (h e he).voiced_iff hp
  rw [← not_iff_not, not_forall₂]
  simpa using this

/-- Of accepted reviews, a level passes as it should exactly when its non-passing
reviews, if there are any, are not all silent. -/
theorem reviewFailure_faithful_iff (summary : Str) {entries : List (Str × ReviewResult)}
    (h : ∀ e ∈ entries, e.2.WellFormed) :
    (reviewFailure summary entries = none ↔ ∀ e ∈ entries, e.2.passed = true) ↔
      ((∃ e ∈ entries, e.2.passed = false) →
        ∃ e ∈ entries, e.2.passed = false ∧ ¬ e.2.Silent) := by
  rw [reviewFailure_eq_none_iff, blank_iff_silent h]
  constructor
  · rintro hiff ⟨e, he, hp⟩
    by_contra hall
    push Not at hall
    have := hiff.mp hall e he
    rw [hp] at this
    cases this
  · intro hex
    constructor
    · intro hsilent e he
      by_contra hp
      obtain ⟨e', he', hp', hs'⟩ := hex ⟨e, he, by simpa using hp⟩
      exact hs' (hsilent e' he' hp')
    · intro hpass e he hp
      rw [hpass e he] at hp
      cases hp

/-! ## The three levels -/

section Levels

variable (reviews : ReviewCall → ReviewResult)

/-- The shards with their reviews. -/
def shardReviews (chunkTotal : Nat) : Nat → List ReviewChunk → List (ReviewChunk × ReviewResult)
  | _, [] => []
  | position, chunk :: chunks =>
    (chunk, reviews (.chunk position chunk chunkTotal)) ::
      shardReviews chunkTotal (position + 1) chunks

/-- The review of a file: that of its only shard, or the synthesis of several. -/
def fileReview (chunkReviews : List (ReviewChunk × ReviewResult)) (position : Nat) (path : Str) :
    ReviewResult :=
  match chunkReviewsOf chunkReviews path with
  | [review] => review
  | several => reviews (.file position path several)

/-- The files with their reviews. -/
def fileLevelReviews (chunkReviews : List (ReviewChunk × ReviewResult)) :
    Nat → List Str → List (Str × ReviewResult)
  | _, [] => []
  | position, path :: paths =>
    (path, fileReview reviews chunkReviews position path) ::
      fileLevelReviews chunkReviews (position + 1) paths

/-- The shards reference only files of the manifest. -/
def InManifest (manifest : List Str) (chunks : List ReviewChunk) : Prop :=
  ∀ chunk ∈ chunks, ∀ path ∈ chunk.files, path ∈ manifest

/-- Every manifest entry is represented by a shard. -/
def Covered (manifest : List Str) (chunks : List ReviewChunk) : Prop :=
  ∀ path ∈ manifest, ∃ chunk ∈ chunks, path ∈ chunk.files

/-- All shard reviews of a run. -/
def allShards (chunks : List ReviewChunk) : List (ReviewChunk × ReviewResult) :=
  shardReviews reviews chunks.length 0 chunks

/-- All file-level reviews of a run. -/
def allFiles (manifest : List Str) (chunks : List ReviewChunk) : List (Str × ReviewResult) :=
  fileLevelReviews reviews (allShards reviews chunks) 0 manifest

/-- The global synthesis review of a run. -/
def globalReview (manifest : List Str) (chunks : List ReviewChunk) : ReviewResult :=
  reviews (.synthesis manifest (allFiles reviews manifest chunks))

theorem map_fst_shardReviews (chunkTotal position : Nat) (chunks : List ReviewChunk) :
    (shardReviews reviews chunkTotal position chunks).map Prod.fst = chunks := by
  induction chunks generalizing position with
  | nil => rfl
  | cons chunk chunks ih => rw [shardReviews, List.map_cons, ih]

/-- The shard loop, when the reviewer answers every call. -/
theorem reviewChunks_eq {manifest : List Str} {chunks : List ReviewChunk} (chunkTotal : Nat)
    (h : InManifest manifest chunks) (position : Nat) :
    reviewChunks (fun call => .ok (reviews call)) manifest chunkTotal position chunks =
      .ok (shardReviews reviews chunkTotal position chunks) := by
  induction chunks generalizing position with
  | nil => rfl
  | cons chunk chunks ih =>
    have hfind : chunk.files.find? (· ∉ manifest) = none := by
      simpa [List.find?_eq_none] using h chunk (by simp)
    have hrest := ih (fun c hc => h c (List.mem_cons_of_mem _ hc)) (position + 1)
    simp only [reviewChunks, hfind, hrest, shardReviews]
    rfl

/-- A shard outside the manifest stops the loop. -/
theorem reviewChunks_error {manifest : List Str} {chunks : List ReviewChunk} (chunkTotal : Nat)
    (h : ¬ InManifest manifest chunks) (position : Nat) :
    ∃ e, reviewChunks (fun call => .ok (reviews call)) manifest chunkTotal position chunks =
      .error e := by
  induction chunks generalizing position with
  | nil => exact absurd (fun chunk hc => by cases hc) h
  | cons chunk chunks ih =>
    cases hfind : chunk.files.find? (· ∉ manifest) with
    | some path => exact ⟨_, by simp only [reviewChunks, hfind]; rfl⟩
    | none =>
      have hrest : ¬ InManifest manifest chunks := by
        intro hin
        refine h fun c hc => ?_
        rcases List.mem_cons.mp hc with rfl | hc
        · simpa [List.find?_eq_none] using hfind
        · exact hin c hc
      obtain ⟨e, he⟩ := ih hrest (position + 1)
      exact ⟨e, by simp only [reviewChunks, hfind, he]; rfl⟩

/-- A file has no shard review exactly when no shard represents it. -/
theorem chunkReviewsOf_eq_nil_iff {chunkReviews : List (ReviewChunk × ReviewResult)} {path : Str} :
    chunkReviewsOf chunkReviews path = [] ↔
      ∀ chunk ∈ chunkReviews.map Prod.fst, path ∉ chunk.files := by
  simp only [chunkReviewsOf, List.flatMap_eq_nil_iff, List.map_eq_nil_iff,
    List.filter_eq_nil_iff, decide_eq_true_eq, List.forall_mem_map]
  refine forall₂_congr fun e _ => ?_
  exact ⟨fun h hp => h path hp rfl, fun h p hp heq => h (heq ▸ hp)⟩

/-- The file loop, when every file of the manifest is represented. -/
theorem reviewFiles_eq {chunkReviews : List (ReviewChunk × ReviewResult)} {manifest : List Str}
    (h : Covered manifest (chunkReviews.map Prod.fst)) (position : Nat) :
    reviewFiles (fun call => .ok (reviews call)) chunkReviews position manifest =
      .ok (.ok (fileLevelReviews reviews chunkReviews position manifest)) := by
  induction manifest generalizing position with
  | nil => rfl
  | cons path paths ih =>
    have hrest := ih (fun p hp => h p (List.mem_cons_of_mem _ hp)) (position + 1)
    rw [reviewFiles, fileLevelReviews, fileReview]
    split
    · rename_i hnil
      obtain ⟨chunk, hchunk, hpath⟩ := h path (by simp)
      exact absurd hpath (chunkReviewsOf_eq_nil_iff.mp hnil chunk hchunk)
    · rename_i review hone
      rw [hrest, hone]
      rfl
    · rename_i hnil hone
      rw [hrest]
      split
      · rename_i review heq
        exact absurd heq (hone review)
      · rfl

/-- A file without a shard makes the result a failure. -/
theorem reviewFiles_lost {chunkReviews : List (ReviewChunk × ReviewResult)} {manifest : List Str}
    (h : ¬ Covered manifest (chunkReviews.map Prod.fst)) (position : Nat) :
    ∃ lost, reviewFiles (fun call => .ok (reviews call)) chunkReviews position manifest =
      .ok (.error lost) ∧ lost.passed = false := by
  induction manifest generalizing position with
  | nil => exact absurd (fun path hp => by cases hp) h
  | cons path paths ih =>
    rw [reviewFiles]
    by_cases hnil : chunkReviewsOf chunkReviews path = []
    · rw [hnil]
      exact ⟨_, rfl, rfl⟩
    · have hrest : ¬ Covered paths (chunkReviews.map Prod.fst) := by
        intro hcov
        refine h fun p hp => ?_
        rcases List.mem_cons.mp hp with rfl | hp
        · rw [chunkReviewsOf_eq_nil_iff] at hnil
          push Not at hnil
          exact hnil
        · exact hcov p hp
      obtain ⟨lost, hlost, hfail⟩ := ih hrest (position + 1)
      refine ⟨lost, ?_, hfail⟩
      split
      · rename_i heq
        exact absurd heq hnil
      · rw [hlost]
        rfl
      · rw [hlost]
        rfl

/-- The result passes exactly when the shards and the manifest fit, no level
fails, and the synthesis passes. -/
theorem hierarchicalFinalReview_passed_iff (manifest : List Str) (chunks : List ReviewChunk) :
    (∃ result, hierarchicalFinalReview (fun call => .ok (reviews call)) manifest chunks =
        .ok result ∧ result.passed = true) ↔
      InManifest manifest chunks ∧ Covered manifest chunks ∧
        (∀ e ∈ allShards reviews chunks, e.2.passed = false → ∀ text ∈ e.2.voice, text = []) ∧
        (∀ e ∈ allFiles reviews manifest chunks,
          e.2.passed = false → ∀ text ∈ e.2.voice, text = []) ∧
        (globalReview reviews manifest chunks).passed = true := by
  have hshards := reviewFailure_eq_none_iff (lit "hierarchical shard audit found material defects")
    ((allShards reviews chunks).map fun (chunk, review) => (chunkLabel chunk, review))
  rw [List.forall_mem_map] at hshards
  rw [← hshards, ← reviewFailure_eq_none_iff
    (lit "file-level semantic synthesis found material defects")]
  unfold hierarchicalFinalReview
  -- `InManifest`: the loop over the shards ends without an error
  by_cases hin : InManifest manifest chunks
  swap
  · obtain ⟨e, he⟩ := reviewChunks_error reviews chunks.length hin 0
    rw [he]
    exact ⟨nofun, fun h => absurd h.1 hin⟩
  have hloop := reviewChunks_eq reviews chunks.length hin 0
  change reviewChunks _ _ _ _ _ = .ok (allShards reviews chunks) at hloop
  rw [hloop, ok_bind]
  -- the shards: a failure with something to say ends the review
  cases hshard : reviewFailure (lit "hierarchical shard audit found material defects")
      ((allShards reviews chunks).map fun (chunk, review) => (chunkLabel chunk, review)) with
  | some failure =>
    refine ⟨?_, fun h => nomatch h.2.2.1⟩
    rintro ⟨result, ⟨⟩, hpass⟩
    rw [reviewFailure_not_passed hshard] at hpass
    cases hpass
  | none =>
    have hmap : (allShards reviews chunks).map Prod.fst = chunks :=
      map_fst_shardReviews reviews chunks.length 0 chunks
    -- `Covered`: every file of the manifest has a synthesis to come
    by_cases hcov : Covered manifest chunks
    swap
    · rw [← hmap] at hcov
      obtain ⟨lost, hlost, hfail⟩ := reviewFiles_lost reviews hcov 0
      rw [hmap] at hcov
      simp only [hlost, ok_bind]
      refine ⟨?_, fun h => absurd h.2.1 hcov⟩
      rintro ⟨result, ⟨⟩, hpass⟩
      rw [hfail] at hpass
      cases hpass
    rw [← hmap] at hcov
    have hfiles := reviewFiles_eq reviews hcov 0
    rw [hmap] at hcov
    change reviewFiles _ _ _ _ = .ok (.ok (allFiles reviews manifest chunks)) at hfiles
    simp only [hfiles, ok_bind]
    -- the files: again a failure with something to say ends the review
    cases hfile : reviewFailure (lit "file-level semantic synthesis found material defects")
        (allFiles reviews manifest chunks) with
    | some failure =>
      refine ⟨?_, fun h => nomatch h.2.2.2.1⟩
      rintro ⟨result, ⟨⟩, hpass⟩
      rw [reviewFailure_not_passed hfile] at hpass
      cases hpass
    | none =>
      -- the global review decides
      refine ⟨?_, fun h => ⟨_, rfl, h.2.2.2.2⟩⟩
      rintro ⟨result, ⟨⟩, hpass⟩
      exact ⟨hin, hcov, trivial, rfl, hpass⟩

/-- Every review of a run is the answer of a call. -/
theorem exists_call_of_mem_shardReviews {chunkTotal position : Nat} {chunks : List ReviewChunk}
    {e : ReviewChunk × ReviewResult} (h : e ∈ shardReviews reviews chunkTotal position chunks) :
    ∃ call, e.2 = reviews call := by
  induction chunks generalizing position with
  | nil => cases h
  | cons chunk chunks ih =>
    rcases List.mem_cons.mp h with rfl | h
    · exact ⟨_, rfl⟩
    · exact ih h

theorem exists_call_of_mem_allFiles {manifest : List Str} {chunks : List ReviewChunk}
    {e : Str × ReviewResult} (h : e ∈ allFiles reviews manifest chunks) :
    ∃ call, e.2 = reviews call := by
  have hfile : ∀ position path, ∃ call,
      fileReview reviews (allShards reviews chunks) position path = reviews call := by
    intro position path
    unfold fileReview
    split
    · rename_i review hone
      have hmem : review ∈ chunkReviewsOf (allShards reviews chunks) path := by simp [hone]
      simp only [chunkReviewsOf, List.mem_flatMap, List.mem_map] at hmem
      obtain ⟨e, he, -, -, rfl⟩ := hmem
      exact exists_call_of_mem_shardReviews reviews he
    · exact ⟨_, rfl⟩
  have hlevel : ∀ position (paths : List Str),
      e ∈ fileLevelReviews reviews (allShards reviews chunks) position paths →
        ∃ call, e.2 = reviews call := by
    intro position paths
    induction paths generalizing position with
    | nil => exact nofun
    | cons path paths ih =>
      intro h
      rcases List.mem_cons.mp h with rfl | h
      · exact hfile position path
      · exact ih _ h
  exact hlevel 0 manifest h

/-! ## Fail-closed -/

/-- A passing result means that every review of the run passed and that every
manifest entry was represented. -/
def FailClosed (manifest : List Str) (chunks : List ReviewChunk) : Prop :=
  ∀ result, hierarchicalFinalReview (fun call => .ok (reviews call)) manifest chunks =
      .ok result → result.passed = true →
    (∀ e ∈ allShards reviews chunks, e.2.passed = true) ∧
      (∀ e ∈ allFiles reviews manifest chunks, e.2.passed = true) ∧
      (globalReview reviews manifest chunks).passed = true ∧ Covered manifest chunks

/-- If some shard or file does not pass, then the shards and the manifest do not
fit, the synthesis does not pass, or one of the non-passing reviews has no
findings at all or one that is not blank. -/
def Heard (manifest : List Str) (chunks : List ReviewChunk) : Prop :=
  (∃ e ∈ allShards reviews chunks, e.2.passed = false) ∨
      (∃ e ∈ allFiles reviews manifest chunks, e.2.passed = false) →
    ¬ InManifest manifest chunks ∨ ¬ Covered manifest chunks ∨
      (globalReview reviews manifest chunks).passed = false ∨
      (∃ e ∈ allShards reviews chunks, e.2.passed = false ∧ ¬ e.2.Silent) ∨
      (∃ e ∈ allFiles reviews manifest chunks, e.2.passed = false ∧ ¬ e.2.Silent)

theorem failClosed_iff_heard (h : ∀ call, (reviews call).WellFormed) (manifest : List Str)
    (chunks : List ReviewChunk) :
    FailClosed reviews manifest chunks ↔ Heard reviews manifest chunks := by
  -- the reviews of the loops are replies of the reviewer
  have hshards : ∀ e ∈ allShards reviews chunks, e.2.WellFormed := by
    intro e he
    obtain ⟨call, hcall⟩ := exists_call_of_mem_shardReviews reviews he
    exact hcall ▸ h call
  have hfiles : ∀ e ∈ allFiles reviews manifest chunks, e.2.WellFormed := by
    intro e he
    obtain ⟨call, hcall⟩ := exists_call_of_mem_allFiles reviews he
    exact hcall ▸ h call
  have hpassed := hierarchicalFinalReview_passed_iff reviews manifest chunks
  rw [blank_iff_silent hshards, blank_iff_silent hfiles] at hpassed
  -- the other conditions hold, so the level passes unless a failed review is heard
  constructor
  · intro hclosed hsome
    by_contra hnone
    push Not at hnone
    obtain ⟨hin, hcov, hglobal, hs, hf⟩ := hnone
    obtain ⟨result, hresult, hpass⟩ := hpassed.mpr
      ⟨hin, hcov, hs, hf, by simpa using hglobal⟩
    obtain ⟨hall, hallf, -⟩ := hclosed result hresult hpass
    rcases hsome with ⟨e, he, hp⟩ | ⟨e, he, hp⟩
    · rw [hall e he] at hp
      cases hp
    · rw [hallf e he] at hp
      cases hp
  -- one of the failed reviews is heard, though the level has passed
  · intro hheard result hresult hpass
    obtain ⟨hin, hcov, hs, hf, hglobal⟩ := hpassed.mp ⟨result, hresult, hpass⟩
    have hnone : ¬ ((∃ e ∈ allShards reviews chunks, e.2.passed = false) ∨
        (∃ e ∈ allFiles reviews manifest chunks, e.2.passed = false)) := by
      intro hsome
      rcases hheard hsome with hc | hc | hc | ⟨e, he, hp, hc⟩ | ⟨e, he, hp, hc⟩
      · exact hc hin
      · exact hc hcov
      · rw [hglobal] at hc
        cases hc
      · exact hc (hs e he hp)
      · exact hc (hf e he hp)
    push Not at hnone
    exact ⟨fun e he => by simpa using hnone.1 e he, fun e he => by simpa using hnone.2 e he,
      hglobal, hcov⟩

end Levels

/-- What a call returns is a result of `Reviewer._run`. -/
theorem Reviewer.ask_accepted {limits : Limits} {child : ReviewCall → Str → Except Exn AgentResult}
    {agentName goal : Str} {gates : List GateResult} {call : ReviewCall} {review : ReviewResult}
    (h : Reviewer.ask F limits child agentName goal gates call = .ok review) :
    Accepted F review := by
  simp only [Reviewer.ask, bind_ok_iff] at h
  rcases h with ⟨_, _, result, _, hrun⟩
  exact ⟨limits, agentName, result, hrun⟩

/-- The review of a reviewer whose calls all return, whatever its child process replies. -/
theorem Reviewer.failClosed_iff_heard {limits : Limits}
    {child : ReviewCall → Str → Except Exn AgentResult} {agentName goal : Str}
    {gates : List GateResult} {reviews : ReviewCall → ReviewResult}
    (h : ∀ call, Reviewer.ask F limits child agentName goal gates call = .ok (reviews call)) :
    ∀ manifest chunks, FailClosed reviews manifest chunks ↔ Heard reviews manifest chunks :=
  OmarchyYolo.failClosed_iff_heard reviews fun call => (ask_accepted (h call)).wellFormed

/-- When the final review is fail-closed, for all reviews the reviewer can return:
exactly when the non-passing reviews, if there are any, are heard. -/
theorem final_review_fail_closed_iff (reviews : ReviewCall → ReviewResult)
    (h : ∀ call, Accepted F (reviews call)) :
    (∀ manifest chunks,
        FailClosed reviews manifest chunks ↔ Heard reviews manifest chunks) ∧
      ∀ summary entries, (∀ e ∈ entries, Accepted F e.2) →
        ((reviewFailure summary entries = none ↔ ∀ e ∈ entries, e.2.passed = true) ↔
          ((∃ e ∈ entries, e.2.passed = false) →
            ∃ e ∈ entries, e.2.passed = false ∧ ¬ e.2.Silent)) :=
  ⟨failClosed_iff_heard reviews fun call => (h call).wellFormed,
    fun summary _ he => reviewFailure_faithful_iff summary fun e hmem => (he e hmem).wellFormed⟩

/-- A reviewer that passes everything. -/
def passReply : AgentResult :=
  ⟨0, lit "\x7b\"verdict\": \"pass\", \"summary\": \"adds a parser\", \"findings\": []\x7d", []⟩

theorem final_review_fail_closed_pass :
    (∀ manifest chunks,
        FailClosed (fun _ => ⟨lit "pass", lit "adds a parser", []⟩) manifest chunks ↔
          Heard (fun _ => ⟨lit "pass", lit "adds a parser", []⟩) manifest chunks) ∧
      ∀ summary entries, (∀ e ∈ entries, Accepted NonFinite e.2) →
        ((reviewFailure summary entries = none ↔ ∀ e ∈ entries, e.2.passed = true) ↔
          ((∃ e ∈ entries, e.2.passed = false) →
            ∃ e ∈ entries, e.2.passed = false ∧ ¬ e.2.Silent)) :=
  final_review_fail_closed_iff (F := NonFinite) _
    fun _ => ⟨usualLimits, lit "claude", passReply, by decide +kernel⟩

/-- A reviewer that sends the change back with a summary and one blank finding. -/
def blankReply : AgentResult :=
  ⟨0, lit "\x7b\"verdict\": \"fail\", \"summary\": \"drops the table\", \"findings\": [\"\"]\x7d",
    []⟩

/-- The shard of `a.py` is failed, the synthesis passes, and so does the result. -/
theorem final_review_passes_failed_shard :
    let ask : ReviewCall → Except Exn ReviewResult := fun call =>
      match call with
      | .chunk .. => Reviewer.run NonFinite usualLimits (lit "claude") blankReply
      | _ => Reviewer.run NonFinite usualLimits (lit "claude") passReply
    let chunk : ReviewChunk := ⟨1, [lit "a.py"], lit "+ x"⟩
    ask (.chunk 0 chunk 1) = .ok ⟨lit "fail", lit "drops the table", [[]]⟩ ∧
      hierarchicalFinalReview ask [lit "a.py"] [chunk] =
        .ok ⟨lit "pass", lit "adds a parser", []⟩ ∧
      reviewFailure (lit "shard audit")
        [(lit "chunk 1", ⟨lit "fail", lit "drops the table", [[]]⟩)] = none := by
  decide +kernel

end OmarchyYolo
