import OmarchyYolo.Model
import OmarchyYolo.Prompts

/-!
# OmarchyYolo.Reviewer — prompts to a reviewer, and its reply

* `CommandAgent.run`: the prompt is bounded before the child process sees it;
* `formatGates` and the prompts of the three review calls, with their checks;
* `Reviewer.run`: which replies are accepted as a `ReviewResult`
  (`Reviewer.run_wellFormed`).
-/

namespace OmarchyYolo

open Py PyJson

variable {F : Type}

/-! ## The agent -/

def maxPromptArgBytes : Nat := 120000

def promptMarker : Str := lit "\n...[prompt truncated by orchestrator]...\n"

/-- The prompt `CommandAgent.run` hands to the child process. -/
def boundedPrompt (prompt : Str) : Except Exn Str :=
  truncateUtf8 prompt maxPromptArgBytes promptMarker

/-- `CommandAgent.run`, of a child process that answers the prompt it is handed. -/
def CommandAgent.run (child : Str → Except Exn AgentResult) (prompt : Str) :
    Except Exn AgentResult := do
  child (← boundedPrompt prompt)

/-! ## Prompts -/

def maxReviewSummaryChars : Nat := 8000
def maxReviewFindings : Nat := 64
def maxReviewFindingChars : Nat := 4000
def maxGateSummaryBytes : Nat := 16000
def maxSynthesisInputBytes : Nat := 80000

/-- `"\n".join(lines)`. -/
def joinLines : List Str → Str
  | [] => []
  | [line] => line
  | line :: lines => line ++ .scalar '\n' :: joinLines lines

/-- `text or default`. -/
def orElse (text default : Str) : Str := if text = [] then default else text

/-- The lines one gate contributes. -/
def gateLines (result : GateResult) : Str :=
  lit "- " ++ result.command ++ lit ": exit=" ++ dumpsInt result.returncode ++ lit " timeout=" ++
    (if result.timedOut then lit "True" else lit "False") ++ lit "\n" ++
    lastChars 1500 result.stderr

/-- `format_gates`. -/
def formatGates (results : List GateResult) : Except Exn Str :=
  truncateUtf8 (orElse (joinLines (results.map gateLines)) (lit "No explicit gates were run."))
    maxGateSummaryBytes

/-- `if len(text.encode("utf-8")) > MAX_SYNTHESIS_INPUT_BYTES: raise`. -/
def checkSynthesisInput (text message : Str) : Except Exn Unit := do
  rejectIf (maxSynthesisInputBytes < (← utf8Bytes text)) message

/-- The files a shard represents, one a line. -/
def fileLines (files : List Str) : Str :=
  orElse (joinLines (files.map (lit "- " ++ ·))) (lit "- none")

/-- The prompt of `review_final_chunk`. -/
def finalChunkPrompt (goal diff : Str) (gates : List GateResult) (files : List Str)
    (chunkIndex chunkTotal : Nat) : Except Exn Str := do
  return finalReviewTemplate goal (← formatGates gates) (fileLines files) diff chunkIndex
    chunkTotal

/-- The summaries of a file's shards, numbered from one. -/
def shardSummaries (chunkReviews : List ReviewResult) : Str :=
  joinLines (chunkReviews.mapIdx fun i review =>
    lit "- shard " ++ decimal (i + 1) ++ lit ": " ++ review.summary)

/-- The prompt of `review_file_synthesis`. -/
def fileSynthesisPrompt (goal : Str) (gates : List GateResult) (filePath : Str)
    (chunkReviews : List ReviewResult) : Except Exn Str := do
  let summaryText := shardSummaries chunkReviews
  checkSynthesisInput filePath
    (lit "file path is too large for complete file synthesis review")
  checkSynthesisInput summaryText
    (lit "file shard summaries are too large for complete synthesis review")
  return fileSynthesisTemplate goal (← formatGates gates) filePath
    (orElse summaryText (lit "- no shard summaries"))

/-- The changed files, one a line. -/
def manifestLines (manifest : List Str) : Str :=
  orElse (joinLines (manifest.map (lit "- " ++ ·))) (lit "- no changed files")

/-- The file-level reports, one a line. -/
def fileReports (fileReviews : List (Str × ReviewResult)) : Str :=
  orElse
    (joinLines (fileReviews.map fun (path, review) => lit "- " ++ path ++ lit ": " ++
      review.summary))
    (lit "- no changed-file reports")

/-- The prompt of `review_final_synthesis`, given the file reports. -/
def finalSynthesisPrompt (goal : Str) (gates : List GateResult) (manifest : List Str)
    (fileReviews : List (Str × ReviewResult)) : Except Exn Str := do
  let manifestText := manifestLines manifest
  checkSynthesisInput manifestText
    (lit "changed-file manifest is too large for complete synthesis review")
  let summaryText := fileReports fileReviews
  checkSynthesisInput summaryText
    (lit "file semantic reports are too large for complete synthesis review")
  return finalSynthesisTemplate goal (← formatGates gates) manifestText summaryText

/-! ## The reply -/

/-- The loop over the reply's findings. -/
def reviewFindings : List (Json F) → Except Exn (List Str)
  | [] => .ok []
  | .str item :: items => do
    rejectIf (maxReviewFindingChars < (strip item).length) (lit "reviewer finding is too large")
    let findings ← reviewFindings items
    return strip item :: findings
  | _ :: _ => raise (lit "reviewer findings must contain only strings")

/-- What `Reviewer._run` does with the decoded reply. -/
def readReview (payload : Members F) : Except Exn ReviewResult :=
  match (payload.get? (lit "verdict")).getD (.str []),
    (payload.get? (lit "summary")).getD (.str []) with
  | .str verdictRaw, .str summaryRaw => do
    let verdict := lower (strip verdictRaw)
    rejectIf (verdict ∉ [lit "pass", lit "retry", lit "fail"])
      (lit "reviewer returned invalid verdict '" ++ verdict ++ lit "'")
    let summary := strip summaryRaw
    rejectIf (maxReviewSummaryChars < summary.length) (lit "reviewer summary is too large")
    match (payload.get? (lit "findings")).getD (.arr .nil) with
    | .arr rawFindings =>
      rejectIf (maxReviewFindings < rawFindings.toList.length)
        (lit "reviewer returned too many findings")
      let findings ← reviewFindings rawFindings.toList
      if verdict = lit "pass" then
        rejectIf (findings ≠ []) (lit "reviewer returned pass with material findings")
        rejectIf (summary = []) (lit "reviewer pass verdict must include a semantic summary")
      else
        rejectIf (summary = [] ∧ ∀ finding ∈ findings, finding = [])
          (lit "reviewer non-pass verdict must include a summary or finding")
      return { verdict, summary, findings }
    | _ => raise (lit "reviewer findings must be an array")
  | _, _ => raise (lit "reviewer verdict and summary must be strings")

/-- `Reviewer._run`, of the agent's result. -/
def Reviewer.run (F : Type) [PyFloat F] (limits : Limits) (agentName : Str) (result : AgentResult) :
    Except Exn ReviewResult := do
  rejectIf (result.ok = false)
    (lit "reviewer agent " ++ agentName ++ lit " exited " ++ dumpsInt result.returncode ++
      lit ": " ++ lastChars 1000 result.stderr)
  readReview (← extractJsonObject (F := F) limits result.stdout)

end OmarchyYolo
