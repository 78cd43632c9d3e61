import OmarchyYolo.EventLedger
import OmarchyYolo.Lib.JsonSize

/-!
# OmarchyYolo.Listings — the answers to `jobs` and `events`

The daemon writes its answer as one line of JSON, and another line instead where
that one is too long. The events of a page are counted in encoded bytes before
they are sent; the jobs of a page are cut by characters, and not counted.

* `rpcResponse` — the line the daemon writes; `Answered` — the answer has been sent;
* `jobListItem`, `eventsBounded` — the items of the two listings;
* `events_answered`: a page of events always fits;
* `listings_answered_iff`: a page of jobs is sent exactly when its items add up to
  less than a line.
-/

namespace OmarchyYolo

open Py PyJson Sql Txn Lts

/-! ## Lines -/

def maxRpcMessageBytes : Nat := 1048576

def maxJobListLimit : Int := 200

def maxEventListLimit : Int := 100

section Lines

variable {F : Type} [PyFloat F]

/-- The line of a JSON value. -/
def rpcLine (response : Json F) : Str := dumps .wire response ++ lit "\n"

def okResponse (requestId result : Json F) : Json F :=
  .obj (.ofList [(lit "id", requestId), (lit "ok", .bool true), (lit "result", result)])

def errorResponse (requestId : Json F) (error : Str) : Json F :=
  .obj (.ofList [(lit "id", requestId), (lit "ok", .bool false), (lit "error", .str error)])

/-- What `_handle_client` writes for the result of `dispatch`; `text` is `str(exc)`. -/
def rpcResponse (text : Exn → Str) (requestId : Json F) (result : Except Exn (Json F)) : Str :=
  let response := match result with
    | .ok result => okResponse requestId result
    | .error exc => errorResponse requestId (text exc)
  let encoded := rpcLine response
  if maxRpcMessageBytes < byteLen encoded then
    rpcLine (errorResponse requestId (lit "RPC response exceeds the maximum message size"))
  else encoded

/-- The line has `ok = true` and fits. -/
def Answered (requestId : Json F) (line : Str) : Prop :=
  ∃ result, line = rpcLine (okResponse requestId result) ∧ byteLen line ≤ maxRpcMessageBytes

/-- `_bounded_int` of a value that it accepts: none, or the integer that it reads. -/
def boundedInt (value : Option Int) (default minimum maximum : Int) : Int :=
  match value with
  | none => default
  | some parsed => min maximum (max minimum parsed)

end Lines

/-! ## Items -/

section Items

variable {F : Type} (clock : Timestamp → F)

/-- `asdict(job)`, with three of its texts cut; `clock` is `float(row["created_at"])`. -/
def jobDict (job : JobRow) (goal finalSummary error : Str) : Json F :=
  .obj (.ofList
    [(lit "id", .str job.id.val),
     (lit "repo", .str job.repo.val),
     (lit "goal", .str goal),
     (lit "state", .str (lit job.state.value)),
     (lit "base_branch", .str job.baseBranch.val),
     (lit "base_commit", .str job.baseCommit.val),
     (lit "integration_branch", .str job.integrationBranch.val),
     (lit "integration_path", .str job.integrationPath.val),
     (lit "auto_apply", .bool job.autoApply),
     (lit "stop_requested", .bool job.stopRequested),
     (lit "created_at", .float (clock job.createdAt)),
     (lit "updated_at", .float (clock job.updatedAt)),
     (lit "final_summary", .str finalSummary),
     (lit "error", .str error),
     (lit "accepted_commit", .str job.acceptedCommit.val),
     (lit "acceptance_phase", .str (lit job.acceptancePhase.value)),
     (lit "source_apply_intent", .str (lit job.sourceApplyIntent.value)),
     (lit "source_apply_outcome", .str (lit job.sourceApplyOutcome.value)),
     (lit "source_apply_reason", .str job.sourceApplyReason.val)])

/-- `_job_list_item`. -/
def jobListItem (job : JobRow) : Json F :=
  jobDict clock job (job.goal.val.take 500) (job.finalSummary.val.take 1000)
    (job.error.val.take 1000)

/-- `_event_from_row`; `none` when the payload cannot be read. -/
def eventFromRow [PyFloat F] (row : EventRow) : Option (Json F) :=
  (loads row.payload.val).map fun payload =>
    .obj (.ofList
      [(lit "id", .int row.id),
       (lit "job_id", .str row.jobId.val),
       (lit "task_id", match row.taskId with
         | some taskId => .str taskId.val
         | none => .null),
       (lit "kind", .str row.kind.val),
       (lit "payload", payload),
       (lit "created_at", .float (clock row.createdAt))])

end Items

/-! ## Pages -/

section Pages

variable {F : Type} [PyFloat F] (clock : Timestamp → F)

/-- `list_jobs`: `ORDER BY created_at DESC LIMIT ?`, where the database orders jobs of one time
as it likes. -/
def ListsJobs (s : Store) (limit : Int) (page : List JobRow) : Prop :=
  ∃ order : List JobRow, order.Perm s.jobs.rows ∧
    order.Pairwise (fun j j' => j'.createdAt ≤ j.createdAt) ∧
    page = order.take (min maxJobListLimit (max 1 limit)).toNat

/-- `jobs` in `dispatch`, of the page that the database returns. -/
def dispatchJobs (page : List JobRow) : Json F := .arr (.ofList (page.map (jobListItem clock)))

/-- `Database.events`. -/
def eventPage (s : Store) (jobId : Text) (afterId limit : Int) : Option (List (Json F)) :=
  (((s.eventsOf jobId).filter fun e => max 0 afterId < e.id).take
    (min maxEventListLimit (max 1 limit)).toNat).mapM (eventFromRow clock)

/-- The loop of `_events_bounded`: whether `result` holds an event, and the bytes it has used. -/
def eventsBoundedFrom (budget : Nat) : Bool → Nat → List (Json F) → List (Json F)
  | _, _, [] => []
  | any, used, event :: events =>
    let size := jsonBytes event + 1
    if any = true ∧ budget < used + size then []
    else if budget < size then eventsBoundedFrom budget any used events
    else event :: eventsBoundedFrom budget true (used + size) events

/-- `_events_bounded`. -/
def eventsBounded (events : List (Json F)) : List (Json F) :=
  eventsBoundedFrom (maxRpcMessageBytes - 65536) false 2 events

/-- `events` in `dispatch`; `none` when a payload cannot be read. -/
def dispatchEvents (s : Store) (jobId : Text) (afterId limit : Option Int) : Option (Json F) :=
  (eventPage clock s jobId (boundedInt afterId 0 0 (2 ^ 63 - 1))
    (boundedInt limit 200 1 maxEventListLimit)).map fun events =>
      .arr (.ofList (eventsBounded events))

end Pages

/-! ## Bytes -/

section Bytes

variable {F : Type} [PyFloat F] {clock : Timestamp → F}

/-- The room that `_events_bounded` leaves for a request's identifier. -/
def maxRequestIdBytes : Nat := 65507

/-- An answer is as long as its identifier and its result, and 28 bytes. -/
theorem byteLen_okLine (requestId result : Json F) :
    byteLen (rpcLine (okResponse requestId result)) =
      28 + jsonBytes requestId + jsonBytes result := by
  have hkeys : strBytes (lit "id") = 4 ∧ strBytes (lit "ok") = 4 ∧ strBytes (lit "result") = 8 := by
    decide
  obtain ⟨hid, hok, hresult⟩ := hkeys
  have htrue : jsonBytes (.bool true : Json F) = 4 := rfl
  have hline : byteLen (lit "\n") = 1 := by decide
  rw [rpcLine, byteLen_append, hline]
  change jsonBytes (okResponse requestId result) + 1 = _
  rw [okResponse, jsonBytes_obj (List.cons_ne_nil _ _)]
  simp only [List.map_cons, List.map_nil, List.sum_cons, List.sum_nil, memberBytes, hid, hok,
    hresult, htrue]
  omega

/-- The two kinds of lines differ behind the identifier. -/
theorem okLine_ne_errorLine (requestId result : Json F) (error : Str) :
    rpcLine (okResponse requestId result) ≠ rpcLine (errorResponse requestId error) := by
  intro h
  have hdumps := List.append_cancel_right h
  simp only [okResponse, errorResponse, Members.ofList, dumps] at hdumps
  have hbehind := List.append_cancel_left (List.append_cancel_left
    (List.append_cancel_left (List.cons.inj hdumps).2))
  -- what follows is `,"ok":true` in the one and `,"ok":false` in the other
  simp only [dumpsMembers, dumps, List.append_assoc] at hbehind
  have hflag := List.append_cancel_left (List.append_cancel_left
    (List.append_cancel_left hbehind))
  have hchar : PyChar.scalar 't' = .scalar 'f' := (List.cons.inj hflag).1
  revert hchar
  decide

/-- The answer is sent exactly when it fits. -/
theorem answered_iff (text : Exn → Str) (requestId result : Json F) :
    Answered requestId (rpcResponse text requestId (.ok result)) ↔
      28 + jsonBytes requestId + jsonBytes result ≤ maxRpcMessageBytes := by
  rw [← byteLen_okLine]
  constructor
  · rintro ⟨result', hline, hfits⟩
    by_contra hlong
    rw [rpcResponse, if_pos (Nat.lt_of_not_le hlong)] at hline
    exact okLine_ne_errorLine requestId result' _ hline.symm
  · intro hfits
    refine ⟨result, ?_, ?_⟩
    · rw [rpcResponse, if_neg (Nat.not_lt.mpr hfits)]
    · rwa [rpcResponse, if_neg (Nat.not_lt.mpr hfits)]

/-- What `_events_bounded` adds to the events that it has. -/
theorem eventsBoundedFrom_used {budget used : Nat} (events : List (Json F)) :
    ((eventsBoundedFrom budget true used events).map fun event => jsonBytes event + 1).sum ≤
      budget - used := by
  induction events generalizing used with
  | nil => exact Nat.zero_le _
  | cons event events ih =>
    rw [eventsBoundedFrom]
    split_ifs with hfull hlarge
    · exact Nat.zero_le _
    · exact ih
    · have hfits : used + (jsonBytes event + 1) ≤ budget := by
        by_contra hover
        exact hfull ⟨rfl, Nat.lt_of_not_le hover⟩
      have hrest : (((eventsBoundedFrom budget true (used + (jsonBytes event + 1)) events).map
          fun event => jsonBytes event + 1).sum) ≤ budget - (used + (jsonBytes event + 1)) := ih
      rw [List.map_cons, List.sum_cons]
      omega

/-- What `_events_bounded` returns is within its budget. -/
theorem eventsBoundedFrom_bytes {budget used : Nat} (events : List (Json F)) :
    ((eventsBoundedFrom budget false used events).map fun event => jsonBytes event + 1).sum ≤
      budget := by
  induction events with
  | nil => exact Nat.zero_le _
  | cons event events ih =>
    rw [eventsBoundedFrom, if_neg (fun h => Bool.false_ne_true h.1)]
    split_ifs with hlarge
    · exact ih
    · -- the first event is taken if it fits by itself
      have hrest := @eventsBoundedFrom_used F _ budget (used + (jsonBytes event + 1)) events
      rw [List.map_cons, List.sum_cons]
      omega

theorem dispatchEvents_bytes (events : List (Json F)) :
    jsonBytes (.arr (.ofList (eventsBounded events))) ≤ 1 + (maxRpcMessageBytes - 65536) := by
  have hbytes := @eventsBoundedFrom_bytes F _ (maxRpcMessageBytes - 65536) 2 events
  by_cases hne : eventsBounded events = []
  · rw [hne]
    exact (by decide : 2 ≤ 1 + (maxRpcMessageBytes - 65536))
  · rw [jsonBytes_arr hne]
    exact Nat.add_le_add_left hbytes 1

/-- The number of bytes of an item of `jobs`: 299 of its names and punctuation, and those of its
values, of which the goal, the summary and the error are cut. -/
def jobItemBytes (clock : Timestamp → F) (job : JobRow) : Nat :=
  299 +
    [strBytes job.id.val, strBytes job.repo.val, strBytes (job.goal.val.take 500),
      strBytes (lit job.state.value), strBytes job.baseBranch.val, strBytes job.baseCommit.val,
      strBytes job.integrationBranch.val, strBytes job.integrationPath.val,
      if job.autoApply then 4 else 5, if job.stopRequested then 4 else 5,
      (PyFloat.spell (clock job.createdAt)).length, (PyFloat.spell (clock job.updatedAt)).length,
      strBytes (job.finalSummary.val.take 1000), strBytes (job.error.val.take 1000),
      strBytes job.acceptedCommit.val, strBytes (lit job.acceptancePhase.value),
      strBytes (lit job.sourceApplyIntent.value), strBytes (lit job.sourceApplyOutcome.value),
      strBytes job.sourceApplyReason.val].sum

theorem jsonBytes_bool (b : Bool) : jsonBytes (.bool b : Json F) = if b then 4 else 5 := by
  cases b <;> rfl

theorem jsonBytes_jobListItem (job : JobRow) :
    jsonBytes (jobListItem clock job) = jobItemBytes clock job := by
  rw [jobListItem, jobDict, jsonBytes_obj_split (List.cons_ne_nil _ _)]
  simp only [List.map_cons, List.map_nil]
  have hkeys : (([lit "id", lit "repo", lit "goal", lit "state", lit "base_branch",
      lit "base_commit", lit "integration_branch", lit "integration_path", lit "auto_apply",
      lit "stop_requested", lit "created_at", lit "updated_at", lit "final_summary", lit "error",
      lit "accepted_commit", lit "acceptance_phase", lit "source_apply_intent",
      lit "source_apply_outcome", lit "source_apply_reason"].map fun k => strBytes k + 2).sum) =
      298 := by
    decide +kernel
  simp only [List.map_cons, List.map_nil] at hkeys
  rw [hkeys, jobItemBytes]
  simp only [jsonBytes_str, jsonBytes_bool, jsonBytes_float]

end Bytes

/-! ## Listings -/

section Listings

variable {F : Type} [PyFloat F] {clock : Timestamp → F} {sha256 : Str → Str} {s : Store}

/-- The events of a reachable store can be read. -/
theorem exists_events (h : (database F sha256).Reachable s) {jobId : Text}
    {rows : List EventRow} (hrows : rows ⊆ s.eventsOf jobId) :
    ∃ events, rows.mapM (eventFromRow clock) = some events := by
  have hread : ∀ row ∈ rows, Readable F row.payload.val := by
    intro row hrow
    have hown : row ∈ s.events.select fun e => e.jobId == jobId :=
      List.mem_mergeSort.mp (hrows hrow)
    exact (reachable_ledger h).readable row (List.mem_filter.mp hown).1
  clear hrows
  induction rows with
  | nil => exact ⟨[], rfl⟩
  | cons row rows ih =>
    obtain ⟨payload, hpayload⟩ := hread row List.mem_cons_self
    obtain ⟨events, hevents⟩ := ih fun e he => hread e (List.mem_cons_of_mem row he)
    rw [List.mapM_cons, eventFromRow, hpayload, hevents]
    exact ⟨_, rfl⟩

theorem exists_eventPage (h : (database F sha256).Reachable s) (jobId : Text)
    (afterId limit : Int) : ∃ events, eventPage clock s jobId afterId limit = some events :=
  exists_events h fun _ hrow => (List.mem_filter.mp (List.take_subset _ _ hrow)).1

/-- A page of events is always sent. -/
theorem events_answered (h : (database F sha256).Reachable s) (text : Exn → Str)
    {requestId : Json F} (hid : jsonBytes requestId ≤ maxRequestIdBytes) (jobId : Text)
    (afterId limit : Option Int) :
    ∃ result, dispatchEvents clock s jobId afterId limit = some result ∧
      Answered requestId (rpcResponse text requestId (.ok result)) := by
  obtain ⟨events, hevents⟩ := @exists_eventPage F _ clock sha256 s h jobId
    (boundedInt afterId 0 0 (2 ^ 63 - 1)) (boundedInt limit 200 1 maxEventListLimit)
  refine ⟨.arr (.ofList (eventsBounded events)), by rw [dispatchEvents, hevents]; rfl, ?_⟩
  rw [answered_iff]
  have hbytes := dispatchEvents_bytes events
  have hroom : 28 + maxRequestIdBytes + (1 + (maxRpcMessageBytes - 65536)) ≤
    maxRpcMessageBytes := by
    decide
  omega

/-- A page of jobs is sent exactly when its items fit. -/
theorem jobs_answered_iff (text : Exn → Str) {requestId : Json F}
    (hid : jsonBytes requestId ≤ maxRequestIdBytes) (page : List JobRow) :
    Answered requestId (rpcResponse text requestId (.ok (dispatchJobs clock page))) ↔
      jsonBytes requestId + (page.map fun job => jobItemBytes clock job + 1).sum ≤ 1048547 := by
  rw [answered_iff, dispatchJobs, maxRpcMessageBytes]
  by_cases hne : page = []
  · have hempty : jsonBytes (.arr (.ofList (page.map (jobListItem clock))) : Json F) = 2 := by
      rw [hne]
      rfl
    rw [maxRequestIdBytes] at hid
    rw [hempty, hne, List.map_nil, List.sum_nil]
    constructor
    · intro _
      omega
    · intro _
      omega
  · have hitems : ((page.map (jobListItem clock)).map fun item => jsonBytes item + 1) =
        page.map fun job => jobItemBytes clock job + 1 := by
      rw [List.map_map]
      apply List.map_congr_left
      intro job _
      exact congrArg (· + 1) (jsonBytes_jobListItem job)
    rw [jsonBytes_arr (by simpa using hne), hitems]
    constructor
    · intro hfits
      omega
    · intro hfits
      omega

/-- Of a reachable store, a page of events is always sent, and a page of jobs exactly when the
items of its jobs, with a comma each, and the request's identifier take at most 1048547 bytes. -/
theorem listings_answered_iff (h : (database F sha256).Reachable s) (text : Exn → Str)
    (requestId : Json F) (hid : jsonBytes requestId ≤ maxRequestIdBytes) :
    (∀ jobId afterId limit, ∃ result, dispatchEvents clock s jobId afterId limit = some result ∧
      Answered requestId (rpcResponse text requestId (.ok result))) ∧
    ∀ (limit : Option Int) (page : List JobRow),
      ListsJobs s (boundedInt limit 50 1 maxJobListLimit) page →
      (Answered requestId (rpcResponse text requestId (.ok (dispatchJobs clock page))) ↔
        jsonBytes requestId + (page.map fun job => jobItemBytes clock job + 1).sum ≤ 1048547) :=
  ⟨events_answered h text hid, fun _ page _ => jobs_answered_iff text hid page⟩

end Listings

/-! ## Many jobs -/

section Crowd

variable {F : Type} [PyFloat F] {sha256 : Str → Str}

/-- A job whose goal is 500 times a character beyond the basic plane. -/
def crowdJob (i : Nat) : JobRow where
  id                := crowdId i
  repo              := Text.lit "/src"
  goal              := ⟨List.replicate 500 (.scalar (Char.ofNat 0x1f600)), isText_replicate rfl 500⟩
  state             := .queued
  baseBranch        := Text.lit "main"
  baseCommit        := Text.lit "0000000000000000000000000000000000000000"
  integrationBranch := Text.lit "yolo/run_000000000000/integration"
  createdAt         := i
  updatedAt         := i

/-- So many of these jobs can be created. -/
theorem crowd_reachable {n : Nat} (hn : n ≤ 65536) :
    ∃ s, (database F sha256).Reachable s ∧ s.jobs.rows = (List.range n).map crowdJob :=
  created_reachable (fun _ => rfl) (fun _ => rfl) hn

theorem crowdJob_bytes {clock : Timestamp → F} (i : Nat) :
    6000 ≤ jobItemBytes clock (crowdJob i) := by
  have hescape : (escape .wire (.scalar (Char.ofNat 0x1f600))).length = 12 := by decide
  have hgoal : strBytes ((crowdJob i).goal.val.take 500) = 6002 := by
    rw [crowdJob, List.take_replicate, strBytes_replicate, hescape]
    rfl
  rw [jobItemBytes, hgoal]
  simp only [List.sum_cons]
  omega

/-- The page that lists all these jobs, the last one first. -/
theorem crowd_listed {s : Store} {n : Nat} (hrows : s.jobs.rows = (List.range n).map crowdJob)
    {limit : Int} (hlimit : min maxJobListLimit (max 1 limit) = n) :
    ListsJobs s limit ((List.range n).map crowdJob).reverse := by
  refine ⟨((List.range n).map crowdJob).reverse, ?_, ?_, ?_⟩
  · rw [hrows]
    exact List.reverse_perm _
  · rw [List.pairwise_reverse, List.pairwise_map]
    exact List.pairwise_lt_range.imp Nat.le_of_lt
  · rw [hlimit, Int.toNat_natCast, List.take_of_length_le]
    rw [List.length_reverse, List.length_map, List.length_range]

/-- A request identifier as the client draws it. -/
def demoRequest : Json WholeFloat := .str (List.replicate 32 (.scalar '0'))

/-- A page of 200 jobs whose goals have 500 such characters is not sent. -/
theorem crowd_unanswered :
    ∃ (s : Store) (page : List JobRow), (database WholeFloat demoDigest).Reachable s ∧
      ListsJobs s (boundedInt (some 200) 50 1 maxJobListLimit) page ∧
      ¬ Answered demoRequest
        (rpcResponse (fun _ => []) demoRequest (.ok (dispatchJobs WholeFloat.whole page))) := by
  obtain ⟨s, hreach, hrows⟩ :=
    @crowd_reachable WholeFloat _ demoDigest 200 (by decide)
  refine ⟨s, _, hreach, crowd_listed hrows (by decide), ?_⟩
  rw [jobs_answered_iff _ (by decide)]
  intro hfits
  have hsum := @le_sum_map _ (fun job => jobItemBytes WholeFloat.whole job + 1)
    ((List.range 200).map crowdJob).reverse 6000 (by
      intro job hjob
      rw [List.mem_reverse] at hjob
      obtain ⟨i, -, rfl⟩ := List.mem_map.mp hjob
      exact Nat.le_succ_of_le (crowdJob_bytes i))
  rw [List.length_reverse, List.length_map, List.length_range] at hsum
  omega

/-- A page of one of these jobs is sent. -/
theorem listings_answered_one :
    ∃ (s : Store) (page : List JobRow), (database WholeFloat demoDigest).Reachable s ∧
      ListsJobs s (boundedInt (some 1) 50 1 maxJobListLimit) page ∧ page ≠ [] ∧
      Answered demoRequest
        (rpcResponse (fun _ => []) demoRequest (.ok (dispatchJobs WholeFloat.whole page))) := by
  obtain ⟨s, hreach, hrows⟩ :=
    @crowd_reachable WholeFloat _ demoDigest 1 (by decide)
  have hlisted := @crowd_listed s 1 hrows (boundedInt (some 1) 50 1 maxJobListLimit) (by decide)
  refine ⟨s, _, hreach, hlisted, List.cons_ne_nil _ _, ?_⟩
  exact ((listings_answered_iff hreach (fun _ => []) demoRequest (by decide)).2 (some 1) _
    hlisted).mpr (by decide +kernel)

end Crowd

end OmarchyYolo
