import OmarchyYolo.ColumnBounds
import OmarchyYolo.EventLedger
import OmarchyYolo.Lib.JsonSize

/-!
# OmarchyYolo.PayloadBounds — how long the payloads of events are

`event` bounds a payload of more than `MAX_EVENT_PAYLOAD_CHARS` characters: it
stores the beginning of the encoded payload, as a string that is encoded again.
The payloads that other operations write themselves are not bounded: those of
`create_job` and `publish_completed_job` hold texts of any length.

* `PayloadBounded` — what a payload is to be;
* `Operation.PayloadsFit` — the texts that an operation is given are short enough;
* `payloadBounded_encodePayload_iff` — the preview, encoded again;
* `payloads_bounded_iff` — while the texts are short enough, and no longer.
-/

namespace OmarchyYolo

open Py PyJson Sql Txn Lts

variable {F : Type} [PyFloat F] {s s' : Store} {sha256 : Str → Str}

/-- A payload is JSON of no more characters than an event may have. -/
def PayloadBounded (F : Type) [PyFloat F] (payload : Str) : Prop :=
  Readable F payload ∧ payload.length ≤ maxEventPayloadChars

/-- The payloads of a store are. -/
def Store.PayloadsBounded (F : Type) [PyFloat F] (s : Store) : Prop :=
  ∀ e ∈ s.events, PayloadBounded F e.payload.val

/-! ## Short enough -/

/-- Characters of a text in a payload, with its quotes. -/
def storedChars (s : Str) : Nat := (dumpsStr ⟨true, false⟩ s).length

/-- An encoded payload is stored as it is, or the part that is previewed has few quotes and
backslashes: each of them is escaped once more. -/
def PreviewFits (encoded : Str) : Prop :=
  encoded.length ≤ maxEventPayloadChars ∨
    (encoded.take (maxEventPayloadChars - 100)).countP isMark ≤ 69

/-- The events of a publication hold no texts that are too long. -/
structure Publication.PayloadsFit (args : Publication) (job : JobRow) : Prop where
  applied : args.sourceApplyOutcome = lit "applied" →
    storedChars job.baseBranch.val + storedChars job.acceptedCommit.val + 30 ≤ maxEventPayloadChars
  skipped : args.sourceApplyOutcome = lit "skipped" →
    storedChars args.reason + 11 ≤ maxEventPayloadChars
  completed : storedChars args.finalSummary + storedChars job.integrationBranch.val +
    storedChars args.dossierSha256 + storedChars job.acceptedCommit.val +
    storedChars args.sourceApplyOutcome + 83 ≤ maxEventPayloadChars

/-- The texts that the operation is given, and those of the job that it publishes, are short
enough for the events that it writes. -/
def Operation.PayloadsFit (s : Store) : Operation F → Prop
  | .call (.createJob _ _ args) =>
    storedChars args.goal + storedChars args.repo + 17 ≤ maxEventPayloadChars
  | .call (.publishCompletedJob jobId args _) =>
    ∀ job ∈ s.jobs, job.id.val = jobId → job.state ≠ .completed → args.PayloadsFit job
  | .event _ _ payload _ _ => PreviewFits (jsonDumps (.obj payload))
  | _ => True

/-! ## Lengths -/

/-- An object of texts, with what each member adds. -/
theorem length_dumps_texts {ms : List (Str × Str)} (hne : ms ≠ []) :
    (dumps (F := F) ⟨true, false⟩ (.obj (.ofList (ms.map fun m => (m.1, .str m.2))))).length =
      1 + (ms.map fun m => storedChars m.1 + storedChars m.2 + 2).sum := by
  have hseps : (Style.itemSep ⟨true, false⟩).length = 1 ∧
      (Style.keySep ⟨true, false⟩).length = 1 := by decide
  have hrest : ∀ members : List (Str × Str),
      (dumpsMembers (F := F) ⟨true, false⟩
        (.ofList (members.map fun m => (m.1, .str m.2)))).length =
          (members.map fun m => storedChars m.1 + storedChars m.2 + 2).sum := by
    intro members
    induction members with
    | nil => rfl
    | cons m members ih =>
      simp only [List.map_cons, Members.ofList, dumpsMembers, dumps, List.length_append, hseps, ih,
        List.sum_cons, storedChars]
      omega
  cases ms with
  | nil => exact absurd rfl hne
  | cons m ms =>
    simp only [List.map_cons, Members.ofList, dumps, List.length_cons, List.length_append,
      List.length_nil, hseps, hrest, List.sum_cons, storedChars]
    omega

theorem length_jsonDumps_texts {payload : Json F} (ms : List (Str × Str)) (hne : ms ≠ [])
    (hsorted : payload.sortKeys = .obj (.ofList (ms.map fun m => (m.1, .str m.2)))) :
    (jsonDumps payload).length = 1 +
      (ms.map fun m => storedChars m.1 + storedChars m.2 + 2).sum := by
  rw [jsonDumps, hsorted, length_dumps_texts hne]

theorem length_createdPayload (goal repo : Str) :
    (jsonDumps (createdPayload goal repo)).length = storedChars goal + storedChars repo + 17 := by
  have hkeys : storedChars (lit "goal") = 6 ∧ storedChars (lit "repo") = 6 := by decide
  rw [length_jsonDumps_texts [(lit "goal", goal), (lit "repo", repo)] (List.cons_ne_nil _ _) rfl]
  simp only [List.map_cons, List.map_nil, List.sum_cons, List.sum_nil, hkeys]
  omega

theorem length_acceptedPayload (args : Acceptance) :
    (jsonDumps (acceptedPayload args)).length = storedChars args.acceptedCommit +
      storedChars args.sourceApplyIntent + storedChars args.dossier.sha256 + 61 := by
  have hkeys : storedChars (lit "accepted_commit") = 17 ∧
      storedChars (lit "dossier_sha256") = 16 ∧ storedChars (lit "source_apply_intent") = 21 := by
    decide
  rw [length_jsonDumps_texts
    [(lit "accepted_commit", args.acceptedCommit), (lit "dossier_sha256", args.dossier.sha256),
      (lit "source_apply_intent", args.sourceApplyIntent)] (List.cons_ne_nil _ _) rfl]
  simp only [List.map_cons, List.map_nil, List.sum_cons, List.sum_nil, hkeys]
  omega

theorem length_applyStartedPayload (acceptedCommit : Str) :
    (jsonDumps (applyStartedPayload acceptedCommit)).length = storedChars acceptedCommit + 20 := by
  have hkey : storedChars (lit "accepted_commit") = 17 := by decide
  rw [length_jsonDumps_texts [(lit "accepted_commit", acceptedCommit)] (List.cons_ne_nil _ _) rfl]
  simp only [List.map_cons, List.map_nil, List.sum_cons, List.sum_nil, hkey]
  omega

theorem length_appliedPayload (job : JobRow) :
    (jsonDumps (appliedPayload job)).length =
      storedChars job.baseBranch.val + storedChars job.acceptedCommit.val + 30 := by
  have hkeys : storedChars (lit "accepted_commit") = 17 ∧ storedChars (lit "branch") = 8 := by
    decide
  rw [length_jsonDumps_texts
    [(lit "accepted_commit", job.acceptedCommit.val), (lit "branch", job.baseBranch.val)]
    (List.cons_ne_nil _ _) rfl]
  simp only [List.map_cons, List.map_nil, List.sum_cons, List.sum_nil, hkeys]
  omega

theorem length_skippedPayload (args : Publication) :
    (jsonDumps (skippedPayload args)).length = storedChars args.reason + 11 := by
  have hkey : storedChars (lit "reason") = 8 := by decide
  have hsorted (reason : Str) :
      (.obj (.ofList [(lit "reason", .str reason)]) : Json NonFinite).sortKeys =
        .obj (.ofList ([(lit "reason", reason)].map fun m => (m.1, .str m.2))) := rfl
  rw [skippedPayload, length_jsonDumps_texts _ (List.cons_ne_nil _ _) (hsorted args.reason)]
  simp only [List.map_cons, List.map_nil, List.sum_cons, List.sum_nil, hkey]
  omega

theorem length_completedPayload (job : JobRow) (args : Publication) :
    (jsonDumps (completedPayload job args)).length =
      storedChars args.finalSummary + storedChars job.integrationBranch.val +
        storedChars args.dossierSha256 + storedChars job.acceptedCommit.val +
        storedChars args.sourceApplyOutcome + 83 := by
  have hkeys : storedChars (lit "accepted_commit") = 17 ∧ storedChars (lit "branch") = 8 ∧
      storedChars (lit "dossier_sha256") = 16 ∧ storedChars (lit "source_apply_outcome") = 22 ∧
      storedChars (lit "summary") = 9 := by
    decide
  rw [length_jsonDumps_texts
    [(lit "accepted_commit", job.acceptedCommit.val), (lit "branch", job.integrationBranch.val),
      (lit "dossier_sha256", args.dossierSha256),
      (lit "source_apply_outcome", args.sourceApplyOutcome), (lit "summary", args.finalSummary)]
    (List.cons_ne_nil _ _) rfl]
  simp only [List.map_cons, List.map_nil, List.sum_cons, List.sum_nil, hkeys]
  omega

theorem length_dossierCreatedPayload (job : JobRow) (args : Publication) :
    (jsonDumps (dossierCreatedPayload job args)).length =
      storedChars job.acceptedCommit.val + intBytes args.dossierSchemaVersion +
        storedChars args.dossierSha256 + 48 := by
  have hkeys : (dumpsStr ⟨true, false⟩ (lit "accepted_commit")).length = 17 ∧
      (dumpsStr ⟨true, false⟩ (lit "schema_version")).length = 16 ∧
      (dumpsStr ⟨true, false⟩ (lit "sha256")).length = 8 := by
    decide
  have hseps : (Style.itemSep ⟨true, false⟩).length = 1 ∧
      (Style.keySep ⟨true, false⟩).length = 1 := by decide
  have hsorted : (dossierCreatedPayload job args).sortKeys = .obj (.ofList
      [(lit "accepted_commit", .str job.acceptedCommit.val),
        (lit "schema_version", .int args.dossierSchemaVersion),
        (lit "sha256", .str args.dossierSha256)]) := rfl
  rw [jsonDumps, hsorted]
  simp only [Members.ofList, dumps, dumpsMembers, List.length_cons, List.length_append,
    List.length_nil, hkeys, hseps, storedChars, intBytes]
  omega

/-- A text of few characters is not much longer in a payload. -/
theorem storedChars_le {s : Str} {chars : Nat} (h : s.length ≤ chars) :
    storedChars s ≤ 2 + 12 * chars := by
  have hle := length_dumpsStr_le ⟨true, false⟩ s
  rw [← storedChars] at hle
  omega

/-! ## The payload of `event` -/

/-- What is stored of a payload that is too long has the previewed part, its quotes and
backslashes once more, and 31 characters. -/
theorem length_encodePayload {payload : Members F}
    (hlong : maxEventPayloadChars < (jsonDumps (.obj payload)).length) :
    (encodePayload payload).length = maxEventPayloadChars - 69 +
      ((jsonDumps (.obj payload)).take (maxEventPayloadChars - 100)).countP isMark := by
  obtain ⟨encoded, hencoded⟩ : ∃ encoded, jsonDumps (.obj payload) = encoded := ⟨_, rfl⟩
  have hplain : ∀ c ∈ encoded.take (maxEventPayloadChars - 100), isControl c = false := by
    intro c hc
    rw [← hencoded] at hc
    exact dumps_noControl _ _ c (List.mem_of_mem_take hc)
  have hpreview := @length_dumpsStr_raw ⟨true, false⟩ rfl _ hplain
  have htake : (encoded.take (maxEventPayloadChars - 100)).length = maxEventPayloadChars - 100 := by
    rw [List.length_take]
    rw [hencoded] at hlong
    omega
  have hkeys : (dumpsStr ⟨true, false⟩ (lit "preview")).length = 9 ∧
      (dumpsStr ⟨true, false⟩ (lit "truncated")).length = 11 ∧ (lit "true").length = 4 := by
    decide
  have hseps : (Style.itemSep ⟨true, false⟩).length = 1 ∧
      (Style.keySep ⟨true, false⟩).length = 1 := by decide
  have hsorted : (.obj (.ofList [(lit "truncated", .bool true),
      (lit "preview", .str (encoded.take (maxEventPayloadChars - 100)))]) : Json F).sortKeys =
      .obj (.ofList [(lit "preview", .str (encoded.take (maxEventPayloadChars - 100))),
        (lit "truncated", .bool true)]) := rfl
  unfold encodePayload
  dsimp only
  rw [if_pos hlong, hencoded, jsonDumps, hsorted]
  simp only [Members.ofList, dumps, dumpsMembers, List.length_cons, List.length_append,
    List.length_nil, hkeys, hseps, hpreview, htake]
  have hmax : maxEventPayloadChars = 8000 := rfl
  omega

theorem payloadBounded_encodePayload_iff (payload : Members F) :
    PayloadBounded F (encodePayload payload) ↔ PreviewFits (jsonDumps (.obj payload)) := by
  have hread := readable_encodePayload payload
  by_cases hshort : (jsonDumps (.obj payload)).length ≤ maxEventPayloadChars
  · have hsame : encodePayload payload = jsonDumps (.obj payload) := by
      unfold encodePayload
      dsimp only
      rw [if_neg (Nat.not_lt.mpr hshort)]
    rw [hsame] at hread ⊢
    exact iff_of_true ⟨hread, hshort⟩ (.inl hshort)
  · have hlen := length_encodePayload (Nat.not_le.mp hshort)
    have hmax : maxEventPayloadChars = 8000 := rfl
    constructor
    · rintro ⟨-, hle⟩
      right
      omega
    · rintro (hle | hmarks)
      · exact absurd hle hshort
      · exact ⟨hread, by omega⟩

/-! ## What is appended -/

/-- The store has the payloads it had and those that have been appended. -/
theorem AppendsEvents.forall_iff {P : Str → Prop} {jobId : Text}
    {events : List (String × Json NonFinite)} (h : AppendsEvents jobId events s s') :
    (∀ e ∈ s'.events, P e.payload.val) ↔
      (∀ e ∈ s.events, P e.payload.val) ∧ ∀ event ∈ events, P (jsonDumps event.2) := by
  obtain ⟨-, added, hrows, -, hadded⟩ := h
  have hpayloads : added.map (fun e => e.payload.val) =
      events.map fun event => jsonDumps event.2 := by
    have hsnd := congrArg (List.map Prod.snd) hadded
    rwa [List.map_map, List.map_map] at hsnd
  have hnew : (∀ e ∈ added, P e.payload.val) ↔ ∀ event ∈ events, P (jsonDumps event.2) := by
    rw [← List.forall_mem_map (f := fun e : EventRow => e.payload.val), hpayloads,
      List.forall_mem_map]
  simp only [← Table.mem_rows, hrows, List.forall_mem_append, hnew]

/-- A payload of an operation's own can be read; so its length decides. -/
theorem payloadBounded_iff {payload : Json NonFinite}
    (h : ∃ ms : Members NonFinite, payload = .obj ms ∧ ms.FloatFree) :
    PayloadBounded F (jsonDumps payload) ↔ (jsonDumps payload).length ≤ maxEventPayloadChars :=
  and_iff_right (readable_of_floatFree h)

theorem AppendsEvents.payloadsBounded_iff {t : Store} {jobId : Text}
    {events : List (String × Json NonFinite)} (h : AppendsEvents jobId events t s')
    (hbounded : t.PayloadsBounded F)
    (hfree : ∀ event ∈ events, ∃ ms : Members NonFinite, event.2 = .obj ms ∧ ms.FloatFree) :
    s'.PayloadsBounded F ↔
      ∀ event ∈ events, (jsonDumps event.2).length ≤ maxEventPayloadChars := by
  rw [Store.PayloadsBounded, h.forall_iff]
  refine (and_iff_right hbounded).trans ?_
  exact forall₂_congr fun event hevent => payloadBounded_iff (hfree event hevent)

theorem Store.RecordedBy.payloadsBounded {P : Str → Prop} (h : s.RecordedBy P s')
    (hP : ∀ payload, P payload → PayloadBounded F payload) (hbounded : s.PayloadsBounded F) :
    s'.PayloadsBounded F := by
  obtain ⟨added, hrows, -, hadded⟩ := h
  intro e he
  rw [← Table.mem_rows, hrows] at he
  rcases List.mem_append.mp he with he | he
  · exact hbounded e he
  · exact hP _ (hadded e he)

theorem payloadBounded_bare : PayloadBounded F (jsonDumps (.obj .nil : Json NonFinite)) :=
  (payloadBounded_iff ⟨.nil, rfl, trivial⟩).mpr (by decide)

/-! ## The version of a dossier -/

/-- The versions of the dossiers stay integers that a column holds. -/
def Store.KeepsVersions (s s' : Store) : Prop :=
  (∀ d ∈ s.dossiers, FitsColumn d.schemaVersion) → ∀ d ∈ s'.dossiers, FitsColumn d.schemaVersion

instance : IsPreorder Store Store.KeepsVersions where
  refl _ h := h
  trans _ _ _ h h' hversions := h' (h hversions)

theorem Store.KeepsVersions.of_dossiers (h : s'.dossiers = s.dossiers) : s.KeepsVersions s' := by
  intro hversions
  rw [h]
  exact hversions

theorem insertAttempt_keepsVersions (attempt : AttemptRow) :
    Follows Store.KeepsVersions (insertAttempt attempt) :=
  fun _ _ h => .of_dossiers (Store.insertAttempt?_eq_some (writeOrRaise_ok_iff.mp h)).2.dossiers

theorem allows_keepsVersions :
    Allows Store.KeepsVersions (fun _ _ => True) (fun _ => True) (fun _ => True) where
  -- by the statement: only the dossiers have a version
  jobs _ _ _ _ s r h := by
    rw [updateJobs_ok_iff.mp h]
    exact .of_dossiers rfl
  tasks _ _ _ _ s r h := by
    rw [updateTasks_ok_iff.mp h]
    exact .of_dossiers rfl
  attempts _ _ _ _ s r h := by
    rw [updateAttempts_ok_iff.mp h]
    exact .of_dossiers rfl
  dossiers p keeps s r h hversions := by
    rw [updateDossiers_ok_iff.mp h]
    exact bounded_update (f := publishDossier) keeps hversions fun d _ hd => hd
  job row _ s r h := by
    obtain ⟨jobs, keeps, -, heq⟩ := Store.insertJob?_eq_some (writeOrRaise_ok_iff.mp h)
    rw [heq]
    exact .of_dossiers rfl
  task row _ s r h :=
    .of_dossiers (Store.insertTask?_eq_some (writeOrRaise_ok_iff.mp h)).2.dossiers
  dossier row hversion s r h hversions := by
    -- a dossier is inserted, or takes the place of the staged one
    obtain ⟨hinsert | hupdate, -⟩ := Store.upsertDossier?_eq_some (writeOrRaise_ok_iff.mp h)
    · exact bounded_insert hversions hinsert hversion
    · rw [hupdate]
      exact bounded_update (f := fun d => { row with jobId := d.jobId }) (fun _ => rfl) hversions
        fun _ _ _ => hversion
  event _ _ _ _ _ _ s r h := by
    obtain ⟨_, -, hinsert⟩ := insertEvent_ok h
    exact .of_dossiers (Store.insertEvent?_eq_some hinsert).2.dossiers
  kept _ _ _ := trivial
  moved _ _ := trivial
  settled _ _ _ := trivial
  bare := trivial

theorem reachable_versions (h : (database F sha256).Reachable s) :
    ∀ d ∈ s.dossiers, FitsColumn d.schemaVersion := by
  refine @System.Reachable.invariant _ _ (database F sha256)
    (fun s => ∀ d ∈ s.dossiers, FitsColumn d.schemaVersion) ?_ ?_ s h
  · rintro _ rfl d hd
    exact absurd hd (Table.not_mem_empty d)
  · intro s op s' _ hversions hstep
    exact operation_follows allows_keepsVersions op (fun _ _ => trivial) (fun _ _ _ => trivial)
      (fun _ _ => trivial) (fun _ attempt _ => insertAttempt_keepsVersions attempt)
      (fun _ => trivial) _ _ _ hstep hversions

/-! ## Operations -/

/-- The digest that has matched, in a payload. -/
theorem storedChars_digest {content expected : Str}
    (h : digestMatches sha256 content expected = .ok true) : storedChars expected ≤ 770 :=
  storedChars_le (digestMatches_eq_true sha256 h).1.le

theorem createJob_payloads {newId : Text} {now : Timestamp} {args : NewJob} {reply : JobRow}
    (hbounded : s.PayloadsBounded F) (h : createJob newId now args s = .ok reply s') :
    s'.PayloadsBounded F ↔
      storedChars args.goal + storedChars args.repo + 17 ≤ maxEventPayloadChars := by
  obtain ⟨job, t, -, -, -, -, -, hinsert, happend, -⟩ := createJob_cases h
  obtain ⟨jobs, keeps, -, rfl⟩ := Store.insertJob?_eq_some hinsert
  have hfree : ∃ ms : Members NonFinite, createdPayload args.goal args.repo = .obj ms ∧
      ms.FloatFree := ⟨_, rfl, trivial, trivial, trivial⟩
  rw [happend.payloadsBounded_iff hbounded (List.forall_mem_singleton.mpr hfree),
    List.forall_mem_singleton, length_createdPayload]

/-- The commit, the intent and the digest of an acceptance are short. -/
theorem prepareAcceptedJob_payloads {jobId : Str} {args : Acceptance} {stagedAt now : Timestamp}
    (hbounded : s.PayloadsBounded F)
    (h : prepareAcceptedJob sha256 jobId args stagedAt now s = .ok () s') :
    s'.PayloadsBounded F := by
  have hcommit := storedChars_le (prepareAcceptedJob_commit h)
  obtain ⟨job, -, intent, -, hintent, -, hdigest, hcases⟩ := prepareAcceptedJob_cases sha256 h
  rcases hcases with ⟨-, -, rfl⟩ | hjournal
  · exact hbounded
  · obtain ⟨row, t, commit, summary, -, hupsert, -, -, happend⟩ := hjournal.writes
    have ht : t.PayloadsBounded F := by
      rw [Store.PayloadsBounded, (Store.upsertDossier?_eq_some hupsert).2.events]
      exact hbounded
    have hname : storedChars args.sourceApplyIntent ≤ 15 := by
      have hvalue := List.find?_some hintent
      rw [← beq_iff_eq.mp hvalue]
      cases intent <;> decide
    have hsha := storedChars_digest hdigest
    have hfree : ∃ ms : Members NonFinite, acceptedPayload args = .obj ms ∧ ms.FloatFree :=
      ⟨_, rfl, trivial, trivial, trivial, trivial⟩
    rw [happend.payloadsBounded_iff ht (List.forall_mem_singleton.mpr hfree),
      List.forall_mem_singleton, length_acceptedPayload]
    have hmax : maxEventPayloadChars = 8000 := rfl
    omega

theorem markApplyStarted_payloads {jobId acceptedCommit : Str} {now : Timestamp}
    (hcolumns : s.Bounded) (hbounded : s.PayloadsBounded F)
    (h : markApplyStarted jobId acceptedCommit now s = .ok () s') : s'.PayloadsBounded F := by
  obtain ⟨job, hjob, -, rfl, -, ⟨-, rfl⟩ | ⟨-, happend, -⟩⟩ := markApplyStarted_cases h
  · exact hbounded
  · have hcommit := storedChars_le (hcolumns.jobs job hjob).acceptedCommit
    have hfree : ∃ ms : Members NonFinite,
        applyStartedPayload job.acceptedCommit.val = .obj ms ∧ ms.FloatFree :=
      ⟨_, rfl, trivial, trivial⟩
    rw [happend.payloadsBounded_iff hbounded (List.forall_mem_singleton.mpr hfree),
      List.forall_mem_singleton, length_applyStartedPayload]
    have hmax : maxEventPayloadChars = 8000 := rfl
    omega

/-- The version of a dossier has at most nineteen digits. -/
theorem length_dossierCreatedPayload_le {job : JobRow} {args : Publication}
    (hversion : FitsColumn args.dossierSchemaVersion)
    (hcommit : job.acceptedCommit.val.length ≤ 128) (hdigest : args.dossierSha256.length ≤ 64) :
    (jsonDumps (dossierCreatedPayload job args)).length ≤ maxEventPayloadChars := by
  have hdigits : intBytes args.dossierSchemaVersion ≤ 19 + 1 := by
    apply intBytes_le (by decide)
    obtain ⟨hlow, hhigh⟩ := hversion
    omega
  have hcommit' := storedChars_le hcommit
  have hdigest' := storedChars_le hdigest
  have hmax : maxEventPayloadChars = 8000 := rfl
  rw [length_dossierCreatedPayload]
  omega

/-- The events of a publication, but for its dossier. -/
theorem publicationEvents_fit_iff {job : JobRow} {args : Publication}
    {outcome : SourceApplyOutcome} (hvalue : lit outcome.value = args.sourceApplyOutcome)
    (hdossier : (jsonDumps (dossierCreatedPayload job args)).length ≤ maxEventPayloadChars) :
    (∀ event ∈ publicationEvents job args outcome,
      (jsonDumps event.2).length ≤ maxEventPayloadChars) ↔ args.PayloadsFit job := by
  have hother (name : String) (hne : lit outcome.value ≠ lit name) :
      args.sourceApplyOutcome ≠ lit name := by
    rwa [← hvalue]
  -- by the outcome: the events of the publication differ in one
  cases outcome with
  | applied =>
    have hskipped := hother "skipped" (by decide)
    simp only [publicationEvents, List.forall_mem_append, List.forall_mem_singleton,
      length_appliedPayload, length_completedPayload]
    constructor
    · rintro ⟨⟨-, happlied⟩, hcompleted⟩
      exact ⟨fun _ => happlied, fun h => absurd h hskipped, hcompleted⟩
    · intro hfit
      exact ⟨⟨hdossier, hfit.applied hvalue.symm⟩, hfit.completed⟩
  | skipped =>
    have happlied := hother "applied" (by decide)
    simp only [publicationEvents, List.forall_mem_append, List.forall_mem_singleton,
      length_skippedPayload, length_completedPayload]
    constructor
    · rintro ⟨⟨-, hskipped⟩, hcompleted⟩
      exact ⟨fun h => absurd h happlied, fun _ => hskipped, hcompleted⟩
    · intro hfit
      exact ⟨⟨hdossier, hfit.skipped hvalue.symm⟩, hfit.completed⟩
  | none | notRequested =>
    have happlied := hother "applied" (by decide)
    have hskipped := hother "skipped" (by decide)
    simp only [publicationEvents, List.forall_mem_append, List.forall_mem_singleton,
      length_completedPayload]
    constructor
    · rintro ⟨-, hcompleted⟩
      exact ⟨fun h => absurd h happlied, fun h => absurd h hskipped, hcompleted⟩
    · intro hfit
      exact ⟨⟨hdossier, List.forall_mem_nil _⟩, hfit.completed⟩

theorem publishCompletedJob_payloads {jobId : Str} {args : Publication} {now : Timestamp}
    (hreach : (database F sha256).Reachable s) (hbounded : s.PayloadsBounded F)
    (h : publishCompletedJob sha256 jobId args now s = .ok () s') :
    s'.PayloadsBounded F ↔
      ∀ job ∈ s.jobs, job.id.val = jobId → job.state ≠ .completed → args.PayloadsFit job := by
  obtain ⟨job, hjob, dossier, hdossier, outcome, hid, -, houtcome, hverified, hcases⟩ :=
    publishCompletedJob_cases sha256 h
  have hunique : ∀ j ∈ s.jobs, j.id.val = jobId → j = job := by
    intro j hj hjid
    exact Store.eq_of_id hj hjob (Text.ext (hjid.trans hid.symm))
  rcases hcases with ⟨hstate, -, -, -, rfl⟩ | ⟨hstate, hpublished⟩
  · -- the replay
    refine iff_of_true hbounded ?_
    intro j hj hjid hopen
    rw [hunique j hj hjid] at hopen
    exact absurd hstate hopen
  -- the first publication: its events are within the bounds if and only if their texts are
  · obtain ⟨summary, reason, -, -, happend⟩ := hpublished.writes
    have hfound := List.find?_some houtcome
    have hvalue : lit outcome.value = args.sourceApplyOutcome := beq_iff_eq.mp hfound
    have hcreated := length_dossierCreatedPayload_le
      (hverified.schemaVersion ▸ reachable_versions hreach dossier hdossier)
      ((reachable_bounded hreach).jobs job hjob).acceptedCommit
      (digestMatches_eq_true sha256 hverified.content).1.le
    rw [happend.payloadsBounded_iff hbounded (publicationEvents_floatFree job args outcome),
      publicationEvents_fit_iff hvalue hcreated]
    constructor
    · intro hfit j hj hjid _
      rw [hunique j hj hjid]
      exact hfit
    · intro hfit
      exact hfit job hjob hid hstate

/-! ## Runs -/

/-- An operation that tells nothing of its own appends no payload but the empty one. -/
theorem Call.payloadsBounded {call : Call}
    (hplain : ∀ payload, ¬(Operation.call (F := F) call).Tells payload)
    (hbounded : s.PayloadsBounded F)
    (h : (Operation.call (F := F) call).run sha256 s = .ok () s') : s'.PayloadsBounded F := by
  have hrecorded := call_follows (F := F)
    (allows_recordedBy (P := fun payload => PayloadBounded F payload) payloadBounded_bare) call
    (fun payload htold => absurd htold (hplain payload)) (fun _ _ _ => trivial)
    (fun _ _ => trivial) (fun _ attempt _ => insertAttempt_recordedBy attempt) s () s' h
  exact hrecorded.payloadsBounded (fun _ hpayload => hpayload) hbounded

/-- What an operation has made of the payloads is what `PayloadsFit` says. -/
theorem Operation.run_payloads {op : Operation F} (hreach : (database F sha256).Reachable s)
    (hbounded : s.PayloadsBounded F) (h : op.run sha256 s = .ok () s') :
    s'.PayloadsBounded F ↔ op.PayloadsFit s := by
  have hallows :=
    allows_recordedBy (P := fun payload => PayloadBounded F payload) payloadBounded_bare
  cases op with
  | event jobId kind payload taskId now =>
    obtain ⟨reply, hevent⟩ := dropReply_ok_iff.mp h
    obtain ⟨id, task, kind', payload', -, -, -, hpayload, hinsert⟩ := event_cases hevent
    have hrows := (Table.insert?_eq_some.mp (Store.insertEvent?_eq_some hinsert).1).2
    have hnew : s'.PayloadsBounded F ↔ PayloadBounded F payload'.val := by
      rw [Store.PayloadsBounded]
      simp only [← Table.mem_rows, hrows, List.forall_mem_append, List.forall_mem_singleton]
      exact and_iff_right hbounded
    rw [hnew, hpayload]
    exact payloadBounded_encodePayload_iff payload
  | crashedResume jobId now =>
    have hrecorded := FollowsDb.transaction (resumeRows_follows hallows jobId now) s () s' h
    exact iff_of_true (hrecorded.payloadsBounded (fun _ hpayload => hpayload) hbounded) trivial
  | crashedRecovery maxVariables now =>
    have hrecorded := (FollowsDb.transaction
      (recoverRows_follows hallows maxVariables now)).dropReply s () s' h
    exact iff_of_true (hrecorded.payloadsBounded (fun _ hpayload => hpayload) hbounded) trivial
  | call call =>
    cases call with
    | createJob =>
      obtain ⟨reply, hcreate⟩ := dropReply_ok_iff.mp h
      exact createJob_payloads hbounded hcreate
    | prepareAcceptedJob => exact iff_of_true (prepareAcceptedJob_payloads hbounded h) trivial
    | markApplyStarted =>
      exact iff_of_true
        (markApplyStarted_payloads (reachable_bounded hreach) hbounded h) trivial
    | publishCompletedJob => exact publishCompletedJob_payloads hreach hbounded h
    | _ =>
      -- the other calls have no payloads of their own
      refine iff_of_true (Call.payloadsBounded ?_ hbounded h) trivial
      exact fun _ htold => htold

/-- In every run of operations whose texts are short enough, the payloads of all events are JSON
of no more characters than an event may have; an operation whose texts are not is the first that
stores a longer one. -/
theorem payloads_bounded_iff
    (h : ((database F sha256).restrict fun s op => op.PayloadsFit s).Reachable s) :
    s.PayloadsBounded F ∧ ∀ op s', (database F sha256).step s op s' →
      (s'.PayloadsBounded F ↔ op.PayloadsFit s) := by
  have hbounded : s.PayloadsBounded F := by
    refine @System.Reachable.invariant _ _ _ (fun s => s.PayloadsBounded F) ?_ ?_ s h
    · rintro _ rfl e he
      exact absurd he (Table.not_mem_empty e)
    · rintro s op s' hreach hbounded ⟨hstep, hfit⟩
      exact (Operation.run_payloads (System.restrict_reachable hreach) hbounded hstep).mpr hfit
  refine ⟨hbounded, ?_⟩
  intro op s' hstep
  exact Operation.run_payloads (System.restrict_reachable h) hbounded hstep

/-! ## A long goal -/

/-- A job whose goal has so many letters. -/
def letterJob (id : Text) (chars : Nat) : JobRow where
  id                := id
  repo              := Text.lit "/src"
  goal              := ⟨List.replicate chars (.scalar 'x'), isText_replicate rfl chars⟩
  state             := .queued
  baseBranch        := Text.lit "main"
  baseCommit        := Text.lit "c0"
  integrationBranch := Text.lit "yolo/run/integration"
  createdAt         := 0
  updatedAt         := 0

def createLetterJob (id : Text) (chars : Nat) : Operation NonFinite :=
  .call (.createJob id 0
    ⟨lit "/src", List.replicate chars (.scalar 'x'), lit "main", lit "c0",
      lit "yolo/run/integration", false⟩)

theorem createLetterJob_step {s : Store} {id : Text} (hnew : ∀ j ∈ s.jobs, j.id ≠ id)
    (chars : Nat) : ∃ s', (database NonFinite demoDigest).step s (createLetterJob id chars) s' ∧
      s'.jobs.rows = s.jobs.rows ++ [letterJob id chars] := by
  have hjob : letterJob id chars = letterJob id chars := rfl
  obtain ⟨s', hcreate, hrows⟩ := createJob_ok hnew hjob
  exact ⟨s', dropReply_ok_iff.mpr ⟨_, hcreate⟩, hrows⟩

theorem storedChars_letters (chars : Nat) :
    storedChars (List.replicate chars (.scalar 'x')) = 2 + chars := by
  have hplain : ∀ c ∈ List.replicate chars (PyChar.scalar 'x'), isControl c = false := by
    intro c hc
    rw [List.eq_of_mem_replicate hc]
    rfl
  have hmarks : (List.replicate chars (PyChar.scalar 'x')).countP isMark = 0 := by
    rw [List.countP_replicate]
    rfl
  have hlen := @length_dumpsStr_raw ⟨true, false⟩ rfl _ hplain
  rw [storedChars, hlen, hmarks, List.length_replicate, Nat.add_zero]

/-- A goal fits into the event of its job up to 7975 letters. -/
theorem createLetterJob_fits_iff {s : Store} {id : Text} {chars : Nat} :
    (createLetterJob id chars).PayloadsFit s ↔ chars ≤ 7975 := by
  have hrepo : storedChars (lit "/src") = 6 := by decide
  have hmax : maxEventPayloadChars = 8000 := rfl
  show storedChars _ + storedChars (lit "/src") + 17 ≤ maxEventPayloadChars ↔ _
  rw [storedChars_letters, hrepo]
  omega

/-- A goal of 8000 letters, of the 16000 that may be submitted, is stored whole. -/
theorem long_goal_stored : ¬∀ s, (database NonFinite demoDigest).Reachable s →
    s.PayloadsBounded NonFinite := by
  intro h
  have hnew : ∀ j ∈ Store.empty.jobs, j.id ≠ Text.lit "job-1" := by
    intro j hj
    exact absurd hj (Table.not_mem_empty j)
  have hempty : (database NonFinite demoDigest).Reachable Store.empty := System.reachable_init rfl
  obtain ⟨s, hstep, -⟩ := createLetterJob_step hnew 8000
  have hfits := (Operation.run_payloads hempty (h _ hempty) hstep).mp (h s (hempty.step hstep))
  exact absurd (createLetterJob_fits_iff.mp hfits) (by decide)

/-- After a short goal the payloads are bounded; after a long one of another job they are not. -/
theorem payloads_bounded_two_goals : ∃ s s', s.PayloadsBounded NonFinite ∧
    s.jobs.rows = [letterJob (Text.lit "job-1") 20] ∧
    (database NonFinite demoDigest).step s (createLetterJob (Text.lit "job-2") 8000) s' ∧
    ¬s'.PayloadsBounded NonFinite := by
  have hnew : ∀ j ∈ Store.empty.jobs, j.id ≠ Text.lit "job-1" := by
    intro j hj
    exact absurd hj (Table.not_mem_empty j)
  obtain ⟨s, hstep, hrows⟩ := createLetterJob_step hnew 20
  have hfits : (createLetterJob (Text.lit "job-1") 20).PayloadsFit Store.empty :=
    createLetterJob_fits_iff.mpr (by decide)
  have hreach : ((database NonFinite demoDigest).restrict
      fun s op => op.PayloadsFit s).Reachable s :=
    (System.reachable_init rfl).step ⟨hstep, hfits⟩
  obtain ⟨hbounded, hexact⟩ := payloads_bounded_iff hreach
  have hnew' : ∀ j ∈ s.jobs, j.id ≠ Text.lit "job-2" := by
    intro j hj
    rw [← Table.mem_rows, hrows] at hj
    rw [List.mem_singleton.mp hj]
    decide
  obtain ⟨s', hstep', -⟩ := createLetterJob_step hnew' 8000
  refine ⟨s, s', hbounded, hrows, hstep', ?_⟩
  intro hafter
  have hfits' := (hexact _ s' hstep').mp hafter
  exact absurd (createLetterJob_fits_iff.mp hfits') (by decide)

end OmarchyYolo
