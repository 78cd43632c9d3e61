import OmarchyYolo.EventLedger

/-!
# OmarchyYolo.EventDigest — the event digest of a dossier

`build_dossier` hashes the events that it reads; `prepare_accepted_job` stores
the dossier later, in a transaction of its own.

* `eventDigest` — the digest: events up to the first that belongs to publication;
* `buildDossier` — the dossier, with the members that are not the digest given;
* `EventsUndisturbed` — nothing has come between the events read and the boundary;
* `event_digest_regenerates_iff` — when the digest regenerates from the ledger.
-/

namespace OmarchyYolo

open Py PyJson Sql Txn Lts

variable {F : Type} [PyFloat F]

/-! ## Events as they are read -/

/-- An event in `provenance_snapshot`. -/
structure EventDict (F : Type) where
  id : Nat
  taskId : Option Text
  kind : Text
  payload : Json F
  createdAt : F
deriving DecidableEq

/-- The `dict` of an event. -/
def EventDict.value (event : EventDict F) : Json F :=
  .obj (.ofList
    [(lit "id", .int event.id),
     (lit "task_id", match event.taskId with
       | some taskId => .str taskId.val
       | none => .null),
     (lit "kind", .str event.kind.val),
     (lit "payload", event.payload),
     (lit "created_at", .float event.createdAt)])

/-- An event from its row; `clock` is `float(row["created_at"])`. -/
def eventDict (clock : Timestamp → F) (row : EventRow) : Option (EventDict F) :=
  (loads row.payload.val).map fun payload =>
    { id        := row.id
      taskId    := row.taskId
      kind      := row.kind
      payload   := payload
      createdAt := clock row.createdAt }

/-- The events of `provenance_snapshot`; `none` when a payload cannot be read. -/
def provenanceEvents (clock : Timestamp → F) (s : Store) (jobId : Text) :
    Option (List (EventDict F)) :=
  (s.eventsOf jobId).mapM (eventDict clock)

/-! ## The digest -/

/-- `canonical_json`. -/
def canonicalJson (value : Json F) : Str := dumps ⟨true, true⟩ value.sortKeys

/-- `kind in _DOSSIER_INPUT_STOP_EVENTS`. -/
def isInputStop (kind : Text) : Bool :=
  kind.val == lit "job.accepted" || kind.val == lit "job.dossier_created"

/-- `kinds[kind] += 1`. -/
def countKind (kind : Str) : List (Str × Nat) → List (Str × Nat)
  | [] => [(kind, 1)]
  | (counted, n) :: kinds =>
    if counted = kind then (counted, n + 1) :: kinds else (counted, n) :: countKind kind kinds

/-- The variables of the loop of `_event_digest`. -/
structure DigestLoop where
  hashed : Str := []
  kinds : List (Str × Nat) := []
  included : Nat := 0
  lastEventId : Nat := 0
deriving DecidableEq, Repr

def DigestLoop.add (loop : DigestLoop) (event : EventDict F) : DigestLoop where
  hashed      := loop.hashed ++ canonicalJson event.value ++ lit "\n"
  kinds       := countKind event.kind.val loop.kinds
  included    := loop.included + 1
  lastEventId := event.id

def digestLoop : List (EventDict F) → DigestLoop → DigestLoop
  | [], loop => loop
  | event :: events, loop =>
    if isInputStop event.kind then loop else digestLoop events (loop.add event)

/-- What `_event_digest` returns. -/
structure EventLedger where
  sha256 : Str
  kinds : List (Str × Nat)
  count : Nat
  lastEventId : Nat
deriving DecidableEq, Repr

section Dossier

variable (sha256 : Str → Str)

/-- `_event_digest`. -/
def eventDigest (events : List (EventDict F)) : EventLedger :=
  let loop := digestLoop events {}
  { sha256      := sha256 loop.hashed
    kinds       := loop.kinds.mergeSort fun a b => strLe a.1 b.1
    count       := loop.included
    lastEventId := loop.lastEventId }

/-! ## The dossier -/

/-- The member `event_ledger` of a dossier. -/
def EventLedger.value (ledger : EventLedger) : Json F :=
  .obj (.ofList
    [(lit "count", .int ledger.count),
     (lit "sha256", .str ledger.sha256),
     (lit "kinds", .obj (.ofList (ledger.kinds.map fun kind => (kind.1, .int kind.2)))),
     (lit "last_event_id", .int ledger.lastEventId),
     (lit "boundary_event", .str (lit "job.dossier_created"))])

/-- The text of a dossier whose other members are `members`. -/
def dossierContent (members : Members F) (ledger : EventLedger) : Str :=
  canonicalJson (.obj (members.append (.ofList [(lit "event_ledger", ledger.value)])))

def maxDossierBytes : Nat := 512000

/-- `build_dossier`: the text and its digest. The states of the tasks have been read before
the events, and so has what the other members tell. -/
def buildDossier (tasks : List TaskState) (members : Members F) (events : List (EventDict F)) :
    Except Exn (Str × Str) := do
  validateJobSnapshot
    { state           := .completed
      tasks           := tasks
      runningOwners   := []
      stopRequested   := false
      acceptancePhase := none }
  let content := dossierContent members (eventDigest sha256 events)
  let size ← utf8Bytes content
  rejectIf (maxDossierBytes < size)
    (lit "execution dossier exceeds the bounded serialization limit")
  return (content, sha256 content)

end Dossier

/-- Between `s`, where the events of a job have been read, and `s'`, where the job is
accepted: a boundary was among the events read, or no event has come and the acceptance is
no repetition, or the first event that has come is a boundary. -/
def EventsUndisturbed (s s' : Store) (jobId : Text) : Prop :=
  (∃ e ∈ s.eventsOf jobId, isInputStop e.kind = true) ∨
    match (s'.eventsOf jobId).drop (s.eventsOf jobId).length with
    | [] => ∃ j ∈ s'.jobs, j.id = jobId ∧ j.acceptancePhase = .none
    | e :: _ => isInputStop e.kind = true

/-! ## Reading -/

section Reading

variable {clock : Timestamp → F}

theorem eventDict_kind {row : EventRow} {event : EventDict F}
    (h : eventDict clock row = some event) :
    event.kind = row.kind := by
  obtain ⟨payload, -, rfl⟩ := Option.map_eq_some_iff.mp h
  rfl

/-- The events of a ledger can be read. -/
theorem exists_eventDicts {rows : List EventRow} (h : ∀ row ∈ rows, Readable F row.payload.val) :
    ∃ events, rows.mapM (eventDict clock) = some events := by
  induction rows with
  | nil => exact ⟨[], rfl⟩
  | cons row rows ih =>
    rw [List.forall_mem_cons] at h
    obtain ⟨payload, hpayload⟩ := h.1
    obtain ⟨events, hevents⟩ := ih h.2
    rw [List.mapM_cons, eventDict, hpayload, hevents]
    exact ⟨_, rfl⟩

/-- What is read of rows put together. -/
theorem eventDicts_append {rows later : List EventRow} {events : List (EventDict F)}
    (h : (rows ++ later).mapM (eventDict clock) = some events) :
    ∃ first rest, rows.mapM (eventDict clock) = some first ∧
      later.mapM (eventDict clock) = some rest ∧ events = first ++ rest := by
  rw [List.mapM_append] at h
  simp only [Option.bind_eq_bind, Option.bind_eq_some_iff, Option.pure_def, Option.some.injEq] at h
  obtain ⟨first, hfirst, rest, hrest, rfl⟩ := h
  exact ⟨first, rest, hfirst, hrest, rfl⟩

theorem eventDicts_kinds {rows : List EventRow} {events : List (EventDict F)}
    (h : rows.mapM (eventDict clock) = some events) :
    events.map EventDict.kind = rows.map EventRow.kind := by
  induction rows generalizing events with
  | nil =>
    cases h
    rfl
  | cons row rows ih =>
    rw [List.mapM_cons] at h
    simp only [Option.bind_eq_bind, Option.bind_eq_some_iff, Option.pure_def,
      Option.some.injEq] at h
    obtain ⟨event, hevent, rest, hrest, rfl⟩ := h
    rw [List.map_cons, List.map_cons, eventDict_kind hevent, ih hrest]

end Reading

/-! ## What later events do to a digest -/

section Later

variable {events later : List (EventDict F)}

/-- Behind a boundary nothing is read. -/
theorem digestLoop_boundary (h : ∃ event ∈ events, isInputStop event.kind = true)
    (loop : DigestLoop) : digestLoop (events ++ later) loop = digestLoop events loop := by
  induction events generalizing loop with
  | nil =>
    obtain ⟨event, hmem, -⟩ := h
    exact absurd hmem List.not_mem_nil
  | cons event events ih =>
    rw [List.cons_append, digestLoop, digestLoop]
    split_ifs with hstop
    · rfl
    · apply ih
      obtain ⟨boundary, hmem, hboundary⟩ := h
      rcases List.mem_cons.mp hmem with rfl | hmem
      · exact absurd hboundary hstop
      · exact ⟨boundary, hmem, hboundary⟩

/-- Nor from a boundary on. -/
theorem digestLoop_next (h : ∀ event ∈ later.head?, isInputStop event.kind = true)
    (loop : DigestLoop) : digestLoop (events ++ later) loop = digestLoop events loop := by
  induction events generalizing loop with
  | nil =>
    cases later with
    | nil => rfl
    | cons event later => exact if_pos (h event rfl)
  | cons event events ih =>
    rw [List.cons_append, digestLoop, digestLoop, ih]

theorem digestLoop_included (loop : DigestLoop) :
    loop.included ≤ (digestLoop events loop).included := by
  induction events generalizing loop with
  | nil => exact Nat.le_refl _
  | cons event events ih =>
    rw [digestLoop]
    split_ifs
    · exact Nat.le_refl _
    · exact Nat.le_of_succ_le (ih (loop.add event))

/-- An event that is no boundary is counted. -/
theorem digestLoop_counted {event : EventDict F} (hno : ∀ e ∈ events, isInputStop e.kind = false)
    (hevent : isInputStop event.kind = false) (loop : DigestLoop) :
    (digestLoop events loop).included <
      (digestLoop (events ++ event :: later) loop).included := by
  induction events generalizing loop with
  | nil =>
    rw [List.nil_append, digestLoop, digestLoop, hevent, if_neg Bool.false_ne_true]
    exact digestLoop_included (loop.add event)
  | cons first events ih =>
    rw [List.forall_mem_cons] at hno
    rw [List.cons_append, digestLoop, digestLoop, hno.1, if_neg Bool.false_ne_true,
      if_neg Bool.false_ne_true]
    exact ih hno.2 _

variable (sha256 : Str → Str)

theorem eventDigest_append (h : (∃ event ∈ events, isInputStop event.kind = true) ∨
    ∀ event ∈ later.head?, isInputStop event.kind = true) :
    eventDigest sha256 (events ++ later) = eventDigest sha256 events := by
  have hloop : digestLoop (events ++ later) {} = digestLoop events {} := by
    rcases h with hboundary | hnext
    · exact digestLoop_boundary hboundary _
    · exact digestLoop_next hnext _
  unfold eventDigest
  rw [hloop]

theorem eventDigest_ne {event : EventDict F} (hno : ∀ e ∈ events, isInputStop e.kind = false)
    (hevent : isInputStop event.kind = false) :
    eventDigest sha256 (events ++ event :: later) ≠ eventDigest sha256 events := by
  intro heq
  have hcount := congrArg EventLedger.count heq
  have hlt : (digestLoop events {}).included <
    (digestLoop (events ++ event :: later) {}).included :=
    digestLoop_counted hno hevent _
  exact absurd hcount (Nat.ne_of_gt hlt)

end Later

/-! ## The transaction of the acceptance -/

section Acceptance

variable {sha256 : Str → Str} {s s' : Store} {jobId : Text} {args : Acceptance}
  {stagedAt now : Timestamp}

/-- A dossier that has been upserted is there. -/
theorem Store.exists_upserted {row : DossierRow} (h : s.upsertDossier? row = some s') :
    ∃ d ∈ s'.dossiers, d.jobId = row.jobId ∧ d.content = row.content := by
  unfold Store.upsertDossier? at h
  split_ifs at h with hown
  split at h
  · rename_i hclash
    obtain ⟨d, hd, hsame⟩ := Table.insert?_eq_none.mp hclash
    cases h
    have hkey : d.jobId = row.jobId := hsame
    refine ⟨{ row with jobId := d.jobId }, ?_, hkey, rfl⟩
    exact Table.mem_update_of_pos (f := fun d : DossierRow => { row with jobId := d.jobId })
      (fun _ => rfl) hd (beq_iff_eq.mpr hkey)
  · rename_i dossiers hinsert
    cases h
    exact ⟨row, (Table.mem_insert? hinsert).mpr (Or.inr rfl), rfl, rfl⟩

/-- An acceptance stores the dossier; a repetition changes nothing, any other appends its own
event to the events of the job. -/
theorem prepareAcceptedJob_events (hledger : s.Ledger F)
    (h : prepareAcceptedJob sha256 jobId.val args stagedAt now s = .ok () s') :
    (∃ d ∈ s'.dossiers, d.jobId = jobId ∧ d.content.val = args.dossier.content) ∧
      ∃ j ∈ s.jobs, j.id = jobId ∧
        ((j.acceptancePhase ≠ .none ∧ s' = s) ∨ j.acceptancePhase = .none ∧
          ∃ e, e.kind.val = lit "job.accepted" ∧ s'.eventsOf jobId = s.eventsOf jobId ++ [e]) := by
  obtain ⟨j, hj, intent, hid, -, -, -, hcases⟩ := prepareAcceptedJob_cases sha256 h
  obtain rfl : j.id = jobId := Text.ext hid
  have hledger' : s'.Ledger F := hledger.recorded (prepareAcceptedJob_recorded _ _ _ _ s () s' h)
  rcases hcases with ⟨hphase, hsame, rfl⟩ | hjournal
  -- the same acceptance again: the dossier is there with this content
  · constructor
    · cases hdossier : s'.dossier? j.id with
      | none =>
        rw [hdossier] at hsame
        exact absurd hsame.2.2.2 id
      | some d =>
        rw [hdossier] at hsame
        exact ⟨d, (Store.mem_of_dossier? hdossier).1, (Store.mem_of_dossier? hdossier).2,
          hsame.2.2.2.2.2⟩
    · refine ⟨j, hj, rfl, Or.inl ⟨?_, rfl⟩⟩
      intro hnone
      rw [hnone] at hphase
      exact absurd hphase (by decide)
  -- the first acceptance: the dossier and one event are written
  · obtain ⟨row, t, commit, summary, hrow, hupsert, -, -, honly, added, hrows, hown, hkinds⟩ :=
      hjournal.writes
    obtain ⟨hdossiers, hkeeps⟩ := Store.upsertDossier?_eq_some hupsert
    constructor
    · obtain ⟨d, hd, hjob, hcontent⟩ := Store.exists_upserted hupsert
      refine ⟨d, ?_, hjob.trans hrow.jobId, by rw [hcontent, hrow.content]⟩
      rw [honly.dossiers]
      exact hd
    · refine ⟨j, hj, rfl, Or.inr ⟨hjournal.phase, ?_⟩⟩
      obtain ⟨e, rfl⟩ : ∃ e, added = [e] := List.length_eq_one_iff.mp (by
        have hlength := congrArg List.length hkinds
        rwa [List.length_map, List.length_map] at hlength)
      simp only [List.map_cons, List.map_nil, List.cons.injEq, Prod.mk.injEq, and_true] at hkinds
      refine ⟨e, hkinds.1, ?_⟩
      rw [hledger'.eventsOf_eq, hledger.eventsOf_eq]
      -- the event is the last one, and is the job's
      have hall : s'.events.rows = s.events.rows ++ [e] := by
        rw [hrows]
        show t.events.rows ++ [e] = _
        rw [hkeeps.events]
      show s'.events.rows.filter _ = s.events.rows.filter _ ++ [e]
      rw [hall, List.filter_append]
      congr 1
      exact List.filter_eq_self.mpr fun e' he' => by simpa using hown e' he'

/-- An event without payload can be recorded of any job. -/
theorem exists_event_run (sha256 : Str → Str) (hledger : s.Ledger F)
    (hjob : ∃ j ∈ s.jobs, j.id = jobId) (kind : String) (now : Timestamp) :
    ∃ s', (Operation.event (F := F) jobId.val (lit kind) .nil none now).run sha256 s = .ok () s' ∧
      ∃ e, e.kind.val = (lit kind).take 128 ∧ s'.eventsOf jobId = s.eventsOf jobId ++ [e] := by
  obtain ⟨s', h⟩ := jobEvent_ok hjob kind now
  refine ⟨s', h, ?_⟩
  have hledger' : s'.Ledger F := hledger.recorded (jobEvent_recorded _ _ _ s () s' h)
  obtain ⟨kind', payload, hkind, hinsert⟩ := jobEvent_cases h
  obtain ⟨hrow, -⟩ := Store.insertEvent?_eq_some hinsert
  refine ⟨⟨s.nextEventId, jobId, none, kind', payload, now⟩, hkind, ?_⟩
  rw [hledger'.eventsOf_eq, hledger.eventsOf_eq]
  show s'.events.rows.filter _ = s.events.rows.filter _ ++ _
  rw [(Table.insert?_eq_some.mp hrow).2, List.filter_append]
  congr 1
  exact List.filter_eq_self.mpr fun e he => by rw [List.mem_singleton.mp he, beq_self_eq_true]

end Acceptance

/-! ## When the digest regenerates -/

section Regenerates

variable {sha256 : Str → Str} {clock : Timestamp → F} {s₀ s₁ s₂ : Store} {jobId : Text}
  {events : List (EventDict F)} {args : Acceptance} {stagedAt now : Timestamp}

/-- The events that are read later are those read before and the ones that have come. -/
theorem provenanceEvents_later (hledger : s₀.Ledger F)
    (hread : provenanceEvents clock s₀ jobId = some events) (hrecorded : s₀.Recorded F s₁) :
    ∃ later, provenanceEvents clock s₁ jobId = some (events ++ later) ∧
      later.map EventDict.kind = ((s₁.eventsOf jobId).drop (s₀.eventsOf jobId).length).map
        EventRow.kind := by
  obtain ⟨added, hadded, -⟩ := eventsOf_recorded hledger hrecorded jobId
  have hledger₁ := hledger.recorded hrecorded
  obtain ⟨all, hall⟩ : ∃ all, provenanceEvents clock s₁ jobId = some all := by
    apply exists_eventDicts
    intro row hrow
    rw [hledger₁.eventsOf_eq, Table.mem_select] at hrow
    exact hledger₁.readable row hrow.1
  unfold provenanceEvents at hall hread
  rw [hadded] at hall
  obtain ⟨first, later, hfirst, hlater, rfl⟩ := eventDicts_append hall
  obtain rfl : first = events := Option.some.inj (hfirst.symm.trans hread)
  refine ⟨later, ?_, ?_⟩
  · unfold provenanceEvents
    rw [hadded, hall]
  · rw [hadded, List.drop_left, eventDicts_kinds hlater]

/-- EventsUndisturbed, the events up to the boundary are those that were read. -/
theorem digest_regenerates (hledger : s₀.Ledger F)
    (hread : provenanceEvents clock s₀ jobId = some events) (hbetween : s₀.Recorded F s₁)
    (hprepare : prepareAcceptedJob sha256 jobId.val args stagedAt now s₁ = .ok () s₂)
    (hundisturbed : EventsUndisturbed s₀ s₁ jobId) {s₃ : Store} (hlater : s₂.Recorded F s₃) :
    ∃ later, provenanceEvents clock s₃ jobId = some later ∧
      eventDigest sha256 later = eventDigest sha256 events := by
  have hledger₁ := hledger.recorded hbetween
  have hcommit : s₁.Recorded F s₂ := prepareAcceptedJob_recorded _ _ _ _ s₁ () s₂ hprepare
  obtain ⟨added, hadded, -⟩ := eventsOf_recorded hledger hbetween jobId
  obtain ⟨more, hmore, -⟩ := eventsOf_recorded (hledger₁.recorded hcommit) hlater jobId
  obtain ⟨-, j, hj, hid, hcases⟩ := prepareAcceptedJob_events hledger₁ hprepare
  obtain ⟨later, hread₃, hkinds⟩ := provenanceEvents_later hledger hread
    (trans_of (Store.Recorded F) hbetween (trans_of (Store.Recorded F) hcommit hlater))
  refine ⟨events ++ later, hread₃, eventDigest_append sha256 ?_⟩
  -- the first event after those read is a boundary
  have hnext (e : EventRow) (rest : List EventRow) (hrows : s₃.eventsOf jobId =
      s₀.eventsOf jobId ++ e :: rest) (hstop : isInputStop e.kind = true) :
      ∀ event ∈ later.head?, isInputStop event.kind = true := by
    rw [hrows, List.drop_left, List.map_cons] at hkinds
    intro event hevent
    obtain ⟨tail, rfl⟩ := List.head?_eq_some_iff.mp hevent
    rw [(List.cons.inj hkinds).1]
    exact hstop
  unfold EventsUndisturbed at hundisturbed
  rw [hadded, List.drop_left] at hundisturbed
  rcases hundisturbed with ⟨e, he, hstop⟩ | hadded₁
  · -- a boundary was among the events read
    left
    have hmem : e.kind ∈ events.map EventDict.kind := by
      rw [eventDicts_kinds hread]
      exact List.mem_map_of_mem he
    obtain ⟨event, hevent, hkind⟩ := List.mem_map.mp hmem
    exact ⟨event, hevent, by rw [hkind]; exact hstop⟩
  right
  cases added with
  | nil =>
    -- the next event is that of the acceptance
    obtain ⟨j', hj', hid', hphase⟩ := hadded₁
    obtain rfl : j' = j := Store.eq_of_id hj' hj (hid'.trans hid.symm)
    rcases hcases with ⟨hne, -⟩ | ⟨-, e, hkind, hrows⟩
    · exact absurd hphase hne
    · refine hnext e more ?_ ?_
      · rw [hmore, hrows, hadded, List.append_nil, List.append_assoc, List.singleton_append]
      · rw [isInputStop, hkind, beq_self_eq_true, Bool.true_or]
  | cons e added =>
    -- an event came in between, and is the boundary
    rcases hcases with ⟨-, rfl⟩ | ⟨-, e', -, hrows⟩
    · refine hnext e (added ++ more) ?_ hadded₁
      rw [hmore, hadded, List.append_assoc, List.cons_append]
    · refine hnext e (added ++ e' :: more) ?_ hadded₁
      rw [hmore, hrows, hadded, List.append_assoc, List.append_assoc, List.cons_append,
        List.singleton_append]

/-- Disturbed, there is a later store whose events have another digest. -/
theorem digest_disturbed (hledger : s₀.Ledger F)
    (hread : provenanceEvents clock s₀ jobId = some events) (hbetween : s₀.Recorded F s₁)
    (hprepare : prepareAcceptedJob sha256 jobId.val args stagedAt now s₁ = .ok () s₂)
    (hdisturbed : ¬ EventsUndisturbed s₀ s₁ jobId) : ∃ s₃, (database F sha256).Steps s₂ s₃ ∧
      ∃ later, provenanceEvents clock s₃ jobId = some later ∧
        eventDigest sha256 later ≠ eventDigest sha256 events := by
  have hledger₁ := hledger.recorded hbetween
  have hcommit : s₁.Recorded F s₂ := prepareAcceptedJob_recorded _ _ _ _ s₁ () s₂ hprepare
  obtain ⟨added, hadded, -⟩ := eventsOf_recorded hledger hbetween jobId
  obtain ⟨-, j, hj, hid, hcases⟩ := prepareAcceptedJob_events hledger₁ hprepare
  unfold EventsUndisturbed at hdisturbed
  rw [hadded, List.drop_left, not_or, not_exists] at hdisturbed
  obtain ⟨hno, hnext⟩ := hdisturbed
  -- none of the events read is a boundary
  have hno' : ∀ event ∈ events, isInputStop event.kind = false := by
    intro event hevent
    have hmem : event.kind ∈ (s₀.eventsOf jobId).map EventRow.kind := by
      rw [← eventDicts_kinds hread]
      exact List.mem_map_of_mem hevent
    obtain ⟨e, he, hkind⟩ := List.mem_map.mp hmem
    rw [← hkind]
    exact Bool.eq_false_iff.mpr fun hstop => hno e ⟨he, hstop⟩
  -- it is enough that the first event since is no boundary
  have hdiffers (s₃ : Store) (hlater : s₂.Recorded F s₃) (e : EventRow) (rest : List EventRow)
      (hrows : s₃.eventsOf jobId = s₀.eventsOf jobId ++ e :: rest)
      (hstop : isInputStop e.kind = false) : ∃ later, provenanceEvents clock s₃ jobId = some later ∧
        eventDigest sha256 later ≠ eventDigest sha256 events := by
    obtain ⟨later, hread₃, hkinds⟩ := provenanceEvents_later hledger hread
      (trans_of (Store.Recorded F) hbetween (trans_of (Store.Recorded F) hcommit hlater))
    rw [hrows, List.drop_left, List.map_cons] at hkinds
    obtain ⟨event, tail, rfl, hkind, -⟩ := List.map_eq_cons_iff.mp hkinds
    exact ⟨_, hread₃, eventDigest_ne sha256 hno' (by rw [hkind]; exact hstop)⟩
  cases added with
  | nil =>
    -- a repetition; any event will do
    rcases hcases with ⟨-, rfl⟩ | ⟨hphase, -⟩
    · obtain ⟨s₃, hrun, e, hkind, hrows⟩ :=
        exists_event_run (F := F) sha256 hledger₁ ⟨j, hj, hid⟩ "note" now
      rw [hadded, List.append_nil] at hrows
      refine ⟨s₃, .single ⟨_, hrun⟩, hdiffers s₃ ?_ e [] hrows ?_⟩
      -- the digest of the later events takes this one in
      · exact Operation.run_recorded _ _ _ _ hrun
      · rw [isInputStop, hkind]
        decide
    · exact absurd ⟨j, hj, hid, hphase⟩ hnext
  | cons e added =>
    refine ⟨s₂, .refl, ?_⟩
    have hstop : isInputStop e.kind = false := Bool.eq_false_iff.mpr hnext
    -- the event that came in between is read before that of the acceptance
    rcases hcases with ⟨-, rfl⟩ | ⟨-, e', -, hrows⟩
    · exact hdiffers s₂ (refl_of _ s₂) e added hadded hstop
    · refine hdiffers s₂ (refl_of _ s₂) e (added ++ [e']) ?_ hstop
      rw [hrows, hadded, List.append_assoc, List.cons_append]

/-- Where the events of a reachable store have gone into the dossier of an acceptance, the
dossier is stored with their digest, and the digest regenerates from the ledger in every later
store exactly if the acceptance was undisturbed. -/
theorem event_digest_regenerates_iff (tasks : List TaskState) (members : Members F)
    (dossier : Str × Str) (hreach : (database F sha256).Reachable s₀)
    (hread : provenanceEvents clock s₀ jobId = some events)
    (hbuild : buildDossier sha256 tasks members events = .ok dossier)
    (hbetween : (database F sha256).Steps s₀ s₁)
    (hargs : args.dossier = { schemaVersion := 1, sha256 := dossier.2, content := dossier.1 })
    (hprepare : prepareAcceptedJob sha256 jobId.val args stagedAt now s₁ = .ok () s₂) :
    (∃ d ∈ s₂.dossiers, d.jobId = jobId ∧
        d.content.val = dossierContent members (eventDigest sha256 events)) ∧
      ((∀ s₃, (database F sha256).Steps s₂ s₃ → ∃ later,
          provenanceEvents clock s₃ jobId = some later ∧
            eventDigest sha256 later = eventDigest sha256 events) ↔
              EventsUndisturbed s₀ s₁ jobId) := by
  have hledger := reachable_ledger hreach
  have hrecorded := steps_recorded hbetween
  constructor
  · have hcontent : dossier.1 = dossierContent members (eventDigest sha256 events) := by
      simp only [buildDossier, bind_ok_iff] at hbuild
      obtain ⟨-, -, -, -, -, -, hpair⟩ := hbuild
      cases hpair
      rfl
    obtain ⟨⟨d, hd, hjob, hstored⟩, -⟩ :=
      prepareAcceptedJob_events (hledger.recorded hrecorded) hprepare
    refine ⟨d, hd, hjob, ?_⟩
    rw [hstored, hargs, hcontent]
  · constructor
    · intro hall
      by_contra hdisturbed
      obtain ⟨s₃, hsteps, later, hlater, hne⟩ :=
        digest_disturbed hledger hread hrecorded hprepare hdisturbed
      obtain ⟨later', hlater', heq⟩ := hall s₃ hsteps
      rw [Option.some.inj (hlater.symm.trans hlater')] at hne
      exact hne heq
    · intro hundisturbed s₃ hsteps
      exact digest_regenerates hledger hread hrecorded hprepare hundisturbed (steps_recorded hsteps)

end Regenerates

/-! ## A stop request in between -/

/-- A job without tasks is running. -/
def demoRunning : List (Operation NonFinite) := demoAccepted.take 2

/-- Its events. -/
def demoEvents : List (EventDict NonFinite) :=
  [{ id        := 1
     taskId    := none
     kind      := Text.lit "job.created"
     payload   := .obj (.ofList
       [(lit "goal", .str (lit "Add the parser")), (lit "repo", .str (lit "/repo"))])
     createdAt := .nan }]

def demoLedger : EventLedger where
  sha256      := demoDigest []
  kinds       := [(lit "job.created", 1)]
  count       := 1
  lastEventId := 1

/-- Its acceptance, with a dossier of these events. -/
def demoAcceptance : Acceptance where
  acceptedCommit    := lit "c1"
  finalSummary      := lit "Added the parser"
  sourceApplyIntent := lit "not-requested"
  dossier           :=
    { schemaVersion := 1
      sha256        := demoDigest []
      content       := dossierContent (F := NonFinite) .nil demoLedger }

theorem demoEvents_digest : eventDigest demoDigest demoEvents = demoLedger := by
  show EventLedger.mk _ (List.mergeSort [(lit "job.created", 1)] _) 1 1 = _
  rw [List.mergeSort_singleton]
  rfl

theorem demoEvents_build : buildDossier demoDigest [] .nil demoEvents =
    .ok (demoAcceptance.dossier.content, demoDigest []) := by
  unfold buildDossier
  rw [demoEvents_digest]
  decide +kernel

/-- What is read of the running job, what there is after `between`, and whether the job can be
accepted then. -/
def demoRun (between : List (Operation NonFinite)) :
    Option (Option (List (EventDict NonFinite)) × List Text × List (Text × AcceptancePhase)) :=
  (runOperations demoDigest demoRunning Store.empty).bind fun s =>
    (runOperations demoDigest between s).bind fun s' =>
      (runOperations (F := NonFinite) demoDigest
        [.call (.prepareAcceptedJob (lit "job-1") demoAcceptance 3 4)] s').map fun _ =>
          ((s.events.select fun e => e.jobId == Text.lit "job-1").mapM
              (eventDict fun _ => NonFinite.nan),
            (s'.events.select fun e => e.jobId == Text.lit "job-1").map EventRow.kind,
            s'.jobs.rows.map fun j => (j.id, j.acceptancePhase))

theorem demoRun_stores {between : List (Operation NonFinite)} {kinds : List Text}
    {phases : List (Text × AcceptancePhase)}
    (hrun : demoRun between = some (some demoEvents, kinds, phases)) :
    ∃ s₀ s₁ s₂, (database NonFinite demoDigest).Reachable s₀ ∧
      provenanceEvents (fun _ => NonFinite.nan) s₀ (Text.lit "job-1") = some demoEvents ∧
      runOperations demoDigest between s₀ = some s₁ ∧
      prepareAcceptedJob demoDigest (Text.lit "job-1").val demoAcceptance 3 4 s₁ = .ok () s₂ ∧
      (s₁.eventsOf (Text.lit "job-1")).map EventRow.kind = kinds ∧
      s₁.jobs.rows.map (fun j => (j.id, j.acceptancePhase)) = phases := by
  obtain ⟨s₀, hs₀, hrun⟩ := Option.bind_eq_some_iff.mp hrun
  obtain ⟨s₁, hs₁, hrun⟩ := Option.bind_eq_some_iff.mp hrun
  obtain ⟨s₂, hs₂, hfound⟩ := Option.map_eq_some_iff.mp hrun
  rw [Prod.mk.injEq, Prod.mk.injEq] at hfound
  have hreach := runOperations_reachable hs₀
  have hsteps := runOperations_steps hs₁
  refine ⟨s₀, s₁, s₂, hreach, ?_, hs₁, ?_, ?_, hfound.2.2⟩
  · rw [provenanceEvents, (reachable_ledger hreach).eventsOf_eq]
    exact hfound.1
  · exact run_of_runOperations hs₂
  · rw [(reachable_ledger (hreach.steps hsteps)).eventsOf_eq]
    exact hfound.2.1

/-- Nothing comes in between. -/
theorem event_digest_regenerates_undisturbed :
    ∃ s₀ s₁ s₂, (database NonFinite demoDigest).Reachable s₀ ∧
      (database NonFinite demoDigest).Steps s₀ s₁ ∧
      prepareAcceptedJob demoDigest (lit "job-1") demoAcceptance 3 4 s₁ = .ok () s₂ ∧
      ∀ s₃, (database NonFinite demoDigest).Steps s₂ s₃ → ∃ later,
        provenanceEvents (fun _ => NonFinite.nan) s₃ (Text.lit "job-1") = some later ∧
          eventDigest demoDigest later = demoLedger := by
  have hrun : demoRun [] =
      some (some demoEvents, [Text.lit "job.created"], [(Text.lit "job-1", .none)]) := by
    decide +kernel
  obtain ⟨s₀, s₁, s₂, hreach, hread, hs₁, hprepare, hkinds, hphases⟩ := demoRun_stores hrun
  have hsteps := runOperations_steps hs₁
  have hdigest := event_digest_regenerates_iff [] .nil _ hreach hread demoEvents_build hsteps rfl
    hprepare
  refine ⟨s₀, s₁, s₂, hreach, hsteps, hprepare, ?_⟩
  rw [← demoEvents_digest]
  apply hdigest.2.mpr
  right
  -- there is one event, and it had been read
  have hlength₀ : (s₀.eventsOf (Text.lit "job-1")).length = 1 := by
    have hkinds₀ := congrArg List.length (eventDicts_kinds hread)
    rwa [List.length_map, List.length_map, eq_comm] at hkinds₀
  have hlength₁ : (s₁.eventsOf (Text.lit "job-1")).length = 1 := by
    have hlength := congrArg List.length hkinds
    rwa [List.length_map] at hlength
  rw [List.drop_of_length_le (by omega)]
  have hjob : (Text.lit "job-1", AcceptancePhase.none) ∈
      s₁.jobs.rows.map fun j => (j.id, j.acceptancePhase) := by
    rw [hphases]
    exact List.mem_singleton_self _
  obtain ⟨j, hj, heq⟩ := List.mem_map.mp hjob
  rw [Prod.mk.injEq] at heq
  exact ⟨j, hj, heq⟩

/-- A stop request between the events that are read and the acceptance is in the ledger
before the boundary. -/
theorem event_digest_stop_requested :
    ∃ s₀ s₁ s₂, (database NonFinite demoDigest).Reachable s₀ ∧
      provenanceEvents (fun _ => NonFinite.nan) s₀ (Text.lit "job-1") = some demoEvents ∧
      runOperations (F := NonFinite) demoDigest [.call (.requestStop (lit "job-1") 3 3)] s₀ =
        some s₁ ∧
      prepareAcceptedJob demoDigest (lit "job-1") demoAcceptance 3 4 s₁ = .ok () s₂ ∧
      ∃ later, provenanceEvents (fun _ => NonFinite.nan) s₂ (Text.lit "job-1") = some later ∧
        eventDigest demoDigest later ≠ demoLedger := by
  have hrun : demoRun [.call (.requestStop (lit "job-1") 3 3)] =
      some (some demoEvents, [Text.lit "job.created", Text.lit "job.stop_requested"],
        [(Text.lit "job-1", .none)]) := by
    decide +kernel
  obtain ⟨s₀, s₁, s₂, hreach, hread, hs₁, hprepare, hkinds, -⟩ := demoRun_stores hrun
  refine ⟨s₀, s₁, s₂, hreach, hread, hs₁, hprepare, ?_⟩
  have hledger := reachable_ledger hreach
  have hbetween := steps_recorded (runOperations_steps hs₁)
  have hcommit : s₁.Recorded NonFinite s₂ := prepareAcceptedJob_recorded _ _ _ _ s₁ () s₂ hprepare
  obtain ⟨added, hadded, -⟩ := eventsOf_recorded hledger hbetween (Text.lit "job-1")
  obtain ⟨more, hmore, -⟩ :=
    eventsOf_recorded (hledger.recorded hbetween) hcommit (Text.lit "job-1")
  obtain ⟨later, hlater, hlaterKinds⟩ := provenanceEvents_later hledger hread
    (trans_of (Store.Recorded NonFinite) hbetween hcommit)
  refine ⟨_, hlater, ?_⟩
  -- the stop request is the first event since
  have haddedKinds : added.map EventRow.kind = [Text.lit "job.stop_requested"] := by
    rw [hadded, List.map_append, ← eventDicts_kinds hread] at hkinds
    have hsplit : [Text.lit "job.created"] ++ added.map EventRow.kind =
        [Text.lit "job.created"] ++ [Text.lit "job.stop_requested"] := hkinds
    exact List.append_cancel_left hsplit
  rw [hmore, hadded, List.append_assoc, List.drop_left, List.map_append, haddedKinds] at hlaterKinds
  obtain ⟨event, tail, rfl, hkind, -⟩ := List.map_eq_cons_iff.mp hlaterKinds
  rw [← demoEvents_digest]
  apply eventDigest_ne
  · decide
  · rw [hkind]
    decide

end OmarchyYolo
