import OmarchyYolo.StoreRules

/-!
# OmarchyYolo.EventLedger — the ledger only grows

Every operation appends to the events: with the numbers that follow, and with
payloads that can be read back.

* `Store.RecordedBy` — events have been appended, with payloads of a kind;
* `Store.Recorded` — what any operation does to the events;
* `Operation.run_recorded` — every operation does;
* `Ledger` — the events of every reachable store;
* `eventsOf_recorded` — later events of a job come behind the earlier ones.
-/

namespace OmarchyYolo

open Py PyJson Sql Txn Lts

/-- A text that `json.loads` accepts. -/
def Readable (F : Type) [PyFloat F] (text : Str) : Prop := ∃ value : Json F, loads text = some value

/-- Events have been appended, numbered on, with payloads of a kind. -/
def Store.RecordedBy (P : Str → Prop) (s s' : Store) : Prop :=
  ∃ added, s'.events.rows = s.events.rows ++ added ∧
    added.map EventRow.id = List.range' (s.events.rows.length + 1) added.length ∧
    ∀ e ∈ added, P e.payload.val

/-- Events have been appended, numbered on, with payloads that can be read. -/
def Store.Recorded (F : Type) [PyFloat F] (s s' : Store) : Prop :=
  ∃ added, s'.events.rows = s.events.rows ++ added ∧
    added.map EventRow.id = List.range' (s.events.rows.length + 1) added.length ∧
    ∀ e ∈ added, Readable F e.payload.val

variable {F : Type} [PyFloat F]

/-! ## Payloads -/

theorem readable_jsonDumps (payload : Members F) :
    Readable F (jsonDumps (.obj payload)) := ⟨_, loads_dumps_obj ⟨true, false⟩ payload.sortKeys⟩

/-- An object without floats can be read under any codec. -/
theorem readable_of_floatFree {payload : Json NonFinite}
    (h : ∃ ms : Members NonFinite, payload = .obj ms ∧ ms.FloatFree) :
    Readable F (jsonDumps payload) := by
  obtain ⟨ms, rfl, hfree⟩ := h
  exact exists_loads_dumps_obj ⟨true, false⟩ (Members.floatFree_sortKeys hfree)

theorem readable_encodePayload (payload : Members F) : Readable F (encodePayload payload) := by
  unfold encodePayload
  dsimp only
  split_ifs
  · exact readable_jsonDumps _
  · exact readable_jsonDumps payload

/-! ## Statements -/

section Statements

variable {P : Str → Prop}

theorem Store.RecordedBy.of_events {s s' : Store} (h : s'.events = s.events) : s.RecordedBy P s' :=
  ⟨[], by rw [h, List.append_nil], rfl, fun _ he => absurd he List.not_mem_nil⟩

instance : IsPreorder Store (Store.RecordedBy P) where
  refl _ := .of_events rfl
  trans s t s' := by
    rintro ⟨added, hrows, hids, hread⟩ ⟨later, hrows', hids', hread'⟩
    refine ⟨added ++ later, ?_, ?_, ?_⟩
    · rw [hrows', hrows, List.append_assoc]
    · rw [List.map_append, hids, hids', hrows, List.length_append, List.length_append,
        Nat.add_right_comm, List.range'_append_1]
    · intro e he
      rcases List.mem_append.mp he with he | he
      · exact hread e he
      · exact hread' e he

instance : IsPreorder Store (Store.Recorded F) :=
  inferInstanceAs (IsPreorder Store (Store.RecordedBy (Readable F)))

theorem insertAttempt_recordedBy (attempt : AttemptRow) :
    Follows (Store.RecordedBy P) (insertAttempt attempt) :=
  fun _ _ h => .of_events (Store.insertAttempt?_eq_some (writeOrRaise_ok_iff.mp h)).2.events

theorem insertEvent_recordedBy {jobId : Text} {taskId : Option Text} {kind : Text} {payload : Str}
    {now : Timestamp} (hpayload : P payload) :
    Follows (Store.RecordedBy P) (insertEvent jobId taskId kind payload now) := by
  intro s r h
  obtain ⟨payload', heq, hinsert⟩ := insertEvent_ok h
  obtain ⟨hrow, -⟩ := Store.insertEvent?_eq_some hinsert
  refine ⟨_, (Table.insert?_eq_some.mp hrow).2, rfl, ?_⟩
  intro e he
  rw [List.mem_singleton.mp he]
  show P payload'.val
  rw [heq]
  exact hpayload

/-- Every statement only records. -/
theorem allows_recordedBy (hbare : P (jsonDumps (.obj .nil : Json NonFinite))) :
    Allows (Store.RecordedBy P) (fun _ _ => True) (fun _ => True) P where
  jobs _ _ _ _ s r h := by
    rw [updateJobs_ok_iff.mp h]
    exact .of_events rfl
  tasks _ _ _ _ s r h := by
    rw [updateTasks_ok_iff.mp h]
    exact .of_events rfl
  attempts _ _ _ _ s r h := by
    rw [updateAttempts_ok_iff.mp h]
    exact .of_events rfl
  dossiers _ _ s r h := by
    rw [updateDossiers_ok_iff.mp h]
    exact .of_events rfl
  job row _ s r h := by
    obtain ⟨jobs, keeps, -, heq⟩ := Store.insertJob?_eq_some (writeOrRaise_ok_iff.mp h)
    rw [heq]
    exact .of_events rfl
  task row _ s r h := .of_events (Store.insertTask?_eq_some (writeOrRaise_ok_iff.mp h)).2.events
  dossier row _ s r h :=
    .of_events (Store.upsertDossier?_eq_some (writeOrRaise_ok_iff.mp h)).2.events
  event _ _ _ _ _ hpayload := insertEvent_recordedBy hpayload
  kept _ _ _ := trivial
  moved _ _ := trivial
  settled _ _ _ := trivial
  bare := hbare

theorem allows_recorded :
    Allows (Store.Recorded F) (fun _ _ => True) (fun _ => True) (Readable F) :=
  allows_recordedBy (readable_of_floatFree ⟨.nil, rfl, trivial⟩)

end Statements

/-! ## Operations -/

section Operations

variable {sha256 : Str → Str}

theorem jobEvent_recorded (jobId : Str) (kind : String) (now : Timestamp) :
    FollowsDb (Store.Recorded F) (jobEvent jobId kind now) :=
  jobEvent_follows allows_recorded _ _ _

theorem prepareAcceptedJob_recorded (jobId : Str) (args : Acceptance) (stagedAt now : Timestamp) :
    FollowsDb (Store.Recorded F) (prepareAcceptedJob sha256 jobId args stagedAt now) :=
  prepareAcceptedJob_follows allows_recorded _ _ _ _ (fun _ _ _ => trivial)
    (readable_of_floatFree ⟨_, rfl, trivial, trivial, trivial, trivial⟩)

/-- Every operation only records. -/
theorem Operation.run_recorded (op : Operation F) :
    FollowsDb (Store.Recorded F) (op.run sha256) :=
  operation_follows allows_recorded op (fun _ htold => readable_of_floatFree htold.floatFree)
    (fun _ _ _ => trivial) (fun _ _ => trivial)
    (fun _ attempt _ => insertAttempt_recordedBy attempt) readable_encodePayload

/-- So does every run. -/
theorem steps_recorded {s s' : Store} (h : (database F sha256).Steps s s') : s.Recorded F s' := by
  induction h with
  | refl => exact refl_of (Store.Recorded F) s
  | tail _ hlast ih =>
    obtain ⟨op, hstep⟩ := hlast
    exact trans_of (Store.Recorded F) ih (op.run_recorded _ _ _ hstep)

end Operations

/-! ## The ledger of a job -/

/-- The events of a job, `ORDER BY id`. -/
def Store.eventsOf (s : Store) (jobId : Text) : List EventRow :=
  (s.events.select fun e => e.jobId == jobId).mergeSort fun e e' => e.id ≤ e'.id

/-- A ledger: numbered from 1 on, with payloads that can be read. -/
structure Store.Ledger (F : Type) [PyFloat F] (s : Store) : Prop where
  ids : s.events.rows.map EventRow.id = List.range' 1 s.events.rows.length
  readable : ∀ e ∈ s.events, Readable F e.payload.val

theorem Store.Ledger.recorded {s s' : Store} (h : s.Ledger F) (hrecorded : s.Recorded F s') :
    s'.Ledger F := by
  obtain ⟨added, hrows, hids, hread⟩ := hrecorded
  constructor
  · rw [hrows, List.map_append, h.ids, hids, List.length_append, Nat.add_comm _ 1,
      List.range'_append_1]
  · intro e he
    rw [← Table.mem_rows, hrows] at he
    rcases List.mem_append.mp he with he | he
    · exact h.readable e he
    · exact hread e he

/-- The rows of a ledger are in the order of their numbers. -/
theorem Store.Ledger.eventsOf_eq {s : Store} (h : s.Ledger F) (jobId : Text) :
    s.eventsOf jobId = s.events.select fun e => e.jobId == jobId := by
  apply List.mergeSort_of_pairwise
  have hsorted : (s.events.rows.map EventRow.id).Pairwise (· ≤ ·) := by
    rw [h.ids]
    exact List.pairwise_le_range'
  rw [List.pairwise_map] at hsorted
  exact (hsorted.imp fun hle => decide_eq_true hle).filter _

variable {sha256 : Str → Str}

theorem reachable_ledger {s : Store} (h : (database F sha256).Reachable s) : s.Ledger F := by
  obtain ⟨s₀, rfl, hsteps⟩ := h
  have hempty : Store.empty.Ledger F := ⟨rfl, fun e he => absurd he (Table.not_mem_empty e)⟩
  exact hempty.recorded (steps_recorded hsteps)

/-- Later events of a job come behind the earlier ones, with the numbers that follow. -/
theorem eventsOf_recorded {s s' : Store} (h : s.Ledger F) (hrecorded : s.Recorded F s')
    (jobId : Text) : ∃ added, s'.eventsOf jobId = s.eventsOf jobId ++ added ∧
      ∀ e ∈ added, s.events.rows.length < e.id := by
  rw [h.eventsOf_eq, (h.recorded hrecorded).eventsOf_eq]
  obtain ⟨added, hrows, hids, -⟩ := hrecorded
  refine ⟨added.filter fun e => e.jobId == jobId, ?_, ?_⟩
  · show s'.events.rows.filter _ = s.events.rows.filter _ ++ _
    rw [hrows, List.filter_append]
  · intro e he
    have hid : e.id ∈ added.map EventRow.id := List.mem_map_of_mem (List.mem_of_mem_filter he)
    rw [hids, List.mem_range'_1] at hid
    exact hid.1

/-- The events of a job are in the order of their numbers. -/
theorem Store.Ledger.eventsOf_sorted {s : Store} (h : s.Ledger F) (jobId : Text) :
    (s.eventsOf jobId).Pairwise fun e e' => e.id < e'.id := by
  rw [h.eventsOf_eq]
  have hsorted : (s.events.rows.map EventRow.id).Pairwise (· < ·) := by
    rw [h.ids]
    exact List.pairwise_lt_range'
  rw [List.pairwise_map] at hsorted
  exact hsorted.filter _

end OmarchyYolo
