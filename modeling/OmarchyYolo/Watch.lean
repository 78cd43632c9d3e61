import Mathlib.Algebra.Order.Ring.Int
import OmarchyYolo.Lib.Paging
import OmarchyYolo.StatusBound

/-!
# OmarchyYolo.Watch — the command `watch`

It asks for the events behind the last one that it has printed, prints them, and
asks for the status: if that is terminal it returns, otherwise it asks again. It
never asks for events again after the status that it reports.

* `Watch` — the command beside a store that anyone may write between its requests;
* `ShowsUpTo` — what has been printed is the history up to an event;
* `Poll.Covers` — the last page of events had all of it;
* `watch_shows_iff`: when it returns, the first holds exactly if the second does.
-/

namespace OmarchyYolo

open Py PyJson Sql Txn Lts

/-! ## The command -/

/-- `int(event["id"])`. -/
def eventId {F : Type} : Json F → Option Int
  | .obj event => match event.get? (lit "id") with
    | some (.int id) => some id
    | _ => none
  | _ => none

/-- `after`, behind these events; `none` if one of them has no number. -/
def afterEvents {F : Type} (after : Int) : List (Json F) → Option Int
  | [] => some after
  | event :: events => (eventId event).bind fun id => afterEvents (max after id) events

/-- A request for events: the store that it has met, and the number that it had. -/
structure Poll where
  store : Store
  afterId : Int

/-- The request that comes next, or how the command has ended. The later phases know the last
request for events, and the last one the store of the status that is reported. -/
inductive WatchPhase where
  | events
  | status (poll : Poll)
  | returned (poll : Poll) (reported : Store) (code : Nat)
  | raised

/-- `_watch` and the store of the daemon. -/
structure Watch (F : Type) where
  store : Store
  after : Int := 0
  printed : List (Json F) := []
  phase : WatchPhase := .events

section Command

variable {F : Type} [PyFloat F] (seconds : Seconds F) (sha256 : Str → Str) (jobId : Text)

/-- The request for events, and what is printed of it. -/
def Watch.requestEvents (w : Watch F) : Watch F :=
  match dispatchEvents seconds.stamp w.store jobId (some w.after) (some 200) with
  | some (.arr events) => match afterEvents w.after events.toList with
    | some after =>
      { w with
        after := after
        printed := w.printed ++ events.toList
        phase := .status ⟨w.store, w.after⟩ }
    | none => { w with phase := .raised }
  | _ => { w with phase := .raised }

/-- What is done with the reply to the request for a status. -/
def Watch.readStatus (w : Watch F) (poll : Poll) : Except Exn (Option (Status F)) → Watch F
  | .ok (some status) =>
    if status.job.row.state.terminal then
      { w with
        phase := .returned poll w.store (if status.job.row.state = .completed then 0 else 1) }
    else { w with phase := .events }
  -- `status["job"]` is null
  | .ok none => { w with phase := .raised }
  | .error _ => { w with phase := .raised }

/-- What happens next: somebody writes to the database, or the command makes its request. -/
inductive WatchStep (F : Type) where
  | commits (op : Operation F)
  | requestEvents
  | requestStatus (context : StatusContext F) (reply : Except Exn (Option (Status F)))
  | connectionLost

/-- The command beside the database. The numbers of events have 64 bits. -/
def watching : System (Watch F) (WatchStep F) where
  init w := (database F sha256).Reachable w.store ∧ w.store.events.rows.length < 2 ^ 63 ∧
    w = { store := w.store }
  step w l w' := match l with
    | .commits op => ∃ s, (database F sha256).step w.store op s ∧
        s.events.rows.length < 2 ^ 63 ∧ w' = { w with store := s }
    | .requestEvents => w.phase = .events ∧ w' = w.requestEvents seconds jobId
    | .requestStatus context reply => ∃ poll, w.phase = .status poll ∧
        StatusReply seconds context w.store jobId.val reply ∧ w' = w.readStatus poll reply
    | .connectionLost => (w.phase = .events ∨ ∃ poll, w.phase = .status poll) ∧
        w' = { w with phase := .raised }

end Command

/-! ## What is to be shown -/

section Shown

variable {F : Type} [PyFloat F] (clock : Timestamp → F)

/-- These events are printed, in the order of their numbers and each of them once, and no event
of the ledger up to the number `last` is missing. -/
def ShowsUpTo (ledger : List EventRow) (last : Int) (printed : List (Json F)) : Prop :=
  ∃ rows : List EventRow, rows.mapM (eventFromRow clock) = some printed ∧ rows.Sublist ledger ∧
    rows.Pairwise (fun row row' => row.id < row'.id) ∧
    ∀ row ∈ ledger, (row.id : Int) ≤ last → row ∈ rows

/-- The event of a row that can be read. -/
def EventRow.event (row : EventRow) : Json F := (eventFromRow clock row).getD .null

/-- What an event takes of a page. -/
def EventRow.bytes (row : EventRow) : Nat := jsonBytes (row.event clock) + 1

def eventBudget : Nat := maxRpcMessageBytes - 65536

/-- The events up to the number `last` that a request for events had to tell. -/
def Poll.backlog (poll : Poll) (jobId : Text) (last : Int) : List EventRow :=
  (poll.store.eventsOf jobId).filter fun row => poll.afterId < row.id ∧ (row.id : Int) ≤ last

/-- The last request for events has found all events up to the number `last`: none came after
it, none is too large for a page, and one page was enough for those that it had to tell. -/
structure Poll.Covers (poll : Poll) (jobId : Text) (reported : Store) (last : Int) : Prop where
  committed : ∀ row ∈ reported.eventsOf jobId, (row.id : Int) ≤ last →
    row ∈ poll.store.eventsOf jobId
  small : ∀ row ∈ reported.eventsOf jobId, (row.id : Int) ≤ last → row.bytes clock ≤ eventBudget
  count : (poll.backlog jobId last).length ≤ 100
  bytes : (poll.backlog jobId last).length ≤ 1 ∨
    2 + ((poll.backlog jobId last).map (EventRow.bytes clock)).sum ≤ eventBudget

end Shown

/-! ## A page of events -/

section Page

variable {F : Type} [PyFloat F] {clock : Timestamp → F} {sha256 : Str → Str} {s s' : Store}
  {jobId : Text} {rows : List EventRow} {row : EventRow}

def EventRow.number (row : EventRow) : Int := row.id

variable (clock) in
/-- The rows of the page that a request for events gets. -/
def Poll.page (poll : Poll) (jobId : Text) : List EventRow :=
  Paging.cut (EventRow.bytes clock) eventBudget false 2
    ((Paging.behind EventRow.number (poll.store.eventsOf jobId) poll.afterId).take 100)

/-- A row that can be read is an event with its number. -/
theorem EventRow.event_eq (h : Readable F row.payload.val) :
    eventFromRow clock row = some (row.event clock) ∧
      eventId (row.event clock) = some row.number := by
  obtain ⟨payload, hpayload⟩ := h
  have hread : eventFromRow clock row = some (row.event clock) := by
    rw [EventRow.event, eventFromRow, hpayload]
    rfl
  refine ⟨hread, ?_⟩
  rw [EventRow.event, eventFromRow, hpayload]
  rfl

theorem mapM_event (h : ∀ row ∈ rows, Readable F row.payload.val) :
    rows.mapM (eventFromRow clock) = some (rows.map (EventRow.event clock)) := by
  induction rows with
  | nil => rfl
  | cons row rows ih =>
    obtain ⟨hrow, hrows⟩ := List.forall_mem_cons.mp h
    rw [List.mapM_cons, (EventRow.event_eq hrow).1, ih hrows]
    rfl

theorem afterEvents_event (h : ∀ row ∈ rows, Readable F row.payload.val) (after : Int) :
    afterEvents after (rows.map (EventRow.event clock)) =
      some (Paging.advance EventRow.number after rows) := by
  induction rows generalizing after with
  | nil => rfl
  | cons row rows ih =>
    obtain ⟨hrow, hrows⟩ := List.forall_mem_cons.mp h
    have hid := (@EventRow.event_eq F _ clock row hrow).2
    rw [List.map_cons, afterEvents, hid, Option.bind_some, ih hrows]
    rfl

/-- `_events_bounded` cuts a page of rows. -/
theorem eventsBoundedFrom_event (budget : Nat) (any : Bool) (used : Nat) (rows : List EventRow) :
    eventsBoundedFrom budget any used (rows.map (EventRow.event clock)) =
      (Paging.cut (EventRow.bytes clock) budget any used rows).map (EventRow.event clock) := by
  induction rows generalizing any used with
  | nil => rfl
  | cons row rows ih =>
    rw [List.map_cons, eventsBoundedFrom, Paging.cut]
    show (if any = true ∧ budget < used + row.bytes clock then [] else
      if budget < row.bytes clock then _ else _) = _
    split_ifs
    · rfl
    · exact ih any used
    · rw [List.map_cons, ih]
      rfl

theorem readable_eventsOf (hledger : s.Ledger F) (hrow : row ∈ s.eventsOf jobId) :
    Readable F row.payload.val := by
  have hmem : row ∈ s.events.select fun e => e.jobId == jobId := List.mem_mergeSort.mp hrow
  exact hledger.readable row (List.mem_filter.mp hmem).1

theorem number_le_of_mem_eventsOf (hrow : row ∈ s.eventsOf jobId) :
    row.number ≤ s.events.rows.length := by
  have hmem : row ∈ s.events.select fun e => e.jobId == jobId := List.mem_mergeSort.mp hrow
  exact Int.ofNat_le.mpr (s.eventIds row (List.mem_filter.mp hmem).1)

theorem number_pos (hledger : s.Ledger F) (hrow : row ∈ s.eventsOf jobId) : 0 < row.number := by
  have hmem : row ∈ s.events.select fun e => e.jobId == jobId := List.mem_mergeSort.mp hrow
  have hid : row.id ∈ s.events.rows.map EventRow.id :=
    List.mem_map_of_mem (Table.mem_rows.mpr (List.mem_filter.mp hmem).1)
  rw [hledger.ids, List.mem_range'_1] at hid
  exact Int.ofNat_lt.mpr hid.1

theorem eventsOf_numbered (hledger : s.Ledger F) (jobId : Text) :
    (s.eventsOf jobId).Pairwise fun row row' => row.number < row'.number :=
  (hledger.eventsOf_sorted jobId).imp Int.ofNat_lt.mpr

theorem eq_of_number {row' : EventRow}
    (hnumbered : rows.Pairwise fun row row' => row.number < row'.number) (hrow : row ∈ rows)
    (hrow' : row' ∈ rows) (hsame : row.number = row'.number) : row = row' := by
  by_contra hne
  have hsymm : Std.Symm fun row row' : EventRow => row.number ≠ row'.number :=
    ⟨fun _ _ hdiffer => hdiffer.symm⟩
  exact (hnumbered.imp ne_of_lt).forall hrow hrow' hne hsame

variable (clock) in
/-- A page is the beginning of what lies behind the number, without events that are too large. -/
theorem Poll.page_isPage (poll : Poll) (jobId : Text) :
    Paging.Page (fun row => row.bytes clock ≤ eventBudget)
      (Paging.behind EventRow.number (poll.store.eventsOf jobId) poll.afterId)
      (poll.page clock jobId) := by
  let behind := Paging.behind EventRow.number (poll.store.eventsOf jobId) poll.afterId
  have htaken := (@Paging.cut_isPage _ (EventRow.bytes clock) eventBudget false 2
    (behind.take 100)).append_right (behind.drop 100)
  rwa [List.take_append_drop] at htaken

theorem Poll.page_subset (poll : Poll) : poll.page clock jobId ⊆ poll.store.eventsOf jobId := by
  intro row hrow
  exact List.mem_of_mem_filter ((poll.page_isPage clock jobId).sublist.subset hrow)

/-- What the daemon answers to the request for events. -/
theorem dispatchEvents_eq (hledger : s.Ledger F) {after : Int} (hnonneg : 0 ≤ after)
    (hlt : after < 2 ^ 63) :
    dispatchEvents clock s jobId (some after) (some 200) =
      some (.arr (.ofList
        (((⟨s, after⟩ : Poll).page clock jobId).map (EventRow.event clock)))) := by
  have hafter : boundedInt (some after) 0 0 (2 ^ 63 - 1) = after := by
    rw [boundedInt, max_eq_right hnonneg, min_eq_right]
    omega
  have hlimit : boundedInt (some 200) 200 1 maxEventListLimit = 100 := by
    decide
  have hcount : (min maxEventListLimit (max 1 100)).toNat = 100 := by
    decide
  have hread : ∀ row ∈ (Paging.behind EventRow.number (s.eventsOf jobId) after).take 100,
      Readable F row.payload.val := by
    intro row hrow
    exact readable_eventsOf hledger (List.mem_of_mem_filter (List.mem_of_mem_take hrow))
  have hbehind : (s.eventsOf jobId).filter (fun e => max 0 after < e.id) =
      Paging.behind EventRow.number (s.eventsOf jobId) after := by
    rw [max_eq_right hnonneg]
    rfl
  rw [dispatchEvents, hafter, hlimit, eventPage, hbehind, hcount, mapM_event hread, Option.map_some,
    eventsBounded, eventsBoundedFrom_event]
  rfl

end Page

/-! ## What has been printed -/

section Printed

variable {F : Type} [PyFloat F] {clock : Timestamp → F} {sha256 : Str → Str} {s s' : Store}
  {jobId : Text} {w : Watch F} {poll : Poll} {reported : Store} {last : Int}

/-- The rows of a ledger up to a number whose events are not too large. -/
def printedRows (clock : Timestamp → F) (s : Store) (jobId : Text) (after : Int) :
    List EventRow :=
  Paging.shown EventRow.number (fun row => row.bytes clock ≤ eventBudget) (s.eventsOf jobId) after

/-- What has been printed are the events of this store up to `after`. -/
structure Shown (clock : Timestamp → F) (jobId : Text) (s : Store) (after : Int)
    (printed : List (Json F)) : Prop where
  nonneg : 0 ≤ after
  within : after ≤ s.events.rows.length
  printed : printed = (printedRows clock s jobId after).map (EventRow.event clock)

/-- Before the first request nothing has been printed. -/
theorem shown_zero (hledger : s.Ledger F) : Shown clock jobId s 0 [] := by
  refine ⟨le_refl 0, Int.natCast_nonneg _, ?_⟩
  have hnone : printedRows clock s jobId 0 = [] := by
    rw [List.eq_nil_iff_forall_not_mem]
    intro row hrow
    obtain ⟨hmem, hzero, -⟩ := Paging.mem_shown.mp hrow
    exact absurd hzero (not_le_of_gt (number_pos hledger hmem))
  rw [hnone]
  rfl

/-- Later events have not been printed. -/
theorem Shown.recorded {after : Int} {printed : List (Json F)}
    (h : Shown clock jobId s after printed) (hledger : s.Ledger F)
    (hrecorded : s.Recorded F s') : Shown clock jobId s' after printed := by
  obtain ⟨added, hadded, hlater⟩ := eventsOf_recorded hledger hrecorded jobId
  have hlength : s.events.rows.length ≤ s'.events.rows.length := by
    obtain ⟨rows, hrows, -⟩ := hrecorded
    rw [hrows, List.length_append]
    exact Nat.le_add_right _ _
  have hsame : printedRows clock s' jobId after = printedRows clock s jobId after := by
    rw [printedRows, hadded]
    apply Paging.shown_append
    intro row hrow
    exact h.within.trans_lt (Int.ofNat_lt.mpr (hlater row hrow))
  refine ⟨h.nonneg, h.within.trans (Int.ofNat_le.mpr hlength), ?_⟩
  rw [hsame]
  exact h.printed

/-- What is known after a request for events. -/
structure Polled (clock : Timestamp → F) (jobId : Text) (poll : Poll) (after : Int)
    (printed : List (Json F)) : Prop where
  ledger : poll.store.Ledger F
  cursor : after = Paging.advance EventRow.number poll.afterId (poll.page clock jobId)
  shown : Shown clock jobId poll.store after printed

/-- What is known of the command in a phase. -/
def WatchPhase.Known (clock : Timestamp → F) (jobId : Text) (s : Store) (after : Int)
    (printed : List (Json F)) : WatchPhase → Prop
  | .events => Shown clock jobId s after printed
  | .status poll => Polled clock jobId poll after printed ∧ poll.store.Recorded F s
  | .returned poll reported _ => Polled clock jobId poll after printed ∧
      poll.store.Recorded F reported
  | .raised => True

def Watch.Known (clock : Timestamp → F) (jobId : Text) (w : Watch F) : Prop :=
  w.phase.Known clock jobId w.store w.after w.printed

/-- Whoever writes to the database does not change it. -/
theorem WatchPhase.Known.recorded {after : Int} {printed : List (Json F)} {phase : WatchPhase}
    (h : phase.Known clock jobId s after printed) (hledger : s.Ledger F)
    (hrecorded : s.Recorded F s') : phase.Known clock jobId s' after printed := by
  cases phase with
  | events => exact Shown.recorded h hledger hrecorded
  | status poll => exact ⟨h.1, trans_of (Store.Recorded F) h.2 hrecorded⟩
  | returned poll reported code => exact h
  | raised => trivial

/-- A request for events prints the page. -/
theorem Watch.requestEvents_known {seconds : Seconds F}
    (h : Shown seconds.stamp jobId w.store w.after w.printed) (hledger : w.store.Ledger F)
    (hcount : w.store.events.rows.length < 2 ^ 63) :
    (w.requestEvents seconds jobId).store = w.store ∧
      (w.requestEvents seconds jobId).phase = .status ⟨w.store, w.after⟩ ∧
      (w.requestEvents seconds jobId).Known seconds.stamp jobId := by
  let poll : Poll := ⟨w.store, w.after⟩
  have hlt : w.after < 2 ^ 63 := h.within.trans_lt (by exact_mod_cast hcount)
  have hsubset : poll.page seconds.stamp jobId ⊆ w.store.eventsOf jobId := poll.page_subset
  have hread : ∀ row ∈ poll.page seconds.stamp jobId, Readable F row.payload.val := by
    intro row hrow
    exact readable_eventsOf hledger (hsubset hrow)
  have hnext : w.requestEvents seconds jobId =
      { w with
        after := Paging.advance EventRow.number w.after (poll.page seconds.stamp jobId)
        printed := w.printed ++ (poll.page seconds.stamp jobId).map (EventRow.event seconds.stamp)
        phase := .status poll } := by
    unfold Watch.requestEvents
    rw [dispatchEvents_eq hledger h.nonneg hlt]
    simp only [Elems.toList_ofList]
    have hafter : afterEvents w.after (((⟨w.store, w.after⟩ : Poll).page seconds.stamp jobId).map
        (EventRow.event seconds.stamp)) = _ := afterEvents_event hread w.after
    rw [hafter]
  rw [hnext]
  refine ⟨rfl, rfl, ⟨hledger, rfl, ?_, ?_, ?_⟩, refl_of (Store.Recorded F) w.store⟩
  · exact h.nonneg.trans (Paging.le_advance _)
  · apply Paging.advance_le h.within
    intro row hrow
    exact number_le_of_mem_eventsOf (hsubset hrow)
  · -- the page is what is printed in addition
    have hshown := Paging.shown_advance (eventsOf_numbered hledger jobId)
      (poll.page_isPage seconds.stamp jobId)
    show w.printed ++ _ = _
    rw [printedRows, hshown, List.map_append, h.printed]
    rfl

/-- A status is reported, or the events are asked for again. -/
theorem Watch.readStatus_known (hledger : poll.store.Ledger F)
    (h : w.phase.Known clock jobId w.store w.after w.printed) (hphase : w.phase = .status poll)
    (reply : Except Exn (Option (Status F))) :
    (w.readStatus poll reply).store = w.store ∧
      (w.readStatus poll reply).Known clock jobId := by
  rw [hphase] at h
  obtain ⟨hpolled, hrecorded⟩ := h
  match reply with
  | .ok (some status) =>
    simp only [Watch.readStatus]
    split_ifs
    · exact ⟨rfl, hpolled, hrecorded⟩
    · exact ⟨rfl, hpolled, hrecorded⟩
    · exact ⟨rfl, hpolled.shown.recorded hledger hrecorded⟩
  | .ok none => exact ⟨rfl, trivial⟩
  | .error e => exact ⟨rfl, trivial⟩

theorem watching_known {seconds : Seconds F} (h : (watching seconds sha256 jobId).Reachable w) :
    (database F sha256).Reachable w.store ∧ w.store.events.rows.length < 2 ^ 63 ∧
      w.Known seconds.stamp jobId := by
  refine @System.Reachable.invariant _ _ _ (fun w => (database F sha256).Reachable w.store ∧
    w.store.events.rows.length < 2 ^ 63 ∧ w.Known seconds.stamp jobId) ?_ ?_ w h
  · rintro w ⟨hreach, hcount, hfresh⟩
    refine ⟨hreach, hcount, ?_⟩
    rw [hfresh]
    exact shown_zero (reachable_ledger hreach)
  · rintro w l w' - ⟨hreach, hcount, hknown⟩ hstep
    have hledger := reachable_ledger hreach
    cases l with
    | commits op =>
      obtain ⟨s, hop, hcount', rfl⟩ := hstep
      exact ⟨hreach.step hop, hcount', hknown.recorded hledger (op.run_recorded _ _ _ hop)⟩
    | requestEvents =>
      obtain ⟨hphase, rfl⟩ := hstep
      unfold Watch.Known at hknown
      rw [hphase] at hknown
      obtain ⟨hstore, -, hafter⟩ := Watch.requestEvents_known hknown hledger hcount
      rw [hstore]
      exact ⟨hreach, hcount, hafter⟩
    | requestStatus context reply =>
      obtain ⟨poll, hphase, -, rfl⟩ := hstep
      have hpoll : poll.store.Ledger F := by
        unfold Watch.Known at hknown
        rw [hphase] at hknown
        exact hknown.1.ledger
      obtain ⟨hstore, hafter⟩ := Watch.readStatus_known hpoll hknown hphase reply
      rw [hstore]
      exact ⟨hreach, hcount, hafter⟩
    | connectionLost =>
      obtain ⟨-, rfl⟩ := hstep
      exact ⟨hreach, hcount, trivial⟩

/-- The history is shown exactly if the printed rows have all of it. -/
theorem showsUpTo_iff {after : Int} {printed : List (Json F)}
    (hledger : s.Ledger F) (hrecorded : s.Recorded F reported)
    (hprinted : printed = (printedRows clock s jobId after).map (EventRow.event clock)) :
    ShowsUpTo clock (reported.eventsOf jobId) last printed ↔
      ∀ row ∈ reported.eventsOf jobId, row.number ≤ last →
        row ∈ printedRows clock s jobId after := by
  have hledger' := hledger.recorded hrecorded
  have hsublist : (printedRows clock s jobId after).Sublist (reported.eventsOf jobId) := by
    obtain ⟨added, hadded, -⟩ := eventsOf_recorded hledger hrecorded jobId
    rw [hadded]
    exact Paging.shown_sublist.trans (List.sublist_append_left _ added)
  have hread : ∀ rows, rows ⊆ reported.eventsOf jobId →
      ∀ row ∈ rows, Readable F row.payload.val := by
    intro rows hsubset row hrow
    exact readable_eventsOf hledger' (hsubset hrow)
  constructor
  · rintro ⟨rows, hrows, hordered, -, hall⟩ row hrow hlast
    rw [mapM_event (hread rows hordered.subset), Option.some_inj, hprinted] at hrows
    have hmem : row.event clock ∈ (printedRows clock s jobId after).map (EventRow.event clock) := by
      rw [← hrows]
      exact List.mem_map_of_mem (hall row hrow hlast)
    obtain ⟨row', hrow', hsame⟩ := List.mem_map.mp hmem
    -- an event of the ledger is known by its number
    have hid := (@EventRow.event_eq F _ clock row (readable_eventsOf hledger' hrow)).2
    have hid' := (@EventRow.event_eq F _ clock row'
      (readable_eventsOf hledger' (hsublist.subset hrow'))).2
    rw [hsame, hid, Option.some_inj] at hid'
    have heq : row = row' :=
      eq_of_number (eventsOf_numbered hledger' jobId) hrow (hsublist.subset hrow') hid'
    rwa [heq]
  · intro hall
    refine ⟨printedRows clock s jobId after, ?_, hsublist, ?_, hall⟩
    · rw [mapM_event (hread _ hsublist.subset), hprinted]
    · exact (hledger'.eventsOf_sorted jobId).sublist hsublist

/-- The events that a request had to tell are the first that it has found. -/
theorem Poll.backlog_prefix (hledger : poll.store.Ledger F) (last : Int) :
    poll.backlog jobId last <+:
      Paging.behind EventRow.number (poll.store.eventsOf jobId) poll.afterId := by
  have hsorted : (Paging.behind EventRow.number (poll.store.eventsOf jobId) poll.afterId).Pairwise
      fun row row' => row.number < row'.number := (eventsOf_numbered hledger jobId).filter _
  have hparts := Paging.filter_append_behind hsorted last
  have hbacklog : poll.backlog jobId last =
      (Paging.behind EventRow.number (poll.store.eventsOf jobId) poll.afterId).filter
        fun row => row.number ≤ last := by
    rw [Paging.behind, List.filter_filter]
    apply List.filter_congr
    intro row _
    rw [Bool.and_comm, ← Bool.decide_and]
    rfl
  rw [hbacklog]
  exact ⟨_, hparts⟩

/-- A page has all that a request had to tell exactly if it is large enough. -/
theorem Poll.backlog_prefix_page_iff (hledger : poll.store.Ledger F)
    (hsmall : ∀ row ∈ poll.backlog jobId last, row.bytes clock ≤ eventBudget) :
    (∀ row ∈ poll.backlog jobId last,
      row.number ≤ Paging.advance EventRow.number poll.afterId (poll.page clock jobId)) ↔
      (poll.backlog jobId last).length ≤ 100 ∧ ((poll.backlog jobId last).length ≤ 1 ∨
        2 + ((poll.backlog jobId last).map (EventRow.bytes clock)).sum ≤ eventBudget) := by
  have hfits : ∀ row ∈ poll.backlog jobId last,
      decide (row.bytes clock ≤ eventBudget) = true := by
    intro row hrow
    exact decide_eq_true (hsmall row hrow)
  rw [Paging.forall_le_advance_iff (eventsOf_numbered hledger jobId)
    (poll.page_isPage clock jobId) (Poll.backlog_prefix hledger last) hfits]
  exact Paging.isPrefix_cut_take_iff (Poll.backlog_prefix hledger last) hsmall 2 100

/-- What has been printed is the history exactly if the last request covers it. -/
theorem Polled.showsUpTo_iff {after : Int} {printed : List (Json F)}
    (h : Polled clock jobId poll after printed) (hrecorded : poll.store.Recorded F reported) :
    ShowsUpTo clock (reported.eventsOf jobId) last printed ↔
      poll.Covers clock jobId reported last := by
  -- what was polled is an initial part of the events that the report knows
  have hsubset : poll.store.eventsOf jobId ⊆ reported.eventsOf jobId := by
    obtain ⟨added, hadded, -⟩ := eventsOf_recorded h.ledger hrecorded jobId
    rw [hadded]
    exact List.subset_append_left _ added
  have hbacklog : ∀ row ∈ poll.backlog jobId last,
      row ∈ poll.store.eventsOf jobId ∧ row.number ≤ last := by
    intro row hrow
    obtain ⟨hmem, hbetween⟩ := List.mem_filter.mp hrow
    exact ⟨hmem, (of_decide_eq_true hbetween).2⟩
  rw [OmarchyYolo.showsUpTo_iff h.ledger hrecorded h.shown.printed]
  constructor
  -- all is shown: then it was there at the poll, was reached by the cursor, and is small
  · intro hall
    have hshown : ∀ row ∈ reported.eventsOf jobId, row.number ≤ last →
        row ∈ poll.store.eventsOf jobId ∧ row.number ≤ after ∧ row.bytes clock ≤ eventBudget := by
      intro row hrow hlast
      obtain ⟨hmem, hafter, hfits⟩ := Paging.mem_shown.mp (hall row hrow hlast)
      exact ⟨hmem, hafter, of_decide_eq_true hfits⟩
    have hsmall : ∀ row ∈ poll.backlog jobId last, row.bytes clock ≤ eventBudget := by
      intro row hrow
      exact (hshown row (hsubset (hbacklog row hrow).1) (hbacklog row hrow).2).2.2
    -- the cursor reached the whole backlog, so it was within one page
    obtain ⟨hcount, hbytes⟩ := (Poll.backlog_prefix_page_iff h.ledger hsmall).mp (by
      intro row hrow
      rw [← h.cursor]
      exact (hshown row (hsubset (hbacklog row hrow).1) (hbacklog row hrow).2).2.1)
    exact ⟨fun row hrow hlast => (hshown row hrow hlast).1,
      fun row hrow hlast => (hshown row hrow hlast).2.2, hcount, hbytes⟩
  -- the poll covers all: each row is before the cursor, or in the page that was read
  · intro hcovers row hrow hlast
    have hmem := hcovers.committed row hrow hlast
    refine Paging.mem_shown.mpr ⟨hmem, ?_, decide_eq_true (hcovers.small row hrow hlast)⟩
    -- before the poll's cursor, which only advances
    by_cases hbefore : row.number ≤ poll.afterId
    · rw [h.cursor]
      exact hbefore.trans (Paging.le_advance _)
    -- after it: then in the backlog
    · have htold : row ∈ poll.backlog jobId last :=
        List.mem_filter.mpr ⟨hmem, decide_eq_true ⟨lt_of_not_ge hbefore, hlast⟩⟩
      have hsmall : ∀ row ∈ poll.backlog jobId last, row.bytes clock ≤ eventBudget := by
        intro row hrow
        exact hcovers.small row (hsubset (hbacklog row hrow).1) (hbacklog row hrow).2
      rw [h.cursor]
      exact (Poll.backlog_prefix_page_iff h.ledger hsmall).mpr ⟨hcovers.count, hcovers.bytes⟩
        row htold

end Printed

/-- When the command returns, it has printed the events up to any number, in order and each of
them once, exactly if its last request for events covers them: the events up to that number that
the store has when its status is reported were there at that request, none of them is too large,
and one page was enough for those that had not been printed. -/
theorem watch_shows_iff {F : Type} [PyFloat F] {seconds : Seconds F} {sha256 : Str → Str}
    {jobId : Text} {w : Watch F} (h : (watching seconds sha256 jobId).Reachable w) {poll : Poll}
    {reported : Store} {code : Nat} (hreturned : w.phase = .returned poll reported code)
    (last : Int) :
    ShowsUpTo seconds.stamp (reported.eventsOf jobId) last w.printed ↔
      poll.Covers seconds.stamp jobId reported last := by
  obtain ⟨-, -, hknown⟩ := watching_known h
  unfold Watch.Known at hknown
  rw [hreturned] at hknown
  exact Polled.showsUpTo_iff hknown.1 hknown.2

/-! ## A note before the end -/

/-- A job that somebody watches. -/
def watchedJob : Operation WholeFloat :=
  .call (.createJob (crowdId 0) 1
    { repo := lit "/src", goal := lit "Add the parser", baseBranch := lit "main"
      baseCommit := lit "c0", integrationBranch := lit "yolo/run/integration"
      autoApply := false })

def watchedNote : Operation WholeFloat := .event (crowdId 0).val (lit "note") .nil none 2

def watchedFailure : Operation WholeFloat :=
  .call (.updateJob (crowdId 0).val { state := some (lit "failed") } 3)

def watchedRow (state : JobState) (updatedAt : Timestamp) : JobRow where
  id                := crowdId 0
  repo              := Text.lit "/src"
  goal              := Text.lit "Add the parser"
  state             := state
  baseBranch        := Text.lit "main"
  baseCommit        := Text.lit "c0"
  integrationBranch := Text.lit "yolo/run/integration"
  createdAt         := 1
  updatedAt         := updatedAt

/-- The stores after the job, after the note and after the failure. -/
def watchedStores : Option (Store × Store × Store) :=
  (runOperations demoDigest [watchedJob] Store.empty).bind fun s =>
    (runOperations demoDigest [watchedNote] s).bind fun noted =>
      (runOperations demoDigest [watchedFailure] noted).map fun failed => (s, noted, failed)

/-- The jobs, the events of the job with what they take of a page, and the number of events and
of the rows of tasks and attempts. -/
structure WatchedRows where
  jobs : List JobRow
  events : List (Nat × Nat)
  eventCount : Nat
  otherRows : Nat
deriving DecidableEq

def watchedRows (s : Store) : WatchedRows where
  jobs       := s.jobs.rows
  events     := (s.events.select fun e => e.jobId == crowdId 0).map fun e =>
    (e.id, e.bytes demoSeconds.stamp)
  eventCount := s.events.rows.length
  otherRows  := s.tasks.rows.length + s.attempts.rows.length

theorem watchedStores_eq : watchedStores.map (fun (s, noted, failed) =>
      [watchedRows s, watchedRows noted, watchedRows failed]) =
    some [⟨[watchedRow .queued 1], [(1, 140)], 1, 0⟩,
      ⟨[watchedRow .queued 1], [(1, 140), (2, 96)], 2, 0⟩,
      ⟨[watchedRow .failed 3], [(1, 140), (2, 96)], 2, 0⟩] := by
  decide +kernel

/-- The status of that job is answered. -/
theorem watched_status {s : Store} (hreach : (database WholeFloat demoDigest).Reachable s)
    {state : JobState} {updatedAt : Timestamp} (hjobs : s.jobs.rows = [watchedRow state updatedAt])
    (htasks : s.tasks.rows = []) (hattempts : s.attempts.rows = []) :
    ∃ status, StatusReply demoSeconds { demoContext with groups := [] } s (crowdId 0).val
      (.ok (some status)) ∧ status.job.row = watchedRow state updatedAt := by
  have hmem : watchedRow state updatedAt ∈ s.jobs := by
    rw [← Table.mem_rows, hjobs]
    exact List.mem_cons_self
  -- the job has no task and no attempt
  have htasksOf : s.tasksOf (watchedRow state updatedAt).id = [] := by
    rw [(reachable_sound hreach).tasks.tasksOf_eq, Table.select, htasks]
    rfl
  have hattemptsOf : s.attemptsOf (watchedRow state updatedAt).id = [] := by
    rw [Store.attemptsOf, Table.select, hattempts]
    rfl
  have hgroups : s.Groups (watchedRow state updatedAt).id [] := by
    rw [Store.Groups, hattemptsOf]
    exact .refl _
  -- its texts are within the limits, and its identifiers are drawn
  have hlimits : StatusLimits s (watchedRow state updatedAt) := by
    constructor
    · rw [htasksOf]
      decide
    · rw [htasksOf]
      decide
    · rw [htasksOf]
      decide
    · exact (by decide : (lit "/src").length ≤ 4096)
    · exact (by decide : (lit "main").length ≤ 4096)
    · exact (by decide : (lit "yolo/run/integration").length ≤ 4096)
    · exact Nat.zero_le 4096
    · rw [hattemptsOf]
      decide
    · rw [hattemptsOf]
      decide
  have hdrawn : DrawnRows s (watchedRow state updatedAt) := by
    constructor
    · have hid : (crowdId 0).val = newId (lit "job") (List.replicate 12 0) := by
        decide +kernel
      exact ⟨List.replicate 12 0, rfl, hid⟩
    · rw [htasksOf]
      intro t ht
      exact absurd ht List.not_mem_nil
    · exact (by decide : (lit "c0").length ≤ 128)
    · rw [hattemptsOf]
      decide
  have hruntime : ({ demoContext with groups := [] } : StatusContext WholeFloat).runtime.Short :=
    ⟨by decide +kernel, by decide +kernel⟩
  obtain ⟨status, hstatus, -⟩ :=
    jobStatus_ok hreach demoSeconds_short hruntime hmem hlimits hdrawn hgroups
  have hreply : StatusReply demoSeconds { demoContext with groups := [] } s (crowdId 0).val
      ((jobStatus demoSeconds { demoContext with groups := [] } s
        (watchedRow state updatedAt)).map some) := by
    -- the request names the job
    refine .named ?_ (getJob_ok (Store.job?_eq_some hmem)) hgroups
    decide
  rw [hstatus] at hreply
  exact ⟨status, hreply, jobStatus_row hstatus⟩

/-- The note comes after the only request for events, and the failure is reported. -/
theorem watched_run : ∃ (w : Watch WholeFloat) (s noted reported : Store),
    (database WholeFloat demoDigest).Reachable s ∧
      (watching demoSeconds demoDigest (crowdId 0)).Reachable w ∧
      w.phase = .returned ⟨s, 0⟩ reported 1 ∧
      watchedNote.run demoDigest s = .ok () noted ∧
      watchedFailure.run demoDigest noted = .ok () reported ∧
      watchedRows s = ⟨[watchedRow .queued 1], [(1, 140)], 1, 0⟩ ∧
      watchedRows reported = ⟨[watchedRow .failed 3], [(1, 140), (2, 96)], 2, 0⟩ := by
  -- the three stores: before the note, after it, and after the failure
  obtain ⟨⟨s, noted, reported⟩, hstores, hrows⟩ := Option.map_eq_some_iff.mp watchedStores_eq
  obtain ⟨s', hs, hstores⟩ := Option.bind_eq_some_iff.mp hstores
  obtain ⟨noted', hnoted, hstores⟩ := Option.bind_eq_some_iff.mp hstores
  obtain ⟨reported', hreported, hstores⟩ := Option.map_eq_some_iff.mp hstores
  cases hstores
  simp only [List.cons.injEq, and_true] at hrows
  obtain ⟨hrows, hrowsNoted, hrowsReported⟩ := hrows
  have hnote := run_of_runOperations hnoted
  have hfailure := run_of_runOperations hreported
  have hreach := runOperations_reachable hs
  have hreachReported : (database WholeFloat demoDigest).Reachable reported :=
    (hreach.steps (runOperations_steps hnoted)).steps (runOperations_steps hreported)
  have hledger := reachable_ledger hreach
  have hcount : s.events.rows.length < 2 ^ 63 := by
    rw [show s.events.rows.length = 1 from congrArg WatchedRows.eventCount hrows]
    decide
  have hcountNoted : noted.events.rows.length < 2 ^ 63 := by
    rw [show noted.events.rows.length = 2 from congrArg WatchedRows.eventCount hrowsNoted]
    decide
  have hcountReported : reported.events.rows.length < 2 ^ 63 := by
    rw [show reported.events.rows.length = 2 from congrArg WatchedRows.eventCount hrowsReported]
    decide
  -- the command asks for the events before the note
  have hstart : (watching demoSeconds demoDigest (crowdId 0)).Reachable { store := s } :=
    System.reachable_init ⟨hreach, hcount, rfl⟩
  have hasked : (watching demoSeconds demoDigest (crowdId 0)).Reachable
      (Watch.requestEvents demoSeconds (crowdId 0) { store := s }) :=
    hstart.step (l := WatchStep.requestEvents) ⟨rfl, rfl⟩
  have hknown := @Watch.requestEvents_known _ _ (crowdId 0) { store := s } demoSeconds
    (shown_zero hledger) hledger hcount
  revert hasked hknown
  generalize Watch.requestEvents demoSeconds (crowdId 0) { store := s } = w
  rintro hasked ⟨hstore, hphase, -⟩
  -- then there are the note and the failure
  have hlater : (watching demoSeconds demoDigest (crowdId 0)).Reachable { w with store := noted } :=
    hasked.step (l := WatchStep.commits watchedNote) ⟨noted, by rwa [hstore], hcountNoted, rfl⟩
  have hended : (watching demoSeconds demoDigest (crowdId 0)).Reachable
      { w with store := reported } :=
    hlater.step (l := WatchStep.commits watchedFailure) ⟨reported, hfailure, hcountReported, rfl⟩
  have hother : reported.tasks.rows.length + reported.attempts.rows.length = 0 :=
    congrArg WatchedRows.otherRows hrowsReported
  obtain ⟨status, hreply, hrow⟩ := watched_status hreachReported
    (congrArg WatchedRows.jobs hrowsReported)
    (List.length_eq_zero_iff.mp (Nat.add_eq_zero_iff.mp hother).1)
    (List.length_eq_zero_iff.mp (Nat.add_eq_zero_iff.mp hother).2)
  -- the status is asked last, of the store with the failure
  have hreturned := hended.step (l := WatchStep.requestStatus _ (.ok (some status)))
    ⟨⟨s, 0⟩, hphase, hreply, rfl⟩
  refine ⟨_, s, noted, reported, hreach, hreturned, ?_, hnote, hfailure, hrows, hrowsReported⟩
  simp only [Watch.readStatus, hrow]
  rfl

theorem watched_events {s : Store} {jobs : List JobRow} {events : List (Nat × Nat)} {n m : Nat}
    (hreach : (database WholeFloat demoDigest).Reachable s)
    (h : watchedRows s = ⟨jobs, events, n, m⟩) :
    (s.eventsOf (crowdId 0)).map (fun e => (e.id, e.bytes demoSeconds.stamp)) = events := by
  rw [(reachable_ledger hreach).eventsOf_eq]
  exact congrArg WatchedRows.events h

/-- The request covers the event of the job, but not the note. -/
theorem watched_covers {s reported : Store} (hreach : (database WholeFloat demoDigest).Reachable s)
    (hsteps : (database WholeFloat demoDigest).Steps s reported)
    (hrows : watchedRows s = ⟨[watchedRow .queued 1], [(1, 140)], 1, 0⟩)
    (hrowsReported : watchedRows reported =
      ⟨[watchedRow .failed 3], [(1, 140), (2, 96)], 2, 0⟩) :
    Poll.Covers demoSeconds.stamp ⟨s, 0⟩ (crowdId 0) reported 1 ∧
      ¬Poll.Covers demoSeconds.stamp ⟨s, 0⟩ (crowdId 0) reported 2 := by
  have hevents := watched_events hreach hrows
  have heventsReported := watched_events (hreach.steps hsteps) hrowsReported
  constructor
  -- up to the first event: one row, shown by the page that was read
  · have hcount : s.events.rows.length = 1 := congrArg WatchedRows.eventCount hrows
    have hone : (Poll.backlog ⟨s, 0⟩ (crowdId 0) 1).length ≤ 1 := by
      have hlength := congrArg List.length hevents
      rw [List.length_map] at hlength
      exact (List.length_filter_le _ _).trans hlength.le
    obtain ⟨added, hadded, hlater⟩ :=
      eventsOf_recorded (reachable_ledger hreach) (steps_recorded hsteps) (crowdId 0)
    refine ⟨?_, ?_, hone.trans (by decide), .inl hone⟩
    -- it was committed before the poll
    · intro row hrow hlast
      rw [hadded] at hrow
      rcases List.mem_append.mp hrow with hrow | hrow
      · exact hrow
      · have hlt := hlater row hrow
        omega
    -- and it fits the budget of a page
    · intro row hrow _
      have hpair := List.mem_map_of_mem (f := fun e : EventRow =>
        (e.id, e.bytes demoSeconds.stamp)) hrow
      rw [heventsReported] at hpair
      have hsmall : ∀ pair ∈ [(1, 140), (2, 96)], pair.2 ≤ eventBudget := by
        decide
      exact hsmall _ hpair
  -- up to the note: it came after the poll
  · intro hcovers
    have hnote : (2, 96) ∈ (reported.eventsOf (crowdId 0)).map fun e =>
        (e.id, e.bytes demoSeconds.stamp) := by
      rw [heventsReported]
      decide
    obtain ⟨row, hrow, hpair⟩ := List.mem_map.mp hnote
    have hid : row.id = 2 := congrArg Prod.fst hpair
    have hold := List.mem_map_of_mem (f := fun e : EventRow => (e.id, e.bytes demoSeconds.stamp))
      (hcovers.committed row hrow (by rw [hid]; rfl))
    rw [hevents, List.mem_singleton] at hold
    have hone : row.id = 1 := congrArg Prod.fst hold
    omega

/-- The note is an event that comes before the failure which is reported, and it has not been
printed. -/
theorem watch_misses_note : ∃ (w : Watch WholeFloat) (poll : Poll) (s noted reported : Store),
    (watching demoSeconds demoDigest (crowdId 0)).Reachable w ∧
      w.phase = .returned poll reported 1 ∧
      watchedNote.run demoDigest s = .ok () noted ∧
      watchedFailure.run demoDigest noted = .ok () reported ∧
      (reported.eventsOf (crowdId 0)).map EventRow.id = [1, 2] ∧
      ¬ShowsUpTo demoSeconds.stamp (reported.eventsOf (crowdId 0)) 2 w.printed := by
  obtain ⟨w, s, noted, reported, hstore, hreach, hphase, hnote, hfailure, hrows, hrowsReported⟩ :=
    watched_run
  have hsteps : (database WholeFloat demoDigest).Steps s reported :=
    .head ⟨watchedNote, hnote⟩ (.single ⟨watchedFailure, hfailure⟩)
  obtain ⟨-, huncovered⟩ := watched_covers hstore hsteps hrows hrowsReported
  obtain ⟨-, -, hknown⟩ := watching_known hreach
  unfold Watch.Known at hknown
  rw [hphase] at hknown
  refine ⟨w, ⟨s, 0⟩, s, noted, reported, hreach, hphase, hnote, hfailure, ?_, ?_⟩
  · have hids := congrArg (List.map Prod.fst)
      (watched_events (hstore.steps hsteps) hrowsReported)
    rwa [List.map_map] at hids
  · rw [Polled.showsUpTo_iff hknown.1 hknown.2]
    exact huncovered

/-- What came before the note has been printed. -/
theorem watch_shows_before_note : ∃ (w : Watch WholeFloat) (poll : Poll) (reported : Store),
    (watching demoSeconds demoDigest (crowdId 0)).Reachable w ∧
      w.phase = .returned poll reported 1 ∧
      ShowsUpTo demoSeconds.stamp (reported.eventsOf (crowdId 0)) 1 w.printed ∧
      ¬ShowsUpTo demoSeconds.stamp (reported.eventsOf (crowdId 0)) 2 w.printed := by
  obtain ⟨w, s, noted, reported, hstore, hreach, hphase, hnote, hfailure, hrows, hrowsReported⟩ :=
    watched_run
  have hsteps : (database WholeFloat demoDigest).Steps s reported :=
    .head ⟨watchedNote, hnote⟩ (.single ⟨watchedFailure, hfailure⟩)
  obtain ⟨hcovered, huncovered⟩ := watched_covers hstore hsteps hrows hrowsReported
  exact ⟨w, ⟨s, 0⟩, reported, hreach, hphase, (watch_shows_iff hreach hphase 1).mpr hcovered,
    fun hshown => huncovered ((watch_shows_iff hreach hphase 2).mp hshown)⟩

end OmarchyYolo
