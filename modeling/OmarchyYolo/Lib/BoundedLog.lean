import Mathlib.Data.List.DropRight
import Mathlib.Data.List.Infix

/-!
# OmarchyYolo.Lib.BoundedLog — a log with a limit, and the end of a stream

Entries are written to a log as long as there is room in front of a marker; the
entry that does not fit is cut, and the marker takes the rest of the room.

* `BoundedLog`, `BoundedLog.write` — the log;
* `Holds` — a front of what has been written, and the marker where it is not all;
* `BoundedLog.Writing` — the invariant of writing, `Writing.holds` — what it says;
* `keepLast` — the last items of a stream that arrives in chunks.
-/

namespace Log

variable {α : Type}

structure BoundedLog (α : Type) where
  contents : List α
  truncated : Bool := false
deriving DecidableEq, Repr

section limit

variable (limit : Nat) (marker : List α)

/-- Write an entry: what does not fit in front of the marker is cut. -/
def BoundedLog.write (log : BoundedLog α) (data : List α) : BoundedLog α :=
  if log.contents.length < limit then
    let remaining := limit - log.contents.length
    let payloadBudget := remaining - marker.length
    let contents := log.contents ++ data.take payloadBudget
    if payloadBudget < data.length ∧ log.truncated = false then
      { contents := contents ++ marker.take (limit - contents.length), truncated := true }
    else { log with contents := contents }
  else { log with truncated := true }

/-- The contents are a front of what has been written; where that is not all, there is room
behind it, and as much of the marker as fits in. -/
def Holds (written contents : List α) : Prop :=
  ∃ kept, kept <+: written ∧ (kept.length < written.length → kept.length < limit) ∧
    contents = kept ++
      if kept.length < written.length then marker.take (limit - kept.length) else []

/-- A log that started with `start`, and to which so much has been written. -/
structure BoundedLog.Writing (start written : List α) (log : BoundedLog α) : Prop where
  started : start.length ≤ written.length
  whole : log.truncated = false → log.contents = written ∧
    log.contents.length ≤ max start.length (limit - marker.length)
  cut : log.truncated = true → ∃ kept, kept <+: written ∧ kept.length < written.length ∧
    kept.length = max start.length (limit - marker.length) ∧
    log.contents = kept ++ marker.take (limit - kept.length)

variable {limit marker} {start written : List α} {log : BoundedLog α}

theorem BoundedLog.writing_start :
    BoundedLog.Writing limit marker start start { contents := start } where
  started := Nat.le_refl _
  whole _ := ⟨rfl, Nat.le_max_left _ _⟩
  cut := nofun

/-- A log that has been cut is full. -/
theorem BoundedLog.Writing.full (h : log.Writing limit marker start written)
    (hstart : start.length < limit) (hcut : log.truncated = true) :
    log.contents.length = limit := by
  obtain ⟨kept, -, -, hlen, hcontents⟩ := h.cut hcut
  rw [hcontents, List.length_append, List.length_take, hlen]
  omega

/-- Writing keeps the invariant. -/
theorem BoundedLog.Writing.after (h : log.Writing limit marker start written)
    (hstart : start.length < limit) (hmarker : marker ≠ []) (data : List α) :
    (log.write limit marker data).Writing limit marker start (written ++ data) := by
  have hpos := List.length_pos_of_ne_nil hmarker
  have hstarted : start.length ≤ (written ++ data).length := by
    have := h.started
    rw [List.length_append]
    omega
  cases hcut : log.truncated with
  | true =>
    -- there is no room for anything
    have hfull := h.full hstart hcut
    obtain ⟨kept, hkept, hless, hlen, hcontents⟩ := h.cut hcut
    have hsame : log.write limit marker data = log := by
      rw [BoundedLog.write, if_neg (by omega), ← hcut]
    rw [hsame]
    refine ⟨hstarted, fun hno => ?_, fun _ => ⟨kept, hkept.trans (List.prefix_append _ _), ?_,
      hlen, hcontents⟩⟩
    · rw [hcut] at hno
      cases hno
    · rw [List.length_append]
      omega
  | false =>
    -- the log is whole: the entry fits, or is cut at what room there is
    obtain ⟨hwhole, hroom⟩ := h.whole hcut
    have hstart' := h.started
    rw [← hwhole] at hstart'
    rw [BoundedLog.write, if_pos (by omega)]
    simp only
    split_ifs with hlong
    · -- the entry is cut
      refine ⟨hstarted, nofun, fun _ => ⟨log.contents ++
        data.take (limit - log.contents.length - marker.length), ?_, ?_, ?_, rfl⟩⟩
      · rw [hwhole]
        exact (List.prefix_append_right_inj _).mpr (List.take_prefix _ _)
      · rw [hwhole, List.length_append, List.length_append, List.length_take]
        rw [hwhole] at hlong
        omega
      · rw [List.length_append, List.length_take]
        omega
    -- it fits as it is
    · have hfits : data.length ≤ limit - log.contents.length - marker.length := by
        by_contra hnot
        exact hlong ⟨Nat.lt_of_not_le hnot, hcut⟩
      rw [List.take_of_length_le hfits]
      refine ⟨hstarted, fun _ => ⟨by rw [hwhole], ?_⟩, fun hno => ?_⟩
      · rw [List.length_append]
        omega
      · rw [show log.truncated = true from hno] at hcut
        cases hcut

/-- What has been written is there, up to the limit. -/
theorem BoundedLog.Writing.holds (h : log.Writing limit marker start written)
    (hstart : start.length < limit) (hmarker : marker ≠ []) :
    log.contents.length ≤ limit ∧ Holds limit marker written log.contents := by
  have hpos := List.length_pos_of_ne_nil hmarker
  cases hcut : log.truncated with
  | true =>
    obtain ⟨kept, hkept, hless, hlen, hcontents⟩ := h.cut hcut
    refine ⟨Nat.le_of_eq (h.full hstart hcut), kept, hkept, fun _ => by omega, ?_⟩
    rw [if_pos hless]
    exact hcontents
  | false =>
    obtain ⟨hwhole, hroom⟩ := h.whole hcut
    refine ⟨by omega, written, List.prefix_refl _, fun h => absurd h (Nat.lt_irrefl _), ?_⟩
    rw [if_neg (Nat.lt_irrefl _), List.append_nil]
    exact hwhole

end limit

/-! ## The end of a stream -/

/-- The last items, after a chunk has arrived. -/
def keepLast (limit : Nat) (target chunk : List α) : List α :=
  let target := target ++ chunk
  if limit < target.length then target.drop (target.length - limit) else target

theorem keepLast_eq_rtake (limit : Nat) (target chunk : List α) :
    keepLast limit target chunk = (target ++ chunk).rtake limit := by
  rw [keepLast, List.rtake]
  split_ifs with h
  · rfl
  · rw [Nat.sub_eq_zero_of_le (Nat.le_of_not_lt h), List.drop_zero]

/-- Only the last items matter for what is kept later. -/
theorem keepLast_rtake (limit : Nat) (received chunk : List α) :
    keepLast limit (received.rtake limit) chunk = (received ++ chunk).rtake limit := by
  rw [keepLast_eq_rtake]
  simp only [List.rtake_eq_reverse_take_reverse, List.reverse_append, List.reverse_reverse,
    List.take_append, List.take_take, List.length_reverse]
  rw [Nat.min_eq_left (Nat.sub_le _ _)]

end Log
