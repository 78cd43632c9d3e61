import OmarchyYolo.Lib.Utf8Decode
import OmarchyYolo.Reviewer

/-!
# OmarchyYolo.Truncation — texts that are cut to a number of bytes

`truncate_utf8` encodes a text, cuts its bytes wherever the budget ends, and
decodes them with `errors="ignore"`. `truncateUtf8` counts the bytes of the
characters instead; here the two are compared.

* `Encoded.truncateUtf8` — on the bytes, as the code does it;
* `LongestFront` — what is to be kept of a text that is too long;
* `Encoded.truncateUtf8_exact` — that is kept, and the result fits;
* `truncateUtf8_eq_encoded` — the two are the same; so prompts and gate
  summaries have their bounds (`byteLen_boundedPrompt_le`, `byteLen_formatGates_le`).
-/

namespace OmarchyYolo

open Py

/-- `value.encode("utf-8")`. -/
def encodeUtf8 (value : Str) : Except Exn (List UInt8) :=
  if isText value then .ok (fsencode value) else .error .unicodeEncodeError

/-- `truncate_utf8`, on the encoded text. -/
def Encoded.truncateUtf8 (value : Str) (maxBytes : Int)
    (marker : Str := lit "\n...[truncated]...\n") : Except Exn Str := do
  let encoded ← encodeUtf8 value
  if encoded.length ≤ maxBytes then return value
  let markerB ← encodeUtf8 marker
  -- `max(0, …)`
  let budget := (maxBytes - markerB.length).toNat
  return decodeIgnore (encoded.take budget) ++ marker

theorem encodeUtf8_eq {value : Str} (h : isText value = true) :
    encodeUtf8 value = .ok (fsencode value) := if_pos h

/-- The longest front of a text that has at most so many bytes. -/
structure LongestFront (budget : Int) (value kept : Str) : Prop where
  front : kept <+: value
  fits : (fsencode kept).length ≤ budget
  longest : ∀ part, part <+: value → (fsencode part).length ≤ budget → part <+: kept

theorem isText_of_front {part value : Str} (h : part <+: value) (hvalue : isText value = true) :
    isText part = true :=
  isText_of_subset (fun _ hc => h.subset hc) hvalue

/-- The bytes before the cut, decoded, are the longest front that fits. -/
theorem longestFront_decodeIgnore {value : Str} (hvalue : isText value = true) (budget : Nat) :
    LongestFront budget value (decodeIgnore ((fsencode value).take budget)) := by
  rw [decodeIgnore_take hvalue]
  have hfront := takeBytes_front budget value
  constructor
  · exact hfront
  · rw [length_fsencode (isText_of_front hfront hvalue)]
    exact Int.ofNat_le.mpr (byteLen_takeBytes_le budget value)
  · intro part hpart hfits
    rw [length_fsencode (isText_of_front hpart hvalue)] at hfits
    obtain ⟨after, rfl⟩ := hpart
    exact prefix_takeBytes_iff.mpr (Int.ofNat_le.mp hfits)

/-- The result has at most `maxBytes` bytes; it is the text itself where that fits, and
otherwise the longest front that leaves room for the marker, and the marker. -/
theorem Encoded.truncateUtf8_exact {value marker : Str} {maxBytes : Int}
    (hvalue : isText value = true) (hmarker : isText marker = true)
    (hroom : (fsencode marker).length ≤ maxBytes) :
    ∃ result, Encoded.truncateUtf8 value maxBytes marker = .ok result ∧
      (fsencode result).length ≤ maxBytes ∧
      ((fsencode value).length ≤ maxBytes → result = value) ∧
      (¬(fsencode value).length ≤ maxBytes → ∃ kept, result = kept ++ marker ∧
        LongestFront (maxBytes - (fsencode marker).length) value kept) := by
  by_cases hfits : (fsencode value).length ≤ maxBytes
  · refine ⟨value, ?_, hfits, fun _ => rfl, fun hlong => absurd hfits hlong⟩
    rw [Encoded.truncateUtf8, encodeUtf8_eq hvalue, ok_bind, if_pos hfits]
    rfl
  · obtain ⟨budget, hbudget⟩ : ∃ budget : Nat,
        (maxBytes - (fsencode marker).length).toNat = budget := ⟨_, rfl⟩
    have hkept := longestFront_decodeIgnore hvalue budget
    have hleft : (budget : Int) = maxBytes - (fsencode marker).length := by omega
    refine ⟨decodeIgnore ((fsencode value).take budget) ++ marker, ?_, ?_, ?_, ?_⟩
    · rw [Encoded.truncateUtf8, encodeUtf8_eq hvalue, ok_bind, if_neg hfits, encodeUtf8_eq hmarker]
      rw [← hbudget]
      rfl
    · have hle := hkept.fits
      rw [fsencode_append, List.length_append]
      omega
    · intro hshort
      exact absurd hshort hfits
    · intro _
      rw [← hleft]
      exact ⟨_, rfl, hkept⟩

/-- Of `aé€😀` six bytes: the front of four bytes ends in the middle of `€`. -/
theorem Encoded.truncateUtf8_exact_mixed : ∃ result,
    Encoded.truncateUtf8 (lit "aé€😀") 6 (lit "..") = .ok result ∧
      (fsencode result).length ≤ (6 : Int) ∧
      ∃ kept, result = kept ++ lit ".." ∧ LongestFront 4 (lit "aé€😀") kept := by
  have hroom : ((fsencode (lit "..")).length : Int) ≤ 6 := by decide +kernel
  obtain ⟨result, hresult, hfits, -, hcut⟩ :=
    Encoded.truncateUtf8_exact (isText_lit "aé€😀") (isText_lit "..") hroom
  have hlong : ¬((fsencode (lit "aé€😀")).length : Int) ≤ 6 := by decide +kernel
  obtain ⟨kept, hkept, hlongest⟩ := hcut hlong
  have hbudget : (6 : Int) - (fsencode (lit "..")).length = 4 := by decide +kernel
  rw [hbudget] at hlongest
  exact ⟨result, hresult, hfits, kept, hkept, hlongest⟩

example : Encoded.truncateUtf8 (lit "aé€😀") 6 (lit "..") = .ok (lit "aé..") := by decide +kernel

/-! ## Without the bytes -/

/-- Counting the bytes of the characters comes to the same. -/
theorem truncateUtf8_eq_encoded {value marker : Str} {maxBytes : Nat}
    (hmarker : isText marker = true) :
    truncateUtf8 value maxBytes marker = Encoded.truncateUtf8 value maxBytes marker := by
  cases hvalue : isText value with
  | false =>
    have herror : encodeUtf8 value = .error .unicodeEncodeError := by
      rw [encodeUtf8, hvalue]
      rfl
    rw [Encoded.truncateUtf8, herror, truncateUtf8, utf8Bytes, hvalue]
    rfl
  | true =>
    have hlen := length_fsencode hvalue
    rw [Encoded.truncateUtf8, encodeUtf8_eq hvalue, truncateUtf8, utf8Bytes_eq hvalue, ok_bind,
      ok_bind, hlen]
    by_cases hfits : byteLen value ≤ maxBytes
    · rw [if_pos hfits, if_pos (Int.ofNat_le.mpr hfits)]
    · have hlong : ¬(byteLen value : Int) ≤ maxBytes := fun h => hfits (Int.ofNat_le.mp h)
      have hbudget : ((maxBytes : Int) - (fsencode marker).length).toNat =
          maxBytes - byteLen marker := by
        rw [length_fsencode hmarker]
        omega
      rw [if_neg hfits, if_neg hlong, encodeUtf8_eq hmarker, keptPart, if_neg hfits,
        ← decodeIgnore_take hvalue, ← hbudget]
      rfl

/-- What a cut text has at most, where the marker fits. -/
theorem byteLen_truncateUtf8_le {value marker result : Str} {maxBytes : Nat}
    (hroom : byteLen marker ≤ maxBytes) (h : truncateUtf8 value maxBytes marker = .ok result) :
    byteLen result ≤ maxBytes := by
  simp only [truncateUtf8, bind_ok_iff, utf8Bytes_eq_ok] at h
  obtain ⟨bytes, ⟨-, rfl⟩, h⟩ := h
  split_ifs at h with hfits
  · cases h
    exact hfits
  · cases h
    have hkept := byteLen_takeBytes_le (maxBytes - byteLen marker) value
    rw [keptPart, if_neg hfits, byteLen_append]
    omega

/-- What the child process is handed fits into one argument. -/
theorem byteLen_boundedPrompt_le {prompt bounded : Str} (h : boundedPrompt prompt = .ok bounded) :
    byteLen bounded ≤ maxPromptArgBytes := by
  apply byteLen_truncateUtf8_le _ h
  rw [promptMarker]
  exact (byteLen_lit _).trans_le (by decide)

theorem byteLen_formatGates_le {gates : List GateResult} {gatesText : Str}
    (h : formatGates gates = .ok gatesText) : byteLen gatesText ≤ maxGateSummaryBytes := by
  apply byteLen_truncateUtf8_le _ h
  exact (byteLen_lit _).trans_le (by decide)

end OmarchyYolo
