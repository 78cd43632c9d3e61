import OmarchyYolo.Lib.FsDecode

/-!
# OmarchyYolo.Lib.Utf8Decode — bytes that need not be a text

`bytes.decode(errors="replace")` puts U+FFFD in the place of every malformed
sequence: of its first byte and of those after it that could have belonged to a
character. With `errors="ignore"` the sequence is left out.

* `decodeReplace`, `decodeIgnore` — the conversions;
* `decodeIgnore_take`: of an encoded text that is cut anywhere, the characters
  before the cut are found again, and nothing of the one that is cut.
-/

namespace Py

def isContinuation (byte : UInt8) : Bool := 0x80 ≤ byte && byte ≤ 0xbf

/-- The second bytes after a first byte: neither overlong, nor a surrogate, nor too large. -/
def isSecond (first second : UInt8) : Bool :=
  if first = 0xe0 then 0xa0 ≤ second && second ≤ 0xbf
  else if first = 0xed then 0x80 ≤ second && second ≤ 0x9f
  else if first = 0xf0 then 0x90 ≤ second && second ≤ 0xbf
  else if first = 0xf4 then 0x80 ≤ second && second ≤ 0x8f
  else isContinuation second

/-- How many bytes after the first one of a malformed sequence are replaced with it. -/
def malformedTail : List UInt8 → Nat
  | first :: second :: rest =>
    if 0xe0 ≤ first ∧ first ≤ 0xf4 ∧ isSecond first second then
      match rest with
      | third :: _ => if 0xf0 ≤ first ∧ isContinuation third then 2 else 1
      | [] => 1
    else 0
  | _ => 0

/-- `bytes.decode(errors="replace")`, where so many bytes belong to the character before. -/
def decodeReplaceFrom : Nat → List UInt8 → Str
  | _, [] => []
  | skip + 1, _ :: bytes => decodeReplaceFrom skip bytes
  | 0, byte :: bytes =>
    match (byte :: bytes).toByteArray.utf8DecodeChar? 0 with
    | some c => .scalar c :: decodeReplaceFrom (c.utf8Size - 1) bytes
    | none =>
      .scalar (Char.ofNat 0xfffd) :: decodeReplaceFrom (malformedTail (byte :: bytes)) bytes

/-- `bytes.decode(errors="replace")`. -/
def decodeReplace (bytes : List UInt8) : Str := decodeReplaceFrom 0 bytes

/-- A character is read at its first byte, whatever follows its last one. -/
theorem exists_head_utf8EncodeChar (c : Char) (bytes : List UInt8) :
    ∃ byte tail, String.utf8EncodeChar c = byte :: tail ∧ c.utf8Size - 1 = tail.length ∧
      (byte :: (tail ++ bytes)).toByteArray.utf8DecodeChar? 0 = some c := by
  have hdecode : (String.utf8EncodeChar c ++ bytes).toByteArray.utf8DecodeChar? 0 = some c := by
    rw [List.toByteArray_append]
    exact ByteArray.utf8DecodeChar?_utf8EncodeChar_append
  have hlen : (String.utf8EncodeChar c).length = c.utf8Size := String.length_utf8EncodeChar c
  cases hencode : String.utf8EncodeChar c with
  | nil => exact absurd hencode String.utf8EncodeChar_ne_nil
  | cons byte tail =>
    rw [hencode, List.cons_append] at hdecode
    rw [hencode, List.length_cons] at hlen
    exact ⟨byte, tail, rfl, by omega, hdecode⟩

/-! ## Ignoring what is malformed -/

/-- `bytes.decode(errors="ignore")`, where so many bytes belong to the character before. -/
def decodeIgnoreFrom : Nat → List UInt8 → Str
  | _, [] => []
  | skip + 1, _ :: bytes => decodeIgnoreFrom skip bytes
  | 0, byte :: bytes =>
    match (byte :: bytes).toByteArray.utf8DecodeChar? 0 with
    | some c => .scalar c :: decodeIgnoreFrom (c.utf8Size - 1) bytes
    | none => decodeIgnoreFrom (malformedTail (byte :: bytes)) bytes

/-- `bytes.decode(errors="ignore")`. -/
def decodeIgnore (bytes : List UInt8) : Str := decodeIgnoreFrom 0 bytes

theorem decodeIgnoreFrom_append (front bytes : List UInt8) :
    decodeIgnoreFrom front.length (front ++ bytes) = decodeIgnoreFrom 0 bytes := by
  induction front with
  | nil => rfl
  | cons byte front ih => exact ih

theorem decodeIgnore_append (c : Char) (bytes : List UInt8) :
    decodeIgnore (String.utf8EncodeChar c ++ bytes) = .scalar c :: decodeIgnore bytes := by
  obtain ⟨byte, tail, hencode, hlen, hdecode⟩ := exists_head_utf8EncodeChar c bytes
  have hrest : decodeIgnoreFrom (c.utf8Size - 1) (tail ++ bytes) = decodeIgnore bytes := by
    rw [hlen]
    exact decodeIgnoreFrom_append tail bytes
  rw [hencode, List.cons_append, decodeIgnore, decodeIgnoreFrom, hdecode]
  exact congrArg (PyChar.scalar c :: ·) hrest

/-- Bytes at none of which a character begins are left out. -/
theorem decodeIgnoreFrom_eq_nil {bytes : List UInt8} (skip : Nat)
    (h : ∀ back, back ≠ [] → back <:+ bytes → back.toByteArray.utf8DecodeChar? 0 = none) :
    decodeIgnoreFrom skip bytes = [] := by
  induction bytes generalizing skip with
  | nil => rfl
  | cons byte bytes ih =>
    have hrest (skip : Nat) : decodeIgnoreFrom skip bytes = [] := by
      apply ih skip
      intro back hback hsuffix
      exact h back hback (hsuffix.trans (List.suffix_cons byte bytes))
    cases skip with
    | succ skip => exact hrest skip
    | zero =>
      rw [decodeIgnoreFrom, h _ (List.cons_ne_nil byte bytes) List.suffix_rfl]
      exact hrest _

/-- No character begins in a part of one that does not contain its first byte. -/
theorem utf8DecodeChar?_later {c : Char} {front back rest : List UInt8}
    (h : String.utf8EncodeChar c = front ++ back ++ rest) (hfront : front ≠ []) :
    back.toByteArray.utf8DecodeChar? 0 = none := by
  by_contra hsome
  have hfirst := ByteArray.isUTF8FirstByte_of_isSome_utf8DecodeChar?
    (Option.isSome_iff_ne_none.mpr hsome)
  cases back with
  | nil => exact hsome rfl
  | cons byte back =>
    rw [List.getElem_toByteArray, List.getElem_cons_zero] at hfirst
    have hlt : front.length < (String.utf8EncodeChar c).length := by
      rw [h, List.length_append, List.length_append, List.length_cons]
      omega
    have hget : (String.utf8EncodeChar c)[front.length] = byte := by
      simp [h]
    have hiff : (String.utf8EncodeChar c)[front.length].IsUTF8FirstByte ↔ front.length = 0 :=
      UInt8.isUTF8FirstByte_getElem_utf8EncodeChar
    rw [hget] at hiff
    exact hfront (List.eq_nil_of_length_eq_zero (hiff.mp hfirst))

/-- A character is not found in a part of its bytes. -/
theorem utf8DecodeChar?_part {c : Char} {part rest : List UInt8}
    (h : String.utf8EncodeChar c = part ++ rest) (hrest : rest ≠ []) :
    part.toByteArray.utf8DecodeChar? 0 = none := by
  by_contra hsome
  obtain ⟨d, hd⟩ := Option.ne_none_iff_exists'.mp hsome
  have hwhole : (String.utf8EncodeChar c).toByteArray.utf8DecodeChar? 0 = some d := by
    rw [h, List.toByteArray_append]
    exact ByteArray.utf8DecodeChar?_append_eq_some hd rest.toByteArray
  have hsame : c = d := by
    have hdecode := ByteArray.utf8DecodeChar?_utf8EncodeChar_append (b := ByteArray.empty) (c := c)
    rw [ByteArray.append_empty, hwhole] at hdecode
    exact (Option.some.inj hdecode).symm
  subst hsame
  -- the part has all the bytes of the character
  have hsize := ByteArray.le_size_of_utf8DecodeChar?_eq_some hd
  have hlen := String.length_utf8EncodeChar c
  rw [h, List.length_append] at hlen
  rw [List.size_toByteArray] at hsize
  have hpos := List.length_pos_of_ne_nil hrest
  omega

/-- Of a character that is cut nothing is left. -/
theorem decodeIgnore_cut (c : Char) {n : Nat} (hn : n < c.utf8Size) :
    decodeIgnore ((String.utf8EncodeChar c).take n) = [] := by
  have hrest : (String.utf8EncodeChar c).drop n ≠ [] := by
    have hlen := String.length_utf8EncodeChar c
    rw [Ne, List.drop_eq_nil_iff]
    omega
  have hwhole := List.take_append_drop n (String.utf8EncodeChar c)
  apply decodeIgnoreFrom_eq_nil
  rintro back hback ⟨front, hfront⟩
  rw [← hfront] at hwhole
  by_cases hnil : front = []
  · rw [hnil, List.nil_append] at hwhole
    exact utf8DecodeChar?_part hwhole.symm hrest
  · exact utf8DecodeChar?_later hwhole.symm hnil

/-- The number of bytes of a text. -/
theorem length_fsencode {s : Str} (h : isText s = true) : (fsencode s).length = byteLen s := by
  induction s with
  | nil => rfl
  | cons c s ih =>
    rw [isText_cons, Bool.and_eq_true] at h
    cases c with
    | surrogate low bits => cases h.1
    | scalar c =>
      rw [fsencode, List.flatMap_cons, List.length_append, byteLen_cons]
      exact congrArg₂ (· + ·) (String.length_utf8EncodeChar c) (ih h.2)

/-- A text whose bytes are cut anywhere, and decoded again. -/
theorem decodeIgnore_take {s : Str} (h : isText s = true) (n : Nat) :
    decodeIgnore ((fsencode s).take n) = takeBytes n s := by
  induction s generalizing n with
  | nil =>
    rw [fsencode, List.flatMap_nil, List.take_nil]
    rfl
  | cons c s ih =>
    rw [isText_cons, Bool.and_eq_true] at h
    cases c with
    | surrogate low bits => cases h.1
    | scalar c =>
      have hlen : (String.utf8EncodeChar c).length = c.utf8Size := String.length_utf8EncodeChar c
      have hcons : fsencode (.scalar c :: s) = String.utf8EncodeChar c ++ fsencode s := by
        rw [fsencode, List.flatMap_cons]
        rfl
      rw [hcons, takeBytes, byteSize]
      split_ifs with hfits
      · -- the cut is behind the character
        rw [List.take_append, List.take_of_length_le (by omega), decodeIgnore_append, hlen,
          ih h.2]
      · rw [List.take_append_of_le_length (by omega)]
        exact decodeIgnore_cut c (by omega)

end Py
