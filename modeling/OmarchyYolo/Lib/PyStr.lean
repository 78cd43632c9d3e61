import Mathlib.Algebra.GroupWithZero.Nat
import Mathlib.Algebra.Ring.Int.Defs
import Mathlib.Data.List.Basic
import Mathlib.Data.List.Lex

/-!
# OmarchyYolo.Lib.PyStr — Python strings

A Python `str` is a sequence of code points, and unlike a Unicode text it may
hold *lone surrogates*: `json.loads` produces them from an unpaired `\uD800`
escape and `os.fsdecode` from undecodable bytes. `PyChar` keeps the two kinds
apart by constructor, so a code point outside both ranges cannot be built.

* `Str` — strings, `lit` — string constants;
* `strip`, `lower` — the two normalisations;
* `isText` — no lone surrogates: what `str.encode("utf-8")` accepts; `byteLen` —
  the number of bytes it returns; `takeBytes` — the longest prefix of a number
  of bytes.
-/

namespace Py

/-- One code point of a `str`: a Unicode scalar value, or a surrogate code
unit given by its half (`low`) and its ten payload bits. -/
inductive PyChar where
  | scalar (c : Char)
  | surrogate (low : Bool) (bits : Fin 1024)
deriving DecidableEq, Repr

-- the bits of a surrogate, and hexadecimal digits, can be taken from any number
instance neZero_surrogates : NeZero 1024 := ⟨by decide⟩

instance neZero_hexDigits : NeZero 16 := ⟨by decide⟩

/-- A Python string. -/
abbrev Str := List PyChar

instance : LawfulBEq Str := inferInstance

/-- A string constant. -/
def lit (s : String) : Str := s.toList.map PyChar.scalar

/-- Unicode texts as Python strings. -/
def ofChars (cs : List Char) : Str := cs.map PyChar.scalar

/-- `str.isspace` of one code point. -/
def isSpace : PyChar → Bool
  | .surrogate _ _ => false
  | .scalar c =>
    (0x09 ≤ c.toNat && c.toNat ≤ 0x0d) || (0x1c ≤ c.toNat && c.toNat ≤ 0x20) ||
    c.toNat == 0x85 || c.toNat == 0xa0 || c.toNat == 0x1680 ||
    (0x2000 ≤ c.toNat && c.toNat ≤ 0x200a) || c.toNat == 0x2028 || c.toNat == 0x2029 ||
    c.toNat == 0x202f || c.toNat == 0x205f || c.toNat == 0x3000

/-- `str.lstrip()`. -/
def lstrip (s : Str) : Str := s.dropWhile isSpace

/-- `str.strip()`. -/
def strip (s : Str) : Str := ((lstrip s).reverse.dropWhile isSpace).reverse

/-- `str.lower()` of one code point, on ASCII letters; no other code point lower-cases
to an ASCII letter except U+212A (to `k`) and U+0130 (to `i` and a combining dot). -/
def lowerChar : PyChar → Str
  | .surrogate low bits => [.surrogate low bits]
  | .scalar c =>
    if c.toNat = 0x212a then [.scalar 'k']
    else if c.toNat = 0x130 then [.scalar 'i', .scalar (Char.ofNat 0x307)]
    else [.scalar c.toLower]

/-- `str.lower()`. -/
def lower (s : Str) : Str := s.flatMap lowerChar

/-! ## Order -/

/-- `ord`. -/
def PyChar.ord : PyChar → Nat
  | .scalar c => c.toNat
  | .surrogate low bits => (if low then 0xdc00 else 0xd800) + bits

/-- `s <= t`: lexicographic, by code point. -/
def strLe : Str → Str → Bool
  | [], _ => true
  | _ :: _, [] => false
  | c :: s, d :: t => c.ord < d.ord || (c.ord == d.ord && strLe s t)

/-- `sorted(strings)`. -/
def sorted (strings : List Str) : List Str := strings.mergeSort strLe

/-! ## Encoding -/

def isScalar : PyChar → Bool
  | .scalar _ => true
  | .surrogate _ _ => false

/-- No lone surrogate: otherwise `str.encode("utf-8")` raises `UnicodeEncodeError`. -/
def isText (s : Str) : Bool := s.all isScalar

@[simp] theorem isText_nil : isText [] = true := rfl

@[simp] theorem isText_cons (c : PyChar) (s : Str) : isText (c :: s) = (isScalar c && isText s) :=
  rfl

@[simp] theorem isText_append (s t : Str) : isText (s ++ t) = (isText s && isText t) := by
  simp [isText]

@[simp] theorem isText_ofChars (cs : List Char) : isText (ofChars cs) = true := by
  simp [isText, ofChars, isScalar]

@[simp] theorem isText_lit (s : String) : isText (lit s) = true := isText_ofChars s.toList

theorem isText_replicate {c : PyChar} (hc : isScalar c = true) (n : Nat) :
    isText (List.replicate n c) = true := by
  induction n with
  | zero => rfl
  | succ n ih => rw [List.replicate_succ, isText_cons, hc, ih, Bool.and_self]

/-- A string without lone surrogates. -/
@[ext] structure Text where
  val : Str
  encodes : isText val = true
deriving DecidableEq, Repr

/-- A string constant. -/
def Text.lit (s : String) : Text := ⟨Py.lit s, isText_lit s⟩

/-- Number of bytes of one character; a surrogate has no encoding, and counts as
the three bytes its code point would take. -/
def byteSize : PyChar → Nat
  | .scalar c => c.utf8Size
  | .surrogate _ _ => 3

/-- Number of bytes of the UTF-8 encoding. -/
def byteLen (s : Str) : Nat := (s.map byteSize).sum

@[simp] theorem byteLen_nil : byteLen [] = 0 := rfl

@[simp] theorem byteLen_cons (c : PyChar) (s : Str) :
    byteLen (c :: s) = byteSize c + byteLen s := by
  simp [byteLen]

@[simp] theorem byteLen_append (s t : Str) : byteLen (s ++ t) = byteLen s + byteLen t := by
  simp [byteLen]

/-- Counting the bytes of a constant on the characters of its literal, which is
cheaper to evaluate than `String.toList`. -/
theorem byteLen_lit (cs : List Char) :
    byteLen (lit (String.ofList cs)) = (cs.map Char.utf8Size).sum := by
  rw [lit, String.toList_ofList]
  simp [byteLen, byteSize, Function.comp_def]

/-- A character has a byte at least. -/
theorem length_le_byteLen (s : Str) : s.length ≤ byteLen s := by
  induction s with
  | nil => exact Nat.le_refl 0
  | cons c s ih =>
    have hc : 0 < byteSize c := by
      cases c with
      | scalar c => exact Char.utf8Size_pos c
      | surrogate low bits => exact Nat.succ_pos 2
    rw [List.length_cons, byteLen_cons]
    omega

@[simp] theorem byteLen_replicate (n : Nat) (c : PyChar) :
    byteLen (List.replicate n c) = n * byteSize c := by
  simp [byteLen]

/-- The longest prefix of at most `budget` bytes: what decoding the first
`budget` bytes with `errors="ignore"` leaves of a text. -/
def takeBytes : Nat → Str → Str
  | _, [] => []
  | budget, c :: s => if byteSize c ≤ budget then c :: takeBytes (budget - byteSize c) s else []

theorem byteLen_takeBytes_le (budget : Nat) (s : Str) : byteLen (takeBytes budget s) ≤ budget := by
  induction s generalizing budget with
  | nil => exact Nat.zero_le _
  | cons c s ih =>
    rw [takeBytes]
    split_ifs with hc
    · have := ih (budget - byteSize c)
      rw [byteLen_cons]
      omega
    · exact Nat.zero_le _

theorem takeBytes_front (budget : Nat) (s : Str) : takeBytes budget s <+: s := by
  induction s generalizing budget with
  | nil => exact List.prefix_rfl
  | cons c s ih =>
    rw [takeBytes]
    split_ifs with hc
    · exact List.cons_prefix_cons.mpr ⟨rfl, ih _⟩
    · exact List.nil_prefix

/-- A front is among the first bytes when it has no more than these. -/
theorem prefix_takeBytes_iff {budget : Nat} {part after : Str} :
    part <+: takeBytes budget (part ++ after) ↔ byteLen part ≤ budget := by
  induction part generalizing budget with
  | nil => exact ⟨fun _ => Nat.zero_le _, fun _ => List.nil_prefix⟩
  | cons c part ih =>
    rw [List.cons_append, takeBytes, byteLen_cons]
    split_ifs with hc
    · rw [List.cons_prefix_cons, ih]
      constructor
      · rintro ⟨-, hle⟩
        omega
      · intro hle
        exact ⟨rfl, by omega⟩
    · constructor
      · intro hprefix
        cases List.prefix_nil.mp hprefix
      · intro hle
        omega

end Py
