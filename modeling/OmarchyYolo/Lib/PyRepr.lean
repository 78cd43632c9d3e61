import OmarchyYolo.Lib.PyStr

/-!
# OmarchyYolo.Lib.PyRepr — how Python shows strings

`repr` of a string quotes it, and escapes what cannot be printed: a lone
surrogate never can. Which characters beyond ASCII can is a table of the
interpreter, and a parameter here.

* `reprStr`, `reprList` — `repr` of a string, and of a list of strings;
* `isText_reprList`: whatever is shown, the result can be encoded.
-/

namespace Py

/-- A number in base 16, with leading zeros. -/
def hexDigits (width n : Nat) : Str := ofChars ((Nat.toDigits 16 n).leftpad width '0')

section printable

variable (printable : Char → Bool)

/-- `repr` of one code point, between the quotes. -/
def reprChar (quote : Char) : PyChar → Str
  | .surrogate low bits => lit "\\u" ++ hexDigits 4 (PyChar.surrogate low bits).ord
  | .scalar c =>
    if c = quote ∨ c = '\\' then ofChars ['\\', c]
    else if c = '\t' then lit "\\t"
    else if c = '\n' then lit "\\n"
    else if c = '\r' then lit "\\r"
    else if c.toNat < 0x20 ∨ c.toNat = 0x7f then lit "\\x" ++ hexDigits 2 c.toNat
    else if c.toNat < 0x7f ∨ printable c then ofChars [c]
    else if c.toNat ≤ 0xff then lit "\\x" ++ hexDigits 2 c.toNat
    else if c.toNat ≤ 0xffff then lit "\\u" ++ hexDigits 4 c.toNat
    else lit "\\U" ++ hexDigits 8 c.toNat

/-- The quotes: double ones only around a string that has single quotes and no double ones. -/
def reprQuote (s : Str) : Char :=
  if .scalar '\x27' ∈ s ∧ .scalar '\x22' ∉ s then '\x22' else '\x27'

/-- `repr` of a string. -/
def reprStr (s : Str) : Str :=
  ofChars [reprQuote s] ++ s.flatMap (reprChar printable (reprQuote s)) ++ ofChars [reprQuote s]

/-- `repr` of a list of strings. -/
def reprList (strings : List Str) : Str :=
  lit "[" ++ List.intercalate (lit ", ") (strings.map (reprStr printable)) ++ lit "]"

variable {printable}

theorem isText_flatten {parts : List Str} (h : ∀ part ∈ parts, isText part = true) :
    isText parts.flatten = true := by
  rw [isText, List.all_flatten]
  exact List.all_eq_true.mpr h

theorem isText_reprChar (quote : Char) (c : PyChar) :
    isText (reprChar printable quote c) = true := by
  have hdigits : ∀ width n, isText (hexDigits width n) = true := fun _ _ => isText_ofChars _
  cases c with
  | surrogate low bits => rw [reprChar, isText_append, isText_lit, hdigits, Bool.and_self]
  | scalar c =>
    rw [reprChar]
    split_ifs <;> simp only [isText_append, isText_lit, isText_ofChars, hdigits, Bool.and_self]

theorem isText_reprStr (s : Str) : isText (reprStr printable s) = true := by
  have hbody : isText (s.flatMap (reprChar printable (reprQuote s))) = true := by
    rw [List.flatMap_def]
    refine isText_flatten fun part hpart => ?_
    obtain ⟨c, -, rfl⟩ := List.mem_map.mp hpart
    exact isText_reprChar _ c
  rw [reprStr, isText_append, isText_append, isText_ofChars, hbody, Bool.and_self, Bool.and_self]

/-- Strings with a separator between them are a text when all are. -/
theorem isText_intercalate {separator : Str} (hseparator : isText separator = true)
    {parts : List Str} :
    isText (List.intercalate separator parts) = true ↔ ∀ part ∈ parts, isText part = true := by
  induction parts with
  | nil => exact ⟨fun _ => nofun, fun _ => rfl⟩
  | cons part parts ih =>
    cases parts with
    | nil => simp [List.intercalate]
    | cons second parts =>
      rw [List.intercalate_cons_cons, isText_append, isText_append, hseparator,
        List.forall_mem_cons, Bool.and_true, Bool.and_eq_true, ih]

/-- What is shown can be encoded, whatever it is. -/
theorem isText_reprList (strings : List Str) : isText (reprList printable strings) = true := by
  have hparts : isText (List.intercalate (lit ", ") (strings.map (reprStr printable))) = true := by
    refine (isText_intercalate (isText_lit _)).mpr fun part hpart => ?_
    obtain ⟨s, -, rfl⟩ := List.mem_map.mp hpart
    exact isText_reprStr s
  rw [reprList, isText_append, isText_append, isText_lit, isText_lit, hparts, Bool.and_self,
    Bool.and_self]

end printable

end Py
