import OmarchyYolo.Lib.Json

/-!
# OmarchyYolo.Lib.JsonNumbers — numbers read back

Scanning a written integer or float (`scanAtom_dumpsInt`, `scanAtom_spell`). A
number is read greedily, so both hold only before a text that cannot continue
it (`NumEnd`). `WholeFloat` is a codec of whole numbers as floats.
-/

namespace PyJson

open Py

variable {F : Type}

/-- A character that may continue a number. -/
def isNumChar : PyChar → Bool
  | .surrogate _ _ => false
  | .scalar c => c.isDigit || c == '.' || c == 'e' || c == 'E'

/-- The text does not continue a number. -/
def NumEnd (rest : Str) : Prop := ∀ c ∈ rest.head?, isNumChar c = false

/-- The text does not start with a digit. -/
def DigitEnd (rest : Str) : Prop := ∀ c, rest.head? = some (.scalar c) → c.isDigit = false

theorem NumEnd.digitEnd {rest : Str} (h : NumEnd rest) : DigitEnd rest := by
  intro c hc
  have := h _ hc
  simp only [isNumChar, Bool.or_eq_false_iff] at this
  exact this.1.1.1

theorem numEnd_cons {c : PyChar} (h : isNumChar c = false) (rest : Str) : NumEnd (c :: rest) := by
  intro d hd
  cases hd
  exact h

/-! ## Digits -/

theorem spanDigits_append {ds : List Char} (hds : ∀ c ∈ ds, c.isDigit = true) {rest : Str}
    (hrest : DigitEnd rest) : spanDigits (ofChars ds ++ rest) = (ds, rest) := by
  induction ds with
  | nil =>
    show spanDigits rest = ([], rest)
    rcases rest with _ | ⟨c | _, rest⟩
    · rfl
    · rw [spanDigits, hrest c rfl]
      rfl
    · rfl
  | cons d ds ih =>
    show spanDigits (.scalar d :: (ofChars ds ++ rest)) = _
    rw [spanDigits, if_pos (hds d (by simp)), ih fun c hc => hds c (by simp [hc])]

theorem scanWhole_append {ds : List Char} (hds : IsWhole ds) {rest : Str}
    (hrest : DigitEnd rest) : scanWhole (ofChars ds ++ rest) = some (ds, rest) := by
  rcases hds with rfl | ⟨d, ds, rfl, hd, hall⟩
  · rfl
  · show scanWhole (.scalar d :: (ofChars ds ++ rest)) = _
    rw [scanWhole, if_neg hd, if_pos (hall d (by simp)),
      spanDigits_append (fun c hc => hall c (by simp [hc])) hrest]

theorem digitChar_ne_zero : ∀ n < 10, 0 < n → Nat.digitChar n ≠ '0' := by
  decide

/-- The digits of a natural number are an integer part. -/
theorem isWhole_toDigits (n : Nat) : IsWhole (Nat.toDigits 10 n) := by
  rcases Nat.eq_zero_or_pos n with rfl | hpos
  · exact Or.inl (Nat.toDigits_zero 10)
  · have hdigits : ∀ c ∈ Nat.toDigits 10 n, c.isDigit = true := fun c hc =>
      Nat.isDigit_of_mem_toDigits (by decide) (by decide) hc
    right
    -- a leading zero would leave the number below its own power of ten
    induction n using Nat.strongRecOn with
    | _ n ih =>
      rcases Nat.lt_or_ge n 10 with hlt | hge
      · exact ⟨n.digitChar, [], Nat.toDigits_of_lt_base hlt, digitChar_ne_zero n hlt hpos,
          hdigits⟩
      · have hq : 0 < n / 10 := Nat.div_pos hge (by decide)
        obtain ⟨d, ds, hd, hne, hall⟩ := ih (n / 10) (Nat.div_lt_self hpos (by decide)) hq
          (fun c hc => Nat.isDigit_of_mem_toDigits (by decide) (by decide) hc)
        refine ⟨d, ds ++ [(n % 10).digitChar], ?_, hne, hdigits⟩
        rw [Nat.toDigits_of_base_le (by decide) hge, hd]
        simp

/-! ## Fraction and exponent -/

theorem scanFrac_append {ds : List Char} (hds : ∀ c ∈ ds, c.isDigit = true) (hne : ds ≠ [])
    {rest : Str} (hrest : DigitEnd rest) :
    scanFrac (.scalar '.' :: (ofChars ds ++ rest)) = (ds, rest) := by
  rw [scanFrac, spanDigits_append hds hrest]
  cases ds with
  | nil => exact absurd rfl hne
  | cons d ds => rfl

theorem scanFrac_none {rest : Str} (h : ∀ r, rest ≠ .scalar '.' :: r) :
    scanFrac rest = ([], rest) := by
  unfold scanFrac
  split
  · exact absurd rfl (h _)
  · rfl

theorem scanExp_none {rest : Str} (h : NumEnd rest) : scanExp rest = ([], rest) := by
  rcases rest with _ | ⟨c | _, rest⟩
  · rfl
  · have := h _ rfl
    simp only [isNumChar, Bool.or_eq_false_iff, beq_eq_false_iff_ne] at this
    rw [scanExp, if_neg (by tauto)]
  · rfl

theorem scanSign_append {sign : List Char} (hs : sign = [] ∨ sign = ['+'] ∨ sign = ['-'])
    {d : Char} {ds : List Char} (hd : d.isDigit = true) (rest : Str) :
    scanSign (ofChars (sign ++ d :: ds) ++ rest) = (sign, ofChars (d :: ds) ++ rest) := by
  rcases hs with rfl | rfl | rfl
  · show scanSign (.scalar d :: (ofChars ds ++ rest)) = _
    rw [scanSign, if_neg]
    · rfl
    · rintro (rfl | rfl) <;> exact absurd hd (by decide)
  · rfl
  · rfl

theorem scanExp_append {t : List Char} (ht : IsExponent t) {rest : Str} (hrest : DigitEnd rest) :
    scanExp (ofChars t ++ rest) = (t, rest) := by
  obtain ⟨e, sign, ds, rfl, he, hs, hne, hds⟩ := ht
  cases ds with
  | nil => exact absurd rfl hne
  | cons d ds =>
    show scanExp (.scalar e :: (ofChars (sign ++ d :: ds) ++ rest)) = _
    simp only [scanExp, if_pos he, scanSign_append hs (hds d (by simp)),
      spanDigits_append hds hrest]

/-- An exponent starts with its letter. -/
theorem digitEnd_exponent {t : List Char} (ht : t = [] ∨ IsExponent t) {rest : Str}
    (hrest : NumEnd rest) :
    DigitEnd (ofChars t ++ rest) ∧ ∀ r, ofChars t ++ rest ≠ .scalar '.' :: r := by
  rcases ht with rfl | ⟨e, sign, ds, rfl, he, -⟩
  · refine ⟨hrest.digitEnd, ?_⟩
    rintro r (rfl : rest = _)
    exact absurd (hrest _ rfl) (by decide)
  · constructor
    · rintro c ⟨⟩
      rcases he with rfl | rfl <;> rfl
    · rintro r h
      cases h
      rcases he with he | he <;> exact absurd he (by decide)

/-! ## Numbers -/

variable [PyFloat F]

/-- A literal behind its sign. -/
theorem scanUnsigned_literal (neg : Bool) {l : FloatLit} (hw : IsWhole l.whole)
    (hf : ∀ c ∈ l.frac, c.isDigit = true) (he : l.exp = [] ∨ IsExponent l.exp) {rest : Str}
    (hrest : NumEnd rest) :
    scanUnsigned (F := F) neg (ofChars l.whole ++
        ((if l.frac = [] then [] else .scalar '.' :: ofChars l.frac) ++ (ofChars l.exp ++ rest))) =
      some (numberValue neg l.whole l.frac l.exp, rest) := by
  obtain ⟨hdig, hdot⟩ := digitEnd_exponent he hrest
  have hexp : scanExp (ofChars l.exp ++ rest) = (l.exp, rest) := by
    rcases he with h | h
    · rw [h]
      exact scanExp_none hrest
    · exact scanExp_append h hrest.digitEnd
  by_cases hfe : l.frac = []
  · rw [if_pos hfe, List.nil_append, scanUnsigned, scanWhole_append hw hdig, Option.map_some,
      scanFrac_none hdot, hexp, hfe]
  · rw [if_neg hfe, List.cons_append, scanUnsigned, scanWhole_append hw, Option.map_some,
      scanFrac_append hf hfe hdig, hexp]
    rintro c ⟨⟩
    rfl

/-- An integer part starts with a digit. -/
theorem IsWhole.head {ds : List Char} (h : IsWhole ds) :
    ∃ d ds', ds = d :: ds' ∧ d.isDigit = true := by
  rcases h with rfl | ⟨d, ds', rfl, -, hall⟩
  · exact ⟨'0', [], rfl, rfl⟩
  · exact ⟨d, ds', rfl, hall d (by simp)⟩

theorem afterWord_head_ne {w d : Char} (h : w ≠ d) (ws : List Char) (rest : Str) :
    afterWord (w :: ws) (.scalar d :: rest) = none := by
  rw [afterWord, if_neg h]

/-- What starts with a digit is a number, not one of the words. -/
theorem scanAtom_digit {d : Char} (hd : d.isDigit = true) (rest : Str) :
    scanAtom (F := F) (.scalar d :: rest) = scanUnsigned false (.scalar d :: rest) := by
  have hne : ∀ w : Char, w.isDigit = false → w ≠ d := by
    rintro w hw rfl
    rw [hd] at hw
    cases hw
  have hminus : d ≠ '-' := by
    rintro rfl
    cases hd
  simp only [scanAtom, afterWord_head_ne (hne 'n' rfl), afterWord_head_ne (hne 't' rfl),
    afterWord_head_ne (hne 'f' rfl), afterWord_head_ne (hne 'N' rfl),
    afterWord_head_ne (hne 'I' rfl), afterWord_head_ne (hne '-' rfl), scanNumber]
  split
  · rename_i h
    cases h
    exact absurd rfl hminus
  · rfl

/-- So is what starts with a minus sign and a digit. -/
theorem scanAtom_minus {d : Char} (hd : d.isDigit = true) (rest : Str) :
    scanAtom (F := F) (.scalar '-' :: .scalar d :: rest) =
      scanUnsigned true (.scalar d :: rest) := by
  have hI : 'I' ≠ d := by
    rintro rfl
    cases hd
  have hword : ∀ ws, afterWord ('-' :: 'I' :: ws) (.scalar '-' :: .scalar d :: rest) = none :=
    fun ws => afterWord_head_ne hI ws rest
  simp only [scanAtom, hword]
  rfl

/-- A signed literal is read as its value. -/
theorem scanAtom_literal {l : FloatLit} (hw : IsWhole l.whole)
    (hf : ∀ c ∈ l.frac, c.isDigit = true) (he : l.exp = [] ∨ IsExponent l.exp) {rest : Str}
    (hrest : NumEnd rest) :
    scanAtom (F := F) (ofChars l.text ++ rest) =
      some (numberValue l.neg l.whole l.frac l.exp, rest) := by
  obtain ⟨d, ds, hds, hd⟩ := hw.head
  have hscan := fun neg => scanUnsigned_literal (F := F) neg hw hf he hrest
  have htext : ofChars l.text ++ rest =
      ofChars (if l.neg then ['-'] else []) ++ (ofChars l.whole ++
        ((if l.frac = [] then [] else .scalar '.' :: ofChars l.frac) ++
          (ofChars l.exp ++ rest))) := by
    by_cases hfe : l.frac = [] <;> simp [FloatLit.text, ofChars, hfe]
  rw [htext]
  cases hneg : l.neg with
  | false =>
    rw [← hscan false, hds]
    exact scanAtom_digit hd _
  | true =>
    rw [← hscan true, hds]
    exact scanAtom_minus hd _

/-- A written integer is read back. -/
theorem scanAtom_dumpsInt (n : Int) {rest : Str} (hrest : NumEnd rest) :
    scanAtom (F := F) (dumpsInt n ++ rest) = some (.int n, rest) := by
  have hscan := fun (neg : Bool) (k : Nat) =>
    scanAtom_literal (F := F) (l := ⟨neg, Nat.toDigits 10 k, [], []⟩) (isWhole_toDigits k)
      (by simp) (Or.inl rfl) hrest
  cases n with
  | ofNat n =>
    have := hscan false n
    simpa [FloatLit.text, numberValue, dumpsInt] using this
  | negSucc n =>
    have := hscan true (n + 1)
    simpa [FloatLit.text, numberValue, dumpsInt, ofChars, Int.negSucc_eq] using this

/-- A written float is read back. -/
theorem scanAtom_spell (x : F) {rest : Str} (hrest : NumEnd rest) :
    scanAtom (ofChars (PyFloat.spell x) ++ rest) = some (.float x, rest) := by
  rcases PyFloat.spelled x with ⟨rfl, hx⟩ | ⟨rfl, hx⟩ | ⟨rfl, hx⟩ | ⟨l, hl, hx, rfl⟩
  · rw [hx]
    rfl
  · rw [hx]
    rfl
  · rw [hx]
    rfl
  · rw [hx, scanAtom_literal hl.whole hl.frac hl.exp hrest, numberValue, if_neg]
    rintro ⟨hf, he⟩
    rcases hl.float with h | h
    · exact h hf
    · exact h he

/-! ## Whole floats -/

/-- The floats that are natural numbers, and those no literal spells. -/
inductive WholeFloat where
  | nan
  | inf
  | negInf
  | whole (n : Nat)
deriving DecidableEq, Repr

instance : PyFloat WholeFloat where
  nan := .nan
  inf := .inf
  negInf := .negInf
  spell
    | .nan => "NaN".toList
    | .inf => "Infinity".toList
    | .negInf => "-Infinity".toList
    | .whole n => Nat.toDigits 10 n ++ ['.', '0']
  float l := .whole (Nat.ofDigitChars 10 l.whole 0)
  spelled x := by
    cases x with
    | nan => exact .inl ⟨rfl, rfl⟩
    | inf => exact .inr (.inl ⟨rfl, rfl⟩)
    | negInf => exact .inr (.inr (.inl ⟨rfl, rfl⟩))
    | whole n =>
      refine .inr (.inr (.inr ⟨⟨false, Nat.toDigits 10 n, ['0'], []⟩, ?_, ?_, ?_⟩))
      · have hfrac : ∀ c ∈ ['0'], c.isDigit = true := List.forall_mem_singleton.mpr (by decide)
        exact ⟨isWhole_toDigits n, hfrac, .inl rfl, .inl (List.cons_ne_nil _ _)⟩
      · change Nat.toDigits 10 n ++ ['.', '0'] = [] ++ Nat.toDigits 10 n ++ ['.', '0'] ++ []
        rw [List.nil_append, List.append_nil]
      · rw [Nat.ofDigitChars_toDigits (by decide) (by decide)]

end PyJson
