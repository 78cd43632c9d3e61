import OmarchyYolo.Sharding

/-!
# OmarchyYolo.TerminalText — text that is shown on a terminal

`terminal_safe` removes the escape sequences of a text and its control characters,
and makes one line of it where that is asked. The control characters from U+0080
on are no control characters to it.

* `stripAnsi`, `terminalSafe` — the function;
* `Neutralises` — what is asked of its result; `neutralises_iff`: when it is so;
* `terminalSafe_stable` and what else holds of every text.
-/

namespace OmarchyYolo

open Py

/-! ## Escape sequences -/

/-- The characters that one alternative of `_ANSI_RE` takes after the escape character. -/
def ansiLength : Str → Option Nat
  | .scalar '[' :: text =>
    let parameters := text.takeWhile fun c => 0x30 ≤ c.ord && c.ord ≤ 0x3f
    let text := text.drop parameters.length
    let intermediates := text.takeWhile fun c => 0x20 ≤ c.ord && c.ord ≤ 0x2f
    match text.drop intermediates.length with
    | final :: _ =>
      if 0x40 ≤ final.ord ∧ final.ord ≤ 0x7e then
        some (parameters.length + intermediates.length + 2)
      else none
    | [] => none
  | .scalar ']' :: text =>
    let body := text.takeWhile fun c => c ≠ .scalar '\x07' ∧ c ≠ .scalar '\x1b'
    match text.drop body.length with
    | .scalar '\x07' :: _ => some (body.length + 2)
    | .scalar '\x1b' :: .scalar '\\' :: _ => some (body.length + 3)
    | _ => none
  | _ => none

/-- `_ANSI_RE.sub("", text)`, where so many characters belong to the match before. -/
def stripAnsiFrom : Nat → Str → Str
  | _, [] => []
  | skip + 1, _ :: text => stripAnsiFrom skip text
  | 0, c :: text =>
    if c = .scalar '\x1b' then
      match ansiLength text with
      | some length => stripAnsiFrom length text
      | none => c :: stripAnsiFrom 0 text
    else c :: stripAnsiFrom 0 text

/-- `_ANSI_RE.sub("", text)` -/
def stripAnsi (text : Str) : Str := stripAnsiFrom 0 text

/-! ## The function -/

/-- What the loop appends for a character. -/
def cleanedChar (singleLine : Bool) (c : PyChar) : Option PyChar :=
  if c = .scalar '\n' ∧ singleLine = false then some c
  else if c = .scalar '\t' ∧ singleLine = false then some c
  else if 0x20 ≤ c.ord ∧ c.ord ≠ 0x7f then some c
  else if singleLine = true ∧ c ∈ [.scalar '\n', .scalar '\r', .scalar '\t'] then
    some (.scalar ' ')
  else none

/-- `text.splitlines()` -/
def bareLines (text : Str) : List Str := (splitLines text).map (List.rdropWhile isLineBreak)

/-- `terminal_safe`, of a string. -/
def terminalSafe (text : Str) (singleLine : Bool) (maxChars : Nat) : Str :=
  let result := (stripAnsi text).filterMap (cleanedChar singleLine)
  let result := if singleLine then List.intercalate [.scalar ' '] (bareLines result) else result
  result.take maxChars

/-! ## Control characters -/

def isC0 (c : PyChar) : Bool := c.ord < 0x20

def isC1 (c : PyChar) : Bool := 0x80 ≤ c.ord && c.ord ≤ 0x9f

/-- What is asked of the text that is shown. -/
structure Neutralises (text : Str) (singleLine : Bool) (maxChars : Nat) : Prop where
  noC0 : ∀ c ∈ terminalSafe text singleLine maxChars, isC0 c = true →
    singleLine = false ∧ (c = .scalar '\n' ∨ c = .scalar '\t')
  noDelete : .scalar '\x7f' ∉ terminalSafe text singleLine maxChars
  noC1 : ∀ c ∈ terminalSafe text singleLine maxChars, isC1 c = false
  oneLine : singleLine = true → ∀ c ∈ terminalSafe text singleLine maxChars, isLineBreak c = false
  bounded : (terminalSafe text singleLine maxChars).length ≤ maxChars
  stable : terminalSafe (terminalSafe text singleLine maxChars) singleLine maxChars =
    terminalSafe text singleLine maxChars

/-! ## One line -/

/-- The lines of a text, joined by blanks. -/
def oneLine : Str → Str
  | [] => []
  | [c] => if isLineBreak c then [] else [c]
  | c :: d :: text => (if isLineBreak c then .scalar ' ' else c) :: oneLine (d :: text)

theorem splitLines_cons_of_ne {c : PyChar} (hc : c ≠ .scalar '\r') (text : Str) :
    splitLines (c :: text) =
      if isLineBreak c then [c] :: splitLines text else consLine c (splitLines text) := by
  rw [splitLines]
  exact fun _ h _ => hc h

theorem rdropWhile_cons_of_neg {p : PyChar → Bool} {c : PyChar} (hc : p c = false) (line : Str) :
    (c :: line).rdropWhile p = c :: line.rdropWhile p := by
  rw [List.rdropWhile, List.reverse_cons, List.dropWhile_append]
  split_ifs with hempty
  · rw [List.isEmpty_iff] at hempty
    rw [List.dropWhile_cons_of_neg (Bool.eq_false_iff.mp hc), List.rdropWhile, hempty]
    rfl
  · rw [List.reverse_append]
    rfl

/-- Without carriage returns, every line break becomes a blank but one at the end. -/
theorem intercalate_bareLines {text : Str} (h : .scalar '\r' ∉ text) :
    List.intercalate [.scalar ' '] (bareLines text) = oneLine text := by
  induction text with
  | nil => rfl
  | cons c text ih =>
    have hc : c ≠ .scalar '\r' := fun heq => h (heq ▸ List.mem_cons_self)
    have ih := ih fun hmem => h (List.mem_cons_of_mem _ hmem)
    rw [bareLines] at ih
    rw [bareLines, splitLines_cons_of_ne hc]
    cases text with
    | nil =>
      rw [oneLine]
      split_ifs with hbreak
      · change List.intercalate _ [[c].rdropWhile isLineBreak] = []
        rw [List.rdropWhile_singleton, if_pos hbreak, List.intercalate_singleton]
      · change List.intercalate _ [[c].rdropWhile isLineBreak] = [c]
        rw [List.rdropWhile_singleton, if_neg hbreak, List.intercalate_singleton]
    | cons d text =>
      rw [oneLine]
      -- a text that is not empty has a first line
      obtain ⟨line, lines, hlines⟩ : ∃ line lines, splitLines (d :: text) = line :: lines := by
        cases hsplit : splitLines (d :: text) with
        | nil =>
          have hflat := splitLines_flatten (d :: text)
          rw [hsplit] at hflat
          cases hflat
        | cons line lines => exact ⟨line, lines, rfl⟩
      rw [hlines, List.map_cons] at ih
      rw [hlines]
      split_ifs with hbreak
      · rw [List.map_cons, List.map_cons, List.intercalate_cons_cons, ih,
          List.rdropWhile_singleton, if_pos hbreak]
        rfl
      · rw [consLine, List.map_cons, rdropWhile_cons_of_neg (Bool.eq_false_iff.mpr hbreak),
          List.intercalate_cons_cons_left, ih]

theorem mem_oneLine {c : PyChar} {text : Str} (h : c ∈ oneLine text) :
    c = .scalar ' ' ∨ c ∈ text ∧ isLineBreak c = false := by
  induction text using oneLine.induct with
  | case1 => exact absurd h List.not_mem_nil
  | case2 d hbreak =>
    rw [oneLine, if_pos hbreak] at h
    exact absurd h List.not_mem_nil
  | case3 d hbreak =>
    rw [oneLine, if_neg hbreak, List.mem_singleton] at h
    subst h
    exact .inr ⟨List.mem_cons_self, Bool.eq_false_iff.mpr hbreak⟩
  | case4 d e text ih =>
    rw [oneLine, List.mem_cons] at h
    rcases h with h | h
    · split_ifs at h with hbreak
      · exact .inl h
      · subst h
        exact .inr ⟨List.mem_cons_self, Bool.eq_false_iff.mpr hbreak⟩
    · rcases ih h with hblank | ⟨hmem, hplain⟩
      · exact .inl hblank
      · exact .inr ⟨List.mem_cons_of_mem _ hmem, hplain⟩

/-- A text of one line is left as it is. -/
theorem oneLine_eq_self {text : Str} (h : ∀ c ∈ text, isLineBreak c = false) :
    oneLine text = text := by
  induction text using oneLine.induct with
  | case1 => rfl
  | case2 c hbreak => exact absurd (h c List.mem_cons_self) (by rw [hbreak]; decide)
  | case3 c hbreak => rw [oneLine, if_neg hbreak]
  | case4 c d text ih =>
    rw [oneLine, h c List.mem_cons_self, if_neg Bool.false_ne_true,
      ih fun e hmem => h e (List.mem_cons_of_mem _ hmem)]

/-- A character that is kept stands in the text that is joined where it stood. -/
theorem mem_take_oneLine {c : PyChar} (hblank : c ≠ .scalar ' ') {text : Str} {n : Nat} :
    c ∈ (oneLine text).take n ↔ c ∈ text.take n ∧ isLineBreak c = false := by
  -- by the cases of `oneLine`: a line break becomes a blank, or goes at the end of the text
  induction text using oneLine.induct generalizing n with
  | case1 =>
    rw [oneLine, List.take_nil]
    exact ⟨fun h => absurd h List.not_mem_nil, And.left⟩
  -- one character that is a line break: nothing is left
  | case2 d hbreak =>
    rw [oneLine, if_pos hbreak, List.take_nil]
    refine ⟨fun h => absurd h List.not_mem_nil, fun ⟨hmem, hplain⟩ => ?_⟩
    rw [List.mem_singleton.mp (List.mem_of_mem_take hmem), hbreak] at hplain
    cases hplain
  -- one character that is none: it stays
  | case3 d hbreak =>
    rw [oneLine, if_neg hbreak]
    refine ⟨fun hmem => ⟨hmem, ?_⟩, And.left⟩
    rw [List.mem_singleton.mp (List.mem_of_mem_take hmem)]
    exact Bool.eq_false_iff.mpr hbreak
  -- a character with more behind it
  | case4 d e text ih =>
    cases n with
    | zero =>
      rw [List.take_zero, List.take_zero]
      exact ⟨fun h => absurd h List.not_mem_nil, And.left⟩
    | succ n =>
      rw [oneLine, List.take_succ_cons, List.take_succ_cons, List.mem_cons, List.mem_cons, ih]
      -- a line break: a blank stands in its place, and `c` is no blank
      split_ifs with hbreak
      · constructor
        · rintro (heq | ⟨hmem, hplain⟩)
          · exact absurd heq hblank
          · exact ⟨.inr hmem, hplain⟩
        · rintro ⟨rfl | hmem, hplain⟩
          · rw [hbreak] at hplain
            cases hplain
          · exact .inr ⟨hmem, hplain⟩
      -- any other character stays
      · constructor
        · rintro (rfl | ⟨hmem, hplain⟩)
          · exact ⟨.inl rfl, Bool.eq_false_iff.mpr hbreak⟩
          · exact ⟨.inr hmem, hplain⟩
        · rintro ⟨heq | hmem, hplain⟩
          · exact .inl heq
          · exact .inr ⟨hmem, hplain⟩

/-! ## What is kept -/

section cleaned

variable {singleLine : Bool} {c d : PyChar}

/-- What is appended is a blank for a line break or a tab, or the character. -/
theorem cleanedChar_eq_some (h : cleanedChar singleLine c = some d) :
    singleLine = true ∧ d = .scalar ' ' ∨
      d = c ∧ (0x20 ≤ c.ord ∧ c.ord ≠ 0x7f ∨
        singleLine = false ∧ (c = .scalar '\n' ∨ c = .scalar '\t')) := by
  unfold cleanedChar at h
  split_ifs at h with hline htab hcode hsingle
  · exact .inr ⟨(Option.some.inj h).symm, .inr ⟨hline.2, .inl hline.1⟩⟩
  · exact .inr ⟨(Option.some.inj h).symm, .inr ⟨htab.2, .inr htab.1⟩⟩
  · exact .inr ⟨(Option.some.inj h).symm, .inl hcode⟩
  · exact .inl ⟨hsingle.1, (Option.some.inj h).symm⟩

theorem cleanedChar_of_le (hle : 0x20 ≤ c.ord) (hne : c.ord ≠ 0x7f) :
    cleanedChar singleLine c = some c := by
  unfold cleanedChar
  split_ifs with hline htab hcode
  · rfl
  · rfl
  · rfl
  all_goals exact absurd ⟨hle, hne⟩ hcode

end cleaned

/-- The text that is shown, before it is cut. -/
def terminalText (text : Str) (singleLine : Bool) : Str :=
  let cleaned := (stripAnsi text).filterMap (cleanedChar singleLine)
  if singleLine then oneLine cleaned else cleaned

theorem terminalSafe_eq (text : Str) (singleLine : Bool) (maxChars : Nat) :
    terminalSafe text singleLine maxChars = (terminalText text singleLine).take maxChars := by
  unfold terminalSafe terminalText
  cases singleLine with
  | false => rfl
  | true =>
    have hreturn : .scalar '\r' ∉ (stripAnsi text).filterMap (cleanedChar true) := by
      intro hmem
      obtain ⟨c, -, hc⟩ := List.mem_filterMap.mp hmem
      rcases cleanedChar_eq_some hc with ⟨-, heq⟩ | ⟨rfl, hcode | ⟨hfalse, -⟩⟩
      · cases heq
      · exact absurd hcode.1 (by decide)
      · cases hfalse
    simp only [if_true]
    rw [intercalate_bareLines hreturn]

/-- Every character that is shown is none of the control characters below U+0080. -/
theorem mem_terminalText {text : Str} {singleLine : Bool} {c : PyChar}
    (h : c ∈ terminalText text singleLine) :
    (0x20 ≤ c.ord ∧ c.ord ≠ 0x7f ∨ singleLine = false ∧ (c = .scalar '\n' ∨ c = .scalar '\t')) ∧
      (singleLine = true → isLineBreak c = false) := by
  have hblank : 0x20 ≤ (PyChar.scalar ' ').ord ∧ (PyChar.scalar ' ').ord ≠ 0x7f := by decide
  have hcleaned : c ∈ (stripAnsi text).filterMap (cleanedChar singleLine) →
      0x20 ≤ c.ord ∧ c.ord ≠ 0x7f ∨ singleLine = false ∧ (c = .scalar '\n' ∨ c = .scalar '\t') := by
    intro hmem
    obtain ⟨d, -, hd⟩ := List.mem_filterMap.mp hmem
    rcases cleanedChar_eq_some hd with ⟨-, rfl⟩ | ⟨rfl, hkept⟩
    · exact .inl hblank
    · exact hkept
  unfold terminalText at h
  cases singleLine with
  | false => exact ⟨hcleaned h, nofun⟩
  | true =>
    rcases mem_oneLine h with rfl | ⟨hmem, hplain⟩
    · exact ⟨.inl hblank, fun _ => rfl⟩
    · exact ⟨hcleaned hmem, fun _ => hplain⟩

/-! ## A second time -/

theorem stripAnsi_eq_self {text : Str} (h : .scalar '\x1b' ∉ text) : stripAnsi text = text := by
  rw [stripAnsi]
  induction text with
  | nil => rfl
  | cons c text ih =>
    have hc : c ≠ .scalar '\x1b' := fun heq => h (by rw [heq]; exact List.mem_cons_self)
    rw [stripAnsiFrom, if_neg hc, ih fun hmem => h (List.mem_cons_of_mem _ hmem)]

theorem filterMap_cleanedChar_eq_self {singleLine : Bool} {text : Str}
    (h : ∀ c ∈ text, cleanedChar singleLine c = some c) :
    text.filterMap (cleanedChar singleLine) = text := by
  induction text with
  | nil => rfl
  | cons c text ih =>
    rw [List.filterMap_cons_some (h c List.mem_cons_self),
      ih fun d hmem => h d (List.mem_cons_of_mem _ hmem)]

/-- A text that has no control character below U+0080 and is one line where that is asked. -/
theorem terminalText_eq_self {text : Str} {singleLine : Bool}
    (h : ∀ c ∈ text, (0x20 ≤ c.ord ∧ c.ord ≠ 0x7f ∨
        singleLine = false ∧ (c = .scalar '\n' ∨ c = .scalar '\t')) ∧
      (singleLine = true → isLineBreak c = false)) :
    terminalText text singleLine = text := by
  have hescape : .scalar '\x1b' ∉ text := by
    intro hmem
    rcases (h _ hmem).1 with hcode | ⟨-, heq | heq⟩
    · exact absurd hcode.1 (by decide)
    · cases heq
    · cases heq
  have hkept : ∀ c ∈ text, cleanedChar singleLine c = some c := by
    intro c hc
    rcases (h c hc).1 with hcode | ⟨rfl, heq | heq⟩
    · exact cleanedChar_of_le hcode.1 hcode.2
    · rw [cleanedChar, if_pos ⟨heq, rfl⟩]
    · subst heq
      decide
  rw [terminalText, stripAnsi_eq_self hescape, filterMap_cleanedChar_eq_self hkept]
  cases singleLine with
  | false => rfl
  | true => exact oneLine_eq_self fun c hc => (h c hc).2 rfl

/-- What has been made safe is left as it is. -/
theorem terminalSafe_stable (text : Str) (singleLine : Bool) (maxChars : Nat) :
    terminalSafe (terminalSafe text singleLine maxChars) singleLine maxChars =
      terminalSafe text singleLine maxChars := by
  have hshown := @terminalText_eq_self ((terminalText text singleLine).take maxChars) singleLine
    fun c hc => mem_terminalText (List.mem_of_mem_take hc)
  rw [terminalSafe_eq text, terminalSafe_eq, hshown, List.take_take, min_self]

/-! ## Neutralised text -/

/-- What is kept of a text within a length: the characters that so few are kept before. -/
theorem mem_take_filterMap {α β : Type} {f : α → Option β} {l : List α} {n : Nat} {b : β} :
    b ∈ (l.filterMap f).take n ↔
      ∃ front a back, l = front ++ a :: back ∧ f a = some b ∧ (front.filterMap f).length < n := by
  constructor
  · intro h
    obtain ⟨kept, others, hsplit⟩ := List.append_of_mem h
    have hall := List.take_append_drop n (l.filterMap f)
    rw [hsplit, List.append_assoc, List.cons_append] at hall
    obtain ⟨front, back, rfl, hfront, hback⟩ := List.filterMap_eq_append_iff.mp hall.symm
    obtain ⟨skipped, a, rest, rfl, hskipped, ha, -⟩ := List.filterMap_eq_cons_iff.mp hback
    refine ⟨front ++ skipped, a, rest, (List.append_assoc _ _ _).symm, ha, ?_⟩
    have hnone : skipped.filterMap f = [] := List.filterMap_eq_nil_iff.mpr hskipped
    have hlen := congrArg List.length hsplit
    rw [List.length_take, List.length_append, List.length_cons] at hlen
    rw [List.filterMap_append, hfront, hnone, List.append_nil]
    omega
  · rintro ⟨front, a, back, rfl, ha, hlen⟩
    rw [List.filterMap_append, List.filterMap_cons_some ha, List.take_append]
    refine List.mem_append_right _ ?_
    obtain ⟨k, hk⟩ : ∃ k, n - (front.filterMap f).length = k + 1 :=
      ⟨n - (front.filterMap f).length - 1, by omega⟩
    rw [hk, List.take_succ_cons]
    exact List.mem_cons_self

/-- From U+0080 to U+009F only U+0085 is a line boundary. -/
theorem isLineBreak_of_isC1 {c : PyChar} (hc : isC1 c = true) :
    isLineBreak c = true ↔ c = .scalar '\u0085' := by
  cases c with
  | surrogate low bits => exact ⟨nofun, nofun⟩
  | scalar c =>
    have hall : ∀ n < 0xa0, 0x80 ≤ n →
        (isLineBreak (.scalar (Char.ofNat n)) = true ↔
          PyChar.scalar (Char.ofNat n) = .scalar '\u0085') := by
      decide +kernel
    obtain ⟨hlow, hhigh⟩ := Bool.and_eq_true_iff.mp hc
    have hchar := hall c.toNat (Nat.lt_succ_of_le (of_decide_eq_true hhigh))
      (of_decide_eq_true hlow)
    rwa [Char.ofNat_toNat] at hchar

/-- A character from U+0080 to U+009F is shown where it is kept early enough. -/
theorem mem_terminalSafe_of_isC1 {text : Str} {singleLine : Bool} {maxChars : Nat} {c : PyChar}
    (hc : isC1 c = true) :
    c ∈ terminalSafe text singleLine maxChars ↔
      (singleLine = true → c ≠ .scalar '\u0085') ∧ ∃ front back,
        stripAnsi text = front ++ c :: back ∧
        (front.filterMap (cleanedChar singleLine)).length < maxChars := by
  obtain ⟨hlow, hhigh⟩ := Bool.and_eq_true_iff.mp hc
  have hlow : 0x80 ≤ c.ord := of_decide_eq_true hlow
  have hkeeps : cleanedChar singleLine c = some c := cleanedChar_of_le (by omega) (by omega)
  have hblank : c ≠ .scalar ' ' := by
    rintro rfl
    exact absurd hlow (by decide)
  have hcleaned : c ∈ ((stripAnsi text).filterMap (cleanedChar singleLine)).take maxChars ↔
      ∃ front back, stripAnsi text = front ++ c :: back ∧
        (front.filterMap (cleanedChar singleLine)).length < maxChars := by
    rw [mem_take_filterMap]
    constructor
    · rintro ⟨front, d, back, hsplit, hd, hlen⟩
      rcases cleanedChar_eq_some hd with ⟨-, heq⟩ | ⟨heq, -⟩
      · exact absurd heq hblank
      · exact ⟨front, back, by rw [hsplit, heq], hlen⟩
    · rintro ⟨front, back, hsplit, hlen⟩
      exact ⟨front, c, back, hsplit, hkeeps, hlen⟩
  rw [← hcleaned, terminalSafe_eq, terminalText]
  cases singleLine with
  | false => exact ⟨fun h => ⟨nofun, h⟩, And.right⟩
  | true =>
    have hbreak := not_congr (isLineBreak_of_isC1 hc)
    rw [Bool.not_eq_true] at hbreak
    simp only [if_true, true_implies]
    rw [mem_take_oneLine hblank, hbreak, and_comm]

/-- A text that is shown has what is asked of it, exactly when every control character from
U+0080 on that its escape sequences leave comes too late, or is the line boundary U+0085 and
the text is to be one line. -/
theorem neutralises_iff (text : Str) (singleLine : Bool) (maxChars : Nat) :
    Neutralises text singleLine maxChars ↔
      ∀ front c back, stripAnsi text = front ++ c :: back → isC1 c = true →
        (singleLine = true ∧ c = .scalar '\u0085') ∨
          maxChars ≤ (front.filterMap (cleanedChar singleLine)).length := by
  have hmem : ∀ c ∈ terminalSafe text singleLine maxChars, c ∈ terminalText text singleLine := by
    intro c hc
    rw [terminalSafe_eq] at hc
    exact List.mem_of_mem_take hc
  -- the text is neutral: a C1 character would be shown before the limit
  constructor
  · intro h front c back hsplit hc
    by_contra hneither
    obtain ⟨hplain, hlate⟩ := not_or.mp hneither
    have hshown := (mem_terminalSafe_of_isC1 hc).mpr
      ⟨fun hsingle heq => hplain ⟨hsingle, heq⟩, front, back, hsplit, Nat.lt_of_not_le hlate⟩
    rw [h.noC1 c hshown] at hc
    cases hc
  -- conversely, the five conditions of `Neutralises`
  · intro h
    refine ⟨?_, ?_, ?_, ?_, ?_, terminalSafe_stable text singleLine maxChars⟩
    -- the only low controls are those that `cleanedChar` keeps
    · intro c hc hlow
      rcases (mem_terminalText (hmem c hc)).1 with hcode | hkept
      · exact absurd (of_decide_eq_true hlow) (Nat.not_lt_of_le hcode.1)
      · exact hkept
    · intro hc
      rcases (mem_terminalText (hmem _ hc)).1 with hcode | ⟨-, heq | heq⟩
      · exact hcode.2 rfl
      · cases heq
      · cases heq
    -- no C1 character is shown
    · intro c hc
      by_contra htrue
      have hc1 : isC1 c = true := Bool.of_not_eq_false htrue
      obtain ⟨hplain, front, back, hsplit, hlen⟩ := (mem_terminalSafe_of_isC1 hc1).mp hc
      rcases h front c back hsplit hc1 with ⟨hsingle, heq⟩ | hlate
      · exact hplain hsingle heq
      · omega
    -- one line, and no longer than the limit
    · intro hsingle c hc
      exact (mem_terminalText (hmem c hc)).2 hsingle
    · rw [terminalSafe_eq]
      exact List.length_take_le _ _

/-- The eight-bit form of the sequence that makes a text red. -/
theorem terminalSafe_c1 :
    ¬ Neutralises (lit "ok\u009b31mRED") true 20000 := by
  intro h
  have hc := h.noC1 (.scalar '\u009b')
  rw [terminalSafe_eq] at hc
  refine absurd (hc ?_) (by decide)
  have hshown : terminalText (lit "ok\u009b31mRED") true = lit "ok\u009b31mRED" := by decide
  rw [hshown]
  decide

example : terminalSafe (lit "ok\x1b[31mRED\x1b[0m\nnext") true 20000 = lit "okRED next" := by
  decide

end OmarchyYolo
