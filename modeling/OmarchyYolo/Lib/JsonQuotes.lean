import OmarchyYolo.Lib.JsonAscii
import OmarchyYolo.Lib.JsonRoundTrip

/-!
# OmarchyYolo.Lib.JsonQuotes — counting the quotes of a JSON text

A written value holds two unescaped quotes for each of its keys and strings
(`quotes_dumps`), and what the scanner reads holds at least two for each string
of the value it returns (`scanValue_reads`). So a value is never decoded from
the inside of its own text: an inner brace stands behind at least one quote
(`rawDecode_inner_ne`).
-/

namespace PyJson

open Py

variable {F : Type}

/-! ## Unescaped quotes -/

/-- Number of quotes that are not the second character of an escape. -/
def quotes : Str → Nat
  | .scalar '\\' :: _ :: text => quotes text
  | .scalar '"' :: text => quotes text + 1
  | _ :: text => quotes text
  | [] => 0

/-- Neither a quote nor a backslash. -/
def IsPlain (c : PyChar) : Prop := c ≠ .scalar '"' ∧ c ≠ .scalar '\\'

instance (c : PyChar) : Decidable (IsPlain c) := inferInstanceAs (Decidable (_ ∧ _))

theorem quotes_plain {c : PyChar} (h : IsPlain c) (text : Str) :
    quotes (c :: text) = quotes text := by
  rw [quotes.eq_def]
  split
  · rename_i heq
    cases heq
    exact absurd rfl h.2
  · rename_i heq
    cases heq
    exact absurd rfl h.1
  · rename_i heq
    cases heq
    rfl
  · rename_i heq
    cases heq

theorem quotes_plain_append {cs : Str} (h : ∀ c ∈ cs, IsPlain c) (text : Str) :
    quotes (cs ++ text) = quotes text := by
  induction cs with
  | nil => rfl
  | cons c cs ih =>
    rw [List.cons_append, quotes_plain (h c (by simp)), ih fun c' hc' => h c' (by simp [hc'])]

/-- Cutting a text in front of a plain character splits its count: the character
may be the second of an escape, but never the first. -/
theorem quotes_le_append {c : PyChar} (h : IsPlain c) (pre text : Str) :
    quotes text ≤ quotes (pre ++ c :: text) := by
  induction pre using quotes.induct with
  | case1 e pre ih =>
    rw [List.cons_append, List.cons_append, quotes]
    exact ih
  | case2 pre ih =>
    rw [List.cons_append, quotes]
    exact Nat.le_succ_of_le ih
  | case3 d pre hesc hq ih =>
    by_cases hb : d = .scalar '\\'
    · -- a backslash at the very end escapes the character itself
      subst hb
      cases pre with
      | nil => exact Nat.le_of_eq (by rw [List.singleton_append, quotes])
      | cons e pre => exact absurd rfl (hesc e pre rfl)
    · have hd : IsPlain d := ⟨fun hd => hq hd, hb⟩
      rw [List.cons_append, quotes_plain hd]
      exact ih
  | case4 => exact Nat.le_of_eq (by rw [List.nil_append, quotes_plain h])

theorem isPlain_digit {c : Char} (h : c.isDigit = true) : IsPlain (.scalar c) := by
  constructor <;>
  · rintro hc
    cases hc
    cases h

theorem isPlain_hex : ∀ d < 16, IsPlain (.scalar (Nat.digitChar d)) := by
  decide

/-! ## Written values -/

mutual

/-- Number of keys and strings of a value. -/
def Json.strings : Json F → Nat
  | .str _ => 1
  | .arr xs => xs.strings
  | .obj ms => ms.strings
  | _ => 0

def Elems.strings : Elems F → Nat
  | .nil => 0
  | .cons x xs => x.strings + xs.strings

def Members.strings : Members F → Nat
  | .nil => 0
  | .cons _ x ms => 1 + x.strings + ms.strings

end

theorem quotes_uEscape (u : Nat) (text : Str) : quotes (uEscape u ++ text) = quotes text := by
  have hex : ∀ n, IsPlain (.scalar (Nat.digitChar (n % 16))) := fun n =>
    isPlain_hex _ (Nat.mod_lt n (by decide))
  show quotes (.scalar '\\' :: .scalar 'u' :: .scalar _ :: .scalar _ :: .scalar _ ::
    .scalar _ :: text) = _
  rw [quotes, quotes_plain (hex _), quotes_plain (hex _), quotes_plain (hex _),
    quotes_plain (hex _)]

theorem quotes_escape (st : Style) (c : PyChar) (text : Str) :
    quotes (escape st c ++ text) = quotes text := by
  cases c with
  | surrogate low bits =>
    rw [escape]
    split_ifs
    · exact quotes_uEscape _ _
    · exact quotes_plain (by simp [IsPlain]) _
  | scalar c =>
    cases hs : shortEscape c with
    | some e =>
      simp only [escape, hs]
      rfl
    | none =>
      have hplain : IsPlain (.scalar c) := by
        constructor <;>
        · rintro hc
          cases hc
          simp [shortEscape] at hs
      simp only [escape, hs]
      split_ifs
      · exact quotes_uEscape _ _
      · exact quotes_plain hplain _
      · exact quotes_uEscape _ _
      · rw [List.append_assoc, quotes_uEscape, quotes_uEscape]

theorem quotes_dumpsStr (st : Style) (s text : Str) :
    quotes (dumpsStr st s ++ text) = 2 + quotes text := by
  have hbody : ∀ cs : Str, quotes (cs.flatMap (escape st) ++ .scalar '"' :: text) =
      quotes text + 1 := by
    intro cs
    induction cs with
    | nil => rfl
    | cons c cs ih => rw [List.flatMap_cons, List.append_assoc, quotes_escape, ih]
  rw [dumpsStr, List.cons_append, List.append_assoc, List.singleton_append, quotes, hbody]
  omega

theorem isPlain_text {l : FloatLit} (h : l.Valid) : ∀ c ∈ ofChars l.text, IsPlain c := by
  have hmark : ∀ c ∈ ['-', '+', '.', 'e', 'E'], IsPlain (.scalar c) := by
    simp only [List.forall_mem_cons]
    exact ⟨by decide, by decide, by decide, by decide, by decide, List.forall_mem_nil _⟩
  intro c' hc'
  obtain ⟨c, hc, rfl⟩ := List.mem_map.mp hc'
  rcases h.mem_text c hc with hc | hc
  · exact isPlain_digit hc
  · exact hmark c hc

theorem isPlain_toDigits (n : Nat) : ∀ c ∈ ofChars (Nat.toDigits 10 n), IsPlain c := by
  intro c' hc'
  obtain ⟨c, hc, rfl⟩ := List.mem_map.mp hc'
  exact isPlain_digit (Nat.isDigit_of_mem_toDigits (by decide) (by decide) hc)

theorem quotes_dumpsInt (n : Int) (text : Str) : quotes (dumpsInt n ++ text) = quotes text := by
  cases n with
  | ofNat n => exact quotes_plain_append (isPlain_toDigits n) text
  | negSucc n =>
    rw [dumpsInt, List.cons_append, quotes_plain (by decide),
      quotes_plain_append (isPlain_toDigits _)]

theorem quotes_spell [PyFloat F] (x : F) (text : Str) :
    quotes (ofChars (PyFloat.spell x) ++ text) = quotes text := by
  rcases PyFloat.spelled x with ⟨-, hx⟩ | ⟨-, hx⟩ | ⟨-, hx⟩ | ⟨l, hl, hx, -⟩
  · rw [hx]
    rfl
  · rw [hx]
    rfl
  · rw [hx]
    rfl
  · rw [hx, quotes_plain_append (isPlain_text hl)]

theorem quotes_itemSep (st : Style) (text : Str) : quotes (st.itemSep ++ text) = quotes text := by
  cases hc : st.compact <;> rw [Style.itemSep, hc] <;> rfl

theorem quotes_keySep (st : Style) (text : Str) : quotes (st.keySep ++ text) = quotes text := by
  cases hc : st.compact <;> rw [Style.keySep, hc] <;> rfl

mutual

/-- A written value holds two unescaped quotes for each of its keys and strings. -/
theorem quotes_dumps [PyFloat F] (st : Style) : ∀ (v : Json F) (text : Str),
    quotes (dumps st v ++ text) = 2 * v.strings + quotes text
  | .null, text => by simp [dumps, lit, Json.strings, quotes]
  | .bool true, text => by simp [dumps, lit, Json.strings, quotes]
  | .bool false, text => by simp [dumps, lit, Json.strings, quotes]
  | .int n, text => by simp [dumps, Json.strings, quotes_dumpsInt]
  | .float x, text => by simp [dumps, Json.strings, quotes_spell]
  | .str s, text => by rw [dumps, quotes_dumpsStr, Json.strings]
  | .arr .nil, text => by simp [dumps, lit, Json.strings, Elems.strings, quotes]
  | .arr (.cons x xs), text => by
    rw [dumps, List.cons_append, List.append_assoc, List.append_assoc, List.singleton_append,
      quotes_plain (by decide), quotes_dumps st x, quotes_dumpsElems st xs,
      quotes_plain (by decide), Json.strings, Elems.strings]
    omega
  | .obj .nil, text => by simp [dumps, lit, Json.strings, Members.strings, quotes]
  | .obj (.cons k x ms), text => by
    rw [dumps, List.cons_append, List.append_assoc, List.append_assoc, List.append_assoc,
      List.append_assoc, List.singleton_append, quotes_plain (by decide), quotes_dumpsStr,
      quotes_keySep, quotes_dumps st x, quotes_dumpsMembers st ms, quotes_plain (by decide),
      Json.strings, Members.strings]
    omega

theorem quotes_dumpsElems [PyFloat F] (st : Style) : ∀ (xs : Elems F) (text : Str),
    quotes (dumpsElems st xs ++ text) = 2 * xs.strings + quotes text
  | .nil, text => by simp [dumpsElems, Elems.strings]
  | .cons x xs, text => by
    rw [dumpsElems, List.append_assoc, List.append_assoc, quotes_itemSep, quotes_dumps st x,
      quotes_dumpsElems st xs, Elems.strings]
    omega

theorem quotes_dumpsMembers [PyFloat F] (st : Style) : ∀ (ms : Members F) (text : Str),
    quotes (dumpsMembers st ms ++ text) = 2 * ms.strings + quotes text
  | .nil, text => by simp [dumpsMembers, Members.strings]
  | .cons k x ms, text => by
    rw [dumpsMembers, List.append_assoc, List.append_assoc, List.append_assoc, List.append_assoc,
      quotes_itemSep, quotes_dumpsStr, quotes_keySep, quotes_dumps st x,
      quotes_dumpsMembers st ms, Members.strings]
    omega

end

/-! ## Scanned texts -/

theorem isPlain_hexVal {c : PyChar} {d : Nat} (h : hexVal c = some d) : IsPlain c := by
  constructor <;>
  · rintro rfl
    cases h

theorem quotes_scanBody {text : Str} : ∀ {p : List Piece × Str}, scanBody text = some p →
    quotes text = quotes p.2 + 1 ∧ p.2 <:+ text := by
  -- by the cases of `scanBody`: the only quote that is read is the one that closes
  induction text using scanBody.induct with
  | case1 =>
    intro p h
    cases h
  -- the closing quote
  | case2 rest =>
    intro p h
    cases h
    exact ⟨rfl, List.suffix_cons _ _⟩
  -- `\u` with digits that are none
  | case3 a b c d rest hnone =>
    intro p h
    rw [scanBody, hnone] at h
    cases h
  -- `\u` and four digits, none of which is a quote
  | case4 a b c d rest u hu ih =>
    intro p h
    rw [scanBody, hu] at h
    obtain ⟨p, hp, rfl⟩ := Option.map_eq_some_iff.mp h
    obtain ⟨hq, hsuf⟩ := ih hp
    have hdigits : IsPlain a ∧ IsPlain b ∧ IsPlain c ∧ IsPlain d := by
      rw [hex4] at hu
      split at hu
      · rename_i ha hb hc hd
        exact ⟨isPlain_hexVal ha, isPlain_hexVal hb, isPlain_hexVal hc, isPlain_hexVal hd⟩
      · cases hu
    rw [quotes, quotes_plain hdigits.1, quotes_plain hdigits.2.1, quotes_plain hdigits.2.2.1,
      quotes_plain hdigits.2.2.2]
    exact ⟨hq, hsuf.trans ⟨[_, _, _, _, _, _], rfl⟩⟩
  -- an escape that names no character
  | case5 e rest hu hnone =>
    intro p h
    rw [scanBody] at h
    · rw [hnone] at h
      cases h
    · exact hu
  -- a short escape: `quotes` skips the character behind a backslash
  | case6 e rest hu c hc ih =>
    intro p h
    rw [scanBody] at h
    · rw [hc] at h
      obtain ⟨p, hp, rfl⟩ := Option.map_eq_some_iff.mp h
      obtain ⟨hq, hsuf⟩ := ih hp
      rw [quotes]
      exact ⟨hq, hsuf.trans ⟨[_, _], rfl⟩⟩
    · exact hu
  -- a control character is refused
  | case7 c rest hq _ hb hcontrol =>
    intro p h
    rw [scanBody, if_pos hcontrol] at h
    · cases h
    · exact hq
    · assumption
    · exact hb
  -- any other character: no quote, and no backslash with a character behind it
  | case8 c rest hq _ hb hcontrol ih =>
    intro p h
    rw [scanBody, if_neg hcontrol] at h
    · obtain ⟨p, hp, rfl⟩ := Option.map_eq_some_iff.mp h
      obtain ⟨hquotes, hsuf⟩ := ih hp
      have hplain : IsPlain c := by
        refine ⟨fun hc => hq hc, fun hc => ?_⟩
        cases rest with
        -- a lone backslash at the end leaves nothing to read
        | nil => cases hp
        | cons e rest => exact hb e rest hc rfl
      rw [quotes_plain hplain]
      exact ⟨hquotes, hsuf.trans (List.suffix_cons _ _)⟩
    · exact hq
    · assumption
    · exact hb

/-- What a reader of `text` that returns `v` and `rest` has consumed: the rest
is a suffix, an object ends right at a closing brace, and the text holds two
quotes for every string of `v` that does not come out of `budget`. -/
structure Reads (text : Str) (budget : Nat) (v : Json F) (rest : Str) : Prop where
  suffix : rest <:+ text
  brace : ∀ ms, v = .obj ms → .scalar '}' :: rest <:+ text
  count : 2 * v.strings + quotes rest ≤ quotes text + 2 * budget

/-- Reading on behind plain characters. -/
theorem Reads.prepend {text : Str} {b : Nat} {v : Json F} {rest : Str} (h : Reads text b v rest)
    {text' : Str} (hsuf : text <:+ text') (hq : quotes text ≤ quotes text') :
    Reads text' b v rest :=
  ⟨h.suffix.trans hsuf, fun ms hms => (h.brace ms hms).trans hsuf, by have := h.count; omega⟩

theorem quotes_skipWs (text : Str) : quotes (skipWs text) = quotes text := by
  induction text with
  | nil => rfl
  | cons c text ih =>
    cases hc : isWs c with
    | true =>
      have hplain : IsPlain c := by
        constructor <;>
        · rintro rfl
          cases hc
      rw [skipWs, List.dropWhile_cons_of_pos hc, quotes_plain hplain]
      exact ih
    | false => rw [skipWs_cons hc]

theorem skipWs_suffix (text : Str) : skipWs text <:+ text := List.dropWhile_suffix isWs

theorem afterWord_eq {w : List Char} : ∀ {text rest : Str}, afterWord w text = some rest →
    text = ofChars w ++ rest := by
  induction w with
  | nil =>
    rintro text rest ⟨⟩
    rfl
  | cons c w ih =>
    intro text rest h
    rcases text with _ | ⟨d | _, text⟩
    · cases h
    · rw [afterWord] at h
      split_ifs at h with hcd
      rw [ih h, hcd]
      rfl
    · cases h

theorem spanDigits_eq (text : Str) :
    text = ofChars (spanDigits text).1 ++ (spanDigits text).2 ∧
      ∀ c ∈ (spanDigits text).1, c.isDigit = true := by
  induction text with
  | nil => exact ⟨rfl, by simp [spanDigits]⟩
  | cons c text ih =>
    cases c with
    | surrogate low bits => exact ⟨rfl, by simp [spanDigits]⟩
    | scalar c =>
      rw [spanDigits]
      split_ifs with hc
      · refine ⟨congrArg (PyChar.scalar c :: ·) ih.1, ?_⟩
        intro d hd
        rcases List.mem_cons.mp hd with rfl | hd
        · exact hc
        · exact ih.2 d hd
      · exact ⟨rfl, by simp⟩

/-- `text` is `rest` behind plain characters. -/
def PlainBefore (text rest : Str) : Prop := ∃ cs, text = cs ++ rest ∧ ∀ c ∈ cs, IsPlain c

theorem PlainBefore.refl (text : Str) : PlainBefore text text := ⟨[], rfl, by simp⟩

theorem PlainBefore.trans {a b c : Str} (h₁ : PlainBefore a b) (h₂ : PlainBefore b c) :
    PlainBefore a c := by
  obtain ⟨cs, rfl, hcs⟩ := h₁
  obtain ⟨ds, rfl, hds⟩ := h₂
  refine ⟨cs ++ ds, (List.append_assoc _ _ _).symm, fun x hx => ?_⟩
  rcases List.mem_append.mp hx with hx | hx
  · exact hcs x hx
  · exact hds x hx

theorem PlainBefore.cons {c : PyChar} (h : IsPlain c) (text : Str) :
    PlainBefore (c :: text) text :=
  ⟨[c], rfl, by simpa using h⟩

theorem plainBefore_spanDigits (text : Str) : PlainBefore text (spanDigits text).2 := by
  obtain ⟨heq, hdigits⟩ := spanDigits_eq text
  refine ⟨ofChars (spanDigits text).1, heq, fun c hc => ?_⟩
  obtain ⟨d, hd, rfl⟩ := List.mem_map.mp hc
  exact isPlain_digit (hdigits d hd)

theorem plainBefore_scanWhole {text : Str} {w : List Char × Str} (h : scanWhole text = some w) :
    PlainBefore text w.2 := by
  unfold scanWhole at h
  split at h
  · rename_i c rest
    split_ifs at h with h0 hd
    · cases h
      subst h0
      exact PlainBefore.cons (by decide) _
    · cases h
      exact (PlainBefore.cons (isPlain_digit hd) _).trans (plainBefore_spanDigits rest)
  · cases h

theorem plainBefore_scanFrac (text : Str) : PlainBefore text (scanFrac text).2 := by
  unfold scanFrac
  split
  · rename_i rest
    have hspan := plainBefore_spanDigits rest
    split
    · exact PlainBefore.refl _
    · rename_i ds rest' _ heq
      rw [heq] at hspan
      exact (PlainBefore.cons (by decide) _).trans hspan
  · exact PlainBefore.refl _

theorem plainBefore_scanSign (text : Str) : PlainBefore text (scanSign text).2 := by
  unfold scanSign
  split
  · split_ifs with hs
    · rcases hs with rfl | rfl <;> exact PlainBefore.cons (by decide) _
    · exact PlainBefore.refl _
  · exact PlainBefore.refl _

theorem plainBefore_scanExp (text : Str) : PlainBefore text (scanExp text).2 := by
  unfold scanExp
  split
  · rename_i e rest
    split_ifs with he
    · have hsign := plainBefore_scanSign rest
      have hspan := plainBefore_spanDigits (scanSign rest).2
      split
      · exact PlainBefore.refl _
      · rename_i ds rest' _ heq
        rw [heq] at hspan
        have hplain : IsPlain (.scalar e) := by
          rcases he with rfl | rfl <;> decide
        exact (PlainBefore.cons hplain _).trans (hsign.trans hspan)
    · exact PlainBefore.refl _
  · exact PlainBefore.refl _

/-- Reading a value without strings. -/
theorem PlainBefore.reads {text rest : Str} (h : PlainBefore text rest) {v : Json F}
    (hs : v.strings = 0) (hobj : ∀ ms, v ≠ .obj ms) : Reads text 0 v rest := by
  obtain ⟨cs, rfl, hcs⟩ := h
  refine ⟨List.suffix_append cs rest, fun ms hms => absurd hms (hobj ms), ?_⟩
  rw [hs, quotes_plain_append hcs]
  omega

theorem Members.strings_put_le (ms : Members F) (k : Str) (x : Json F) :
    (ms.put k x).strings ≤ 1 + x.strings + ms.strings := by
  induction ms with
  | nil => exact Nat.le_refl _
  | cons k' x' ms ih =>
    rw [put]
    split_ifs
    · simp only [strings]
      omega
    · simp only [strings]
      omega

theorem strings_arrOfRev (acc : List (Json F)) :
    (arrOfRev acc).strings = (acc.map Json.strings).sum := by
  have hlist : ∀ xs : List (Json F), (Elems.ofList xs).strings = (xs.map Json.strings).sum := by
    intro xs
    induction xs with
    | nil => rfl
    | cons x xs ih => rw [Elems.ofList, Elems.strings, ih, List.map_cons, List.sum_cons]
  rw [arrOfRev, Json.strings, hlist, List.map_reverse, List.sum_reverse]

theorem scanString_reads {text : Str} {p : Str × Str} (h : scanString text = some p) :
    quotes text = quotes p.2 + 1 ∧ p.2 <:+ text := by
  obtain ⟨q, hq, rfl⟩ := Option.map_eq_some_iff.mp h
  exact quotes_scanBody hq

variable [PyFloat F]

theorem scanNumber_reads {text : Str} {p : Json F × Str} (h : scanNumber text = some p) :
    Reads text 0 p.1 p.2 := by
  have hunsigned : ∀ {neg : Bool} {text : Str} {p : Json F × Str},
      scanUnsigned neg text = some p → Reads text 0 p.1 p.2 := by
    intro neg text p h
    obtain ⟨w, hw, rfl⟩ := Option.map_eq_some_iff.mp h
    refine ((plainBefore_scanWhole hw).trans
      ((plainBefore_scanFrac w.2).trans (plainBefore_scanExp _))).reads ?_ ?_
    · simp only [numberValue]
      split_ifs <;> rfl
    · intro ms hms
      simp only [numberValue] at hms
      split_ifs at hms
  unfold scanNumber at h
  split at h
  · exact (hunsigned h).prepend (List.suffix_cons _ _)
      (Nat.le_of_eq (quotes_plain (by decide) _).symm)
  · exact hunsigned h

theorem scanAtom_reads {text : Str} {p : Json F × Str} (h : scanAtom text = some p) :
    Reads text 0 p.1 p.2 := by
  have hword : ∀ {w : List Char} {rest : Str} {v : Json F}, afterWord w text = some rest →
      (∀ c ∈ ofChars w, IsPlain c) → v.strings = 0 → (∀ ms, v ≠ .obj ms) → Reads text 0 v rest :=
    fun hw hplain hs hobj => PlainBefore.reads ⟨_, afterWord_eq hw, hplain⟩ hs hobj
  unfold scanAtom at h
  repeat' split at h
  case h_2 => exact scanNumber_reads h
  all_goals
    rename_i hw
    cases h
    exact hword hw (by decide) rfl nofun

mutual

theorem scanValue_reads : ∀ {n : Nat} {text : Str} {v : Json F} {rest : Str},
    scanValue n text = some (v, rest) → Reads text 0 v rest
  | 0, _, _, _, h => by cases h
  | n + 1, text, v, rest, h => by
    unfold scanValue at h
    split at h
    · -- a string
      rename_i body
      obtain ⟨p, hp, heq⟩ := Option.map_eq_some_iff.mp h
      cases heq
      obtain ⟨hq, hsuf⟩ := scanString_reads hp
      refine ⟨hsuf.trans (List.suffix_cons _ _), nofun, ?_⟩
      rw [quotes, hq, Json.strings]
      omega
    · -- an object
      rename_i body
      -- blanks hold no quote
      have hskip : ∀ {rest'}, skipWs body = rest' → rest' <:+ .scalar '{' :: body ∧
          quotes rest' ≤ quotes (.scalar '{' :: body) := by
        rintro rest' rfl
        refine ⟨(skipWs_suffix body).trans (List.suffix_cons _ _), Nat.le_of_eq ?_⟩
        rw [quotes_skipWs, quotes_plain (by decide)]
      split at h
      -- empty: nothing is read but the brace
      · rename_i rest' heq
        cases h
        obtain ⟨hsuf, hq⟩ := hskip heq
        rw [quotes_plain (by decide)] at hq
        refine ⟨(List.suffix_cons _ _).trans hsuf, fun _ _ => hsuf, ?_⟩
        simp only [Json.strings, Members.strings]
        omega
      · exact (scanMembers_reads h).prepend (hskip rfl).1 (hskip rfl).2
    · -- an array
      rename_i body
      have hskip : ∀ {rest'}, skipWs body = rest' → rest' <:+ .scalar '[' :: body ∧
          quotes rest' ≤ quotes (.scalar '[' :: body) := by
        rintro rest' rfl
        refine ⟨(skipWs_suffix body).trans (List.suffix_cons _ _), Nat.le_of_eq ?_⟩
        rw [quotes_skipWs, quotes_plain (by decide)]
      -- empty: nothing is read but the bracket
      split at h
      · rename_i rest' heq
        cases h
        obtain ⟨hsuf, hq⟩ := hskip heq
        rw [quotes_plain (by decide)] at hq
        refine ⟨(List.suffix_cons _ _).trans hsuf, nofun, ?_⟩
        simp only [Json.strings, Elems.strings]
        omega
      · exact (scanElems_reads h).prepend (hskip rfl).1 (hskip rfl).2
    · exact scanAtom_reads h

theorem scanMembers_reads : ∀ {n : Nat} {acc : Members F} {text : Str} {v : Json F} {rest : Str},
    scanMembers n acc text = some (v, rest) → Reads text acc.strings v rest
  | 0, _, _, _, _, h => by cases h
  | n + 1, acc, text, v, rest, h => by
    unfold scanMembers at h
    split at h
    · rename_i body
      split at h
      · cases h
      · rename_i k afterKey hkey
        obtain ⟨hkq, hksuf⟩ := scanString_reads hkey
        split at h
        · rename_i afterColon hcolon
          split at h
          · cases h
          · rename_i x afterValue hvalue
            have hx := scanValue_reads hvalue
            have hms := scanMembersRest_reads h
            have hput := Members.strings_put_le acc k x
            have hcolonQ : quotes afterColon = quotes afterKey := by
              rw [← quotes_skipWs afterKey, hcolon, quotes_plain (by decide)]
            have hcolonS : afterColon <:+ afterKey :=
              (List.suffix_cons _ _).trans (hcolon ▸ skipWs_suffix afterKey)
            have hsuf : skipWs afterValue <:+ .scalar '"' :: body :=
              (skipWs_suffix _).trans (hx.suffix.trans ((skipWs_suffix _).trans
                (hcolonS.trans (hksuf.trans (List.suffix_cons _ _)))))
            refine ⟨hms.suffix.trans hsuf, fun ms hv => (hms.brace ms hv).trans hsuf, ?_⟩
            have hcount := hms.count
            have hxcount := hx.count
            simp only [quotes_skipWs] at hcount hxcount
            rw [quotes]
            simp only at hkq
            omega
        · cases h
    · cases h

theorem scanMembersRest_reads : ∀ {n : Nat} {acc : Members F} {text : Str} {v : Json F}
    {rest : Str}, scanMembersRest n acc text = some (v, rest) → Reads text acc.strings v rest
  | 0, _, _, _, _, h => by cases h
  | n + 1, acc, text, v, rest, h => by
    unfold scanMembersRest at h
    split at h
    · cases h
      refine ⟨List.suffix_cons _ _, fun _ _ => List.suffix_refl _, ?_⟩
      rw [quotes_plain (by decide), Json.strings]
      omega
    · refine (scanMembers_reads h).prepend ((skipWs_suffix _).trans (List.suffix_cons _ _))
        (Nat.le_of_eq ?_)
      rw [quotes_skipWs, quotes_plain (by decide)]
    · cases h

theorem scanElems_reads : ∀ {n : Nat} {acc : List (Json F)} {text : Str} {v : Json F} {rest : Str},
    scanElems n acc text = some (v, rest) → Reads text (acc.map Json.strings).sum v rest
  | 0, _, _, _, _, h => by cases h
  | n + 1, acc, text, v, rest, h => by
    unfold scanElems at h
    split at h
    · cases h
    · rename_i x afterValue hvalue
      have hx := scanValue_reads hvalue
      have hxs := scanElemsRest_reads h
      have hsuf := (skipWs_suffix afterValue).trans hx.suffix
      refine ⟨hxs.suffix.trans hsuf, fun ms hv => (hxs.brace ms hv).trans hsuf, ?_⟩
      have hcount := hxs.count
      have hxcount := hx.count
      rw [quotes_skipWs, List.map_cons, List.sum_cons] at hcount
      omega

theorem scanElemsRest_reads : ∀ {n : Nat} {acc : List (Json F)} {text : Str} {v : Json F}
    {rest : Str}, scanElemsRest n acc text = some (v, rest) →
      Reads text (acc.map Json.strings).sum v rest
  | 0, _, _, _, _, h => by cases h
  | n + 1, acc, text, v, rest, h => by
    unfold scanElemsRest at h
    split at h
    · cases h
      refine ⟨List.suffix_cons _ _, nofun, ?_⟩
      rw [quotes_plain (by decide), strings_arrOfRev]
      omega
    · refine (scanElems_reads h).prepend ((skipWs_suffix _).trans (List.suffix_cons _ _))
        (Nat.le_of_eq ?_)
      rw [quotes_skipWs, quotes_plain (by decide)]
    · cases h

end

/-! ## Fuel -/

theorem length_skipWs_le (text : Str) : (skipWs text).length ≤ text.length :=
  (skipWs_suffix text).length_le

mutual

/-- Fuel beyond twice the length of the text changes nothing: every two calls
consume a character. -/
theorem scanValue_succ : ∀ {n : Nat} {text : Str}, 2 * text.length + 1 ≤ n →
    scanValue (F := F) (n + 1) text = scanValue n text
  | 0, _, hn => by omega
  | n + 1, text, hn => by
    rw [scanValue.eq_def (n + 1 + 1), scanValue.eq_def (n + 1)]
    simp only
    split
    · rfl
    · rename_i body
      have hlen := length_skipWs_le body
      rw [List.length_cons] at hn
      split
      · rfl
      · exact scanMembers_succ (by omega) .nil
    · rename_i body
      have hlen := length_skipWs_le body
      rw [List.length_cons] at hn
      split
      · rfl
      · exact scanElems_succ (by omega) []
    · rfl

theorem scanMembers_succ : ∀ {n : Nat} {text : Str}, 2 * text.length + 1 ≤ n →
    ∀ acc : Members F, scanMembers (n + 1) acc text = scanMembers n acc text
  | 0, _, hn, _ => by omega
  | n + 1, text, hn, acc => by
    rw [scanMembers.eq_def (n + 1 + 1), scanMembers.eq_def (n + 1)]
    simp only
    split
    · rename_i body
      rw [List.length_cons] at hn
      split
      · rfl
      · rename_i k afterKey hkey
        have hkeyLen := (scanString_reads hkey).2.length_le
        split
        · rename_i afterColon hcolon
          have hcolonLen := length_skipWs_le afterKey
          have hvalueLen := length_skipWs_le afterColon
          rw [hcolon, List.length_cons] at hcolonLen
          simp only at hkeyLen
          rw [scanValue_succ (n := n) (by omega)]
          split
          · rfl
          · rename_i x afterValue hvalue
            have hafterLen := (scanValue_reads hvalue).suffix.length_le
            have hrestLen := length_skipWs_le afterValue
            exact scanMembersRest_succ (by omega) _
        · rfl
    · rfl

theorem scanMembersRest_succ : ∀ {n : Nat} {text : Str}, 2 * text.length + 1 ≤ n →
    ∀ acc : Members F, scanMembersRest (n + 1) acc text = scanMembersRest n acc text
  | 0, _, hn, _ => by omega
  | n + 1, text, hn, acc => by
    rw [scanMembersRest.eq_def (n + 1 + 1), scanMembersRest.eq_def (n + 1)]
    simp only
    split
    · rfl
    · rename_i body
      have hlen := length_skipWs_le body
      rw [List.length_cons] at hn
      exact scanMembers_succ (by omega) acc
    · rfl

theorem scanElems_succ : ∀ {n : Nat} {text : Str}, 2 * text.length + 2 ≤ n →
    ∀ acc : List (Json F), scanElems (n + 1) acc text = scanElems n acc text
  | 0, _, hn, _ => by omega
  | n + 1, text, hn, acc => by
    rw [scanElems.eq_def (n + 1 + 1), scanElems.eq_def (n + 1)]
    simp only
    rw [scanValue_succ (n := n) (by omega)]
    split
    · rfl
    · rename_i x afterValue hvalue
      have hafterLen := (scanValue_reads hvalue).suffix.length_le
      have hrestLen := length_skipWs_le afterValue
      exact scanElemsRest_succ (by omega) _

theorem scanElemsRest_succ : ∀ {n : Nat} {text : Str}, 2 * text.length + 1 ≤ n →
    ∀ acc : List (Json F), scanElemsRest (n + 1) acc text = scanElemsRest n acc text
  | 0, _, hn, _ => by omega
  | n + 1, text, hn, acc => by
    rw [scanElemsRest.eq_def (n + 1 + 1), scanElemsRest.eq_def (n + 1)]
    simp only
    split
    · rfl
    · rename_i body
      have hlen := length_skipWs_le body
      rw [List.length_cons] at hn
      exact scanElems_succ (by omega) acc
    · rfl

end

/-- The scanner never runs out of the fuel `rawDecode` gives it. -/
theorem scanValue_eq_rawDecode {n : Nat} {text : Str} (h : 2 * text.length + 1 ≤ n) :
    scanValue (F := F) n text = rawDecode text := by
  obtain ⟨k, rfl⟩ := Nat.exists_eq_add_of_le h
  induction k with
  | zero => rfl
  | succ k ih => rw [← Nat.add_assoc, scanValue_succ (by omega), ih (by omega)]

/-! ## Decoding from the inside -/

/-- A written object ends with its brace. -/
theorem dumps_obj_end (st : Style) (ms : Members F) :
    ∃ body, dumps st (.obj ms) = body ++ [.scalar '}'] := by
  cases ms with
  | nil => exact ⟨[.scalar '{'], rfl⟩
  | cons k x ms =>
    refine ⟨.scalar '{' :: (dumpsStr st k ++ (st.keySep ++ (dumps st x ++ dumpsMembers st ms))), ?_⟩
    rw [dumps]
    simp

/-- An inner brace of a written object stands behind its first quote. -/
theorem dumps_obj_inner {st : Style} {ms : Members F} {pre t : Str}
    (h : dumps st (.obj ms) = pre ++ .scalar '{' :: t) (hpre : pre ≠ []) :
    ∃ pre', pre = .scalar '{' :: .scalar '"' :: pre' := by
  cases ms with
  | nil =>
    rcases pre with _ | ⟨c, _ | ⟨d, pre⟩⟩
    · exact absurd rfl hpre
    · cases h
    · have := congrArg List.length h
      simp [dumps, lit] at this
  | cons k x ms =>
    rw [dumps, dumpsStr] at h
    rcases pre with _ | ⟨c, _ | ⟨d, pre⟩⟩
    · exact absurd rfl hpre
    · cases h
    · simp only [List.cons_append, List.cons.injEq] at h
      rw [← h.1, ← h.2.1]
      exact ⟨pre, rfl⟩

/-- What is decoded from an inner brace of a written object, with brace-free
text behind it, is another value. -/
theorem rawDecode_inner_ne {st : Style} {ms : Members F} {pre t s : Str}
    (h : dumps st (.obj ms) = pre ++ .scalar '{' :: t) (hpre : pre ≠ [])
    (hs : PyChar.scalar '}' ∉ s) {w : Members F} {rest : Str}
    (hw : rawDecode (.scalar '{' :: (t ++ s)) = some (.obj w, rest)) : w ≠ ms := by
  obtain ⟨pre, rfl⟩ := dumps_obj_inner h hpre
  have hreads := scanValue_reads hw
  -- the text behind the decoded object reaches over `s`
  obtain ⟨rest', hrest', hsuf⟩ : ∃ rest', rest = rest' ++ s ∧ rest' <:+ .scalar '{' :: t := by
    obtain ⟨u, hu⟩ := hreads.brace w rfl
    rw [← List.cons_append, List.append_eq_append_iff] at hu
    rcases hu with ⟨c, hc, hd⟩ | ⟨c, -, hd⟩
    · rcases c with _ | ⟨c, rest'⟩
      · refine absurd ?_ hs
        rw [← List.nil_append s, ← hd]
        exact List.mem_cons_self
      · cases hd
        exact ⟨rest', rfl, u ++ [.scalar '}'], by rw [hc]; simp⟩
    · exact absurd (hd ▸ List.mem_append_right c List.mem_cons_self) hs
  have hquotes : quotes s ≤ quotes rest := by
    rw [hrest']
    obtain ⟨body, hbody⟩ := dumps_obj_end st ms
    have hsuf' : rest' <:+ body ++ [.scalar '}'] := by
      rw [← hbody, h]
      exact hsuf.trans (List.suffix_append _ _)
    rcases List.suffix_concat_iff.mp hsuf' with rfl | ⟨r, rfl, -⟩
    · exact Nat.le_refl _
    · rw [List.append_assoc, List.singleton_append]
      exact quotes_le_append (by decide) r s
  have htotal := quotes_dumps st (.obj ms) s
  have hinner : quotes (t ++ s) + 1 ≤ quotes (dumps st (.obj ms) ++ s) := by
    rw [h, List.append_assoc, List.cons_append, List.cons_append, quotes_plain (by decide), quotes]
    exact Nat.succ_le_succ (quotes_le_append (by decide) pre (t ++ s))
  have hcount := hreads.count
  rw [quotes_plain (by decide)] at hcount
  rintro rfl
  omega

end PyJson
