import OmarchyYolo.Lib.Json

/-!
# OmarchyYolo.Lib.JsonAscii — JSON in printable ASCII

With `ensure_ascii` a value is written in printable ASCII, whatever its strings
hold.

* `isPrintable` — the alphabet;
* `dumpsStr_printable`, `dumps_printable`: a string literal, and a value, is in it;
* `FloatLit.Valid.mem_text`: the characters of a float literal.
-/

namespace PyJson

open Py

/-- The printable characters of ASCII. -/
def isPrintable : PyChar → Bool
  | .surrogate _ _ => false
  | .scalar c => 0x20 ≤ c.toNat && c.toNat < 0x7f

/-- What is printable has no surrogates. -/
theorem isText_of_isPrintable {s : Str} (h : ∀ c ∈ s, isPrintable c = true) : isText s = true := by
  rw [isText, List.all_eq_true]
  intro c hc
  cases c with
  | surrogate low bits => exact absurd (h _ hc) Bool.false_ne_true
  | scalar c => rfl

theorem isPrintable_digitChar : ∀ d < 16, isPrintable (.scalar (Nat.digitChar d)) = true := by
  decide

theorem uEscape_printable (u : Nat) : ∀ c ∈ uEscape u, isPrintable c = true := by
  have hdigit : ∀ n : Nat, isPrintable (.scalar (Nat.digitChar (n % 16))) = true := fun n =>
    isPrintable_digitChar _ (Nat.mod_lt n (by decide))
  have hmark : isPrintable (.scalar '\\') = true ∧ isPrintable (.scalar 'u') = true := by decide
  simp only [uEscape, ofChars, List.map_cons, List.map_nil, List.forall_mem_cons]
  exact ⟨hmark.1, hmark.2, hdigit _, hdigit _, hdigit _, hdigit _, List.forall_mem_nil _⟩

theorem shortEscape_printable {c e : Char} (h : shortEscape c = some e) :
    isPrintable (.scalar e) = true := by
  unfold shortEscape at h
  split_ifs at h
  all_goals
    cases h
    decide

/-- One character is written in printable characters. -/
theorem escape_printable {st : Style} (hascii : st.ensureAscii = true) (c : PyChar) :
    ∀ d ∈ escape st c, isPrintable d = true := by
  cases c with
  | surrogate low bits =>
    rw [escape, if_pos hascii]
    exact uEscape_printable _
  | scalar c =>
    rw [escape]
    cases hshort : shortEscape c with
    | some e =>
      intro d hd
      rcases List.mem_cons.mp hd with rfl | hd
      · decide
      · rw [List.mem_singleton.mp hd]
        exact shortEscape_printable hshort
    | none =>
      simp only [hascii, Bool.true_eq_false, or_false]
      split_ifs with hcontrol hprintable hbmp
      · exact uEscape_printable _
      · intro d hd
        rw [List.mem_singleton.mp hd]
        simp only [isPrintable, Bool.and_eq_true, decide_eq_true_eq]
        omega
      · exact uEscape_printable _
      · intro d hd
        rcases List.mem_append.mp hd with hd | hd
        · exact uEscape_printable _ d hd
        · exact uEscape_printable _ d hd

/-- The characters of a string literal: quotes, and what its characters are written in. -/
theorem dumpsStr_forall {st : Style} {P : PyChar → Prop} (hquote : P (.scalar '"'))
    (hescape : ∀ c, ∀ d ∈ escape st c, P d) (s : Str) : ∀ c ∈ dumpsStr st s, P c := by
  intro c hc
  rcases List.mem_cons.mp hc with rfl | hc
  · exact hquote
  rcases List.mem_append.mp hc with hc | hc
  · obtain ⟨d, -, hd⟩ := List.mem_flatMap.mp hc
    exact hescape d c hd
  · rw [List.mem_singleton.mp hc]
    exact hquote

/-- A string literal is written in printable characters. -/
theorem dumpsStr_printable {st : Style} (hascii : st.ensureAscii = true) (s : Str) :
    ∀ c ∈ dumpsStr st s, isPrintable c = true :=
  dumpsStr_forall (by decide) (escape_printable hascii) s

/-- A text is written as a text. -/
theorem isText_dumpsStr {st : Style} {s : Str} (h : isText s = true) :
    isText (dumpsStr st s) = true := by
  have hescape : ∀ c : PyChar, isScalar c = true → isText (escape st c) = true := by
    intro c hc
    cases c with
    | surrogate low bits => cases hc
    | scalar c =>
      have hunit : ∀ u, isText (uEscape u) = true := fun u => isText_ofChars _
      rw [escape]
      cases shortEscape c with
      | some e => rfl
      | none =>
        simp only
        split_ifs
        · exact hunit _
        · rfl
        · exact hunit _
        · rw [isText_append, hunit, hunit, Bool.and_self]
  have hbody : isText (s.flatMap (escape st)) = true := by
    simp only [isText, List.all_eq_true, List.mem_flatMap] at h ⊢
    rintro d ⟨c, hc, hd⟩
    exact List.all_eq_true.mp (hescape c (h c hc)) d hd
  rw [dumpsStr, isText_cons, isText_append, hbody]
  rfl

/-! ## Numbers -/

theorem isPrintable_digit {c : Char} (h : c.isDigit = true) : isPrintable (.scalar c) = true := by
  simp only [Char.isDigit, Bool.and_eq_true, decide_eq_true_eq] at h
  have hlow : 48 ≤ c.toNat := h.1
  have hhigh : c.toNat ≤ 57 := h.2
  simp only [isPrintable, Bool.and_eq_true, decide_eq_true_eq]
  omega

/-- A float literal has digits, a sign, a point and an exponent mark. -/
theorem FloatLit.Valid.mem_text {l : FloatLit} (h : l.Valid) :
    ∀ c ∈ l.text, c.isDigit = true ∨ c ∈ ['-', '+', '.', 'e', 'E'] := by
  -- the parts of the literal, one by one
  have hwhole : ∀ c ∈ l.whole, c.isDigit = true := by
    rcases h.whole with h | ⟨d, ds, -, -, h⟩
    · intro c hc
      rw [h] at hc
      rw [List.mem_singleton.mp hc]
      rfl
    · exact h
  have hsign : ∀ c ∈ (if l.neg then ['-'] else []), c = '-' := by
    intro c hc
    split_ifs at hc
    · exact List.mem_singleton.mp hc
    · cases hc
  have hfrac : ∀ c ∈ (if l.frac = [] then [] else '.' :: l.frac), c = '.' ∨ c.isDigit = true := by
    intro c hc
    split_ifs at hc
    · cases hc
    · rcases List.mem_cons.mp hc with rfl | hc
      · exact Or.inl rfl
      · exact Or.inr (h.frac c hc)
  have hexp : ∀ c ∈ l.exp, c.isDigit = true ∨ c ∈ ['-', '+', '.', 'e', 'E'] := by
    intro c hc
    -- no exponent, or a letter, perhaps a sign, and digits
    rcases h.exp with he | ⟨e, sign, ds, he, hcase, hs, -, hds⟩
    · rw [he] at hc
      cases hc
    · rw [he, List.mem_cons, List.mem_append] at hc
      rcases hc with rfl | hc | hc
      · right
        rcases hcase with rfl | rfl <;> decide
      · right
        rcases hs with rfl | rfl | rfl
        · cases hc
        · rw [List.mem_singleton.mp hc]
          decide
        · rw [List.mem_singleton.mp hc]
          decide
      · exact .inl (hds c hc)
  intro c hc
  simp only [FloatLit.text, List.mem_append] at hc
  -- a character is of one of the four parts
  rcases hc with ((hc | hc) | hc) | hc
  · rw [hsign c hc]
    exact .inr (by decide)
  · exact .inl (hwhole c hc)
  · rcases hfrac c hc with rfl | hc
    · exact .inr (by decide)
    · exact .inl hc
  · exact hexp c hc

theorem spell_printable {F : Type} [PyFloat F] (x : F) :
    ∀ c ∈ ofChars (PyFloat.spell x), isPrintable c = true := by
  have hmark : ∀ c ∈ ['-', '+', '.', 'e', 'E'], isPrintable (.scalar c) = true :=
    List.all_eq_true.mp (by decide)
  rcases PyFloat.spelled x with ⟨-, hx⟩ | ⟨-, hx⟩ | ⟨-, hx⟩ | ⟨l, hl, hx, -⟩
  · rw [hx]
    decide
  · rw [hx]
    decide
  · rw [hx]
    decide
  · rw [hx]
    intro c hc
    obtain ⟨d, hd, rfl⟩ := List.mem_map.mp hc
    rcases hl.mem_text d hd with hd | hd
    · exact isPrintable_digit hd
    · exact hmark d hd

theorem dumpsInt_printable (n : Int) : ∀ c ∈ dumpsInt n, isPrintable c = true := by
  have hdigits : ∀ m : Nat, ∀ c ∈ ofChars (Nat.toDigits 10 m), isPrintable c = true := by
    intro m c hc
    obtain ⟨d, hd, rfl⟩ := List.mem_map.mp hc
    exact isPrintable_digit (Nat.isDigit_of_mem_toDigits (by decide) (by decide) hd)
  cases n with
  | ofNat n => exact hdigits n
  | negSucc n =>
    intro c hc
    rcases List.mem_cons.mp hc with rfl | hc
    · decide
    · exact hdigits _ c hc

/-! ## Values -/

section Values

variable {F : Type} [PyFloat F] {st : Style}

theorem itemSep_printable (st : Style) : ∀ c ∈ st.itemSep, isPrintable c = true := by
  unfold Style.itemSep
  split_ifs <;> decide

theorem keySep_printable (st : Style) : ∀ c ∈ st.keySep, isPrintable c = true := by
  unfold Style.keySep
  split_ifs <;> decide

theorem isPrintable_brackets :
    isPrintable (.scalar '[') = true ∧ isPrintable (.scalar ']') = true ∧
      isPrintable (.scalar '\x7b') = true ∧ isPrintable (.scalar '\x7d') = true := by
  decide

section Characters

variable {P : PyChar → Prop}

mutual

/-- What holds of printable characters and of what characters are written in holds of all that a
value is written in. -/
theorem dumps_forall (hplain : ∀ c, isPrintable c = true → P c)
    (hescape : ∀ c, ∀ d ∈ escape st c, P d) : ∀ (v : Json F), ∀ c ∈ dumps st v, P c
  -- by the value: the constants and numbers are printable
  | .null => by
    rw [dumps]
    exact fun c hc => hplain c ((by decide : ∀ c ∈ lit "null", isPrintable c = true) c hc)
  | .bool true => by
    rw [dumps]
    exact fun c hc => hplain c ((by decide : ∀ c ∈ lit "true", isPrintable c = true) c hc)
  | .bool false => by
    rw [dumps]
    exact fun c hc => hplain c ((by decide : ∀ c ∈ lit "false", isPrintable c = true) c hc)
  | .int n => by
    rw [dumps]
    exact fun c hc => hplain c (dumpsInt_printable n c hc)
  | .float x => by
    rw [dumps]
    exact fun c hc => hplain c (spell_printable x c hc)
  -- in a string each character is escaped
  | .str s => by
    rw [dumps]
    exact dumpsStr_forall (hplain _ (by decide)) hescape s
  | .arr .nil => by
    rw [dumps]
    exact fun c hc => hplain c ((by decide : ∀ c ∈ lit "[]", isPrintable c = true) c hc)
  -- in arrays and objects the parts, and the brackets and separators between them
  | .arr (.cons x xs) => by
    obtain ⟨hopen, hclose, -, -⟩ := isPrintable_brackets
    simp only [dumps, List.forall_mem_cons, List.forall_mem_append]
    exact ⟨hplain _ hopen, dumps_forall hplain hescape x, dumpsElems_forall hplain hescape xs,
      hplain _ hclose, List.forall_mem_nil _⟩
  | .obj .nil => by
    rw [dumps]
    exact fun c hc =>
      hplain c ((by decide : ∀ c ∈ lit "\x7b\x7d", isPrintable c = true) c hc)
  | .obj (.cons k x ms) => by
    obtain ⟨-, -, hopen, hclose⟩ := isPrintable_brackets
    simp only [dumps, List.forall_mem_cons, List.forall_mem_append]
    exact ⟨hplain _ hopen, dumpsStr_forall (hplain _ (by decide)) hescape k,
      fun c hc => hplain c (keySep_printable st c hc), dumps_forall hplain hescape x,
      dumpsMembers_forall hplain hescape ms, hplain _ hclose, List.forall_mem_nil _⟩

theorem dumpsElems_forall (hplain : ∀ c, isPrintable c = true → P c)
    (hescape : ∀ c, ∀ d ∈ escape st c, P d) : ∀ (xs : Elems F), ∀ c ∈ dumpsElems st xs, P c
  | .nil => by
    rw [dumpsElems]
    exact List.forall_mem_nil _
  | .cons x xs => by
    simp only [dumpsElems, List.forall_mem_append]
    exact ⟨fun c hc => hplain c (itemSep_printable st c hc), dumps_forall hplain hescape x,
      dumpsElems_forall hplain hescape xs⟩

theorem dumpsMembers_forall (hplain : ∀ c, isPrintable c = true → P c)
    (hescape : ∀ c, ∀ d ∈ escape st c, P d) : ∀ (ms : Members F), ∀ c ∈ dumpsMembers st ms, P c
  | .nil => by
    rw [dumpsMembers]
    exact List.forall_mem_nil _
  | .cons k x ms => by
    simp only [dumpsMembers, List.forall_mem_append]
    exact ⟨fun c hc => hplain c (itemSep_printable st c hc),
      dumpsStr_forall (hplain _ (by decide)) hescape k,
      fun c hc => hplain c (keySep_printable st c hc), dumps_forall hplain hescape x,
      dumpsMembers_forall hplain hescape ms⟩

end

end Characters

/-- With `ensure_ascii` a value is written in printable characters. -/
theorem dumps_printable (hascii : st.ensureAscii = true) (v : Json F) :
    ∀ c ∈ dumps st v, isPrintable c = true :=
  dumps_forall (fun _ hc => hc) (escape_printable hascii) v

end Values

end PyJson
