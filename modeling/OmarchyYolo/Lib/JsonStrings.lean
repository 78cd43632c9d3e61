import OmarchyYolo.Lib.Json

/-!
# OmarchyYolo.Lib.JsonStrings — string literals read back

What scanning a written string literal returns (`scanString_dumpsStr`). With
`ensure_ascii` every surrogate is written as an escape, and the scanner joins
two escapes that form a pair: a string comes back as `joinSurrogates` of
itself, which is the string exactly when it holds no split pair (`PairFree`).
-/

namespace PyJson

open Py

/-! ## Split pairs -/

/-- Each high surrogate directly followed by a low one becomes one character. -/
def joinSurrogates : Str → Str
  | [] => []
  | .surrogate false hi :: .surrogate true lo :: s =>
    .scalar (joinUnits (surrogateUnit false hi) (surrogateUnit true lo)) :: joinSurrogates s
  | c :: s => c :: joinSurrogates s

/-- No high surrogate is directly followed by a low one. -/
def PairFree : Str → Prop
  | [] => True
  | .surrogate false _ :: .surrogate true _ :: _ => False
  | _ :: s => PairFree s

/-- The string a written string reads back as. -/
def Style.readStr (st : Style) (s : Str) : Str :=
  if st.ensureAscii then joinSurrogates s else s

theorem length_joinSurrogates_le (s : Str) : (joinSurrogates s).length ≤ s.length := by
  induction s using joinSurrogates.induct with
  | case1 => simp [joinSurrogates]
  | case2 hi lo s ih =>
    simp only [joinSurrogates, List.length_cons]
    omega
  | case3 c s hne ih =>
    rw [joinSurrogates]
    · simp only [List.length_cons]
      omega
    · exact hne

theorem length_joinSurrogates_lt {s : Str} (h : ¬ PairFree s) :
    (joinSurrogates s).length < s.length := by
  induction s using joinSurrogates.induct with
  | case1 => exact absurd trivial h
  | case2 hi lo s ih =>
    have hle := length_joinSurrogates_le s
    simp only [joinSurrogates, List.length_cons]
    omega
  | case3 c s hne ih =>
    have hs : ¬ PairFree s := by
      rwa [PairFree] at h
      exact hne
    rw [joinSurrogates]
    · have := ih hs
      simp only [List.length_cons]
      omega
    · exact hne

/-- A string that can be encoded holds no surrogates at all. -/
theorem pairFree_of_isText {s : Str} (h : isText s = true) : PairFree s := by
  induction s using PairFree.induct with
  | case1 => trivial
  | case2 hi lo s => cases h
  | case3 c s hne ih =>
    rw [isText_cons, Bool.and_eq_true] at h
    rw [PairFree]
    · exact ih h.2
    · exact hne

theorem joinSurrogates_eq {s : Str} (h : PairFree s) : joinSurrogates s = s := by
  induction s using joinSurrogates.induct with
  | case1 => rfl
  | case2 hi lo s ih => exact absurd h (by simp [PairFree])
  | case3 c s hne ih =>
    have hs : PairFree s := by
      rwa [PairFree] at h
      exact hne
    rw [joinSurrogates, ih hs]
    exact hne

/-! ## Escapes -/

theorem hexVal_digitChar : ∀ d < 16, hexVal (.scalar (Nat.digitChar d)) = some d := by
  decide

/-- The four digits of a code unit read back as the unit. -/
theorem scanBody_uEscape {u : Nat} (hu : u < 0x10000) (rest : Str) :
    scanBody (uEscape u ++ rest) = (scanBody rest).map fun p => (.unit u :: p.1, p.2) := by
  have h4 : hex4 (.scalar (Nat.digitChar (u / 4096 % 16))) (.scalar (Nat.digitChar (u / 256 % 16)))
      (.scalar (Nat.digitChar (u / 16 % 16))) (.scalar (Nat.digitChar (u % 16))) = some u := by
    simp only [hex4, hexVal_digitChar _ (Nat.mod_lt _ (by decide : 0 < 16))]
    congr 1
    omega
  show scanBody (.scalar '\\' :: .scalar 'u' :: .scalar _ :: .scalar _ :: .scalar _ ::
    .scalar _ :: rest) = _
  rw [scanBody, h4]

theorem surrogateUnit_lt (low : Bool) (bits : Fin 1024) : surrogateUnit low bits < 0x10000 := by
  have := bits.isLt
  cases low <;> simp [surrogateUnit] <;> omega

/-- The pieces one character is written as. -/
def piecesOf (st : Style) : PyChar → List Piece
  | .surrogate low bits =>
    if st.ensureAscii then [.unit (surrogateUnit low bits)] else [.raw (.surrogate low bits)]
  | .scalar c =>
    match shortEscape c with
    | some _ => [.raw (.scalar c)]
    | none =>
      if c.toNat < 0x20 then [.unit c.toNat]
      else if c.toNat < 0x7f ∨ st.ensureAscii = false then [.raw (.scalar c)]
      else if c.toNat < 0x10000 then [.unit c.toNat]
      else [.unit (surrogateUnit false ((c.toNat - 0x10000) / 1024)),
        .unit (surrogateUnit true ((c.toNat - 0x10000) % 1024))]

/-- A short escape is undone by `shortUnescape`. -/
theorem shortUnescape_shortEscape {c e : Char} (h : shortEscape c = some e) :
    shortUnescape (.scalar e) = some c ∧ e ≠ 'u' := by
  unfold shortEscape at h
  split_ifs at h with h1 h2 h3 h4 h5 h6 h7
  all_goals
    cases h
    subst c
    decide

theorem char_toNat_lt (c : Char) : c.toNat < 0x110000 := by
  rcases c.valid with h | h
  · have : c.toNat < 0xd800 := h
    omega
  · exact h.2

/-- A character that is neither the quote, the backslash nor a control character
stands for itself. -/
theorem scanBody_raw {c : PyChar} (hq : c ≠ .scalar '"') (hb : c ≠ .scalar '\\')
    (hc : isControl c = false) (rest : Str) :
    scanBody (c :: rest) = (scanBody rest).map fun p => (.raw c :: p.1, p.2) := by
  rw [scanBody.eq_def]
  split <;> simp_all

/-- A backslash and a character other than `u`. -/
theorem scanBody_short {e : Char} (hu : e ≠ 'u') (rest : Str) :
    scanBody (.scalar '\\' :: .scalar e :: rest) = (shortUnescape (.scalar e)).bind fun c =>
      (scanBody rest).map fun p => (.raw (.scalar c) :: p.1, p.2) := by
  rw [scanBody]
  · cases shortUnescape (.scalar e) with
    | none => rfl
    | some c => rfl
  · rintro a b c d rest' h
    exact fun _ => hu (by simpa using h)

theorem scanBody_escape (st : Style) (c : PyChar) (rest : Str) :
    scanBody (escape st c ++ rest) =
      (scanBody rest).map fun p => (piecesOf st c ++ p.1, p.2) := by
  -- a surrogate, which has an escape in ASCII only, or a character
  cases c with
  | surrogate low bits =>
    cases hA : st.ensureAscii with
    | true =>
      simp only [escape, piecesOf, hA, if_true, scanBody_uEscape (surrogateUnit_lt low bits)]
      rfl
    | false =>
      simp only [escape, piecesOf, hA, Bool.false_eq_true, if_false, List.singleton_append]
      exact scanBody_raw (by simp) (by simp) rfl rest
  | scalar c =>
    -- a character with a short escape
    cases hs : shortEscape c with
    | some e =>
      obtain ⟨hun, hu⟩ := shortUnescape_shortEscape hs
      simp only [escape, piecesOf, hs, List.cons_append, List.nil_append]
      rw [scanBody_short hu, hun, Option.bind_some]
    -- a control character, a printable one, one of a single escape, or an astral one
    | none =>
      have hc : c.toNat < 0x110000 := char_toNat_lt c
      simp only [escape, piecesOf, hs]
      split_ifs with h1 h2 h3
      · rw [scanBody_uEscape (by omega)]
        rfl
      · -- a printable character: not a quote or a backslash, these have short escapes
        refine scanBody_raw ?_ ?_ ?_ rest
        -- the quote and the backslash
        · rintro h
          cases h
          simp [shortEscape] at hs
        · rintro h
          cases h
          simp [shortEscape] at hs
        · simpa [isControl] using h1
      · rw [scanBody_uEscape h3]
        rfl
      · -- an astral character: two escapes
        rw [List.append_assoc, scanBody_uEscape, scanBody_uEscape]
        · cases scanBody rest <;> rfl
        · have := Nat.mod_lt (c.toNat - 0x10000) (by decide : 0 < 1024)
          simp only [surrogateUnit, if_true]
          omega
        · simp only [surrogateUnit, Bool.false_eq_true, if_false]
          omega

theorem scanBody_flatMap (st : Style) (s : Str) (rest : Str) :
    scanBody (s.flatMap (escape st) ++ .scalar '"' :: rest) =
      some (s.flatMap (piecesOf st), rest) := by
  induction s with
  | nil => rfl
  | cons c s ih =>
    rw [List.flatMap_cons, List.append_assoc, scanBody_escape, ih]
    rfl

/-! ## Joining the pieces -/

/-- The first piece is not an escaped low surrogate. -/
def NoLowHead : List Piece → Prop
  | .unit u :: _ => isLowUnit u = false
  | _ => True

theorem joinPieces_unit {u : Nat} {ps : List Piece}
    (h : isHighUnit u = false ∨ NoLowHead ps) :
    joinPieces (.unit u :: ps) = ofUnit u :: joinPieces ps := by
  rcases ps with _ | ⟨_ | lo, ps⟩
  · rfl
  · rfl
  · rw [joinPieces, if_neg]
    rcases h with h | h
    · simp [h]
    · have : isLowUnit lo = false := h
      simp [this]

theorem isHighUnit_surrogateUnit (low : Bool) {bits : Nat} (h : bits < 1024) :
    isHighUnit (surrogateUnit low bits) = !low ∧ isLowUnit (surrogateUnit low bits) = low := by
  cases low <;> simp [isHighUnit, isLowUnit, surrogateUnit] <;> omega

theorem ofUnit_surrogateUnit (low : Bool) (bits : Fin 1024) :
    ofUnit (surrogateUnit low bits) = .surrogate low bits := by
  obtain ⟨hhi, hlo⟩ := isHighUnit_surrogateUnit low bits.isLt
  cases low with
  | false =>
    rw [ofUnit, hhi]
    simp [surrogateUnit]
  | true =>
    rw [ofUnit, hhi, hlo]
    simp [surrogateUnit]

/-- A scalar value is not in the surrogate range. -/
theorem isHighUnit_toNat (c : Char) : isHighUnit c.toNat = false ∧ isLowUnit c.toNat = false := by
  have h : c.toNat < 0xd800 ∨ 0xdfff < c.toNat := by
    rcases c.valid with h | h
    · exact Or.inl h
    · exact Or.inr h.1
  simp only [isHighUnit, isLowUnit, Bool.and_eq_false_iff, decide_eq_false_iff_not]
  omega

theorem ofUnit_toNat (c : Char) : ofUnit c.toNat = .scalar c := by
  obtain ⟨hhi, hlo⟩ := isHighUnit_toNat c
  simp [ofUnit, hhi, hlo]

/-- The two halves of an astral character join to it. -/
theorem joinUnits_halves {c : Char} (h : 0x10000 ≤ c.toNat) :
    joinUnits (surrogateUnit false ((c.toNat - 0x10000) / 1024))
      (surrogateUnit true ((c.toNat - 0x10000) % 1024)) = c := by
  have hsum : 0x10000 + (0xd800 + (c.toNat - 0x10000) / 1024 - 0xd800) * 1024 +
      (0xdc00 + (c.toNat - 0x10000) % 1024 - 0xdc00) = c.toNat := by omega
  simp only [joinUnits, surrogateUnit, if_true, Bool.false_eq_true, if_false]
  rw [hsum, Char.ofNat_toNat]

theorem joinPieces_pair {hi lo : Nat} (hhi : hi < 1024) (hlo : lo < 1024) (ps : List Piece) :
    joinPieces (.unit (surrogateUnit false hi) :: .unit (surrogateUnit true lo) :: ps) =
      .scalar (joinUnits (surrogateUnit false hi) (surrogateUnit true lo)) :: joinPieces ps := by
  rw [joinPieces, (isHighUnit_surrogateUnit false hhi).1, (isHighUnit_surrogateUnit true hlo).2]
  rfl

/-- A scalar value comes back from its pieces, whatever follows. -/
theorem joinPieces_scalar (st : Style) (c : Char) (ps : List Piece) :
    joinPieces (piecesOf st (.scalar c) ++ ps) = .scalar c :: joinPieces ps := by
  have hc := char_toNat_lt c
  have hunit : joinPieces (.unit c.toNat :: ps) = .scalar c :: joinPieces ps := by
    rw [joinPieces_unit (Or.inl (isHighUnit_toNat c).1), ofUnit_toNat]
  cases hs : shortEscape c with
  | some e =>
    simp only [piecesOf, hs]
    rfl
  | none =>
    simp only [piecesOf, hs]
    split_ifs with h1 h2 h3
    · exact hunit
    · rfl
    · exact hunit
    · have h4 : 0x10000 ≤ c.toNat := by omega
      rw [List.cons_append, List.cons_append, List.nil_append, joinPieces_pair (by omega)
        (Nat.mod_lt _ (by decide)), joinUnits_halves h4]

/-- No character but a low surrogate starts with an escaped low unit. -/
theorem noLowHead_pieces {st : Style} {c : PyChar} (h : ∀ lo, c ≠ .surrogate true lo)
    (ps : List Piece) : NoLowHead (piecesOf st c ++ ps) := by
  cases c with
  | surrogate low bits =>
    cases low with
    | true => exact absurd rfl (h bits)
    | false =>
      cases hA : st.ensureAscii with
      | true =>
        simp only [piecesOf, hA, if_true]
        exact (isHighUnit_surrogateUnit false bits.isLt).2
      | false =>
        simp only [piecesOf, hA, Bool.false_eq_true, if_false]
        exact trivial
  | scalar c =>
    have hc := char_toNat_lt c
    cases hs : shortEscape c with
    | some e =>
      simp only [piecesOf, hs]
      exact trivial
    | none =>
      simp only [piecesOf, hs]
      split_ifs with h1 h2 h3
      · exact (isHighUnit_toNat c).2
      · exact trivial
      · exact (isHighUnit_toNat c).2
      · exact (isHighUnit_surrogateUnit false (by omega)).2

theorem joinPieces_flatMap (st : Style) (hA : st.ensureAscii = true) (s : Str) :
    joinPieces (s.flatMap (piecesOf st)) = joinSurrogates s := by
  have hsur : ∀ low bits, piecesOf st (.surrogate low bits) = [.unit (surrogateUnit low bits)] := by
    intro low bits
    simp [piecesOf, hA]
  induction s using joinSurrogates.induct with
  | case1 => rfl
  | case2 hi lo s ih =>
    rw [List.flatMap_cons, List.flatMap_cons, hsur, hsur, joinSurrogates]
    show joinPieces (.unit _ :: .unit _ :: s.flatMap (piecesOf st)) = _
    rw [joinPieces_pair hi.isLt lo.isLt, ih]
  | case3 c s hne ih =>
    rw [List.flatMap_cons, joinSurrogates]
    · cases c with
      | scalar c => rw [joinPieces_scalar, ih]
      | surrogate low bits =>
        rw [hsur, List.singleton_append, joinPieces_unit, ofUnit_surrogateUnit, ih]
        cases low with
        | true => exact Or.inl (isHighUnit_surrogateUnit true bits.isLt).1
        | false =>
          -- a lone high surrogate: the next character is not a low one
          right
          cases s with
          | nil => exact trivial
          | cons d s =>
            refine noLowHead_pieces (fun lo hd => ?_) _
            subst hd
            exact hne bits lo s rfl rfl
    · exact hne

theorem joinPieces_flatMap_raw (st : Style) (hA : st.ensureAscii = false) (s : Str) :
    joinPieces (s.flatMap (piecesOf st)) = s := by
  induction s with
  | nil => rfl
  | cons c s ih =>
    rw [List.flatMap_cons]
    cases c with
    | scalar c => rw [joinPieces_scalar, ih]
    | surrogate low bits =>
      have hsur : piecesOf st (.surrogate low bits) = [.raw (.surrogate low bits)] := by
        simp [piecesOf, hA]
      rw [hsur]
      show .surrogate low bits :: joinPieces (s.flatMap (piecesOf st)) = _
      rw [ih]

/-- A written string literal reads back as `readStr` of the string. -/
theorem scanString_dumpsStr (st : Style) (s rest : Str) :
    scanString (s.flatMap (escape st) ++ .scalar '"' :: rest) = some (st.readStr s, rest) := by
  rw [scanString, scanBody_flatMap, Option.map_some]
  cases hA : st.ensureAscii with
  | true => rw [joinPieces_flatMap st hA, Style.readStr, if_pos hA]
  | false => rw [joinPieces_flatMap_raw st hA, Style.readStr, hA, if_neg (by simp)]

end PyJson
