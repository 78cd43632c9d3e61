import OmarchyYolo.Lib.JsonQuotes

/-!
# OmarchyYolo.Lib.JsonLocal — what a decode depends on

The scanner looks at nothing behind what it reads, but for the character behind a number. So an
object that is decoded in front of one text is decoded in front of any other.

* `exists_literal` — what has been read as a number is the text of a literal;
* `scanValue_local` — a value is read in front of any text that does not continue a number;
* `rawDecode_local` — an object is decoded in front of any text.
-/

namespace PyJson

open Py

variable {F : Type}

/-! ## Numbers -/

theorem scanWhole_eq {text rest : Str} {ds : List Char} (h : scanWhole text = some (ds, rest)) :
    IsWhole ds ∧ text = ofChars ds ++ rest := by
  unfold scanWhole at h
  split at h
  · rename_i c rest'
    split_ifs at h with hzero hdigit
    · cases h
      exact ⟨Or.inl rfl, by rw [hzero]; rfl⟩
    · cases h
      obtain ⟨heq, hdigits⟩ := spanDigits_eq rest'
      constructor
      · right
        refine ⟨c, _, rfl, hzero, ?_⟩
        intro d hd
        rcases List.mem_cons.mp hd with rfl | hd
        · exact hdigit
        · exact hdigits d hd
      · exact congrArg (PyChar.scalar c :: ·) heq
  · cases h

theorem scanFrac_eq (text : Str) :
    (∀ c ∈ (scanFrac text).1, c.isDigit = true) ∧
      text = (if (scanFrac text).1 = [] then [] else .scalar '.' :: ofChars (scanFrac text).1) ++
        (scanFrac text).2 := by
  unfold scanFrac
  split
  · rename_i rest
    obtain ⟨heq, hdigits⟩ := spanDigits_eq rest
    split
    · exact ⟨List.forall_mem_nil _, rfl⟩
    · rename_i ds rest' hne hspan
      rw [hspan] at heq hdigits
      have hds : ds ≠ [] := by
        rintro rfl
        exact hne rfl
      refine ⟨hdigits, ?_⟩
      rw [if_neg hds]
      exact congrArg (PyChar.scalar '.' :: ·) heq
  · exact ⟨List.forall_mem_nil _, rfl⟩

theorem scanSign_eq (text : Str) :
    ((scanSign text).1 = [] ∨ (scanSign text).1 = ['+'] ∨ (scanSign text).1 = ['-']) ∧
      text = ofChars (scanSign text).1 ++ (scanSign text).2 := by
  unfold scanSign
  split
  · split_ifs with hsign
    · rcases hsign with rfl | rfl
      · exact ⟨Or.inr (Or.inl rfl), rfl⟩
      · exact ⟨Or.inr (Or.inr rfl), rfl⟩
    · exact ⟨Or.inl rfl, rfl⟩
  · exact ⟨Or.inl rfl, rfl⟩

theorem scanExp_eq (text : Str) :
    ((scanExp text).1 = [] ∨ IsExponent (scanExp text).1) ∧
      text = ofChars (scanExp text).1 ++ (scanExp text).2 := by
  unfold scanExp
  split
  · rename_i e rest
    split_ifs with hletter
    · obtain ⟨hsign, hrest⟩ := scanSign_eq rest
      obtain ⟨heq, hdigits⟩ := spanDigits_eq (scanSign rest).2
      split
      · exact ⟨Or.inl rfl, rfl⟩
      · rename_i ds rest' hne hspan
        rw [hspan] at heq hdigits
        have hds : ds ≠ [] := by
          rintro rfl
          exact hne rfl
        constructor
        · exact Or.inr ⟨e, _, ds, rfl, hletter, hsign, hds, hdigits⟩
        · have hbehind : rest = ofChars (scanSign rest).1 ++ (ofChars ds ++ rest') := by
            rw [← heq]
            exact hrest
          change PyChar.scalar e :: rest = .scalar e :: (ofChars ((scanSign rest).1 ++ ds) ++ rest')
          rw [ofChars, List.map_append, List.append_assoc]
          exact congrArg (PyChar.scalar e :: ·) hbehind
    · exact ⟨Or.inl rfl, rfl⟩
  · exact ⟨Or.inl rfl, rfl⟩

variable [PyFloat F]

/-- What has been read as a number is the text of a literal. -/
theorem exists_literal {text rest : Str} {x : Json F} (h : scanNumber text = some (x, rest)) :
    ∃ l : FloatLit, IsWhole l.whole ∧ (∀ c ∈ l.frac, c.isDigit = true) ∧
      (l.exp = [] ∨ IsExponent l.exp) ∧ text = ofChars l.text ++ rest ∧
      x = numberValue l.neg l.whole l.frac l.exp := by
  have hunsigned : ∀ {neg : Bool} {text : Str}, scanUnsigned neg text = some (x, rest) →
      ∃ l : FloatLit, l.neg = neg ∧ IsWhole l.whole ∧ (∀ c ∈ l.frac, c.isDigit = true) ∧
        (l.exp = [] ∨ IsExponent l.exp) ∧
        text = ofChars (l.whole ++ (if l.frac = [] then [] else '.' :: l.frac) ++ l.exp) ++ rest ∧
        x = numberValue l.neg l.whole l.frac l.exp := by
    intro neg text h
    obtain ⟨⟨whole, behind⟩, hwhole, heq⟩ := Option.map_eq_some_iff.mp h
    cases heq
    obtain ⟨hw, htext⟩ := scanWhole_eq hwhole
    obtain ⟨hfrac, hbehind⟩ := scanFrac_eq behind
    obtain ⟨hexp, hlast⟩ := scanExp_eq (scanFrac behind).2
    refine ⟨⟨neg, whole, (scanFrac behind).1, (scanExp (scanFrac behind).2).1⟩, rfl, hw, hfrac,
      hexp, ?_, rfl⟩
    rw [htext]
    simp only [ofChars, List.map_append, List.append_assoc]
    refine congrArg (List.map PyChar.scalar whole ++ ·) ?_
    conv_lhs => rw [hbehind, hlast]
    split_ifs <;> rfl
  unfold scanNumber at h
  split at h
  · obtain ⟨l, hneg, hw, hf, he, rfl, hx⟩ := hunsigned h
    exact ⟨l, hw, hf, he, by rw [FloatLit.text, hneg]; rfl, hx⟩
  · obtain ⟨l, hneg, hw, hf, he, rfl, hx⟩ := hunsigned h
    exact ⟨l, hw, hf, he, by rw [FloatLit.text, hneg]; rfl, hx⟩

theorem scanAtom_local {text rest : Str} {x : Json F} (h : scanAtom text = some (x, rest)) :
    ∃ c, c ≠ [] ∧ text = c ++ rest ∧
      ∀ rest', NumEnd rest' → scanAtom (c ++ rest') = some (x, rest') := by
  unfold scanAtom at h
  repeat' split at h
  case h_2 =>
    -- a number
    obtain ⟨l, hw, hf, he, rfl, rfl⟩ := exists_literal h
    refine ⟨ofChars l.text, ?_, rfl, fun rest' hend => scanAtom_literal hw hf he hend⟩
    obtain ⟨d, ds, hds, -⟩ := hw.head
    intro hnil
    rw [ofChars, List.map_eq_nil_iff, FloatLit.text, hds] at hnil
    simp at hnil
  all_goals
    rename_i hword
    cases h
    exact ⟨_, List.cons_ne_nil _ _, afterWord_eq hword, fun rest' _ => rfl⟩

/-! ## Strings and white space -/

theorem scanBody_local {text : Str} : ∀ {p : List Piece × Str}, scanBody text = some p →
    ∃ c, text = c ++ p.2 ∧ ∀ rest', scanBody (c ++ rest') = some (p.1, rest') := by
  -- by the cases of `scanBody`: what is read in front of the closing quote is read again
  -- whatever follows
  induction text using scanBody.induct with
  | case1 =>
    intro p h
    cases h
  | case2 rest =>
    -- the closing quote
    intro p h
    cases h
    exact ⟨[.scalar '"'], rfl, fun rest' => rfl⟩
  -- `\u` with digits that are none
  | case3 a b c d rest hnone =>
    intro p h
    rw [scanBody, hnone] at h
    cases h
  -- `\u` and four digits: six characters, then the rest of the body
  | case4 a b c d rest u hu ih =>
    intro p h
    rw [scanBody, hu] at h
    obtain ⟨p, hp, rfl⟩ := Option.map_eq_some_iff.mp h
    obtain ⟨front, rfl, hlocal⟩ := ih hp
    refine ⟨.scalar '\\' :: .scalar 'u' :: a :: b :: c :: d :: front, rfl, ?_⟩
    intro rest'
    rw [List.cons_append, List.cons_append, List.cons_append, List.cons_append, List.cons_append,
      List.cons_append, scanBody, hu]
    simp only [hlocal rest', Option.map_some]
  -- an escape that names no character
  | case5 e rest hu hnone =>
    intro p h
    rw [scanBody] at h
    · rw [hnone] at h
      cases h
    · exact hu
  -- a short escape: two characters, then the rest of the body
  | case6 e rest hu c hc ih =>
    intro p h
    rw [scanBody] at h
    · rw [hc] at h
      obtain ⟨p, hp, rfl⟩ := Option.map_eq_some_iff.mp h
      obtain ⟨front, rfl, hlocal⟩ := ih hp
      refine ⟨.scalar '\\' :: e :: front, rfl, ?_⟩
      intro rest'
      rw [List.cons_append, List.cons_append, scanBody]
      · rw [hc]
        simp only [hlocal rest', Option.map_some]
      · -- a short escape is no `\u`
        intro a b d d' rest heq _
        rw [heq] at hc
        cases hc
    · exact hu
  -- a control character is refused
  | case7 c rest hq _ hb hcontrol =>
    intro p h
    rw [scanBody, if_pos hcontrol] at h
    · cases h
    · exact hq
    · assumption
    · exact hb
  -- any other character stands for itself
  | case8 c rest hq _ hb hcontrol ih =>
    intro p h
    rw [scanBody, if_neg hcontrol] at h
    · obtain ⟨p, hp, rfl⟩ := Option.map_eq_some_iff.mp h
      obtain ⟨front, rfl, hlocal⟩ := ih hp
      -- a lone backslash at the end of the text has no closing quote
      have hback : c ≠ .scalar '\\' := by
        rintro rfl
        cases hrest : front ++ p.2 with
        | nil =>
          rw [hrest] at hp
          cases hp
        | cons e rest => exact hb e rest rfl hrest
      refine ⟨c :: front, rfl, ?_⟩
      intro rest'
      rw [List.cons_append, scanBody_raw hq hback (Bool.eq_false_iff.mpr hcontrol), hlocal]
      rfl
    · exact hq
    · assumption
    · exact hb

theorem scanString_local {text rest s : Str} (h : scanString text = some (s, rest)) :
    ∃ c, text = c ++ rest ∧ ∀ rest', scanString (c ++ rest') = some (s, rest') := by
  obtain ⟨p, hp, heq⟩ := Option.map_eq_some_iff.mp h
  cases heq
  obtain ⟨c, htext, hlocal⟩ := scanBody_local hp
  refine ⟨c, htext, ?_⟩
  intro rest'
  rw [scanString, hlocal]
  rfl

/-- White space in front of what has been read. -/
theorem skipWs_local {text c rest : Str} (h : skipWs text = c ++ rest) (hc : c ≠ []) :
    ∃ w, text = w ++ (c ++ rest) ∧ (∀ d ∈ w, isWs d = true) ∧
      ∀ rest', skipWs (w ++ (c ++ rest')) = c ++ rest' := by
  obtain ⟨d, c, rfl⟩ := List.exists_cons_of_ne_nil hc
  have hd : isWs d = false := by
    have hhead : ∀ l : Str, ∀ t, skipWs l = d :: t → isWs d = false := by
      intro l
      induction l with
      | nil =>
        intro t h
        cases h
      | cons e l ih =>
        intro t h
        rw [skipWs] at h
        cases he : isWs e with
        | true =>
          rw [List.dropWhile_cons_of_pos he] at h
          exact ih t h
        | false =>
          rw [List.dropWhile_cons_of_neg (by simp [he])] at h
          cases h
          exact he
    exact hhead text _ h
  have hws : ∀ e ∈ text.takeWhile isWs, isWs e = true := List.all_eq_true.mp List.all_takeWhile
  refine ⟨text.takeWhile isWs, ?_, hws, ?_⟩
  · rw [← h, skipWs, List.takeWhile_append_dropWhile]
  · intro rest'
    rw [skipWs, List.dropWhile_append_of_pos hws, List.cons_append]
    exact skipWs_cons hd _

theorem isNumChar_of_isWs {c : PyChar} (h : isWs c = true) : isNumChar c = false := by
  cases c with
  | surrogate low bits => cases h
  | scalar c =>
    simp only [isWs, Bool.or_eq_true, beq_iff_eq] at h
    rcases h with ((rfl | rfl) | rfl) | rfl <;> decide

theorem numEnd_append {w t : Str} (hw : ∀ d ∈ w, isWs d = true) (ht : NumEnd t) :
    NumEnd (w ++ t) := by
  cases w with
  | nil => exact ht
  | cons d w => exact numEnd_cons (isNumChar_of_isWs (hw d List.mem_cons_self)) _

/-! ## Containers -/

/-- A container that does not end at once does not end at once in front of another text. -/
theorem skipWs_ne {c close : PyChar} {text rest : Str} (h : skipWs text = c :: rest)
    (hne : ∀ r, skipWs text ≠ close :: r) (rest' : Str) : ∀ r, c :: rest' ≠ close :: r := by
  rintro r heq
  cases heq
  exact hne rest h

mutual

/-- A value is read in front of any text that does not continue a number; an object in front of
any text. -/
theorem scanValue_local : ∀ {n : Nat} {text rest : Str} {x : Json F},
    scanValue n text = some (x, rest) →
      ∃ c, c ≠ [] ∧ text = c ++ rest ∧
        ∀ rest', (∃ body, text = .scalar '{' :: body) ∨ NumEnd rest' →
          scanValue n (c ++ rest') = some (x, rest')
  -- without fuel nothing is read
  | 0, _, _, _, h => by
    rw [scanValue] at h
    cases h
  | n + 1, text, rest, x, h => by
    unfold scanValue at h
    split at h
    · -- a string
      obtain ⟨p, hp, heq⟩ := Option.map_eq_some_iff.mp h
      cases heq
      obtain ⟨c, rfl, hlocal⟩ := scanString_local hp
      refine ⟨.scalar '"' :: c, List.cons_ne_nil _ _, rfl, ?_⟩
      intro rest' _
      rw [List.cons_append, scanValue, hlocal]
      rfl
    · -- an object
      rename_i body
      split at h
      · rename_i rest₀ hskip
        cases h
        -- empty: the brace that closes it follows the blanks
        obtain ⟨w, rfl, -, hlocal⟩ := skipWs_local (c := [.scalar '}']) hskip (List.cons_ne_nil _ _)
        refine ⟨.scalar '{' :: (w ++ [.scalar '}']), List.cons_ne_nil _ _, by simp, ?_⟩
        intro rest' _
        rw [List.cons_append, List.append_assoc, scanValue, hlocal]
        rfl
      · rename_i hopen
        obtain ⟨c, hc, hbody, hlocal⟩ := scanMembers_local h
        obtain ⟨w, rfl, -, hskip⟩ := skipWs_local hbody hc
        refine ⟨.scalar '{' :: (w ++ c), List.cons_ne_nil _ _, by simp, ?_⟩
        intro rest' _
        rw [List.cons_append, List.append_assoc, scanValue, hskip]
        split
        · rename_i r heq
          -- what follows does not close the object, since a member comes first
          obtain ⟨d, c, rfl⟩ := List.exists_cons_of_ne_nil hc
          exact absurd heq (skipWs_ne hbody hopen (c ++ rest') r)
        · exact hlocal rest'
    · -- an array
      rename_i body
      split at h
      · rename_i rest₀ hskip
        cases h
        -- empty: the bracket that closes it follows the blanks
        obtain ⟨w, rfl, -, hlocal⟩ := skipWs_local (c := [.scalar ']']) hskip (List.cons_ne_nil _ _)
        refine ⟨.scalar '[' :: (w ++ [.scalar ']']), List.cons_ne_nil _ _, by simp, ?_⟩
        intro rest' _
        rw [List.cons_append, List.append_assoc, scanValue, hlocal]
        rfl
      · rename_i hopen
        obtain ⟨c, hc, hbody, hlocal⟩ := scanElems_local h
        obtain ⟨w, rfl, -, hskip⟩ := skipWs_local hbody hc
        refine ⟨.scalar '[' :: (w ++ c), List.cons_ne_nil _ _, by simp, ?_⟩
        intro rest' _
        rw [List.cons_append, List.append_assoc, scanValue, hskip]
        split
        · rename_i r heq
          -- what follows does not close the array, since an element comes first
          obtain ⟨d, c, rfl⟩ := List.exists_cons_of_ne_nil hc
          exact absurd heq (skipWs_ne hbody hopen (c ++ rest') r)
        · exact hlocal rest'
    · -- a constant or a number: what it begins with stays
      rename_i hstring hobject harray
      obtain ⟨c, hc, rfl, hlocal⟩ := scanAtom_local h
      refine ⟨c, hc, rfl, ?_⟩
      obtain ⟨d, c, rfl⟩ := List.exists_cons_of_ne_nil hc
      rintro rest' (⟨body, hbody⟩ | hend)
      · exact absurd hbody (hobject body)
      rw [scanValue]
      · exact hlocal rest' hend
      -- the atom begins with no quote, brace or bracket
      · rintro r hr
        cases hr
        exact hstring _ rfl
      · rintro r hr
        cases hr
        exact hobject _ rfl
      · rintro r hr
        cases hr
        exact harray _ rfl

theorem scanMembers_local : ∀ {n : Nat} {acc : Members F} {text rest : Str} {x : Json F},
    scanMembers n acc text = some (x, rest) →
      ∃ c, c ≠ [] ∧ text = c ++ rest ∧ ∀ rest', scanMembers n acc (c ++ rest') = some (x, rest')
  | 0, _, _, _, _, h => by
    rw [scanMembers] at h
    cases h
  | n + 1, acc, text, rest, x, h => by
    unfold scanMembers at h
    split at h
    · rename_i body
      split at h
      · cases h
      · rename_i k afterKey hkey
        split at h
        · rename_i afterColon hcolon
          split at h
          · cases h
          · rename_i y afterValue hvalue
            -- from the end: the members behind, the value, the colon, the key
            obtain ⟨c₃, hc₃, htext₃, hlocal₃⟩ := scanMembersRest_local h
            obtain ⟨w₃, rfl, hw₃, hskip₃⟩ := skipWs_local htext₃ hc₃.1
            obtain ⟨c₂, hc₂, htext₂, hlocal₂⟩ := scanValue_local hvalue
            obtain ⟨w₂, rfl, -, hskip₂⟩ := skipWs_local htext₂ hc₂
            obtain ⟨w₁, rfl, -, hskip₁⟩ := skipWs_local (c := [.scalar ':']) hcolon
              (List.cons_ne_nil _ _)
            obtain ⟨c₀, rfl, hlocal₀⟩ := scanString_local hkey
            refine ⟨.scalar '"' :: (c₀ ++ (w₁ ++ ([.scalar ':'] ++ (w₂ ++ (c₂ ++ (w₃ ++ c₃)))))),
              List.cons_ne_nil _ _, by simp, ?_⟩
            intro rest'
            have hend : NumEnd (w₃ ++ (c₃ ++ rest')) := numEnd_append hw₃ (hc₃.2 rest')
            simp only [List.cons_append, List.append_assoc]
            rw [scanMembers, hlocal₀]
            have hcolon' := hskip₁ (w₂ ++ (c₂ ++ (w₃ ++ (c₃ ++ rest'))))
            simp only [List.cons_append, List.nil_append] at hcolon' ⊢
            simp only [hcolon', hskip₂, hlocal₂ _ (Or.inr hend), hskip₃, hlocal₃]
        · cases h
    · cases h

theorem scanMembersRest_local : ∀ {n : Nat} {acc : Members F} {text rest : Str} {x : Json F},
    scanMembersRest n acc text = some (x, rest) →
      ∃ c, (c ≠ [] ∧ ∀ rest', NumEnd (c ++ rest')) ∧ text = c ++ rest ∧
        ∀ rest', scanMembersRest n acc (c ++ rest') = some (x, rest')
  | 0, _, _, _, _, h => by
    rw [scanMembersRest] at h
    cases h
  | n + 1, acc, text, rest, x, h => by
    unfold scanMembersRest at h
    split at h
    · cases h
      exact ⟨[.scalar '}'], ⟨List.cons_ne_nil _ _, fun _ => numEnd_cons rfl _⟩, rfl, fun _ => rfl⟩
    · obtain ⟨c, hc, htext, hlocal⟩ := scanMembers_local h
      obtain ⟨w, rfl, -, hskip⟩ := skipWs_local htext hc
      refine ⟨.scalar ',' :: (w ++ c), ⟨List.cons_ne_nil _ _, fun _ => numEnd_cons rfl _⟩,
        by simp, ?_⟩
      intro rest'
      rw [List.cons_append, List.append_assoc, scanMembersRest, hskip]
      exact hlocal rest'
    · cases h

theorem scanElems_local : ∀ {n : Nat} {acc : List (Json F)} {text rest : Str} {x : Json F},
    scanElems n acc text = some (x, rest) →
      ∃ c, c ≠ [] ∧ text = c ++ rest ∧ ∀ rest', scanElems n acc (c ++ rest') = some (x, rest')
  | 0, _, _, _, _, h => by
    rw [scanElems] at h
    cases h
  | n + 1, acc, text, rest, x, h => by
    unfold scanElems at h
    split at h
    · cases h
    · rename_i y afterValue hvalue
      obtain ⟨c₂, hc₂, htext₂, hlocal₂⟩ := scanElemsRest_local h
      obtain ⟨w, rfl, hw, hskip⟩ := skipWs_local htext₂ hc₂.1
      obtain ⟨c₁, hc₁, rfl, hlocal₁⟩ := scanValue_local hvalue
      refine ⟨c₁ ++ (w ++ c₂), List.append_ne_nil_of_left_ne_nil hc₁ _, by simp, ?_⟩
      intro rest'
      have hend : NumEnd (w ++ (c₂ ++ rest')) := numEnd_append hw (hc₂.2 rest')
      rw [List.append_assoc, List.append_assoc, scanElems, hlocal₁ _ (Or.inr hend)]
      simp only [hskip, hlocal₂]

theorem scanElemsRest_local : ∀ {n : Nat} {acc : List (Json F)} {text rest : Str} {x : Json F},
    scanElemsRest n acc text = some (x, rest) →
      ∃ c, (c ≠ [] ∧ ∀ rest', NumEnd (c ++ rest')) ∧ text = c ++ rest ∧
        ∀ rest', scanElemsRest n acc (c ++ rest') = some (x, rest')
  | 0, _, _, _, _, h => by
    rw [scanElemsRest] at h
    cases h
  | n + 1, acc, text, rest, x, h => by
    unfold scanElemsRest at h
    split at h
    · cases h
      exact ⟨[.scalar ']'], ⟨List.cons_ne_nil _ _, fun _ => numEnd_cons rfl _⟩, rfl, fun _ => rfl⟩
    · obtain ⟨c, hc, htext, hlocal⟩ := scanElems_local h
      obtain ⟨w, rfl, -, hskip⟩ := skipWs_local htext hc
      refine ⟨.scalar ',' :: (w ++ c), ⟨List.cons_ne_nil _ _, fun _ => numEnd_cons rfl _⟩,
        by simp, ?_⟩
      intro rest'
      rw [List.cons_append, List.append_assoc, scanElemsRest, hskip]
      exact hlocal rest'
    · cases h

end

/-- An object that is decoded ends at its brace, and is decoded in front of any other text. -/
theorem rawDecode_local {body rest : Str} {ms : Members F}
    (h : rawDecode (.scalar '{' :: body) = some (.obj ms, rest)) :
    ∃ c, .scalar '{' :: body = c ++ .scalar '}' :: rest ∧
      ∀ rest', rawDecode (c ++ .scalar '}' :: rest') = some (.obj ms, rest') := by
  obtain ⟨c, -, htext, -⟩ := scanValue_local h
  obtain ⟨front, hfront⟩ := (scanValue_reads h).brace ms rfl
  have hsame : c = front ++ [.scalar '}'] := by
    have hboth : c ++ rest = (front ++ [.scalar '}']) ++ rest := by
      rw [← htext, ← hfront, List.append_assoc]
      rfl
    exact List.append_cancel_right hboth
  refine ⟨front, hfront.symm, ?_⟩
  intro rest'
  -- as much fuel as both texts need
  let n := 2 * (List.length (.scalar '{' :: body) + (front ++ .scalar '}' :: rest').length) + 1
  have hn : scanValue n (.scalar '{' :: body) = some (.obj ms, rest) := by
    rw [scanValue_eq_rawDecode (by omega)]
    exact h
  obtain ⟨c', -, htext', hlocal⟩ := scanValue_local hn
  have hc' : c' = front ++ [.scalar '}'] := by
    rw [← hsame]
    exact List.append_cancel_right (htext'.symm.trans htext)
  have hread := hlocal rest' (Or.inl ⟨body, rfl⟩)
  rw [hc', List.append_assoc, List.singleton_append] at hread
  rw [← scanValue_eq_rawDecode (n := n) (by omega)]
  exact hread

end PyJson
