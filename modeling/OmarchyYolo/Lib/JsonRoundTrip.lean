import OmarchyYolo.Lib.JsonNumbers
import OmarchyYolo.Lib.JsonStrings

/-!
# OmarchyYolo.Lib.JsonRoundTrip — values read back

Scanning a written value returns `Json.readBack` of it (`rawDecode_dumps`): the
value with the split surrogate pairs of its strings joined. A value is read back
as itself exactly when its strings are `PairFree` (`readBack_eq_iff`): joining a
pair makes some string shorter, so the total length of the strings drops.
-/

namespace PyJson

open Py

variable {F : Type}

/-! ## What is read back -/

mutual

/-- The value a written value reads back as. -/
def Json.readBack (st : Style) : Json F → Json F
  | .str s => .str (st.readStr s)
  | .arr xs => arrOfRev (xs.readBackRev st [])
  | .obj ms => .obj (ms.readBackInto st .nil)
  | x => x

/-- The elements read back, in front of those read so far. -/
def Elems.readBackRev (st : Style) : Elems F → List (Json F) → List (Json F)
  | .nil, acc => acc
  | .cons x xs, acc => xs.readBackRev st (x.readBack st :: acc)

/-- The members read back, put into those read so far. -/
def Members.readBackInto (st : Style) : Members F → Members F → Members F
  | .nil, acc => acc
  | .cons k x ms, acc => ms.readBackInto st (acc.put (st.readStr k) (x.readBack st))

end

mutual

/-- `PairFree` of every key and string of a value (nothing is asked of a style
that writes surrogates raw). -/
def Json.PairFree (st : Style) : Json F → Prop
  | .str s => st.ensureAscii = true → PyJson.PairFree s
  | .arr xs => xs.PairFree st
  | .obj ms => ms.PairFree st
  | _ => True

def Elems.PairFree (st : Style) : Elems F → Prop
  | .nil => True
  | .cons x xs => x.PairFree st ∧ xs.PairFree st

def Members.PairFree (st : Style) : Members F → Prop
  | .nil => True
  | .cons k x ms =>
    (st.ensureAscii = true → PyJson.PairFree k) ∧ x.PairFree st ∧ ms.PairFree st

end

/-- `dict` items one after the other. -/
def Members.append : Members F → Members F → Members F
  | .nil, ms' => ms'
  | .cons k x ms, ms' => .cons k x (ms.append ms')

theorem Members.append_nil (ms : Members F) : ms.append .nil = ms := by
  induction ms with
  | nil => rfl
  | cons k x ms ih => rw [append, ih]

theorem Members.append_ofList (ms ms' : List (Str × Json F)) :
    (Members.ofList ms).append (.ofList ms') = .ofList (ms ++ ms') := by
  induction ms with
  | nil => rfl
  | cons member ms ih =>
    rw [List.cons_append, ofList, ofList, append, ih]

theorem Members.append_cons (ms : Members F) (k : Str) (x : Json F) (ms' : Members F) :
    (ms.append (.cons k x .nil)).append ms' = ms.append (.cons k x ms') := by
  induction ms with
  | nil => rfl
  | cons k' x' ms ih => rw [append, append, ih, append]

theorem Members.keys_append (ms ms' : Members F) :
    (ms.append ms').keys = ms.keys ++ ms'.keys := by
  induction ms with
  | nil => rfl
  | cons k x ms ih => rw [append, keys, ih, keys, List.cons_append]

/-- A fresh key goes to the end. -/
theorem Members.put_fresh {ms : Members F} {k : Str} (h : k ∉ ms.keys) (x : Json F) :
    ms.put k x = ms.append (.cons k x .nil) := by
  induction ms with
  | nil => rfl
  | cons k' x' ms ih =>
    rw [keys, List.mem_cons, not_or] at h
    rw [put, if_neg (Ne.symm h.1), ih h.2, append]

theorem readStr_eq {st : Style} {s : Str} (h : st.ensureAscii = true → PairFree s) :
    st.readStr s = s := by
  unfold Style.readStr
  split_ifs with hA
  · exact joinSurrogates_eq (h hA)
  · rfl

theorem Elems.toList_ofList (xs : List (Json F)) : (Elems.ofList xs).toList = xs := by
  induction xs with
  | nil => rfl
  | cons x xs ih => rw [Elems.ofList, Elems.toList, ih]

theorem Elems.ofList_toList (xs : Elems F) : Elems.ofList xs.toList = xs := by
  induction xs with
  | nil => rfl
  | cons x xs ih => rw [toList, ofList, ih]

mutual

theorem Json.readBack_eq {st : Style} : ∀ {v : Json F}, v.WF → v.PairFree st →
    v.readBack st = v
  | .null, _, _ | .bool _, _, _ | .int _, _, _ | .float _, _, _ => rfl
  | .str s, _, hp => by rw [Json.readBack, readStr_eq hp]
  | .arr xs, hw, hp => by
    rw [Json.readBack, Elems.readBackRev_eq hw hp [], arrOfRev, List.append_nil,
      List.reverse_reverse,
      Elems.ofList_toList]
  | .obj ms, hw, hp => by
    rw [Json.readBack, Members.readBackInto_eq hw hp (fun k _ hk => by cases hk), Members.append]

theorem Elems.readBackRev_eq {st : Style} : ∀ {xs : Elems F}, xs.WF → xs.PairFree st →
    ∀ acc, xs.readBackRev st acc = xs.toList.reverse ++ acc
  | .nil, _, _, _ => rfl
  | .cons x xs, hw, hp, acc => by
    rw [Elems.readBackRev, Elems.readBackRev_eq hw.2 hp.2, Json.readBack_eq hw.1 hp.1, Elems.toList,
      List.reverse_cons, List.append_assoc, List.singleton_append]

theorem Members.readBackInto_eq {st : Style} : ∀ {ms : Members F}, ms.WF → ms.PairFree st →
    ∀ {acc : Members F}, (∀ k ∈ ms.keys, k ∉ acc.keys) →
      ms.readBackInto st acc = acc.append ms
  | .nil, _, _, acc, _ => by rw [Members.readBackInto, Members.append_nil]
  | .cons k x ms, hw, hp, acc, hd => by
    have hk : k ∉ acc.keys := hd k (by simp [Members.keys])
    have hd' : ∀ k' ∈ ms.keys, k' ∉ (acc.append (.cons k x .nil)).keys := by
      intro k' hk' hmem
      rw [Members.keys_append, Members.keys, Members.keys, List.mem_append,
        List.mem_singleton] at hmem
      rcases hmem with hmem | rfl
      · exact hd k' (by simp [Members.keys, hk']) hmem
      · exact hw.1 hk'
    rw [Members.readBackInto, readStr_eq hp.1, Json.readBack_eq hw.2.1 hp.2.1, Members.put_fresh hk,
      Members.readBackInto_eq hw.2.2 hp.2.2 hd', Members.append_cons]

end

/-! ## The length of the strings -/

mutual

/-- Number of characters of all keys and strings. -/
def Json.strLen : Json F → Nat
  | .str s => s.length
  | .arr xs => xs.strLen
  | .obj ms => ms.strLen
  | _ => 0

def Elems.strLen : Elems F → Nat
  | .nil => 0
  | .cons x xs => x.strLen + xs.strLen

def Members.strLen : Members F → Nat
  | .nil => 0
  | .cons k x ms => k.length + x.strLen + ms.strLen

end

theorem Members.strLen_put_le (ms : Members F) (k : Str) (x : Json F) :
    (ms.put k x).strLen ≤ k.length + x.strLen + ms.strLen := by
  induction ms with
  | nil => exact Nat.le_refl _
  | cons k' x' ms ih =>
    rw [put]
    split_ifs with hk
    · simp only [strLen, hk]
      omega
    · simp only [strLen]
      omega

theorem Elems.strLen_ofList (xs : List (Json F)) :
    (Elems.ofList xs).strLen = (xs.map Json.strLen).sum := by
  induction xs with
  | nil => rfl
  | cons x xs ih => rw [ofList, strLen, ih, List.map_cons, List.sum_cons]

theorem arrOfRev_strLen (acc : List (Json F)) :
    (arrOfRev acc).strLen = (acc.map Json.strLen).sum := by
  rw [arrOfRev, Json.strLen, Elems.strLen_ofList, List.map_reverse, List.sum_reverse]

theorem length_readStr_le (st : Style) (s : Str) : (st.readStr s).length ≤ s.length := by
  unfold Style.readStr
  split_ifs
  · exact length_joinSurrogates_le s
  · exact Nat.le_refl _

theorem length_readStr_lt {st : Style} {s : Str} (h : ¬ (st.ensureAscii = true → PairFree s)) :
    (st.readStr s).length < s.length := by
  obtain ⟨hA, hs⟩ := Classical.not_imp.mp h
  rw [Style.readStr, if_pos hA]
  exact length_joinSurrogates_lt hs

mutual

theorem Json.strLen_readBack_le (st : Style) : ∀ v : Json F, (v.readBack st).strLen ≤ v.strLen
  | .null | .bool _ | .int _ | .float _ => Nat.le_refl _
  | .str s => length_readStr_le st s
  | .arr xs => by
    rw [Json.readBack, arrOfRev_strLen]
    exact Elems.strLen_readBackRev_le st xs []
  | .obj ms => Members.strLen_readBackInto_le st ms .nil

theorem Elems.strLen_readBackRev_le (st : Style) : ∀ (xs : Elems F) (acc : List (Json F)),
    ((xs.readBackRev st acc).map Json.strLen).sum ≤ xs.strLen + (acc.map Json.strLen).sum
  | .nil, _ => by simp [Elems.readBackRev, Elems.strLen]
  | .cons x xs, acc => by
    have hx := Json.strLen_readBack_le st x
    have hxs := Elems.strLen_readBackRev_le st xs (x.readBack st :: acc)
    rw [List.map_cons, List.sum_cons] at hxs
    rw [Elems.readBackRev, Elems.strLen]
    omega

theorem Members.strLen_readBackInto_le (st : Style) : ∀ ms acc : Members F,
    (ms.readBackInto st acc).strLen ≤ ms.strLen + acc.strLen
  | .nil, _ => by simp [Members.readBackInto, Members.strLen]
  | .cons k x ms, acc => by
    have hk := length_readStr_le st k
    have hx := Json.strLen_readBack_le st x
    have hput := Members.strLen_put_le acc (st.readStr k) (x.readBack st)
    have hms := Members.strLen_readBackInto_le st ms (acc.put (st.readStr k) (x.readBack st))
    rw [Members.readBackInto, Members.strLen]
    omega

end

mutual

/-- A split pair somewhere makes the strings read back shorter. -/
theorem Json.strLen_readBack_lt {st : Style} : ∀ {v : Json F}, ¬ v.PairFree st →
    (v.readBack st).strLen < v.strLen
  | .null, h | .bool _, h | .int _, h | .float _, h => absurd trivial h
  | .str _, h => length_readStr_lt h
  | .arr xs, h => by
    rw [Json.readBack, arrOfRev_strLen]
    exact Elems.strLen_readBackRev_lt h []
  | .obj ms, h => Members.strLen_readBackInto_lt h .nil

theorem Elems.strLen_readBackRev_lt {st : Style} : ∀ {xs : Elems F}, ¬ xs.PairFree st →
    ∀ acc : List (Json F),
      ((xs.readBackRev st acc).map Json.strLen).sum < xs.strLen + (acc.map Json.strLen).sum
  | .nil, h, _ => absurd trivial h
  | .cons x xs, h, acc => by
    have hxle := Json.strLen_readBack_le st x
    have hxsle := Elems.strLen_readBackRev_le st xs (x.readBack st :: acc)
    rw [List.map_cons, List.sum_cons] at hxsle
    rw [Elems.readBackRev, Elems.strLen]
    by_cases hx : x.PairFree st
    · have hnot : ¬ xs.PairFree st := fun hxs => h ⟨hx, hxs⟩
      have hxs := Elems.strLen_readBackRev_lt hnot (x.readBack st :: acc)
      rw [List.map_cons, List.sum_cons] at hxs
      omega
    · have := Json.strLen_readBack_lt hx
      omega

theorem Members.strLen_readBackInto_lt {st : Style} : ∀ {ms : Members F}, ¬ ms.PairFree st →
    ∀ acc : Members F, (ms.readBackInto st acc).strLen < ms.strLen + acc.strLen
  | .nil, h, _ => absurd trivial h
  | .cons k x ms, h, acc => by
    have hkle := length_readStr_le st k
    have hxle := Json.strLen_readBack_le st x
    have hput := Members.strLen_put_le acc (st.readStr k) (x.readBack st)
    have hmsle := Members.strLen_readBackInto_le st ms (acc.put (st.readStr k) (x.readBack st))
    rw [Members.readBackInto, Members.strLen]
    by_cases hk : st.ensureAscii = true → PyJson.PairFree k
    · by_cases hx : x.PairFree st
      · have hnot : ¬ ms.PairFree st := fun hms => h ⟨hk, hx, hms⟩
        have hms := Members.strLen_readBackInto_lt hnot (acc.put (st.readStr k) (x.readBack st))
        omega
      · have := Json.strLen_readBack_lt hx
        omega
    · have := length_readStr_lt hk
      omega

end

/-- A `dict` value is read back as itself exactly when its strings hold no split pair. -/
theorem readBack_eq_iff {st : Style} {v : Json F} (h : v.WF) :
    v.readBack st = v ↔ v.PairFree st := by
  constructor
  · intro heq
    by_contra hp
    have := Json.strLen_readBack_lt hp
    rw [heq] at this
    exact absurd this (Nat.lt_irrefl _)
  · exact Json.readBack_eq h

/-! ## First characters -/

/-- What a constant or a number starts with. -/
def AtomHead (c : Char) : Prop :=
  c ≠ '"' ∧ c ≠ '{' ∧ c ≠ '[' ∧ c ≠ ']' ∧ isWs (.scalar c) = false

instance (c : Char) : Decidable (AtomHead c) :=
  inferInstanceAs (Decidable (_ ∧ _ ∧ _ ∧ _ ∧ _))

theorem atomHead_digit {c : Char} (h : c.isDigit = true) : AtomHead c := by
  have hne : ∀ w : Char, w.isDigit = false → c ≠ w := by
    rintro w hw rfl
    rw [h] at hw
    cases hw
  simp [AtomHead, isWs, hne '"' rfl, hne '{' rfl, hne '[' rfl, hne ']' rfl, hne ' ' rfl,
    hne '\t' rfl, hne '\n' rfl, hne '\r' rfl]

theorem FloatLit.text_head {l : FloatLit} (h : IsWhole l.whole) :
    ∃ c r, l.text = c :: r ∧ AtomHead c := by
  obtain ⟨d, ds, hds, hd⟩ := h.head
  cases hneg : l.neg with
  | false =>
    refine ⟨d, ds ++ ((if l.frac = [] then [] else '.' :: l.frac) ++ l.exp), ?_, atomHead_digit hd⟩
    simp [FloatLit.text, hneg, hds]
  | true =>
    refine ⟨'-', l.whole ++ ((if l.frac = [] then [] else '.' :: l.frac) ++ l.exp), ?_, by decide⟩
    simp [FloatLit.text, hneg]

variable [PyFloat F]

theorem spell_head (x : F) : ∃ c r, PyFloat.spell x = c :: r ∧ AtomHead c := by
  rcases PyFloat.spelled x with ⟨-, hx⟩ | ⟨-, hx⟩ | ⟨-, hx⟩ | ⟨l, hl, hx, -⟩
  · exact ⟨'N', ['a', 'N'], hx, by decide⟩
  · exact ⟨'I', "nfinity".toList, hx, by decide⟩
  · exact ⟨'-', "Infinity".toList, hx, by decide⟩
  · rw [hx]
    exact l.text_head hl.whole

theorem dumpsInt_head (n : Int) : ∃ c r, dumpsInt n = .scalar c :: r ∧ AtomHead c := by
  cases n with
  | ofNat n =>
    obtain ⟨d, ds, hds, hd⟩ := (isWhole_toDigits n).head
    exact ⟨d, ofChars ds, by rw [dumpsInt, hds]; rfl, atomHead_digit hd⟩
  | negSucc n => exact ⟨'-', _, rfl, by decide⟩

/-- A written value starts with a character that is neither white space nor a
closing bracket. -/
theorem dumps_head (st : Style) (v : Json F) :
    ∃ c r, dumps st v = .scalar c :: r ∧ isWs (.scalar c) = false ∧ c ≠ ']' := by
  cases v with
  | null => exact ⟨'n', _, rfl, rfl, by decide⟩
  | bool b => cases b <;> exact ⟨_, _, rfl, rfl, by decide⟩
  | int n =>
    obtain ⟨c, r, h, -, -, -, hc⟩ := dumpsInt_head n
    exact ⟨c, r, by rw [dumps, h], hc.2, hc.1⟩
  | float x =>
    obtain ⟨c, r, h, -, -, -, hc⟩ := spell_head x
    exact ⟨c, ofChars r, by rw [dumps, h]; rfl, hc.2, hc.1⟩
  | str s => exact ⟨'"', _, by rw [dumps, dumpsStr], rfl, by decide⟩
  | arr xs => cases xs <;> exact ⟨'[', _, rfl, rfl, by decide⟩
  | obj ms => cases ms <;> exact ⟨'{', _, rfl, rfl, by decide⟩

theorem skipWs_cons {c : PyChar} (h : isWs c = false) (rest : Str) :
    skipWs (c :: rest) = c :: rest := by
  rw [skipWs, List.dropWhile_cons_of_neg (by simp [h])]

theorem skipWs_dumps (st : Style) (v : Json F) (rest : Str) :
    skipWs (dumps st v ++ rest) = dumps st v ++ rest := by
  obtain ⟨c, r, h, hc, -⟩ := dumps_head st v
  rw [h]
  exact skipWs_cons hc _

/-- The blank of a separator is skipped. -/
theorem itemSep_append (st : Style) (rest : Str) :
    ∃ r, st.itemSep ++ rest = .scalar ',' :: r ∧ skipWs r = skipWs rest := by
  cases hc : st.compact with
  | true => exact ⟨rest, by rw [Style.itemSep, hc]; rfl, rfl⟩
  | false => exact ⟨.scalar ' ' :: rest, by rw [Style.itemSep, hc]; rfl, rfl⟩

theorem keySep_append (st : Style) (rest : Str) :
    ∃ r, st.keySep ++ rest = .scalar ':' :: r ∧ skipWs r = skipWs rest := by
  cases hc : st.compact with
  | true => exact ⟨rest, by rw [Style.keySep, hc]; rfl, rfl⟩
  | false => exact ⟨.scalar ' ' :: rest, by rw [Style.keySep, hc]; rfl, rfl⟩

/-! ## Scanning a written value -/

theorem scanValue_atom {c : Char} (h : AtomHead c) (n : Nat) (rest : Str) :
    scanValue (F := F) (n + 1) (.scalar c :: rest) = scanAtom (.scalar c :: rest) := by
  rw [scanValue]
  · rintro r hr
    cases hr
    exact h.1 rfl
  · rintro r hr
    cases hr
    exact h.2.1 rfl
  · rintro r hr
    cases hr
    exact h.2.2.1 rfl

theorem scanValue_str (st : Style) (s : Str) (n : Nat) (rest : Str) :
    scanValue (F := F) (n + 1) (dumpsStr st s ++ rest) = some (.str (st.readStr s), rest) := by
  rw [dumpsStr, List.cons_append, List.append_assoc, scanValue, List.singleton_append,
    scanString_dumpsStr]
  rfl

theorem length_itemSep (st : Style) : 1 ≤ st.itemSep.length := by
  cases hc : st.compact <;> simp [Style.itemSep, hc, lit]

theorem length_keySep (st : Style) : 1 ≤ st.keySep.length := by
  cases hc : st.compact <;> simp [Style.keySep, hc, lit]

theorem length_dumpsStr (st : Style) (s : Str) : 2 ≤ (dumpsStr st s).length := by
  simp [dumpsStr]

theorem length_dumps_pos (st : Style) (v : Json F) : 1 ≤ (dumps st v).length := by
  obtain ⟨c, r, h, -⟩ := dumps_head st v
  rw [h]
  exact Nat.succ_pos _

/-- What stands between the values of a container does not continue a number. -/
theorem numEnd_dumpsElems (st : Style) (xs : Elems F) (rest : Str) :
    NumEnd (dumpsElems st xs ++ .scalar ']' :: rest) := by
  cases xs with
  | nil => exact numEnd_cons rfl rest
  | cons x xs =>
    rw [dumpsElems, List.append_assoc]
    obtain ⟨r, hr, -⟩ := itemSep_append st ((dumps st x ++ dumpsElems st xs) ++ .scalar ']' :: rest)
    rw [hr]
    exact numEnd_cons rfl r

theorem numEnd_dumpsMembers (st : Style) (ms : Members F) (rest : Str) :
    NumEnd (dumpsMembers st ms ++ .scalar '}' :: rest) := by
  cases ms with
  | nil => exact numEnd_cons rfl rest
  | cons k x ms =>
    rw [dumpsMembers, List.append_assoc]
    obtain ⟨r, hr, -⟩ := itemSep_append st
      ((dumpsStr st k ++ (st.keySep ++ (dumps st x ++ dumpsMembers st ms))) ++
        .scalar '}' :: rest)
    rw [hr]
    exact numEnd_cons rfl r

/-- One key and its separator are read, if the value behind them is. -/
theorem scanMembers_step (st : Style) {n : Nat} (acc : Members F) (k : Str) (x : Json F)
    (rest : Str) (hx : scanValue n (dumps st x ++ rest) = some (x.readBack st, rest)) :
    scanMembers (n + 1) acc (dumpsStr st k ++ (st.keySep ++ (dumps st x ++ rest))) =
      scanMembersRest n (acc.put (st.readStr k) (x.readBack st)) (skipWs rest) := by
  obtain ⟨r, hr, hskip⟩ := keySep_append st (dumps st x ++ rest)
  rw [dumpsStr, List.cons_append, List.append_assoc, List.singleton_append, hr, scanMembers,
    scanString_dumpsStr]
  simp only [skipWs_cons (c := .scalar ':') rfl, hskip, skipWs_dumps, hx]

/-- One element is read. -/
theorem scanElems_step (st : Style) {n : Nat} (acc : List (Json F)) (x : Json F) (rest : Str)
    (hx : scanValue n (dumps st x ++ rest) = some (x.readBack st, rest)) :
    scanElems (n + 1) acc (dumps st x ++ rest) =
      scanElemsRest n (x.readBack st :: acc) (skipWs rest) := by
  rw [scanElems, hx]

mutual

/-- A written value is read back in front of any text that cannot continue a number. -/
theorem scanValue_dumps (st : Style) : ∀ (v : Json F) {n : Nat} {rest : Str},
    2 * (dumps st v).length ≤ n → NumEnd rest →
      scanValue n (dumps st v ++ rest) = some (v.readBack st, rest)
  -- the fuel is at least twice the length of the text, so it does not run out
  | v, 0, _, hn, _ => by
    have := length_dumps_pos st v
    omega
  | .null, n + 1, _, _, _ => rfl
  | .bool true, n + 1, _, _, _ => rfl
  | .bool false, n + 1, _, _, _ => rfl
  -- a number is read up to a character that cannot go on with it
  | .int i, n + 1, rest, _, hend => by
    obtain ⟨c, r, h, hc⟩ := dumpsInt_head i
    have hatom := scanAtom_dumpsInt (F := F) i hend
    rw [dumps, h] at *
    exact (scanValue_atom hc n _).trans hatom
  | .float x, n + 1, rest, _, hend => by
    obtain ⟨c, r, h, hc⟩ := spell_head x
    have hatom := scanAtom_spell x hend
    rw [dumps, h] at *
    exact (scanValue_atom hc n _).trans hatom
  -- a string ends at its own quote
  | .str s, n + 1, rest, _, _ => scanValue_str st s n rest
  | .arr .nil, n + 1, _, _, _ => rfl
  | .arr (.cons x xs), 1, rest, hn, _ => by
    rw [dumps] at hn
    simp only [List.length_cons, List.length_append, List.length_nil] at hn
    omega
  -- an array: the first element, then the rest, with the bracket that closes
  | .arr (.cons x xs), n + 2, rest, hn, _ => by
    obtain ⟨c, r, hd, hws, hc⟩ := dumps_head st x
    rw [dumps] at hn
    simp only [List.length_cons, List.length_append, List.length_nil] at hn
    have hx := scanValue_dumps st x (n := n) (by omega) (numEnd_dumpsElems st xs rest)
    have hxs := scanElemsRest_dumps st xs (n := n) rest (by omega) [x.readBack st]
    have hstep := scanElems_step st [] x _ hx
    rw [dumps, List.cons_append, List.append_assoc, List.append_assoc, List.singleton_append,
      Json.readBack, Elems.readBackRev, ← hxs, ← hstep, hd]
    show (match skipWs (.scalar c :: _) with
      | .scalar ']' :: rest' => some (Json.arr .nil, rest')
      | rest' => scanElems (n + 1) [] rest') = _
    rw [skipWs_cons hws]
    split
    -- the first element begins with no bracket that closes
    · rename_i heq
      cases heq
      exact absurd rfl hc
    · rfl
  -- an object goes by its members
  | .obj ms, n + 1, rest, hn, _ => scanValue_dumps_obj st ms hn rest

/-- An object ends at its brace: whatever follows, it is read back. -/
theorem scanValue_dumps_obj (st : Style) : ∀ (ms : Members F) {n : Nat},
    2 * (dumps st (.obj ms)).length ≤ n + 1 → ∀ rest,
      scanValue (n + 1) (dumps st (.obj ms) ++ rest) = some (.obj (ms.readBackInto st .nil), rest)
  | .nil, _, _, _ => rfl
  | .cons k x ms, n, hn, rest => by
    have hkey := length_dumpsStr st k
    have hsep := length_keySep st
    rw [dumps] at hn
    simp only [List.length_cons, List.length_append, List.length_nil] at hn
    obtain ⟨n, rfl⟩ : ∃ m, n = m + 1 := ⟨n - 1, by omega⟩
    have hx := scanValue_dumps st x (n := n) (by omega)
      (numEnd_dumpsMembers st ms rest)
    have hms := scanMembersRest_dumps st ms (n := n) rest (by omega)
      (Members.put (st.readStr k) (x.readBack st) .nil)
    have hstep := scanMembers_step st .nil k x _ hx
    rw [Members.readBackInto, ← hms, ← hstep, dumps, List.cons_append, List.append_assoc,
      List.append_assoc, List.append_assoc, List.append_assoc, List.singleton_append]
    rfl

/-- The elements of an array behind an element, up to the bracket. -/
theorem scanElemsRest_dumps (st : Style) : ∀ (xs : Elems F) {n : Nat} (rest : Str),
    2 * (dumpsElems st xs).length + 1 ≤ n → ∀ acc,
      scanElemsRest n acc (skipWs (dumpsElems st xs ++ .scalar ']' :: rest)) =
        some (arrOfRev (xs.readBackRev st acc), rest)
  | _, 0, _, hn, _ => by omega
  | .nil, n + 1, _, _, _ => rfl
  | .cons x xs, 1, rest, hn, acc => by
    have hsep := length_itemSep st
    rw [dumpsElems] at hn
    simp only [List.length_append] at hn
    omega
  | .cons x xs, n + 2, rest, hn, acc => by
    have hsep := length_itemSep st
    have hpos := length_dumps_pos st x
    rw [dumpsElems] at hn
    simp only [List.length_append] at hn
    have hx := scanValue_dumps st x (n := n) (by omega) (numEnd_dumpsElems st xs rest)
    have hxs := scanElemsRest_dumps st xs (n := n) rest (by omega)
      (x.readBack st :: acc)
    have hstep := scanElems_step st acc x _ hx
    obtain ⟨r, hr, hskip⟩ := itemSep_append st
      (dumps st x ++ (dumpsElems st xs ++ .scalar ']' :: rest))
    rw [dumpsElems, List.append_assoc, List.append_assoc, hr, skipWs_cons rfl, scanElemsRest,
      hskip, skipWs_dumps, hstep, hxs, Elems.readBackRev]

/-- The members of an object behind a member, up to the brace. -/
theorem scanMembersRest_dumps (st : Style) : ∀ (ms : Members F) {n : Nat} (rest : Str),
    2 * (dumpsMembers st ms).length + 1 ≤ n → ∀ acc,
      scanMembersRest n acc (skipWs (dumpsMembers st ms ++ .scalar '}' :: rest)) =
        some (.obj (ms.readBackInto st acc), rest)
  | _, 0, _, hn, _ => by omega
  | .nil, n + 1, _, _, _ => rfl
  | .cons k x ms, 1, _, hn, _ => by
    have hsep := length_itemSep st
    rw [dumpsMembers] at hn
    simp only [List.length_append] at hn
    omega
  | .cons k x ms, n + 2, rest, hn, acc => by
    have hkey := length_dumpsStr st k
    have hsep := length_itemSep st
    rw [dumpsMembers] at hn
    simp only [List.length_append] at hn
    have hx := scanValue_dumps st x (n := n) (by omega) (numEnd_dumpsMembers st ms rest)
    have hms := scanMembersRest_dumps st ms (n := n) rest (by omega)
      (acc.put (st.readStr k) (x.readBack st))
    have hstep := scanMembers_step st acc k x _ hx
    obtain ⟨r, hr, hskip⟩ := itemSep_append st
      (dumpsStr st k ++ (st.keySep ++ (dumps st x ++ (dumpsMembers st ms ++ .scalar '}' :: rest))))
    have hkeyWs : skipWs (dumpsStr st k ++
        (st.keySep ++ (dumps st x ++ (dumpsMembers st ms ++ .scalar '}' :: rest)))) = _ :=
      skipWs_cons rfl _
    rw [Members.readBackInto, ← hms, ← hstep, dumpsMembers, List.append_assoc, List.append_assoc,
      List.append_assoc, List.append_assoc, hr, skipWs_cons rfl, scanMembersRest, hskip, hkeyWs]
    rfl

end

/-- Decoding undoes encoding, up to split surrogate pairs; for an object, in
front of any text. -/
theorem rawDecode_dumps_obj (st : Style) (ms : Members F) (rest : Str) :
    rawDecode (dumps st (.obj ms) ++ rest) = some ((Json.obj ms).readBack st, rest) := by
  refine scanValue_dumps_obj st ms ?_ rest
  rw [List.length_append]
  omega

end PyJson
