import Mathlib.Algebra.Group.Action.Defs
import Mathlib.Algebra.Order.BigOperators.Group.List
import Mathlib.Algebra.Order.Ring.Nat
import OmarchyYolo.Lib.JsonAscii

/-!
# OmarchyYolo.Lib.JsonSize — the size of encoded JSON

The number of bytes of a value that is written compactly, with `ensure_ascii`:
`len(json.dumps(value, separators=(",", ":")).encode())`.

* `jsonBytes`, `strBytes` — the size of a value and of a string literal;
* `jsonBytes_obj`, `jsonBytes_arr`: of a container, from its items;
* `strBytes_le`, `strBytes_bare`, `intBytes_le`: bounds;
* `length_dumpsStr_raw`: without `ensure_ascii`, quotes and backslashes count twice;
* `jsonBytes_sortKeys`: `sort_keys` keeps the size.
-/

namespace PyJson

open Py

/-- `ensure_ascii`, and no blanks between the items. -/
abbrev Style.wire : Style := ⟨true, true⟩

/-- Number of bytes of a string literal. -/
def strBytes (s : Str) : Nat := (dumpsStr .wire s).length

/-- Number of bytes of an integer. -/
def intBytes (n : Int) : Nat := (dumpsInt n).length

variable {F : Type} [PyFloat F]

/-- `len(json.dumps(value, separators=(",", ":")).encode())`. -/
def jsonBytes (v : Json F) : Nat := byteLen (dumps .wire v)

theorem byteLen_of_isPrintable {s : Str} (h : ∀ c ∈ s, isPrintable c = true) :
    byteLen s = s.length := by
  induction s with
  | nil => rfl
  | cons c s ih =>
    have hc : byteSize c = 1 := by
      have hprintable := h c List.mem_cons_self
      cases c with
      | surrogate low bits => cases hprintable
      | scalar c =>
        simp only [isPrintable, Bool.and_eq_true, decide_eq_true_eq] at hprintable
        have hlt : c.toNat ≤ 0x7f := by omega
        exact Char.utf8Size_eq_one_iff.mpr hlt
    rw [byteLen_cons, hc, ih fun d hd => h d (List.mem_cons_of_mem c hd), List.length_cons,
      Nat.add_comm]

theorem jsonBytes_eq (v : Json F) : jsonBytes v = (dumps .wire v).length :=
  byteLen_of_isPrintable (dumps_printable rfl v)

/-! ## Containers -/

/-- What a member adds to its object: its key, a colon, its value and a comma. -/
def memberBytes (member : Str × Json F) : Nat := strBytes member.1 + jsonBytes member.2 + 2

theorem length_dumpsMembers (ms : List (Str × Json F)) :
    (dumpsMembers .wire (Members.ofList ms)).length = (ms.map memberBytes).sum := by
  induction ms with
  | nil => rfl
  | cons member ms ih =>
    obtain ⟨k, x⟩ := member
    have hitem : Style.wire.itemSep.length = 1 := rfl
    have hkey : Style.wire.keySep.length = 1 := rfl
    rw [Members.ofList, dumpsMembers]
    simp only [List.length_append, hitem, hkey, ih, List.map_cons, List.sum_cons, memberBytes,
      strBytes, jsonBytes_eq]
    omega

theorem jsonBytes_obj {ms : List (Str × Json F)} (hne : ms ≠ []) :
    jsonBytes (.obj (.ofList ms)) = 1 + (ms.map memberBytes).sum := by
  cases ms with
  | nil => exact absurd rfl hne
  | cons member ms =>
    obtain ⟨k, x⟩ := member
    have hkey : Style.wire.keySep.length = 1 := rfl
    have hrest := length_dumpsMembers ms
    rw [jsonBytes_eq, Members.ofList, dumps]
    simp only [List.length_cons, List.length_append, List.length_nil, hkey, hrest, List.map_cons,
      List.sum_cons, memberBytes, strBytes, jsonBytes_eq]
    omega

/-- The keys of an object and its values, apart. -/
theorem jsonBytes_obj_split {ms : List (Str × Json F)} (hne : ms ≠ []) :
    jsonBytes (.obj (.ofList ms)) =
      1 + ((ms.map Prod.fst).map fun k => strBytes k + 2).sum +
        ((ms.map Prod.snd).map jsonBytes).sum := by
  have hsplit : ∀ members : List (Str × Json F), (members.map memberBytes).sum =
      ((members.map Prod.fst).map fun k => strBytes k + 2).sum +
        ((members.map Prod.snd).map jsonBytes).sum := by
    intro members
    induction members with
    | nil => rfl
    | cons member members ih =>
      simp only [List.map_cons, List.sum_cons, memberBytes, ih]
      omega
  rw [jsonBytes_obj hne, hsplit, Nat.add_assoc]

/-- An object whose keys are known. -/
theorem jsonBytes_obj_keys {ms : List (Str × Json F)} {key : Str} {keys : List Str} {total : Nat}
    (htotal : ((key :: keys).map fun k => strBytes k + 2).sum = total)
    (hkeys : ms.map Prod.fst = key :: keys) :
    jsonBytes (.obj (.ofList ms)) = 1 + total + ((ms.map Prod.snd).map jsonBytes).sum := by
  have hne : ms ≠ [] := by
    rintro rfl
    cases hkeys
  rw [jsonBytes_obj_split hne, hkeys, htotal]

theorem length_dumpsElems (xs : List (Json F)) :
    (dumpsElems .wire (Elems.ofList xs)).length = (xs.map fun x => jsonBytes x + 1).sum := by
  induction xs with
  | nil => rfl
  | cons x xs ih =>
    have hitem : Style.wire.itemSep.length = 1 := rfl
    rw [Elems.ofList, dumpsElems]
    simp only [List.length_append, hitem, ih, List.map_cons, List.sum_cons, jsonBytes_eq]
    omega

theorem jsonBytes_arr {xs : List (Json F)} (hne : xs ≠ []) :
    jsonBytes (.arr (.ofList xs)) = 1 + (xs.map fun x => jsonBytes x + 1).sum := by
  cases xs with
  | nil => exact absurd rfl hne
  | cons x xs =>
    have hrest := length_dumpsElems xs
    rw [jsonBytes_eq, Elems.ofList, dumps]
    simp only [List.length_cons, List.length_append, List.length_nil, hrest, List.map_cons,
      List.sum_cons, jsonBytes_eq]
    omega

/-- A sum whose terms are bounded. -/
theorem sum_map_le {α : Type} {f : α → Nat} {xs : List α} {bound : Nat}
    (h : ∀ x ∈ xs, f x ≤ bound) : (xs.map f).sum ≤ xs.length * bound := by
  have hle := List.sum_le_card_nsmul (xs.map f) bound (List.forall_mem_map.mpr h)
  rwa [List.length_map, smul_eq_mul] at hle

theorem le_sum_map {α : Type} {f : α → Nat} {xs : List α} {bound : Nat}
    (h : ∀ x ∈ xs, bound ≤ f x) : xs.length * bound ≤ (xs.map f).sum := by
  have hle := List.card_nsmul_le_sum (xs.map f) bound (List.forall_mem_map.mpr h)
  rwa [List.length_map, smul_eq_mul] at hle

/-- An object, from bounds of its values. -/
theorem jsonBytes_obj_le {ms : List (Str × Json F)} {bounds : List Nat}
    (h : List.Forall₂ (fun member bound => jsonBytes member.2 ≤ bound) ms bounds) :
    jsonBytes (.obj (.ofList ms)) ≤
      2 + ((ms.map Prod.fst).map fun k => strBytes k + 2).sum + bounds.sum := by
  have hvalues : ((ms.map Prod.snd).map jsonBytes).sum ≤ bounds.sum := by
    induction h with
    | nil => exact Nat.le_refl 0
    | cons hbound _ ih =>
      simp only [List.map_cons, List.sum_cons]
      exact Nat.add_le_add hbound ih
  by_cases hne : ms = []
  · rw [hne]
    exact Nat.le_add_right 2 _
  · rw [jsonBytes_obj_split hne]
    omega

/-- An object of members that are bounded. -/
theorem jsonBytes_members_le {ms : List (Str × Json F)} {bound : Nat}
    (h : ∀ member ∈ ms, strBytes member.1 + jsonBytes member.2 + 2 ≤ bound) :
    jsonBytes (.obj (.ofList ms)) ≤ 2 + ms.length * bound := by
  by_cases hne : ms = []
  · rw [hne]
    exact Nat.le_add_right 2 _
  · have hle : (ms.map memberBytes).sum ≤ ms.length * bound := sum_map_le h
    rw [jsonBytes_obj hne]
    omega

/-- An array of values that are bounded. -/
theorem jsonBytes_arr_le {xs : List (Json F)} {bound : Nat} (h : ∀ x ∈ xs, jsonBytes x ≤ bound) :
    jsonBytes (.arr (.ofList xs)) ≤ 2 + xs.length * (bound + 1) := by
  by_cases hne : xs = []
  · rw [hne]
    exact Nat.le_add_right 2 _
  · have hle := sum_map_le fun x hx => Nat.add_le_add_right (h x hx) 1
    rw [jsonBytes_arr hne]
    omega

/-! ## Strings and numbers -/

theorem length_escape_le (st : Style) (c : PyChar) : (escape st c).length ≤ 12 := by
  have hescape : ∀ u, (uEscape u).length = 6 := fun _ => rfl
  cases c with
  | surrogate low bits =>
    rw [escape]
    split_ifs
    · rw [hescape]
      decide
    · exact Nat.le_add_left 1 11
  | scalar c =>
    rw [escape]
    cases shortEscape c with
    | some e => exact Nat.le_add_left 2 10
    | none =>
      simp only
      split_ifs
      · rw [hescape]
        decide
      · exact Nat.le_add_left 1 11
      · rw [hescape]
        decide
      · rw [List.length_append, hescape, hescape]

theorem length_dumpsStr_eq (st : Style) (s : Str) :
    (dumpsStr st s).length = 2 + (s.map fun c => (escape st c).length).sum := by
  rw [dumpsStr, List.length_cons, List.length_append, List.length_flatMap, List.length_singleton]
  omega

theorem strBytes_eq (s : Str) :
    strBytes s = 2 + (s.map fun c => (escape .wire c).length).sum := length_dumpsStr_eq .wire s

theorem strBytes_replicate (n : Nat) (c : PyChar) :
    strBytes (List.replicate n c) = 2 + n * (escape .wire c).length := by
  rw [strBytes_eq, List.map_replicate, List.sum_replicate, smul_eq_mul]

/-- A character is written in at most two escapes. -/
theorem length_dumpsStr_le (st : Style) (s : Str) : (dumpsStr st s).length ≤ 2 + 12 * s.length := by
  rw [length_dumpsStr_eq]
  induction s with
  | nil => exact Nat.le_refl 2
  | cons c s ih =>
    have hc := length_escape_le st c
    rw [List.map_cons, List.sum_cons, List.length_cons]
    omega

theorem strBytes_le (s : Str) : strBytes s ≤ 2 + 12 * s.length := length_dumpsStr_le .wire s

theorem shortEscape_eq_none {c : Char} (hcontrol : ¬c.toNat < 0x20) (hquote : c ≠ '"')
    (hslash : c ≠ '\\') : shortEscape c = none := by
  have hne : ∀ d : Char, d.toNat < 0x20 → c ≠ d := by
    rintro d hd rfl
    exact hcontrol hd
  unfold shortEscape
  rw [if_neg hquote, if_neg hslash, if_neg (hne _ (by decide)), if_neg (hne _ (by decide)),
    if_neg (hne _ (by decide)), if_neg (hne _ (by decide)), if_neg (hne _ (by decide))]

/-- A character that is written as it stands. -/
def isBare (c : PyChar) : Bool := isPrintable c && c != .scalar '"' && c != .scalar '\\'

/-- A text of bare characters is written as it stands. -/
theorem strBytes_bare {s : Str} (h : ∀ c ∈ s, isBare c = true) : strBytes s = 2 + s.length := by
  have hone : ∀ c : PyChar, isBare c = true → (escape .wire c).length = 1 := by
    intro c hc
    simp only [isBare, Bool.and_eq_true, bne_iff_ne] at hc
    obtain ⟨⟨hprintable, hquote⟩, hslash⟩ := hc
    cases c with
    | surrogate low bits => cases hprintable
    | scalar c =>
      simp only [isPrintable, Bool.and_eq_true, decide_eq_true_eq] at hprintable
      have hnone : shortEscape c = none :=
        shortEscape_eq_none (by omega) (fun h => hquote (by rw [h])) (fun h => hslash (by rw [h]))
      rw [escape, hnone]
      simp only
      rw [if_neg (by omega), if_pos (Or.inl hprintable.2)]
      rfl
  rw [strBytes_eq]
  induction s with
  | nil => rfl
  | cons c s ih =>
    have hs := ih fun d hd => h d (List.mem_cons_of_mem c hd)
    rw [List.map_cons, List.sum_cons, hone c (h c List.mem_cons_self), List.length_cons]
    omega

/-- A quote or a backslash. -/
def isMark (c : PyChar) : Bool := c == .scalar '"' || c == .scalar '\\'

theorem length_escape_raw {st : Style} (hraw : st.ensureAscii = false) {c : PyChar}
    (hc : isControl c = false) : (escape st c).length = if isMark c then 2 else 1 := by
  cases c with
  | surrogate low bits =>
    rw [escape, hraw]
    rfl
  | scalar c =>
    have hcontrol : ¬c.toNat < 0x20 := of_decide_eq_false hc
    by_cases hquote : c = '"'
    · rw [hquote]
      rfl
    by_cases hslash : c = '\\'
    · rw [hslash]
      rfl
    have hmark : isMark (.scalar c) = false := by
      rw [isMark, Bool.or_eq_false_iff, beq_eq_false_iff_ne, beq_eq_false_iff_ne]
      exact ⟨fun h => hquote (PyChar.scalar.inj h), fun h => hslash (PyChar.scalar.inj h)⟩
    rw [escape, shortEscape_eq_none hcontrol hquote hslash, hmark]
    simp only
    rw [if_neg hcontrol, if_pos (Or.inr hraw)]
    rfl

/-- The length of a literal without `ensure_ascii`, of a text without control characters. -/
theorem length_dumpsStr_raw {st : Style} (hraw : st.ensureAscii = false) {s : Str}
    (h : ∀ c ∈ s, isControl c = false) :
    (dumpsStr st s).length = 2 + s.length + s.countP isMark := by
  rw [length_dumpsStr_eq]
  induction s with
  | nil => rfl
  | cons c s ih =>
    have hs := ih fun d hd => h d (List.mem_cons_of_mem c hd)
    rw [List.map_cons, List.sum_cons, length_escape_raw hraw (h c List.mem_cons_self),
      List.length_cons, List.countP_cons]
    split_ifs <;> omega

/-- What a value is written in has no control characters. -/
theorem dumps_noControl (st : Style) (v : Json F) : ∀ c ∈ dumps st v, isControl c = false := by
  -- a printable character is no control character
  have hplain : ∀ c : PyChar, isPrintable c = true → isControl c = false := by
    intro c hc
    cases c with
    | surrogate low bits => rfl
    | scalar c =>
      simp only [isPrintable, Bool.and_eq_true, decide_eq_true_eq] at hc
      exact decide_eq_false (by omega)
  apply dumps_forall hplain
  intro c d hd
  -- by the character: what it is escaped to
  cases c with
  | surrogate low bits =>
    rw [escape] at hd
    split_ifs at hd
    · exact hplain d (uEscape_printable _ d hd)
    · rw [List.mem_singleton.mp hd]
      rfl
  | scalar c =>
    rw [escape] at hd
    cases hshort : shortEscape c with
    | some e =>
      rw [hshort] at hd
      rcases List.mem_cons.mp hd with rfl | hd
      · rfl
      · rw [List.mem_singleton.mp hd]
        exact hplain _ (shortEscape_printable hshort)
    -- an escape, or a character that is written as it is
    | none =>
      rw [hshort] at hd
      simp only at hd
      split_ifs at hd with hcontrol hplainChar hbmp
      · exact hplain d (uEscape_printable _ d hd)
      · rw [List.mem_singleton.mp hd]
        exact decide_eq_false hcontrol
      · exact hplain d (uEscape_printable _ d hd)
      · rcases List.mem_append.mp hd with hd | hd
        · exact hplain d (uEscape_printable _ d hd)
        · exact hplain d (uEscape_printable _ d hd)

/-- A character that stands for itself, repeated, between its quotes. -/
theorem dumpsStr_replicate {st : Style} {c : PyChar} (hc : escape st c = [c]) (n : Nat) :
    dumpsStr st (List.replicate n c) = .scalar '"' :: (List.replicate n c ++ [.scalar '"']) := by
  have hescape : (List.replicate n c).flatMap (escape st) = List.replicate n c := by
    induction n with
    | zero => rfl
    | succ n ih => rw [List.replicate_succ, List.flatMap_cons, ih, hc, List.singleton_append]
  rw [dumpsStr, hescape]

theorem byteLen_dumpsStr_replicate {st : Style} {c : PyChar} (hc : escape st c = [c]) (n : Nat) :
    byteLen (dumpsStr st (List.replicate n c)) = 2 + n * byteSize c := by
  have hquote : byteSize (.scalar '"') = 1 := by decide
  rw [dumpsStr_replicate hc, byteLen_cons, byteLen_append, byteLen_replicate, byteLen_cons, hquote,
    byteLen_nil]
  omega

@[simp] theorem jsonBytes_str (s : Str) : jsonBytes (.str s : Json F) = strBytes s := by
  rw [jsonBytes_eq, dumps]
  rfl

@[simp] theorem jsonBytes_int (n : Int) : jsonBytes (.int n : Json F) = intBytes n := by
  rw [jsonBytes_eq, dumps]
  rfl

@[simp] theorem jsonBytes_null : jsonBytes (.null : Json F) = 4 := rfl

theorem jsonBytes_bool_le (b : Bool) : jsonBytes (.bool b : Json F) ≤ 5 := by
  cases b with
  | false => exact Nat.le_refl 5
  | true => exact Nat.le_succ 4

theorem jsonBytes_float (x : F) : jsonBytes (.float x) = (PyFloat.spell x).length := by
  rw [jsonBytes_eq, dumps, ofChars, List.length_map]

/-- A text of at most so many characters. -/
theorem strBytes_le_of_length {s : Str} {chars : Nat} (h : s.length ≤ chars) :
    strBytes s ≤ 2 + 12 * chars :=
  (strBytes_le s).trans (Nat.add_le_add_left (Nat.mul_le_mul_left 12 h) 2)

/-- An integer of so many digits. -/
theorem intBytes_le {n : Int} {digits : Nat} (hpos : 0 < digits) (h : n.natAbs < 10 ^ digits) :
    intBytes n ≤ digits + 1 := by
  have hlen : ∀ m : Nat, m < 10 ^ digits → (ofChars (Nat.toDigits 10 m)).length ≤ digits := by
    intro m hm
    rw [ofChars, List.length_map]
    exact (Nat.length_toDigits_le_iff (by decide) hpos).mpr hm
  cases n with
  | ofNat n => exact Nat.le_succ_of_le (hlen n h)
  | negSucc n => exact Nat.succ_le_succ (hlen (n + 1) h)

/-! ## Sorted keys -/

/-- An array, from the sizes of its items. -/
def itemsBytes (sizes : List Nat) : Nat :=
  if sizes = [] then 2 else 1 + (sizes.map (· + 1)).sum

theorem jsonBytes_items (xs : List (Json F)) :
    jsonBytes (.arr (.ofList xs)) = itemsBytes (xs.map jsonBytes) := by
  cases xs with
  | nil => rfl
  | cons x xs =>
    have hne : (x :: xs).map jsonBytes ≠ [] := List.cons_ne_nil _ _
    rw [jsonBytes_arr (List.cons_ne_nil x xs), itemsBytes, if_neg hne, List.map_map]
    rfl

theorem sum_le_itemsBytes (sizes : List Nat) : sizes.sum ≤ itemsBytes sizes := by
  rw [itemsBytes]
  split_ifs with hnil
  · rw [hnil]
    exact Nat.zero_le 2
  · have hle := List.sum_le_sum (l := sizes) (f := id) (g := (· + 1)) fun n _ => Nat.le_succ n
    rw [List.map_id] at hle
    exact Nat.le_add_left_of_le hle

theorem length_dumps_cons (k : Str) (x : Json F) (ms : Members F) :
    (dumps .wire (.obj (.cons k x ms))).length =
      1 + (dumpsMembers .wire (.cons k x ms)).length := by
  have hitem : Style.wire.itemSep.length = 1 := rfl
  rw [dumps, dumpsMembers]
  simp only [List.length_cons, List.length_append, List.length_nil, hitem]
  omega

/-- An item at its place takes what it takes in front. -/
theorem length_dumpsMembers_insertSorted (k : Str) (x : Json F) (ms : Members F) :
    (dumpsMembers .wire (ms.insertSorted k x)).length =
      (dumpsMembers .wire (.cons k x ms)).length := by
  cases ms with
  | nil => rfl
  | cons k' x' ms =>
    have ih := length_dumpsMembers_insertSorted k x ms
    rw [Members.insertSorted]
    split_ifs
    · rfl
    · simp only [dumpsMembers, List.length_append] at ih ⊢
      omega

omit [PyFloat F] in
theorem insertSorted_eq_cons (k : Str) (x : Json F) (ms : Members F) :
    ∃ k' x' ms', ms.insertSorted k x = .cons k' x' ms' := by
  cases ms with
  | nil => exact ⟨k, x, .nil, rfl⟩
  | cons k' x' ms =>
    rw [Members.insertSorted]
    split_ifs
    · exact ⟨_, _, _, rfl⟩
    · exact ⟨_, _, _, rfl⟩

mutual

theorem Json.length_dumps_sortKeys (v : Json F) :
    (dumps .wire v.sortKeys).length = (dumps .wire v).length := by
  cases v with
  | arr xs =>
    cases xs with
    | nil => rfl
    | cons x xs =>
      rw [Json.sortKeys, Elems.sortKeys, dumps, dumps]
      simp only [List.length_cons, List.length_append, Json.length_dumps_sortKeys x,
        Elems.length_dumps_sortKeys xs]
  | obj ms =>
    cases ms with
    | nil => rfl
    | cons k x ms =>
      have hmembers := Members.length_dumps_sortKeys (.cons k x ms)
      rw [Json.sortKeys]
      rw [Members.sortKeys] at hmembers ⊢
      -- the first of the sorted members is written without a comma
      obtain ⟨k', x', ms', hsorted⟩ := insertSorted_eq_cons k x.sortKeys ms.sortKeys
      rw [hsorted] at hmembers ⊢
      rw [length_dumps_cons, length_dumps_cons, hmembers]
  | null => rfl
  | bool b => rfl
  | int n => rfl
  | float f => rfl
  | str s => rfl

theorem Elems.length_dumps_sortKeys (xs : Elems F) :
    (dumpsElems .wire xs.sortKeys).length = (dumpsElems .wire xs).length := by
  cases xs with
  | nil => rfl
  | cons x xs =>
    rw [Elems.sortKeys, dumpsElems, dumpsElems]
    simp only [List.length_append, Json.length_dumps_sortKeys x, Elems.length_dumps_sortKeys xs]

theorem Members.length_dumps_sortKeys (ms : Members F) :
    (dumpsMembers .wire ms.sortKeys).length = (dumpsMembers .wire ms).length := by
  cases ms with
  | nil => rfl
  | cons k x ms =>
    rw [Members.sortKeys, length_dumpsMembers_insertSorted, dumpsMembers, dumpsMembers]
    simp only [List.length_append, Json.length_dumps_sortKeys x,
      Members.length_dumps_sortKeys ms]

end

/-- Sorting the keys keeps the size. -/
theorem jsonBytes_sortKeys (v : Json F) : jsonBytes v.sortKeys = jsonBytes v := by
  rw [jsonBytes_eq, jsonBytes_eq, Json.length_dumps_sortKeys]

end PyJson
