import OmarchyYolo.Lib.JsonLoads

/-!
# OmarchyYolo.Lib.JsonLimits — the limits of an interpreter

The scanner of `json` enters only so many containers within each other, and `int` reads only so
many digits. What is raised beyond is no `JSONDecodeError`, and it is raised where the scanner
meets it, whatever comes behind.

* `Limits.rawDecode`, `Limits.loads` — `raw_decode` and `loads`, with what they raise;
* `Limits.rawDecode_agrees` — within the limits they are those without;
* `Limits.rawDecode_dumps_obj_iff` — a written object is read back exactly when it keeps to the
  limits itself.
-/

namespace PyJson

open Py

/-- What an interpreter puts up with. -/
structure Limits where
  /-- The most digits of an integer. -/
  digits : Nat
  /-- The most containers within each other. -/
  depth : Nat

/-- What `raw_decode` raises. -/
inductive DecodeError where
  /-- `json.JSONDecodeError` -/
  | invalid
  /-- The `ValueError` of an integer with too many digits. -/
  | digits
  /-- `RecursionError` -/
  | depth
deriving DecidableEq, Repr

variable {F : Type}

/-- The digits of an integer. -/
def digitCount (n : Int) : Nat := (Nat.toDigits 10 n.natAbs).length

/-! ## The scanner -/

section Scanner

variable [PyFloat F]

/-- A value, or else the text is no JSON. -/
def orInvalid {α : Type} : Option α → Except DecodeError α
  | some a => .ok a
  | none => .error .invalid

/-- A constant or a number. -/
def decodeAtom (digits : Nat) (text : Str) : Except DecodeError (Json F × Str) :=
  match scanAtom text with
  | none => .error .invalid
  | some (.int n, rest) => if digits < digitCount n then .error .digits else .ok (.int n, rest)
  | some (value, rest) => .ok (value, rest)

mutual

/-- `scan_once`, with so many containers to enter. -/
def decodeValue (digits : Nat) : Nat → Nat → Str → Except DecodeError (Json F × Str)
  | 0, _, _ => .error .invalid
  | n + 1, depth, text =>
    match text with
    | .scalar '"' :: rest => orInvalid ((scanString rest).map fun p => (.str p.1, p.2))
    | .scalar '{' :: rest =>
      if depth = 0 then .error .depth
      else
        match skipWs rest with
        | .scalar '}' :: rest' => .ok (.obj .nil, rest')
        | rest' => decodeMembers digits n (depth - 1) .nil rest'
    | .scalar '[' :: rest =>
      if depth = 0 then .error .depth
      else
        match skipWs rest with
        | .scalar ']' :: rest' => .ok (.arr .nil, rest')
        | rest' => decodeElems digits n (depth - 1) [] rest'
    | _ => decodeAtom digits text

/-- The members of an object, from a key on. -/
def decodeMembers (digits : Nat) :
    Nat → Nat → Members F → Str → Except DecodeError (Json F × Str)
  | 0, _, _, _ => .error .invalid
  | n + 1, depth, acc, text =>
    match text with
    | .scalar '"' :: rest =>
      match scanString rest with
      | none => .error .invalid
      | some (k, rest) =>
        match skipWs rest with
        | .scalar ':' :: rest =>
          match decodeValue digits n depth (skipWs rest) with
          | .error e => .error e
          | .ok (x, rest) => decodeMembersRest digits n depth (acc.put k x) (skipWs rest)
        | _ => .error .invalid
    | _ => .error .invalid

/-- What follows a member. -/
def decodeMembersRest (digits : Nat) :
    Nat → Nat → Members F → Str → Except DecodeError (Json F × Str)
  | 0, _, _, _ => .error .invalid
  | n + 1, depth, acc, text =>
    match text with
    | .scalar '}' :: rest => .ok (.obj acc, rest)
    | .scalar ',' :: rest => decodeMembers digits n depth acc (skipWs rest)
    | _ => .error .invalid

/-- The elements of an array, from a value on. -/
def decodeElems (digits : Nat) :
    Nat → Nat → List (Json F) → Str → Except DecodeError (Json F × Str)
  | 0, _, _, _ => .error .invalid
  | n + 1, depth, acc, text =>
    match decodeValue digits n depth text with
    | .error e => .error e
    | .ok (x, rest) => decodeElemsRest digits n depth (x :: acc) (skipWs rest)

/-- What follows an element. -/
def decodeElemsRest (digits : Nat) :
    Nat → Nat → List (Json F) → Str → Except DecodeError (Json F × Str)
  | 0, _, _, _ => .error .invalid
  | n + 1, depth, acc, text =>
    match text with
    | .scalar ']' :: rest => .ok (arrOfRev acc, rest)
    | .scalar ',' :: rest => decodeElems digits n depth acc (skipWs rest)
    | _ => .error .invalid

end

/-- `JSONDecoder().raw_decode(text, index)`, on the text from `index` on. -/
def Limits.rawDecode (limits : Limits) (text : Str) : Except DecodeError (Json F × Str) :=
  decodeValue limits.digits (2 * text.length + 1) limits.depth text

/-- `json.loads(text)` -/
def Limits.loads (limits : Limits) (text : Str) : Except DecodeError (Json F) :=
  match limits.rawDecode (skipWs text) with
  | .error e => .error e
  | .ok (value, rest) => if skipWs rest = [] then .ok value else .error .invalid

end Scanner

/-! ## Within the limits -/

/-- What is read within limits, and without. -/
def Agrees {α : Type} (x : Except DecodeError α) (y : Option α) : Prop :=
  (∀ a, x = .ok a → y = some a) ∧ (x = .error .invalid → y = none)

section Agreement

variable {α : Type} {x : Except DecodeError α} {y : Option α}

theorem agrees_ok (a : α) : Agrees (.ok a) (some a) := by
  constructor
  · intro b h
    rw [Except.ok.inj h]
  · intro h
    cases h

theorem agrees_invalid : Agrees (.error .invalid) (none : Option α) := by
  constructor
  · intro a h
    cases h
  · intro _
    rfl

/-- Beyond the limits, nothing is said. -/
theorem agrees_refused {e : DecodeError} (h : e ≠ .invalid) : Agrees (.error e) y := by
  constructor
  · intro a h
    cases h
  · intro h'
    exact absurd (Except.error.inj h') h

theorem agrees_orInvalid (y : Option α) : Agrees (orInvalid y) y := by
  cases y with
  | none => exact agrees_invalid
  | some a => exact agrees_ok a

theorem Agrees.eq_ok (h : Agrees x y) {a : α} (hy : y = some a) (hok : x.isOk = true) :
    x = .ok a := by
  cases x with
  | error e => cases hok
  | ok b =>
    have hb := h.1 b rfl
    rw [hy] at hb
    rw [Option.some.inj hb]

end Agreement

section Scanned

variable [PyFloat F] {n : Nat} {acc : Members F} {rest rest' : Str}

theorem scanValue_emptyObject (h : skipWs rest = .scalar '}' :: rest') :
    scanValue (n + 1) (.scalar '{' :: rest) = some (.obj (F := F) .nil, rest') := by
  rw [scanValue, h]
  rfl

theorem scanValue_object (h : ∀ rest', skipWs rest = .scalar '}' :: rest' → False) :
    scanValue (F := F) (n + 1) (.scalar '{' :: rest) = scanMembers n .nil (skipWs rest) := by
  rw [scanValue]
  split
  · rename_i heq
    exact absurd heq (h _)
  · rfl

theorem scanValue_emptyArray (h : skipWs rest = .scalar ']' :: rest') :
    scanValue (n + 1) (.scalar '[' :: rest) = some (.arr (F := F) .nil, rest') := by
  rw [scanValue, h]
  rfl

theorem scanValue_array (h : ∀ rest', skipWs rest = .scalar ']' :: rest' → False) :
    scanValue (F := F) (n + 1) (.scalar '[' :: rest) = scanElems n [] (skipWs rest) := by
  rw [scanValue]
  split
  · rename_i heq
    exact absurd heq (h _)
  · rfl

theorem scanMembers_noKey (h : scanString rest = none) :
    scanMembers (n + 1) acc (.scalar '"' :: rest) = none := by
  rw [scanMembers, h]

theorem scanMembers_noColon {k afterKey : Str} (hkey : scanString rest = some (k, afterKey))
    (h : ∀ rest', skipWs afterKey = .scalar ':' :: rest' → False) :
    scanMembers (n + 1) acc (.scalar '"' :: rest) = none := by
  rw [scanMembers, hkey]
  dsimp only
  split
  · rename_i heq
    exact absurd heq (h _)
  · rfl

theorem scanMembers_member {k afterKey : Str} (hkey : scanString rest = some (k, afterKey))
    (h : skipWs afterKey = .scalar ':' :: rest') :
    scanMembers (n + 1) acc (.scalar '"' :: rest) = (scanValue n (skipWs rest')).bind fun p =>
      scanMembersRest n (acc.put k p.1) (skipWs p.2) := by
  rw [scanMembers, hkey]
  dsimp only
  rw [h]
  cases hvalue : scanValue (F := F) n (skipWs rest') with
  | none => simp only [hvalue, Option.bind_none]
  | some p => simp only [hvalue, Option.bind_some]

end Scanned

section Limited

variable [PyFloat F]

theorem decodeAtom_agrees (digits : Nat) (text : Str) :
    Agrees (decodeAtom (F := F) digits text) (scanAtom text) := by
  unfold decodeAtom
  split
  · rename_i h
    rw [h]
    exact agrees_invalid
  · rename_i n rest h
    rw [h]
    split_ifs
    · exact agrees_refused (by decide)
    · exact agrees_ok _
  · rename_i value rest _ h
    rw [h]
    exact agrees_ok _

mutual

theorem decodeValue_agrees (digits : Nat) : ∀ (n depth : Nat) (text : Str),
    Agrees (decodeValue (F := F) digits n depth text) (scanValue n text)
  | 0, depth, text => by
    rw [decodeValue, scanValue]
    exact agrees_invalid
  | n + 1, depth, text => by
    unfold decodeValue
    split
    · rw [scanValue]
      exact agrees_orInvalid _
    · -- an object
      split_ifs
      · exact agrees_refused (by decide)
      · split
        · rename_i hend
          rw [scanValue_emptyObject hend]
          exact agrees_ok _
        · rename_i hopen
          rw [scanValue_object hopen]
          exact decodeMembers_agrees digits n (depth - 1) .nil _
    · -- an array
      split_ifs
      · exact agrees_refused (by decide)
      · split
        · rename_i hend
          rw [scanValue_emptyArray hend]
          exact agrees_ok _
        · rename_i hopen
          rw [scanValue_array hopen]
          exact decodeElems_agrees digits n (depth - 1) [] _
    · rw [scanValue]
      · exact decodeAtom_agrees digits text
      all_goals assumption

theorem decodeMembers_agrees (digits : Nat) : ∀ (n depth : Nat) (acc : Members F) (text : Str),
    Agrees (decodeMembers digits n depth acc text) (scanMembers n acc text)
  | 0, depth, acc, text => by
    rw [decodeMembers, scanMembers]
    exact agrees_invalid
  | n + 1, depth, acc, text => by
    unfold decodeMembers
    split
    · split
      · rename_i hkey
        rw [scanMembers_noKey hkey]
        exact agrees_invalid
      · rename_i k afterKey hkey
        split
        · rename_i rest hcolon
          rw [scanMembers_member hkey hcolon]
          have hvalue := decodeValue_agrees digits n depth (skipWs rest)
          cases hx : decodeValue (F := F) digits n depth (skipWs rest) with
          | ok p =>
            rw [hvalue.1 p hx]
            exact decodeMembersRest_agrees digits n depth _ _
          | error e =>
            by_cases he : e = .invalid
            · subst he
              rw [hvalue.2 hx]
              exact agrees_invalid
            · exact agrees_refused he
        · rename_i hcolon
          rw [scanMembers_noColon hkey hcolon]
          exact agrees_invalid
    · rw [scanMembers]
      · exact agrees_invalid
      all_goals assumption

theorem decodeMembersRest_agrees (digits : Nat) :
    ∀ (n depth : Nat) (acc : Members F) (text : Str),
      Agrees (decodeMembersRest digits n depth acc text) (scanMembersRest n acc text)
  | 0, depth, acc, text => by
    rw [decodeMembersRest, scanMembersRest]
    exact agrees_invalid
  | n + 1, depth, acc, text => by
    unfold decodeMembersRest
    split
    · rw [scanMembersRest]
      exact agrees_ok _
    · rw [scanMembersRest]
      exact decodeMembers_agrees digits n depth acc _
    · rw [scanMembersRest]
      · exact agrees_invalid
      all_goals assumption

theorem decodeElems_agrees (digits : Nat) :
    ∀ (n depth : Nat) (acc : List (Json F)) (text : Str),
      Agrees (decodeElems digits n depth acc text) (scanElems n acc text)
  | 0, depth, acc, text => by
    rw [decodeElems, scanElems]
    exact agrees_invalid
  | n + 1, depth, acc, text => by
    unfold decodeElems scanElems
    have hvalue := decodeValue_agrees digits n depth text
    cases hx : decodeValue (F := F) digits n depth text with
    | ok p =>
      rw [hvalue.1 p hx]
      exact decodeElemsRest_agrees digits n depth _ _
    | error e =>
      by_cases he : e = .invalid
      · subst he
        rw [hvalue.2 hx]
        exact agrees_invalid
      · exact agrees_refused he

theorem decodeElemsRest_agrees (digits : Nat) :
    ∀ (n depth : Nat) (acc : List (Json F)) (text : Str),
      Agrees (decodeElemsRest digits n depth acc text) (scanElemsRest n acc text)
  | 0, depth, acc, text => by
    rw [decodeElemsRest, scanElemsRest]
    exact agrees_invalid
  | n + 1, depth, acc, text => by
    unfold decodeElemsRest
    split
    · rw [scanElemsRest]
      exact agrees_ok _
    · rw [scanElemsRest]
      exact decodeElems_agrees digits n depth acc _
    · rw [scanElemsRest]
      · exact agrees_invalid
      all_goals assumption

end

theorem Limits.rawDecode_agrees (limits : Limits) (text : Str) :
    Agrees (limits.rawDecode (F := F) text) (PyJson.rawDecode text) :=
  decodeValue_agrees _ _ _ text

theorem Limits.loads_agrees (limits : Limits) (text : Str) :
    Agrees (limits.loads (F := F) text) (PyJson.loads text) := by
  unfold Limits.loads PyJson.loads
  have hagrees := limits.rawDecode_agrees (F := F) (skipWs text)
  cases hx : limits.rawDecode (F := F) (skipWs text) with
  | ok p =>
    rw [hagrees.1 p hx]
    dsimp only
    split_ifs
    · exact agrees_ok _
    · exact agrees_invalid
  | error e =>
    by_cases he : e = .invalid
    · subst he
      rw [hagrees.2 hx]
      exact agrees_invalid
    · exact agrees_refused he

end Limited

/-! ## Values within the limits -/

mutual

/-- The value keeps to the limits: its integers have at most `digits` digits, and it nests at most
`depth` containers. -/
def Json.within (digits : Nat) : Nat → Json F → Bool
  | _, .int n => digitCount n ≤ digits
  | depth, .arr xs => depth ≠ 0 && xs.within digits (depth - 1)
  | depth, .obj ms => depth ≠ 0 && ms.within digits (depth - 1)
  | _, _ => true

def Elems.within (digits : Nat) : Nat → Elems F → Bool
  | _, .nil => true
  | depth, .cons x xs => x.within digits depth && xs.within digits depth

def Members.within (digits : Nat) : Nat → Members F → Bool
  | _, .nil => true
  | depth, .cons _ x ms => x.within digits depth && ms.within digits depth

end

/-- The value keeps to the limits. -/
def Limits.Admits (limits : Limits) (v : Json F) : Prop :=
  v.within limits.digits limits.depth = true

section Written

variable [PyFloat F] {digits : Nat}

theorem decodeValue_atom {c : Char} (h : AtomHead c) (n depth : Nat) (rest : Str) :
    decodeValue (F := F) digits (n + 1) depth (.scalar c :: rest) =
      decodeAtom digits (.scalar c :: rest) := by
  rw [decodeValue]
  · rintro r hr
    cases hr
    exact h.1 rfl
  · rintro r hr
    cases hr
    exact h.2.1 rfl
  · rintro r hr
    cases hr
    exact h.2.2.1 rfl

/-- A value that is read keeps what is read behind it. -/
theorem decodeElems_isOk (digits : Nat) {n : Nat} (depth : Nat) (acc : List (Json F)) {text : Str}
    {x : Json F} {rest : Str} (hx : scanValue n text = some (x, rest)) :
    (decodeElems digits (n + 1) depth acc text).isOk =
      ((decodeValue (F := F) digits n depth text).isOk &&
        (decodeElemsRest digits n depth (x :: acc) (skipWs rest)).isOk) := by
  have hagrees := decodeValue_agrees (F := F) digits n depth text
  cases hread : decodeValue (F := F) digits n depth text with
  | error e =>
    rw [decodeElems, hread]
    rfl
  | ok p =>
    obtain rfl : (x, rest) = p := Option.some.inj (hx.symm.trans (hagrees.1 p hread))
    rw [decodeElems, hread]
    rfl

theorem decodeMembers_isOk (digits : Nat) (st : Style) {n : Nat} (depth : Nat) (acc : Members F)
    (k : Str) (x : Json F) (rest : Str)
      (hx : scanValue n (dumps st x ++ rest) = some (x.readBack st, rest)) :
    (decodeMembers digits (n + 1) depth acc
        (dumpsStr st k ++ (st.keySep ++ (dumps st x ++ rest)))).isOk =
      ((decodeValue (F := F) digits n depth (dumps st x ++ rest)).isOk &&
        (decodeMembersRest digits n depth (acc.put (st.readStr k) (x.readBack st))
          (skipWs rest)).isOk) := by
  obtain ⟨r, hr, hskip⟩ := keySep_append st (dumps st x ++ rest)
  have hagrees := decodeValue_agrees (F := F) digits n depth (dumps st x ++ rest)
  rw [dumpsStr, List.cons_append, List.append_assoc, List.singleton_append, hr, decodeMembers,
    scanString_dumpsStr]
  simp only [skipWs_cons (c := .scalar ':') rfl, hskip, skipWs_dumps]
  cases hread : decodeValue (F := F) digits n depth (dumps st x ++ rest) with
  | error e => rfl
  | ok p =>
    obtain rfl : (x.readBack st, rest) = p := Option.some.inj (hx.symm.trans (hagrees.1 p hread))
    rfl

mutual

/-- A written value is read exactly when it keeps to the limits. -/
theorem decodeValue_dumps (st : Style) : ∀ (v : Json F) {n : Nat} (depth : Nat) {rest : Str},
    2 * (dumps st v).length ≤ n → NumEnd rest →
      (decodeValue (F := F) digits n depth (dumps st v ++ rest)).isOk = v.within digits depth
  -- the fuel is at least twice the length of the text, so it does not run out
  | v, 0, _, _, hn, _ => by
    have := length_dumps_pos st v
    omega
  -- the constants are within every limit
  | .null, n + 1, depth, rest, _, _ => by
    change (decodeValue digits (n + 1) depth (.scalar 'n' :: (lit "ull" ++ rest))).isOk = _
    rw [decodeValue_atom (by decide)]
    rfl
  | .bool true, n + 1, depth, rest, _, _ => by
    change (decodeValue digits (n + 1) depth (.scalar 't' :: (lit "rue" ++ rest))).isOk = _
    rw [decodeValue_atom (by decide)]
    rfl
  | .bool false, n + 1, depth, rest, _, _ => by
    change (decodeValue digits (n + 1) depth (.scalar 'f' :: (lit "alse" ++ rest))).isOk = _
    rw [decodeValue_atom (by decide)]
    rfl
  -- an integer is within the limit on its digits, or `int` refuses it
  | .int i, n + 1, depth, rest, _, hend => by
    obtain ⟨c, r, h, hc⟩ := dumpsInt_head i
    have hatom := scanAtom_dumpsInt (F := F) i hend
    rw [dumps, h] at *
    rw [List.cons_append, decodeValue_atom hc, decodeAtom, ← List.cons_append, hatom]
    dsimp only
    rw [Json.within]
    split_ifs with hlong
    · exact (decide_eq_false (Nat.not_le.mpr hlong)).symm
    · exact (decide_eq_true (Nat.not_lt.mp hlong)).symm
  -- a float is no `int`, and has no limit
  | .float x, n + 1, depth, rest, _, hend => by
    obtain ⟨c, r, h, hc⟩ := spell_head x
    have hatom := scanAtom_spell x hend
    rw [dumps, h] at *
    rw [ofChars, List.map_cons, List.cons_append, decodeValue_atom hc, decodeAtom,
      ← List.cons_append, ← List.map_cons, ← ofChars, hatom]
    rfl
  -- a string has none either
  | .str s, n + 1, depth, rest, _, _ => by
    rw [dumps, dumpsStr, List.cons_append, List.append_assoc, decodeValue, List.singleton_append,
      scanString_dumpsStr]
    rfl
  -- an array enters one level, so a depth must be left
  | .arr .nil, n + 1, depth, rest, _, _ => by
    change (decodeValue digits (n + 1) depth (.scalar '[' :: .scalar ']' :: rest)).isOk = _
    rw [decodeValue, Json.within, Elems.within, Bool.and_true]
    split_ifs with hdepth
    · rw [hdepth]
      rfl
    · rw [skipWs_cons rfl, decide_eq_true hdepth]
      rfl
  | .arr (.cons x xs), 1, _, rest, hn, _ => by
    rw [dumps] at hn
    simp only [List.length_cons, List.length_append, List.length_nil] at hn
    omega
  -- with elements: the first and the rest are one level deeper
  | .arr (.cons x xs), n + 2, depth, rest, hn, _ => by
    obtain ⟨c, r, hd, hws, hc⟩ := dumps_head st x
    rw [dumps] at hn
    simp only [List.length_cons, List.length_append, List.length_nil] at hn
    have hend := numEnd_dumpsElems st xs rest
    have hscan := scanValue_dumps st x (n := n) (by omega) hend
    have hx := decodeValue_dumps st x (n := n) (depth - 1) (by omega) hend
    have hxs := decodeElemsRest_dumps st xs (n := n) (depth - 1) rest (by omega)
      [x.readBack st]
    have hstep := decodeElems_isOk digits (depth - 1) [] hscan
    rw [hx, hxs] at hstep
    rw [dumps, List.cons_append, List.append_assoc, List.append_assoc, List.singleton_append,
      decodeValue, Json.within, Elems.within, ← hstep, hd]
    split_ifs with hdepth
    · rw [hdepth]
      rfl
    · rw [decide_eq_true hdepth, Bool.true_and, List.cons_append, skipWs_cons hws]
      split
      · rename_i heq
        -- the first element begins with no bracket that closes
        cases heq
        exact absurd rfl hc
      · rfl
  -- an object goes by its members
  | .obj ms, n + 1, _, rest, hn, _ => decodeValue_dumps_obj st ms hn rest

theorem decodeValue_dumps_obj (st : Style) : ∀ (ms : Members F) {n depth : Nat},
    2 * (dumps st (.obj ms)).length ≤ n + 1 → ∀ rest,
      (decodeValue (F := F) digits (n + 1) depth (dumps st (.obj ms) ++ rest)).isOk =
        (Json.obj ms).within digits depth
  | .nil, n, depth, _, rest => by
    change (decodeValue digits (n + 1) depth (.scalar '{' :: .scalar '}' :: rest)).isOk = _
    rw [decodeValue, Json.within, Members.within, Bool.and_true]
    split_ifs with hdepth
    · rw [hdepth]
      rfl
    · rw [skipWs_cons rfl, decide_eq_true hdepth]
      rfl
  | .cons k x ms, n, depth, hn, rest => by
    have hkey := length_dumpsStr st k
    have hsep := length_keySep st
    rw [dumps] at hn
    simp only [List.length_cons, List.length_append, List.length_nil] at hn
    obtain ⟨n, rfl⟩ : ∃ m, n = m + 1 := ⟨n - 1, by omega⟩
    have hend := numEnd_dumpsMembers st ms rest
    have hscan := scanValue_dumps st x (n := n) (by omega) hend
    have hx := decodeValue_dumps st x (n := n) (depth - 1) (by omega) hend
    have hms := decodeMembersRest_dumps st ms (n := n) (depth - 1) rest (by omega)
      (Members.put (st.readStr k) (x.readBack st) .nil)
    have hstep := decodeMembers_isOk digits st (depth - 1) .nil k x _
      hscan
    rw [hx, hms] at hstep
    rw [dumps, List.cons_append, List.append_assoc, List.append_assoc, List.append_assoc,
      List.append_assoc, List.singleton_append, decodeValue, Json.within, Members.within, ← hstep]
    split_ifs with hdepth
    · rw [hdepth]
      rfl
    · rw [decide_eq_true hdepth, Bool.true_and]
      rfl

theorem decodeElemsRest_dumps (st : Style) : ∀ (xs : Elems F) {n : Nat} (depth : Nat) (rest : Str),
    2 * (dumpsElems st xs).length + 1 ≤ n → ∀ acc : List (Json F),
      (decodeElemsRest digits n depth acc
        (skipWs (dumpsElems st xs ++ .scalar ']' :: rest))).isOk = xs.within digits depth
  | _, 0, _, _, hn, _ => by omega
  | .nil, n + 1, depth, rest, _, acc => by
    change (decodeElemsRest digits (n + 1) depth acc (skipWs (.scalar ']' :: rest))).isOk = true
    rw [skipWs_cons rfl, decodeElemsRest]
    rfl
  | .cons x xs, 1, _, rest, hn, acc => by
    have hsep := length_itemSep st
    rw [dumpsElems] at hn
    simp only [List.length_append] at hn
    omega
  | .cons x xs, n + 2, depth, rest, hn, acc => by
    have hsep := length_itemSep st
    have hpos := length_dumps_pos st x
    rw [dumpsElems] at hn
    simp only [List.length_append] at hn
    have hend := numEnd_dumpsElems st xs rest
    have hscan := scanValue_dumps st x (n := n) (by omega) hend
    have hx := decodeValue_dumps st x (n := n) depth (by omega) hend
    have hxs := decodeElemsRest_dumps st xs (n := n) depth rest (by omega)
      (x.readBack st :: acc)
    have hstep := decodeElems_isOk digits depth acc hscan
    rw [hx, hxs] at hstep
    obtain ⟨r, hr, hskip⟩ := itemSep_append st
      (dumps st x ++ (dumpsElems st xs ++ .scalar ']' :: rest))
    rw [dumpsElems, List.append_assoc, List.append_assoc, hr, skipWs_cons rfl, decodeElemsRest,
      hskip, skipWs_dumps, hstep, Elems.within]

theorem decodeMembersRest_dumps (st : Style) :
    ∀ (ms : Members F) {n : Nat} (depth : Nat) (rest : Str),
    2 * (dumpsMembers st ms).length + 1 ≤ n → ∀ acc : Members F,
      (decodeMembersRest digits n depth acc
        (skipWs (dumpsMembers st ms ++ .scalar '}' :: rest))).isOk = ms.within digits depth
  | _, 0, _, _, hn, _ => by omega
  | .nil, n + 1, depth, rest, _, acc => by
    change (decodeMembersRest digits (n + 1) depth acc (skipWs (.scalar '}' :: rest))).isOk = true
    rw [skipWs_cons rfl, decodeMembersRest]
    rfl
  | .cons k x ms, 1, _, _, hn, _ => by
    have hsep := length_itemSep st
    rw [dumpsMembers] at hn
    simp only [List.length_append] at hn
    omega
  | .cons k x ms, n + 2, depth, rest, hn, acc => by
    have hkey := length_dumpsStr st k
    have hsep := length_itemSep st
    rw [dumpsMembers] at hn
    simp only [List.length_append] at hn
    have hend := numEnd_dumpsMembers st ms rest
    have hscan := scanValue_dumps st x (n := n) (by omega) hend
    have hx := decodeValue_dumps st x (n := n) depth (by omega) hend
    have hms := decodeMembersRest_dumps st ms (n := n) depth rest (by omega)
      (acc.put (st.readStr k) (x.readBack st))
    have hstep := decodeMembers_isOk digits st depth acc k x _ hscan
    rw [hx, hms] at hstep
    obtain ⟨r, hr, hskip⟩ := itemSep_append st
      (dumpsStr st k ++ (st.keySep ++ (dumps st x ++ (dumpsMembers st ms ++ .scalar '}' :: rest))))
    have hkeyWs : skipWs (dumpsStr st k ++
        (st.keySep ++ (dumps st x ++ (dumpsMembers st ms ++ .scalar '}' :: rest)))) =
        dumpsStr st k ++
          (st.keySep ++ (dumps st x ++ (dumpsMembers st ms ++ .scalar '}' :: rest))) :=
      skipWs_cons rfl _
    rw [dumpsMembers, List.append_assoc, List.append_assoc, List.append_assoc, List.append_assoc,
      hr, skipWs_cons rfl, decodeMembersRest, hskip, hkeyWs, hstep, Members.within]

end

/-- A written object is read back exactly when it keeps to the limits; otherwise something else
than a `JSONDecodeError` is raised. -/
theorem Limits.rawDecode_dumps_obj (limits : Limits) (st : Style) (ms : Members F) (rest : Str) :
    (limits.Admits (Json.obj ms) ∧
        limits.rawDecode (dumps st (.obj ms) ++ rest) = .ok ((Json.obj ms).readBack st, rest)) ∨
      ¬ limits.Admits (Json.obj ms) ∧ ∃ e : DecodeError, e ≠ .invalid ∧
        limits.rawDecode (F := F) (dumps st (.obj ms) ++ rest) = .error e := by
  have hscan := PyJson.rawDecode_dumps_obj st ms rest
  have hagrees := limits.rawDecode_agrees (F := F) (dumps st (.obj ms) ++ rest)
  have hok : (limits.rawDecode (F := F) (dumps st (.obj ms) ++ rest)).isOk =
      (Json.obj ms).within limits.digits limits.depth := by
    refine decodeValue_dumps_obj st ms ?_ rest
    rw [List.length_append]
    omega
  rw [Limits.Admits, ← hok]
  cases hread : limits.rawDecode (F := F) (dumps st (.obj ms) ++ rest) with
  | ok p =>
    left
    rw [hagrees.eq_ok hscan (by rw [hread]; rfl)] at hread
    exact ⟨rfl, hread.symm⟩
  | error e =>
    right
    refine ⟨Bool.false_ne_true, e, ?_, rfl⟩
    rintro rfl
    rw [hagrees.2 hread] at hscan
    cases hscan

end Written

end PyJson
