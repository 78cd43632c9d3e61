import Mathlib.Control.Monad.Basic
import Mathlib.Data.List.DropRight
import Mathlib.Data.List.Induction
import OmarchyYolo.Lib.JsonLimits

/-!
# OmarchyYolo.Util — bounded decoding and truncation

`YoloError`, and the two functions every agent reply and every prompt go
through:

* `extractJsonObject` — the last position of the reply's window at which an
  object decodes;
* `truncateUtf8` — a text cut to a number of bytes, behind a marker;
* `newId`, `slug` — identifiers, and the part of a name that goes into a branch.
-/

namespace OmarchyYolo

open Py PyJson

variable {F : Type}

/-- What the modelled functions raise. -/
inductive Exn where
  /-- An operational error; `shown` are the strings whose `repr` ends the message. -/
  | yoloError (message : Str) (shown : List Str)
  /-- An operation the reference model of the durable state forbids. -/
  | stateTransitionError (message : Str)
  /-- An argument outside its domain; `shown` as in `yoloError`. -/
  | valueError (message : Str) (shown : List Str)
  | keyError (key : Str)
  /-- A lone surrogate met by `str.encode("utf-8")`. -/
  | unicodeEncodeError
  /-- An integer that does not fit a column. -/
  | overflowError
  /-- A constraint of the database; the message is the database's own. -/
  | integrityError
  /-- A statement that the database refuses to prepare. -/
  | operationalError
  /-- The `ValueError` of an integer with too many digits for `int` or `str`. -/
  | intLimitError
  | recursionError
deriving DecidableEq, Repr

/-- `raise YoloError(...)`. -/
def raise {α : Type} (message : Str) (shown : List Str := []) : Except Exn α :=
  .error (.yoloError message shown)

/-- `if condition: raise YoloError(...)`. -/
def rejectIf (condition : Prop) [Decidable condition] (message : Str) (shown : List Str := []) :
    Except Exn Unit :=
  if condition then raise message shown else .ok ()

@[simp] theorem rejectIf_eq_ok {condition : Prop} [Decidable condition] {message : Str}
    {shown : List Str} {u : Unit} : rejectIf condition message shown = .ok u ↔ ¬ condition := by
  unfold rejectIf
  split_ifs with h
  · exact ⟨nofun, fun h' => absurd h h'⟩
  · exact ⟨fun _ => h, fun _ => rfl⟩

@[simp] theorem ok_bind {α β : Type} (a : α) (f : α → Except Exn β) :
    (Except.ok a >>= f) = f a := rfl

/-- A successful sequence, taken apart. -/
theorem bind_ok_iff {α β : Type} {x : Except Exn α} {f : α → Except Exn β} {b : β} :
    (x >>= f) = .ok b ↔ ∃ a, x = .ok a ∧ f a = .ok b := by
  cases x with
  | error e => exact ⟨nofun, nofun⟩
  | ok a => exact ⟨fun h => ⟨a, rfl, h⟩, fun ⟨_, ha, h⟩ => by cases ha; exact h⟩

/-- A list that may raise is made of what each of its items gives. -/
theorem mapM_ok_iff {α β : Type} {f : α → Except Exn β} {xs : List α} {ys : List β} :
    xs.mapM f = .ok ys ↔ List.Forall₂ (fun x y => f x = .ok y) xs ys := by
  induction xs generalizing ys with
  | nil =>
    constructor
    · intro h
      cases h
      exact List.Forall₂.nil
    · intro h
      cases h
      rfl
  | cons x xs ih =>
    rw [List.mapM_cons, bind_ok_iff]
    constructor
    · rintro ⟨y, hy, hrest⟩
      rcases bind_ok_iff.mp hrest with ⟨rest, hxs, hsame⟩
      cases hsame
      exact List.Forall₂.cons hy (ih.mp hxs)
    · intro h
      cases h with
      | cons hy hxs => exact ⟨_, hy, bind_ok_iff.mpr ⟨_, ih.mpr hxs, rfl⟩⟩

/-- A loop that may raise ends when none of its steps does. -/
theorem forM_eq_ok {α ε : Type} {f : α → Except ε Unit} {l : List α} :
    l.forM f = .ok () ↔ ∀ x ∈ l, f x = .ok () := by
  induction l with
  | nil => exact ⟨fun _ => nofun, fun _ => rfl⟩
  | cons a l ih =>
    rw [List.forall_mem_cons, ← ih]
    change (f a >>= fun _ => l.forM f) = .ok () ↔ _
    cases h : f a with
    | error e => exact ⟨nofun, fun h => nomatch h.1⟩
    | ok u => exact ⟨fun hrest => ⟨rfl, hrest⟩, fun hrest => hrest.2⟩

/-- `len(text.encode("utf-8"))`. -/
def utf8Bytes (text : Str) : Except Exn Nat :=
  if isText text then .ok (byteLen text) else .error .unicodeEncodeError

theorem utf8Bytes_eq {text : Str} (h : isText text = true) :
    utf8Bytes text = .ok (byteLen text) := by
  rw [utf8Bytes, if_pos h]

@[simp] theorem utf8Bytes_eq_ok {text : Str} {n : Nat} :
    utf8Bytes text = .ok n ↔ isText text = true ∧ byteLen text = n := by
  unfold utf8Bytes
  split_ifs with h
  · exact ⟨fun h' => ⟨h, by injection h'⟩, fun h' => by rw [h'.2]⟩
  · exact ⟨nofun, fun h' => absurd h'.1 h⟩

/-- `json_dumps`. -/
def jsonDumps [PyFloat F] (value : Json F) : Str := dumps ⟨true, false⟩ value.sortKeys

/-- The decimal text of a number. -/
def decimal (n : Nat) : Str := ofChars (Nat.toDigits 10 n)

theorem isText_decimal (n : Nat) : isText (decimal n) = true := isText_ofChars _

theorem isText_dumpsInt (n : Int) : isText (dumpsInt n) = true := by
  cases n <;> simp [dumpsInt, isScalar]

/-- `text[-n:]`, for positive `n`. -/
def lastChars (n : Nat) (text : Str) : Str := text.drop (text.length - n)

/-- A digit of `uuid4().hex`. -/
def hexDigit (digit : Fin 16) : PyChar := .scalar (Nat.digitChar digit)

/-- `new_id`, with the first digits of `uuid4().hex`. -/
def newId (kind : Str) (digits : List (Fin 16)) : Str := kind ++ lit "_" ++ digits.map hexDigit

theorem isText_newId {kind : Str} (hkind : isText kind = true) (digits : List (Fin 16)) :
    isText (newId kind digits) = true := by
  have hdigits : isText (digits.map hexDigit) = true := by
    rw [isText, List.all_map, List.all_eq_true]
    intro digit _
    rfl
  rw [newId, isText_append, isText_append, hkind, hdigits, isText_lit]
  rfl

/-! ## Slugs -/

/-- `[a-z0-9._-]`. -/
def isSlugChar : PyChar → Bool
  | .surrogate _ _ => false
  | .scalar c =>
    ('a' ≤ c && c ≤ 'z') || ('0' ≤ c && c ≤ '9') || c == '.' || c == '_' || c == '-'

/-- The characters of `"-._"`. -/
def isSeparator (c : PyChar) : Bool := c == .scalar '-' || c == .scalar '.' || c == .scalar '_'

/-- `re.sub(r"[^a-z0-9._-]+", "-", value)`; `inRun` inside a run that is already replaced. -/
def dashRuns : Bool → Str → Str
  | _, [] => []
  | inRun, c :: value =>
    if isSlugChar c then c :: dashRuns false value
    else if inRun then dashRuns true value
    else .scalar '-' :: dashRuns true value

/-- `value or "task"`. -/
def orTask (value : Str) : Str := if value = [] then lit "task" else value

/-- `slug`. -/
def slug (value : Str) (maxLen : Nat := 48) : Str :=
  let value := dashRuns false (lower (strip value))
  let value := orTask ((value.dropWhile isSeparator).rdropWhile isSeparator)
  orTask ((value.take maxLen).rdropWhile isSeparator)

theorem isText_dashRuns (inRun : Bool) (value : Str) : isText (dashRuns inRun value) = true := by
  induction value generalizing inRun with
  | nil => rfl
  | cons c value ih =>
    rw [dashRuns]
    split_ifs with hc
    · -- the characters that stay are ASCII
      cases c with
      | scalar c => rw [isText_cons, ih]; rfl
      | surrogate low bits => cases hc
    · exact ih true
    · rw [isText_cons, ih]
      rfl

theorem isText_of_subset {s t : Str} (h : ∀ c ∈ t, c ∈ s) (hs : isText s = true) :
    isText t = true :=
  List.all_eq_true.mpr fun c hc => List.all_eq_true.mp hs c (h c hc)

theorem isText_orTask {value : Str} (h : isText value = true) : isText (orTask value) = true := by
  rw [orTask]
  split_ifs
  · exact isText_lit _
  · exact h

/-- A slug is Unicode, whatever it is made from. -/
theorem isText_slug (value : Str) (maxLen : Nat) : isText (slug value maxLen) = true := by
  have htrimmed : ∀ s : Str, isText s = true → isText (s.rdropWhile isSeparator) = true :=
    fun s => isText_of_subset fun c hc => (List.rdropWhile_prefix isSeparator s).subset hc
  refine isText_orTask (htrimmed _ (isText_of_subset (fun c hc => List.mem_of_mem_take hc) ?_))
  refine isText_orTask (htrimmed _ ?_)
  exact isText_of_subset (fun c hc => (List.dropWhile_suffix isSeparator).subset hc)
    (isText_dashRuns _ _)

/-! ## Structured output -/

def maxStructuredOutputChars : Nat := 262144

def maxJsonDecodeAttempts : Nat := 512

/-- An interpreter as it is configured by default, with some containers to spare. -/
def usualLimits : Limits := ⟨4300, 1000⟩

/-- What `except json.JSONDecodeError` does not catch. -/
def uncaught : DecodeError → Option Exn
  | .invalid => none
  | .digits => some .intLimitError
  | .depth => some .recursionError

/-- How a decode ends the loop, if it does. -/
def decodeOutcome : Except DecodeError (Json F × Str) → Option (Except Exn (Members F))
  | .ok (.obj value, _) => some (.ok value)
  | .ok _ => none
  | .error e => (uncaught e).map .error

/-- The loop over `range(index - 1, -1, -1)`, after `attempts` decodes. -/
def extractFrom [PyFloat F] (limits : Limits) (window : Str) :
    Nat → Nat → Except Exn (Members F)
  | 0, _ => raise (lit "agent output did not contain a valid JSON object")
  | index + 1, attempts =>
    if window[index]? = some (.scalar '{') then
      if maxJsonDecodeAttempts < attempts + 1 then
        raise (lit "agent output did not contain a valid JSON object")
      else
        match decodeOutcome (limits.rawDecode (window.drop index)) with
        | some outcome => outcome
        | none => extractFrom limits window index (attempts + 1)
    else extractFrom limits window index attempts

/-- `extract_json_object`. -/
def extractJsonObject [PyFloat F] (limits : Limits) (text : Str) : Except Exn (Members F) :=
  extractFrom limits (lastChars maxStructuredOutputChars text)
    (lastChars maxStructuredOutputChars text).length 0

/-! ## Truncation -/

/-- The part of a text of more than `maxBytes` bytes that is kept in front of the
marker, or the whole of a shorter one. -/
def keptPart (value : Str) (maxBytes : Nat) (marker : Str) : Str :=
  if byteLen value ≤ maxBytes then value else takeBytes (maxBytes - byteLen marker) value

/-- `truncate_utf8`. -/
def truncateUtf8 (value : Str) (maxBytes : Nat)
    (marker : Str := lit "\n...[truncated]...\n") : Except Exn Str := do
  let encoded ← utf8Bytes value
  if encoded ≤ maxBytes then return value
  return keptPart value maxBytes marker ++ marker

/-- A front of a text is kept when the text is not cut, or not before its end. -/
theorem prefix_keptPart_iff_or {maxBytes : Nat} {marker part after : Str} :
    part <+: keptPart (part ++ after) maxBytes marker ↔
      byteLen (part ++ after) ≤ maxBytes ∨ byteLen part ≤ maxBytes - byteLen marker := by
  rw [keptPart]
  split_ifs with hfits
  · exact ⟨fun _ => .inl hfits, fun _ => List.prefix_append _ _⟩
  · rw [prefix_takeBytes_iff]
    exact ⟨.inr, fun h => h.resolve_left hfits⟩

/-- A part of a text that ends shortly before its end is kept exactly when the
text is not cut. -/
theorem prefix_keptPart_iff {maxBytes : Nat} {marker part after : Str}
    (hmarker : byteLen marker ≤ maxBytes) (hafter : byteLen after ≤ byteLen marker) :
    part <+: keptPart (part ++ after) maxBytes marker ↔
      byteLen part + byteLen after ≤ maxBytes := by
  rw [prefix_keptPart_iff_or, byteLen_append]
  omega

/-! ## What the loop returns -/

section Loop

variable [PyFloat F] {limits : Limits} {outcome : Except Exn (Members F)}

/-- The loop would end at the brace between `a` and `b` of `mid`, with `post` behind. -/
def DecodesAt (limits : Limits) (mid post : Str) (a b : Str) (outcome : Except Exn (Members F)) :
    Prop :=
  mid = a ++ .scalar '{' :: b ∧
    decodeOutcome (limits.rawDecode (.scalar '{' :: (b ++ post))) = some outcome

theorem not_decodesAt_nil (post a b : Str) : ¬ DecodesAt limits [] post a b outcome := by
  rintro ⟨heq, -⟩
  exact List.append_ne_nil_of_right_ne_nil a (List.cons_ne_nil _ b) heq.symm

/-- A decode at a brace of `mid ++ [c]` is one at a brace of `mid`, or at `c`. -/
theorem decodesAt_append_singleton {mid : Str} {c : PyChar} {post a b : Str} :
    DecodesAt limits (mid ++ [c]) post a b outcome ↔
      (∃ b', b = b' ++ [c] ∧ DecodesAt limits mid (c :: post) a b' outcome) ∨
        (b = [] ∧ a = mid ∧ c = .scalar '{' ∧
          decodeOutcome (limits.rawDecode (c :: post)) = some outcome) := by
  constructor
  · rintro ⟨heq, hdec⟩
    rcases List.eq_nil_or_concat b with rfl | ⟨b', d, rfl⟩
    · obtain ⟨rfl, hc⟩ := List.append_inj' heq rfl
      cases hc
      exact Or.inr ⟨rfl, rfl, rfl, hdec⟩
    · have heq' : mid ++ [c] = (a ++ .scalar '{' :: b') ++ [d] := by simpa using heq
      obtain ⟨rfl, hc⟩ := List.append_inj' heq' rfl
      cases hc
      exact Or.inl ⟨b', by simp, rfl, by simpa using hdec⟩
  · rintro (⟨b', rfl, rfl, hdec⟩ | ⟨rfl, rfl, rfl, hdec⟩)
    · exact ⟨by simp, by simpa using hdec⟩
    · exact ⟨rfl, hdec⟩

/-- One step of the loop, at the character `c`. -/
theorem extractFrom_step (pre post : Str) (c : PyChar) (attempts : Nat) :
    extractFrom (F := F) limits (pre ++ c :: post) (pre.length + 1) attempts =
      if c = .scalar '{' then
        if maxJsonDecodeAttempts < attempts + 1 then
          raise (lit "agent output did not contain a valid JSON object")
        else
          match decodeOutcome (limits.rawDecode (c :: post)) with
          | some outcome => outcome
          | none => extractFrom limits (pre ++ c :: post) pre.length (attempts + 1)
      else extractFrom limits (pre ++ c :: post) pre.length attempts := by
  rw [extractFrom]
  simp

/-- The last brace of `pre` at which the loop would end, with `post` behind it, and with decodes to
spare for the braces after it. -/
def LastDecodes (limits : Limits) (pre post : Str) (attempts : Nat)
    (outcome : Except Exn (Members F)) : Prop :=
  ∃ a b, DecodesAt limits pre post a b outcome ∧
    (∀ c d, ∀ other : Except Exn (Members F), ¬ DecodesAt limits b post c d other) ∧
    attempts + b.count (.scalar '{') < maxJsonDecodeAttempts

/-- At a character where the loop goes on, the search goes on in front of it. -/
theorem lastDecodes_append_singleton {pre post : Str} {c : PyChar}
    (hc : c = .scalar '{' → decodeOutcome (F := F) (limits.rawDecode (c :: post)) = none)
    {attempts : Nat} :
    LastDecodes limits (pre ++ [c]) post attempts outcome ↔
      LastDecodes limits pre (c :: post) (attempts + [c].count (.scalar '{')) outcome := by
  have hgone : ∀ b,
      (∀ d e, ∀ w : Except Exn (Members F), ¬ DecodesAt limits (b ++ [c]) post d e w) ↔
        ∀ d e, ∀ w : Except Exn (Members F), ¬ DecodesAt limits b (c :: post) d e w := by
    intro b
    constructor
    · intro h d e w hat
      exact h d (e ++ [c]) w (decodesAt_append_singleton.mpr (.inl ⟨e, rfl, hat⟩))
    · intro h d e w hat
      rcases decodesAt_append_singleton.mp hat with ⟨e', -, hat'⟩ | ⟨-, -, heq, hdec⟩
      · exact h d e' w hat'
      · rw [hc heq] at hdec
        cases hdec
  constructor
  · rintro ⟨a, b, hat, hnone, hcount⟩
    rcases decodesAt_append_singleton.mp hat with ⟨b', rfl, hat'⟩ | ⟨-, -, heq, hdec⟩
    · rw [List.count_append] at hcount
      exact ⟨a, b', hat', (hgone b').mp hnone, by omega⟩
    · rw [hc heq] at hdec
      cases hdec
  · rintro ⟨a, b, hat, hnone, hcount⟩
    refine ⟨a, b ++ [c], decodesAt_append_singleton.mpr (.inl ⟨b, rfl, hat⟩),
      (hgone b).mpr hnone, ?_⟩
    rw [List.count_append]
    omega

/-- Scanning backwards ends at the last such brace. -/
theorem extractFrom_ok_iff (pre post : Str) {attempts : Nat} {value : Members F} :
    extractFrom limits (pre ++ post) pre.length attempts = .ok value ↔
      LastDecodes limits pre post attempts (.ok value) := by
  -- over the text from its end, as `rfind` goes; `attempts` counts the braces tried
  induction pre using List.reverseRecOn generalizing post attempts with
  | nil =>
    constructor
    · intro h
      cases h
    · rintro ⟨a, b, hat, -⟩
      exact absurd hat (not_decodesAt_nil post a b)
  | append_singleton pre c ih =>
    rw [List.append_assoc, List.singleton_append, List.length_append, List.length_singleton,
      extractFrom_step]
    -- only a brace is tried
    by_cases hc : c = .scalar '{'
    · rw [if_pos hc]
      split_ifs with hspent
      · -- no decode is left
        constructor
        · intro h
          cases h
        · rintro ⟨a, b, -, -, hcount⟩
          omega
      split
      -- it decodes: no brace after it does, so it is the last one
      · rename_i found hdec
        constructor
        · intro h
          rw [h] at hdec
          exact ⟨pre, [], decodesAt_append_singleton.mpr (.inr ⟨rfl, rfl, hc, hdec⟩),
            fun d e w => not_decodesAt_nil post d e, by rw [List.count_nil]; omega⟩
        · rintro ⟨a, b, hat, hnone, -⟩
          rcases decodesAt_append_singleton.mp hat with ⟨b', rfl, -⟩ | ⟨-, -, -, hdec'⟩
          · exact absurd (decodesAt_append_singleton.mpr (.inr ⟨rfl, rfl, hc, hdec⟩))
              (hnone b' [] found)
          · exact Option.some.inj (hdec.symm.trans hdec')
      -- it does not: the search goes on in front of it
      · rename_i hfail
        rw [ih, lastDecodes_append_singleton fun _ => hfail, hc, List.count_singleton_self]
    · rw [if_neg hc, ih, lastDecodes_append_singleton fun heq => absurd heq hc,
        List.count_singleton, if_neg (by simpa using hc), Nat.add_zero]

/-- The last object of a text, with nothing behind it at which the loop would end. -/
def LastObject (limits : Limits) (text : Str) (value : Members F) : Prop :=
  LastDecodes limits text [] 0 (.ok value)

/-- What `extract_json_object` returns is the last object of its window. -/
theorem extractJsonObject_ok_iff {text : Str} {value : Members F} :
    extractJsonObject limits text = .ok value ↔
      LastObject limits (lastChars maxStructuredOutputChars text) value := by
  have h : extractFrom limits (lastChars maxStructuredOutputChars text ++ []) _ 0 = .ok value ↔ _ :=
    extractFrom_ok_iff (lastChars maxStructuredOutputChars text) []
  rw [List.append_nil] at h
  exact h

end Loop

end OmarchyYolo
