import OmarchyYolo.Lib.JsonAscii
import OmarchyYolo.Lib.JsonLoads
import OmarchyYolo.Lib.JsonLocal
import OmarchyYolo.Lib.JsonSize
import OmarchyYolo.Lib.PyRepr
import OmarchyYolo.Lib.StackWalk
import OmarchyYolo.Planner
import OmarchyYolo.TerminalText

/-!
# OmarchyYolo.EventStream — the answer in the output of an agent

OpenCode writes an event a line. `_normalize_stdout` collects the texts of the events,
joins them and cuts the end off; the answer is then looked for from the end.

* `collectText`, `normalizeStdout` — the two methods;
* `values`, `eventTexts` — the values of an event in the order of the walk, and its texts;
  `collectText_eq`: the walk collects those of the first 10 000 values;
* `Transcript` — an output with one answer in its last text;
* `answer_kept`: when the object read from it is that answer.
-/

namespace OmarchyYolo

open Py PyJson StackWalk

variable {F : Type}

/-! ## The methods -/

def textKeys : List Str := [lit "text", lit "result", lit "content"]

/-- `isinstance(value, (dict, list))` -/
def isContainer : Json F → Bool
  | .arr _ => true
  | .obj _ => true
  | _ => false

/-- The loop over the items of a `dict`, with the stack and the texts so far. -/
def collectItems : Members F → List (Json F) → List Str → List (Json F) × List Str
  | .nil, stack, target => (stack, target)
  | .cons key child items, stack, target =>
    match child with
    | .str text => collectItems items stack (if key ∈ textKeys then target ++ [text] else target)
    | child =>
      collectItems items (if isContainer child then child :: stack else stack) target

/-- The body of the loop of `_collect_text`; the top of the stack comes first. -/
def visitValue (current : Json F) (stack : List (Json F)) (target : List Str) :
    List (Json F) × List Str :=
  match current with
  | .obj items => collectItems items stack target
  | .arr items => (items.toList ++ stack, target)
  | _ => (stack, target)

/-- The loop, with so many visits left. -/
def collectFrom : Nat → List (Json F) → List Str → List Str
  | 0, _, target => target
  | _ + 1, [], target => target
  | n + 1, current :: stack, target =>
    let visited := visitValue current stack target
    collectFrom n visited.1 visited.2

def maxVisits : Nat := 10000

/-- `_collect_text`. -/
def collectText (value : Json F) (target : List Str) : List Str :=
  collectFrom maxVisits [value] target

def maxTextBytes : Nat := 262144

/-- `"\n".join(texts)` -/
def joinTexts (texts : List Str) : Str := List.intercalate [.scalar '\n'] texts

/-- The body of the loop over the lines. -/
def collectLine (F : Type) [PyFloat F] (limits : Limits) (texts : List Str) (line : Str) :
    Except Exn (List Str) :=
  match limits.loads (F := F) line with
  | .ok value => .ok (collectText value texts)
  | .error e =>
    match uncaught e with
    | some exn => .error exn
    | none => .ok texts

/-- The texts of the lines that are JSON. -/
def collectLines (F : Type) [PyFloat F] (limits : Limits) (lines : List Str) :
    Except Exn (List Str) :=
  lines.foldlM (collectLine F limits) []

/-- `_normalize_stdout`. -/
def normalizeStdout (F : Type) [PyFloat F] (limits : Limits) (name stdout : Str) :
    Except Exn Str :=
  if name = lit "claude" then
    match limits.loads (F := F) stdout with
    | .ok (.obj value) =>
      match value.get? (lit "result") with
      | some (.str result) => .ok result
      | _ => .ok stdout
    | .ok _ => .ok stdout
    | .error e =>
      match uncaught e with
      | some exn => .error exn
      | none => .ok stdout
  else if name = lit "opencode" then do
    let texts ← collectLines F limits (bareLines stdout)
    if texts ≠ [] then truncateUtf8 (joinTexts texts) maxTextBytes else .ok stdout
  else .ok stdout

/-! ## The texts of an event -/

/-- The texts that are items of an object, under one of the three keys. -/
def memberTexts : Members F → List Str
  | .nil => []
  | .cons key child items =>
    match child with
    | .str text => if key ∈ textKeys then text :: memberTexts items else memberTexts items
    | _ => memberTexts items

/-- The objects and arrays that are items of an object, the last one first. -/
def memberContainers : Members F → List (Json F)
  | .nil => []
  | .cons _ child items => memberContainers items ++ if isContainer child then [child] else []

/-- What a visit pushes. -/
def children : Json F → List (Json F)
  | .obj items => memberContainers items
  | .arr items => items.toList
  | _ => []

def ownTexts : Json F → List Str
  | .obj items => memberTexts items
  | _ => []

mutual

/-- The values that a walk without a limit visits, in its order. -/
def values : Json F → List (Json F)
  | .obj items => .obj items :: memberValues items
  | .arr items => .arr items :: elemValues items
  | value => [value]

def elemValues : Elems F → List (Json F)
  | .nil => []
  | .cons item items => values item ++ elemValues items

def memberValues : Members F → List (Json F)
  | .nil => []
  | .cons _ child items => memberValues items ++ if isContainer child then values child else []

end

/-- The texts of an event, wherever they are in it. -/
def eventTexts (event : Json F) : List Str := (values event).flatMap ownTexts

theorem elemValues_eq (items : Elems F) : elemValues items = items.toList.flatMap values := by
  induction items using Elems.toList.induct with
  | case1 => rfl
  | case2 item items ih =>
    rw [elemValues, ih]
    rfl

theorem memberValues_eq (items : Members F) :
    memberValues items = (memberContainers items).flatMap values := by
  induction items using memberContainers.induct with
  | case1 => rfl
  | case2 key child items ih =>
    rw [memberValues, memberContainers, List.flatMap_append, ih]
    split_ifs
    · rw [List.flatMap_singleton]
    · rfl

theorem isPreorder_values : IsPreorder (children (F := F)) values := by
  intro value
  cases value with
  | obj items => rw [values, children, memberValues_eq]
  | arr items => rw [values, children, elemValues_eq]
  | null => rfl
  | bool b => rfl
  | int n => rfl
  | float x => rfl
  | str s => rfl

/-- A child that is no text, in both readings of the loop. -/
theorem collectItems_other {key : Str} {child : Json F} {items : Members F} {stack : List (Json F)}
    {target : List Str} (hother : ∀ text, child ≠ .str text) :
    collectItems (.cons key child items) stack target =
        collectItems items (if isContainer child then child :: stack else stack) target ∧
      memberTexts (.cons key child items) = memberTexts items := by
  cases child with
  | str text => exact absurd rfl (hother text)
  | _ => exact ⟨rfl, rfl⟩

/-- The items of an object, with the stack and the texts so far. -/
theorem collectItems_eq : ∀ (items : Members F) (stack : List (Json F)) (target : List Str),
    collectItems items stack target =
      (memberContainers items ++ stack, target ++ memberTexts items)
  | .nil, stack, target => by rw [collectItems, memberContainers, memberTexts]; simp
  | .cons key child items, stack, target => by
    by_cases htext : ∃ text, child = .str text
    · rcases htext with ⟨text, rfl⟩
      rw [collectItems, collectItems_eq items, memberContainers, memberTexts]
      split_ifs <;> simp_all [isContainer]
    · have hother : ∀ text, child ≠ .str text := fun text heq => htext ⟨text, heq⟩
      have hstep := @collectItems_other F key child items stack target hother
      rw [hstep.1, hstep.2, collectItems_eq items, memberContainers]
      split_ifs
      · rw [List.append_assoc, List.singleton_append]
      · rw [List.append_nil]

theorem visitValue_eq (current : Json F) (stack : List (Json F)) (target : List Str) :
    visitValue current stack target = (children current ++ stack, target ++ ownTexts current) := by
  cases current with
  | obj items => exact collectItems_eq items stack target
  | _ => rw [visitValue, ownTexts, List.append_nil] <;> first | rfl | nofun

/-- The loop collects the texts of the values that it visits. -/
theorem collectFrom_eq (n : Nat) (stack : List (Json F)) (target : List Str) :
    collectFrom n stack target = target ++ (visits children n stack).flatMap ownTexts := by
  induction n generalizing stack target with
  | zero => rw [collectFrom, visits, List.flatMap_nil, List.append_nil]
  | succ n ih =>
    cases stack with
    | nil => rw [collectFrom, visits, List.flatMap_nil, List.append_nil]
    | cons current stack =>
      rw [collectFrom, visitValue_eq, ih, visits, List.flatMap_cons, List.append_assoc]

/-- The texts that the walk meets in an event. -/
def metTexts (event : Json F) : List Str := ((values event).take maxVisits).flatMap ownTexts

theorem collectText_eq (value : Json F) (target : List Str) :
    collectText value target = target ++ metTexts value := by
  rw [collectText, collectFrom_eq, isPreorder_values.visits_eq, List.flatMap_singleton, metTexts]

theorem metTexts_of_length_le {event : Json F} (h : (values event).length ≤ maxVisits) :
    metTexts event = eventTexts event := by
  rw [metTexts, List.take_of_length_le h, eventTexts]

/-! ## What is handed on -/

section Streams

variable [PyFloat F]

/-- The texts that are met in a line. -/
def lineTexts (F : Type) [PyFloat F] (line : Str) : List Str :=
  match loads (F := F) line with
  | some value => metTexts value
  | none => []

/-- The texts that are met in an output. -/
def streamTexts (F : Type) [PyFloat F] (stdout : Str) : List Str :=
  (bareLines stdout).flatMap (lineTexts F)

/-- Reading the line raises nothing but a `JSONDecodeError`: what the scanner meets of it is within
the limits. -/
def LineReads (F : Type) [PyFloat F] (limits : Limits) (line : Str) : Prop :=
  ∀ e, limits.loads (F := F) line = .error e → uncaught e = none

theorem uncaught_eq_none {e : DecodeError} : uncaught e = none ↔ e = .invalid := by
  cases e <;> simp [uncaught]

/-- A line that can be read gives the texts that are met in it; another one raises. -/
theorem collectLine_ok_iff {limits : Limits} {target texts : List Str} {line : Str} :
    collectLine F limits target line = .ok texts ↔
      LineReads F limits line ∧ texts = target ++ lineTexts F line := by
  have hagrees := limits.loads_agrees (F := F) line
  rw [collectLine, lineTexts, LineReads]
  cases hload : limits.loads (F := F) line with
  | ok value =>
    rw [hagrees.1 value hload]
    dsimp only
    rw [collectText_eq]
    constructor
    · intro h
      exact ⟨fun e he => (by cases he), (Except.ok.inj h).symm⟩
    · rintro ⟨-, rfl⟩
      rfl
  | error e =>
    dsimp only
    cases hraised : uncaught e with
    | some exn =>
      constructor
      · intro h
        cases h
      · rintro ⟨hread, -⟩
        rw [hread e rfl] at hraised
        cases hraised
    | none =>
      obtain rfl := uncaught_eq_none.mp hraised
      rw [hagrees.2 hload, List.append_nil]
      constructor
      · intro h
        exact ⟨fun e he => (by rw [← Except.error.inj he]; rfl), (Except.ok.inj h).symm⟩
      · rintro ⟨-, rfl⟩
        rfl

theorem collectLines_ok_iff {limits : Limits} {lines texts : List Str} :
    collectLines F limits lines = .ok texts ↔
      (∀ line ∈ lines, LineReads F limits line) ∧ texts = lines.flatMap (lineTexts F) := by
  have hfold : ∀ target texts : List Str,
      lines.foldlM (collectLine F limits) target = .ok texts ↔
        (∀ line ∈ lines, LineReads F limits line) ∧
          texts = target ++ lines.flatMap (lineTexts F) := by
    induction lines with
    | nil =>
      intro target texts
      rw [List.foldlM_nil, List.flatMap_nil, List.append_nil]
      constructor
      · intro h
        exact ⟨List.forall_mem_nil _, (Except.ok.inj h).symm⟩
      · rintro ⟨-, rfl⟩
        rfl
    | cons line lines ih =>
      intro target texts
      rw [List.foldlM_cons, List.flatMap_cons, List.forall_mem_cons, bind_ok_iff]
      constructor
      · rintro ⟨met, hline, hrest⟩
        obtain ⟨hread, rfl⟩ := collectLine_ok_iff.mp hline
        obtain ⟨hreads, htexts⟩ := (ih _ texts).mp hrest
        exact ⟨⟨hread, hreads⟩, by rw [htexts, List.append_assoc]⟩
      · rintro ⟨⟨hread, hreads⟩, htexts⟩
        refine ⟨target ++ lineTexts F line, collectLine_ok_iff.mpr ⟨hread, rfl⟩, ?_⟩
        exact (ih _ texts).mpr ⟨hreads, by rw [htexts, List.append_assoc]⟩
  rw [collectLines, hfold, List.nil_append]

/-- The last text is at the end. -/
theorem exists_joinTexts_append (texts : List Str) (last : Str) :
    ∃ front, joinTexts (texts ++ [last]) = front ++ last := by
  induction texts with
  | nil => exact ⟨[], List.intercalate_singleton⟩
  | cons text texts ih =>
    obtain ⟨front, heq⟩ := ih
    obtain ⟨next, rest, hne⟩ := List.exists_cons_of_ne_nil
      (List.append_ne_nil_of_right_ne_nil texts (List.cons_ne_nil last []))
    refine ⟨text ++ [.scalar '\n'] ++ front, ?_⟩
    rw [List.cons_append, List.append_assoc _ front, ← heq, hne, joinTexts,
      List.intercalate_cons_cons, joinTexts]

/-- The texts that are left of an output: the output itself when it has none. -/
def remains (F : Type) [PyFloat F] (stdout : Str) : Str :=
  if streamTexts F stdout = [] then stdout
  else if byteLen (joinTexts (streamTexts F stdout)) ≤ maxTextBytes then
    joinTexts (streamTexts F stdout)
  else
    keptPart (joinTexts (streamTexts F stdout)) maxTextBytes (lit "\n...[truncated]...\n") ++
      lit "\n...[truncated]...\n"

/-- For OpenCode, what is left is handed on when the lines can be read and the texts encoded. -/
theorem normalizeStdout_opencode {limits : Limits} {stdout text : Str} :
    normalizeStdout F limits (lit "opencode") stdout = .ok text ↔
      (∀ line ∈ bareLines stdout, LineReads F limits line) ∧
        (∀ text ∈ streamTexts F stdout, isText text = true) ∧ text = remains F stdout := by
  have hname : lit "opencode" ≠ lit "claude" := by decide
  have hall : isText (joinTexts (streamTexts F stdout)) = true ↔
      ∀ text ∈ streamTexts F stdout, isText text = true := isText_intercalate rfl
  -- the texts are joined and cut, or the output stays as it is
  have hcut : (if streamTexts F stdout ≠ [] then
        truncateUtf8 (joinTexts (streamTexts F stdout)) maxTextBytes else .ok stdout) = .ok text ↔
      (∀ text ∈ streamTexts F stdout, isText text = true) ∧ text = remains F stdout := by
    by_cases hnone : streamTexts F stdout = []
    · rw [if_neg (not_not.mpr hnone), remains, if_pos hnone, hnone]
      constructor
      · intro h
        exact ⟨List.forall_mem_nil _, (Except.ok.inj h).symm⟩
      · rintro ⟨-, rfl⟩
        rfl
    rw [if_pos hnone, ← hall]
    -- joined they are text, or `encode` raises
    by_cases htext : isText (joinTexts (streamTexts F stdout)) = true
    · have hcut : truncateUtf8 (joinTexts (streamTexts F stdout)) maxTextBytes =
          .ok (remains F stdout) := by
        rw [truncateUtf8, utf8Bytes_eq htext, ok_bind, remains, if_neg hnone]
        split_ifs <;> rfl
      rw [hcut]
      constructor
      · intro h
        exact ⟨htext, (Except.ok.inj h).symm⟩
      · rintro ⟨-, rfl⟩
        rfl
    · rw [truncateUtf8, utf8Bytes, if_neg htext]
      constructor
      · intro h
        cases h
      · rintro ⟨h, -⟩
        exact absurd h htext
  rw [normalizeStdout, if_neg hname, if_pos rfl, bind_ok_iff, ← hcut]
  -- every line is read, or the loop raises
  constructor
  · rintro ⟨texts, htexts, hrest⟩
    obtain ⟨hread, rfl⟩ := collectLines_ok_iff.mp htexts
    exact ⟨hread, hrest⟩
  · rintro ⟨hread, hrest⟩
    exact ⟨streamTexts F stdout, collectLines_ok_iff.mpr ⟨hread, rfl⟩, hrest⟩

/-- What is looked for in what is left. -/
theorem readStdout_iff {limits : Limits} {stdout : Str} {v : Members F} :
    (normalizeStdout F limits (lit "opencode") stdout >>= fun text =>
        extractJsonObject limits text) = .ok v ↔
      (∀ line ∈ bareLines stdout, LineReads F limits line) ∧
        (∀ text ∈ streamTexts F stdout, isText text = true) ∧
        LastObject limits (lastChars maxStructuredOutputChars (remains F stdout)) v := by
  rw [bind_ok_iff]
  constructor
  · rintro ⟨text, hok, hread⟩
    obtain ⟨hlines, htext, rfl⟩ := normalizeStdout_opencode.mp hok
    exact ⟨hlines, htext, extractJsonObject_ok_iff.mp hread⟩
  · rintro ⟨hlines, htext, hlast⟩
    exact ⟨remains F stdout, normalizeStdout_opencode.mpr ⟨hlines, htext, rfl⟩,
      extractJsonObject_ok_iff.mpr hlast⟩

/-- An output without another line break than the newlines has its lines. -/
theorem bareLines_append_newline {line : Str} (hline : ∀ c ∈ line, isLineBreak c = false)
    (text : Str) : bareLines (line ++ .scalar '\n' :: text) = line :: bareLines text := by
  have hsplit : splitLines (line ++ .scalar '\n' :: text) =
      (line ++ [.scalar '\n']) :: splitLines text := by
    induction line with
    | nil => rfl
    | cons c line ih =>
      have hc : isLineBreak c = false := hline c List.mem_cons_self
      have hcr : c ≠ .scalar '\r' := by
        rintro rfl
        cases hc
      rw [List.cons_append, splitLines_cons_of_ne hcr,
        ih fun d hd => hline d (List.mem_cons_of_mem c hd), hc]
      rfl
  rw [bareLines, hsplit, List.map_cons, List.rdropWhile_concat_pos _ _ _ rfl, ← bareLines,
    List.rdropWhile_eq_self_iff.mpr]
  intro hne
  rw [hline _ (List.getLast_mem hne)]
  exact Bool.false_ne_true

theorem bareLines_of_unbroken {line : Str} (hne : line ≠ [])
    (hline : ∀ c ∈ line, isLineBreak c = false) : bareLines line = [line] := by
  rw [bareLines, splitLines_eq_singleton hne hline, List.map_singleton,
    List.rdropWhile_eq_self_iff.mpr]
  intro hne
  rw [hline _ (List.getLast_mem hne)]
  exact Bool.false_ne_true

theorem bareLines_joinTexts {lines : List Str} (hne : lines ≠ [])
    (hlines : ∀ line ∈ lines, line ≠ [] ∧ ∀ c ∈ line, isLineBreak c = false) {ending : Str}
    (hending : ending = [] ∨ ending = [.scalar '\n']) :
    bareLines (joinTexts lines ++ ending) = lines := by
  induction lines with
  | nil => exact absurd rfl hne
  | cons line lines ih =>
    obtain ⟨hline, hbreaks⟩ := hlines line List.mem_cons_self
    cases lines with
    | nil =>
      rw [joinTexts, List.intercalate_singleton]
      rcases hending with rfl | rfl
      · rw [List.append_nil, bareLines_of_unbroken hline hbreaks]
      · rw [bareLines_append_newline hbreaks]
        rfl
    | cons next lines =>
      have hrest := ih (List.cons_ne_nil next lines) fun l hl =>
        hlines l (List.mem_cons_of_mem line hl)
      rw [joinTexts, List.intercalate_cons_cons, List.append_assoc, List.append_assoc, ← joinTexts,
        List.singleton_append, bareLines_append_newline hbreaks, hrest]

end Streams

/-! ## Transcripts -/

/-- The bytes of an output that are captured. -/
def captureLimitBytes : Nat := 2000000

/-- The texts of the event of a line. -/
def textsOfLine (F : Type) [PyFloat F] (line : Str) : List Str :=
  match loads (F := F) line with
  | some event => eventTexts event
  | none => []

/-- An output of one event a line, whose last text is a written object. -/
structure Transcript (F : Type) [PyFloat F] where
  lines : List Str
  /-- The last line may end with a newline. -/
  ending : Str
  answer : Members F
  ending_eq : ending = [] ∨ ending = [.scalar '\n']
  decoded : isText (joinTexts lines ++ ending) = true
  captured : byteLen (joinTexts lines ++ ending) ≤ captureLimitBytes
  isEvent : ∀ line ∈ lines, .scalar '\n' ∉ line ∧ ∃ event : Members F,
    loads line = some (.obj event) ∧ (eventTexts (.obj event)).length ≤ 1
  isDict : answer.WF
  flat : memberContainers answer = []
  answers : (lines.flatMap (textsOfLine F)).getLast? = some (dumps .default (.obj answer))

namespace Transcript

variable [PyFloat F]

def stdout (t : Transcript F) : Str := joinTexts t.lines ++ t.ending

/-- The object read from the output is the answer. -/
def Returned (limits : Limits) (t : Transcript F) : Prop :=
  (normalizeStdout F limits (lit "opencode") t.stdout >>= fun text =>
    extractJsonObject limits text) = .ok t.answer

/-- The texts of the events, and those that are met. -/
def texts (t : Transcript F) : List Str := t.lines.flatMap (textsOfLine F)

def met (t : Transcript F) : List Str := streamTexts F t.stdout

/-- The answer is met last, and no text is cut. -/
def AnswerWhole (t : Transcript F) : Prop :=
  t.met.getLast? = some (dumps .default (.obj t.answer)) ∧ byteLen (joinTexts t.met) ≤ maxTextBytes

/-- The lines can be read and the texts that are met be encoded; the answer is whole, keeps to the
limits, and the search ends nowhere in its strings. -/
structure Intact (limits : Limits) (t : Transcript F) : Prop where
  read : ∀ line ∈ bareLines t.stdout, LineReads F limits line
  encoded : ∀ text ∈ t.met, isText text = true
  whole : t.AnswerWhole
  admitted : limits.Admits (Json.obj t.answer)
  pairFree : t.answer.PairFree .default
  alone : NoInnerObject limits .default t.answer []
  braces : (dumps .default (.obj t.answer)).count (.scalar '{') ≤ maxJsonDecodeAttempts

/-- The texts that are met, or the output when there are none. -/
def searched (t : Transcript F) : Str := if t.met = [] then t.stdout else joinTexts t.met

/-- The object of the answer can be read at another place than the answer. -/
def Repeats (t : Transcript F) : Prop :=
  ∃ a b rest, t.searched = a ++ .scalar '{' :: b ∧
    rawDecode (.scalar '{' :: b) = some (.obj t.answer, rest) ∧
    (t.met.getLast? = some (dumps .default (.obj t.answer)) →
      .scalar '{' :: b ≠ dumps .default (.obj t.answer))

/-- Each line is one for Python too, and its event is small. -/
structure Legible (t : Transcript F) : Prop where
  unbroken : ∀ line ∈ t.lines, ∀ c ∈ line, isLineBreak c = false
  small : ∀ line ∈ t.lines, ∀ event : Json F, loads line = some event →
    (values event).length ≤ maxVisits

/-- Every text of a legible output is met. -/
theorem Legible.met_eq {t : Transcript F} (h : t.Legible) : t.met = t.texts := by
  have hne : t.lines ≠ [] := by
    intro hnil
    have hanswers := t.answers
    rw [hnil] at hanswers
    cases hanswers
  have hlines : ∀ line ∈ t.lines, line ≠ [] ∧ ∀ c ∈ line, isLineBreak c = false := by
    intro line hline
    refine ⟨?_, h.unbroken line hline⟩
    rintro rfl
    obtain ⟨-, event, hload, -⟩ := t.isEvent [] hline
    cases hload
  rw [met, streamTexts, stdout, bareLines_joinTexts hne hlines t.ending_eq, texts]
  refine List.flatMap_congr fun line hline => ?_
  obtain ⟨-, event, hload, -⟩ := t.isEvent line hline
  rw [lineTexts, textsOfLine, hload]
  exact metTexts_of_length_le (h.small line hline (.obj event) hload)

/-- The answer is the last object of what is left when it is whole and alone. -/
theorem lastObject_iff {limits : Limits} {t : Transcript F} (h : t.AnswerWhole) :
    LastObject limits (lastChars maxStructuredOutputChars (remains F t.stdout)) t.answer ↔
      (limits.Admits (Json.obj t.answer) ∧ t.answer.PairFree .default) ∧
        NoInnerObject limits .default t.answer [] ∧
        (dumps .default (.obj t.answer)).count (.scalar '{') ≤ maxJsonDecodeAttempts := by
  obtain ⟨hlast, hfits⟩ := h
  obtain ⟨front, hmet⟩ := List.getLast?_eq_some_iff.mp hlast
  have hsome : streamTexts F t.stdout ≠ [] := by
    rw [← met, hmet]
    exact List.append_ne_nil_of_right_ne_nil front (List.cons_ne_nil _ _)
  have hlen : (joinTexts t.met).length ≤ maxStructuredOutputChars :=
    (length_le_byteLen _).trans hfits
  rw [met] at hfits hlen hmet
  rw [remains, if_neg hsome, if_pos hfits, lastChars_eq hlen]
  obtain ⟨before, hjoin⟩ := exists_joinTexts_append front (dumps .default (.obj t.answer))
  have hlastObject := lastObject_dumps_iff limits .default t.isDict before
    (s := []) List.not_mem_nil List.not_mem_nil
  rw [List.append_nil] at hlastObject
  rw [hmet, hjoin]
  exact hlastObject

/-- An object that is read from a text with the marker of a cut behind it is read from the text
alone. -/
theorem rawDecode_cut {kept marker a b rest : Str} {v : Members F}
    (htext : kept ++ marker = a ++ .scalar '{' :: b) (hclose : PyChar.scalar '}' ∉ marker)
    (h : rawDecode (.scalar '{' :: b) = some (.obj v, rest)) (dropped : Str) :
    ∃ b' rest', kept ++ dropped = a ++ .scalar '{' :: b' ∧
      rawDecode (.scalar '{' :: b') = some (.obj v, rest' ++ dropped) := by
  obtain ⟨c, hc, hlocal⟩ := rawDecode_local h
  have hsplit : kept ++ marker = (a ++ c) ++ .scalar '}' :: rest := by
    rw [htext, hc, List.append_assoc]
  obtain ⟨d, c, rfl⟩ := List.exists_cons_of_ne_nil (l := c) (by
    rintro rfl
    cases hc)
  obtain rfl : .scalar '{' = d := (List.cons.inj hc).1
  rcases List.append_eq_append_iff.mp hsplit with ⟨x, -, hx⟩ | ⟨x, hkept, hx⟩
  · -- the brace would be the marker's
    refine absurd ?_ hclose
    rw [hx]
    exact List.mem_append_right x List.mem_cons_self
  · cases x with
    | nil =>
      refine absurd ?_ hclose
      rw [List.nil_append] at hx
      rw [← hx]
      exact List.mem_cons_self
    | cons e rest' =>
      cases hx
      refine ⟨c ++ .scalar '}' :: (rest' ++ dropped), rest', ?_, hlocal _⟩
      rw [hkept]
      simp

/-- What is read although the answer is not whole is read elsewhere. -/
theorem repeats_of_lastObject {limits : Limits} {t : Transcript F} (hlost : ¬ t.AnswerWhole)
    (h : LastObject limits (lastChars maxStructuredOutputChars (remains F t.stdout)) t.answer) :
    t.Repeats := by
  obtain ⟨a, b, ⟨hwindow, hread⟩, -⟩ := h
  rw [List.append_nil] at hread
  obtain ⟨rest, hread⟩ := rawDecode_of_decodeOutcome hread
  obtain ⟨a, htext⟩ : ∃ a, remains F t.stdout = a ++ .scalar '{' :: b := by
    refine ⟨(remains F t.stdout).take
      ((remains F t.stdout).length - maxStructuredOutputChars) ++ a, ?_⟩
    rw [List.append_assoc, ← hwindow, lastChars, List.take_append_drop]
  by_cases hnone : t.met = []
  · -- the output itself has been searched
    refine ⟨a, b, rest, ?_, hread, ?_⟩
    · rw [searched, if_pos hnone, ← htext, remains, ← met, if_pos hnone]
    · intro hlast
      rw [hnone] at hlast
      cases hlast
  by_cases hfits : byteLen (joinTexts t.met) ≤ maxTextBytes
  · -- nothing is cut, so the answer is not met last
    refine ⟨a, b, rest, ?_, hread, ?_⟩
    · rw [searched, if_neg hnone, ← htext, remains, ← met, if_neg hnone, if_pos hfits]
    · intro hlast
      exact absurd ⟨hlast, hfits⟩ hlost
  · -- the texts are cut: the object is in the part that is kept
    rw [remains, ← met, if_neg hnone, if_neg hfits, keptPart, if_neg hfits] at htext
    obtain ⟨dropped, hjoin⟩ := takeBytes_front
      (maxTextBytes - byteLen (lit "\n...[truncated]...\n")) (joinTexts t.met)
    obtain ⟨b', rest', hplace, hread'⟩ := rawDecode_cut htext (by decide +kernel) hread dropped
    refine ⟨a, b', rest' ++ dropped, ?_, hread', ?_⟩
    · rw [searched, if_neg hnone, ← hplace, hjoin]
    · -- at its own place the whole answer would be kept
      intro _ hown
      have hwhole := rawDecode_dumps_obj .default t.answer []
      rw [List.append_nil, ← hown, hread'] at hwhole
      have hdropped : dropped = [] := by
        have := (Prod.mk.inj (Option.some.inj hwhole)).2
        exact (List.append_eq_nil_iff.mp this).2
      rw [hdropped, List.append_nil] at hjoin
      have hle := byteLen_takeBytes_le
        (maxTextBytes - byteLen (lit "\n...[truncated]...\n")) (joinTexts t.met)
      rw [hjoin] at hle
      omega

/-- The answer is returned when it is intact; otherwise the same object can at most be read
at another place. -/
theorem answer_kept (limits : Limits) (t : Transcript F) :
    (t.Intact limits → t.Returned limits) ∧
      (t.Returned limits → ¬ t.Repeats → t.Intact limits) := by
  constructor
  · intro h
    rw [Returned, readStdout_iff, t.lastObject_iff h.whole]
    exact ⟨h.read, h.encoded, ⟨h.admitted, h.pairFree⟩, h.alone, h.braces⟩
  · intro h hnowhere
    obtain ⟨hread, hencoded, hlast⟩ := readStdout_iff.mp h
    by_cases hwhole : t.AnswerWhole
    · obtain ⟨⟨hadmitted, hpair⟩, halone, hbraces⟩ := (t.lastObject_iff hwhole).mp hlast
      exact ⟨hread, hencoded, hwhole, hadmitted, hpair, halone, hbraces⟩
    · exact absurd (repeats_of_lastObject hwhole hlast) hnowhere

/-! ## A long text in front of the answer -/

/-- A text without a brace holds no object. -/
theorem not_lastObject {limits : Limits} {text : Str} {v : Members F}
    (h : .scalar '{' ∉ text) : ¬ LastObject limits text v := by
  rintro ⟨a, b, ⟨heq, -⟩, -⟩
  rw [heq] at h
  exact h (List.mem_append_right a List.mem_cons_self)

/-- The object that a reviewer answers with. -/
def passAnswer : Members NonFinite := .ofList [(lit "verdict", .str (lit "pass"))]

def textEvent (text : Str) : Members NonFinite := .ofList [(lit "text", .str text)]

/-- An event with a text, as it is written. -/
def textLine (text : Str) : Str := dumps .default (.obj (textEvent text))

theorem textLine_isEvent {text : Str} (h : isText text = true) :
    loads (textLine text) = some (Json.obj (textEvent text)) ∧
      eventTexts (Json.obj (textEvent text)) = [text] := by
  have hkey : lit "text" ∈ textKeys := by decide
  constructor
  · rw [textLine, loads_dumps_obj, Json.readBack_eq]
    · exact ⟨List.not_mem_nil, trivial, trivial⟩
    · exact ⟨fun _ => pairFree_of_isText (isText_lit _), fun _ => pairFree_of_isText h, trivial⟩
  · change memberTexts (textEvent text) ++ [] = [text]
    rw [List.append_nil, textEvent, Members.ofList, memberTexts, if_pos hkey]
    rfl

/-- What is written has no line break. -/
theorem textLine_unbroken (text : Str) : ∀ c ∈ textLine text, isLineBreak c = false := by
  intro c hc
  have hprintable : isPrintable c = true := dumps_printable rfl _ c hc
  cases c with
  | surrogate low bits => rfl
  | scalar c =>
    simp only [isPrintable, Bool.and_eq_true, decide_eq_true_eq] at hprintable
    have hne : ∀ d : Char, ¬ (0x20 ≤ d.toNat ∧ d.toNat < 0x7f) → (c == d) = false := by
      intro d hd
      rw [beq_eq_false_iff_ne]
      rintro rfl
      exact hd hprintable
    simp only [isLineBreak]
    rw [hne _ (by decide), hne _ (by decide), hne _ (by decide), hne _ (by decide),
      hne _ (by decide), hne _ (by decide), hne _ (by decide), hne _ (by decide),
      hne _ (by decide), hne _ (by decide)]
    rfl

theorem byteLen_textLine (text : Str) :
    byteLen (textLine text) = 10 + byteLen (dumpsStr .default text) := by
  have hkey : byteLen (dumpsStr .default (lit "text")) = 6 := by decide
  have hmarks : byteSize (.scalar '\x7b') = 1 ∧ byteLen (Style.keySep .default) = 2 ∧
      byteLen [.scalar '\x7d'] = 1 := by decide
  simp only [textLine, textEvent, Members.ofList, dumps, dumpsMembers, byteLen_cons,
    byteLen_append, byteLen_nil, hkey, hmarks]
  omega

/-- The first bytes of a text of characters of one byte. -/
theorem takeBytes_replicate {c : PyChar} (hc : byteSize c = 1) {n m : Nat} (h : n ≤ m)
    (rest : Str) : takeBytes n (List.replicate m c ++ rest) = List.replicate n c := by
  induction n generalizing m with
  | zero =>
    have hempty := byteLen_takeBytes_le 0 (List.replicate m c ++ rest)
    have hlen := length_le_byteLen (takeBytes 0 (List.replicate m c ++ rest))
    exact List.length_eq_zero_iff.mp (by omega)
  | succ n ih =>
    obtain ⟨k, rfl⟩ : ∃ k, m = k + 1 := ⟨m - 1, by omega⟩
    rw [List.replicate_succ, List.cons_append, takeBytes, hc, if_pos (Nat.le_add_left 1 n),
      Nat.add_sub_cancel, ih (Nat.le_of_succ_le_succ h), List.replicate_succ]

/-- A report that fills the kept part, and the answer after it. -/
def longReport : Str := List.replicate maxTextBytes (.scalar 'x')

def passText : Str := dumps .default (.obj passAnswer)

theorem isText_longReport : isText longReport = true := isText_replicate rfl _

theorem isText_passText : isText passText = true := by decide +kernel

theorem isText_textLine (text : Str) : isText (textLine text) = true := by
  refine List.all_eq_true.mpr fun c hc => ?_
  have hprintable : isPrintable c = true := dumps_printable rfl _ c hc
  cases c with
  | surrogate low bits => cases hprintable
  | scalar c => rfl

theorem byteLen_longLine : byteLen (textLine longReport) = 12 + maxTextBytes := by
  have hescape : escape .default (.scalar 'x') = [.scalar 'x'] := by decide
  have hsize : byteSize (.scalar 'x') = 1 := by decide
  rw [byteLen_textLine, longReport, byteLen_dumpsStr_replicate hescape, hsize]
  omega

theorem textsOfLine_textLine {text : Str} (h : isText text = true) :
    textsOfLine NonFinite (textLine text) = [text] := by
  rw [textsOfLine, (textLine_isEvent h).1]
  exact (textLine_isEvent h).2

theorem mem_twoLines {P : Str → Prop} (hreport : P (textLine longReport))
    (hpass : P (textLine passText)) : ∀ line ∈ [textLine longReport, textLine passText], P line :=
  List.forall_mem_cons.mpr ⟨hreport, List.forall_mem_singleton.mpr hpass⟩

theorem isText_twoLines :
    isText (joinTexts [textLine longReport, textLine passText] ++ []) = true := by
  rw [List.append_nil, joinTexts, isText_intercalate rfl]
  exact mem_twoLines (isText_textLine _) (isText_textLine _)

theorem byteLen_twoLines :
    byteLen (joinTexts [textLine longReport, textLine passText] ++ []) ≤ captureLimitBytes := by
  have hpass : byteLen (textLine passText) = 35 := by decide +kernel
  rw [List.append_nil, joinTexts, List.intercalate_cons_cons, List.intercalate_singleton,
    byteLen_append, byteLen_append, byteLen_longLine, hpass]
  decide

theorem textLine_oneEvent {text : Str} (h : isText text = true) :
    .scalar '\n' ∉ textLine text ∧ ∃ event : Members NonFinite,
      loads (textLine text) = some (.obj event) ∧ (eventTexts (.obj event)).length ≤ 1 := by
  obtain ⟨hload, htexts⟩ := textLine_isEvent h
  refine ⟨fun hmem => Bool.noConfusion (textLine_unbroken text _ hmem), _, hload, ?_⟩
  rw [htexts]
  exact Nat.le_refl 1

theorem twoLines_texts :
    [textLine longReport, textLine passText].flatMap (textsOfLine NonFinite) =
      [longReport, passText] := by
  rw [List.flatMap_cons, List.flatMap_singleton, textsOfLine_textLine isText_longReport,
    textsOfLine_textLine isText_passText]
  rfl

theorem passAnswer_isDict : passAnswer.WF := ⟨List.not_mem_nil, trivial, trivial⟩

theorem twoLines_answer :
    ([textLine longReport, textLine passText].flatMap (textsOfLine NonFinite)).getLast? =
      some (dumps .default (.obj passAnswer)) := by
  rw [twoLines_texts]
  rfl

/-- Two events: the report, and the answer. -/
def reportThenAnswer : Transcript NonFinite where
  lines := [textLine longReport, textLine passText]
  ending := []
  answer := passAnswer
  ending_eq := .inl rfl
  decoded := isText_twoLines
  captured := byteLen_twoLines
  isEvent := mem_twoLines (textLine_oneEvent isText_longReport) (textLine_oneEvent isText_passText)
  isDict := passAnswer_isDict
  flat := rfl
  answers := twoLines_answer

theorem reportThenAnswer_legible : reportThenAnswer.Legible where
  unbroken := mem_twoLines (textLine_unbroken _) (textLine_unbroken _)
  small := by
    have hone : ∀ {text}, isText text = true → ∀ event : Json NonFinite,
        loads (textLine text) = some event → (values event).length ≤ maxVisits := by
      intro text htext event hload
      rw [(textLine_isEvent htext).1] at hload
      cases hload
      exact Nat.succ_le_succ (Nat.zero_le _)
    exact mem_twoLines (hone isText_longReport) (hone isText_passText)

/-- Of the report and the answer, a part of the report is left. -/
theorem remains_reportThenAnswer :
    remains NonFinite reportThenAnswer.stdout =
      List.replicate (maxTextBytes - 19) (.scalar 'x') ++ lit "\n...[truncated]...\n" := by
  have hmet : streamTexts NonFinite reportThenAnswer.stdout = [longReport, passText] :=
    reportThenAnswer_legible.met_eq.trans twoLines_texts
  have hjoin : joinTexts [longReport, passText] = longReport ++ (.scalar '\n' :: passText) := by
    rw [joinTexts, List.intercalate_cons_cons, List.intercalate_singleton, List.append_assoc]
    rfl
  have hsize : byteSize (.scalar 'x') = 1 := by decide
  have hlong : ¬ byteLen (joinTexts [longReport, passText]) ≤ maxTextBytes := by
    have hpass : byteLen (.scalar '\n' :: passText) = 20 := by decide +kernel
    rw [hjoin, byteLen_append, longReport, byteLen_replicate, hsize, hpass]
    omega
  have hmarker : byteLen (lit "\n...[truncated]...\n") = 19 := by decide +kernel
  rw [remains, hmet, if_neg (List.cons_ne_nil _ _), if_neg hlong, keptPart, if_neg hlong, hmarker,
    hjoin, longReport, takeBytes_replicate hsize (Nat.sub_le _ _)]

/-- Of a long report with the answer after it, the answer is cut off. -/
theorem reportThenAnswer_not_returned :
    ¬ ∀ t : Transcript NonFinite, t.Returned usualLimits := by
  intro h
  have hreturned := h reportThenAnswer
  rw [Returned, readStdout_iff, remains_reportThenAnswer] at hreturned
  refine not_lastObject ?_ hreturned.2.2
  intro hmem
  rcases List.mem_append.mp (List.mem_of_mem_drop hmem) with hx | hmarker
  · have heq := List.eq_of_mem_replicate hx
    revert heq
    decide
  · revert hmarker
    decide +kernel

end Transcript

end OmarchyYolo
