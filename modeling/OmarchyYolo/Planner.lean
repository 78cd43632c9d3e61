import OmarchyYolo.Model
import OmarchyYolo.Util
import OmarchyYolo.Lib.JsonQuotes

/-!
# OmarchyYolo.Planner — reading and validating a plan

* `extractJsonObject_dumps`: what the extractor returns for a reply that ends
  with a written object — an object decoded at an inner brace, if there is
  one, and the object itself otherwise;
* `Planner.plan`, `Planner.validate` — the plan read from the agent's reply;
* `plan_reads_reply_iff`: the reply's object is the one the planner works on
  exactly when none of its inner braces starts an object.
-/

namespace OmarchyYolo

open Py PyJson

variable {F : Type}

/-! ## The planner -/

def maxSummaryChars : Nat := 4000
def maxTitleChars : Nat := 240
def maxDescriptionChars : Nat := 8000
def maxAcceptanceItems : Nat := 16
def maxAcceptanceChars : Nat := 1000
def maxAgentNameChars : Nat := 64

def isAlnum : PyChar → Bool
  | .surrogate _ _ => false
  | .scalar c => ('A' ≤ c && c ≤ 'Z') || ('a' ≤ c && c ≤ 'z') || ('0' ≤ c && c ≤ '9')

/-- `[A-Za-z0-9_.-]`. -/
def isIdChar (c : PyChar) : Bool :=
  isAlnum c || c == .scalar '_' || c == .scalar '.' || c == .scalar '-'

/-- `_ID_RE`: a letter and at most 31 identifier characters. -/
def matchesIdRe : Str → Bool
  | .scalar c :: rest =>
    (('A' ≤ c && c ≤ 'Z') || ('a' ≤ c && c ≤ 'z')) && rest.length ≤ 31 && rest.all isIdChar
  | _ => false

/-- `[A-Za-z0-9][A-Za-z0-9._-]{0,63}`. -/
def matchesAgentRe : Str → Bool
  | c :: rest => isAlnum c && rest.length ≤ 63 && rest.all isIdChar
  | [] => false

/-- The loop of `_string_list`. -/
def stringItems (field : Str) (maxItemChars : Nat) :
    List (Json F) → Except Exn (List Str)
  | [] => .ok []
  | .str item :: items => do
    rejectIf (maxItemChars < (strip item).length)
      (lit "planner field '" ++ field ++ lit "' contains an oversized item")
    let texts ← stringItems field maxItemChars items
    return strip item :: texts
  | _ :: _ => raise (lit "planner field '" ++ field ++ lit "' must contain only strings")

/-- `_string_list`. -/
def stringList (field : Str) (maxItems maxItemChars : Nat) :
    Json F → Except Exn (List Str)
  | .null => .ok []
  | .arr value => do
    rejectIf (maxItems < value.toList.length)
      (lit "planner field '" ++ field ++ lit "' has too many items")
    stringItems field maxItemChars value.toList
  | _ => raise (lit "planner field '" ++ field ++ lit "' must be an array")

/-- `preferred_agent`, normalised. -/
def preferredAgent (raw : Option (Json F)) : Except Exn (Option Str) :=
  match raw.getD .null with
  | .null => .ok none
  | .str value => do
    let preferred := strip value
    rejectIf (preferred ≠ [] ∧
        (maxAgentNameChars < preferred.length ∨ matchesAgentRe preferred = false))
      (lit "planner preferred_agent is not a safe agent identifier")
    return if preferred = [] then none else some preferred
  | _ => raise (lit "planner preferred_agent must be a string or null")

/-- One element of the plan's tasks array. -/
def planTask (maxTasks : Nat) : Json F → Except Exn PlannedTask
  | .obj raw => do
    let (logicalId, title, description) ←
      match (raw.get? (lit "id")).getD (.str []), (raw.get? (lit "title")).getD (.str []),
        (raw.get? (lit "description")).getD (.str []) with
      | .str logicalId, .str title, .str description => .ok (logicalId, title, description)
      | _, _, _ => raise (lit "planner task id/title/description must be strings")
    let dependsOn ← stringList (lit "depends_on") maxTasks 32
      ((raw.get? (lit "depends_on")).getD (.arr .nil))
    let acceptance ← stringList (lit "acceptance") maxAcceptanceItems maxAcceptanceChars
      ((raw.get? (lit "acceptance")).getD (.arr .nil))
    let preferred ← preferredAgent (raw.get? (lit "preferred_agent"))
    match (raw.get? (lit "risk")).getD (.str (lit "medium")) with
    | .str risk =>
      return {
        logicalId := strip logicalId
        title := strip title
        description := strip description
        dependsOn
        acceptance
        preferredAgent := preferred
        risk := if lower (strip risk) = [] then lit "medium" else lower (strip risk) }
    | _ => raise (lit "planner risk must be a string")
  | _ => raise (lit "planner tasks must be objects")

/-- Code points in the order of Python's string comparison. -/
def codePoint : PyChar → Nat
  | .scalar c => c.toNat
  | .surrogate low bits => surrogateUnit low bits

/-- `sorted` of strings. -/
def sortedStrs (texts : List Str) : List Str :=
  texts.mergeSort fun a b => a.map codePoint ≤ b.map codePoint

/-- The checks of one task against the known IDs. -/
def validateTask (known : List Str) (task : PlannedTask) : Except Exn Unit := do
  let name := lit "task " ++ task.logicalId
  rejectIf (task.title = [] ∨ task.description = []) (name ++ lit " is missing title/description")
  rejectIf (maxTitleChars < task.title.length) (name ++ lit " title is too long")
  rejectIf (maxDescriptionChars < task.description.length)
    (name ++ lit " description is too long")
  rejectIf (maxAcceptanceItems < task.acceptance.length)
    (name ++ lit " has too many acceptance criteria")
  rejectIf (∃ item ∈ task.acceptance, maxAcceptanceChars < item.length)
    (name ++ lit " has an oversized acceptance criterion")
  rejectIf (¬ task.dependsOn.Nodup) (name ++ lit " has duplicate dependencies")
  let missing := task.dependsOn.filter (· ∉ known)
  rejectIf (missing ≠ []) (name ++ lit " depends on unknown tasks: ") (sortedStrs missing)
  rejectIf (task.logicalId ∈ task.dependsOn) (name ++ lit " depends on itself")
  rejectIf (task.risk ∉ [lit "low", lit "medium", lit "high"])
    (name ++ lit " has invalid risk '" ++ task.risk ++ lit "'")

/-- `visit`: the nodes visited after a depth-first search from `node`. A call
at depth `fuel` has as many distinct nodes being visited, so fuel for one more
than the nodes of the graph does not run out. -/
def visit (graph : Str → List Str) :
    Nat → List Str → List Str → Str → Except Exn (List Str)
  | 0, _, _, _ => raise (lit "planner task graph contains a dependency cycle")
  | fuel + 1, visiting, visited, node =>
    if node ∈ visited then .ok visited
    else if node ∈ visiting then raise (lit "planner task graph contains a dependency cycle")
    else do
      let visited ← (graph node).foldlM (visit graph fuel (node :: visiting)) visited
      return node :: visited

/-- The dependencies of the task with a given ID. -/
def dependencyGraph (tasks : List PlannedTask) (node : Str) : List Str :=
  ((tasks.find? (·.logicalId = node)).map (·.dependsOn)).getD []

/-- `Planner.validate`. -/
def validate (maxTasks : Nat) (tasks : List PlannedTask) : Except Exn Unit := do
  rejectIf (tasks = []) (lit "planner returned zero tasks")
  rejectIf (maxTasks < tasks.length)
    (lit "planner returned " ++ decimal tasks.length ++ lit " tasks; configured maximum is " ++
      decimal maxTasks)
  let ids := tasks.map (·.logicalId)
  rejectIf (∃ id ∈ ids, matchesIdRe id = false)
    (lit "planner task IDs must be short identifiers such as T1 or parser_fix")
  rejectIf (¬ ids.Nodup) (lit "planner returned duplicate task IDs")
  tasks.forM (validateTask ids)
  let _ ← ids.foldlM (visit (dependencyGraph tasks) (ids.length + 1) []) []
  return ()

/-- What an accepted task list has passed. -/
structure Validated (maxTasks : Nat) (tasks : List PlannedTask) : Prop where
  nonempty : tasks ≠ []
  count : tasks.length ≤ maxTasks
  ids_match : ∀ task ∈ tasks, matchesIdRe task.logicalId = true
  ids_nodup : (tasks.map (·.logicalId)).Nodup
  tasks_valid : ∀ task ∈ tasks, validateTask (tasks.map (·.logicalId)) task = .ok ()
  visited : ∃ visited, (tasks.map (·.logicalId)).foldlM
    (visit (dependencyGraph tasks) ((tasks.map (·.logicalId)).length + 1) []) [] = .ok visited

theorem validate_ok {maxTasks : Nat} {tasks : List PlannedTask}
    (h : validate maxTasks tasks = .ok ()) : Validated maxTasks tasks := by
  simp only [validate, bind_ok_iff, rejectIf_eq_ok, not_lt, not_exists, not_and,
    List.mem_map, Bool.not_eq_false, Decidable.not_not] at h
  obtain ⟨-, hne, -, hcount, -, hid, -, hnodup, ⟨⟩, hvalid, visited, hvisit, -⟩ := h
  exact ⟨hne, hcount, fun task htask => hid _ ⟨task, htask, rfl⟩, hnodup,
    forM_eq_ok.mp hvalid,
    visited, hvisit⟩

/-- What `Planner.plan` does with the decoded reply. -/
def readPlan (maxTasks : Nat) (payload : Members F) :
    Except Exn (Str × List PlannedTask) :=
  match (payload.get? (lit "summary")).getD (.str []) with
  | .str summaryRaw => do
    let summary := strip summaryRaw
    rejectIf (maxSummaryChars < summary.length) (lit "planner summary is too large")
    match payload.get? (lit "tasks") with
    | some (.arr rawTasks) =>
      rejectIf (maxTasks < rawTasks.toList.length)
        (lit "planner returned " ++ decimal rawTasks.toList.length ++
          lit " tasks; configured maximum is " ++ decimal maxTasks)
      let tasks ← rawTasks.toList.mapM (planTask maxTasks)
      validate maxTasks tasks
      return (summary, tasks)
    | _ => raise (lit "planner JSON is missing a tasks array")
  | _ => raise (lit "planner summary must be a string")

/-- `Planner.plan`, of the agent's result. -/
def plan [PyFloat F] (limits : Limits) (maxTasks : Nat) (agentName : Str) (result : AgentResult) :
    Except Exn (Str × List PlannedTask) := do
  rejectIf (result.ok = false)
    (lit "planner agent " ++ agentName ++ lit " exited " ++ dumpsInt result.returncode ++
      lit ": " ++ lastChars 1000 result.stderr)
  let payload ← extractJsonObject (F := F) limits result.stdout
  readPlan maxTasks payload

/-! ## The reply's object -/

/-- At no brace inside the text of `v`, with `s` behind it, does the search end: `raw_decode` finds
no object there, and raises nothing but a `JSONDecodeError`. -/
def NoInnerObject [PyFloat F] (limits : Limits) (st : Style) (v : Members F) (s : Str) : Prop :=
  ∀ pre t, dumps st (.obj v) = pre ++ .scalar '{' :: t → pre ≠ [] →
    decodeOutcome (F := F) (limits.rawDecode (.scalar '{' :: (t ++ s))) = none

variable [PyFloat F] {limits : Limits}

/-- A written object starts with its brace. -/
theorem dumps_obj_start (st : Style) (v : Members F) :
    ∃ body, dumps st (.obj v) = .scalar '{' :: body := by
  cases v with
  | nil => exact ⟨[.scalar '}'], rfl⟩
  | cons k x ms => exact ⟨_, by rw [dumps]⟩

theorem lastChars_eq {n : Nat} {text : Str} (h : text.length ≤ n) : lastChars n text = text := by
  rw [lastChars, Nat.sub_eq_zero_of_le h, List.drop_zero]

/-- A decode that yields an object has read it. -/
theorem rawDecode_of_decodeOutcome {text : Str} {v : Members F}
    (h : decodeOutcome (limits.rawDecode text) = some (.ok v)) :
    ∃ rest, rawDecode text = some (.obj v, rest) := by
  cases hread : limits.rawDecode (F := F) text with
  | ok p =>
    obtain ⟨value, rest⟩ := p
    rw [hread] at h
    cases value with
    | obj w =>
      obtain rfl : w = v := Except.ok.inj (Option.some.inj h)
      exact ⟨rest, (limits.rawDecode_agrees text).1 _ hread⟩
    | _ => cases h
  | error e =>
    rw [hread] at h
    cases e <;> cases h

/-- A brace of the text of `v` behind the first one, at which the search ends. -/
theorem inner_of_decodesAt {st : Style} {v : Members F} {body s : Str}
    (hbody : dumps st (.obj v) = .scalar '{' :: body) (hopen : PyChar.scalar '{' ∉ s)
    {a b : Str} {outcome : Except Exn (Members F)}
    (hat : DecodesAt limits (body ++ s) [] a b outcome) :
    ∃ pre t, dumps st (.obj v) = pre ++ .scalar '{' :: t ∧ pre ≠ [] ∧
      decodeOutcome (limits.rawDecode (.scalar '{' :: (t ++ s))) = some outcome := by
  obtain ⟨heq, hdec⟩ := hat
  rw [List.append_nil] at hdec
  rcases List.append_eq_append_iff.mp heq with ⟨c, -, hs⟩ | ⟨c, hc, hs⟩
  · exact absurd (hs ▸ List.mem_append_right c List.mem_cons_self) hopen
  · rcases c with _ | ⟨d, t⟩
    · exact absurd (by rw [← List.nil_append s, ← hs]; exact List.mem_cons_self) hopen
    · cases hs
      exact ⟨.scalar '{' :: a, t, by rw [hbody, hc, List.cons_append], List.cons_ne_nil _ _, hdec⟩

/-- What the search makes of a written object at its own brace. -/
theorem decodeOutcome_dumps_iff (limits : Limits) (st : Style) {v : Members F} (hv : v.WF)
    (s : Str) :
    decodeOutcome (limits.rawDecode (dumps st (.obj v) ++ s)) = some (.ok v) ↔
      limits.Admits (Json.obj v) ∧ v.PairFree st := by
  have hiff : (Json.obj v).readBack st = .obj v ↔ (Json.obj v).PairFree st := readBack_eq_iff hv
  simp only [Json.readBack, Json.PairFree, Json.obj.injEq] at hiff
  rcases limits.rawDecode_dumps_obj st v s with ⟨hadmits, hread⟩ | ⟨hnot, e, -, hread⟩
  · rw [hread, Json.readBack, ← hiff]
    constructor
    · intro h
      exact ⟨hadmits, Except.ok.inj (Option.some.inj h)⟩
    · rintro ⟨-, hback⟩
      rw [hback]
      rfl
  · rw [hread]
    constructor
    · intro h
      cases e <;> cases h
    · rintro ⟨hadmits, -⟩
      exact absurd hadmits hnot

/-- At the brace of a written object, the search ends. -/
theorem decodeOutcome_dumps_ne_none (limits : Limits) (st : Style) (v : Members F) (s : Str) :
    decodeOutcome (F := F) (limits.rawDecode (dumps st (.obj v) ++ s)) ≠ none := by
  rcases limits.rawDecode_dumps_obj st v s with ⟨-, hread⟩ | ⟨-, e, he, hread⟩
  · rw [hread]
    exact Option.some_ne_none _
  · rw [hread]
    cases e with
    | invalid => exact absurd rfl he
    | digits => exact Option.some_ne_none _
    | depth => exact Option.some_ne_none _

/-- In a text that ends with a written object and brace-free text, that object is
the last one exactly when it keeps to the limits, the search ends at no brace inside it, its
strings hold no split surrogate pair and the decodes suffice for its braces. -/
theorem lastObject_dumps_iff (limits : Limits) (st : Style) {v : Members F} (hv : v.WF) (p : Str)
    {s : Str} (hopen : PyChar.scalar '{' ∉ s) (hclose : PyChar.scalar '}' ∉ s) :
    LastObject limits (p ++ (dumps st (.obj v) ++ s)) v ↔
      (limits.Admits (Json.obj v) ∧ v.PairFree st) ∧ NoInnerObject limits st v s ∧
        (dumps st (.obj v)).count (.scalar '{') ≤ maxJsonDecodeAttempts := by
  obtain ⟨body, hbody⟩ := dumps_obj_start st v
  have hown := decodeOutcome_dumps_iff limits st hv s
  have hends := decodeOutcome_dumps_ne_none limits st v s
  rw [hbody, List.cons_append] at hown hends
  -- the braces of the written object are all the braces of the output
  have hcount : 0 + (body ++ s).count (PyChar.scalar '{') < maxJsonDecodeAttempts ↔
      (dumps st (.obj v)).count (.scalar '{') ≤ maxJsonDecodeAttempts := by
    rw [hbody, List.count_append, List.count_eq_zero_of_not_mem hopen, List.count_cons_self]
    omega
  -- at the first brace it is the written object
  have hsame : decodeOutcome (limits.rawDecode (.scalar '{' :: (body ++ s))) = some (.ok v) →
      (∀ c d, ∀ w : Except Exn (Members F), ¬ DecodesAt limits (body ++ s) [] c d w) →
      (limits.Admits (Json.obj v) ∧ v.PairFree st) ∧ NoInnerObject limits st v s := by
    intro hat hnone
    refine ⟨hown.mp hat, ?_⟩
    intro pre t hpre hne
    rw [hbody] at hpre
    obtain ⟨d, a', rfl⟩ := List.exists_cons_of_ne_nil hne
    cases hpre
    cases hinner : decodeOutcome (F := F) (limits.rawDecode (.scalar '{' :: (t ++ s))) with
    | none => rfl
    | some outcome =>
      exact absurd ⟨by simp, by simpa using hinner⟩ (hnone a' (t ++ s) outcome)
  -- the last object is read at some brace of the output
  constructor
  · rintro ⟨a, b, ⟨heq, hat⟩, hnone, hspare⟩
    rw [List.append_nil] at hat
    rw [hbody, List.cons_append] at heq
    -- the brace is in the written object, or in front of it
    rcases List.append_eq_append_iff.mp heq with ⟨c, -, hc⟩ | ⟨c, -, hc⟩
    -- in it: the first brace, or one further inside
    · rcases c with _ | ⟨d, c⟩
      · cases hc
        obtain ⟨hback, hno⟩ := hsame hat hnone
        exact ⟨hback, hno, hcount.mp hspare⟩
      · -- an object inside the written one is another object
        injection hc with _ hc
        have hdecodes : DecodesAt limits (body ++ s) [] c b (.ok v) := ⟨hc, by simpa using hat⟩
        obtain ⟨pre, t, hpre, hne, hinner⟩ := inner_of_decodesAt hbody hopen hdecodes
        obtain ⟨rest, hread⟩ := rawDecode_of_decodeOutcome hinner
        exact absurd rfl (rawDecode_inner_ne hpre hne hclose hread)
    · rcases c with _ | ⟨d, c⟩
      · cases hc
        obtain ⟨hback, hno⟩ := hsame hat hnone
        exact ⟨hback, hno, hcount.mp hspare⟩
      · -- in front of it, the written one comes later
        cases hc
        obtain ⟨outcome, hlater⟩ := Option.ne_none_iff_exists'.mp hends
        exact absurd ⟨rfl, by simpa using hlater⟩ (hnone c (body ++ s) outcome)
  -- conversely the first brace decodes, and no later one does
  · rintro ⟨hback, hno, hle⟩
    refine ⟨p, body ++ s, ⟨by rw [hbody, List.cons_append], ?_⟩, ?_, hcount.mpr hle⟩
    · rw [List.append_nil]
      exact hown.mpr hback
    · intro c d w hat
      obtain ⟨pre, t, hpre, hne, hinner⟩ := inner_of_decodesAt hbody hopen hat
      rw [hno pre t hpre hne] at hinner
      cases hinner

/-- For a reply within the bounds that ends with a written object and brace-free
text, the extractor returns the object exactly when it keeps to the limits, the search ends at no
brace inside it and its strings hold no split surrogate pair. -/
theorem extractJsonObject_dumps_iff (st : Style) {v : Members F} (hv : v.WF) {p s : Str}
    (hopen : PyChar.scalar '{' ∉ s) (hclose : PyChar.scalar '}' ∉ s)
    (hlen : (p ++ (dumps st (.obj v) ++ s)).length ≤ maxStructuredOutputChars)
    (hcount : (p ++ (dumps st (.obj v) ++ s)).count (.scalar '{') ≤ maxJsonDecodeAttempts) :
    extractJsonObject limits (p ++ (dumps st (.obj v) ++ s)) = .ok v ↔
      (limits.Admits (Json.obj v) ∧ v.PairFree st) ∧ NoInnerObject limits st v s := by
  have hle : (dumps st (.obj v)).count (.scalar '{') ≤ maxJsonDecodeAttempts := by
    rw [List.count_append, List.count_append] at hcount
    omega
  rw [extractJsonObject_ok_iff, lastChars_eq hlen, lastObject_dumps_iff limits st hv _ hopen hclose]
  exact ⟨fun ⟨hback, hno, _⟩ => ⟨hback, hno⟩, fun ⟨hback, hno⟩ => ⟨hback, hno, hle⟩⟩

theorem plan_reply (maxTasks : Nat) (agentName stderr : Str) {stdout : Str} {v : Members F}
    (h : extractJsonObject limits stdout = .ok v) :
    plan (F := F) limits maxTasks agentName ⟨0, stdout, stderr⟩ = readPlan maxTasks v := by
  rw [plan, h]
  rfl

/-- For a reply within the bounds that ends with a written object, the object is
extracted, and the planner reads its tasks from it, exactly when it keeps to the limits of the
interpreter, the search ends at no brace inside it and its strings hold no split surrogate
pair. -/
theorem plan_reads_reply_iff (limits : Limits) {v : Members F} (hv : v.WF) {p s : Str}
    (hopen : PyChar.scalar '{' ∉ s) (hclose : PyChar.scalar '}' ∉ s)
    (hlen : (p ++ (dumps .default (.obj v) ++ s)).length ≤ maxStructuredOutputChars)
    (hcount : (p ++ (dumps .default (.obj v) ++ s)).count (.scalar '{') ≤
      maxJsonDecodeAttempts) :
    (extractJsonObject limits (p ++ (dumps .default (.obj v) ++ s)) = .ok v ∧
        ∀ maxTasks agentName stderr,
          plan (F := F) limits maxTasks agentName
            ⟨0, p ++ (dumps .default (.obj v) ++ s), stderr⟩ = readPlan maxTasks v) ↔
      (limits.Admits (Json.obj v) ∧ v.PairFree .default) ∧ NoInnerObject limits .default v s := by
  rw [← extractJsonObject_dumps_iff .default hv hopen hclose hlen hcount]
  exact ⟨fun h => h.1, fun h => ⟨h, fun n name err => plan_reply n name err h⟩⟩

/-- A plan without tasks: its text has no inner brace. -/
def emptyPlan : Members NonFinite :=
  .ofList [(lit "summary", .str (lit "nothing to do")), (lit "tasks", .arr .nil)]

theorem plan_reads_reply_emptyPlan :
    extractJsonObject usualLimits
        (lit "Plan: " ++ (dumps .default (.obj emptyPlan) ++ lit " done")) = .ok emptyPlan ∧
      ∀ maxTasks agentName stderr,
        plan (F := NonFinite) usualLimits maxTasks agentName
          ⟨0, lit "Plan: " ++ (dumps .default (.obj emptyPlan) ++ lit " done"), stderr⟩ =
            readPlan maxTasks emptyPlan := by
  have hwf : emptyPlan.WF := by
    simp [emptyPlan, Members.ofList, Members.WF, Members.keys, Json.WF, Elems.WF, lit]
  have hpair : emptyPlan.PairFree .default := by
    simp [emptyPlan, Members.ofList, Members.PairFree, Json.PairFree, Elems.PairFree,
      PyJson.PairFree, lit]
  have hbody : dumps .default (.obj emptyPlan) =
      .scalar '{' :: lit "\"summary\": \"nothing to do\", \"tasks\": []\x7d" := by decide +kernel
  have hbrace : PyChar.scalar '{' ∉ lit "\"summary\": \"nothing to do\", \"tasks\": []\x7d" := by
    decide +kernel
  refine (plan_reads_reply_iff usualLimits hwf (by decide +kernel) (by decide +kernel)
    (by decide +kernel) (by decide +kernel)).mpr ⟨⟨rfl, hpair⟩, ?_⟩
  intro pre t hpre hne
  obtain ⟨c, a, rfl⟩ := List.exists_cons_of_ne_nil hne
  rw [hbody] at hpre
  injection hpre with hc hpre
  rw [hpre] at hbrace
  exact absurd (List.mem_append_right a List.mem_cons_self) hbrace

/-- A plan that follows the planner's schema, with one task. -/
def oneTaskPlan : Members NonFinite :=
  .ofList [(lit "summary", .str (lit "one task")),
    (lit "tasks", .arr (.ofList [.obj (.ofList [
      (lit "id", .str (lit "T1")),
      (lit "title", .str (lit "Add the parser")),
      (lit "description", .str (lit "Parse the header.")),
      (lit "depends_on", .arr .nil),
      (lit "acceptance", .arr (.ofList [.str (lit "tests pass")])),
      (lit "preferred_agent", .null),
      (lit "risk", .str (lit "low"))])]))]

/-- The planner accepts that plan, but not the reply that is its text: the task
inside it is decoded first, and has no tasks. -/
theorem plan_oneTaskPlan :
    (readPlan 8 oneTaskPlan).isOk = true ∧
      (dumps .default (.obj oneTaskPlan)).length ≤ maxStructuredOutputChars ∧
      (dumps .default (.obj oneTaskPlan)).count (.scalar '{') ≤ maxJsonDecodeAttempts ∧
      extractJsonObject usualLimits (dumps .default (.obj oneTaskPlan)) ≠ .ok oneTaskPlan ∧
      plan (F := NonFinite) usualLimits 8 (lit "codex")
          ⟨0, dumps .default (.obj oneTaskPlan), []⟩ =
        raise (lit "planner JSON is missing a tasks array") := by
  decide +kernel

end OmarchyYolo
