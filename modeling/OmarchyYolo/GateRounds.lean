import OmarchyYolo.HostileRepo
import OmarchyYolo.Integration
import OmarchyYolo.Lib.JsonLoads

/-!
# OmarchyYolo.GateRounds — what a round of gates has run

The commands of a round are those of the configuration, or those that
`detect_gate_commands` finds in the checkout. `GateRunner.run` starts them one after the
other and stops at the first that is not ok. That every result is ok then says that every
command was run, and there always is one.

* `detectGateCommands` — `detect_gate_commands`; `gateCommands` — the choice of `_run_gates`;
* `runGateCommands` — the loop of `GateRunner.run`, with processes that may end in any way;
* `gate_round_passes_iff`: a round passes exactly when each of its commands, of which
  there is at least one, was started and ended with status 0 in time.
-/

namespace OmarchyYolo

open Py PyJson

/-! ## Detection -/

/-- What `detect_gate_commands` finds in a checkout. -/
structure CheckoutFiles where
  fileExists : Str → Bool
  isDir : Str → Bool
  /-- `read_text_bounded`; none where it raises an error that is passed over. -/
  read : Str → Option Str

section Detection

variable {F : Type} [PyFloat F] (B : Builtins F) (depth : Nat) (isZero : F → Bool)

/-- `bool(value)`. -/
def truthy : Json F → Bool
  | .null => false
  | .bool b => b
  | .int n => n ≠ 0
  | .float x => !isZero x
  | .str text => text ≠ []
  | .arr xs => xs.toList.isEmpty = false
  | .obj ms => ms.keys ≠ []

/-- `value.get(key, {}) if isinstance(value, dict) else {}`, for a value that is `default`
where it is no table. -/
def memberOr (value : Json F) (key : String) (default : Json F) : Json F :=
  match value with
  | .obj ms => setting ms key default
  | _ => default

/-- The script that `package.json` has for tests. -/
def testScript (package : Json F) : Json F :=
  memberOr (memberOr package "scripts" (.obj .nil)) "test" (.str [])

/-- Whether the script is one, and not the placeholder. -/
def hasTestScript (package : Json F) : Except Exn Bool :=
  if truthy isZero (testScript package) then do
    return ¬ lit "no test specified" <:+: (← B.str (testScript package))
  else .ok false

/-- Whether `package.json` asks for tests; `depth` is how deep its values may nest. -/
def packageHasTests (files : CheckoutFiles) : Except Exn Bool :=
  if files.fileExists (lit "package.json") then
    match files.read (lit "package.json") with
    | none => .ok false
    | some text =>
      match Limits.loads ⟨B.digits, depth⟩ text with
      | .ok package => hasTestScript B isZero package
      | .error e => match uncaught e with
        | none => .ok false
        | some e => .error e
  else .ok false

/-- `^test\s*:`, at the start of a line. -/
def startsTestTarget (line : Str) : Bool :=
  lit "test" <+: line ∧ ((line.drop 4).dropWhile isSpace).head? = some (.scalar ':')

/-- `re.search(r"(?m)^test\s*:", content)`; `lineStart` at the start of a line. -/
def hasTestTarget : Bool → Str → Bool
  | _, [] => false
  | lineStart, c :: content =>
    (lineStart && startsTestTarget (c :: content)) ||
      hasTestTarget (c == .scalar '\n') content

/-- The package manager that a lock file stands for. -/
def packageManager (files : CheckoutFiles) : Str :=
  if files.fileExists (lit "yarn.lock") then lit "yarn"
  else if files.fileExists (lit "pnpm-lock.yaml") then lit "pnpm"
  else lit "npm"

/-- `detect_gate_commands`. -/
def detectGateCommands (files : CheckoutFiles) : Except Exn (List Str) := do
  let pytest :=
    (files.fileExists (lit "pyproject.toml") && files.fileExists (lit "tests")) ||
      files.fileExists (lit "pytest.ini") || files.fileExists (lit "tox.ini")
  let package ← packageHasTests B depth isZero files
  let commands :=
    [lit "git diff --check"] ++
    (if pytest then [lit "python -m pytest -q"] else []) ++
    (if package then [packageManager files ++ lit " test"] else []) ++
    (if files.fileExists (lit "Cargo.toml") then
      [lit "cargo test --all-targets --all-features"] else []) ++
    (if files.fileExists (lit "go.mod") then [lit "go test ./..."] else [])
  let make := files.fileExists (lit "Makefile") &&
    (files.read (lit "Makefile")).any (hasTestTarget true) && lit "make test" ∉ commands
  let ctest := files.isDir (lit "build") && files.fileExists (lit "build/CTestTestfile.cmake")
  return (commands ++
    (if make then [lit "make test"] else []) ++
    (if ctest then [lit "ctest --test-dir build --output-on-failure"] else [])).eraseDups

/-- The commands of `_run_gates`. -/
def gateCommands (gates : Config.Gates) (files : CheckoutFiles) (final : Bool) :
    Except Exn (List Str) :=
  let configured := if final then gates.finalCommands else gates.commands
  if configured = [] then detectGateCommands B depth isZero files else .ok configured

end Detection

/-! ## The loop -/

/-- How a process ends: its exit status, where it has one, and whether its time was up. -/
structure ProcessEnd where
  returncode : Option Int
  stdout : Str
  stderr : Str
  timedOut : Bool

/-- The result of a command. -/
def gateResult (command : Str) (ended : ProcessEnd) : GateResult where
  command    := command
  returncode := ended.returncode.getD 124
  stdout     := ended.stdout
  stderr     := ended.stderr
  timedOut   := ended.timedOut

section Loop

variable (config : Config) (machine : Machine) (cwd : HostPath)
  (child : Nat → Launch → Except Exn ProcessEnd)

/-- The loop of `GateRunner.run` from the `n`-th command on; `child n` is what becomes of
its process. -/
def runGateCommands : Nat → List Str → Except Exn (List GateResult)
  | _, [] => .ok []
  | n, command :: commands => do
    let launch ← gateLaunch config machine cwd command
    let ended ← child n launch
    if (gateResult command ended).ok then do
      let results ← runGateCommands (n + 1) commands
      return gateResult command ended :: results
    else return [gateResult command ended]

/-- The `n`-th command was started, and ended with status 0 in time. -/
def EndedWell (n : Nat) (command : Str) : Prop :=
  ∃ launch ended, gateLaunch config machine cwd command = .ok launch ∧
    child n launch = .ok ended ∧ ended.returncode = some 0 ∧ ended.timedOut = false

end Loop

/-! ## Rounds -/

section Rounds

variable {F : Type} [PyFloat F] {B : Builtins F} {depth : Nat} {isZero : F → Bool}

/-- What is detected starts with the check for conflict markers. -/
theorem detectGateCommands_head {files : CheckoutFiles} {commands : List Str}
    (h : detectGateCommands B depth isZero files = .ok commands) :
    commands.head? = some (lit "git diff --check") := by
  rcases bind_ok_iff.mp h with ⟨package, -, hsame⟩
  cases hsame
  simp only [List.cons_append, List.nil_append, List.eraseDups_cons, List.head?_cons]

/-- There always is a command. -/
theorem gateCommands_ne_nil {gates : Config.Gates} {files : CheckoutFiles} {final : Bool}
    {commands : List Str} (h : gateCommands B depth isZero gates files final = .ok commands) :
    commands ≠ [] := by
  rw [gateCommands] at h
  generalize (if final = true then gates.finalCommands else gates.commands) = configured at h
  replace h : (if configured = [] then detectGateCommands B depth isZero files
    else .ok configured) = .ok commands := h
  split_ifs at h with hnone
  · rintro rfl
    have hhead := detectGateCommands_head h
    cases hhead
  · cases h
    exact hnone

end Rounds

section Loop

variable {config : Config} {machine : Machine} {cwd : HostPath}
  {child : Nat → Launch → Except Exn ProcessEnd}

/-- The result of a process is ok where it ended with status 0 in time. -/
theorem gateResult_ok {command : Str} {ended : ProcessEnd} :
    (gateResult command ended).ok = true ↔
      ended.returncode = some 0 ∧ ended.timedOut = false := by
  rw [GateResult.ok, gateResult, Bool.and_eq_true, beq_iff_eq, Bool.not_eq_true']
  cases ended.returncode with
  | none =>
    constructor
    · intro h
      cases h.1
    · intro h
      cases h.1
  | some n => rw [Option.getD_some, Option.some.injEq]

/-- The loop has run a front of the commands, and passes when each ended well. -/
theorem runGateCommands_ok {n : Nat} {commands : List Str} {results : List GateResult}
    (h : runGateCommands config machine cwd child n commands = .ok results) :
    results.map GateResult.command <+: commands ∧ (commands ≠ [] → results ≠ []) ∧
      (allOk results = true ↔ ∀ i command, commands[i]? = some command →
        EndedWell config machine cwd child (n + i) command) := by
  -- over the commands that are left; `n` of them have been run
  induction commands generalizing n results with
  | nil =>
    cases h
    refine ⟨List.nil_prefix, fun hnil => absurd rfl hnil, fun _ i command hcommand => ?_,
      fun _ => rfl⟩
    cases hcommand
  | cons command commands ih =>
    rw [runGateCommands] at h
    rcases bind_ok_iff.mp h with ⟨launch, hlaunch, h⟩
    rcases bind_ok_iff.mp h with ⟨ended, hended, h⟩
    -- the first result is good if and only if its command has ended well
    have hfirst : (gateResult command ended).ok = true ↔
        EndedWell config machine cwd child n command := by
      rw [gateResult_ok]
      constructor
      · intro hok
        exact ⟨launch, ended, hlaunch, hended, hok⟩
      · rintro ⟨launch', ended', hlaunch', hended', hok⟩
        cases hlaunch.symm.trans hlaunch'
        cases hended.symm.trans hended'
        exact hok
    -- the command ended well, so the loop goes on
    by_cases hok : (gateResult command ended).ok = true
    · rw [if_pos hok] at h
      rcases bind_ok_iff.mp h with ⟨rest, hrest, hsame⟩
      cases hsame
      rcases ih hrest with ⟨hfront, -, hall⟩
      refine ⟨List.cons_prefix_cons.mpr ⟨rfl, hfront⟩, fun _ => List.cons_ne_nil _ _, ?_⟩
      rw [allOk, List.all_cons, Bool.and_eq_true]
      constructor
      · rintro ⟨-, hrestOk⟩ i other hother
        -- the first command, or one of the rest
        cases i with
        | zero =>
          cases hother
          exact hfirst.mp hok
        | succ i =>
          have hwell := hall.mp hrestOk i other hother
          rwa [Nat.add_right_comm, Nat.add_assoc] at hwell
      · intro hwell
        refine ⟨hok, hall.mpr ?_⟩
        intro i other hother
        have hlater := hwell (i + 1) other hother
        rwa [Nat.add_right_comm, Nat.add_assoc]
    · -- the loop stops here, and the command did not end well
      rw [if_neg hok] at h
      cases h
      refine ⟨List.cons_prefix_cons.mpr ⟨rfl, List.nil_prefix⟩, fun _ => List.cons_ne_nil _ _, ?_⟩
      constructor
      · intro hall
        rw [allOk, List.all_cons, Bool.and_eq_true] at hall
        exact absurd hall.1 hok
      · intro hwell
        exact absurd (hfirst.mpr (hwell 0 command rfl)) hok

end Loop

/-- A round of gates that is answered ran at least one command, and passes exactly when
each of the configured or detected commands was started and ended with status 0 in time. -/
theorem gate_round_passes_iff {F : Type} [PyFloat F] (B : Builtins F) (depth : Nat)
    (isZero : F → Bool) (config : Config) (machine : Machine) (cwd : HostPath)
    (files : CheckoutFiles) (child : Nat → Launch → Except Exn ProcessEnd) (final : Bool)
    (commands : List Str) (results : List GateResult)
    (hcommands : gateCommands B depth isZero config.gates files final = .ok commands)
    (h : runGateCommands config machine cwd child 0 commands = .ok results) :
    results ≠ [] ∧ results.map GateResult.command <+: commands ∧
      (allOk results = true ↔ ∀ i command, commands[i]? = some command →
        EndedWell config machine cwd child i command) := by
  rcases runGateCommands_ok h with ⟨hfront, hsome, hall⟩
  simp only [Nat.zero_add] at hall
  exact ⟨hsome (gateCommands_ne_nil hcommands), hfront, hall⟩

/-- A checkout with a `pytest.ini`, and none of the other files that are looked for. -/
def pytestCheckout : CheckoutFiles where
  fileExists path := path = lit "pytest.ini"
  isDir _         := false
  read _          := none

/-- The first process ends with status 0, the others with status 1. -/
def failsSecond (n : Nat) (_ : Launch) : Except Exn ProcessEnd :=
  .ok { returncode := some n, stdout := [], stderr := lit "1 failed", timedOut := false }

/-- A round in that checkout runs both commands, and does not pass: the tests ended badly. -/
theorem gate_round_passes_tests :
    ∃ commands results,
      gateCommands (plainBuiltins : Builtins NonFinite) 1000 (fun _ => false) defaultConfig.gates
        pytestCheckout true = .ok commands ∧
      runGateCommands defaultConfig singleUserMachine [lit "srv", lit "repo"] failsSecond 0
        commands = .ok results ∧
      commands = [lit "git diff --check", lit "python -m pytest -q"] ∧
      (results ≠ [] ∧ results.map GateResult.command <+: commands ∧
        (allOk results = true ↔ ∀ i command, commands[i]? = some command →
          EndedWell defaultConfig singleUserMachine [lit "srv", lit "repo"] failsSecond i
            command)) ∧
      results.map GateResult.ok = [true, false] ∧
      ¬ EndedWell defaultConfig singleUserMachine [lit "srv", lit "repo"] failsSecond 1
        (lit "python -m pytest -q") := by
  refine ⟨_, _, rfl, rfl, rfl, gate_round_passes_iff (plainBuiltins : Builtins NonFinite) 1000
    (fun _ => false) defaultConfig singleUserMachine [lit "srv", lit "repo"] pytestCheckout
    failsSecond true _ _ rfl rfl, rfl, ?_⟩
  rintro ⟨launch, ended, -, hended, hcode, -⟩
  cases hended
  cases hcode

end OmarchyYolo
