import Mathlib.Data.List.Forall2
import OmarchyYolo.Lib.BoundedLog
import OmarchyYolo.Lib.Transition
import OmarchyYolo.Lib.Utf8Decode
import OmarchyYolo.Model
import OmarchyYolo.Util

/-!
# OmarchyYolo.OutputCapture — what is kept of the output of a child process

`ProcessRunner.run` and `GateRunner.run` start a child with two pipes. A pump
for each pipe reads chunks, keeps the last bytes, and writes each chunk to a log
under a lock; the log has a limit, and ends with a marker where it was reached.

* `Pump`, `Output` — the two pumps and the log, `Output.step` — their steps, in any order;
* `ProcessRunner.system`, `GateRunner.system` — the runs of the two coroutines;
* `output_exact`: log and results in every reachable state.
-/

namespace OmarchyYolo

open Py Lts Log

/-! ## Pumps -/

inductive Stream where
  | stdout
  | stderr
deriving DecidableEq, Repr

/-- A pipe, and the task that reads it. -/
structure Pump where
  /-- What has been read, and what is still in the pipe. -/
  received : List UInt8 := []
  unread : List UInt8 := []
  /-- The buffer of the result. -/
  target : List UInt8 := []
  /-- A chunk that is not in the log yet. -/
  pending : Option (List UInt8) := none
  closed : Bool := false
deriving DecidableEq, Repr

/-- All that the child has written. -/
def Pump.written (p : Pump) : List UInt8 := p.received ++ p.unread

/-- The log of a run with all that has been written to it in the order of the lock, and the pumps
of its child. -/
structure Output where
  log : BoundedLog UInt8
  writes : List (List UInt8)
  pump : Stream → Pump := fun _ => {}

/-- What distinguishes the two runners. -/
structure LogStyle where
  captureLimit : Nat
  logLimit : Nat
  marker : List UInt8
  /-- What is written for a chunk. -/
  entry : Stream → List UInt8 → List UInt8
  hasRoom : 0 < logLimit
  hasMarker : marker ≠ []

/-- `write_log`, and the part of `pump` under the lock. -/
def Output.write (style : LogStyle) (data : List UInt8) (o : Output) : Output :=
  { o with log := o.log.write style.logLimit style.marker data, writes := o.writes ++ [data] }

def Output.set (stream : Stream) (p : Pump) (o : Output) : Output :=
  { o with pump := Function.update o.pump stream p }

inductive PumpStep where
  /-- The child writes to its end of the pipe. -/
  | emit (stream : Stream) (bytes : List UInt8)
  /-- `await stream.read(65536)`, and the buffer after it. -/
  | read (stream : Stream) (chunk : List UInt8)
  /-- The chunk is written to the log. -/
  | record (stream : Stream)
  /-- `if not chunk: break`. -/
  | close (stream : Stream)

def Output.step (style : LogStyle) (o : Output) : PumpStep → Output → Prop
  | .emit s bytes, o' => (o.pump s).closed = false ∧
    o' = o.set s { o.pump s with unread := (o.pump s).unread ++ bytes }
  | .read s chunk, o' => (o.pump s).closed = false ∧ (o.pump s).pending = none ∧ chunk ≠ [] ∧
    chunk.length ≤ 65536 ∧ ∃ rest, (o.pump s).unread = chunk ++ rest ∧
      o' = o.set s { o.pump s with
        received := (o.pump s).received ++ chunk
        unread := rest
        target := keepLast style.captureLimit (o.pump s).target chunk
        pending := some chunk }
  | .record s, o' => ∃ chunk, (o.pump s).pending = some chunk ∧
    o' = (o.write style (style.entry s chunk)).set s { o.pump s with pending := none }
  | .close s, o' => (o.pump s).closed = false ∧ (o.pump s).pending = none ∧
    (o.pump s).unread = [] ∧ o' = o.set s { o.pump s with closed := true }

/-- `buffer.decode("utf-8", errors="replace")`. -/
def Output.captured (o : Output) (stream : Stream) : Str := decodeReplace (o.pump stream).target

/-- Both pumps have read to the end. -/
def Output.Drained (o : Output) : Prop := ∀ stream, (o.pump stream).closed = true

/-! ## `ProcessRunner` -/

structure ProcessRunner where
  captureLimitBytes : Nat
  logLimitBytes : Nat
  capturePositive : 0 < captureLimitBytes
  logPositive : 0 < logLimitBytes

namespace ProcessRunner

/-- `__init__`. -/
def init (captureLimitBytes logLimitBytes : Int) : ProcessRunner where
  captureLimitBytes := (max 1 captureLimitBytes).toNat
  logLimitBytes := (max 1 logLimitBytes).toNat
  capturePositive := by omega
  logPositive := by omega

def logTruncationMarker : List UInt8 :=
  fsencode (lit "\n[omarchy-yolo: log output truncated]\n")

/-- The prefixes of the two pumps. -/
def streamPrefix : Stream → Str
  | .stdout => lit "[stdout] "
  | .stderr => lit "[stderr] "

/-- `prefix + chunk`, on lines of its own. -/
def payload (stream : Stream) (chunk : List UInt8) : List UInt8 :=
  let payload := fsencode (streamPrefix stream) ++ chunk
  if fsencode (lit "\n") <:+ chunk then payload else payload ++ fsencode (lit "\n")

def style (runner : ProcessRunner) : LogStyle where
  captureLimit := runner.captureLimitBytes
  logLimit := runner.logLimitBytes
  marker := logTruncationMarker
  entry := payload
  hasRoom := runner.logPositive
  hasMarker := by decide

inductive Phase where
  /-- `await asyncio.wait_for(proc.wait(), ...)`. -/
  | waiting
  /-- `_drain_process_pumps`. -/
  | draining (timedOut : Bool)
  | returned (result : AgentResult)
  | raised
deriving DecidableEq, Repr

/-- The child is there, or one of its pumps. -/
def Phase.alive : Phase → Bool
  | waiting | draining _ => true
  | returned _ | raised => false

structure Run where
  phase : Phase
  output : Output

inductive Step where
  | pump (step : PumpStep)
  /-- The child exits. -/
  | exited
  /-- `except TimeoutError`: it is terminated. -/
  | timedOut
  /-- Both pumps have ended, and the return code has been read. -/
  | drained (returncode : Option Int)
  /-- A cancellation, an exception of a pump, or pipes that do not close. -/
  | failed

/-- The return code of the result. -/
def resultCode (timedOut : Bool) (returncode : Option Int) : Int :=
  let rc := returncode.getD 124
  if timedOut && rc == 0 then 124 else rc

def step (runner : ProcessRunner) (run : Run) : Step → Run → Prop
  | .pump p, run' => run.phase.alive = true ∧ run'.phase = run.phase ∧
    run.output.step runner.style p run'.output
  | .exited, run' => run.phase = .waiting ∧ run' = { run with phase := .draining false }
  | .timedOut, run' => run.phase = .waiting ∧ run' = { run with phase := .draining true }
  | .drained returncode, run' => ∃ timedOut, run.phase = .draining timedOut ∧
    run.output.Drained ∧
    let result : AgentResult :=
      { returncode := resultCode timedOut returncode
        stdout := run.output.captured .stdout
        stderr := run.output.captured .stderr }
    run' = { run with phase := .returned result }
  | .failed, run' => run.phase.alive = true ∧ run' = { run with phase := .raised }

/-- The runs under a header, which is written before the child is started. -/
def system (runner : ProcessRunner) (header : List UInt8) : System Run Step where
  init run := run = { phase := .waiting, output :=
    { log := { contents := header.take runner.logLimitBytes }, writes := [header] } }
  step := runner.step

end ProcessRunner

/-! ## `GateRunner` -/

structure GateRunner where
  captureLimitBytes : Nat
  logLimitBytes : Nat
  capturePositive : 0 < captureLimitBytes
  logPositive : 0 < logLimitBytes

namespace GateRunner

/-- `__init__`. -/
def init (captureLimitBytes logLimitBytes : Int) : GateRunner where
  captureLimitBytes := (max 1 captureLimitBytes).toNat
  logLimitBytes := (max 1 logLimitBytes).toNat
  capturePositive := by omega
  logPositive := by omega

def logTruncationMarker : List UInt8 :=
  fsencode (lit "\n[omarchy-yolo: gate log truncated]\n")

def style (runner : GateRunner) : LogStyle where
  captureLimit := runner.captureLimitBytes
  logLimit := runner.logLimitBytes
  marker := logTruncationMarker
  entry _ chunk := chunk
  hasRoom := runner.logPositive
  hasMarker := by decide

/-- What is logged before a command. -/
def commandLine (command : Str) : List UInt8 :=
  fsencode (lit "\n$ " ++ command ++ lit "\n")

/-- `str` of an integer. -/
def showInt (n : Int) : Str := if 0 ≤ n then decimal n.toNat else lit "-" ++ decimal n.natAbs

/-- What is logged after a command. -/
def exitLine (result : GateResult) : List UInt8 :=
  fsencode (lit "\n[exit=" ++ showInt result.returncode ++ lit " timeout=" ++
    (if result.timedOut then lit "True" else lit "False") ++ lit "]\n")

inductive Phase where
  /-- The head of the loop over the commands. -/
  | ready (commands : List Str)
  | waiting (command : Str) (commands : List Str)
  | draining (command : Str) (commands : List Str) (timedOut : Bool)
  | returned
  | raised
deriving DecidableEq, Repr

def Phase.alive : Phase → Bool
  | waiting _ _ | draining _ _ _ => true
  | _ => false

/-- A run with its results so far, and what their commands have written. -/
structure Run where
  phase : Phase
  output : Output
  results : List GateResult := []
  emitted : List (Stream → List UInt8) := []

inductive Step where
  /-- The next command is logged, and its child is started. -/
  | start
  | pump (step : PumpStep)
  | exited
  | timedOut
  /-- Both pumps have ended, and the return code has been read. -/
  | drained (returncode : Option Int)
  /-- No command is left. -/
  | finished
  /-- A cancellation, an exception, or pipes that do not close. -/
  | failed

/-- The loop goes on after a result that is ok. -/
def after (result : GateResult) (commands : List Str) : Phase :=
  if result.ok then .ready commands else .returned

def step (runner : GateRunner) (run : Run) : Step → Run → Prop
  | .start, run' => ∃ command commands, run.phase = .ready (command :: commands) ∧
    isText command = true ∧ run' = { run with
      phase := .waiting command commands
      output := { run.output.write runner.style (commandLine command) with pump := fun _ => {} } }
  | .pump p, run' => run.phase.alive = true ∧ run'.phase = run.phase ∧
    run'.results = run.results ∧ run'.emitted = run.emitted ∧
    run.output.step runner.style p run'.output
  | .exited, run' => ∃ command commands, run.phase = .waiting command commands ∧
    run' = { run with phase := .draining command commands false }
  | .timedOut, run' => ∃ command commands, run.phase = .waiting command commands ∧
    run' = { run with phase := .draining command commands true }
  | .drained returncode, run' => ∃ command commands timedOut,
    run.phase = .draining command commands timedOut ∧ run.output.Drained ∧
    let result : GateResult :=
      { command := command
        returncode := returncode.getD 124
        stdout := run.output.captured .stdout
        stderr := run.output.captured .stderr
        timedOut := timedOut }
    run' = {
      phase := after result commands
      output := run.output.write runner.style (exitLine result)
      results := run.results ++ [result]
      emitted := run.emitted ++ [fun stream => (run.output.pump stream).written] }
  | .finished, run' => run.phase = .ready [] ∧ run' = { run with phase := .returned }
  | .failed, run' => run.phase ≠ .returned ∧ run.phase ≠ .raised ∧
    run' = { run with phase := .raised }

/-- The runs over a tuple of commands, with a log that has been emptied. -/
def system (runner : GateRunner) (commands : List Str) : System Run Step where
  init run := run =
    { phase := .ready commands, output := { log := { contents := [] }, writes := [] } }
  step := runner.step

end GateRunner

/-! ## What a step keeps -/

/-- The buffer has the last bytes of what has been read. -/
structure Pump.Sound (limit : Nat) (p : Pump) : Prop where
  target : p.target = p.received.rtake limit
  ended : p.closed = true → p.unread = []

/-- The log has what has been written since `start`, within its limit, and the buffers have the
last bytes. -/
structure Output.Sound (style : LogStyle) (start : List UInt8) (o : Output) : Prop where
  log : o.log.Writing style.logLimit style.marker start o.writes.flatten
  pump : ∀ stream, (o.pump stream).Sound style.captureLimit

section Sound

variable {style : LogStyle} {start : List UInt8} {o o' : Output}

theorem Pump.sound_fresh (limit : Nat) : ({} : Pump).Sound limit where
  target := (List.rtake_nil limit).symm
  ended _ := rfl

theorem Output.Sound.write (h : o.Sound style start) (hstart : start.length < style.logLimit)
    (data : List UInt8) : (o.write style data).Sound style start where
  log := by
    rw [Output.write, List.flatten_append, List.flatten_singleton]
    exact h.log.after hstart style.hasMarker data
  pump := h.pump

theorem Output.Sound.set (h : o.Sound style start) {stream : Stream} {p : Pump}
    (hp : p.Sound style.captureLimit) : (o.set stream p).Sound style start where
  log := h.log
  pump := by
    intro other
    by_cases heq : other = stream
    · subst heq
      simp only [Output.set, Function.update_self]
      exact hp
    · simp only [Output.set, Function.update_of_ne heq]
      exact h.pump other

theorem Output.step_sound {step : PumpStep} (h : o.Sound style start)
    (hstart : start.length < style.logLimit) (hstep : o.step style step o') :
    o'.Sound style start := by
  cases step with
  | emit stream bytes =>
    obtain ⟨hopen, rfl⟩ := hstep
    refine h.set ⟨(h.pump stream).target, fun hclosed => ?_⟩
    rw [show (o.pump stream).closed = true from hclosed] at hopen
    cases hopen
  | read stream chunk =>
    obtain ⟨hopen, -, -, -, rest, -, rfl⟩ := hstep
    refine h.set ⟨?_, fun hclosed => ?_⟩
    · simp only
      rw [(h.pump stream).target]
      exact keepLast_rtake _ _ _
    · rw [show (o.pump stream).closed = true from hclosed] at hopen
      cases hopen
  | record stream =>
    obtain ⟨chunk, -, rfl⟩ := hstep
    exact (h.write hstart _).set ⟨(h.pump stream).target, (h.pump stream).ended⟩
  | close stream =>
    obtain ⟨-, -, hempty, rfl⟩ := hstep
    exact h.set ⟨(h.pump stream).target, fun _ => hempty⟩

/-- The log within its limit, and what it holds. -/
structure Output.Exact (style : LogStyle) (o : Output) : Prop where
  bounded : o.log.contents.length ≤ style.logLimit
  holds : Log.Holds style.logLimit style.marker o.writes.flatten o.log.contents

theorem Output.Sound.exact (h : o.Sound style start) (hstart : start.length < style.logLimit) :
    o.Exact style := by
  obtain ⟨hbounded, hholds⟩ := h.log.holds hstart style.hasMarker
  exact ⟨hbounded, hholds⟩

/-- The text of the last bytes that the child has written to a stream. -/
def lastOutput (style : LogStyle) (written : List UInt8) : Str :=
  decodeReplace (written.rtake style.captureLimit)

theorem Output.Sound.captured (h : o.Sound style start) (hdrained : o.Drained)
    (stream : Stream) : o.captured stream = lastOutput style (o.pump stream).written := by
  rw [Output.captured, (h.pump stream).target, lastOutput, Pump.written,
    (h.pump stream).ended (hdrained stream), List.append_nil]

end Sound

/-! ## Runs -/

/-- The result of a process has the last bytes of both streams. -/
def ProcessRunner.Run.Kept (runner : ProcessRunner) (run : Run) : Prop :=
  ∀ result, run.phase = .returned result →
    result.stdout = lastOutput runner.style (run.output.pump .stdout).written ∧
    result.stderr = lastOutput runner.style (run.output.pump .stderr).written

theorem ProcessRunner.run_sound {runner : ProcessRunner} {header : List UInt8}
    (hheader : header.length < runner.logLimitBytes) {run : Run}
    (h : (runner.system header).Reachable run) :
    run.output.Sound runner.style header ∧ run.Kept runner := by
  refine @System.Reachable.invariant _ _ (runner.system header)
    (fun run => run.output.Sound runner.style header ∧ run.Kept runner) ?_ ?_ run h
  · rintro _ rfl
    refine ⟨⟨?_, fun stream => Pump.sound_fresh _⟩, nofun⟩
    rw [List.take_of_length_le (Nat.le_of_lt hheader), List.flatten_singleton]
    exact BoundedLog.writing_start
  · rintro run step run' - ⟨hsound, hkept⟩ hstep
    cases step with
    | pump p =>
      obtain ⟨halive, hphase, hstep⟩ := hstep
      refine ⟨Output.step_sound hsound hheader hstep, fun result hreturned => ?_⟩
      -- the pumps of a run that has returned are still
      rw [hphase] at hreturned
      rw [hreturned] at halive
      cases halive
    | exited =>
      obtain ⟨-, rfl⟩ := hstep
      exact ⟨hsound, nofun⟩
    | timedOut =>
      obtain ⟨-, rfl⟩ := hstep
      exact ⟨hsound, nofun⟩
    | drained returncode =>
      obtain ⟨timedOut, -, hdrained, rfl⟩ := hstep
      refine ⟨hsound, fun result hreturned => ?_⟩
      cases hreturned
      exact ⟨hsound.captured hdrained .stdout, hsound.captured hdrained .stderr⟩
    | failed =>
      obtain ⟨-, rfl⟩ := hstep
      exact ⟨hsound, nofun⟩

/-- Each result of the gates has the last bytes of what its command has written. -/
def GateRunner.Run.Kept (runner : GateRunner) (run : Run) : Prop :=
  List.Forall₂ (fun result written =>
      result.stdout = lastOutput runner.style (written .stdout) ∧
      result.stderr = lastOutput runner.style (written .stderr))
    run.results run.emitted

theorem GateRunner.run_sound {runner : GateRunner} {commands : List Str} {run : Run}
    (h : (runner.system commands).Reachable run) :
    run.output.Sound runner.style [] ∧ run.Kept runner := by
  have hroom : ([] : List UInt8).length < runner.style.logLimit := runner.logPositive
  refine @System.Reachable.invariant _ _ (runner.system commands)
    (fun run => run.output.Sound runner.style [] ∧ run.Kept runner) ?_ ?_ run h
  · rintro _ rfl
    exact ⟨⟨BoundedLog.writing_start, fun stream => Pump.sound_fresh _⟩, .nil⟩
  · rintro run step run' - ⟨hsound, hkept⟩ hstep
    cases step with
    | start =>
      obtain ⟨command, commands, -, -, rfl⟩ := hstep
      exact ⟨⟨(hsound.write hroom _).log, fun stream => Pump.sound_fresh _⟩, hkept⟩
    | pump p =>
      obtain ⟨-, -, hresults, hemitted, hstep⟩ := hstep
      refine ⟨Output.step_sound hsound hroom hstep, ?_⟩
      rw [Run.Kept, hresults, hemitted]
      exact hkept
    | exited =>
      obtain ⟨command, commands, -, rfl⟩ := hstep
      exact ⟨hsound, hkept⟩
    | timedOut =>
      obtain ⟨command, commands, -, rfl⟩ := hstep
      exact ⟨hsound, hkept⟩
    | drained returncode =>
      obtain ⟨command, commands, timedOut, -, hdrained, rfl⟩ := hstep
      refine ⟨hsound.write hroom _, List.rel_append hkept (.cons ⟨?_, ?_⟩ .nil)⟩
      · exact hsound.captured hdrained .stdout
      · exact hsound.captured hdrained .stderr
    | finished =>
      obtain ⟨-, rfl⟩ := hstep
      exact ⟨hsound, hkept⟩
    | failed =>
      obtain ⟨-, -, rfl⟩ := hstep
      exact ⟨hsound, hkept⟩

/-- In every reachable state of the two runners the log is within its limit and holds a front of
what has been written, with the marker behind it where that is not all; and the results have the
last bytes of both streams. -/
theorem output_exact :
    (∀ (runner : ProcessRunner) (header : List UInt8), header.length < runner.logLimitBytes →
      ∀ run, (runner.system header).Reachable run →
        run.output.Exact runner.style ∧ run.Kept runner) ∧
    ∀ (runner : GateRunner) (commands : List Str) (run : GateRunner.Run),
      (runner.system commands).Reachable run →
        run.output.Exact runner.style ∧ run.Kept runner := by
  constructor
  · intro runner header hheader run h
    obtain ⟨hsound, hkept⟩ := ProcessRunner.run_sound hheader h
    exact ⟨hsound.exact hheader, hkept⟩
  · intro runner commands run h
    obtain ⟨hsound, hkept⟩ := GateRunner.run_sound h
    exact ⟨hsound.exact runner.logPositive, hkept⟩

/-- A runner whose log has room for its header and half of the marker. -/
def smallProcess : ProcessRunner where
  captureLimitBytes := 4
  logLimitBytes := 24
  capturePositive := by decide
  logPositive := by decide

/-- A child that writes one line and exits. -/
theorem output_exact_smallProcess :
    ∃ run, (smallProcess.system (fsencode (lit "$ x\n"))).Reachable run ∧
      run.phase = .returned ⟨0, lit "bye\n", []⟩ ∧
      run.output.log.contents = fsencode (lit "$ x\n\n[omarchy-yolo: log ") ∧
      run.output.Exact smallProcess.style ∧ run.Kept smallProcess := by
  have hpump : ∀ {run : ProcessRunner.Run} (p : PumpStep) {o : Output},
      (smallProcess.system (fsencode (lit "$ x\n"))).Reachable run → run.phase.alive = true →
      run.output.step smallProcess.style p o →
      (smallProcess.system (fsencode (lit "$ x\n"))).Reachable { run with output := o } :=
    fun p _ h halive hstep => h.step (l := .pump p) ⟨halive, rfl, hstep⟩
  let line := fsencode (lit "goodbye\n")
  have hstart := @System.reachable_init _ _ (smallProcess.system (fsencode (lit "$ x\n"))) _ rfl
  have hemit := hpump (.emit .stdout line) hstart rfl ⟨rfl, rfl⟩
  have hread := hpump (.read .stdout line) hemit rfl
    ⟨rfl, rfl, by decide, by decide, [], (List.append_nil line).symm, rfl⟩
  have hrecord := hpump (.record .stdout) hread rfl ⟨line, rfl, rfl⟩
  have hout := hpump (.close .stdout) hrecord rfl ⟨rfl, rfl, rfl, rfl⟩
  have herr := hpump (.close .stderr) hout rfl ⟨rfl, rfl, rfl, rfl⟩
  have hexit := herr.step (l := ProcessRunner.Step.exited) ⟨rfl, rfl⟩
  have hdone := hexit.step (l := ProcessRunner.Step.drained (some 0))
    ⟨false, rfl, fun stream => by cases stream <;> rfl, rfl⟩
  refine ⟨_, hdone, ?_, ?_, output_exact.1 smallProcess _ (by decide) _ hdone⟩
  · decide +kernel
  · decide +kernel

end OmarchyYolo
