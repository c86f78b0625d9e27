import DropPlatform.EbpfLoader
import DropPlatform.TaskDispatch
import DropPlatform.TextLines

/-! The collectors of the agent: `record` of the four profilers that `CreateProfiler` makes.
What a collector asks of the system (children, files, libbpf) is answered by an argument.
The parameters of a request have passed through the types of the protobuf fields when they
arrive here, and each `record` narrows them to `int` before it looks at their ranges. -/

namespace DropPlatform.Collectors
open TextLines
open TaskLifecycle (CreateTaskReq)
open TaskDispatch (TaskDesc taskDesc)

/-- A task as it reaches `record`, with the message's fields that `dispatchTask` leaves at
their defaults. -/
structure CollectTask where
  desc : TaskDesc
  timeoutSec : Nat
  callgraph : String
  scriptContent : String
deriving DecidableEq, Repr

def dispatched (desc : TaskDesc) : CollectTask := ⟨desc, 0, "", ""⟩

section parameters

/-- The conversion to `int`; an overflow of `int` arithmetic wraps in the same way. -/
def toInt (n : Int) : Int := n.bmod (2 ^ 32)

def orDefault (value fallback : Int) : Int := if value ≤ 0 then fallback else value

def orDefaultText (text fallback : String) : String := if text = "" then fallback else text

/-- `task.timeout_sec()`, or the duration and half a minute. -/
def timeoutOr (task : CollectTask) (duration : Int) : Int :=
  let timeoutSec := toInt task.timeoutSec
  if timeoutSec ≤ 0 then toInt (duration + 30) else timeoutSec

/-- The parameters of `runPerf`; the pid 0 stands for the whole system. -/
structure PerfRun where
  hz : Int
  callgraph : String
  event : String
  pid : Int
  duration : Int
  timeoutSec : Int
deriving DecidableEq, Repr

def perfRun (task : CollectTask) : PerfRun :=
  let duration := orDefault (toInt task.desc.duration) 10
  { hz := orDefault (toInt task.desc.hz) 99
    callgraph := orDefaultText task.callgraph "fp"
    event := orDefaultText task.desc.event "cpu-cycles"
    pid := if task.desc.pid > 0 then task.desc.pid else 0
    duration
    timeoutSec := timeoutOr task duration }

structure AsprofRun where
  duration : Int
  event : String
  intervalNs : Int
  pid : Int
  timeoutSec : Int
deriving DecidableEq, Repr

/-- Without a pid nothing is run. -/
def asprofRun (task : CollectTask) : Option AsprofRun :=
  let duration := orDefault (toInt task.desc.duration) 10
  let hz := orDefault (toInt task.desc.hz) 99
  if task.desc.pid ≤ 0 then none
  else some {
    duration
    event := orDefaultText task.desc.event "cpu"
    intervalNs := 1000000000 / hz
    pid := task.desc.pid
    timeoutSec := timeoutOr task duration }

structure EbpfRun where
  duration : Int
  pid : Int
deriving DecidableEq, Repr

def ebpfRun (task : CollectTask) : EbpfRun :=
  ⟨orDefault (toInt task.desc.duration) 10, task.desc.pid⟩

/-- The timeout of a script, whose default duration is another one. -/
def scriptTimeout (task : CollectTask) : Int :=
  let timeoutSec := toInt task.timeoutSec
  if timeoutSec ≤ 0 then
    let duration := toInt task.desc.duration
    toInt ((if duration > 0 then duration else 30) + 30)
  else timeoutSec

end parameters

section children

inductive ChildEnd
  | forkFailed (strerror : String)
  | timedOut
  | waitFailed (strerror : String)
  | exited (code : Nat) (stderr : List Char)
  | signaled (signal : Nat)
deriving DecidableEq, Repr

structure ChildRun where
  ending : ChildEnd
  output : Option Nat
deriving DecidableEq, Repr

def stripNewlines (text : List Char) : List Char := (text.reverse.dropWhile (· = '\n')).reverse

def lastLine (text : List Char) : List Char :=
  stripNewlines (match cutLast '\n' text.dropLast with
    | some (before, _) => text.drop (before.length + 1)
    | none => text)

/-- `ScriptRunner` takes the newlines off first. -/
def scriptLastLine (text : List Char) : List Char :=
  let text := stripNewlines text
  match cutLast '\n' text with
  | some (_, behind) => behind
  | none => text

/-- What the end of a child means; `program` and `task` name it in the messages. -/
def childResult (program task : String) (cut : List Char → List Char) (timeoutSec : Int) :
    ChildEnd → Except String Unit
  | .forkFailed strerror => .error ("fork() failed: " ++ strerror)
  | .timedOut => .error (task ++ " timed out after " ++ toString timeoutSec ++ "s")
  | .waitFailed strerror => .error ("waitpid failed: " ++ strerror)
  | .exited code stderr =>
    if code = 0 then .ok ()
    else
      let content := cut stderr
      .error (program ++ " exited with code " ++ toString code ++
        if content = [] then "" else ": " ++ String.ofList content)
  | .signaled signal => .error (program ++ " killed by signal " ++ toString signal)

/-- The output file has to be there and not empty. -/
def checkOutput (name : String) : Option Nat → Except String Unit
  | none => .error (name ++ " not found after collection")
  | some size => if size = 0 then .error (name ++ " is empty") else .ok ()

end children

/-- What the collectors ask of the system. -/
structure Surroundings where
  exists_ : String → Bool
  canonical : String → String
  currentPath : String
  /-- The directory of the running binary, if `readlink` finds it. -/
  exeDir : Option String
  toolsDir : Option String
  perf : PerfRun → ChildRun
  asprof : String → AsprofRun → ChildRun
  libbpf : EbpfLoader.Libbpf
  outputOpens : Bool
  scriptOpens : Bool
  /-- The text for `errno` if `chmod` fails. -/
  chmodError : Option String
  script : ChildEnd

section collectors
variable (env : Surroundings) (task : CollectTask) (outputDir : String)

def runPerf (run : PerfRun) : Except String Unit := do
  let child := env.perf run
  childResult "perf record" "collection" lastLine run.timeoutSec child.ending
  checkOutput "perf.data" child.output

/-- A pid that perf cannot reach is given up for the whole system. -/
def PerfProfiler.record : Except String (List String) :=
  let run := perfRun task
  let ok := if run.pid > 0 then
      match runPerf env run with
      | .ok _ => .ok ()
      | .error error =>
        if "No such process".toList <:+: error.toList then runPerf env { run with pid := 0 }
        else .error error
    else runPerf env run
  ok.map fun _ => ["perf.data"]

def findAsprof : Option String :=
  match ["/opt/async-profiler/bin/asprof", "/opt/drop/tools/async-profiler/bin/asprof",
      "/usr/local/bin/asprof"].find? env.exists_ with
  | some path => some path
  | none =>
    let beside := env.exeDir.map (· ++ "/../tools/async-profiler/bin/asprof")
    match beside.filter env.exists_ with
    | some path => some (env.canonical path)
    | none => (env.toolsDir.map (· ++ "/async-profiler/bin/asprof")).filter env.exists_

def AsyncProfilerProfiler.record : Except String (List String) :=
  match asprofRun task with
  | none => .error "async-profiler requires a valid PID (pid > 0)"
  | some run =>
    match findAsprof env with
    | none => .error ("asprof binary not found. Install async-profiler to " ++
        "/opt/async-profiler/ or set DROP_TOOLS_DIR")
    | some asprof => do
      let child := env.asprof asprof run
      childResult "asprof" "async-profiler" lastLine run.timeoutSec child.ending
      checkOutput "async_profiler.collapsed" child.output
      return ["async_profiler.collapsed"]

def bpfCandidates : List String :=
  (env.exeDir.map (· ++ "/../common/bpf/offcpu.bpf.o")).toList ++
    ["/opt/drop/bpf/offcpu.bpf.o", env.currentPath ++ "/common/bpf/offcpu.bpf.o",
      "/root/Drop/drop/common/bpf/offcpu.bpf.o"]

def EbpfProfiler.record : Except String (List String) :=
  let run := ebpfRun task
  match (bpfCandidates env).find? env.exists_ with
  | none => .error "Cannot find offcpu.bpf.o (searched standard paths)"
  | some bpfOPath => do
    let loaded := EbpfLoader.load env.libbpf bpfOPath EbpfLoader.start
    loaded.1
    let attached := EbpfLoader.attach env.libbpf (.ofInt run.pid) loaded.2
    attached.1
    EbpfLoader.poll (outputDir ++ "/collapsed_ebpf.txt") env.outputOpens attached.2
    return ["collapsed_ebpf.txt"]

def ScriptRunner.record : Except String (List String) :=
  if task.scriptContent = "" then .error "script_content is empty"
  else if env.scriptOpens = false then
    .error ("failed to create script file: " ++ outputDir ++ "/script.sh")
  else match env.chmodError with
    | some strerror => .error ("chmod failed: " ++ strerror)
    | none => do
      childResult "script" "script" scriptLastLine (scriptTimeout task) env.script
      return ["script_output.txt"]

end collectors

inductive Collector
  | perf | asyncProfiler | ebpf | script
deriving DecidableEq, Repr

def createProfiler (profilerType : Nat) : Option Collector :=
  match profilerType with
  | 0 => some .perf
  | 1 => some .asyncProfiler
  | 3 => some .ebpf
  | 5 => some .script
  | _ => none

/-- The files that a successful `record` makes `collect_result` report. -/
def Collector.record (env : Surroundings) (task : CollectTask) (outputDir : String) :
    Collector → Except String (List String)
  | .perf => PerfProfiler.record env task
  | .asyncProfiler => AsyncProfilerProfiler.record env task
  | .ebpf => EbpfProfiler.record env task outputDir
  | .script => ScriptRunner.record env task outputDir

def Collector.file : Collector → String
  | .perf => "perf.data"
  | .asyncProfiler => "async_profiler.collapsed"
  | .ebpf => "collapsed_ebpf.txt"
  | .script => "script_output.txt"

theorem ok_of_bind {α β : Type} {x : Except String α} {f : α → Except String β} {b : β}
    (done : (x >>= f) = .ok b) : ∃ a, x = .ok a ∧ f a = .ok b := by
  cases x with
  | error e => cases done
  | ok a => exact ⟨a, rfl, done⟩

theorem record_files {env : Surroundings} {task : CollectTask} {outputDir : String}
    {collector : Collector} {files : List String}
    (done : collector.record env task outputDir = .ok files) : files = [collector.file] := by
  cases collector with
  | perf =>
    simp only [Collector.record, PerfProfiler.record] at done
    generalize (if (perfRun task).pid > 0 then _ else _ : Except String Unit) = result at done
    cases result with
    | error e => cases done
    | ok u => exact (Except.ok.inj done).symm
  | asyncProfiler =>
    simp only [Collector.record, AsyncProfilerProfiler.record] at done
    split at done
    · cases done
    · split at done
      · cases done
      · obtain ⟨_, _, done⟩ := ok_of_bind done
        obtain ⟨_, _, done⟩ := ok_of_bind done
        exact (Except.ok.inj done).symm
  | ebpf =>
    simp only [Collector.record, EbpfProfiler.record] at done
    split at done
    · cases done
    · obtain ⟨_, _, done⟩ := ok_of_bind done
      obtain ⟨_, _, done⟩ := ok_of_bind done
      obtain ⟨_, _, done⟩ := ok_of_bind done
      exact (Except.ok.inj done).symm
  | script =>
    simp only [Collector.record, ScriptRunner.record] at done
    split_ifs at done
    split at done
    · cases done
    · obtain ⟨_, _, done⟩ := ok_of_bind done
      exact (Except.ok.inj done).symm

section survival

def wanted (requested fallback : Int) : Int := if 0 < requested then requested else fallback

structure PerfRun.Follows (run : PerfRun) (req : CreateTaskReq) : Prop where
  hz : run.hz = wanted req.hz 99
  duration : run.duration = wanted req.duration 10
  pid : run.pid = wanted req.pid 0
  timeout : run.timeoutSec = wanted req.duration 10 + 30 ∧ run.timeoutSec ≠ 0

structure AsprofRun.Follows (run : AsprofRun) (req : CreateTaskReq) : Prop where
  duration : run.duration = wanted req.duration 10
  pid : run.pid = req.pid
  timeout : run.timeoutSec = wanted req.duration 10 + 30 ∧ run.timeoutSec ≠ 0
  interval : run.intervalNs = 1000000000 / wanted req.hz 99 ∧ run.intervalNs ≠ 0

structure EbpfRun.Follows (run : EbpfRun) (req : CreateTaskReq) : Prop where
  duration : run.duration = wanted req.duration 10
  pid : orDefault run.pid 0 = wanted req.pid 0

/-- All three profilers sample what the request asks for, and neither the timeouts nor the
interval wrap or come out as zero. Without a pid async-profiler has nothing to run. -/
structure Survives (tid : String) (req : CreateTaskReq) : Prop where
  perf : (perfRun (dispatched (taskDesc tid req))).Follows req
  asprof : if 0 < req.pid then
      ∃ run, asprofRun (dispatched (taskDesc tid req)) = some run ∧ run.Follows req
    else asprofRun (dispatched (taskDesc tid req)) = none
  ebpf : (ebpfRun (dispatched (taskDesc tid req))).Follows req

/-- A positive value is in the range of `int`; any other does not become positive, unless it
happens to become the default. -/
def Fits (n fallback : Int) : Prop :=
  if 0 < n then n < 2 ^ 31 else toInt n ≤ 0 ∨ toInt n = fallback

instance decidableFits (n fallback : Int) : Decidable (Fits n fallback) :=
  inferInstanceAs (Decidable (ite _ _ _))

structure InRange (req : CreateTaskReq) : Prop where
  hz : Fits req.hz 99
  duration : Fits req.duration 10
  pid : Fits req.pid 0
  timeout : req.duration + 30 < 2 ^ 31
  interval : 0 < req.pid → req.hz ≤ 1000000000

theorem toInt_bounds (n : Int) : -2 ^ 31 ≤ toInt n ∧ toInt n < 2 ^ 31 := by
  have low := Int.le_bmod (x := n) (m := 2 ^ 32) (by decide)
  have high := Int.bmod_lt (x := n) (m := 2 ^ 32) (by decide)
  simp only [toInt]
  omega

theorem toInt_residue (n : Int) : ∃ k, n = toInt n + 2 ^ 32 * k := by
  obtain ⟨k, split⟩ := Int.dvd_bmod_sub_self (x := n) (m := 2 ^ 32)
  refine ⟨-k, ?_⟩
  simp only [toInt]
  omega

theorem toInt_eq {n m k : Int} (same : n = m + 2 ^ 32 * k) (low : -2 ^ 31 ≤ m)
    (high : m < 2 ^ 31) : toInt n = m := by
  obtain ⟨j, split⟩ := toInt_residue n
  have bounds := toInt_bounds n
  omega

theorem toInt_hz (n : Int) : toInt ((n % 2 ^ 32).toNat : Int) = toInt n := by
  obtain ⟨k, split⟩ := toInt_residue n
  have bounds := toInt_bounds n
  exact toInt_eq (k := k - n / 2 ^ 32) (by omega) bounds.1 bounds.2

theorem toInt_duration (n : Int) : toInt ((n % 2 ^ 64).toNat : Int) = toInt n := by
  obtain ⟨k, split⟩ := toInt_residue n
  have bounds := toInt_bounds n
  exact toInt_eq (k := k - 2 ^ 32 * (n / 2 ^ 64)) (by omega) bounds.1 bounds.2

theorem orDefault_eq_wanted_iff (n fallback : Int) (small : 0 ≤ fallback ∧ fallback < 2 ^ 31) :
    orDefault (toInt n) fallback = wanted n fallback ↔ Fits n fallback := by
  obtain ⟨k, split⟩ := toInt_residue n
  have bounds := toInt_bounds n
  simp only [orDefault, wanted, Fits]
  split_ifs <;> omega

theorem pid_eq_wanted_iff (n : Int) :
    (if toInt n > 0 then toInt n else 0) = wanted n 0 ↔ Fits n 0 := by
  rw [← orDefault_eq_wanted_iff _ _ (by decide), orDefault]
  simp only [← not_lt, ite_not]

theorem timeout_iff (duration : Int) :
    toInt (wanted duration 10 + 30) = wanted duration 10 + 30 ↔ duration + 30 < 2 ^ 31 := by
  have bounds := toInt_bounds (wanted duration 10 + 30)
  constructor
  · intro same
    rw [same, wanted] at bounds
    split_ifs at bounds <;> omega
  · intro room
    refine toInt_eq (k := 0) (by omega) ?_ ?_
    all_goals
      rw [wanted]
      split_ifs <;> omega

theorem wanted_duration_pos (duration : Int) : 0 < wanted duration 10 := by
  rw [wanted]
  split_ifs <;> omega

theorem interval_ne_zero_iff (hz : Int) :
    1000000000 / wanted hz 99 ≠ 0 ↔ hz ≤ 1000000000 := by
  rw [wanted]
  split_ifs with positive
  · have atLeast := Int.le_ediv_iff_mul_le (a := 1) (b := 1000000000) positive
    have nonneg : 0 ≤ 1000000000 / hz := Int.ediv_nonneg (by decide) positive.le
    omega
  · omega

variable (tid : String) (req : CreateTaskReq)

theorem perfRun_follows_iff :
    (perfRun (dispatched (taskDesc tid req))).Follows req ↔
      Fits req.hz 99 ∧ Fits req.duration 10 ∧ Fits req.pid 0 ∧ req.duration + 30 < 2 ^ 31 := by
  have hz := orDefault_eq_wanted_iff req.hz 99 (by decide)
  have duration := orDefault_eq_wanted_iff req.duration 10 (by decide)
  have pid := pid_eq_wanted_iff req.pid
  have room := timeout_iff req.duration
  have positive := wanted_duration_pos req.duration
  have zero : toInt (0 : Nat) ≤ 0 := by decide
  rw [← hz, ← duration, ← pid, ← room]
  constructor
  · rintro ⟨sameHz, sameDuration, samePid, timeout⟩
    simp only [perfRun, dispatched, taskDesc, timeoutOr, toInt_hz, toInt_duration, if_pos zero]
      at sameHz sameDuration samePid timeout
    rw [sameDuration] at timeout
    exact ⟨sameHz, sameDuration, samePid, timeout.1⟩
  · rintro ⟨sameHz, sameDuration, samePid, timeout⟩
    constructor
    all_goals simp only [perfRun, dispatched, taskDesc, timeoutOr, toInt_hz, toInt_duration,
      if_pos zero, sameDuration, timeout]
    · exact sameHz
    · exact samePid
    · exact ⟨trivial, by omega⟩

theorem Fits.toInt_pid {n : Int} (fits : Fits n 0) : toInt n = if 0 < n then n else toInt n := by
  obtain ⟨k, split⟩ := toInt_residue n
  have bounds := toInt_bounds n
  simp only [Fits] at fits
  split_ifs at fits ⊢ <;> omega

theorem asprofRun_of_fits (pid : Fits req.pid 0)
    (hz : orDefault (toInt req.hz) 99 = wanted req.hz 99)
    (duration : orDefault (toInt req.duration) 10 = wanted req.duration 10) :
    asprofRun (dispatched (taskDesc tid req)) =
      if 0 < req.pid then
        some ⟨wanted req.duration 10, orDefaultText req.event "cpu",
          1000000000 / wanted req.hz 99, req.pid, toInt (wanted req.duration 10 + 30)⟩
      else none := by
  have zero : toInt (0 : Nat) ≤ 0 := by decide
  have target := pid.toInt_pid
  simp only [Fits] at pid
  simp only [asprofRun, dispatched, taskDesc, timeoutOr, toInt_hz, toInt_duration, if_pos zero,
    duration, hz]
  by_cases positive : 0 < req.pid
  · rw [if_pos positive] at target
    rw [if_pos positive, ← toInt, target, if_neg (by omega)]
  · rw [if_neg positive] at pid
    rw [if_neg positive, ← toInt, if_pos (by omega)]

/-- A request keeps its parameters on the way to the collectors exactly if they are in the
ranges that the conversions leave alone. -/
theorem survives_iff : Survives tid req ↔ InRange req := by
  have hz := orDefault_eq_wanted_iff req.hz 99 (by decide)
  have duration := orDefault_eq_wanted_iff req.duration 10 (by decide)
  have pid := orDefault_eq_wanted_iff req.pid 0 (by decide)
  have positive := wanted_duration_pos req.duration
  constructor
  · intro survives
    obtain ⟨fitsHz, fitsDuration, fitsPid, room⟩ := (perfRun_follows_iff tid req).mp survives.perf
    refine ⟨fitsHz, fitsDuration, fitsPid, room, fun named => ?_⟩
    have asprof := survives.asprof
    rw [if_pos named] at asprof
    obtain ⟨run, made, follows⟩ := asprof
    have interval := follows.interval
    rw [interval.1] at interval
    exact (interval_ne_zero_iff req.hz).mp interval.2
  · rintro ⟨fitsHz, fitsDuration, fitsPid, room, interval⟩
    have made := asprofRun_of_fits tid req fitsPid (hz.mpr fitsHz) (duration.mpr fitsDuration)
    refine ⟨(perfRun_follows_iff tid req).mpr ⟨fitsHz, fitsDuration, fitsPid, room⟩, ?_, ?_⟩
    · split_ifs with named
      · refine ⟨_, made.trans (if_pos named), rfl, rfl, ?_, rfl, ?_⟩
        · have timeout := (timeout_iff req.duration).mpr room
          exact ⟨timeout, timeout.trans_ne (by omega)⟩
        · exact (interval_ne_zero_iff req.hz).mpr (interval named)
      · exact made.trans (if_neg named)
    · constructor
      · simp only [ebpfRun, dispatched, taskDesc, toInt_duration]
        exact duration.mpr fitsDuration
      · simp only [ebpfRun, dispatched, taskDesc]
        exact pid.mpr fitsPid

def widePid : CreateTaskReq := ⟨"", 0, 0, "10.0.0.7", 2 ^ 32 + 1, 30, 99, ""⟩

theorem widePid_profiles_another :
    (perfRun (dispatched (taskDesc "t" widePid))).pid = 1 ∧ ¬ Survives "t" widePid := by
  refine ⟨by decide, fun survives => ?_⟩
  have pid := survives.perf.pid
  revert pid
  decide

end survival

end DropPlatform.Collectors
