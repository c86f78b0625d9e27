import DropPlatform.Collectors
import DropPlatform.TransitionRuns

/-! How a collector watches the child it has forked. `PerfProfiler::runPerf`,
`AsyncProfilerProfiler::record` and `ScriptRunner::record` share this code: the thread of the task
sits in `waitpid`, and a watchdog waits for it on a condition variable, at most until a deadline,
before it sends signals to the process group of the child. The clock, the child and the
processes that the child starts move between any two steps of the two threads. -/

namespace DropPlatform.ChildWatch
open TransitionRuns Collectors

inductive Status
  | exited (code : Nat)
  | signaled (signal : Nat)
deriving DecidableEq, Repr

inductive ChildAt
  | running
  | zombie (status : Status)
  | reaped (status : Status)
deriving DecidableEq, Repr

inductive Signal
  | term
  | kill
deriving DecidableEq, Repr

/-- A call of `killpg`, the time of it, and whether the group had a process. -/
structure Sent where
  signal : Signal
  time : Int
  hit : Bool
deriving DecidableEq, Repr

/-- The two calls of `wait_until`. -/
inductive Round
  | timeout
  | grace (killDeadline : Int)
deriving DecidableEq, Repr

inductive WatchdogAt
  | locking
  /-- Looks at `child_done` with the mutex; `late` is what the last wait has reported. -/
  | testing (round : Round) (late : Bool)
  /-- Blocked in the wait, without the mutex. -/
  | waiting (round : Round)
  /-- Out of the wait, and the mutex is not yet taken again. -/
  | waking (round : Round)
  | terminating
  | killing
  | ended
deriving DecidableEq, Repr

inductive Place
  | locking
  | setting
  | notifying
  | joining
deriving DecidableEq, Repr

/-- What `waitpid` came back with: a status, or the text for `errno`. -/
inductive Waited
  | came (status : Status)
  | failed (strerror : String)
deriving DecidableEq, Repr

inductive MainAt
  | waiting
  | past (waited : Waited) (place : Place)
  | returned (ending : ChildEnd)
deriving DecidableEq, Repr

structure State where
  clock : Int
  childDone : Bool
  timedOut : Bool
  main : MainAt
  watchdog : WatchdogAt
  child : ChildAt
  /-- The child has made its own process group. -/
  grouped : Bool
  /-- The other processes of that group. -/
  members : Nat
  sent : List Sent
deriving DecidableEq, Repr

inductive Action
  | tick (passed : Nat)
  | childGroups
  | groupForks
  | memberEnds
  | childEnds (status : Status)
  | mainReaps
  | mainFails (strerror : String)
  | mainLocks
  | mainSets
  | mainNotifies
  /-- With the error output as it is read then. -/
  | mainReturns (stderr : List Char)
  | watchdogLocks
  | watchdogTests
  | watchdogTimesOut
  /-- The wait of a condition variable may end without a notification. -/
  | watchdogWakes
  | watchdogTakes
  | watchdogTerminates
  | watchdogKills
deriving DecidableEq, Repr

section code

def second : Int := 1000000000

def WatchdogAt.inside : WatchdogAt → Bool
  | .testing _ _ | .terminating | .killing => true
  | .locking | .waiting _ | .waking _ | .ended => false

def MainAt.inside : MainAt → Bool
  | .past _ .setting => true
  | _ => false

def locked (s : State) : Bool := s.main.inside || s.watchdog.inside

/-- `notify_all`: only the watchdog ever waits. -/
def wake : WatchdogAt → WatchdogAt
  | .waiting round => .waking round
  | place => place

/-- The loop of `wait_until` over its predicate, and what comes behind it. -/
def test (s : State) (round : Round) (late : Bool) : State :=
  if s.childDone then { s with watchdog := .ended }
  else if late then
    match round with
    | .timeout => { s with timedOut := true, watchdog := .terminating }
    | .grace _ => { s with watchdog := .killing }
  else { s with watchdog := .waiting round }

/-- The group exists as long as it has a process, and a zombie is one. -/
def hit (s : State) : Bool :=
  s.grouped && (0 < s.members || match s.child with
    | .running | .zombie _ => true
    | .reaped _ => false)

/-- A process may end on SIGTERM or go on, as it may at any time; SIGKILL leaves none. -/
def killpg (s : State) (signal : Signal) : State :=
  let sent := s.sent ++ [⟨signal, s.clock, hit s⟩]
  match signal with
  | .term => { s with sent }
  | .kill =>
    if s.grouped then
      { s with
        sent, members := 0
        child := match s.child with
          | .running => .zombie (.signaled 9)
          | gone => gone }
    else { s with sent }

def verdict (timedOut : Bool) (waited : Waited) (stderr : List Char) : ChildEnd :=
  if timedOut then .timedOut
  else match waited with
    | .failed strerror => .waitFailed strerror
    | .came (.exited code) => .exited code stderr
    | .came (.signaled signal) => .signaled signal

/-- `waitpid(-pgid, nullptr, WNOHANG)` until it finds nothing more. -/
def reapGroup (s : State) : ChildAt :=
  match s.child with
  | .zombie status => if s.grouped then .reaped status else .zombie status
  | other => other

variable (begin timeoutSec : Int)

def deadline : Round → Int
  | .timeout => begin + timeoutSec * second
  | .grace killDeadline => killDeadline

def step (s : State) : Action → Option State
  | .tick passed => some { s with clock := s.clock + passed }
  | .childGroups => if s.child = .running then some { s with grouped := true } else none
  | .groupForks =>
    if s.grouped ∧ (s.child = .running ∨ 0 < s.members) then
      some { s with members := s.members + 1 }
    else none
  | .memberEnds => if 0 < s.members then some { s with members := s.members - 1 } else none
  | .childEnds status =>
    if s.child = .running then some { s with child := .zombie status } else none
  | .mainReaps =>
    match s.main, s.child with
    | .waiting, .zombie status =>
      some { s with main := .past (.came status) .locking, child := .reaped status }
    | _, _ => none
  | .mainFails strerror =>
    if s.main = .waiting then some { s with main := .past (.failed strerror) .locking } else none
  | .mainLocks =>
    match s.main with
    | .past waited .locking =>
      if locked s = false then some { s with main := .past waited .setting } else none
    | _ => none
  | .mainSets =>
    match s.main with
    | .past waited .setting => some { s with childDone := true, main := .past waited .notifying }
    | _ => none
  | .mainNotifies =>
    match s.main with
    | .past waited .notifying =>
      some { s with main := .past waited .joining, watchdog := wake s.watchdog }
    | _ => none
  | .mainReturns stderr =>
    match s.main, s.watchdog with
    | .past waited .joining, .ended =>
      some { s with
        main := .returned (verdict s.timedOut waited stderr)
        child := if s.timedOut then reapGroup s else s.child }
    | _, _ => none
  | .watchdogLocks =>
    if s.watchdog = .locking ∧ locked s = false then
      some { s with watchdog := .testing .timeout false }
    else none
  | .watchdogTests =>
    match s.watchdog with
    | .testing round late => some (test s round late)
    | _ => none
  | .watchdogTimesOut =>
    match s.watchdog with
    | .waiting round =>
      if deadline begin timeoutSec round ≤ s.clock then some { s with watchdog := .waking round }
      else none
    | _ => none
  | .watchdogWakes =>
    match s.watchdog with
    | .waiting round => some { s with watchdog := .waking round }
    | _ => none
  | .watchdogTakes =>
    match s.watchdog with
    | .waking round =>
      if locked s = false then
        some { s with
          watchdog := .testing round (decide (deadline begin timeoutSec round ≤ s.clock)) }
      else none
    | _ => none
  | .watchdogTerminates =>
    if s.watchdog = .terminating then
      some { killpg s .term with watchdog := .testing (.grace (s.clock + 5 * second)) false }
    else none
  | .watchdogKills =>
    if s.watchdog = .killing then some { killpg s .kill with watchdog := .ended } else none

def start : State := ⟨begin, false, false, .waiting, .locking, .running, false, 0, []⟩

end code

variable {begin timeoutSec : Int} {s t : State} {a : Action}

inductive Move (begin timeoutSec : Int) (s : State) : Action → State → Prop
  | tick (passed : Nat) : Move begin timeoutSec s (.tick passed) { s with clock := s.clock + passed }
  | childGroups (runs : s.child = .running) :
    Move begin timeoutSec s .childGroups { s with grouped := true }
  | groupForks (own : s.grouped = true) (lives : s.child = .running ∨ 0 < s.members) :
    Move begin timeoutSec s .groupForks { s with members := s.members + 1 }
  | memberEnds (lives : 0 < s.members) :
    Move begin timeoutSec s .memberEnds { s with members := s.members - 1 }
  | childEnds (runs : s.child = .running) (status : Status) :
    Move begin timeoutSec s (.childEnds status) { s with child := .zombie status }
  | mainReaps {status : Status} (at_ : s.main = .waiting) (ended : s.child = .zombie status) :
    Move begin timeoutSec s .mainReaps
      { s with main := .past (.came status) .locking, child := .reaped status }
  | mainFails (at_ : s.main = .waiting) (strerror : String) :
    Move begin timeoutSec s (.mainFails strerror)
      { s with main := .past (.failed strerror) .locking }
  | mainLocks {waited : Waited} (at_ : s.main = .past waited .locking)
      (unlocked : locked s = false) :
    Move begin timeoutSec s .mainLocks { s with main := .past waited .setting }
  | mainSets {waited : Waited} (at_ : s.main = .past waited .setting) :
    Move begin timeoutSec s .mainSets
      { s with childDone := true, main := .past waited .notifying }
  | mainNotifies {waited : Waited} (at_ : s.main = .past waited .notifying) :
    Move begin timeoutSec s .mainNotifies
      { s with main := .past waited .joining, watchdog := wake s.watchdog }
  | mainReturns {waited : Waited} (at_ : s.main = .past waited .joining)
      (ended : s.watchdog = .ended) (stderr : List Char) :
    Move begin timeoutSec s (.mainReturns stderr) { s with
      main := .returned (verdict s.timedOut waited stderr)
      child := if s.timedOut then reapGroup s else s.child }
  | watchdogLocks (at_ : s.watchdog = .locking) (unlocked : locked s = false) :
    Move begin timeoutSec s .watchdogLocks { s with watchdog := .testing .timeout false }
  | watchdogLeaves {round : Round} {late : Bool} (at_ : s.watchdog = .testing round late)
      (done : s.childDone = true) :
    Move begin timeoutSec s .watchdogTests { s with watchdog := .ended }
  | watchdogExpires (at_ : s.watchdog = .testing .timeout true) (undone : s.childDone = false) :
    Move begin timeoutSec s .watchdogTests { s with timedOut := true, watchdog := .terminating }
  | watchdogDespairs {killDeadline : Int} (at_ : s.watchdog = .testing (.grace killDeadline) true)
      (undone : s.childDone = false) :
    Move begin timeoutSec s .watchdogTests { s with watchdog := .killing }
  | watchdogWaits {round : Round} (at_ : s.watchdog = .testing round false)
      (undone : s.childDone = false) :
    Move begin timeoutSec s .watchdogTests { s with watchdog := .waiting round }
  | watchdogTimesOut {round : Round} (at_ : s.watchdog = .waiting round)
      (late : deadline begin timeoutSec round ≤ s.clock) :
    Move begin timeoutSec s .watchdogTimesOut { s with watchdog := .waking round }
  | watchdogWakes {round : Round} (at_ : s.watchdog = .waiting round) :
    Move begin timeoutSec s .watchdogWakes { s with watchdog := .waking round }
  | watchdogTakes {round : Round} (at_ : s.watchdog = .waking round) (unlocked : locked s = false) :
    Move begin timeoutSec s .watchdogTakes { s with
      watchdog := .testing round (decide (deadline begin timeoutSec round ≤ s.clock)) }
  | watchdogTerminates (at_ : s.watchdog = .terminating) :
    Move begin timeoutSec s .watchdogTerminates
      { killpg s .term with watchdog := .testing (.grace (s.clock + 5 * second)) false }
  | watchdogKills (at_ : s.watchdog = .killing) :
    Move begin timeoutSec s .watchdogKills { killpg s .kill with watchdog := .ended }

theorem move_of_test {round : Round} {late : Bool} (at_ : s.watchdog = .testing round late) :
    Move begin timeoutSec s .watchdogTests (test s round late) := by
  unfold test
  split_ifs with done late
  · exact .watchdogLeaves at_ done
  · rw [late] at at_
    cases round with
    | timeout => exact .watchdogExpires at_ (Bool.eq_false_iff.mpr done)
    | grace => exact .watchdogDespairs at_ (Bool.eq_false_iff.mpr done)
  · rw [Bool.eq_false_iff.mpr late] at at_
    exact .watchdogWaits at_ (Bool.eq_false_iff.mpr done)

theorem move_of_step (next : step begin timeoutSec s a = some t) : Move begin timeoutSec s a t := by
  cases a with
  | tick =>
    rw [← Option.some.inj next]
    exact .tick _
  | childGroups | memberEnds | childEnds | mainFails | watchdogTerminates | watchdogKills =>
    simp only [step, Option.ite_none_right_eq_some, Option.some.injEq] at next
    obtain ⟨at_, rfl⟩ := next
    constructor
    exact at_
  | groupForks | watchdogLocks =>
    simp only [step, Option.ite_none_right_eq_some, Option.some.injEq] at next
    obtain ⟨⟨at_, free⟩, rfl⟩ := next
    constructor
    · exact at_
    · exact free
  | mainReaps | mainReturns =>
    simp only [step] at next
    split at next
    · rename_i at_ ended
      rw [← Option.some.inj next]
      constructor
      · exact at_
      · exact ended
    · exact absurd next.symm (Option.some_ne_none t)
  | mainSets | mainNotifies | watchdogWakes =>
    simp only [step] at next
    split at next
    · rename_i at_
      rw [← Option.some.inj next]
      constructor
      exact at_
    · exact absurd next.symm (Option.some_ne_none t)
  | watchdogTests =>
    simp only [step] at next
    split at next
    · rename_i at_
      rw [← Option.some.inj next]
      exact move_of_test at_
    · exact absurd next.symm (Option.some_ne_none t)
  | mainLocks | watchdogTimesOut | watchdogTakes =>
    simp only [step] at next
    split at next
    · rename_i at_
      simp only [Option.ite_none_right_eq_some, Option.some.injEq] at next
      obtain ⟨free, rfl⟩ := next
      constructor
      · exact at_
      · exact free
    · exact absurd next.symm (Option.some_ne_none t)

section invariant

/-- What is known of the signals during each of the two waits. -/
def Round.Sound (begin timeoutSec : Int) (s : State) : Round → Prop
  | .timeout => s.timedOut = false ∧ s.sent = []
  | .grace killDeadline => s.timedOut = true ∧ ∃ first, s.sent = [first] ∧ first.signal = .term ∧
      deadline begin timeoutSec .timeout ≤ first.time ∧ first.time + 5 * second ≤ killDeadline

/-- SIGTERM not before the deadline, and SIGKILL at least five seconds after it. -/
inductive Schedule (begin timeoutSec : Int) : List Sent → Prop
  | term {first : Sent} (signal : first.signal = .term)
      (late : deadline begin timeoutSec .timeout ≤ first.time) : Schedule begin timeoutSec [first]
  | kill {first last : Sent} (signal : first.signal = .term)
      (late : deadline begin timeoutSec .timeout ≤ first.time) (next : last.signal = .kill)
      (later : first.time + 5 * second ≤ last.time) : Schedule begin timeoutSec [first, last]

def WatchdogAt.Sound (begin timeoutSec : Int) (s : State) : WatchdogAt → Prop
  | .locking => Round.timeout.Sound begin timeoutSec s
  | .waiting round | .waking round => round.Sound begin timeoutSec s
  | .testing round late => round.Sound begin timeoutSec s ∧
      (late = true → deadline begin timeoutSec round ≤ s.clock)
  | .terminating => s.timedOut = true ∧ s.sent = [] ∧
      deadline begin timeoutSec .timeout ≤ s.clock
  | .killing => Round.Sound begin timeoutSec s (.grace s.clock)
  | .ended => s.timedOut = false ∧ s.sent = [] ∨ s.timedOut = true ∧ Schedule begin timeoutSec s.sent

/-- Only a `waitpid` that came back with a status has reaped the child. -/
def Waited.Sound (child : ChildAt) : Waited → Prop
  | .came status => child = .reaped status
  | .failed _ => ∀ status, child ≠ .reaped status

def MainAt.Sound (s : State) : MainAt → Prop
  | .waiting => s.childDone = false ∧ ∀ status, s.child ≠ .reaped status
  | .past waited place => waited.Sound s.child ∧
      (s.childDone = true ↔ place = .notifying ∨ place = .joining)
  | .returned ending => s.watchdog = .ended ∧ ∃ waited stderr,
      ending = verdict s.timedOut waited stderr ∧ (s.timedOut = false → waited.Sound s.child)

def MainAt.told : MainAt → Bool
  | .past _ .joining | .returned _ => true
  | _ => false

def Emptied (s : State) : Prop := s.members = 0 ∧ s.child ≠ .running

structure Inv (begin timeoutSec : Int) (s : State) : Prop where
  watchdog : s.watchdog.Sound begin timeoutSec s
  main : s.main.Sound s
  exclusive : s.main.inside = true → s.watchdog.inside = false
  /-- No wake-up is lost. -/
  awake : s.main.told = true → ∀ round, s.watchdog ≠ .waiting round
  emptied : ∀ call ∈ s.sent, call.signal = .kill → call.hit = true → Emptied s

theorem inv_start : Inv begin timeoutSec (start begin) where
  watchdog := ⟨rfl, rfl⟩
  main := ⟨rfl, by simp [start]⟩
  exclusive := by simp [start, MainAt.inside]
  awake := by simp [start, MainAt.told]
  emptied := by simp [start]

theorem Round.Sound.frame (round : Round) (sound : round.Sound begin timeoutSec s)
    (timedOut : t.timedOut = s.timedOut) (sent : t.sent = s.sent) :
    round.Sound begin timeoutSec t := by
  cases round with
  | timeout => exact ⟨timedOut.trans sound.1, sent.trans sound.2⟩
  | grace =>
    obtain ⟨out, first, only, rest⟩ := sound
    exact ⟨timedOut.trans out, first, sent.trans only, rest⟩

theorem Round.Sound.later {d e : Int} (sound : Round.Sound begin timeoutSec s (.grace d))
    (le : d ≤ e) : Round.Sound begin timeoutSec s (.grace e) := by
  obtain ⟨out, first, only, signal, late, wait⟩ := sound
  exact ⟨out, first, only, signal, late, wait.trans le⟩

theorem WatchdogAt.Sound.frame {place : WatchdogAt} (sound : place.Sound begin timeoutSec s)
    (timedOut : t.timedOut = s.timedOut) (sent : t.sent = s.sent) (clock : s.clock ≤ t.clock) :
    place.Sound begin timeoutSec t := by
  cases place with
  | locking => exact ⟨timedOut.trans sound.1, sent.trans sound.2⟩
  | waiting round | waking round => exact Round.Sound.frame round sound timedOut sent
  | testing round =>
    exact ⟨Round.Sound.frame round sound.1 timedOut sent, fun late => (sound.2 late).trans clock⟩
  | terminating => exact ⟨timedOut.trans sound.1, sent.trans sound.2.1, sound.2.2.trans clock⟩
  | killing => exact (Round.Sound.frame (.grace s.clock) sound timedOut sent).later clock
  | ended =>
    refine sound.imp ?_ ?_
    · exact fun quiet => ⟨timedOut.trans quiet.1, sent.trans quiet.2⟩
    · exact fun loud => ⟨timedOut.trans loud.1, sent ▸ loud.2⟩

theorem watchdog_sound_wake (sound : s.watchdog.Sound begin timeoutSec s) :
    (wake s.watchdog).Sound begin timeoutSec s := by
  cases at_ : s.watchdog <;> rw [at_] at sound <;> exact sound

theorem Round.Sound.ended {round : Round} (sound : round.Sound begin timeoutSec s) :
    WatchdogAt.Sound begin timeoutSec s .ended := by
  cases round with
  | timeout => exact .inl sound
  | grace =>
    obtain ⟨out, first, only, signal, late, _⟩ := sound
    exact .inr ⟨out, only ▸ .term signal late⟩

theorem sent_killpg (s : State) (signal : Signal) :
    (killpg s signal).sent = s.sent ++ [⟨signal, s.clock, hit s⟩] := by
  cases signal with
  | term => rfl
  | kill =>
    unfold killpg
    dsimp only
    split_ifs <;> rfl

theorem killpg_frame (s : State) (signal : Signal) :
    (killpg s signal).timedOut = s.timedOut ∧ (killpg s signal).clock = s.clock ∧
      (killpg s signal).childDone = s.childDone ∧ (killpg s signal).main = s.main := by
  cases signal with
  | term => exact ⟨rfl, rfl, rfl, rfl⟩
  | kill =>
    unfold killpg
    dsimp only
    split_ifs <;> exact ⟨rfl, rfl, rfl, rfl⟩

theorem watchdog_step (inv : Inv begin timeoutSec s) (move : Move begin timeoutSec s a t) :
    t.watchdog.Sound begin timeoutSec t := by
  have sound := inv.watchdog
  cases move with
  | tick => exact sound.frame rfl rfl (by simp)
  | childGroups | groupForks | memberEnds | childEnds | mainReaps | mainFails | mainLocks
  | mainSets | mainReturns =>
    exact sound.frame rfl rfl le_rfl
  | mainNotifies => exact (watchdog_sound_wake sound).frame rfl rfl le_rfl
  | watchdogLocks at_ =>
    rw [at_] at sound
    exact ⟨sound, nofun⟩
  | watchdogLeaves at_ =>
    rw [at_] at sound
    exact sound.1.ended
  | watchdogExpires at_ =>
    rw [at_] at sound
    exact ⟨rfl, sound.1.2, sound.2 rfl⟩
  | watchdogDespairs at_ =>
    rw [at_] at sound
    exact sound.1.later (sound.2 rfl)
  | watchdogWaits at_ =>
    rw [at_] at sound
    exact sound.1
  | watchdogTimesOut at_ | watchdogWakes at_ =>
    rw [at_] at sound
    exact sound
  | watchdogTakes at_ =>
    rw [at_] at sound
    exact ⟨sound, of_decide_eq_true⟩
  | watchdogTerminates at_ =>
    rw [at_] at sound
    obtain ⟨out, none, late⟩ := sound
    refine ⟨⟨out, ⟨.term, s.clock, hit s⟩, ?_, rfl, late, le_rfl⟩, nofun⟩
    rw [sent_killpg, none]
    rfl
  | watchdogKills at_ =>
    rw [at_] at sound
    obtain ⟨out, first, only, signal, late, wait⟩ := sound
    refine .inr ⟨(killpg_frame s .kill).1.trans out, ?_⟩
    dsimp only
    rw [sent_killpg, only]
    exact .kill signal late rfl wait

theorem MainAt.Sound.frame {place : MainAt} (sound : place.Sound s)
    (done : t.childDone = s.childDone)
    (reaped : ∀ status, t.child = .reaped status ↔ s.child = .reaped status)
    (after : s.watchdog = .ended → t.watchdog = .ended ∧ t.timedOut = s.timedOut) :
    place.Sound t := by
  have waits {waited : Waited} (sound : waited.Sound s.child) : waited.Sound t.child := by
    cases waited with
    | came status => exact (reaped status).mpr sound
    | failed => exact fun status => mt (reaped status).mp (sound status)
  cases place with
  | waiting => exact ⟨done.trans sound.1, fun status => mt (reaped status).mp (sound.2 status)⟩
  | past => exact ⟨waits sound.1, by rw [done]; exact sound.2⟩
  | returned =>
    obtain ⟨ended, waited, stderr, verdict, known⟩ := sound
    obtain ⟨still, timedOut⟩ := after ended
    exact ⟨still, waited, stderr, timedOut ▸ verdict, fun quiet => waits (known (timedOut ▸ quiet))⟩

theorem reaped_killpg (s : State) (signal : Signal) (status : Status) :
    (killpg s signal).child = .reaped status ↔ s.child = .reaped status := by
  cases signal with
  | term => rfl
  | kill =>
    unfold killpg
    dsimp only
    split_ifs
    · cases s.child <;> simp
    · rfl

theorem main_step (inv : Inv begin timeoutSec s) (move : Move begin timeoutSec s a t) :
    t.main.Sound t := by
  have sound := inv.main
  have kept {place : WatchdogAt} (at_ : s.watchdog = place) (going : place ≠ .ended)
      {goal : Prop} (ended : s.watchdog = .ended) : goal :=
    absurd (at_.symm.trans ended) going
  cases move with
  | tick | childGroups | groupForks | memberEnds =>
    exact sound.frame rfl (fun _ => .rfl) fun ended => ⟨ended, rfl⟩
  | childEnds runs status =>
    exact sound.frame rfl (by simp [runs]) fun ended => ⟨ended, rfl⟩
  | mainReaps at_ =>
    rw [at_] at sound
    exact ⟨rfl, by simp [sound.1]⟩
  | mainFails at_ =>
    rw [at_] at sound
    exact ⟨sound.2, by simp [sound.1]⟩
  | mainLocks at_ =>
    rw [at_] at sound
    exact ⟨sound.1, by simpa using sound.2⟩
  | mainSets at_ =>
    rw [at_] at sound
    exact ⟨sound.1, by simp⟩
  | mainNotifies at_ =>
    rw [at_] at sound
    exact ⟨sound.1, by simpa using sound.2⟩
  | mainReturns at_ ended stderr =>
    rw [at_] at sound
    refine ⟨ended, _, stderr, rfl, fun quiet => ?_⟩
    have none : s.timedOut = false := quiet
    simp only [none]
    exact sound.1
  | watchdogLocks at_ | watchdogLeaves at_ | watchdogExpires at_ | watchdogDespairs at_
  | watchdogWaits at_ | watchdogTimesOut at_ | watchdogWakes at_ | watchdogTakes at_ =>
    exact sound.frame rfl (fun _ => .rfl) (kept at_ nofun)
  | watchdogTerminates at_ => exact sound.frame rfl (fun _ => .rfl) (kept at_ nofun)
  | watchdogKills at_ =>
    have same := killpg_frame s .kill
    have still : s.main.Sound { killpg s .kill with watchdog := .ended } :=
      sound.frame same.2.2.1 (reaped_killpg s .kill) (kept at_ nofun)
    exact same.2.2.2 ▸ still

theorem outside_of_unlocked (unlocked : locked s = false) :
    s.main.inside = false ∧ s.watchdog.inside = false :=
  Bool.or_eq_false_iff.mp unlocked

theorem exclusive_step (inv : Inv begin timeoutSec s) (move : Move begin timeoutSec s a t) :
    t.main.inside = true → t.watchdog.inside = false := by
  -- The watchdog was already inside, so the task's thread was not.
  have stays (before : s.watchdog.inside = true) {place : WatchdogAt}
      (enters : s.main.inside = true) : place.inside = false := by
    rw [inv.exclusive enters] at before
    cases before
  cases move with
  | tick | childGroups | groupForks | memberEnds | childEnds => exact inv.exclusive
  | mainReaps | mainFails | mainSets | mainNotifies | mainReturns => exact nofun
  | mainLocks _ unlocked => exact fun _ => (outside_of_unlocked unlocked).2
  | watchdogLocks _ unlocked | watchdogTakes _ unlocked =>
    intro enters
    rw [(outside_of_unlocked unlocked).1] at enters
    cases enters
  | watchdogLeaves | watchdogWaits | watchdogTimesOut | watchdogWakes | watchdogKills =>
    exact fun _ => rfl
  | watchdogExpires at_ | watchdogDespairs at_ | watchdogTerminates at_ =>
    exact stays (by rw [at_]; rfl)

theorem wake_ne_waiting (place : WatchdogAt) (round : Round) : wake place ≠ .waiting round := by
  cases place <;> simp [wake]

theorem done_of_told (sound : s.main.Sound s) (told : s.main.told = true) :
    s.childDone = true ∨ s.watchdog = .ended := by
  generalize at_ : s.main = place at sound told
  cases place with
  | waiting => cases told
  | past waited place =>
    cases place with
    | joining => exact .inl (sound.2.mpr (.inr rfl))
    | _ => cases told
  | returned => exact .inr sound.1

theorem awake_step (inv : Inv begin timeoutSec s) (move : Move begin timeoutSec s a t) :
    t.main.told = true → ∀ round, t.watchdog ≠ .waiting round := by
  cases move with
  | tick | childGroups | groupForks | memberEnds | childEnds => exact inv.awake
  | mainReaps | mainFails | mainLocks | mainSets => exact nofun
  | mainNotifies => exact fun _ => wake_ne_waiting _
  | mainReturns _ ended =>
    intro _ round waits
    cases ended.symm.trans waits
  | watchdogWaits at_ undone =>
    intro told
    rcases done_of_told inv.main told with done | ended
    · rw [undone] at done
      cases done
    · cases at_.symm.trans ended
  | watchdogLocks | watchdogLeaves | watchdogExpires | watchdogDespairs | watchdogTimesOut
  | watchdogWakes | watchdogTakes | watchdogTerminates | watchdogKills =>
    exact fun _ _ => WatchdogAt.noConfusion

theorem emptied_killpg (empty : s.grouped = true ∨ Emptied s) : Emptied (killpg s .kill) := by
  unfold killpg
  dsimp only
  split_ifs with own
  · refine ⟨rfl, ?_⟩
    cases s.child <;> simp
  · exact empty.resolve_left own

theorem grouped_of_hit (found : hit s = true) : s.grouped = true :=
  (Bool.and_eq_true_iff.mp found).1

theorem Emptied.reapGroup (empty : Emptied s) : reapGroup s ≠ .running := by
  have ended := empty.2
  unfold ChildWatch.reapGroup
  split
  · split_ifs <;> simp
  · exact ended

theorem emptied_step (inv : Inv begin timeoutSec s) (move : Move begin timeoutSec s a t) :
    ∀ call ∈ t.sent, call.signal = .kill → call.hit = true → Emptied t := by
  intro call sent kills found
  have before (old : call ∈ s.sent) : Emptied s := inv.emptied call old kills found
  cases move with
  | tick | childGroups | mainFails | mainLocks | mainSets | mainNotifies | watchdogLocks
  | watchdogLeaves | watchdogExpires | watchdogDespairs | watchdogWaits | watchdogTimesOut
  | watchdogWakes | watchdogTakes =>
    exact before sent
  | groupForks _ lives =>
    obtain ⟨none, ended⟩ := before sent
    rcases lives with runs | some
    · exact absurd runs ended
    · exact absurd none some.ne'
  | memberEnds lives => exact absurd (before sent).1 lives.ne'
  | childEnds | mainReaps => exact ⟨(before sent).1, ChildAt.noConfusion⟩
  | mainReturns =>
    refine ⟨(before sent).1, ?_⟩
    dsimp only
    split_ifs
    · exact (before sent).reapGroup
    · exact (before sent).2
  | watchdogTerminates =>
    rw [sent_killpg] at sent
    rcases List.mem_append.mp sent with old | new
    · exact before old
    · rw [List.mem_singleton.mp new] at kills
      cases kills
  | watchdogKills =>
    have all : call ∈ s.sent ++ [⟨.kill, s.clock, hit s⟩] := sent_killpg s .kill ▸ sent
    rcases List.mem_append.mp all with old | new
    · exact emptied_killpg (.inr (before old))
    · rw [List.mem_singleton.mp new] at found
      exact emptied_killpg (.inl (grouped_of_hit found))

theorem Inv.step (inv : Inv begin timeoutSec s) (next : step begin timeoutSec s a = some t) :
    Inv begin timeoutSec t :=
  have move := move_of_step next
  ⟨watchdog_step inv move, main_step inv move, exclusive_step inv move, awake_step inv move,
    emptied_step inv move⟩

theorem inv_of_reaches (run : Reaches (step begin timeoutSec) free (start begin) s) :
    Inv begin timeoutSec s :=
  run.invariant (Inv begin timeoutSec) (fun _ _ _ inv _ next => inv.step next) inv_start

end invariant

def started : List Action := [.childGroups, .groupForks, .watchdogLocks, .watchdogTests]

def expired : List Action := [.tick 1000000000, .watchdogTimesOut, .watchdogTakes, .watchdogTests,
  .watchdogTerminates, .watchdogTests]

def killed : List Action := [.tick 5000000000, .watchdogTimesOut, .watchdogTakes, .watchdogTests,
  .watchdogKills]

def leaves : List Action := [.mainReaps, .mainLocks, .mainSets, .mainNotifies, .mainReturns []]

def told : List Action := [.mainReaps, .mainLocks, .mainSets, .mainNotifies, .watchdogTakes,
  .watchdogTests, .mainReturns []]

section signals

theorem schedule_of_sound {place : WatchdogAt} (sound : place.Sound begin timeoutSec s) :
    s.sent = [] ∨ Schedule begin timeoutSec s.sent := by
  have during {round : Round} (sound : round.Sound begin timeoutSec s) :
      s.sent = [] ∨ Schedule begin timeoutSec s.sent :=
    sound.ended.imp And.right And.right
  cases place with
  | locking => exact .inl sound.2
  | waiting | waking => exact during sound
  | testing => exact during sound.1
  | terminating => exact .inl sound.2.1
  | killing =>
    have grace : Round.Sound begin timeoutSec s (.grace s.clock) := sound
    exact during grace
  | ended => exact sound.imp And.right And.right

theorem Schedule.ne_nil {sent : List Sent} (schedule : Schedule begin timeoutSec sent) :
    sent ≠ [] := by
  cases schedule <;> exact List.cons_ne_nil _ _

theorem verdict_eq_timedOut_iff {timedOut : Bool} {waited : Waited} {stderr : List Char} :
    verdict timedOut waited stderr = .timedOut ↔ timedOut = true := by
  unfold verdict
  split_ifs with out
  · exact iff_of_true rfl out
  · refine iff_of_false ?_ out
    rcases waited with ⟨code⟩ | _
    · cases code <;> exact ChildEnd.noConfusion
    · exact ChildEnd.noConfusion

theorem Inv.returned {ending : ChildEnd} (inv : Inv begin timeoutSec s)
    (back : s.main = .returned ending) :
    (s.timedOut = true ∧ s.sent ≠ [] ∧ ending = .timedOut) ∨
      s.timedOut = false ∧ s.sent = [] ∧
        ∃ waited stderr, waited.Sound s.child ∧ ending = verdict false waited stderr := by
  have main := inv.main
  rw [back] at main
  obtain ⟨ended, waited, stderr, same, known⟩ := main
  have watchdog := inv.watchdog
  rw [ended] at watchdog
  rcases watchdog with ⟨quiet, none⟩ | ⟨loud, schedule⟩
  · exact .inr ⟨quiet, none, waited, stderr, known quiet, quiet ▸ same⟩
  · exact .inl ⟨loud, schedule.ne_nil, same.trans (verdict_eq_timedOut_iff.mpr loud)⟩

/-- In any interleaving the group gets no signal before the deadline, SIGTERM once, and SIGKILL
only five seconds later; a call that comes back says that the time was up exactly if it has
sent a signal. -/
theorem signals_on_schedule (run : Reaches (step begin timeoutSec) free (start begin) s) :
    (s.sent = [] ∨ Schedule begin timeoutSec s.sent) ∧
      ∀ ending, s.main = .returned ending → (ending = .timedOut ↔ s.sent ≠ []) := by
  have inv := inv_of_reaches run
  refine ⟨schedule_of_sound inv.watchdog, fun ending back => ?_⟩
  rcases inv.returned back with ⟨_, loud, same⟩ | ⟨_, quiet, waited, stderr, _, same⟩
  · exact iff_of_true same loud
  · refine iff_of_false (fun out => ?_) (not_not.mpr quiet)
    exact Bool.false_ne_true (verdict_eq_timedOut_iff.mp (same.symm.trans out))

theorem signals_on_schedule_killed :
    ∃ s, execute (step 0 1) free (start 0) (started ++ expired ++ killed ++ leaves) = some s ∧
      s.sent = [⟨.term, 1000000000, true⟩, ⟨.kill, 6000000000, true⟩] ∧
      s.main = .returned .timedOut ∧ Schedule 0 1 s.sent := by
  have run : execute (step 0 1) free (start 0) (started ++ expired ++ killed ++ leaves) = some _ :=
    rfl
  refine ⟨_, run, rfl, rfl, ?_⟩
  exact (signals_on_schedule (reaches_of_execute _ run)).1.resolve_left (List.cons_ne_nil _ _)

/-- The child is done with when its own status says so and nobody has interfered. -/
theorem succeeds_iff_exited_unsignalled {ending : ChildEnd}
    (run : Reaches (step begin timeoutSec) free (start begin) s)
    (back : s.main = .returned ending) (program task : String) (cut : List Char → List Char) :
    childResult program task cut timeoutSec ending = .ok () ↔
      s.sent = [] ∧ s.child = .reaped (.exited 0) := by
  rcases (inv_of_reaches run).returned back with ⟨_, loud, rfl⟩ | ⟨_, quiet, waited, stderr, known, rfl⟩
  · exact iff_of_false (by simp [childResult]) fun both => loud both.1
  · cases waited with
    | failed strerror =>
      exact iff_of_false (by simp [childResult, verdict]) fun both => known _ both.2
    | came status =>
      have reaped : s.child = .reaped status := known
      rw [reaped]
      cases status with
      | exited code => simp [childResult, verdict, quiet]
      | signaled signal => simp [childResult, verdict]

theorem succeeds_iff_exited_unsignalled_zero :
    ∃ s, execute (step 0 1) free (start 0) (started ++ .childEnds (.exited 0) :: told) = some s ∧
      s.main = .returned (.exited 0 []) ∧
      childResult "script" "script" scriptLastLine 1 (.exited 0 []) = .ok () := by
  have run : execute (step 0 1) free (start 0) (started ++ .childEnds (.exited 0) :: told) =
      some _ := rfl
  refine ⟨_, run, rfl, ?_⟩
  exact (succeeds_iff_exited_unsignalled (reaches_of_execute _ run) rfl _ _ _).mpr ⟨rfl, rfl⟩

end signals

section progress

/-- Steps that the code of the two threads takes without being woken for nothing. -/
def Action.own : Action → Bool
  | .mainReaps | .mainFails _ | .mainLocks | .mainSets | .mainNotifies | .mainReturns _
  | .watchdogLocks | .watchdogTests | .watchdogTimesOut | .watchdogTakes | .watchdogTerminates
  | .watchdogKills => true
  | .tick _ | .childGroups | .groupForks | .memberEnds | .childEnds _ | .watchdogWakes => false

/-- No wake-up that nobody sent. -/
def Prompted (_ : State) (a : Action) : Prop := a ≠ .watchdogWakes

instance decidablePrompted (s : State) (a : Action) : Decidable (Prompted s a) :=
  inferInstanceAs (Decidable (a ≠ .watchdogWakes))

def mainWork : MainAt → Nat
  | .waiting => 5
  | .past _ .locking => 4
  | .past _ .setting => 3
  | .past _ .notifying => 2
  | .past _ .joining => 1
  | .returned _ => 0

def Round.base : Round → Nat
  | .timeout => 6
  | .grace _ => 0

def watchdogWork (begin timeoutSec clock : Int) : WatchdogAt → Nat
  | .locking => 12
  | .testing round late => round.base + if late then 2 else 5
  | .waiting round => round.base + 4
  | .waking round => round.base + if deadline begin timeoutSec round ≤ clock then 3 else 6
  | .terminating => 7
  | .killing => 1
  | .ended => 0

def work (begin timeoutSec : Int) (s : State) : Nat :=
  3 * mainWork s.main + watchdogWork begin timeoutSec s.clock s.watchdog

/-- The task's thread can leave `waitpid`, or has left it. -/
def Waitable (s : State) : Prop := s.main ≠ .waiting ∨ s.child ≠ .running

theorem ended_killpg (ended : s.child ≠ .running) : (killpg s .kill).child ≠ .running := by
  unfold killpg
  dsimp only
  split_ifs
  · cases s.child <;> simp
  · exact ended

theorem Waitable.step (waitable : Waitable s) (next : step begin timeoutSec s a = some t) :
    Waitable t := by
  cases move_of_step next with
  | childEnds => exact .inr ChildAt.noConfusion
  | mainReaps | mainFails | mainLocks | mainSets | mainNotifies | mainReturns =>
    exact .inl MainAt.noConfusion
  | watchdogKills =>
    refine waitable.imp (fun past waits => past ?_) ended_killpg
    exact (killpg_frame s .kill).2.2.2.symm.trans waits
  | _ => exact waitable

end progress

section misses

theorem finishes {waited : Waited} {round : Round} (at_ : s.main = .past waited .locking)
    (waits : s.watchdog = .waiting round) (stderr : List Char) :
    Reaches (step begin timeoutSec) free s { s with
      childDone := true, watchdog := .ended
      main := .returned (verdict s.timedOut waited stderr)
      child := if s.timedOut then reapGroup s else s.child } := by
  refine reaches_of_execute
    [.mainLocks, .mainSets, .mainNotifies, .watchdogTakes, .watchdogTests, .mainReturns stderr] ?_
  simp [execute, free, step, at_, waits, locked, MainAt.inside, WatchdogAt.inside, wake, test,
    reapGroup]

/-- A child that obeys SIGTERM saves the rest of its group from SIGKILL. -/
theorem members_outlive_timeout {killDeadline : Int}
    (run : Reaches (step begin timeoutSec) free (start begin) s) (at_ : s.main = .waiting)
    (waits : s.watchdog = .waiting (.grace killDeadline)) (runs : s.child = .running) :
    ∃ t, Reaches (step begin timeoutSec) free s t ∧ t.main = .returned .timedOut ∧
      t.members = s.members ∧ ∀ call ∈ t.sent, call.signal = .term := by
  have sound := (inv_of_reaches run).watchdog
  rw [waits] at sound
  obtain ⟨out, first, only, signal, _⟩ := sound
  let reaped : State := { s with
    main := .past (.came (.signaled 15)) .locking, child := .reaped (.signaled 15) }
  have ends : Reaches (step begin timeoutSec) free s reaped := by
    refine reaches_of_execute [.childEnds (.signaled 15), .mainReaps] ?_
    simp [execute, free, step, at_, runs, reaped]
  have back : reaped.main = .past (.came (.signaled 15)) .locking := rfl
  have rests : reaped.watchdog = .waiting (.grace killDeadline) := waits
  refine ⟨_, ends.trans (finishes back rests []), ?_, rfl, ?_⟩
  · simp [reaped, verdict, out]
  · simp [reaped, only, signal]

theorem members_outlive_timeout_one :
    ∃ s t, execute (step 0 1) free (start 0) (started ++ expired) = some s ∧
      Reaches (step 0 1) free s t ∧ t.main = .returned .timedOut ∧ t.members = 1 := by
  have run : execute (step 0 1) free (start 0) (started ++ expired) = some _ := rfl
  obtain ⟨t, more, back, left, _⟩ :=
    members_outlive_timeout (reaches_of_execute _ run) rfl rfl rfl
  exact ⟨_, t, run, more, back, left⟩

end misses

end DropPlatform.ChildWatch
