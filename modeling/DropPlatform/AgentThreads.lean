import DropPlatform.Mutexes
import DropPlatform.TaskDispatch

/-! The threads of drop_agent and the signal handler that may interrupt any of them. All of
them share `g_worker`: a queue and a flag under one mutex, and the condition variable on which
`WorkerThread` sleeps. What a thread does while it holds the mutex is one step; taking it, and
notifying after it is free again, are steps of their own. Whether the `LOG(INFO)` with which a
handler begins ever returns is a parameter, since glog takes locks of its own. The copies
pushed, popped and reported are recorded, which no thread looks at. -/

namespace DropPlatform.AgentThreads
open TransitionRuns TaskDispatch KeyedStores Mutexes

/-- The main thread and the runners of continuous tasks never take the mutex themselves. -/
inductive Thread
  | heartbeat
  | worker
  | other (n : Nat)
deriving DecidableEq, Repr

def mainThread : Thread := .other 0

inductive HeartbeatAt
  /-- Before the flag is read. -/
  | top
  | calling
  /-- A task has come, and the mutex is not yet taken. -/
  | offering (c : Copy)
  | checking (c : Copy)
  | notifying
  | sleeping
  | ended
deriving DecidableEq, Repr

inductive WorkerAt
  | locking
  | checking
  /-- Blocked in `cv.wait`, without the mutex. -/
  | waiting
  | working (c : Copy)
  | ended
deriving DecidableEq, Repr

inductive HandlerAt
  | logging
  | locking
  | setting
  | notifying
deriving DecidableEq, Repr

structure State where
  queue : List Copy
  shutdown : Bool
  holder : Option Thread
  heartbeat : HeartbeatAt
  worker : WorkerAt
  /-- The calls of `SignalHandler` on each thread, the innermost first. -/
  handlers : Thread → List HandlerAt
  executions : List Execution
  exited : Bool
  accepted : List Copy
  taken : List Copy
  reported : List Copy

inductive Action
  | heartbeatTop
  | heartbeatReply (task : Option Copy)
  | heartbeatLock
  | heartbeatCheck
  | heartbeatNotify
  | heartbeatWake
  | workerLock
  | workerCheck
  /-- The wait of a condition variable may end without a notification. -/
  | workerWake
  | workerDetach
  | recordEnds (k : Nat) (outcome : Outcome)
  | reportEnds (k : Nat)
  | signal (t : Thread)
  | handlerLog (t : Thread)
  | handlerLock (t : Thread)
  | handlerSet (t : Thread)
  | handlerNotify (t : Thread)
  | mainReturns

def continuous (c : Copy) : Prop := c.desc.taskType = 1

instance decidableContinuous (c : Copy) : Decidable (continuous c) :=
  inferInstanceAs (Decidable (c.desc.taskType = 1))

def performer (s : State) : Action → Option Thread
  | .heartbeatTop | .heartbeatReply _ | .heartbeatLock | .heartbeatCheck | .heartbeatNotify
  | .heartbeatWake => some .heartbeat
  | .workerLock | .workerCheck | .workerWake | .workerDetach => some .worker
  | .recordEnds k _ | .reportEnds k =>
    (s.executions[k]?).bind fun e => if continuous e.copy then none else some .worker
  | .mainReturns => some mainThread
  | .signal _ | .handlerLog _ | .handlerLock _ | .handlerSet _ | .handlerNotify _ => none

/-- `notify_one` and `notify_all`: only the worker ever waits. -/
def wake : WorkerAt → WorkerAt
  | .waiting => .locking
  | place => place

def heartbeatCheck (s : State) (c : Copy) : State :=
  if s.queue.any (·.tid = c.tid) then { s with holder := none, heartbeat := .sleeping }
  else { s with
    holder := none, heartbeat := .notifying
    queue := s.queue ++ [c], accepted := s.accepted ++ [c] }

theorem named_none (c : Copy) : ∀ result ∈ (none : Option TaskStore.TaskResult),
    result.taskId = c.tid :=
  fun _ absent => (Option.some_ne_none _ absent.symm).elim

def workerCheck (s : State) : State :=
  match s.queue with
  | [] => { s with holder := none, worker := if s.shutdown then .ended else .waiting }
  | c :: rest => { s with
      holder := none, worker := .working c, queue := rest
      executions := s.executions ++ [⟨c, none, named_none c⟩]
      taken := s.taken ++ [c] }

/-- A signal is delivered to a thread that has not ended. -/
def alive (s : State) : Thread → Prop
  | .heartbeat => s.heartbeat ≠ .ended
  | .worker => s.worker ≠ .ended
  | .other _ => True

instance decidableAlive (s : State) (t : Thread) : Decidable (alive s t) :=
  match t with
  | .heartbeat => inferInstanceAs (Decidable (s.heartbeat ≠ .ended))
  | .worker => inferInstanceAs (Decidable (s.worker ≠ .ended))
  | .other _ => .isTrue trivial

def handlerMoves (s : State) (t : Thread) (frames : List HandlerAt) : State :=
  { s with handlers := Function.update s.handlers t frames }

/-- `logs s t` says whether the `LOG(INFO)` of a handler on thread `t` returns. -/
def perform (logs : State → Thread → Bool) (s : State) : Action → Option State
  | .heartbeatTop =>
    if s.heartbeat = .top then some { s with heartbeat := if s.shutdown then .ended else .calling }
    else none
  | .heartbeatReply task =>
    if s.heartbeat = .calling then some { s with heartbeat := task.elim .sleeping .offering }
    else none
  | .heartbeatLock =>
    match s.heartbeat with
    | .offering c =>
      if s.holder = none then
        some { s with holder := some .heartbeat, heartbeat := .checking c }
      else none
    | _ => none
  | .heartbeatCheck =>
    match s.heartbeat with
    | .checking c => some (heartbeatCheck s c)
    | _ => none
  | .heartbeatNotify =>
    if s.heartbeat = .notifying then
      some { s with heartbeat := .sleeping, worker := wake s.worker }
    else none
  | .heartbeatWake => if s.heartbeat = .sleeping then some { s with heartbeat := .top } else none
  | .workerLock =>
    if s.worker = .locking ∧ s.holder = none then
      some { s with holder := some .worker, worker := .checking }
    else none
  | .workerCheck => if s.worker = .checking then some (workerCheck s) else none
  | .workerWake => if s.worker = .waiting then some { s with worker := .locking } else none
  | .workerDetach =>
    match s.worker with
    | .working c => if continuous c then some { s with worker := .locking } else none
    | _ => none
  | .recordEnds k outcome =>
    match s.executions[k]? with
    | some ⟨c, none, _⟩ => some { s with executions := s.executions.set k (.reporting c outcome) }
    | _ => none
  | .reportEnds k =>
    match s.executions[k]? with
    | some ⟨c, some _, _⟩ => some { s with
        executions := s.executions.eraseIdx k
        reported := s.reported ++ [c]
        worker := if continuous c then s.worker else .locking }
    | _ => none
  | .signal t =>
    if alive s t then some (handlerMoves s t (.logging :: s.handlers t)) else none
  | .handlerLog t =>
    match s.handlers t with
    | .logging :: outer => if logs s t then some (handlerMoves s t (.locking :: outer)) else none
    | _ => none
  | .handlerLock t =>
    match s.handlers t with
    | .locking :: outer =>
      if s.holder = none then
        some (handlerMoves { s with holder := some t } t (.setting :: outer))
      else none
    | _ => none
  | .handlerSet t =>
    match s.handlers t with
    | .setting :: outer =>
      some (handlerMoves { s with holder := none, shutdown := true } t (.notifying :: outer))
    | _ => none
  | .handlerNotify t =>
    match s.handlers t with
    | .notifying :: outer => some (handlerMoves { s with worker := wake s.worker } t outer)
    | _ => none
  | .mainReturns => if s.worker = .ended then some { s with exited := true } else none

/-- A thread goes on when its handlers have returned; with the main thread the process ends. -/
def step (logs : State → Thread → Bool) (s : State) (a : Action) : Option State :=
  if s.exited = false ∧ ∀ t ∈ performer s a, s.handlers t = [] then perform logs s a else none

def start : State := ⟨[], false, none, .top, .locking, fun _ => [], [], false, [], [], []⟩

inductive Move (logs : State → Thread → Bool) (s : State) : Action → State → Prop
  | heartbeatTop (at_ : s.heartbeat = .top) :
    Move logs s .heartbeatTop { s with heartbeat := if s.shutdown then .ended else .calling }
  | heartbeatReply (at_ : s.heartbeat = .calling) (task : Option Copy) :
    Move logs s (.heartbeatReply task) { s with heartbeat := task.elim .sleeping .offering }
  | heartbeatLock {c : Copy} (at_ : s.heartbeat = .offering c) (unlocked : s.holder = none) :
    Move logs s .heartbeatLock { s with holder := some .heartbeat, heartbeat := .checking c }
  | heartbeatDrop {c : Copy} (at_ : s.heartbeat = .checking c)
      (found : s.queue.any (·.tid = c.tid) = true) :
    Move logs s .heartbeatCheck { s with holder := none, heartbeat := .sleeping }
  | heartbeatPush {c : Copy} (at_ : s.heartbeat = .checking c)
      (found : s.queue.any (·.tid = c.tid) = false) :
    Move logs s .heartbeatCheck { s with
      holder := none, heartbeat := .notifying
      queue := s.queue ++ [c], accepted := s.accepted ++ [c] }
  | heartbeatNotify (at_ : s.heartbeat = .notifying) :
    Move logs s .heartbeatNotify { s with heartbeat := .sleeping, worker := wake s.worker }
  | heartbeatWake (at_ : s.heartbeat = .sleeping) :
    Move logs s .heartbeatWake { s with heartbeat := .top }
  | workerLock (at_ : s.worker = .locking) (unlocked : s.holder = none) :
    Move logs s .workerLock { s with holder := some .worker, worker := .checking }
  | workerRests (at_ : s.worker = .checking) (empty : s.queue = []) :
    Move logs s .workerCheck
      { s with holder := none, worker := if s.shutdown then .ended else .waiting }
  | workerTakes (at_ : s.worker = .checking) {c : Copy} {rest : List Copy}
      (next : s.queue = c :: rest) {execution : Execution} (copy : execution.copy = c)
      (fresh : execution.report = none) :
    Move logs s .workerCheck { s with
      holder := none, worker := .working c, queue := rest
      executions := s.executions ++ [execution], taken := s.taken ++ [c] }
  | workerWake (at_ : s.worker = .waiting) : Move logs s .workerWake { s with worker := .locking }
  | workerDetach {c : Copy} (at_ : s.worker = .working c) (kind : continuous c) :
    Move logs s .workerDetach { s with worker := .locking }
  | recordEnds {k : Nat} {execution : Execution} (entry : s.executions[k]? = some execution)
      (unfinished : execution.report = none) (outcome : Outcome) :
    Move logs s (.recordEnds k outcome)
      { s with executions := s.executions.set k (.reporting execution.copy outcome) }
  | reportEnds {k : Nat} {execution : Execution} (entry : s.executions[k]? = some execution)
      (finished : execution.report.isSome) :
    Move logs s (.reportEnds k) { s with
      executions := s.executions.eraseIdx k
      reported := s.reported ++ [execution.copy]
      worker := if continuous execution.copy then s.worker else .locking }
  | signal {t : Thread} (lives : alive s t) :
    Move logs s (.signal t) (handlerMoves s t (.logging :: s.handlers t))
  | handlerLog {t : Thread} {outer : List HandlerAt} (frames : s.handlers t = .logging :: outer)
      (returns : logs s t = true) :
    Move logs s (.handlerLog t) (handlerMoves s t (.locking :: outer))
  | handlerLock {t : Thread} {outer : List HandlerAt} (frames : s.handlers t = .locking :: outer)
      (unlocked : s.holder = none) :
    Move logs s (.handlerLock t) (handlerMoves { s with holder := some t } t (.setting :: outer))
  | handlerSet {t : Thread} {outer : List HandlerAt} (frames : s.handlers t = .setting :: outer) :
    Move logs s (.handlerSet t)
      (handlerMoves { s with holder := none, shutdown := true } t (.notifying :: outer))
  | handlerNotify {t : Thread} {outer : List HandlerAt}
      (frames : s.handlers t = .notifying :: outer) :
    Move logs s (.handlerNotify t) (handlerMoves { s with worker := wake s.worker } t outer)
  | mainReturns (at_ : s.worker = .ended) : Move logs s .mainReturns { s with exited := true }

variable {logs : State → Thread → Bool}

theorem move_of_perform {s t : State} {a : Action} (next : perform logs s a = some t) :
    Move logs s a t := by
  cases a with
  | heartbeatTop | heartbeatReply | heartbeatNotify | heartbeatWake | workerWake | mainReturns =>
    simp only [perform, Option.ite_none_right_eq_some, Option.some.injEq] at next
    obtain ⟨at_, rfl⟩ := next
    constructor
    exact at_
  | heartbeatLock =>
    simp only [perform] at next
    split at next
    · rename_i c at_
      simp only [Option.ite_none_right_eq_some, Option.some.injEq] at next
      obtain ⟨unlocked, rfl⟩ := next
      exact .heartbeatLock at_ unlocked
    · exact absurd next.symm (Option.some_ne_none t)
  | heartbeatCheck =>
    simp only [perform] at next
    split at next
    · rename_i c at_
      rw [Option.some.injEq, heartbeatCheck] at next
      split_ifs at next with found
      · exact next ▸ .heartbeatDrop at_ found
      · exact next ▸ .heartbeatPush at_ (Bool.eq_false_iff.mpr found)
    · exact absurd next.symm (Option.some_ne_none t)
  | workerLock =>
    simp only [perform, Option.ite_none_right_eq_some, Option.some.injEq] at next
    obtain ⟨⟨at_, unlocked⟩, rfl⟩ := next
    exact .workerLock at_ unlocked
  | workerCheck =>
    simp only [perform, Option.ite_none_right_eq_some, Option.some.injEq, workerCheck] at next
    obtain ⟨at_, rest⟩ := next
    split at rest
    · rename_i empty
      exact rest ▸ .workerRests at_ empty
    · rename_i c more queued
      exact rest ▸ .workerTakes at_ queued rfl rfl
  | workerDetach =>
    simp only [perform] at next
    split at next
    · rename_i c at_
      simp only [Option.ite_none_right_eq_some, Option.some.injEq] at next
      obtain ⟨kind, rfl⟩ := next
      exact .workerDetach at_ kind
    · exact absurd next.symm (Option.some_ne_none t)
  | recordEnds k outcome =>
    simp only [perform] at next
    split at next
    · rename_i c _ entry
      rw [← Option.some.inj next]
      exact .recordEnds entry rfl outcome
    · exact absurd next.symm (Option.some_ne_none t)
  | reportEnds k =>
    simp only [perform] at next
    split at next
    · rename_i c _ _ entry
      rw [← Option.some.inj next]
      exact .reportEnds entry rfl
    · exact absurd next.symm (Option.some_ne_none t)
  | signal u =>
    simp only [perform, Option.ite_none_right_eq_some, Option.some.injEq] at next
    obtain ⟨lives, rfl⟩ := next
    exact .signal lives
  | handlerLog u =>
    simp only [perform] at next
    split at next
    · rename_i outer frames
      simp only [Option.ite_none_right_eq_some, Option.some.injEq] at next
      obtain ⟨returns, rfl⟩ := next
      exact .handlerLog frames returns
    · exact absurd next.symm (Option.some_ne_none t)
  | handlerLock u =>
    simp only [perform] at next
    split at next
    · rename_i outer frames
      simp only [Option.ite_none_right_eq_some, Option.some.injEq] at next
      obtain ⟨unlocked, rfl⟩ := next
      exact .handlerLock frames unlocked
    · exact absurd next.symm (Option.some_ne_none t)
  | handlerSet u =>
    simp only [perform] at next
    split at next
    · rename_i outer frames
      exact Option.some.inj next ▸ .handlerSet frames
    · exact absurd next.symm (Option.some_ne_none t)
  | handlerNotify u =>
    simp only [perform] at next
    split at next
    · rename_i outer frames
      exact Option.some.inj next ▸ .handlerNotify frames
    · exact absurd next.symm (Option.some_ne_none t)

theorem step_cases {s t : State} {a : Action} (next : step logs s a = some t) :
    s.exited = false ∧ (∀ u ∈ performer s a, s.handlers u = []) ∧ Move logs s a t := by
  simp only [step, Option.ite_none_right_eq_some] at next
  exact ⟨next.1.1, next.1.2, move_of_perform next.2⟩

section invariant

def HeartbeatAt.inside : HeartbeatAt → Nat
  | .checking _ => 1
  | _ => 0

def WorkerAt.inside : WorkerAt → Nat
  | .checking => 1
  | _ => 0

def own (s : State) : Thread → Nat
  | .heartbeat => s.heartbeat.inside
  | .worker => s.worker.inside
  | .other _ => 0

def inside (s : State) (t : Thread) : Nat := own s t + (s.handlers t).count .setting

/-- A reply that is waited for or looked at may still add a task. -/
def HeartbeatAt.mayPush : HeartbeatAt → Nat
  | .calling | .offering _ | .checking _ => 1
  | _ => 0

def WorkerAt.busy : WorkerAt → List Copy
  | .working c => if continuous c then [] else [c]
  | _ => []

def State.copies (s : State) : List Copy := s.executions.map (·.copy)

def Owed (s : State) : Prop := s.heartbeat = .notifying ∨ ∃ t, .notifying ∈ s.handlers t

structure Inv (s : State) : Prop where
  exclusive : Exclusive s.holder (inside s)
  fifo : s.accepted = s.taken ++ s.queue
  distinct : (s.queue.map Copy.tid).Nodup
  executed : s.taken.Perm (s.reported ++ s.copies)
  single : (s.copies.filter (¬ continuous ·)).Perm s.worker.busy
  vigilant : s.worker = .waiting → s.queue = [] ∧ s.shutdown = false ∨ Owed s
  told : ∀ t, .notifying ∈ s.handlers t → s.shutdown = true
  drained : s.worker = .ended → s.shutdown = true ∧ s.queue.length + s.heartbeat.mayPush ≤ 1
  last : s.exited = true → s.worker = .ended

variable {s t : State} {a : Action}

@[simp]
theorem wake_ne_waiting (place : WorkerAt) : wake place ≠ .waiting := by
  cases place <;> simp [wake]

@[simp]
theorem wake_wake (place : WorkerAt) : wake (wake place) = wake place := by
  cases place <;> rfl

@[simp]
theorem inside_wake (place : WorkerAt) : (wake place).inside = place.inside := by
  cases place <;> rfl

@[simp]
theorem busy_wake (place : WorkerAt) : (wake place).busy = place.busy := by
  cases place <;> rfl

@[simp]
theorem wake_eq_ended (place : WorkerAt) : wake place = .ended ↔ place = .ended := by
  cases place <;> simp [wake]

@[simp]
theorem handlers_handlerMoves_self (u : Thread) (frames : List HandlerAt) :
    (handlerMoves s u frames).handlers u = frames := by
  simp [handlerMoves]

theorem handlers_handlerMoves_of_ne {u v : Thread} (other : v ≠ u) (frames : List HandlerAt) :
    (handlerMoves s u frames).handlers v = s.handlers v := by
  simp [handlerMoves, other]

theorem inside_congr (heartbeat : t.heartbeat.inside = s.heartbeat.inside)
    (worker : t.worker.inside = s.worker.inside)
    (handlers : ∀ u, (t.handlers u).count .setting = (s.handlers u).count .setting) :
    inside t = inside s := by
  funext u
  cases u with
  | heartbeat => rw [inside, inside, own, own, heartbeat, handlers]
  | worker => rw [inside, inside, own, own, worker, handlers]
  | other n => rw [inside, inside, own, own, handlers]

theorem own_congr (heartbeat : t.heartbeat.inside = s.heartbeat.inside)
    (worker : t.worker.inside = s.worker.inside) (u : Thread) : own t u = own s u := by
  cases u with
  | heartbeat => exact heartbeat
  | worker => exact worker
  | other n => rfl

section threads
variable {n : Nat} (handlers : t.handlers = s.handlers)

include handlers in
theorem inside_heartbeat (worker : t.worker = s.worker)
    (value : t.heartbeat.inside + (s.handlers .heartbeat).count .setting = n) :
    inside t = Function.update (inside s) .heartbeat n := by
  funext u
  cases u with
  | heartbeat => rw [Function.update_self, inside, own, handlers, value]
  | worker => rw [Function.update_of_ne (by simp), inside, inside, own, own, worker, handlers]
  | other n => rw [Function.update_of_ne (by simp), inside, inside, own, own, handlers]

include handlers in
theorem inside_worker (heartbeat : t.heartbeat = s.heartbeat)
    (value : t.worker.inside + (s.handlers .worker).count .setting = n) :
    inside t = Function.update (inside s) .worker n := by
  funext u
  cases u with
  | worker => rw [Function.update_self, inside, own, handlers, value]
  | heartbeat =>
    rw [Function.update_of_ne (by simp), inside, inside, own, own, heartbeat, handlers]
  | other n => rw [Function.update_of_ne (by simp), inside, inside, own, own, handlers]

omit handlers in
theorem inside_handlerMoves {u : Thread} {frames : List HandlerAt}
    (value : own s u + frames.count .setting = n) :
    inside (handlerMoves s u frames) = Function.update (inside s) u n := by
  have same := own_congr (t := handlerMoves s u frames) (s := s) rfl rfl
  funext v
  by_cases here : v = u
  · rw [here, Function.update_self, inside, same, handlers_handlerMoves_self, value]
  · rw [Function.update_of_ne here, inside, inside, same, handlers_handlerMoves_of_ne here]

end threads

theorem Inv.working_of_entry (inv : Inv s) {k : Nat} {execution : Execution}
    (entry : s.executions[k]? = some execution) (kind : ¬ continuous execution.copy) :
    s.worker = .working execution.copy := by
  have member : execution.copy ∈ s.copies.filter (¬ continuous ·) :=
    List.mem_filter.mpr ⟨List.mem_map_of_mem (List.mem_of_getElem? entry), by simpa using kind⟩
  have mine := inv.single.mem_iff.mp member
  unfold WorkerAt.busy at mine
  split at mine
  · rename_i c at_
    split_ifs at mine
    · exact absurd mine List.not_mem_nil
    · rw [at_, List.mem_singleton.mp mine]
  · exact absurd mine List.not_mem_nil

theorem exclusive_of_move (inv : Inv s) (move : Move logs s a t) : Exclusive t.holder (inside t) := by
  have ex := inv.exclusive
  have still {t : State} (holder : t.holder = s.holder) (same : inside t = inside s) :
      Exclusive t.holder (inside t) := by
    rw [holder, same]
    exact ex
  have enters {t : State} {u : Thread} (unlocked : s.holder = none) (holder : t.holder = some u)
      (more : inside t = Function.update (inside s) u (inside s u + 1)) :
      Exclusive t.holder (inside t) := by
    rw [holder, more]
    rw [unlocked] at ex
    exact ex.acquire u
  have leaves {t : State} {u : Thread} (here : inside s u ≠ 0) (holder : t.holder = none)
      (less : inside t = Function.update (inside s) u (inside s u - 1)) :
      Exclusive t.holder (inside t) := by
    rw [holder, less]
    exact ex.release here
  cases move with
  | heartbeatTop at_ =>
    refine still rfl (inside_congr ?_ rfl fun _ => rfl)
    rw [at_]
    dsimp only
    split_ifs <;> rfl
  | heartbeatReply at_ task =>
    refine still rfl (inside_congr ?_ rfl fun _ => rfl)
    rw [at_]
    cases task <;> rfl
  | heartbeatWake at_ => exact still rfl (inside_congr (by rw [at_]; rfl) rfl fun _ => rfl)
  | heartbeatNotify at_ =>
    exact still rfl (inside_congr (by rw [at_]; rfl) (inside_wake _) fun _ => rfl)
  | workerWake at_ | workerDetach at_ _ =>
    exact still rfl (inside_congr rfl (by rw [at_]; rfl) fun _ => rfl)
  | recordEnds | mainReturns => exact still rfl (inside_congr rfl rfl fun _ => rfl)
  | reportEnds entry _ =>
    refine still rfl (inside_congr rfl ?_ fun _ => rfl)
    dsimp only
    split_ifs with kind
    · rfl
    · rw [inv.working_of_entry entry kind]
      rfl
  | heartbeatLock at_ unlocked =>
    refine enters unlocked rfl (inside_heartbeat rfl rfl ?_)
    rw [inside, own, at_]
    simp only [HeartbeatAt.inside]
    omega
  | heartbeatDrop at_ _ | heartbeatPush at_ _ =>
    have here : inside s .heartbeat = 1 + (s.handlers .heartbeat).count .setting := by
      rw [inside, own, at_, HeartbeatAt.inside]
    refine leaves (u := .heartbeat) (by omega) rfl (inside_heartbeat rfl rfl ?_)
    simp only [HeartbeatAt.inside]
    omega
  | workerLock at_ unlocked =>
    refine enters unlocked rfl (inside_worker rfl rfl ?_)
    rw [inside, own, at_]
    simp only [WorkerAt.inside]
    omega
  | workerRests at_ _ =>
    have here : inside s .worker = 1 + (s.handlers .worker).count .setting := by
      rw [inside, own, at_, WorkerAt.inside]
    refine leaves (u := .worker) (by omega) rfl (inside_worker rfl rfl ?_)
    dsimp only
    split_ifs <;> simp only [WorkerAt.inside] <;> omega
  | workerTakes at_ _ _ _ =>
    have here : inside s .worker = 1 + (s.handlers .worker).count .setting := by
      rw [inside, own, at_, WorkerAt.inside]
    refine leaves (u := .worker) (by omega) rfl (inside_worker rfl rfl ?_)
    simp only [WorkerAt.inside]
    omega
  | @signal u _ =>
    have same : inside (handlerMoves s u (.logging :: s.handlers u)) =
        Function.update (inside s) u (inside s u) := inside_handlerMoves (by simp [inside])
    exact still rfl (same.trans (Function.update_eq_self u _))
  | @handlerLog u outer frames _ =>
    have same : inside (handlerMoves s u (.locking :: outer)) =
        Function.update (inside s) u (inside s u) := inside_handlerMoves (by simp [inside, frames])
    exact still rfl (same.trans (Function.update_eq_self u _))
  | @handlerLock u outer frames unlocked =>
    have same : own { s with holder := some u } u = own s u := own_congr rfl rfl u
    refine enters unlocked rfl (inside_handlerMoves ?_)
    rw [same, inside, frames, List.count_cons_self, List.count_cons_of_ne (by simp), add_assoc]
  | @handlerSet u outer frames =>
    have same : own { s with holder := none, shutdown := true } u = own s u := own_congr rfl rfl u
    have here : inside s u = own s u + (outer.count .setting + 1) := by
      rw [inside, frames, List.count_cons_self]
    refine leaves (u := u) (by omega) rfl (inside_handlerMoves ?_)
    rw [same, here, List.count_cons_of_ne (by simp)]
    omega
  | @handlerNotify u outer frames =>
    let woken := { s with worker := wake s.worker }
    have same : inside woken = inside s := inside_congr rfl (inside_wake _) fun _ => rfl
    have popped : own woken u + outer.count .setting = inside woken u := by
      change _ = own woken u + (s.handlers u).count .setting
      rw [frames, List.count_cons_of_ne (by simp)]
    refine still rfl ((inside_handlerMoves popped).trans ?_)
    rw [Function.update_eq_self, same]

theorem fifo_of_move (inv : Inv s) (move : Move logs s a t) : t.accepted = t.taken ++ t.queue := by
  cases move with
  | heartbeatPush => rw [inv.fifo, List.append_assoc]
  | workerTakes _ next _ _ => rw [inv.fifo, next, List.append_assoc, List.singleton_append]
  | _ => exact inv.fifo

theorem distinct_of_move (inv : Inv s) (move : Move logs s a t) : (t.queue.map Copy.tid).Nodup := by
  cases move with
  | @heartbeatPush c _ found =>
    have absent : c.tid ∉ s.queue.map Copy.tid := by
      rintro member
      obtain ⟨other, queued, same⟩ := List.mem_map.mp member
      simp only [List.any_eq_false, decide_eq_true_eq] at found
      exact found other queued same
    rw [List.map_append, List.nodup_append_comm]
    exact List.nodup_cons.mpr ⟨absent, inv.distinct⟩
  | workerTakes _ next _ _ =>
    have whole := inv.distinct
    rw [next] at whole
    exact (List.nodup_cons.mp whole).2
  | _ => exact inv.distinct

theorem copies_recordEnds {k : Nat} {execution : Execution}
    (entry : s.executions[k]? = some execution) (outcome : Outcome) :
    (s.executions.set k (.reporting execution.copy outcome)).map (·.copy) = s.copies := by
  obtain ⟨bound, rfl⟩ := List.getElem?_eq_some_iff.mp entry
  have inside : k < (s.executions.map (·.copy)).length := by simpa using bound
  have same := List.set_getElem_self inside
  rw [List.getElem_map] at same
  rw [List.map_set]
  exact same

theorem copies_reportEnds {k : Nat} {execution : Execution}
    (entry : s.executions[k]? = some execution) :
    s.copies.Perm (execution.copy :: (s.executions.eraseIdx k).map (·.copy)) := by
  obtain ⟨bound, here⟩ := List.getElem?_eq_some_iff.mp entry
  have moved := (List.getElem_cons_eraseIdx_perm bound).map (·.copy)
  rw [here, List.map_cons] at moved
  exact moved.symm

theorem executed_of_move (inv : Inv s) (move : Move logs s a t) :
    t.taken.Perm (t.reported ++ t.copies) := by
  cases move with
  | workerTakes _ _ copy _ =>
    simp only [State.copies, List.map_append, List.map_cons, List.map_nil, copy]
    rw [← List.append_assoc]
    exact inv.executed.append_right _
  | recordEnds entry _ outcome =>
    simp only [State.copies, copies_recordEnds entry]
    exact inv.executed
  | reportEnds entry _ =>
    refine inv.executed.trans ?_
    simp only [State.copies, List.append_assoc, List.singleton_append]
    exact (copies_reportEnds entry).append_left _
  | _ => exact inv.executed

theorem single_of_move (inv : Inv s) (move : Move logs s a t) :
    (t.copies.filter (¬ continuous ·)).Perm t.worker.busy := by
  have before := inv.single
  cases move with
  | heartbeatNotify | handlerNotify => exact (busy_wake s.worker).symm ▸ before
  | workerLock at_ _ | workerWake at_ =>
    rw [at_] at before
    exact before
  | workerRests at_ _ =>
    rw [at_] at before
    dsimp only
    split_ifs <;> exact before
  | @workerTakes at_ c _ _ _ copy _ =>
    rw [at_] at before
    have none := List.perm_nil.mp before
    rw [State.copies] at none ⊢
    simp only [List.map_append, List.filter_append, none, List.nil_append, List.map_cons,
      List.map_nil, copy, WorkerAt.busy]
    by_cases kind : continuous c
    · simp [kind]
    · simp [kind]
  | workerDetach at_ kind =>
    rw [at_, WorkerAt.busy, if_pos kind] at before
    exact before
  | recordEnds entry _ outcome =>
    simp only [State.copies, copies_recordEnds entry]
    exact before
  | @reportEnds k execution entry _ =>
    have parts := ((copies_reportEnds entry).filter (¬ continuous ·)).symm.trans before
    dsimp only [State.copies]
    by_cases kind : continuous execution.copy
    · rw [List.filter_cons_of_neg (by simpa using kind)] at parts
      rwa [if_pos kind]
    · rw [List.filter_cons_of_pos (by simpa using kind), inv.working_of_entry entry kind,
        WorkerAt.busy, if_neg kind] at parts
      rw [if_neg kind]
      exact (List.perm_cons _).mp parts
  | _ => exact before

theorem owed_of_frames {u : Thread} {frames : List HandlerAt} {s' : State}
    (heartbeat : s'.heartbeat = s.heartbeat) (handlers : s'.handlers = s.handlers)
    (kept : .notifying ∈ s.handlers u → .notifying ∈ frames) (owed : Owed s) :
    Owed (handlerMoves s' u frames) := by
  refine owed.imp (fun at_ => heartbeat.trans at_) ?_
  rintro ⟨v, member⟩
  refine ⟨v, ?_⟩
  by_cases here : v = u
  · subst here
    rw [handlers_handlerMoves_self]
    exact kept member
  · rwa [handlers_handlerMoves_of_ne here, handlers]

theorem vigilant_of_move (inv : Inv s) (move : Move logs s a t) (asleep : t.worker = .waiting) :
    t.queue = [] ∧ t.shutdown = false ∨ Owed t := by
  have before := inv.vigilant
  have elsewhere {place : HeartbeatAt} (leaves : s.heartbeat ≠ .notifying) (owed : Owed s) :
      place = .notifying ∨ ∃ u, .notifying ∈ s.handlers u :=
    .inr (owed.resolve_left leaves)
  cases move with
  | heartbeatTop at_ | heartbeatReply at_ task | heartbeatLock at_ _ | heartbeatDrop at_ _
  | heartbeatWake at_ =>
    exact (before asleep).imp id fun owed => elsewhere (by rw [at_]; simp) owed
  | heartbeatPush => exact .inr (.inl rfl)
  | heartbeatNotify | handlerNotify => exact absurd asleep (wake_ne_waiting _)
  | workerLock | workerTakes | workerWake | workerDetach => cases asleep
  | workerRests at_ empty =>
    refine .inl ⟨empty, ?_⟩
    by_contra down
    simp [Bool.not_eq_false] at down
    simp [down] at asleep
  | recordEnds => exact before asleep
  | reportEnds entry _ =>
    dsimp only at asleep
    split_ifs at asleep
    exact before asleep
  | signal => 
    exact (before asleep).imp id (owed_of_frames rfl rfl (List.mem_cons_of_mem _))
  | handlerLog frames _ | handlerLock frames _ =>
    refine (before asleep).imp id (owed_of_frames rfl rfl fun member => ?_)
    rw [frames] at member
    exact List.mem_cons_of_mem _ ((List.mem_cons.mp member).resolve_left (by simp))
  | @handlerSet u _ _ =>
    refine .inr (.inr ⟨u, ?_⟩)
    rw [handlers_handlerMoves_self]
    exact List.mem_cons_self
  | mainReturns at_ => exact before asleep

theorem told_of_move (inv : Inv s) (move : Move logs s a t) (u : Thread)
    (telling : .notifying ∈ t.handlers u) : t.shutdown = true := by
  have framed {s' : State} {v : Thread} {frames : List HandlerAt}
      (handlers : s'.handlers = s.handlers)
      (before : .notifying ∈ frames → .notifying ∈ s.handlers v)
      (member : .notifying ∈ (handlerMoves s' v frames).handlers u) : s.shutdown = true := by
    by_cases here : u = v
    · rw [here, handlers_handlerMoves_self] at member
      exact inv.told v (before member)
    · rw [handlers_handlerMoves_of_ne here, handlers] at member
      exact inv.told u member
  cases move with
  | signal => exact framed rfl (by simp) telling
  | handlerLog frames _ | handlerLock frames _ => exact framed rfl (by simp [frames]) telling
  | handlerSet => rfl
  | handlerNotify frames => exact framed rfl (by simp [frames]) telling
  | _ => exact inv.told u telling

theorem drained_of_move (inv : Inv s) (move : Move logs s a t) (done : t.worker = .ended) :
    t.shutdown = true ∧ t.queue.length + t.heartbeat.mayPush ≤ 1 := by
  cases move with
  | heartbeatTop at_ =>
    obtain ⟨down, bound⟩ := inv.drained done
    rw [at_] at bound
    exact ⟨down, by simpa [down, HeartbeatAt.mayPush] using bound⟩
  | heartbeatReply at_ task =>
    obtain ⟨down, bound⟩ := inv.drained done
    rw [at_] at bound
    refine ⟨down, le_trans (Nat.add_le_add_left ?_ _) bound⟩
    cases task <;> simp [HeartbeatAt.mayPush]
  | heartbeatLock at_ _ | heartbeatDrop at_ _ | heartbeatWake at_ =>
    obtain ⟨down, bound⟩ := inv.drained done
    rw [at_] at bound
    refine ⟨down, le_trans (Nat.add_le_add_left ?_ _) bound⟩
    simp [HeartbeatAt.mayPush]
  | heartbeatPush at_ _ =>
    obtain ⟨down, bound⟩ := inv.drained done
    rw [at_] at bound
    exact ⟨down, by simpa [HeartbeatAt.mayPush] using bound⟩
  | heartbeatNotify at_ =>
    obtain ⟨down, bound⟩ := inv.drained ((wake_eq_ended _).mp done)
    rw [at_] at bound
    exact ⟨down, bound⟩
  | workerRests at_ empty =>
    dsimp only at done ⊢
    split_ifs at done with down
    rw [empty]
    exact ⟨down, by cases s.heartbeat <;> simp [HeartbeatAt.mayPush]⟩
  | workerLock | workerTakes | workerWake | workerDetach => cases done
  | reportEnds =>
    dsimp only at done
    split_ifs at done
    exact inv.drained done
  | handlerSet => exact ⟨rfl, (inv.drained done).2⟩
  | handlerNotify => exact inv.drained ((wake_eq_ended _).mp done)
  | recordEnds | signal | handlerLog | handlerLock | mainReturns => exact inv.drained done

theorem last_of_move (running : s.exited = false) (move : Move logs s a t)
    (gone : t.exited = true) : t.worker = .ended := by
  cases move with
  | mainReturns at_ => exact at_
  | _ => exact absurd (gone.symm.trans running) (by simp)

theorem inv_start : Inv start where
  exclusive := by
    intro t
    cases t <;> rfl
  fifo := rfl
  distinct := List.nodup_nil
  executed := .refl _
  single := .refl _
  vigilant asleep := by cases asleep
  told t member := by cases member
  drained done := by cases done
  last gone := by cases gone

theorem Inv.step (inv : Inv s) (next : step logs s a = some t) : Inv t := by
  obtain ⟨running, _, move⟩ := step_cases next
  exact ⟨exclusive_of_move inv move, fifo_of_move inv move, distinct_of_move inv move,
    executed_of_move inv move, single_of_move inv move, vigilant_of_move inv move,
    told_of_move inv move, drained_of_move inv move, last_of_move running move⟩

theorem inv_of_reaches {guard : State → Action → Prop}
    (run : Reaches (AgentThreads.step logs) guard start s) : Inv s :=
  run.invariant Inv (fun _ _ _ inv _ next => inv.step next) inv_start

end invariant

section results
variable {s : State}

/-- Whatever the threads' interleaving: tasks are taken in the order in which they were
accepted, a task that is taken is reported or still executed, and none of it happens twice. -/
theorem taken_in_order (run : Reaches (step logs) free start s) :
    s.accepted = s.taken ++ s.queue ∧ (s.queue.map Copy.tid).Nodup ∧
      s.taken.Perm (s.reported ++ s.copies) ∧
      (s.copies.filter (¬ continuous ·)).length ≤ 1 := by
  have inv := inv_of_reaches run
  refine ⟨inv.fifo, inv.distinct, inv.executed, ?_⟩
  rw [inv.single.length_eq]
  unfold WorkerAt.busy
  split
  · split_ifs <;> simp
  · simp

/-- No wake-up is lost: if the worker sleeps although it has something to do, somebody is on
the way to notify it. -/
theorem sleeps_only_when_idle (run : Reaches (step logs) free start s) (asleep : s.worker = .waiting) :
    s.queue = [] ∧ s.shutdown = false ∨ Owed s :=
  (inv_of_reaches run).vigilant asleep

/-- What is lost when the process ends: the continuous tasks that were running, and at most one
task that the heartbeat in flight brought after the worker had ended. -/
theorem lost_at_exit (run : Reaches (step logs) free start s) (gone : s.exited = true) :
    s.accepted.Perm (s.reported ++ s.copies ++ s.queue) ∧ (∀ c ∈ s.copies, continuous c) ∧
      s.queue.length ≤ 1 := by
  have inv := inv_of_reaches run
  have ended := inv.last gone
  refine ⟨?_, fun c running => ?_, le_of_add_le_left (inv.drained ended).2⟩
  · rw [inv.fifo]
    exact inv.executed.append_right _
  · by_contra kind
    have single := inv.single
    rw [ended] at single
    have mine := single.mem_iff.mp (List.mem_filter.mpr ⟨running, by simpa using kind⟩)
    exact absurd mine List.not_mem_nil

def perfTask : Copy := ⟨⟨"perf", 0, 0, 99, 10, 1, ""⟩, 1, Nat.one_pos⟩

def watchTask : Copy := ⟨⟨"watch", 1, 0, 99, 10, 1, ""⟩, 1, Nat.one_pos⟩

def taskTaken (c : Copy) : List Action :=
  [.heartbeatTop, .heartbeatReply (some c), .heartbeatLock, .heartbeatCheck, .heartbeatNotify,
   .heartbeatWake, .workerLock, .workerCheck]

def lateTask : List Action :=
  taskTaken watchTask ++ [.workerDetach, .heartbeatTop, .signal mainThread,
    .handlerLog mainThread, .handlerLock mainThread, .handlerSet mainThread, .handlerNotify mainThread, .workerLock,
    .workerCheck, .heartbeatReply (some perfTask), .heartbeatLock, .heartbeatCheck, .mainReturns]

def logged : State → Thread → Bool := fun _ _ => true

theorem taken_in_order_perfTask :
    ∃ s, Reaches (step logged) free start s ∧ s.worker = .working perfTask ∧
      s.accepted = s.taken ++ s.queue := by
  have run : Reaches (step logged) free start _ := reaches_of_execute (taskTaken perfTask) rfl
  exact ⟨_, run, rfl, (taken_in_order run).1⟩

theorem sleeps_only_when_idle_owed :
    ∃ s, Reaches (step logged) free start s ∧ s.worker = .waiting ∧ s.queue = [perfTask] ∧ Owed s := by
  have run : Reaches (step logged) free start _ := reaches_of_execute [.workerLock, .workerCheck,
    .heartbeatTop, .heartbeatReply (some perfTask), .heartbeatLock, .heartbeatCheck] rfl
  refine ⟨_, run, rfl, rfl, (sleeps_only_when_idle run rfl).resolve_left fun idle => ?_⟩
  exact absurd idle.1 (List.cons_ne_nil _ _)

theorem lost_at_exit_lateTask :
    ∃ s, Reaches (step logged) free start s ∧ s.exited = true ∧ s.copies = [watchTask] ∧
      s.queue = [perfTask] ∧ s.accepted.Perm (s.reported ++ s.copies ++ s.queue) := by
  have run : Reaches (step logged) free start _ := reaches_of_execute lateTask rfl
  exact ⟨_, run, rfl, rfl, rfl, (lost_at_exit run rfl).1⟩

end results

end DropPlatform.AgentThreads
