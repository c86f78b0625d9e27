import DropPlatform.CopyLedger
import DropPlatform.KeyedStores
import DropPlatform.TaskLifecycle

/-! How a task travels: `dispatchTask` of the apiserver sends it to drop_server, whose
`TaskQueue` holds it until the agent's heartbeat fetches it; the agent's worker executes
it and reports with `NotifyResult`. Every RPC is a request that the server processes in
one step and a reply that may be lost; the client of a lost reply sees an error.
A status update of the apiserver is two steps, its SELECT and its COMMIT, since the SELECT
locks nothing and the UPDATE looks at no status; drop_server's SELECT is FOR UPDATE, so that
its updates are single steps (`CrossProcessUpdates` has the statements of both).
Copies of a task carry the number of the attempt they were made for, which no program
looks at. Database statements succeed, and there is a gRPC connection. -/

namespace DropPlatform.TaskDispatch
open TransitionRuns TaskStore TaskLifecycle KeyedStores CopyLedger

structure TaskDesc where
  taskId : String
  taskType : Nat
  profilerType : Nat
  hz : Nat
  duration : Nat
  pid : Int
  event : String
deriving DecidableEq, Repr, Inhabited

/-- The description that `dispatchTask` sends, with Go's conversions between integer types. -/
def taskDesc (tid : String) (req : CreateTaskReq) : TaskDesc where
  taskId := tid
  taskType := (req.type % 2 ^ 32).toNat
  profilerType := (req.profilerType % 2 ^ 32).toNat
  hz := (req.hz % 2 ^ 32).toNat
  duration := (req.duration % 2 ^ 64).toNat
  pid := req.pid.bmod (2 ^ 32)
  event := req.event

structure Copy where
  desc : TaskDesc
  attempt : Nat
  begun : 0 < attempt
deriving DecidableEq, Repr

instance : Inhabited Copy := ⟨⟨default, 1, Nat.one_pos⟩⟩

def newCopy (tid : String) (req : CreateTaskReq) (before : Nat) : Copy :=
  ⟨taskDesc tid req, before + 1, Nat.succ_pos before⟩

def Copy.tid (c : Copy) : String := c.desc.taskId

/-- Where the goroutine of a `dispatchTask` stands. -/
inductive ClientPhase
  | waiting
  /-- The RPC has failed; the update to FAILED has yet to read the row. -/
  | failed (reason : String)
  | selected (reason : String) (oldStatus : Int)
  | returned
deriving DecidableEq, Repr, Inhabited

structure DispatchCall where
  targetIP : String
  copy : Copy
  /-- drop_server has processed the request. -/
  processed : Bool
  client : ClientPhase
deriving DecidableEq, Repr

instance : Inhabited DispatchCall := ⟨⟨"", default, true, .returned⟩⟩

inductive RetryPhase
  | found
  | selected (oldStatus : Int)
  | ended
deriving DecidableEq, Repr, Inhabited

structure RetryCall where
  tid : String
  /-- What `json.Unmarshal` makes of the stored parameters. -/
  req : CreateTaskReq
  phase : RetryPhase

instance : Inhabited RetryCall := ⟨⟨"", ⟨"", 0, 0, "", 0, 0, 0, ""⟩, .ended⟩⟩

structure HealthCheckResponse where
  pending : Bool
  taskDesc : Option Copy
  together : pending = taskDesc.isSome
deriving DecidableEq, Repr

/-- A task in the hands of the worker thread or of a detached runner: being recorded,
or reported by a `NotifyResult` request under way. -/
structure Execution where
  copy : Copy
  report : Option TaskResult
  named : ∀ result ∈ report, result.taskId = copy.tid

structure Agent where
  /-- The reply to the heartbeat that is waiting for one. -/
  reply : Option HealthCheckResponse
  queue : List Copy
  executions : List Execution

instance : Inhabited Agent := ⟨⟨none, [], []⟩⟩

structure System where
  db : Tables
  attempts : String → Nat
  calls : Keyed Nat DispatchCall
  retries : Keyed Nat RetryCall
  /-- The `TaskQueue` of drop_server, by target address. -/
  queues : Keyed String (List Copy)
  agents : Keyed String Agent

inductive Outcome
  | failed (errorMessage : String)
  | collected (cosKey : String)
deriving DecidableEq, Repr

/-- A continuous task has no single result file. -/
def taskResult (desc : TaskDesc) : Outcome → TaskResult
  | .failed errorMessage => ⟨desc.taskId, errorMessage, "", ""⟩
  | .collected cosKey => ⟨desc.taskId, "", "", if desc.taskType = 1 then "" else cosKey⟩

theorem taskResult_taskId (desc : TaskDesc) (outcome : Outcome) :
    (taskResult desc outcome).taskId = desc.taskId := by
  cases outcome <;> rfl

def Execution.reporting (c : Copy) (outcome : Outcome) : Execution where
  copy := c
  report := some (taskResult c.desc outcome)
  named := by
    intro result sent
    rw [← Option.some.inj sent]
    exact taskResult_taskId c.desc outcome

/-- What `updateTaskStatus` reads, if its SELECT finds the row and the transition passes. -/
def selectStatus (db : Tables) (tid : String) (newStatus : Int) : Option Int :=
  match db.tasks.find? fun task => task.tid = tid ∧ task.deleted = false with
  | none => none
  | some task =>
    if Apiserver.isTransitionAllowed task.status newStatus then some task.status else none

/-- The UPDATE by primary key, which gorm restricts to rows that are not deleted, and the
history row with the status that was read. -/
def commitStatus (db : Tables) (tid : String) (oldStatus newStatus : Int) (reason : String)
    (now : Nat) : Tables :=
  let reason := Apiserver.effectiveReason reason
  (db.setTask tid fun task =>
    if task.deleted then task else task.withStatus newStatus reason now).addHistory
      ⟨tid, oldStatus, newStatus, reason, now⟩

def dispatchTask (s : System) (tid : String) (req : CreateTaskReq) : System :=
  { s with
    attempts := Function.update s.attempts tid (s.attempts tid + 1)
    calls := s.calls ++
      [(s.calls.length, ⟨req.targetIP, newCopy tid req (s.attempts tid), false, .waiting⟩)] }

/-- `CreateTask`, `NLChat` and the cron path: the row, its first history row, and a
goroutine for the dispatch. -/
def createTask (s : System) (creation : Creation) (tid : String) (now : Nat) : System :=
  if tid ∈ s.db.tasks.map (·.tid) then s
  else dispatchTask { s with db := create creation tid now true true s.db } tid creation.request

/-- The lookup of `RetryTask`, outside any transaction. -/
def retryTask (s : System) (tid uid : String) (req : CreateTaskReq) : System :=
  match failedTask s.db tid uid with
  | none => s
  | some _ => { s with retries := s.retries ++ [(s.retries.length, ⟨tid, req, .found⟩)] }

def retrySelect (s : System) (j : Nat) : Option System :=
  let retry := get s.retries j
  if retry.phase = .found then
    let phase := match selectStatus s.db retry.tid taskStatusPending with
      | none => .ended
      | some oldStatus => .selected oldStatus
    some { s with retries := set s.retries j { retry with phase } }
  else none

/-- The COMMIT, after which `RetryTask` starts the goroutine of the dispatch. -/
def retryCommit (s : System) (j now : Nat) : Option System :=
  let retry := get s.retries j
  match retry.phase with
  | .selected oldStatus => some (dispatchTask { s with
      db := commitStatus s.db retry.tid oldStatus taskStatusPending "用户触发重试" now
      retries := set s.retries j { retry with phase := .ended } } retry.tid retry.req)
  | _ => none

/-- drop_server's `Control.CreateTask`, for the request of call `i`. -/
def serverCreateTask (s : System) (i : Nat) : Option System :=
  let call := get s.calls i
  if call.processed then none
  else some { s with
    queues := push s.queues call.targetIP call.copy
    calls := set s.calls i { call with processed := true } }

def setClient (s : System) (i : Nat) (client : ClientPhase) : System :=
  { s with calls := set s.calls i { get s.calls i with client } }

def dispatchReply (s : System) (i : Nat) : Option System :=
  let call := get s.calls i
  if call.processed ∧ call.client = .waiting then some (setClient s i .returned) else none

/-- The client sees an error, whether or not drop_server has processed the request. -/
def dispatchError (s : System) (i : Nat) (error : String) : Option System :=
  if (get s.calls i).client = .waiting then
    some (setClient s i (.failed ("gRPC ControlService.CreateTask failed: " ++ error)))
  else none

def failureSelect (s : System) (i : Nat) : Option System :=
  let call := get s.calls i
  match call.client with
  | .failed reason => some (setClient s i
      (match selectStatus s.db call.copy.tid taskStatusFailed with
      | none => .returned
      | some oldStatus => .selected reason oldStatus))
  | _ => none

def failureCommit (s : System) (i now : Nat) : Option System :=
  let call := get s.calls i
  match call.client with
  | .selected reason oldStatus => some (setClient { s with
      db := commitStatus s.db call.copy.tid oldStatus taskStatusFailed reason now } i .returned)
  | _ => none

/-- `HealthCheck.Do`; an agent sends its next heartbeat when the last one has ended. -/
def healthCheckDo (s : System) (ip : String) (now : Nat) : Option System :=
  let agent := get s.agents ip
  if agent.reply.isSome then none
  else match pop s.queues ip with
    | none => some { s with agents := set s.agents ip { agent with reply := some ⟨false, none, rfl⟩ } }
    | some (c, queues) => some { s with
        db := dropServerUpdate noFailure c.tid now DropServer.healthCheckUpdate s.db
        queues
        agents := set s.agents ip { agent with reply := some ⟨true, some c, rfl⟩ } }

def loseReply (s : System) (ip : String) : Option System :=
  let agent := get s.agents ip
  if agent.reply.isSome then some { s with agents := set s.agents ip { agent with reply := none } }
  else none

/-- `HeartbeatThread` receives the reply; a task that is already queued is dropped. -/
def heartbeatReply (s : System) (ip : String) : Option System :=
  let agent := get s.agents ip
  let received (agent : Agent) := some { s with agents := set s.agents ip agent }
  match agent.reply with
  | none => none
  | some ⟨true, some c, _⟩ =>
    if agent.queue.any (·.tid = c.tid) then received { agent with reply := none }
    else received { agent with reply := none, queue := agent.queue ++ [c] }
  | some _ => received { agent with reply := none }

/-- `WorkerThread` takes the next task; only a continuous one runs beside others. -/
def workerTake (s : System) (ip : String) : Option System :=
  let agent := get s.agents ip
  match agent.queue with
  | [] => none
  | c :: rest =>
    if agent.executions.all (·.copy.desc.taskType = 1) then
      some { s with agents := set s.agents ip { agent with
        queue := rest, executions := agent.executions ++ [⟨c, none, nofun⟩] } }
    else none

def recordEnds (s : System) (ip : String) (k : Nat) (outcome : Outcome) : Option System :=
  let agent := get s.agents ip
  match agent.executions[k]? with
  | some ⟨c, none, _⟩ => some { s with agents := set s.agents ip { agent with
      executions := agent.executions.set k (.reporting c outcome) } }
  | _ => none

def applyReport (result : TaskResult) (now : Nat) (db : Tables) : Tables :=
  (DropServer.notifyResultUpdates result).foldl
    (fun db update => dropServerUpdate noFailure result.taskId now update db) db

/-- drop_server's `Hotmethod.NotifyResult`; the agent goes on whatever the reply. -/
def notifyResult (s : System) (ip : String) (k : Nat) (now : Nat) : Option System :=
  let agent := get s.agents ip
  match agent.executions[k]? with
  | some ⟨_, some result, _⟩ => some { s with
      db := applyReport result now s.db
      agents := set s.agents ip { agent with executions := agent.executions.eraseIdx k } }
  | _ => none

def loseReport (s : System) (ip : String) (k : Nat) : Option System :=
  let agent := get s.agents ip
  match agent.executions[k]? with
  | some ⟨_, some _, _⟩ => some { s with agents := set s.agents ip { agent with
      executions := agent.executions.eraseIdx k } }
  | _ => none

inductive Action
  | createTask (creation : Creation) (randBytes : Fin 12 → UInt8) (now : Nat)
  | retryTask (tid uid : String) (req : CreateTaskReq)
  | retrySelect (j : Nat)
  | retryCommit (j now : Nat)
  | serverCreateTask (i : Nat)
  | dispatchReply (i : Nat)
  | dispatchError (i : Nat) (error : String)
  | failureSelect (i : Nat)
  | failureCommit (i now : Nat)
  | healthCheckDo (ip : String) (now : Nat)
  | loseReply (ip : String)
  | heartbeatReply (ip : String)
  | workerTake (ip : String)
  | recordEnds (ip : String) (k : Nat) (outcome : Outcome)
  | notifyResult (ip : String) (k now : Nat)
  | loseReport (ip : String) (k : Nat)

def step (s : System) : Action → Option System
  | .createTask creation randBytes now => some (createTask s creation (genTID randBytes) now)
  | .retryTask tid uid req => some (retryTask s tid uid req)
  | .retrySelect j => retrySelect s j
  | .retryCommit j now => retryCommit s j now
  | .serverCreateTask i => serverCreateTask s i
  | .dispatchReply i => dispatchReply s i
  | .dispatchError i error => dispatchError s i error
  | .failureSelect i => failureSelect s i
  | .failureCommit i now => failureCommit s i now
  | .healthCheckDo ip now => healthCheckDo s ip now
  | .loseReply ip => loseReply s ip
  | .heartbeatReply ip => heartbeatReply s ip
  | .workerTake ip => workerTake s ip
  | .recordEnds ip k outcome => recordEnds s ip k outcome
  | .notifyResult ip k now => notifyResult s ip k now
  | .loseReport ip k => loseReport s ip k

/-- Everything that a step can do, with what it rests on. -/
inductive Move (s : System) : Action → System → Prop
  | createRefused {creation : Creation} {randBytes : Fin 12 → UInt8} {now : Nat}
      (known : genTID randBytes ∈ s.db.tasks.map (·.tid)) :
    Move s (.createTask creation randBytes now) s
  | createTask {creation : Creation} {randBytes : Fin 12 → UInt8} {now : Nat}
      (fresh : genTID randBytes ∉ s.db.tasks.map (·.tid)) :
    Move s (.createTask creation randBytes now)
      (dispatchTask { s with db := create creation (genTID randBytes) now true true s.db }
        (genTID randBytes) creation.request)
  | retryRefused {tid uid : String} {req : CreateTaskReq} : Move s (.retryTask tid uid req) s
  | retryTask {tid uid : String} {req : CreateTaskReq} {task : HotmethodTask}
      (found : failedTask s.db tid uid = some task) :
    Move s (.retryTask tid uid req)
      { s with retries := s.retries ++ [(s.retries.length, ⟨tid, req, .found⟩)] }
  | retrySelect {j : Nat} (found : (get s.retries j).phase = .found) (phase : RetryPhase) :
    Move s (.retrySelect j) { s with retries := set s.retries j { get s.retries j with phase } }
  | retryCommit {j now : Nat} {oldStatus : Int}
      (selected : (get s.retries j).phase = .selected oldStatus) :
    Move s (.retryCommit j now) (dispatchTask { s with
      db := commitStatus s.db (get s.retries j).tid oldStatus taskStatusPending "用户触发重试" now
      retries := set s.retries j { get s.retries j with phase := .ended } }
        (get s.retries j).tid (get s.retries j).req)
  | serverCreateTask {i : Nat} (unprocessed : (get s.calls i).processed = false) :
    Move s (.serverCreateTask i) { s with
      queues := push s.queues (get s.calls i).targetIP (get s.calls i).copy
      calls := set s.calls i { get s.calls i with processed := true } }
  | dispatchReply {i : Nat} (processed : (get s.calls i).processed = true)
      (waits : (get s.calls i).client = .waiting) :
    Move s (.dispatchReply i) (setClient s i .returned)
  | dispatchError {i : Nat} {error : String} (waits : (get s.calls i).client = .waiting)
      (reason : String) :
    Move s (.dispatchError i error) (setClient s i (.failed reason))
  | failureRefused {i : Nat} {reason : String} (failed : (get s.calls i).client = .failed reason)
      (refused : selectStatus s.db (get s.calls i).copy.tid taskStatusFailed = none) :
    Move s (.failureSelect i) (setClient s i .returned)
  | failureSelect {i : Nat} {reason : String} {oldStatus : Int}
      (failed : (get s.calls i).client = .failed reason)
      (selected : selectStatus s.db (get s.calls i).copy.tid taskStatusFailed = some oldStatus) :
    Move s (.failureSelect i) (setClient s i (.selected reason oldStatus))
  | failureCommit {i now : Nat} {reason : String} {oldStatus : Int}
      (selected : (get s.calls i).client = .selected reason oldStatus) :
    Move s (.failureCommit i now) (setClient { s with
      db := commitStatus s.db (get s.calls i).copy.tid oldStatus taskStatusFailed reason now }
        i .returned)
  | healthCheckEmpty {ip : String} {now : Nat} (idle : (get s.agents ip).reply = none)
      (empty : pop s.queues ip = none) :
    Move s (.healthCheckDo ip now) { s with
      agents := set s.agents ip { get s.agents ip with reply := some ⟨false, none, rfl⟩ } }
  | healthCheckDo {ip : String} {now : Nat} {c : Copy} {rest : List Copy}
      (idle : (get s.agents ip).reply = none) (held : get s.queues ip = c :: rest) :
    Move s (.healthCheckDo ip now) { s with
      db := dropServerUpdate noFailure c.tid now DropServer.healthCheckUpdate s.db
      queues := set s.queues ip rest
      agents := set s.agents ip { get s.agents ip with reply := some ⟨true, some c, rfl⟩ } }
  | loseReply {ip : String} (waits : (get s.agents ip).reply.isSome) :
    Move s (.loseReply ip) { s with
      agents := set s.agents ip { get s.agents ip with reply := none } }
  | heartbeatEmpty {ip : String} {reply : HealthCheckResponse}
      (carried : (get s.agents ip).reply = some reply) (none : reply.taskDesc = none) :
    Move s (.heartbeatReply ip) { s with
      agents := set s.agents ip { get s.agents ip with reply := Option.none } }
  | heartbeatDrop {ip : String} {c : Copy}
      (carried : (get s.agents ip).reply = some ⟨true, some c, rfl⟩)
      (twin : (get s.agents ip).queue.any (·.tid = c.tid) = true) :
    Move s (.heartbeatReply ip) { s with
      agents := set s.agents ip { get s.agents ip with reply := none } }
  | heartbeatReply {ip : String} {c : Copy}
      (carried : (get s.agents ip).reply = some ⟨true, some c, rfl⟩)
      (alone : (get s.agents ip).queue.any (·.tid = c.tid) = false) :
    Move s (.heartbeatReply ip) { s with
      agents := set s.agents ip { get s.agents ip with
        reply := none, queue := (get s.agents ip).queue ++ [c] } }
  | workerTake {ip : String} {c : Copy} {rest : List Copy}
      (held : (get s.agents ip).queue = c :: rest) {named : ∀ result ∈ none, _} :
    Move s (.workerTake ip) { s with
      agents := set s.agents ip { get s.agents ip with
        queue := rest, executions := (get s.agents ip).executions ++ [⟨c, none, named⟩] } }
  | recordEnds {ip : String} {k : Nat} {outcome : Outcome} {c : Copy}
      {named : ∀ result ∈ none, _}
      (there : (get s.agents ip).executions[k]? = some ⟨c, none, named⟩) :
    Move s (.recordEnds ip k outcome) { s with
      agents := set s.agents ip { get s.agents ip with
        executions := (get s.agents ip).executions.set k (.reporting c outcome) } }
  | notifyResult {ip : String} {k now : Nat} {c : Copy} {result : TaskResult}
      {named : ∀ sent ∈ some result, _}
      (there : (get s.agents ip).executions[k]? = some ⟨c, some result, named⟩) :
    Move s (.notifyResult ip k now) { s with
      db := applyReport result now s.db
      agents := set s.agents ip { get s.agents ip with
        executions := (get s.agents ip).executions.eraseIdx k } }
  | loseReport {ip : String} {k : Nat} {execution : Execution}
      (there : (get s.agents ip).executions[k]? = some execution) :
    Move s (.loseReport ip k) { s with
      agents := set s.agents ip { get s.agents ip with
        executions := (get s.agents ip).executions.eraseIdx k } }

theorem move_of_step {s t : System} {a : Action} (next : step s a = some t) : Move s a t := by
  cases a with
  | createTask creation randBytes now =>
    rw [← Option.some.inj next, createTask]
    split_ifs with known
    · exact .createRefused known
    · exact .createTask known
  | retryTask tid uid req =>
    rw [← Option.some.inj next, retryTask]
    cases found : failedTask s.db tid uid with
    | none => exact .retryRefused
    | some task => exact .retryTask found
  | retrySelect j =>
    simp only [step, retrySelect, Option.ite_none_right_eq_some, Option.some.injEq] at next
    obtain ⟨found, rfl⟩ := next
    exact .retrySelect found _
  | retryCommit j now =>
    simp only [step, retryCommit] at next
    cases phase : (get s.retries j).phase with
    | selected oldStatus =>
      rw [phase] at next
      rw [← Option.some.inj next]
      exact .retryCommit phase
    | found | ended => simp [phase] at next
  | serverCreateTask i =>
    simp only [step, serverCreateTask] at next
    split_ifs at next with processed
    rw [← Option.some.inj next]
    exact .serverCreateTask (Bool.eq_false_iff.mpr processed)
  | dispatchReply i =>
    simp only [step, dispatchReply, Option.ite_none_right_eq_some, Option.some.injEq] at next
    obtain ⟨⟨processed, waits⟩, rfl⟩ := next
    exact .dispatchReply processed waits
  | dispatchError i error =>
    simp only [step, dispatchError, Option.ite_none_right_eq_some, Option.some.injEq] at next
    obtain ⟨waits, rfl⟩ := next
    exact .dispatchError waits _
  | failureSelect i =>
    simp only [step, failureSelect] at next
    cases client : (get s.calls i).client with
    | failed reason =>
      rw [client] at next
      rw [← Option.some.inj next]
      cases selected : selectStatus s.db (get s.calls i).copy.tid taskStatusFailed with
      | none => exact .failureRefused client selected
      | some oldStatus => exact .failureSelect client selected
    | waiting | selected | returned => simp [client] at next
  | failureCommit i now =>
    simp only [step, failureCommit] at next
    cases client : (get s.calls i).client with
    | selected reason oldStatus =>
      rw [client] at next
      rw [← Option.some.inj next]
      exact .failureCommit client
    | waiting | failed | returned => simp [client] at next
  | healthCheckDo ip now =>
    simp only [step, healthCheckDo] at next
    split_ifs at next with waits
    have idle : (get s.agents ip).reply = none := by simpa using waits
    cases popped : pop s.queues ip with
    | none =>
      rw [popped] at next
      rw [← Option.some.inj next]
      exact .healthCheckEmpty idle popped
    | some result =>
      obtain ⟨c, queues⟩ := result
      rw [popped] at next
      obtain ⟨rest, held, rfl⟩ := pop_some popped
      rw [← Option.some.inj next]
      exact .healthCheckDo idle held
  | loseReply ip =>
    simp only [step, loseReply, Option.ite_none_right_eq_some, Option.some.injEq] at next
    obtain ⟨waits, rfl⟩ := next
    exact .loseReply waits
  | heartbeatReply ip =>
    simp only [step, heartbeatReply] at next
    cases carried : (get s.agents ip).reply with
    | none => simp [carried] at next
    | some reply =>
      obtain ⟨pending, taskDesc, rfl⟩ := reply
      cases taskDesc with
      | none =>
        simp only [carried, Option.isSome_none, Option.some.injEq] at next
        rw [← next]
        exact .heartbeatEmpty carried rfl
      | some c =>
        simp only [carried, Option.isSome_some] at next
        split_ifs at next with twin
        · rw [← Option.some.inj next]
          exact .heartbeatDrop carried twin
        · rw [← Option.some.inj next]
          exact .heartbeatReply carried (Bool.eq_false_iff.mpr twin)
  | workerTake ip =>
    simp only [step, workerTake] at next
    cases held : (get s.agents ip).queue with
    | nil => simp [held] at next
    | cons c rest =>
      simp only [held, Option.ite_none_right_eq_some, Option.some.injEq] at next
      rw [← next.2]
      exact .workerTake held
  | recordEnds ip k outcome =>
    simp only [step, recordEnds] at next
    split at next
    · rename_i there
      rw [← Option.some.inj next]
      exact .recordEnds there
    · cases next
  | notifyResult ip k now =>
    simp only [step, notifyResult] at next
    split at next
    · rename_i there
      rw [← Option.some.inj next]
      exact .notifyResult there
    · cases next
  | loseReport ip k =>
    simp only [step, loseReport] at next
    split at next
    · rename_i there
      rw [← Option.some.inj next]
      exact .loseReport there
    · cases next

def initial : System := ⟨⟨[], []⟩, fun _ => 0, [], [], [], []⟩

def statusOf (db : Tables) (tid : String) : Option Int :=
  (db.tasks.find? (·.tid = tid)).map (·.status)

/-- The copy of a request that drop_server has yet to process, as long as its
`dispatchTask` has not returned. -/
def requestedCopies (call : DispatchCall) : List Copy :=
  if call.processed = false ∧ call.client ≠ .returned then [call.copy] else []

def Agent.copies (agent : Agent) : List Copy :=
  (agent.reply.bind (·.taskDesc)).toList ++ agent.queue ++ agent.executions.map (·.copy)

def phaseOf : Option Int → Phase
  | none => .absent
  | some status =>
    if status = taskStatusPending then .waiting
    else if status = taskStatusRunning then .taken
    else .over

/-- The system as a ledger: a request that drop_server has yet to process counts as a
waiting copy, everything from the reply of `Do` to the report as a taken one. -/
def ledger (s : System) : Ledger String Copy where
  phase tid := phaseOf (statusOf s.db tid)
  generation := s.attempts
  waiting := contents requestedCopies s.calls + contents id s.queues
  taken := contents Agent.copies s.agents

/-- What an action of the system means for the ledger. -/
def event (s : System) : Action → Event String Copy
  | .createTask creation randBytes _ =>
    let tid := genTID randBytes
    if tid ∈ s.db.tasks.map (·.tid) then .quiet
    else .accept (newCopy tid creation.request (s.attempts tid))
  | .retryCommit j _ =>
    let retry := get s.retries j
    .accept (newCopy retry.tid retry.req (s.attempts retry.tid))
  | .serverCreateTask i =>
    if (get s.calls i).client = .returned then .revive (get s.calls i).copy else .quiet
  | .failureSelect i =>
    let call := get s.calls i
    if call.processed = false ∧ selectStatus s.db call.copy.tid taskStatusFailed = none then
      .withdraw call.copy
    else .quiet
  | .failureCommit i _ =>
    let call := get s.calls i
    if call.processed then .cancel call.copy.tid else .withdraw call.copy
  | .healthCheckDo ip _ =>
    match pop s.queues ip with
    | none => .quiet
    | some (c, _) => .hand c
  | .loseReply ip =>
    match (get s.agents ip).reply.bind (·.taskDesc) with
    | none => .quiet
    | some c => .lose c
  | .heartbeatReply ip =>
    match (get s.agents ip).reply.bind (·.taskDesc) with
    | none => .quiet
    | some c => if (get s.agents ip).queue.any (·.tid = c.tid) then .merge c else .quiet
  | .notifyResult ip k _ =>
    match (get s.agents ip).executions[k]? with
    | some ⟨c, some result, _⟩ => .report c (result.errorMessage = "")
    | _ => .quiet
  | .loseReport ip k =>
    match (get s.agents ip).executions[k]? with
    | some execution => .lose execution.copy
    | none => .quiet
  | .retryTask _ _ _ | .retrySelect _ | .dispatchReply _ | .dispatchError _ _ | .workerTake _
  | .recordEnds _ _ _ => .quiet

end DropPlatform.TaskDispatch
