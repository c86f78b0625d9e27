import DropPlatform.AgentThreads

/-! The threads of drop_agent against the agent of the dispatch model, in which a reply is
processed and a task is taken in one step each. Every step that a thread takes is one of those
steps or changes nothing there, so what holds of dispatched tasks holds of the threads. -/

namespace DropPlatform.AgentRefinement
open TransitionRuns KeyedStores AgentThreads
open TaskDispatch (Agent Copy Execution HealthCheckResponse System)

variable {logs : State → Thread → Bool} {s t : State} {a : Action} {sys : System} {ip : String}
  {now : Nat} {arrives : Bool}

/-- The reply counts as unprocessed until its task is in the queue or dropped. -/
def replyOf : HeartbeatAt → Option HealthCheckResponse
  | .offering c | .checking c => some ⟨true, some c, rfl⟩
  | _ => none

def agentOf (s : State) : Agent := ⟨replyOf s.heartbeat, s.queue, s.executions⟩

/-- A task comes with a reply only if drop_server has it next in the queue of the address. -/
def Handed (sys : System) (ip : String) (a : Action) : Prop :=
  ∀ c, a = .heartbeatReply (some c) → ∃ rest, pop sys.queues ip = some (c, rest)

/-- The action of the dispatch model that a step of a thread is. The agent goes on whether or
not its report arrives, and nobody else sees the steps without an action. -/
def dispatchAction (ip : String) (now : Nat) (arrives : Bool) (s : State) :
    Action → Option TaskDispatch.Action
  | .heartbeatReply (some _) => some (.healthCheckDo ip now)
  | .heartbeatCheck => some (.heartbeatReply ip)
  | .workerCheck => if s.queue = [] then none else some (.workerTake ip)
  | .recordEnds k outcome => some (.recordEnds ip k outcome)
  | .reportEnds k => some (if arrives then .notifyResult ip k now else .loseReport ip k)
  | _ => none

def Answers (sys : System) (ip : String) (b : Option TaskDispatch.Action) (agent : Agent) : Prop :=
  (b.elim (some sys) (TaskDispatch.step sys)).map (get ·.agents ip) = some agent

section steps
variable (coupled : get sys.agents ip = agentOf s)

include coupled

theorem answers_quiet (same : agentOf t = agentOf s) : Answers sys ip none (agentOf t) :=
  congrArg some (coupled.trans same.symm)

theorem answers_reply (at_ : s.heartbeat = .calling) {c : Copy}
    {rest : Keyed String (List Copy)} (handed : pop sys.queues ip = some (c, rest)) :
    Answers sys ip (some (.healthCheckDo ip now)) (agentOf { s with heartbeat := .offering c }) := by
  simp [Answers, TaskDispatch.step, TaskDispatch.healthCheckDo, coupled, agentOf, replyOf, at_,
    handed, get_set]

theorem answers_drop {c : Copy} (at_ : s.heartbeat = .checking c)
    (found : s.queue.any (·.tid = c.tid) = true) :
    Answers sys ip (some (.heartbeatReply ip))
      (agentOf { s with holder := none, heartbeat := .sleeping }) := by
  simp only [Answers, Option.elim_some, TaskDispatch.step, TaskDispatch.heartbeatReply, coupled,
    agentOf, replyOf, at_, found, if_true, Option.map_some, get_set]

theorem answers_push {c : Copy} (at_ : s.heartbeat = .checking c)
    (found : s.queue.any (·.tid = c.tid) = false) :
    Answers sys ip (some (.heartbeatReply ip)) (agentOf { s with
      holder := none, heartbeat := .notifying
      queue := s.queue ++ [c], accepted := s.accepted ++ [c] }) := by
  simp only [Answers, Option.elim_some, TaskDispatch.step, TaskDispatch.heartbeatReply, coupled,
    agentOf, replyOf, at_, found, Bool.false_eq_true, if_false, Option.map_some, get_set, if_true]

theorem answers_take (inv : Inv s) (at_ : s.worker = .checking) {c : Copy} {rest : List Copy}
    (next : s.queue = c :: rest) {execution : Execution} (copy : execution.copy = c)
    (fresh : execution.report = none) :
    Answers sys ip (some (.workerTake ip)) (agentOf { s with
      holder := none, worker := .working c, queue := rest
      executions := s.executions ++ [execution], taken := s.taken ++ [c] }) := by
  have idle : s.executions.all (·.copy.desc.taskType = 1) = true := by
    have none := inv.single
    rw [at_] at none
    have all := List.filter_eq_nil_iff.mp (List.perm_nil.mp none)
    simp only [List.all_eq_true, decide_eq_true_eq]
    intro other listed
    by_contra single
    exact all other.copy (List.mem_map_of_mem listed) (decide_eq_true single)
  obtain ⟨_, _, named⟩ := execution
  subst copy fresh
  simp only [Answers, Option.elim_some, TaskDispatch.step, TaskDispatch.workerTake, coupled,
    agentOf, next, idle, if_true, Option.map_some, get_set]

theorem answers_record {k : Nat} {execution : Execution}
    (entry : s.executions[k]? = some execution) (unfinished : execution.report = none)
    (outcome : TaskDispatch.Outcome) :
    Answers sys ip (some (.recordEnds ip k outcome)) (agentOf
      { s with executions := s.executions.set k (.reporting execution.copy outcome) }) := by
  obtain ⟨_, _, named⟩ := execution
  subst unfinished
  simp only [Answers, Option.elim_some, TaskDispatch.step, TaskDispatch.recordEnds, coupled,
    agentOf, entry, Option.map_some, get_set, if_true]

theorem answers_report {k : Nat} {execution : Execution} {worker : WorkerAt}
    (entry : s.executions[k]? = some execution) (finished : execution.report.isSome) :
    Answers sys ip (some (if arrives then .notifyResult ip k now else .loseReport ip k))
      (agentOf { s with
        executions := s.executions.eraseIdx k
        reported := s.reported ++ [execution.copy], worker := worker }) := by
  obtain ⟨_, report, named⟩ := execution
  obtain ⟨result, rfl⟩ := Option.isSome_iff_exists.mp finished
  cases arrives with
  | true =>
    simp only [Answers, Option.elim_some, TaskDispatch.step, TaskDispatch.notifyResult, coupled,
      agentOf, entry, Option.map_some, get_set, if_true]
  | false =>
    simp only [Answers, Option.elim_some, TaskDispatch.step, TaskDispatch.loseReport, coupled,
      agentOf, entry, Option.map_some, get_set, if_true, Bool.false_eq_true, if_false]

end steps

/-- From every reachable state, and whatever the rest of the system is doing: a step of a
thread is the action of the dispatch model that `dispatchAction` names, or one that the dispatch
model does not see. -/
theorem threads_refine_dispatch (run : Reaches (step logs) free start s)
    (next : step logs s a = some t) (coupled : get sys.agents ip = agentOf s)
    (handed : Handed sys ip a) (now : Nat) (arrives : Bool) :
    Answers sys ip (dispatchAction ip now arrives s a) (agentOf t) := by
  have inv := inv_of_reaches run
  obtain ⟨_, _, move⟩ := step_cases next
  cases move with
  | heartbeatReply at_ task =>
    cases task with
    | none => exact answers_quiet coupled (by simp [agentOf, at_, replyOf])
    | some c =>
      obtain ⟨rest, popped⟩ := handed c rfl
      exact answers_reply coupled at_ popped
  | heartbeatDrop at_ found => exact answers_drop coupled at_ found
  | heartbeatPush at_ found => exact answers_push coupled at_ found
  | workerRests at_ empty =>
    rw [dispatchAction, if_pos empty]
    exact answers_quiet coupled rfl
  | workerTakes at_ queued copy fresh =>
    rw [dispatchAction, if_neg (by rw [queued]; exact List.cons_ne_nil _ _)]
    exact answers_take coupled inv at_ queued copy fresh
  | recordEnds entry unfinished outcome => exact answers_record coupled entry unfinished outcome
  | reportEnds entry finished => exact answers_report coupled entry finished
  | heartbeatTop at_ =>
    refine answers_quiet coupled ?_
    simp only [agentOf, at_]
    split_ifs <;> rfl
  | heartbeatLock at_ _ | heartbeatNotify at_ | heartbeatWake at_ =>
    exact answers_quiet coupled (by simp [agentOf, at_, replyOf])
  | workerLock | workerWake | workerDetach | signal | handlerLog | handlerLock | handlerSet
  | handlerNotify | mainReturns => exact answers_quiet coupled rfl

theorem threads_refine_dispatch_push :
    ∃ s t, Reaches (step logged) free start s ∧ step logged s .heartbeatCheck = some t ∧
      t.queue = [perfTask] ∧
      Answers { TaskDispatch.initial with agents := [("10.0.0.1", agentOf s)] } "10.0.0.1"
        (some (.heartbeatReply "10.0.0.1")) (agentOf t) := by
  have run : Reaches (step logged) free start _ :=
    reaches_of_execute [.heartbeatTop, .heartbeatReply (some perfTask), .heartbeatLock] rfl
  refine ⟨_, _, run, rfl, rfl,
    threads_refine_dispatch (a := .heartbeatCheck) run rfl rfl (fun c other => ?_) 0 true⟩
  cases other

end DropPlatform.AgentRefinement
