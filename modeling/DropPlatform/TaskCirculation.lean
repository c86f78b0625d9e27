import DropPlatform.TaskDispatch

/-! What is still under way for tasks: the copies that can reach an agent or are with one,
and the rows that a new copy can be made from. A property of the keys of all these copies
is kept by every step if it holds of new keys and of the rows that are not deleted. -/

namespace DropPlatform.TaskCirculation
open TransitionRuns TaskStore TaskLifecycle KeyedStores TaskDispatch

section copies
variable {R : String → Prop} {s t : System}

/-- Every copy of a task that can still reach an agent, or is with one, and every retry that
can still make one, is of a task with the property. -/
structure Carries (R : String → Prop) (s : System) : Prop where
  calls : All (fun call => call.processed = false → R call.copy.tid) s.calls
  retries : All (fun retry => retry.phase ≠ .ended → R retry.tid) s.retries
  queues : All (fun queue => ∀ c ∈ queue, R c.tid) s.queues
  agents : All (fun agent => ∀ c ∈ agent.copies, R c.tid) s.agents

theorem Carries.call (carries : Carries R s) (i : Nat)
    (pending : (get s.calls i).processed = false) : R (get s.calls i).copy.tid :=
  carries.calls.get (fun h => absurd h (by decide)) i pending

theorem Carries.retry (carries : Carries R s) (j : Nat)
    (going : (get s.retries j).phase ≠ .ended) : R (get s.retries j).tid :=
  carries.retries.get (fun h => absurd rfl h) j going

theorem Carries.agent (carries : Carries R s) (ip : String) :
    ∀ c ∈ (get s.agents ip).copies, R c.tid :=
  carries.agents.get (fun _ member => absurd member List.not_mem_nil) ip

theorem Carries.queue (carries : Carries R s) (ip : String) : ∀ c ∈ get s.queues ip, R c.tid :=
  carries.queues.get (fun _ member => absurd member List.not_mem_nil) ip

theorem Carries.setClient (carries : Carries R s) (i : Nat) (client : ClientPhase) {db : Tables} :
    Carries R (setClient { s with db } i client) :=
  ⟨carries.calls.set (v := { get s.calls i with client }) (fun pending => carries.call i pending) i,
    carries.retries, carries.queues, carries.agents⟩

theorem Carries.setRetry (carries : Carries R s) {j : Nat} {retry : RetryCall}
    (named : retry.phase ≠ .ended → R retry.tid) :
    Carries R { s with retries := set s.retries j retry } :=
  ⟨carries.calls, carries.retries.set named j, carries.queues, carries.agents⟩

theorem Carries.setDb (carries : Carries R s) (db : Tables) : Carries R { s with db } :=
  ⟨carries.calls, carries.retries, carries.queues, carries.agents⟩

theorem Carries.setAgent (carries : Carries R s) {ip : String} {agent : Agent}
    (fewer : ∀ c ∈ agent.copies, c ∈ (get s.agents ip).copies) {db : Tables} :
    Carries R { s with db, agents := set s.agents ip agent } :=
  ⟨carries.calls, carries.retries, carries.queues,
    carries.agents.set (fun c member => carries.agent ip c (fewer c member)) ip⟩

theorem mem_copies {agent : Agent} {c : Copy} :
    c ∈ agent.copies ↔
      agent.reply.bind (·.taskDesc) = some c ∨ c ∈ agent.queue ∨
        ∃ execution ∈ agent.executions, execution.copy = c := by
  simp [Agent.copies, Option.bind_eq_some_iff]

theorem Carries.dispatchTask (carries : Carries R s) {tid : String} (holds : R tid)
    (req : CreateTaskReq) {db : Tables} : Carries R (dispatchTask { s with db } tid req) := by
  refine ⟨fun entry member => ?_, carries.retries, carries.queues, carries.agents⟩
  rcases List.mem_append.mp member with old | new
  · exact carries.calls entry old
  · rw [List.mem_singleton.mp new]
    exact fun _ => holds

theorem Carries.serverCreateTask (carries : Carries R s) {i : Nat}
    (unprocessed : (get s.calls i).processed = false) :
    Carries R { s with
      queues := push s.queues (get s.calls i).targetIP (get s.calls i).copy
      calls := set s.calls i { get s.calls i with processed := true } } := by
  refine ⟨carries.calls.set (fun h => absurd h (by simp)) i, carries.retries,
    carries.queues.set (fun c member => ?_) _, carries.agents⟩
  rcases List.mem_append.mp member with old | new
  · exact carries.queue _ c old
  · rw [List.mem_singleton.mp new]
    exact carries.call i unprocessed

theorem Carries.healthCheckDo (carries : Carries R s) {ip : String} {c : Copy} {rest : List Copy}
    (held : get s.queues ip = c :: rest) {db : Tables} :
    Carries R { s with
      db
      queues := set s.queues ip rest
      agents := set s.agents ip { get s.agents ip with reply := some ⟨true, some c, rfl⟩ } } := by
  have here := carries.queue ip
  rw [held] at here
  refine ⟨carries.calls, carries.retries, carries.queues.set (fun d member => ?_) ip,
    carries.agents.set (fun d member => ?_) ip⟩
  · exact here d (List.mem_cons_of_mem c member)
  · rcases mem_copies.mp member with handed | old
    · rw [← Option.some.inj handed]
      exact here c List.mem_cons_self
    · exact carries.agent ip d (mem_copies.mpr (.inr old))

theorem Carries.setReply (carries : Carries R s) {ip : String} {reply : Option HealthCheckResponse}
    (empty : reply.bind (·.taskDesc) = none) :
    Carries R { s with agents := set s.agents ip { get s.agents ip with reply } } := by
  refine carries.setAgent fun c member => mem_copies.mpr (.inr ?_)
  refine (mem_copies.mp member).resolve_left fun handed => ?_
  exact Option.some_ne_none c (handed.symm.trans empty)

theorem Carries.heartbeatReply (carries : Carries R s) {ip : String} {c : Copy}
    (carried : (get s.agents ip).reply = some ⟨true, some c, rfl⟩) :
    Carries R { s with
      agents := set s.agents ip { get s.agents ip with
        reply := none, queue := (get s.agents ip).queue ++ [c] } } := by
  refine carries.setAgent fun d member => ?_
  rcases mem_copies.mp member with handed | queued | executed
  · contradiction
  · rcases List.mem_append.mp queued with old | new
    · exact mem_copies.mpr (.inr (.inl old))
    · refine mem_copies.mpr (.inl ?_)
      rw [List.mem_singleton.mp new, carried]
      rfl
  · exact mem_copies.mpr (.inr (.inr executed))

theorem Carries.workerTake (carries : Carries R s) {ip : String} {c : Copy} {rest : List Copy}
    (held : (get s.agents ip).queue = c :: rest) {named : ∀ result ∈ none, _} :
    Carries R { s with
      agents := set s.agents ip { get s.agents ip with
        queue := rest, executions := (get s.agents ip).executions ++ [⟨c, none, named⟩] } } := by
  refine carries.setAgent fun d member => ?_
  rcases mem_copies.mp member with handed | queued | ⟨execution, executed, same⟩
  · exact mem_copies.mpr (.inl handed)
  · exact mem_copies.mpr (.inr (.inl (held ▸ List.mem_cons_of_mem c queued)))
  · rcases List.mem_append.mp executed with old | new
    · exact mem_copies.mpr (.inr (.inr ⟨execution, old, same⟩))
    · rw [List.mem_singleton.mp new] at same
      exact mem_copies.mpr (.inr (.inl (by rw [held, ← same]; exact List.mem_cons_self)))

theorem Carries.setExecutions (carries : Carries R s) {ip : String} {executions : List Execution}
    (fewer : ∀ execution ∈ executions,
      ∃ old ∈ (get s.agents ip).executions, old.copy = execution.copy) {db : Tables} :
    Carries R { s with
      db, agents := set s.agents ip { get s.agents ip with executions := executions } } := by
  refine carries.setAgent fun c member => ?_
  rcases mem_copies.mp member with handed | queued | ⟨execution, executed, same⟩
  · exact mem_copies.mpr (.inl handed)
  · exact mem_copies.mpr (.inr (.inl queued))
  · obtain ⟨old, before, kept⟩ := fewer execution executed
    exact mem_copies.mpr (.inr (.inr ⟨old, before, kept.trans same⟩))

theorem Carries.recordEnds (carries : Carries R s) {ip : String} {k : Nat} {execution : Execution}
    (there : (get s.agents ip).executions[k]? = some execution) (outcome : Outcome) :
    Carries R { s with
      agents := set s.agents ip { get s.agents ip with
        executions := (get s.agents ip).executions.set k (.reporting execution.copy outcome) } } := by
  refine carries.setExecutions fun other member => ?_
  rcases List.mem_or_eq_of_mem_set member with old | rfl
  · exact ⟨other, old, rfl⟩
  · exact ⟨_, List.mem_of_getElem? there, rfl⟩

theorem Carries.eraseExecution (carries : Carries R s) (ip : String) (k : Nat) {db : Tables} :
    Carries R { s with db, agents := set s.agents ip { get s.agents ip with
      executions := (get s.agents ip).executions.eraseIdx k } } :=
  carries.setExecutions fun execution member => ⟨execution, List.mem_of_mem_eraseIdx member, rfl⟩

theorem failedTask_row {db : Tables} {tid uid : String} {task : HotmethodTask}
    (found : failedTask db tid uid = some task) :
    task ∈ db.tasks ∧ task.tid = tid ∧ task.deleted = false := by
  have matched := List.find?_some found
  simp only [decide_eq_true_eq] at matched
  exact ⟨List.mem_of_find?_eq_some found, matched.1, matched.2.2.2⟩

theorem Carries.step (carries : Carries R s)
    (fresh : ∀ randBytes, genTID randBytes ∉ s.db.tasks.map (·.tid) → R (genTID randBytes))
    (rows : ∀ task ∈ s.db.tasks, task.deleted = false → R task.tid) {a : TaskDispatch.Action}
    (next : TaskDispatch.step s a = some t) : Carries R t := by
  cases move_of_step next with
  | createRefused | retryRefused => exact carries
  | createTask unknown => exact carries.dispatchTask (fresh _ unknown) _
  | retryTask found =>
    obtain ⟨member, named, undeleted⟩ := failedTask_row found
    refine ⟨carries.calls, fun entry listed => ?_, carries.queues, carries.agents⟩
    rcases List.mem_append.mp listed with old | new
    · exact carries.retries entry old
    · rw [List.mem_singleton.mp new]
      exact fun _ => named ▸ rows _ member undeleted
  | retrySelect found _ =>
    have named := carries.retry _ (by rw [found]; exact RetryPhase.noConfusion)
    exact carries.setRetry fun _ => named
  | retryCommit selected =>
    have named := carries.retry _ (by rw [selected]; exact RetryPhase.noConfusion)
    exact (carries.setRetry fun going => absurd rfl going).dispatchTask named _
  | serverCreateTask unprocessed => exact carries.serverCreateTask unprocessed
  | dispatchReply | dispatchError | failureRefused | failureSelect | failureCommit =>
    exact carries.setClient _ _
  | healthCheckDo _ held => exact carries.healthCheckDo held
  | healthCheckEmpty | loseReply | heartbeatEmpty | heartbeatDrop => exact carries.setReply rfl
  | heartbeatReply carried _ => exact carries.heartbeatReply carried
  | workerTake held => exact carries.workerTake held
  | recordEnds there => exact carries.recordEnds there _
  | notifyResult | loseReport => exact carries.eraseExecution _ _

end copies

section marks

/-- The two columns that decide who may be handed a task again. -/
def marks (db : Tables) : List (String × Bool) := db.tasks.map fun task => (task.tid, task.deleted)

theorem marks_setTask (db : Tables) (tid : String) {f : HotmethodTask → HotmethodTask}
    (keeps : ∀ task, (f task).tid = task.tid ∧ (f task).deleted = task.deleted) :
    marks (db.setTask tid f) = marks db :=
  map_setTask (fun task => (task.tid, task.deleted)) db tid fun task =>
    Prod.ext (keeps task).1 (keeps task).2

theorem marks_transition {db db' : Tables} {tid reason : String}
    (transition : Transition db db' tid reason) : marks db' = marks db := by
  obtain ⟨task, _, newStatus, now, _, _, rfl⟩ := transition
  exact marks_setTask db tid fun _ => ⟨rfl, rfl⟩

theorem marks_commitStatus (db : Tables) (tid : String) (oldStatus newStatus : Int)
    (reason : String) (now : Nat) :
    marks (commitStatus db tid oldStatus newStatus reason now) = marks db := by
  refine marks_setTask db tid fun task => ?_
  split_ifs <;> exact ⟨rfl, rfl⟩

theorem marks_dropServer (fails : Statement → Bool) (tid : String) (now : Nat)
    (update : Int × String) (db : Tables) :
    marks (dropServerUpdate fails tid now update db) = marks db :=
  (dropServer_updateTaskStatus_cases fails db tid update.1 update.2 now).elim (congrArg marks)
    marks_transition

theorem marks_applyReport (result : TaskResult) (now : Nat) (db : Tables) :
    marks (applyReport result now db) = marks db := by
  rw [applyReport]
  induction DropServer.notifyResultUpdates result generalizing db with
  | nil => rfl
  | cons update updates ih =>
    rw [List.foldl_cons, ih]
    exact marks_dropServer noFailure result.taskId now update db

/-- A new row is not deleted, and its key is new. -/
def NewMark (old new : List (String × Bool)) : Prop :=
  ∃ randBytes, genTID randBytes ∉ old.map Prod.fst ∧ new = old ++ [(genTID randBytes, false)]

theorem tids_eq_marks (db : Tables) : db.tasks.map (·.tid) = (marks db).map Prod.fst := by
  rw [marks, List.map_map]
  rfl

theorem newMark_create {db : Tables} {randBytes : Fin 12 → UInt8}
    (fresh : genTID randBytes ∉ db.tasks.map (·.tid)) (creation : Creation) (now : Nat) :
    NewMark (marks db) (marks (create creation (genTID randBytes) now true true db)) := by
  refine ⟨randBytes, tids_eq_marks db ▸ fresh, ?_⟩
  simp [create, fresh, marks, Tables.addHistory]

theorem marks_dispatch {s t : System} {a : TaskDispatch.Action}
    (next : TaskDispatch.step s a = some t) :
    marks t.db = marks s.db ∨ NewMark (marks s.db) (marks t.db) := by
  cases move_of_step next with
  | createTask fresh => exact .inr (newMark_create fresh _ _)
  | retryCommit | failureCommit => exact .inl (marks_commitStatus _ _ _ _ _ _)
  | healthCheckDo => exact .inl (marks_dropServer _ _ _ _ _)
  | notifyResult => exact .inl (marks_applyReport _ _ _)
  | createRefused | retryRefused | retryTask | retrySelect | serverCreateTask | dispatchReply
  | dispatchError | failureRefused | failureSelect | healthCheckEmpty | loseReply | heartbeatEmpty
  | heartbeatDrop | heartbeatReply | workerTake | recordEnds | loseReport => exact .inl rfl

end marks

end DropPlatform.TaskCirculation
