import DropPlatform.DispatchRefinement
import DropPlatform.TaskQueues

/-! The handlers of drop_server that move tasks, `HealthCheck.Do` and
`Hotmethod.NotifyResult`, with everything that can go wrong in one call: the check of its
deadline, a missing database connection, and any statement of the status updates they make.
Neither handler looks at how these updates end. -/

namespace DropPlatform.DropServerRpcs
open TransitionRuns TaskStore TaskDispatch TaskQueues DispatchRefinement KeyedStores
open TaskLifecycle (CreateTaskReq Creation dropServerUpdate)

inductive StatusCode
  | ok | cancelled | deadlineExceeded
deriving DecidableEq, Repr

structure Status where
  code : StatusCode
  message : String
deriving DecidableEq, Repr

def Status.OK : Status := ⟨.ok, ""⟩

/-- What `CheckDeadline` sees of a call; times in ticks of the system clock. -/
structure ServerContext where
  isCancelled : Bool
  deadline : Int
  now : Int

def checkDeadline (ctx : ServerContext) : Status :=
  if ctx.isCancelled then ⟨.cancelled, "request cancelled by client"⟩
  else if ctx.deadline > 0 ∧ ctx.deadline < ctx.now then
    ⟨.deadlineExceeded, "request deadline exceeded"⟩
  else .OK

def updateIfConnected (connected : Bool) (fails : Statement → Bool) (tid : String) (now : Nat)
    (update : Int × String) (db : Tables) : Tables :=
  if connected then dropServerUpdate fails tid now update db else db

structure DoResult where
  status : Status
  response : HealthCheckResponse
  queue : TaskQueue Copy
  db : Tables

def noTask : HealthCheckResponse := ⟨false, none, rfl⟩

def handOut (c : Copy) : HealthCheckResponse := ⟨true, some c, rfl⟩

/-- `HealthCheck.Do`, less the bookkeeping about the agent. -/
def healthCheckDo (ctx : ServerContext) (connected : Bool) (fails : Statement → Bool)
    (ip : String) (now : Nat) (queue : TaskQueue Copy) (db : Tables) : DoResult :=
  if (checkDeadline ctx).code ≠ .ok then ⟨checkDeadline ctx, noTask, queue, db⟩
  else match queue.pop ip with
    | (none, queue) => ⟨.OK, noTask, queue, db⟩
    | (some c, queue) => ⟨.OK, handOut c, queue,
        updateIfConnected connected fails c.tid now DropServer.healthCheckUpdate db⟩

/-- `Hotmethod.NotifyResult`; `fails k` are the statements that fail in its `k`-th update. -/
def notifyResult (ctx : ServerContext) (connected : Bool) (fails : Nat → Statement → Bool)
    (result : TaskResult) (now : Nat → Nat) (db : Tables) : Status × Tables :=
  if (checkDeadline ctx).code ≠ .ok then (checkDeadline ctx, db)
  else (.OK, (DropServer.notifyResultUpdates result).zipIdx.foldl
    (fun db (update, k) =>
      updateIfConnected connected (fails k) result.taskId (now k) update db) db)

section updates
variable {fails : Statement → Bool} {db : Tables} {tid reason : String} {newStatus : Int} {now : Nat}

theorem dropServer_of_succeeds (ok : ∀ statement, fails statement = false) :
    DropServer.updateTaskStatus fails db tid newStatus reason now =
      updated db (cStr tid) newStatus (cStr reason) now := by
  have same : fails = noFailure := funext ok
  rw [same, dropServer_updates]

theorem dropServer_of_fails {statement : Statement} (bad : fails statement = true) :
    DropServer.updateTaskStatus fails db tid newStatus reason now = db := by
  unfold DropServer.updateTaskStatus
  cases result : DropServer.updateTaskStatusTx fails db tid newStatus reason now with
  | error message => rfl
  | ok after =>
    have all := dropServer_tx_succeeds result statement
    rw [bad] at all
    exact absurd all.symm Bool.false_ne_true

def committedStatus (db : Tables) (tid : String) : Option Int := statusOf db (cStr tid)

theorem committedStatus_of_succeeds (ok : ∀ statement, fails statement = false)
    (update : Int × String) :
    committedStatus (dropServerUpdate fails tid now update db) tid =
      (committedStatus db tid).map (nextStatus update.1) := by
  rw [committedStatus, dropServerUpdate, dropServer_of_succeeds ok, statusOf_updated,
    Function.update_self]
  rfl

theorem committedStatus_of_fails {statement : Statement} (bad : fails statement = true)
    (update : Int × String) :
    committedStatus (dropServerUpdate fails tid now update db) tid = committedStatus db tid := by
  rw [dropServerUpdate, dropServer_of_fails bad]

theorem committedStatus_update_iff {old : Int}
    (before : committedStatus db tid = some old) (other : old ≠ newStatus) :
    committedStatus (dropServerUpdate fails tid now (newStatus, reason) db) tid = some newStatus ↔
      Allowed old newStatus ∧ ∀ statement, fails statement = false := by
  by_cases ok : ∀ statement, fails statement = false
  · rw [committedStatus_of_succeeds ok, before, Option.map_some, Option.some.injEq, nextStatus]
    split_ifs with allowed
    · exact ⟨fun _ => ⟨allowed, ok⟩, fun _ => rfl⟩
    · exact ⟨fun same => absurd same other, fun both => absurd both.1 allowed⟩
  · obtain ⟨statement, bad⟩ := not_forall.mp ok
    rw [committedStatus_of_fails ((Bool.not_eq_false _).mp bad), before, Option.some.injEq]
    exact ⟨fun same => absurd same other, fun both => absurd both.2 ok⟩

end updates

section healthCheckDo
variable {ctx : ServerContext} {connected : Bool} {fails : Statement → Bool} {ip : String}
  {now : Nat} {queue : TaskQueue Copy} {db : Tables}

theorem healthCheckDo_response :
    (healthCheckDo ctx connected fails ip now queue db).response.taskDesc =
      if (checkDeadline ctx).code ≠ .ok then none else (view queue ip).head? := by
  rw [healthCheckDo, ← (pop_eq queue ip).1]
  split_ifs
  · rfl
  · cases queue.pop ip with
    | mk popped rest => cases popped <;> rfl

theorem healthCheckDo_db {c : Copy}
    (handed : c ∈ (healthCheckDo ctx connected fails ip now queue db).response.taskDesc) :
    (healthCheckDo ctx connected fails ip now queue db).db =
      updateIfConnected connected fails c.tid now DropServer.healthCheckUpdate db := by
  rw [healthCheckDo] at handed ⊢
  split_ifs at handed ⊢
  · contradiction
  · cases popped : queue.pop ip with
    | mk first rest =>
      rw [popped] at handed
      cases first with
      | none => contradiction
      | some d =>
        have same : d = c := Option.some.inj handed
        rw [← same]

theorem healthCheckDo_step (s : System) (ip : String) (now : Nat)
    (inTime : (checkDeadline ctx).code = .ok) :
    TaskDispatch.healthCheckDo s ip now =
      let agent := get s.agents ip
      let result := healthCheckDo ctx true noFailure ip now ⟨s.queues⟩ s.db
      if agent.reply.isSome then none
      else some { s with
        db := result.db
        queues := result.queue.queues
        agents := set s.agents ip { agent with reply := some result.response } } := by
  simp only [TaskDispatch.healthCheckDo, healthCheckDo, inTime, ne_eq, not_true_eq_false, if_false,
    pop_eq_keyed]
  cases KeyedStores.pop s.queues ip <;> rfl

/-- A task that is handed out was PENDING and is RUNNING now. -/
def HandsOutStarted (ctx : ServerContext) (fails : Statement → Bool) (ip : String) (now : Nat)
    (queue : TaskQueue Copy) (db : Tables) : Prop :=
  let result := healthCheckDo ctx true fails ip now queue db
  ∀ c ∈ result.response.taskDesc, committedStatus db c.tid = some taskStatusPending ∧
    committedStatus result.db c.tid = some taskStatusRunning

/-- For every queue and database and every pattern of failing statements: exactly if the task
at the head of the queue, when it is handed out, is still PENDING and its update goes through. -/
theorem handsOutStarted_iff : HandsOutStarted ctx fails ip now queue db ↔
    ((checkDeadline ctx).code = .ok → ∀ c ∈ (view queue ip).head?,
      committedStatus db c.tid = some taskStatusPending ∧
        ∀ statement, fails statement = false) := by
  have started : ∀ c ∈ (healthCheckDo ctx true fails ip now queue db).response.taskDesc,
      committedStatus db c.tid = some taskStatusPending →
      (committedStatus (healthCheckDo ctx true fails ip now queue db).db c.tid =
        some taskStatusRunning ↔ ∀ statement, fails statement = false) := by
    intro c handed pending
    rw [healthCheckDo_db handed]
    exact (committedStatus_update_iff pending (by decide)).trans (and_iff_right (by decide))
  have handed_iff : ∀ c, c ∈ (healthCheckDo ctx true fails ip now queue db).response.taskDesc ↔
      (checkDeadline ctx).code = .ok ∧ c ∈ (view queue ip).head? := by
    intro c
    rw [healthCheckDo_response]
    split_ifs with refused
    · simp [refused]
    · simp [not_not.mp refused]
  constructor
  · intro hands inTime c first
    have handed := (handed_iff c).mpr ⟨inTime, first⟩
    obtain ⟨pending, running⟩ := hands c handed
    exact ⟨pending, (started c handed pending).mp running⟩
  · intro fine c handed
    obtain ⟨inTime, first⟩ := (handed_iff c).mp handed
    obtain ⟨pending, ok⟩ := fine inTime c first
    exact ⟨pending, (started c handed pending).mpr ok⟩

def punctual : ServerContext := ⟨false, 0, 0⟩

/-- drop_server has queued the task, but its reply came too late for the apiserver. -/
def timedOutDispatch : List Action :=
  [.createTask (.createTask ⟨"cpu", 0, 0, "10.0.0.1", 1, 10, 99, "cpu"⟩ "u" "user")
     (fun _ => 0) 0,
   .serverCreateTask 0, .dispatchError 0 "context deadline exceeded", .failureSelect 0,
   .failureCommit 0 2]

theorem timedOutDispatch_hands_out_failed :
    ∃ s, Reaches step free initial s ∧
      ¬ HandsOutStarted punctual noFailure "10.0.0.1" 3 ⟨s.queues⟩ s.db := by
  refine ⟨_, reaches_of_execute timedOutDispatch rfl, ?_⟩
  intro hands
  have pending := (hands _ rfl).1
  exact absurd pending (by decide)

end healthCheckDo

section notifyResult
variable {ctx : ServerContext} {connected : Bool} {fails : Nat → Statement → Bool}
  {result : TaskResult} {now : Nat → Nat} {db : Tables}

theorem notifyResult_applies (inTime : (checkDeadline ctx).code = .ok) (time : Nat) :
    notifyResult ctx true (fun _ => noFailure) result (fun _ => time) db =
      (.OK, applyReport result time db) := by
  simp only [notifyResult, inTime, ne_eq, not_true_eq_false, if_false, applyReport,
    DropServer.notifyResultUpdates]
  split_ifs <;> rfl

theorem notifyResult_success (inTime : (checkDeadline ctx).code = .ok)
    (success : result.errorMessage = "") (fails : Nat → Statement → Bool) (now : Nat → Nat)
    (db : Tables) : ∃ reason, notifyResult ctx true fails result now db =
      (.OK, dropServerUpdate (fails 1) result.taskId (now 1) (taskStatusDone, reason)
        (dropServerUpdate (fails 0) result.taskId (now 0)
          (taskStatusUploading, "采集完成，开始上传结果") db)) := by
  simp only [notifyResult, inTime, ne_eq, not_true_eq_false, if_false,
    DropServer.notifyResultUpdates, success, if_true]
  exact ⟨_, rfl⟩

/-- A success report leaves the task RUNNING or DONE, and is acknowledged only if DONE. -/
def AppliedCompletely (ctx : ServerContext) (connected : Bool) (fails : Nat → Statement → Bool)
    (result : TaskResult) (now : Nat → Nat) (db : Tables) : Prop :=
  let (status, after) := notifyResult ctx connected fails result now db
  (committedStatus after result.taskId = some taskStatusRunning ∨
    committedStatus after result.taskId = some taskStatusDone) ∧
    (status.code = .ok → committedStatus after result.taskId = some taskStatusDone)

theorem appliedCompletely_of_ok {after : Tables}
    (acknowledged : notifyResult ctx connected fails result now db = (.OK, after)) :
    AppliedCompletely ctx connected fails result now db ↔
      committedStatus after result.taskId = some taskStatusDone := by
  simp only [AppliedCompletely, acknowledged]
  exact ⟨fun both => both.2 rfl, fun done => ⟨.inr done, fun _ => done⟩⟩

theorem notifyResult_disconnected (inTime : (checkDeadline ctx).code = .ok) :
    notifyResult ctx false fails result now db = (.OK, db) := by
  simp [notifyResult, inTime, updateIfConnected]

theorem done_iff {first second : Statement → Bool} {tid reason reason' : String}
    {time time' : Nat} (running : committedStatus db tid = some taskStatusRunning) :
    committedStatus (dropServerUpdate second tid time' (taskStatusDone, reason')
      (dropServerUpdate first tid time (taskStatusUploading, reason) db)) tid =
        some taskStatusDone ↔
      (∀ statement, first statement = false) ∧ ∀ statement, second statement = false := by
  by_cases fine : ∀ statement, first statement = false
  · have reached : committedStatus (dropServerUpdate first tid time
        (taskStatusUploading, reason) db) tid = some taskStatusUploading :=
      (committedStatus_update_iff running (by decide)).mpr ⟨by decide, fine⟩
    rw [committedStatus_update_iff reached (by decide)]
    exact ⟨fun both => ⟨fine, both.2⟩, fun both => ⟨by decide, both.2⟩⟩
  · obtain ⟨statement, bad⟩ := not_forall.mp fine
    have still : committedStatus (dropServerUpdate first tid time
        (taskStatusUploading, reason) db) tid = some taskStatusRunning :=
      (committedStatus_of_fails ((Bool.not_eq_false _).mp bad) _).trans running
    rw [committedStatus_update_iff still (by decide)]
    exact ⟨fun both => absurd both.1 (by decide), fun both => absurd both.1 fine⟩

/-- For every running task and every success report: exactly if the call is turned away at
its deadline check, or there is a connection and no statement of either update fails. -/
theorem appliedCompletely_iff (running : committedStatus db result.taskId = some taskStatusRunning)
    (success : result.errorMessage = "") :
    AppliedCompletely ctx connected fails result now db ↔
      (checkDeadline ctx).code ≠ .ok ∨ connected ∧
        (∀ statement, fails 0 statement = false) ∧ ∀ statement, fails 1 statement = false := by
  by_cases inTime : (checkDeadline ctx).code = .ok
  swap
  · have turnedAway : notifyResult ctx connected fails result now db = (checkDeadline ctx, db) :=
      if_pos inTime
    simp [AppliedCompletely, turnedAway, running, inTime]
  rw [or_iff_right (not_not.mpr inTime)]
  cases connected with
  | false =>
    rw [appliedCompletely_of_ok (notifyResult_disconnected inTime), running]
    exact ⟨fun done => absurd done (by decide), fun both => absurd both.1 Bool.false_ne_true⟩
  | true =>
    obtain ⟨reason, applied⟩ := notifyResult_success inTime success fails now db
    rw [appliedCompletely_of_ok applied, done_iff running]
    exact (and_iff_right rfl).symm

def runningTask : Tables := ⟨[blankTask "t" taskStatusRunning], []⟩

def emptyReport : TaskResult := ⟨"t", "", "", ""⟩

def secondCommit (k : Nat) (statement : Statement) : Bool := k = 1 ∧ statement = .commit

theorem appliedCompletely_iff_emptyReport :
    committedStatus runningTask "t" = some taskStatusRunning ∧
      AppliedCompletely punctual true (fun _ => noFailure) emptyReport (fun _ => 0) runningTask :=
  ⟨by decide, (appliedCompletely_iff (by decide) rfl).mpr
    (.inr ⟨rfl, fun _ => rfl, fun _ => rfl⟩)⟩

theorem secondCommit_leaves_uploading :
    ¬ AppliedCompletely punctual true secondCommit emptyReport (fun _ => 0) runningTask := by
  intro applied
  exact absurd (applied.2 rfl) (by decide)

end notifyResult

end DropPlatform.DropServerRpcs
