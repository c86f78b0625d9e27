import DropPlatform.NlIntent
import DropPlatform.ScheduleFirings

/-! The apiserver without a connection to drop_server: `grpcCC` is nil from the start, so
what stands behind `grpcCC != nil` is never run. The four operations that put a task into
PENDING are taken as a whole, with every database statement successful. -/

namespace DropPlatform.Disconnected
open TransitionRuns TaskStore Schedules
open TaskLifecycle (CreateTaskReq Creation)
open ScheduleFirings (updateSubTIDs creationOf)

/-- The rows that the operations work on; `tid` has a unique index. -/
structure Database where
  schedules : List MultiTasks
  tables : Tables
  unique : (tables.tasks.map (·.tid)).Nodup

def empty : Database := ⟨[], ⟨[], []⟩, List.nodup_nil⟩

theorem nodup_updateTaskStatus {db : Tables} (unique : (db.tasks.map (·.tid)).Nodup)
    (tid : String) (newStatus : Int) (reason : String) (now : Nat) :
    ((Apiserver.updateTaskStatus noFailure db tid newStatus reason now).tasks.map
      (·.tid)).Nodup := by
  rcases apiserver_updateTaskStatus_cases noFailure db tid newStatus reason now with same | change
  · rw [same]
    exact unique
  · rw [change.tids]
    exact unique

def Database.create (d : Database) (creation : Creation) (tid : String) (now : Nat) : Database where
  schedules := d.schedules
  tables := TaskLifecycle.create creation tid now true true d.tables
  unique := TaskLifecycle.nodup_create d.unique creation tid now true true

def Database.updateTaskStatus (d : Database) (tid : String) (newStatus : Int) (reason : String)
    (now : Nat) : Database where
  schedules := d.schedules
  tables := Apiserver.updateTaskStatus noFailure d.tables tid newStatus reason now
  unique := nodup_updateTaskStatus d.unique tid newStatus reason now

def Database.Known (d : Database) (tid : String) : Prop := tid ∈ d.tables.tasks.map (·.tid)

instance decidableKnown (d : Database) (tid : String) : Decidable (d.Known tid) :=
  inferInstanceAs (Decidable (_ ∈ _))

/-- One request or firing; `now` is the time of the insert, `later` that of the update. -/
inductive Operation
  | createTask (req : CreateTaskReq) (uid userName : String) (randBytes : Fin 12 → UInt8)
      (now later : Nat)
  /-- `answer` is that of the parser script, `title` the message cut to 100 bytes. -/
  | nlChat (message tid : String) (answer : Option NlIntent.ParserAnswer)
      (title uid userName : String) (randBytes : Fin 12 → UInt8) (now : Nat)
  | retryTask (tid uid : String) (now : Nat)
  | dispatchContinuousTask (mtTid : String) (randBytes : Fin 12 → UInt8) (now later : Nat)

section operations
variable (columns : Columns) (d : Database)

def createTask (req : CreateTaskReq) (uid userName tid : String) (now later : Nat) : Database :=
  if d.Known tid then d
  else
    let d := d.create (.createTask req uid userName) tid now
    let reason := "gRPC connection unavailable, cannot dispatch task to drop_server"
    d.updateTaskStatus tid taskStatusFailed reason later

/-- A message about an existing task is answered from the tables; for any other one there
is a new task, and nothing else is done without a connection. -/
def nlChat (message tid : String) (answer : Option NlIntent.ParserAnswer)
    (title uid userName newTid : String) (now : Nat) : Database :=
  if TaskReads.validMessage message = false then d
  else if tid ≠ "" then d
  else d.create (NlIntent.nlChat answer message title uid userName) newTid now

/-- The task is looked up by its owner and status, then put back to PENDING. -/
def retryTask (tid uid : String) (now : Nat) : Database :=
  match failedTask d.tables tid uid with
  | none => d
  | some _ => d.updateTaskStatus tid taskStatusPending "用户触发重试" now

def dispatchContinuousTask (mtTid tid : String) (now later : Nat) : Database :=
  match firstWhere columns d.schedules "tid" mtTid with
  | none => d
  | some mt =>
    if mt.enabled = false ∨ d.Known tid then d
    else
      let d := d.create (creationOf mt) tid now
      let d := { d with
        schedules := updateSubTIDs columns d.schedules mt "sub_tids" (mt.subTIDs ++ [tid]) }
      let reason := "gRPC connection unavailable, cannot dispatch cron task"
      d.updateTaskStatus tid taskStatusFailed reason later

def next : Operation → Database
  | .createTask req uid userName randBytes now later =>
    createTask d req uid userName (genTID randBytes) now later
  | .nlChat message tid answer title uid userName randBytes now =>
    nlChat d message tid answer title uid userName (genTID randBytes) now
  | .retryTask tid uid now => retryTask d tid uid now
  | .dispatchContinuousTask mtTid randBytes now later =>
    dispatchContinuousTask columns d mtTid (genTID randBytes) now later

end operations

def NoneWaiting (d : Database) : Prop := ∀ task ∈ d.tables.tasks, task.status ≠ taskStatusPending

instance decidableNoneWaiting (d : Database) : Decidable (NoneWaiting d) :=
  inferInstanceAs (Decidable (∀ _ ∈ _, _))

/-- A chat message that creates a task, or a retry that finds its failed task. -/
def LeavesWaiting (d : Database) : Operation → Prop
  | .createTask _ _ _ _ _ _ | .dispatchContinuousTask _ _ _ _ => False
  | .nlChat message tid _ _ _ _ randBytes _ =>
    TaskReads.validMessage message = true ∧ tid = "" ∧ ¬ d.Known (genTID randBytes)
  | .retryTask tid uid _ => (failedTask d.tables tid uid).isSome

section effects
variable {d : Database} {tid : String}

theorem tasks_fail_created (fresh : ¬ d.Known tid) (creation : Creation) (reason : String)
    (now later : Nat) :
    ((d.create creation tid now).updateTaskStatus tid taskStatusFailed reason later).tables.tasks =
      d.tables.tasks ++ [(creation.row tid now).withStatus taskStatusFailed
        (Apiserver.effectiveReason reason) later] := by
  have others : ∀ task ∈ d.tables.tasks, task.tid ≠ tid := by
    intro task member same
    exact fresh (same ▸ List.mem_map_of_mem member)
  have tasks : (d.create creation tid now).tables.tasks =
      d.tables.tasks ++ [creation.row tid now] :=
    TaskLifecycle.tasks_create (not_or.mpr ⟨by decide, fresh⟩)
  have absent : d.tables.tasks.find? (fun task => task.tid = tid ∧ task.deleted = false) =
      none := by
    rw [List.find?_eq_none]
    intro task member
    simp [others task member]
  have found : (d.create creation tid now).tables.tasks.find?
      (fun task => task.tid = tid ∧ task.deleted = false) = some (creation.row tid now) := by
    rw [tasks, List.find?_append, absent]
    simp
  have kept : d.tables.tasks.map (fun task => if task.tid = tid then
      task.withStatus taskStatusFailed (Apiserver.effectiveReason reason) later else task) =
      d.tables.tasks := by
    rw [List.map_congr_left fun task member => if_neg (others task member), List.map_id']
  have allowed : Apiserver.isTransitionAllowed taskStatusPending taskStatusFailed = true := by
    decide
  simp only [Database.updateTaskStatus, Apiserver.updateTaskStatus, Apiserver.updateTaskStatusTx,
    runStatement, noFailure, found]
  simp [bind, Except.bind, allowed, Except.toOption, Tables.addHistory, Tables.setTask, tasks, kept]

theorem NoneWaiting.fail_created (none : NoneWaiting d) (fresh : ¬ d.Known tid)
    (creation : Creation) (reason : String) (now later : Nat) :
    NoneWaiting
      ((d.create creation tid now).updateTaskStatus tid taskStatusFailed reason later) := by
  intro task member
  rw [tasks_fail_created fresh] at member
  rcases List.mem_append.mp member with old | new
  · exact none task old
  · rw [List.mem_singleton.mp new, withStatus_status]
    decide

theorem create_waits (fresh : ¬ d.Known tid) (creation : Creation) (now : Nat) :
    ¬ NoneWaiting (d.create creation tid now) := by
  intro none
  have tasks : (d.create creation tid now).tables.tasks =
      d.tables.tasks ++ [creation.row tid now] :=
    TaskLifecycle.tasks_create (not_or.mpr ⟨by decide, fresh⟩)
  have member : creation.row tid now ∈ (d.create creation tid now).tables.tasks := by
    rw [tasks]
    exact List.mem_append_right _ (List.mem_singleton_self _)
  exact none _ member (TaskLifecycle.row_status creation tid now)

theorem retry_waits {uid : String} {task : HotmethodTask}
    (failed : failedTask d.tables tid uid = some task) (now : Nat) :
    ¬ NoneWaiting (d.updateTaskStatus tid taskStatusPending "用户触发重试" now) := by
  have matched := List.find?_some failed
  have member := List.mem_of_find?_eq_some failed
  simp only [decide_eq_true_eq] at matched
  obtain ⟨named, _, status, undeleted⟩ := matched
  have found : d.tables.tasks.find? (fun task => task.tid = tid ∧ task.deleted = false) =
      some task := by
    cases first : d.tables.tasks.find? (fun task => task.tid = tid ∧ task.deleted = false) with
    | none =>
      have missed := List.find?_eq_none.mp first task member
      simp [named, undeleted] at missed
    | some other =>
      have same := List.find?_some first
      simp only [decide_eq_true_eq] at same
      rw [List.inj_on_of_nodup_map d.unique (List.mem_of_find?_eq_some first) member
        (same.1.trans named.symm)]
  have allowed : Apiserver.isTransitionAllowed task.status taskStatusPending = true := by
    rw [status]
    decide
  intro none
  refine none (task.withStatus taskStatusPending (Apiserver.effectiveReason "用户触发重试") now) ?_ rfl
  simp only [Database.updateTaskStatus, Apiserver.updateTaskStatus, Apiserver.updateTaskStatusTx,
    runStatement, noFailure, found]
  simp only [bind, Except.bind, allowed, Except.toOption, Tables.addHistory, Tables.setTask,
    Bool.false_eq_true, if_false, Bool.true_eq_false, Option.getD_some, List.mem_map]
  exact ⟨task, member, if_pos named⟩

end effects

variable (columns : Columns) {d : Database}

theorem NoneWaiting.next (none : NoneWaiting d) {operation : Operation}
    (handled : ¬ LeavesWaiting d operation) :
    NoneWaiting (next columns d operation) := by
  cases operation with
  | createTask req uid userName randBytes now later =>
    simp only [Disconnected.next, createTask]
    split_ifs with known
    · exact none
    · exact none.fail_created known _ _ now later
  | nlChat message tid answer title uid userName randBytes now =>
    simp only [Disconnected.next, nlChat]
    split_ifs with invalid about
    · exact none
    · exact none
    · have known : d.Known (genTID randBytes) := by
        by_contra fresh
        exact handled ⟨(Bool.not_eq_false _).mp invalid, not_not.mp about, fresh⟩
      have same : (d.create (NlIntent.nlChat answer message title uid userName)
          (genTID randBytes) now).tables = d.tables := if_pos (.inr known)
      intro task member
      rw [same] at member
      exact none task member
  | retryTask tid uid now =>
    have missed : failedTask d.tables tid uid = Option.none :=
      Option.not_isSome_iff_eq_none.mp handled
    simp only [Disconnected.next, retryTask, missed]
    exact none
  | dispatchContinuousTask mtTid randBytes now later =>
    simp only [Disconnected.next, dispatchContinuousTask]
    split
    · exact none
    · split_ifs with skipped
      · exact none
      · exact none.fail_created (not_or.mp skipped).2 _ _ now later

theorem not_leavesWaiting {operation : Operation}
    (after : NoneWaiting (next columns d operation)) : ¬ LeavesWaiting d operation := by
  intro waits
  cases operation with
  | createTask => exact waits
  | dispatchContinuousTask => exact waits
  | nlChat message tid answer title uid userName randBytes now =>
    obtain ⟨valid, about, fresh⟩ := waits
    refine create_waits fresh (NlIntent.nlChat answer message title uid userName) now ?_
    simpa [next, nlChat, valid, about] using after
  | retryTask tid uid now =>
    obtain ⟨task, failed⟩ := Option.isSome_iff_exists.mp waits
    refine retry_waits failed now ?_
    simpa [next, retryTask, failed] using after

def plainReq : CreateTaskReq := ⟨"", 0, 0, "", 0, 0, 0, ""⟩

def retried : List Operation :=
  [.createTask plainReq "u" "" (fun _ => 0) 0 1, .retryTask (genTID fun _ => 0) "u" 2]

def chatted : List Operation := [.nlChat "hi" "" none "hi" "u" "" (fun _ => 0) 0]

/-- No task waits after any operation exactly if no chat message creates a task and no
retry finds one. -/
theorem noneWaiting_iff (none : NoneWaiting d) (operations : List Operation) :
    (∀ t ∈ trace (next columns) d operations, NoneWaiting t.2.2) ↔
      ∀ t ∈ trace (next columns) d operations, ¬ LeavesWaiting t.1 t.2.1 :=
  trace_iff (fun _ _ none handled => none.next columns handled) (fun _ => id)
    (fun _ _ _ after => not_leavesWaiting columns after) none operations

theorem noneWaiting_iff_created :
    NoneWaiting empty ∧
      ((∀ t ∈ trace (next ⟨"tid", "sub_tids"⟩) empty
          [.createTask plainReq "u" "" (fun _ => 0) 0 1], NoneWaiting t.2.2) ↔
        ∀ t ∈ trace (next ⟨"tid", "sub_tids"⟩) empty
          [.createTask plainReq "u" "" (fun _ => 0) 0 1], ¬ LeavesWaiting t.1 t.2.1) :=
  ⟨by decide, noneWaiting_iff _ (by decide) _⟩

/-- Neither a retry nor a chat message has a branch for the missing connection. -/
theorem retried_and_chatted_wait :
    (¬ ∀ t ∈ trace (next ⟨"tid", "sub_tids"⟩) empty retried, NoneWaiting t.2.2) ∧
      ¬ ∀ t ∈ trace (next ⟨"tid", "sub_tids"⟩) empty chatted, NoneWaiting t.2.2 := by
  constructor
  · decide +kernel
  · decide +kernel

end DropPlatform.Disconnected
