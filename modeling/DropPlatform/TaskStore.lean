import DropPlatform.TransitionRuns
import Mathlib.Data.List.GetD
import Mathlib.Data.List.OfFn
import Mathlib.Data.List.TakeWhile

/-! The tables `hotmethod_task` and `task_status_history`, and the two programs
that move a task through its states: `updateTaskStatus` of the apiserver (Go) and
`PGStore::UpdateTaskStatus` of drop_server (C++).
Each is a transaction over the two tables in which every SQL statement may fail;
a failed or refused call rolls back. The interleaving of statements of different
calls is the subject of `CrossProcessUpdates` and `SharedConnection`. -/

namespace DropPlatform.TaskStore
open TransitionRuns

def taskStatusPending : Int := 0
def taskStatusRunning : Int := 1
def taskStatusUploading : Int := 2
def taskStatusDone : Int := 3
def taskStatusFailed : Int := 4

def analysisStatusPending : Int := 0
def analysisStatusRunning : Int := 1
def analysisStatusSuccess : Int := 2
def analysisStatusFailed : Int := 3

def taskTypeSingle : Int := 0
def taskTypeContinuous : Int := 1

namespace Apiserver

def isTransitionAllowed (old new : Int) : Bool :=
  if old = new then false
  else if old = taskStatusPending then new == taskStatusRunning || new == taskStatusFailed
  else if old = taskStatusRunning then new == taskStatusUploading || new == taskStatusFailed
  else if old = taskStatusUploading then new == taskStatusDone || new == taskStatusFailed
  else if old = taskStatusFailed then new == taskStatusPending
  else if old = taskStatusDone then false
  else false

end Apiserver

namespace DropServer

def isTransitionAllowed (oldStatus newStatus : Int) : Bool :=
  let kPending := 0
  let kRunning := 1
  let kUploading := 2
  let kDone := 3
  let kFailed := 4
  if oldStatus = newStatus then false
  else if oldStatus = kPending ∧ (newStatus = kRunning ∨ newStatus = kFailed) then true
  else if oldStatus = kRunning ∧ (newStatus = kUploading ∨ newStatus = kFailed) then true
  else if oldStatus = kUploading ∧ (newStatus = kDone ∨ newStatus = kFailed) then true
  else if oldStatus = kFailed ∧ newStatus = kPending then true
  else false

end DropServer

def Allowed (old new : Int) : Prop := Apiserver.isTransitionAllowed old new = true

instance (old new : Int) : Decidable (Allowed old new) :=
  inferInstanceAs (Decidable (_ = _))

theorem allowed_iff {old new : Int} :
    Allowed old new ↔ (old, new) ∈ [((0 : Int), (1 : Int)), (0, 4), (1, 2), (1, 4),
      (2, 3), (2, 4), (4, 0)] := by
  simp only [Allowed, Apiserver.isTransitionAllowed, taskStatusPending, taskStatusRunning,
    taskStatusUploading, taskStatusDone, taskStatusFailed, List.mem_cons, Prod.mk.injEq,
    List.not_mem_nil, or_false]
  split_ifs <;> grind

theorem dropServer_isTransitionAllowed (old new : Int) :
    DropServer.isTransitionAllowed old new = Apiserver.isTransitionAllowed old new := by
  rw [Bool.eq_iff_iff]
  change _ ↔ Allowed old new
  rw [allowed_iff]
  simp only [DropServer.isTransitionAllowed, List.mem_cons, Prod.mk.injEq,
    List.not_mem_nil, or_false]
  split_ifs <;> simp <;> omega

theorem done_final (new : Int) : ¬ Allowed taskStatusDone new := by
  rw [allowed_iff]
  simp [taskStatusDone]

theorem Allowed.ne {old new : Int} (ok : Allowed old new) : old ≠ new := by
  rw [allowed_iff] at ok
  simp only [List.mem_cons, Prod.mk.injEq, List.not_mem_nil, or_false] at ok
  omega

structure HotmethodTask where
  tid : String
  name : String
  type : Int
  profilerType : Int
  targetIP : String
  requestParams : String
  status : Int
  statusInfo : String
  analysisStatus : Int
  uid : String
  userName : String
  createTime : Nat
  beginTime : Option Nat
  endTime : Option Nat
  masterTaskTid : String
  cosKey : String
  /-- `deleted_at` is set; gorm queries skip the row, drop_server's SQL does not. -/
  deleted : Bool
deriving DecidableEq, Repr

/-- A row with the given key and status, every other column at its zero value. -/
def blankTask (tid : String) (status : Int) : HotmethodTask :=
  { tid, status, name := "", type := 0, profilerType := 0, targetIP := "", requestParams := "",
    statusInfo := "", analysisStatus := 0, uid := "", userName := "", createTime := 0,
    beginTime := none, endTime := none, masterTaskTid := "", cosKey := "", deleted := false }

structure TaskStatusHistory where
  tid : String
  oldStatus : Int
  newStatus : Int
  reason : String
  timestamp : Nat
deriving DecidableEq, Repr

def TaskStatusHistory.edge (row : TaskStatusHistory) : Int × Int := (row.oldStatus, row.newStatus)

/-- The rows of one task: the creation row (-1, PENDING), then allowed transitions,
each starting at the state where the previous row ended, up to the given status. -/
def AuditTrail (rows : List TaskStatusHistory) (status : Int) : Prop :=
  (rows.map TaskStatusHistory.edge).head? = some (-1, taskStatusPending) ∧
    Linked Allowed taskStatusPending (rows.map TaskStatusHistory.edge).tail status

instance (rows : List TaskStatusHistory) (status : Int) : Decidable (AuditTrail rows status) :=
  inferInstanceAs (Decidable (_ ∧ _))

theorem AuditTrail.snoc {rows : List TaskStatusHistory} {status : Int}
    (trail : AuditTrail rows status) (row : TaskStatusHistory) (source : row.oldStatus = status)
    (ok : Allowed row.oldStatus row.newStatus) : AuditTrail (rows ++ [row]) row.newStatus := by
  cases rows with
  | nil => cases trail.1
  | cons created rows =>
    have linked := trail.2.snoc (source ▸ ok)
    exact ⟨trail.1, by simpa [TaskStatusHistory.edge, source] using linked⟩

theorem AuditTrail.nothing_after {before after : List TaskStatusHistory} {row : TaskStatusHistory}
    {status : Int} (trail : AuditTrail (before ++ row :: after) status)
    (done : row.newStatus = taskStatusDone) : after = [] := by
  cases before with
  | nil =>
    have created : row.edge = (-1, taskStatusPending) := Option.some.inj trail.1
    have pending : row.newStatus = taskStatusPending := congrArg Prod.snd created
    rw [pending] at done
    exact absurd done (by decide)
  | cons first before =>
    have path := trail.2
    simp only [List.cons_append, List.map_cons, List.tail_cons, List.map_append] at path
    have final : ∀ new, ¬ Allowed row.edge.2 new := fun new => by
      rw [TaskStatusHistory.edge, done]
      exact done_final new
    exact List.map_eq_nil_iff.mp (path.nothing_after final)

/-- The columns that both implementations set in one UPDATE. -/
def HotmethodTask.withStatus (task : HotmethodTask) (newStatus : Int) (reason : String)
    (now : Nat) : HotmethodTask :=
  { task with
    status := newStatus
    statusInfo := reason
    beginTime := if newStatus = taskStatusRunning then some now else task.beginTime
    endTime := if newStatus = taskStatusDone ∨ newStatus = taskStatusFailed then some now
      else task.endTime }

section withStatus
variable (task : HotmethodTask) (newStatus : Int) (reason : String) (now : Nat)

@[simp] theorem withStatus_status :
    (task.withStatus newStatus reason now).status = newStatus := rfl

@[simp] theorem withStatus_tid : (task.withStatus newStatus reason now).tid = task.tid := rfl

@[simp] theorem withStatus_analysisStatus :
    (task.withStatus newStatus reason now).analysisStatus = task.analysisStatus := rfl

end withStatus

/-- What libpq sees of a `std::string` that is passed on as `s.c_str()`. -/
def cStr (s : String) : String := String.ofList (s.toList.takeWhile (· ≠ '\x00'))

def charset : List Char := "abcdefghijklmnopqrstuvwxyz0123456789".toList

def genTID (randBytes : Fin 12 → UInt8) : String :=
  String.ofList (List.ofFn fun i => charset.getD ((randBytes i).toNat % charset.length) 'a')

theorem mem_charset_of_genTID {randBytes : Fin 12 → UInt8} {c : Char}
    (member : c ∈ (genTID randBytes).toList) : c ∈ charset := by
  rw [genTID, String.toList_ofList] at member
  obtain ⟨i, rfl⟩ := List.mem_ofFn.mp member
  have bound : (randBytes i).toNat % charset.length < charset.length := Nat.mod_lt _ (by decide)
  rw [List.getD_eq_getElem _ _ bound]
  exact List.getElem_mem bound

theorem cStr_genTID (randBytes : Fin 12 → UInt8) : cStr (genTID randBytes) = genTID randBytes := by
  have visible : ∀ c ∈ (genTID randBytes).toList, decide (c ≠ '\x00') = true := by
    intro c member
    have plain : charset.all (fun c => c ≠ '\x00') = true := by decide
    exact List.all_eq_true.mp plain c (mem_charset_of_genTID member)
  rw [cStr, List.takeWhile_eq_self_iff.mpr visible, String.ofList_toList]

structure Tables where
  tasks : List HotmethodTask
  history : List TaskStatusHistory
deriving DecidableEq, Repr

inductive Statement
  | begin | select | update | insert | commit
deriving DecidableEq, Repr

/-- Where one call stands when its statements are interleaved with those of other
calls: the constructor names the last statement that succeeded. -/
inductive CallState (Call : Type)
  | idle
  | called (c : Call)
  | begun (c : Call)
  | selected (c : Call) (oldStatus : Int)
  | updated (c : Call) (oldStatus : Int)
  | inserted (c : Call) (oldStatus : Int)
  /-- A statement failed or the transition was refused; ROLLBACK is next. -/
  | failed
deriving DecidableEq, Repr

def Tables.setTask (db : Tables) (tid : String) (f : HotmethodTask → HotmethodTask) : Tables :=
  { db with tasks := db.tasks.map fun t => if t.tid = tid then f t else t }

def Tables.addHistory (db : Tables) (row : TaskStatusHistory) : Tables :=
  { db with history := db.history ++ [row] }

theorem mem_setTask {db : Tables} {tid : String} {f : HotmethodTask → HotmethodTask}
    {task : HotmethodTask} (member : task ∈ (db.setTask tid f).tasks) :
    ∃ before ∈ db.tasks, task = if before.tid = tid then f before else before := by
  obtain ⟨before, there, same⟩ := List.mem_map.mp member
  exact ⟨before, there, same.symm⟩

theorem map_setTask {α : Type*} (key : HotmethodTask → α) (db : Tables) (tid : String)
    {f : HotmethodTask → HotmethodTask} (keeps : ∀ task, key (f task) = key task) :
    (db.setTask tid f).tasks.map key = db.tasks.map key := by
  simp only [Tables.setTask, List.map_map]
  apply List.map_congr_left
  intro task _
  simp only [Function.comp]
  split_ifs
  · exact keeps task
  · rfl

theorem tids_setTask (db : Tables) (tid : String) {f : HotmethodTask → HotmethodTask}
    (keeps : ∀ task, (f task).tid = task.tid) :
    (db.setTask tid f).tasks.map (·.tid) = db.tasks.map (·.tid) :=
  map_setTask (·.tid) db tid keeps

def failedTask (db : Tables) (tid uid : String) : Option HotmethodTask :=
  db.tasks.find? fun task => task.tid = tid ∧ task.uid = uid ∧
    task.status = taskStatusFailed ∧ task.deleted = false

def noFailure : Statement → Bool := fun _ => false

/-- A statement that fails ends the enclosing function with its error. -/
def runStatement (fails : Statement → Bool) (statement : Statement) (error : String) :
    Except String Unit :=
  if fails statement then .error error else .ok ()

namespace Apiserver

def effectiveReason (reason : String) : String :=
  if reason = "" then "no reason provided" else reason

/-- The closure that `updateTaskStatus` passes to `Transaction`, from BEGIN to COMMIT. -/
def updateTaskStatusTx (fails : Statement → Bool) (db : Tables) (tid : String)
    (newStatus : Int) (reason : String) (now : Nat) : Except String Tables := do
  let reason := effectiveReason reason
  runStatement fails .begin "begin"
  runStatement fails .select ("find task " ++ tid)
  match db.tasks.find? (fun t => t.tid = tid ∧ t.deleted = false) with
  | none => .error ("find task " ++ tid ++ ": record not found")
  | some task =>
    if isTransitionAllowed task.status newStatus = false then
      .error ("illegal transition " ++ toString task.status ++ "→" ++ toString newStatus ++
        " for task " ++ tid)
    else do
      let oldStatus := task.status
      runStatement fails .update "update task"
      let db := db.setTask tid (·.withStatus newStatus reason now)
      runStatement fails .insert "insert history"
      let db := db.addHistory ⟨tid, oldStatus, newStatus, reason, now⟩
      runStatement fails .commit "commit"
      .ok db

def updateTaskStatus (fails : Statement → Bool) (db : Tables) (tid : String)
    (newStatus : Int) (reason : String) (now : Nat) : Tables :=
  (updateTaskStatusTx fails db tid newStatus reason now).toOption.getD db

end Apiserver

namespace DropServer

def updateTaskStatusTx (fails : Statement → Bool) (db : Tables) (tid : String)
    (newStatus : Int) (reason : String) (now : Nat) : Except String Tables := do
  runStatement fails .begin "BEGIN failed"
  runStatement fails .select ("SELECT FOR UPDATE failed for tid=" ++ tid)
  match db.tasks.find? (fun t => t.tid = cStr tid) with
  | none => .error ("SELECT FOR UPDATE failed for tid=" ++ tid)
  | some task =>
    let oldStatus := task.status
    if isTransitionAllowed oldStatus newStatus = false then
      .error ("Illegal transition " ++ toString oldStatus ++ "->" ++ toString newStatus ++
        " for task " ++ tid)
    else do
      runStatement fails .update "UPDATE task failed"
      let db := db.setTask (cStr tid) (·.withStatus newStatus (cStr reason) now)
      runStatement fails .insert "INSERT history failed"
      let db := db.addHistory ⟨cStr tid, oldStatus, newStatus, cStr reason, now⟩
      runStatement fails .commit "COMMIT failed"
      .ok db

def updateTaskStatus (fails : Statement → Bool) (db : Tables) (tid : String)
    (newStatus : Int) (reason : String) (now : Nat) : Tables :=
  (updateTaskStatusTx fails db tid newStatus reason now).toOption.getD db

end DropServer

structure TaskResult where
  taskId : String
  errorMessage : String
  fileName : String
  cosKey : String
deriving DecidableEq, Repr

namespace DropServer

/-- The calls of `UpdateTaskStatus` that `NotifyResult` makes, in order. -/
def notifyResultUpdates (result : TaskResult) : List (Int × String) :=
  if result.errorMessage = "" then
    [(taskStatusUploading, "采集完成，开始上传结果"),
     (taskStatusDone,
      if result.cosKey ≠ "" then "Agent上传完成，cos_key=" ++ result.cosKey
      else if result.fileName = "" then "Agent上报完成（无产出文件）"
      else "Agent上报文件: " ++ result.fileName)]
  else [(taskStatusFailed, result.errorMessage)]

/-- The call that `HealthCheck.Do` makes when it hands a task to an agent. -/
def healthCheckUpdate : Int × String := (taskStatusRunning, "Agent开始执行采集")

end DropServer

/-- The only effect either implementation can have on the tables: one allowed
transition of one existing task, recorded by one history row. -/
def Transition (db db' : Tables) (tid : String) (reason : String) : Prop :=
  ∃ task ∈ db.tasks, ∃ newStatus now, task.tid = tid ∧ Allowed task.status newStatus ∧
    db' = (db.setTask tid (·.withStatus newStatus reason now)).addHistory
      ⟨tid, task.status, newStatus, reason, now⟩

theorem runStatement_bind {α : Type} {fails : Statement → Bool} {statement : Statement}
    {error : String} {next : Unit → Except String α} {r : α}
    (ok : (runStatement fails statement error >>= next) = .ok r) :
    fails statement = false ∧ next () = .ok r := by
  unfold runStatement at ok
  by_cases failed : fails statement = true
  · rw [if_pos failed] at ok
    cases ok
  · rw [if_neg failed] at ok
    exact ⟨Bool.eq_false_iff.mpr failed, ok⟩

theorem apiserver_tx_ok {fails : Statement → Bool} {db db' : Tables} {tid : String}
    {newStatus : Int} {reason : String} {now : Nat}
    (ok : Apiserver.updateTaskStatusTx fails db tid newStatus reason now = .ok db') :
    ∃ task ∈ db.tasks, task.tid = tid ∧ Allowed task.status newStatus ∧
      db' = (db.setTask tid
        (·.withStatus newStatus (Apiserver.effectiveReason reason) now)).addHistory
          ⟨tid, task.status, newStatus, Apiserver.effectiveReason reason, now⟩ := by
  unfold Apiserver.updateTaskStatusTx at ok
  obtain ⟨_, ok⟩ := runStatement_bind ok
  obtain ⟨_, ok⟩ := runStatement_bind ok
  split at ok
  · cases ok
  · rename_i task found
    split_ifs at ok with refused
    obtain ⟨_, ok⟩ := runStatement_bind ok
    obtain ⟨_, ok⟩ := runStatement_bind ok
    obtain ⟨_, ok⟩ := runStatement_bind ok
    have matched := List.find?_some found
    simp only [Bool.decide_and, Bool.and_eq_true, decide_eq_true_eq] at matched
    refine ⟨task, List.mem_of_find?_eq_some found, matched.1, (Bool.not_eq_false _).mp refused, ?_⟩
    exact (Except.ok.inj ok).symm

theorem dropServer_tx_ok {fails : Statement → Bool} {db db' : Tables} {tid : String}
    {newStatus : Int} {reason : String} {now : Nat}
    (ok : DropServer.updateTaskStatusTx fails db tid newStatus reason now = .ok db') :
    ∃ task ∈ db.tasks, task.tid = cStr tid ∧ Allowed task.status newStatus ∧
      db' = (db.setTask (cStr tid) (·.withStatus newStatus (cStr reason) now)).addHistory
        ⟨cStr tid, task.status, newStatus, cStr reason, now⟩ := by
  unfold DropServer.updateTaskStatusTx at ok
  obtain ⟨_, ok⟩ := runStatement_bind ok
  obtain ⟨_, ok⟩ := runStatement_bind ok
  split at ok
  · cases ok
  · rename_i task found
    dsimp only at ok
    split_ifs at ok with refused
    obtain ⟨_, ok⟩ := runStatement_bind ok
    obtain ⟨_, ok⟩ := runStatement_bind ok
    obtain ⟨_, ok⟩ := runStatement_bind ok
    rw [dropServer_isTransitionAllowed] at refused
    have matched := List.find?_some found
    refine ⟨task, List.mem_of_find?_eq_some found, of_decide_eq_true matched,
      (Bool.not_eq_false _).mp refused, ?_⟩
    exact (Except.ok.inj ok).symm

theorem apiserver_tx_transition {fails : Statement → Bool} {db db' : Tables} {tid : String}
    {newStatus : Int} {reason : String} {now : Nat}
    (ok : Apiserver.updateTaskStatusTx fails db tid newStatus reason now = .ok db') :
    Transition db db' tid (Apiserver.effectiveReason reason) := by
  obtain ⟨task, member, named, allowed, after⟩ := apiserver_tx_ok ok
  exact ⟨task, member, newStatus, now, named, allowed, after⟩

theorem dropServer_tx_transition {fails : Statement → Bool} {db db' : Tables} {tid : String}
    {newStatus : Int} {reason : String} {now : Nat}
    (ok : DropServer.updateTaskStatusTx fails db tid newStatus reason now = .ok db') :
    Transition db db' (cStr tid) (cStr reason) := by
  obtain ⟨task, member, named, allowed, after⟩ := dropServer_tx_ok ok
  exact ⟨task, member, newStatus, now, named, allowed, after⟩

theorem Transition.tids {db db' : Tables} {tid reason : String}
    (change : Transition db db' tid reason) :
    db'.tasks.map (·.tid) = db.tasks.map (·.tid) := by
  obtain ⟨_, _, newStatus, now, _, _, rfl⟩ := change
  exact tids_setTask db tid fun _ => rfl

theorem dropServer_tx_succeeds {fails : Statement → Bool} {db db' : Tables} {tid : String}
    {newStatus : Int} {reason : String} {now : Nat}
    (ok : DropServer.updateTaskStatusTx fails db tid newStatus reason now = .ok db')
    (statement : Statement) : fails statement = false := by
  unfold DropServer.updateTaskStatusTx at ok
  obtain ⟨begun, ok⟩ := runStatement_bind ok
  obtain ⟨selected, ok⟩ := runStatement_bind ok
  split at ok
  · cases ok
  · dsimp only at ok
    split_ifs at ok
    obtain ⟨updated, ok⟩ := runStatement_bind ok
    obtain ⟨inserted, ok⟩ := runStatement_bind ok
    obtain ⟨committed, _⟩ := runStatement_bind ok
    cases statement with
    | begin => exact begun
    | select => exact selected
    | update => exact updated
    | insert => exact inserted
    | commit => exact committed

theorem apiserver_updateTaskStatus_cases (fails : Statement → Bool) (db : Tables)
    (tid : String) (newStatus : Int) (reason : String) (now : Nat) :
    Apiserver.updateTaskStatus fails db tid newStatus reason now = db ∨
      Transition db (Apiserver.updateTaskStatus fails db tid newStatus reason now) tid
        (Apiserver.effectiveReason reason) := by
  unfold Apiserver.updateTaskStatus
  cases result : Apiserver.updateTaskStatusTx fails db tid newStatus reason now with
  | error e => exact .inl rfl
  | ok db' => exact .inr (apiserver_tx_transition result)

theorem dropServer_updateTaskStatus_cases (fails : Statement → Bool) (db : Tables)
    (tid : String) (newStatus : Int) (reason : String) (now : Nat) :
    DropServer.updateTaskStatus fails db tid newStatus reason now = db ∨
      Transition db (DropServer.updateTaskStatus fails db tid newStatus reason now) (cStr tid)
        (cStr reason) := by
  unfold DropServer.updateTaskStatus
  cases result : DropServer.updateTaskStatusTx fails db tid newStatus reason now with
  | error e => exact .inl rfl
  | ok db' => exact .inr (dropServer_tx_transition result)

end DropPlatform.TaskStore
