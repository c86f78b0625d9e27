import DropPlatform.JsonObjects
import DropPlatform.TaskStore

/-! Whole lives of tasks: the three creation paths of the apiserver, the status
updates of both programs, file uploads, and the analysis scheduler with every
`analysis_status` write it triggers, each taken as one step on the tables.
A creation writes the task row and the first history row in two statements of
their own; the error of the second one is ignored by all three paths. -/

namespace DropPlatform.TaskLifecycle
open TransitionRuns TaskStore JsonObjects

structure CreateTaskReq where
  name : String
  type : Int
  profilerType : Int
  targetIP : String
  pid : Int
  duration : Int
  hz : Int
  event : String
deriving DecidableEq, Repr

/-- Strings as `json.Marshal` writes them, with the characters that HTML and JavaScript
treat specially escaped. -/
def goStyle : Style where
  gap := []
  escape := escape ['<', '>', '&', '\u2028', '\u2029']
  blank := by simp
  reads := readString_escape (by simp)

def numberField (key : String) (n : Int) : Text × Value := (key.toList, .num n)

def stringField (key s : String) : Text × Value := (key.toList, .str s.toList)

def CreateTaskReq.fields (req : CreateTaskReq) : Object :=
  [stringField "name" req.name, numberField "type" req.type,
    numberField "profiler_type" req.profilerType, stringField "target_ip" req.targetIP,
    numberField "pid" req.pid, numberField "duration" req.duration, numberField "hz" req.hz,
    stringField "event" req.event]

/-- `json.Marshal` of a request. -/
def marshal (req : CreateTaskReq) : String := String.ofList (goStyle.object req.fields)

/-- Who creates a task; `title` is the chat message cut to 100 bytes.
The cron path is taken once its lookup of the schedule has found an enabled row. -/
inductive Creation
  | createTask (req : CreateTaskReq) (uid userName : String)
  | nlChat (title : String) (profilerType : Int) (targetIP : String) (pid duration : Int)
      (uid userName : String)
  | dispatchContinuousTask (mtTid : String) (schedule : CreateTaskReq)
deriving DecidableEq, Repr

def Creation.request : Creation → CreateTaskReq
  | .createTask req _ _ => req
  | .nlChat _ profilerType targetIP pid duration _ _ =>
    ⟨"", taskTypeSingle, profilerType, targetIP, pid, duration, 99, ""⟩
  | .dispatchContinuousTask _ schedule => { schedule with type := taskTypeContinuous }

def Creation.reason : Creation → String
  | .createTask _ _ _ => "任务已创建"
  | .nlChat _ _ _ _ _ _ _ => "自然语言触发，任务已创建"
  | .dispatchContinuousTask _ _ => "由定时规则自动创建"

def Creation.row (creation : Creation) (tid : String) (now : Nat) : HotmethodTask :=
  let req := creation.request
  let created := { blankTask tid taskStatusPending with
    type := req.type, profilerType := req.profilerType, targetIP := req.targetIP
    statusInfo := creation.reason, createTime := now }
  match creation with
  | .createTask _ uid userName =>
    { created with name := req.name, requestParams := marshal req, uid := uid, userName := userName }
  | .nlChat title _ _ pid duration uid userName =>
    { created with
      name := "NL: " ++ title
      requestParams := "\x7b\"pid\":" ++ toString pid ++ ",\"duration\":" ++ toString duration ++
        ",\"hz\":99,\"event\":\"cpu\"\x7d"
      uid := uid, userName := userName }
  | .dispatchContinuousTask mtTid _ =>
    { created with
      name := req.name, requestParams := marshal req
      uid := "cron-system", userName := "cron-scheduler", masterTaskTid := mtTid }

section row
variable (creation : Creation) (tid : String) (now : Nat)

@[simp] theorem row_tid : (creation.row tid now).tid = tid := by cases creation <;> rfl

@[simp] theorem row_status : (creation.row tid now).status = taskStatusPending := by
  cases creation <;> rfl

@[simp] theorem row_analysisStatus :
    (creation.row tid now).analysisStatus = analysisStatusPending := by
  cases creation <;> rfl

@[simp] theorem row_deleted : (creation.row tid now).deleted = false := by cases creation <;> rfl

@[simp] theorem row_beginTime : (creation.row tid now).beginTime = none := by
  cases creation <;> rfl

@[simp] theorem row_endTime : (creation.row tid now).endTime = none := by cases creation <;> rfl

end row

/-- The unique index on `tid` refuses a second row; the history insert may fail unnoticed. -/
def create (creation : Creation) (tid : String) (now : Nat) (rowOk historyOk : Bool)
    (db : Tables) : Tables :=
  if rowOk = false ∨ tid ∈ db.tasks.map (·.tid) then db
  else
    let db := { db with tasks := db.tasks ++ [creation.row tid now] }
    if historyOk then db.addHistory ⟨tid, -1, taskStatusPending, creation.reason, now⟩ else db

theorem tasks_create {creation : Creation} {tid : String} {now : Nat} {rowOk historyOk : Bool}
    {db : Tables} (accepted : ¬ (rowOk = false ∨ tid ∈ db.tasks.map (·.tid))) :
    (create creation tid now rowOk historyOk db).tasks = db.tasks ++ [creation.row tid now] := by
  rw [create, if_neg accepted]
  cases historyOk <;> rfl

theorem nodup_create {db : Tables} (unique : (db.tasks.map (·.tid)).Nodup) (creation : Creation)
    (tid : String) (now : Nat) (rowOk historyOk : Bool) :
    ((create creation tid now rowOk historyOk db).tasks.map (·.tid)).Nodup := by
  by_cases refused : rowOk = false ∨ tid ∈ db.tasks.map (·.tid)
  · rw [create, if_pos refused]
    exact unique
  · have fresh : tid ∉ db.tasks.map (·.tid) := fun known => refused (.inr known)
    rw [tasks_create refused, List.map_append, List.map_singleton, row_tid,
      ← List.concat_eq_append]
    exact unique.concat fresh

/-- `UploadTaskFile` records the first uploaded key on the task. -/
def uploadTaskFile (tid filename : String) (db : Tables) : Tables :=
  db.setTask tid fun task =>
    if task.deleted = false ∧ task.cosKey = "" then { task with cosKey := tid ++ "/" ++ filename }
    else task

/-- The soft delete of `DeleteTask`, for a user who may access the task. -/
def deleteTask (tid : String) (db : Tables) : Tables :=
  db.setTask tid fun task => { task with deleted := true }

/-- The writes of `analysis_status` for a selected task: those of `spawnAnalysis`,
and those of the analyzer process it starts. -/
inductive AnalysisWrite
  | spawnRunning
  | spawnFailed (reason : String)
  | analyzerRunning
  | analyzerSuccess
  | analyzerFailed (error : String)
deriving DecidableEq, Repr

def AnalysisWrite.apply (write : AnalysisWrite) (task : HotmethodTask) : HotmethodTask :=
  match write with
  | .spawnRunning =>
    if task.deleted then task
    else { task with analysisStatus := analysisStatusRunning, statusInfo := "分析开始" }
  | .spawnFailed reason =>
    if task.deleted then task
    else { task with analysisStatus := analysisStatusFailed, statusInfo := reason }
  | .analyzerRunning =>
    { task with analysisStatus := analysisStatusRunning, statusInfo := "分析开始" }
  | .analyzerSuccess =>
    { task with analysisStatus := analysisStatusSuccess, statusInfo := "分析完成" }
  | .analyzerFailed error =>
    { task with analysisStatus := analysisStatusFailed, statusInfo := "分析失败: " ++ error }

structure Platform where
  db : Tables
  /-- Tasks that an analysis tick has selected; their analysis may still write. -/
  selected : List String
deriving DecidableEq, Repr

/-- The query of `runAnalysisTick`, less the tasks it skips for want of a `cos_key`. -/
def selectedByTick (db : Tables) : List String :=
  (db.tasks.filter fun task => task.status = taskStatusDone ∧
    task.analysisStatus = analysisStatusPending ∧ task.deleted = false ∧
    task.cosKey ≠ "").map (·.tid)

inductive Action
  | create (creation : Creation) (tid : String) (now : Nat) (rowOk historyOk : Bool)
  | apiserverUpdate (fails : Statement → Bool) (tid : String) (newStatus : Int)
      (reason : String) (now : Nat)
  | healthCheckDo (fails : Statement → Bool) (tid : String) (now : Nat)
  /-- The `k`-th update that `NotifyResult` makes for this result. -/
  | notifyResult (fails : Statement → Bool) (result : TaskResult) (k : Nat) (now : Nat)
  | uploadTaskFile (tid filename : String)
  | deleteTask (tid : String)
  | analysisTick
  | analysisWrite (tid : String) (write : AnalysisWrite)

def dropServerUpdate (fails : Statement → Bool) (tid : String) (now : Nat)
    (update : Int × String) (db : Tables) : Tables :=
  DropServer.updateTaskStatus fails db tid update.1 update.2 now

def step (p : Platform) : Action → Option Platform
  | .create creation tid now rowOk historyOk =>
    some { p with db := create creation tid now rowOk historyOk p.db }
  | .apiserverUpdate fails tid newStatus reason now =>
    some { p with db := Apiserver.updateTaskStatus fails p.db tid newStatus reason now }
  | .healthCheckDo fails tid now =>
    some { p with db := dropServerUpdate fails tid now DropServer.healthCheckUpdate p.db }
  | .notifyResult fails result k now =>
    (DropServer.notifyResultUpdates result)[k]?.map fun update =>
      { p with db := dropServerUpdate fails result.taskId now update p.db }
  | .uploadTaskFile tid filename => some { p with db := uploadTaskFile tid filename p.db }
  | .deleteTask tid => some { p with db := deleteTask tid p.db }
  | .analysisTick => some { p with selected := p.selected ++ selectedByTick p.db }
  | .analysisWrite tid write =>
    if tid ∈ p.selected then some { p with db := p.db.setTask tid write.apply } else none

def initial : Platform := ⟨⟨[], []⟩, []⟩

/-- The first history row of a created task is written, and the text of a failure
report does not start with a NUL character. -/
def Recorded : Action → Prop
  | .create _ _ _ _ historyOk => historyOk = true
  | .notifyResult _ result _ _ => result.errorMessage.toList.head? ≠ some '\x00'
  | _ => True

instance : (a : Action) → Decidable (Recorded a)
  | .create _ _ _ _ historyOk => inferInstanceAs (Decidable (historyOk = true))
  | .notifyResult _ result _ _ =>
    inferInstanceAs (Decidable (result.errorMessage.toList.head? ≠ some '\x00'))
  | .apiserverUpdate _ _ _ _ _ | .healthCheckDo _ _ _ | .uploadTaskFile _ _ | .deleteTask _
  | .analysisTick | .analysisWrite _ _ => .isTrue trivial

def rowsOf (db : Tables) (tid : String) : List TaskStatusHistory := db.history.filter (·.tid = tid)

structure Audited (db : Tables) : Prop where
  trail : ∀ task ∈ db.tasks, AuditTrail (rowsOf db task.tid) task.status
  reasons : ∀ row ∈ db.history, row.reason ≠ ""
  final : ∀ tid before row after, rowsOf db tid = before ++ row :: after →
    row.newStatus = taskStatusDone → after = []
  analysed : ∀ task ∈ db.tasks, task.analysisStatus ≠ analysisStatusPending →
    task.status = taskStatusDone

structure Inv (p : Platform) : Prop where
  unique : (p.db.tasks.map (·.tid)).Nodup
  known : ∀ row ∈ p.db.history, row.tid ∈ p.db.tasks.map (·.tid)
  trail : ∀ task ∈ p.db.tasks, AuditTrail (rowsOf p.db task.tid) task.status
  reasons : ∀ row ∈ p.db.history, row.reason ≠ ""
  analysed : ∀ task ∈ p.db.tasks, task.analysisStatus ≠ analysisStatusPending →
    task.status = taskStatusDone
  chosen : ∀ tid ∈ p.selected, ∃ task ∈ p.db.tasks, task.tid = tid ∧ task.status = taskStatusDone

section
variable {p : Platform} {tid : String}

@[simp] theorem rowsOf_setTask (db : Tables) (f : HotmethodTask → HotmethodTask)
    (other : String) : rowsOf (db.setTask tid f) other = rowsOf db other := rfl

theorem rowsOf_addHistory (db : Tables) (row : TaskStatusHistory) (other : String) :
    rowsOf (db.addHistory row) other =
      rowsOf db other ++ if row.tid = other then [row] else [] := by
  simp only [rowsOf, Tables.addHistory, List.filter_append, List.filter_cons, List.filter_nil,
    decide_eq_true_eq]

theorem Inv.rowsOf_unknown (inv : Inv p) (fresh : tid ∉ p.db.tasks.map (·.tid)) :
    rowsOf p.db tid = [] := by
  apply List.filter_eq_nil_iff.mpr
  intro row member named
  have known := inv.known row member
  rw [of_decide_eq_true named] at known
  exact fresh known

theorem Inv.eq_of_tid (inv : Inv p) {task other : HotmethodTask} (here : task ∈ p.db.tasks)
    (there : other ∈ p.db.tasks) (same : other.tid = task.tid) : other = task :=
  List.inj_on_of_nodup_map inv.unique there here same

theorem Inv.done_of_selected (inv : Inv p) {task : HotmethodTask} (here : task ∈ p.db.tasks)
    (chosen : task.tid ∈ p.selected) : task.status = taskStatusDone := by
  obtain ⟨done, there, same, status⟩ := inv.chosen task.tid chosen
  rw [← inv.eq_of_tid here there same]
  exact status

theorem Inv.setTask (inv : Inv p) {f : HotmethodTask → HotmethodTask}
    (key : ∀ task, (f task).tid = task.tid) (status : ∀ task, (f task).status = task.status)
    (analysis : (∀ task, (f task).analysisStatus = task.analysisStatus) ∨ tid ∈ p.selected) :
    Inv { p with db := p.db.setTask tid f } := by
  have tids := tids_setTask p.db tid key
  refine ⟨by rw [tids]; exact inv.unique, by rw [tids]; exact inv.known, ?_, inv.reasons, ?_, ?_⟩
  · intro task member
    obtain ⟨before, there, rfl⟩ := mem_setTask member
    have trail := inv.trail before there
    split_ifs
    · rw [key, status]
      exact trail
    · exact trail
  · intro task member busy
    obtain ⟨before, there, rfl⟩ := mem_setTask member
    split_ifs at busy ⊢ with same
    · rw [status]
      cases analysis with
      | inl kept => exact inv.analysed before there (kept before ▸ busy)
      | inr chosen => exact inv.done_of_selected there (same ▸ chosen)
    · exact inv.analysed before there busy
  · intro other chosen
    obtain ⟨task, there, named, done⟩ := inv.chosen other chosen
    refine ⟨_, List.mem_map_of_mem there, ?_, ?_⟩
    · split_ifs
      · rw [key, named]
      · exact named
    · split_ifs
      · rw [status, done]
      · exact done

theorem Inv.transition (inv : Inv p) {db : Tables} {reason : String} (filled : reason ≠ "")
    (change : Transition p.db db tid reason) : Inv { p with db } := by
  obtain ⟨task, here, newStatus, now, rfl, ok, rfl⟩ := change
  have tids := tids_setTask p.db task.tid (f := (·.withStatus newStatus reason now)) fun _ => rfl
  have unfinished : task.status ≠ taskStatusDone := by
    intro done
    exact done_final newStatus (done ▸ ok)
  refine ⟨?_, ?_, ?_, ?_, ?_, ?_⟩
  · simpa only [Tables.addHistory, tids] using inv.unique
  · intro row member
    simp only [Tables.addHistory, tids]
    rcases List.mem_append.mp member with old | new
    · exact inv.known row old
    · rw [List.mem_singleton.mp new]
      exact List.mem_map_of_mem here
  · intro other member
    obtain ⟨before, there, rfl⟩ := mem_setTask member
    have trail := inv.trail before there
    rw [rowsOf_addHistory, rowsOf_setTask]
    by_cases same : before.tid = task.tid
    · have := inv.eq_of_tid here there same
      subst this
      simpa using trail.snoc ⟨before.tid, before.status, newStatus, reason, now⟩ rfl ok
    · rw [if_neg same, if_neg (Ne.symm same), List.append_nil]
      exact trail
  · intro row member
    rcases List.mem_append.mp member with old | new
    · exact inv.reasons row old
    · rw [List.mem_singleton.mp new]
      exact filled
  · intro other member busy
    obtain ⟨before, there, rfl⟩ := mem_setTask member
    split_ifs at busy ⊢ with same
    · have := inv.eq_of_tid here there same
      subst this
      exact absurd (inv.analysed before there busy) unfinished
    · exact inv.analysed before there busy
  · intro tid chosen
    obtain ⟨other, there, named, done⟩ := inv.chosen tid chosen
    have differs : other.tid ≠ task.tid := by
      intro same
      exact unfinished (inv.eq_of_tid here there same ▸ done)
    refine ⟨_, List.mem_map_of_mem there, ?_⟩
    rw [if_neg differs]
    exact ⟨named, done⟩

theorem Inv.apiserverUpdate (inv : Inv p) (fails : Statement → Bool) (tid : String)
    (newStatus : Int) (reason : String) (now : Nat) :
    Inv { p with db := Apiserver.updateTaskStatus fails p.db tid newStatus reason now } := by
  rcases apiserver_updateTaskStatus_cases fails p.db tid newStatus reason now with same | change
  · rw [same]
    exact inv
  · apply inv.transition _ change
    unfold Apiserver.effectiveReason
    split_ifs with empty
    · decide
    · exact empty

theorem Inv.dropServerUpdate (inv : Inv p) (fails : Statement → Bool) (tid : String)
    (update : Int × String) (now : Nat) (filled : cStr update.2 ≠ "") :
    Inv { p with db := dropServerUpdate fails tid now update p.db } := by
  unfold TaskLifecycle.dropServerUpdate
  rcases dropServer_updateTaskStatus_cases fails p.db tid update.1 update.2 now with same | change
  · rw [same]
    exact inv
  · exact inv.transition filled change

theorem Inv.create (inv : Inv p) (creation : Creation) (tid : String) (now : Nat)
    (rowOk : Bool) : Inv { p with db := create creation tid now rowOk true p.db } := by
  unfold TaskLifecycle.create
  by_cases refused : rowOk = false ∨ tid ∈ p.db.tasks.map (·.tid)
  · rw [if_pos refused]
    exact inv
  rw [if_neg refused]
  have fresh : tid ∉ p.db.tasks.map (·.tid) := fun known => refused (.inr known)
  have filled : creation.reason ≠ "" := by cases creation <;> simp [Creation.reason]
  let created : Tables := { p.db with tasks := p.db.tasks ++ [creation.row tid now] }
  have tids : created.tasks.map (·.tid) = p.db.tasks.map (·.tid) ++ [tid] := by
    simp [created]
  change Inv { p with
    db := created.addHistory ⟨tid, -1, taskStatusPending, creation.reason, now⟩ }
  refine ⟨?_, ?_, ?_, ?_, ?_, ?_⟩
  · change (created.tasks.map (·.tid)).Nodup
    rw [tids, ← List.concat_eq_append]
    exact inv.unique.concat fresh
  · intro row member
    change row.tid ∈ created.tasks.map (·.tid)
    rw [tids]
    rcases List.mem_append.mp member with old | new
    · exact List.mem_append_left _ (inv.known row old)
    · rw [List.mem_singleton.mp new]
      exact List.mem_append_right _ (List.mem_singleton_self tid)
  · intro task member
    rw [rowsOf_addHistory]
    rcases List.mem_append.mp member with old | new
    · have known : tid ≠ task.tid := fun same => fresh (same ▸ List.mem_map_of_mem old)
      rw [if_neg known, List.append_nil]
      exact inv.trail task old
    · have none : rowsOf p.db tid = [] := inv.rowsOf_unknown fresh
      rw [List.mem_singleton.mp new, row_tid, row_status, if_pos rfl]
      change AuditTrail (rowsOf p.db tid ++ _) _
      rw [none]
      exact ⟨rfl, rfl⟩
  · intro row member
    rcases List.mem_append.mp member with old | new
    · exact inv.reasons row old
    · rw [List.mem_singleton.mp new]
      exact filled
  · intro task member busy
    rcases List.mem_append.mp member with old | new
    · exact inv.analysed task old busy
    · rw [List.mem_singleton.mp new] at busy
      exact absurd (row_analysisStatus creation tid now) busy
  · intro other chosen
    obtain ⟨task, there, done⟩ := inv.chosen other chosen
    exact ⟨task, List.mem_append_left _ there, done⟩

theorem Inv.analysisTick (inv : Inv p) :
    Inv { p with selected := p.selected ++ selectedByTick p.db } := by
  refine ⟨inv.unique, inv.known, inv.trail, inv.reasons, inv.analysed, ?_⟩
  intro tid chosen
  rcases List.mem_append.mp chosen with old | new
  · exact inv.chosen tid old
  · obtain ⟨task, picked, named⟩ := List.mem_map.mp new
    have ⟨there, ready⟩ := List.mem_filter.mp picked
    exact ⟨task, there, named, (of_decide_eq_true ready).1⟩

end

theorem cStr_ne_empty_iff {s : String} :
    cStr s ≠ "" ↔ s ≠ "" ∧ s.toList.head? ≠ some '\x00' := by
  unfold cStr
  rw [← String.toList_inj.ne, ← String.toList_inj.ne, String.toList_ofList]
  cases s.toList with
  | nil => simp
  | cons c rest =>
    by_cases nul : c = '\x00'
    · simp [nul]
    · simp [nul]

theorem cStr_append_ne_empty {known : String} (filled : cStr known ≠ "") (rest : String) :
    cStr (known ++ rest) ≠ "" := by
  rw [cStr_ne_empty_iff, ← String.toList_inj.ne] at filled ⊢
  rw [String.toList_append]
  cases first : known.toList with
  | nil => exact absurd first filled.1
  | cons c tail =>
    rw [first] at filled
    exact ⟨List.cons_ne_nil _ _, filled.2⟩

theorem notifyResultUpdates_reason {result : TaskResult} {update : Int × String}
    (readable : result.errorMessage.toList.head? ≠ some '\x00')
    (member : update ∈ DropServer.notifyResultUpdates result) : cStr update.2 ≠ "" := by
  unfold DropServer.notifyResultUpdates at member
  by_cases success : result.errorMessage = ""
  · rw [if_pos success, List.mem_cons, List.mem_singleton] at member
    rcases member with rfl | rfl
    · decide
    · dsimp only
      split_ifs
      · exact cStr_append_ne_empty (by decide) _
      · decide
      · exact cStr_append_ne_empty (by decide) _
  · rw [if_neg success, List.mem_singleton] at member
    rw [member]
    exact cStr_ne_empty_iff.mpr ⟨success, readable⟩

theorem AnalysisWrite.apply_tid (write : AnalysisWrite) (task : HotmethodTask) :
    (write.apply task).tid = task.tid := by
  cases write <;> simp only [AnalysisWrite.apply] <;> split_ifs <;> rfl

theorem AnalysisWrite.apply_status (write : AnalysisWrite) (task : HotmethodTask) :
    (write.apply task).status = task.status := by
  cases write <;> simp only [AnalysisWrite.apply] <;> split_ifs <;> rfl

theorem step_inv {p q : Platform} {a : Action} (inv : Inv p) (recorded : Recorded a)
    (next : step p a = some q) : Inv q := by
  cases a with
  | create creation tid now rowOk historyOk =>
    rw [← Option.some.inj next, (recorded : historyOk = true)]
    exact inv.create creation tid now rowOk
  | apiserverUpdate fails tid newStatus reason now =>
    rw [← Option.some.inj next]
    exact inv.apiserverUpdate fails tid newStatus reason now
  | healthCheckDo fails tid now =>
    rw [← Option.some.inj next]
    exact inv.dropServerUpdate fails tid _ now (by decide)
  | notifyResult fails result k now =>
    obtain ⟨update, found, rfl⟩ := Option.map_eq_some_iff.mp next
    have filled := notifyResultUpdates_reason recorded (List.mem_of_getElem? found)
    exact inv.dropServerUpdate fails result.taskId update now filled
  | uploadTaskFile tid filename =>
    rw [← Option.some.inj next]
    apply inv.setTask
    · intro task
      split_ifs <;> rfl
    · intro task
      split_ifs <;> rfl
    · left
      intro task
      split_ifs <;> rfl
  | deleteTask tid =>
    rw [← Option.some.inj next]
    exact inv.setTask (fun _ => rfl) (fun _ => rfl) (.inl fun _ => rfl)
  | analysisTick =>
    rw [← Option.some.inj next]
    exact inv.analysisTick
  | analysisWrite tid write =>
    simp only [step] at next
    split_ifs at next with chosen
    rw [← Option.some.inj next]
    exact inv.setTask write.apply_tid write.apply_status (.inr chosen)

theorem initial_inv : Inv initial := by
  constructor <;> simp [initial]

theorem Inv.audited {p : Platform} (inv : Inv p) : Audited p.db := by
  refine ⟨inv.trail, inv.reasons, ?_, inv.analysed⟩
  intro tid before row after rows done
  have member : row ∈ rowsOf p.db tid := by simp [rows]
  have ⟨stored, named⟩ := List.mem_filter.mp member
  obtain ⟨task, there, same⟩ := List.mem_map.mp (inv.known row stored)
  have trail := inv.trail task there
  rw [same, of_decide_eq_true named, rows] at trail
  exact trail.nothing_after done

/-- In every state reached by steps that record what they do, every task has a complete
audit trail with reasons, nothing follows DONE, and only finished tasks are analysed. -/
theorem recorded_steps_keep_audited {p : Platform}
    (run : Reaches step (fun _ => Recorded) initial p) : Audited p.db := by
  have keeps : ∀ p a q, Inv p → Recorded a → step p a = some q → Inv q :=
    fun _ _ _ inv recorded next => step_inv inv recorded next
  exact (run.invariant Inv keeps initial_inv).audited

def analysedTask : List Action :=
  [.create (.createTask ⟨"cpu", 0, 0, "10.0.0.1", 1, 10, 99, "cpu"⟩ "u" "user") "t" 0 true true,
   .healthCheckDo noFailure "t" 1,
   .uploadTaskFile "t" "perf.data",
   .notifyResult noFailure ⟨"t", "", "perf.data", "t/perf.data"⟩ 0 2,
   .notifyResult noFailure ⟨"t", "", "perf.data", "t/perf.data"⟩ 1 3,
   .analysisTick,
   .analysisWrite "t" .spawnRunning,
   .analysisWrite "t" .analyzerSuccess]

theorem recorded_steps_keep_audited_analysedTask :
    ∃ p, Reaches step (fun _ => Recorded) initial p ∧ Audited p.db ∧
      p.db.tasks.map (fun task => (task.status, task.analysisStatus)) = [(3, 2)] ∧
      p.db.history.map TaskStatusHistory.edge = [(-1, 0), (0, 1), (1, 2), (2, 3)] :=
  ⟨_, reaches_of_execute analysedTask rfl,
    recorded_steps_keep_audited (reaches_of_execute analysedTask rfl), rfl, rfl⟩

def nulReport : List Action :=
  [.create (.createTask ⟨"cpu", 0, 0, "10.0.0.1", 1, 10, 99, "cpu"⟩ "u" "user") "t" 0 true true,
   .healthCheckDo noFailure "t" 1,
   .notifyResult noFailure ⟨"t", "\x00", "", ""⟩ 0 2]

theorem nulReport_leaves_empty_reason :
    ∃ p, Reaches step free initial p ∧ ¬ Audited p.db ∧
      ∃ row ∈ p.db.history, row.newStatus = taskStatusFailed ∧ row.reason = "" := by
  refine ⟨_, reaches_of_execute nulReport rfl, ?_, ⟨"t", 1, 4, "", 2⟩, by decide, rfl, rfl⟩
  intro audited
  exact audited.reasons ⟨"t", 1, 4, "", 2⟩ (by decide) rfl

end DropPlatform.TaskLifecycle
