import DropPlatform.KeyedStores
import DropPlatform.Schedules

/-! The firings of schedules. The cron runs each call of `dispatchContinuousTask` in a
goroutine of its own, so the statements of different calls interleave; each statement is
one step here and may fail. The sub-task list of the row is read by the first statement
and written back as a whole by the fourth. -/

namespace DropPlatform.ScheduleFirings
open TransitionRuns TaskStore TaskLifecycle KeyedStores Schedules

/-- How far a call has come: the constructor names the last statement it has passed. -/
inductive Phase
  | fired
  | found (mt : MultiTasks)
  | created (mt : MultiTasks) (tid : String) (createTime : Nat)
  | noted (mt : MultiTasks) (tid : String)
  | appended (mt : MultiTasks) (tid : String)
  /-- The call has returned, with the task that it has created. -/
  | finished (task : Option String)
deriving DecidableEq, Repr

def Phase.task : Phase → Option String
  | .fired | .found _ => none
  | .created _ tid _ | .noted _ tid | .appended _ tid => some tid
  | .finished task => task

structure Firing where
  mtTid : String
  phase : Phase
deriving DecidableEq, Repr

instance : Inhabited Firing := ⟨⟨"", .finished none⟩⟩

/-- What surrounds the calls: the names of the table's columns, and whether there is a gRPC
connection. -/
structure Server where
  columns : Columns
  grpcCC : Bool

structure World where
  rows : List MultiTasks
  db : Tables
  firings : Keyed Nat Firing
  /-- The goroutines that `dispatchTask` has been started in. -/
  dispatched : List (String × CreateTaskReq)

/-- `Model(&mt).Update(column, value)`. -/
def updateSubTIDs (columns : Columns) (rows : List MultiTasks) (mt : MultiTasks) (column : String)
    (subTids : List String) : List MultiTasks :=
  if column = columns.subTIDs then
    rows.map fun row => if row.tid = mt.tid then { row with subTIDs := subTids } else row
  else rows

inductive Action
  | fire (mtTid : String)
  | lookup (i : Nat) (fails : Bool)
  | createTask (i : Nat) (randBytes : Fin 12 → UInt8) (now : Nat) (fails : Bool)
  | createHistory (i : Nat) (fails : Bool)
  | updateRow (i : Nat) (fails : Bool)
  | dispatch (i : Nat) (fails : Statement → Bool) (now : Nat)

def creationOf (mt : MultiTasks) : Creation :=
  .dispatchContinuousTask mt.tid mt.scheduleParams

variable (server : Server)

def World.moved (w : World) (i : Nat) (phase : Phase) : World :=
  { w with firings := set w.firings i { get w.firings i with phase := phase } }

def lookup (w : World) (i : Nat) (fails : Bool) : Option World :=
  let call := get w.firings i
  match call.phase with
  | .fired =>
    match if fails then none else firstWhere server.columns w.rows "tid" call.mtTid with
    | none => some (w.moved i (.finished none))
    | some mt => some (w.moved i (if mt.enabled then .found mt else .finished none))
  | _ => none

/-- The columns of the new row are those of `Creation.row`. -/
def createTask (w : World) (i : Nat) (tid : String) (now : Nat) (fails : Bool) : Option World :=
  match (get w.firings i).phase with
  | .found mt =>
    if fails ∨ tid ∈ w.db.tasks.map (·.tid) then some (w.moved i (.finished none))
    else
      let db := create (creationOf mt) tid now true false w.db
      some { w.moved i (.created mt tid now) with db }
  | _ => none

def createHistory (w : World) (i : Nat) (fails : Bool) : Option World :=
  match (get w.firings i).phase with
  | .created mt tid createTime =>
    let history : TaskStatusHistory :=
      ⟨tid, -1, taskStatusPending, (creationOf mt).reason, createTime⟩
    some { w.moved i (.noted mt tid) with db := if fails then w.db else w.db.addHistory history }
  | _ => none

def updateRow (w : World) (i : Nat) (fails : Bool) : Option World :=
  match (get w.firings i).phase with
  | .noted mt tid =>
    let rows := if fails then w.rows
      else updateSubTIDs server.columns w.rows mt "sub_tids" (mt.subTIDs ++ [tid])
    some { w.moved i (.appended mt tid) with rows }
  | _ => none

def dispatch (w : World) (i : Nat) (fails : Statement → Bool) (now : Nat) : Option World :=
  match (get w.firings i).phase with
  | .appended mt tid =>
    let w := w.moved i (.finished (some tid))
    if server.grpcCC then
      some { w with dispatched := w.dispatched ++ [(tid, (creationOf mt).request)] }
    else
      let reason := "gRPC connection unavailable, cannot dispatch cron task"
      some { w with db := Apiserver.updateTaskStatus fails w.db tid taskStatusFailed reason now }
  | _ => none

def step (w : World) : Action → Option World
  | .fire mtTid =>
    if w.rows.any (fun row => row.tid = mtTid ∧ row.Active) then
      some { w with firings := w.firings ++ [(w.firings.length, ⟨mtTid, .fired⟩)] }
    else none
  | .lookup i fails => lookup server w i fails
  | .createTask i randBytes now fails => createTask w i (genTID randBytes) now fails
  | .createHistory i fails => createHistory w i fails
  | .updateRow i fails => updateRow server w i fails
  | .dispatch i fails now => dispatch server w i fails now

def start (schedules : List (String × CreateScheduleReq)) : World where
  rows := schedules.map fun schedule => schedule.2.row schedule.1
  db := ⟨[], []⟩
  firings := []
  dispatched := []

def World.tasksOf (w : World) (mtTid : String) : List String :=
  (w.db.tasks.filter (·.masterTaskTid = mtTid)).map (·.tid)

def World.firingsOf (w : World) (mtTid : String) : List (Nat × Firing) :=
  w.firings.filter (·.2.mtTid = mtTid)

/-- Each firing has its own task, and the row lists exactly these tasks. -/
def Recorded (w : World) : Prop :=
  ∀ mtTid, (w.tasksOf mtTid).length = (w.firingsOf mtTid).length ∧
    ∀ row ∈ w.rows, row.tid = mtTid → row.subTIDs.Perm (w.tasksOf mtTid)

def World.Finished (w : World) : Prop := ∀ call ∈ w.firings, ∃ task, call.2.phase = .finished task

def createdFor (mtTid : String) (call : Firing) : List String :=
  if call.mtTid = mtTid then call.phase.task.toList else []

def Phase.source : Phase → Option String
  | .found mt => some mt.tid
  | _ => none

def Firing.Own (call : Firing) : Prop := ∀ tid ∈ call.phase.source, tid = call.mtTid

/-- The task rows of a schedule are those that its calls have created. -/
structure Inv (w : World) : Prop where
  tasks : ∀ mtTid, (w.tasksOf mtTid : Multiset String) = contents (createdFor mtTid) w.firings
  own : All Firing.Own w.firings

section moves
variable {w w' : World} {i : Nat} (phase : Phase)

theorem createdFor_default (mtTid : String) : createdFor mtTid default = [] := by
  rw [createdFor]
  split_ifs
  · rfl
  · rfl

variable {phase} in
theorem own_of_no_source (none : phase.source = none) {mtTid : String} :
    ∀ tid ∈ phase.source, tid = mtTid := by
  intro tid source
  exact absurd (source.symm.trans none) (Option.some_ne_none tid)

theorem own_default : Firing.Own default := own_of_no_source rfl

theorem Inv.moved (inv : Inv w) (same : phase.task = (get w.firings i).phase.task)
    (own : ∀ tid ∈ phase.source, tid = (get w.firings i).mtTid)
    (tasks : ∀ mtTid, w'.tasksOf mtTid = w.tasksOf mtTid)
    (firings : w'.firings = (w.moved i phase).firings) : Inv w' := by
  have kept : All Firing.Own (w.moved i phase).firings :=
    inv.own.set (v := { get w.firings i with phase := phase }) own i
  refine ⟨fun mtTid => ?_, firings ▸ kept⟩
  rw [tasks, inv.tasks, firings]
  refine (contents_same (createdFor_default mtTid) ?_).symm
  simp only [createdFor, same]

theorem Inv.created (inv : Inv w) {tid : String} (before : (get w.firings i).phase.task = none)
    (after : phase.task = some tid) (own : phase.source = none)
    (tasks : ∀ mtTid, w'.tasksOf mtTid =
      w.tasksOf mtTid ++ if (get w.firings i).mtTid = mtTid then [tid] else [])
    (firings : w'.firings = (w.moved i phase).firings) : Inv w' := by
  have kept : All Firing.Own (w.moved i phase).firings :=
    inv.own.set (v := { get w.firings i with phase := phase }) (own_of_no_source own) i
  refine ⟨fun mtTid => ?_, firings ▸ kept⟩
  rw [tasks, firings, ← Multiset.coe_add, inv.tasks]
  by_cases here : (get w.firings i).mtTid = mtTid
  · rw [if_pos here, Multiset.add_comm]
    refine (contents_put (createdFor_default mtTid) ?_).symm
    simp only [createdFor, here, if_true, before, after]
    rfl
  · rw [if_neg here, Multiset.coe_nil, add_zero]
    refine (contents_same (createdFor_default mtTid) ?_).symm
    simp only [createdFor, if_neg here]

end moves

section tasks
variable (mtTid : String)

theorem tasksOf_congr {w w' : World}
    (same : w'.db.tasks.map (fun task => (task.masterTaskTid, task.tid)) =
      w.db.tasks.map fun task => (task.masterTaskTid, task.tid)) :
    w'.tasksOf mtTid = w.tasksOf mtTid := by
  have keyed : ∀ w : World, w.tasksOf mtTid =
      ((w.db.tasks.map fun task => (task.masterTaskTid, task.tid)).filter (·.1 = mtTid)).map
        Prod.snd := by
    intro w
    rw [List.filter_map, List.map_map]
    rfl
  rw [keyed, keyed, same]

theorem tasksOf_updateTaskStatus (w : World) (fails : Statement → Bool) (tid : String)
    (newStatus : Int) (reason : String) (now : Nat) :
    World.tasksOf { w with
      db := Apiserver.updateTaskStatus fails w.db tid newStatus reason now } mtTid =
      w.tasksOf mtTid := by
  apply tasksOf_congr
  rcases apiserver_updateTaskStatus_cases fails w.db tid newStatus reason now with
    same | ⟨task, _, status, time, _, _, changed⟩
  · rw [same]
  · simp only [changed]
    exact map_setTask (fun task => (task.masterTaskTid, task.tid)) w.db tid fun _ => rfl

end tasks

variable {server} {w w' : World}

theorem firstWhere_tid {columns : Columns} {rows : List MultiTasks} {column value : String}
    {mt : MultiTasks} (found : firstWhere columns rows column value = some mt) :
    mt.tid = value := by
  rw [firstWhere] at found
  split_ifs at found
  simpa using List.find?_some found

theorem Inv.lookup (inv : Inv w) {i : Nat} {fails : Bool}
    (next : lookup server w i fails = some w') : Inv w' := by
  simp only [ScheduleFirings.lookup] at next
  split at next
  · rename_i fired
    have before : none = (get w.firings i).phase.task := by rw [fired]; rfl
    split at next
    · rw [← Option.some.inj next]
      exact inv.moved (.finished none) before (own_of_no_source rfl) (fun _ => rfl) rfl
    · rename_i mt found
      have named : mt.tid = (get w.firings i).mtTid := by
        split_ifs at found
        exact firstWhere_tid found
      rw [← Option.some.inj next]
      by_cases enabled : mt.enabled = true
      · refine inv.moved (.found mt) before (fun tid source => ?_) (fun _ => rfl)
          (by rw [enabled]; rfl)
        rw [← Option.some.inj source]
        exact named
      · exact inv.moved (.finished none) before (own_of_no_source rfl) (fun _ => rfl)
          (by rw [if_neg enabled])
  · contradiction

theorem tasksOf_create (w : World) (mt : MultiTasks) {tid : String} (now : Nat)
    (absent : tid ∉ w.db.tasks.map (·.tid)) (firings : Keyed Nat Firing) (mtTid : String) :
    World.tasksOf { w with
      db := create (creationOf mt) tid now true false w.db, firings } mtTid =
      w.tasksOf mtTid ++ if mt.tid = mtTid then [tid] else [] := by
  have created : (create (creationOf mt) tid now true false w.db).tasks =
      w.db.tasks ++ [(creationOf mt).row tid now] := by
    simp [create, absent]
  have master : ((creationOf mt).row tid now).masterTaskTid = mt.tid := rfl
  simp only [World.tasksOf, created, List.filter_append, List.map_append]
  by_cases here : mt.tid = mtTid
  · rw [if_pos here, List.filter_cons_of_pos (by simpa [master] using here)]
    rfl
  · rw [if_neg here, List.filter_cons_of_neg (by simpa [master] using here)]
    rfl

theorem Inv.createTask (inv : Inv w) {i : Nat} {tid : String} {now : Nat} {fails : Bool}
    (next : createTask w i tid now fails = some w') : Inv w' := by
  simp only [ScheduleFirings.createTask] at next
  split at next
  · rename_i mt found
    have before : (get w.firings i).phase.task = none := by rw [found]; rfl
    have named : mt.tid = (get w.firings i).mtTid :=
      inv.own.get own_default i mt.tid (by rw [found]; rfl)
    split_ifs at next with refused
    · rw [← Option.some.inj next]
      exact inv.moved (.finished none) before.symm (own_of_no_source rfl) (fun _ => rfl) rfl
    · rw [← Option.some.inj next]
      refine inv.created (.created mt tid now) before rfl rfl (fun mtTid => ?_) rfl
      rw [← named]
      exact tasksOf_create w mt now (not_or.mp refused).2 _ mtTid
  · contradiction

theorem Inv.step (inv : Inv w) (action : Action)
    (next : step server w action = some w') : Inv w' := by
  cases action with
  | fire mtTid =>
    simp only [ScheduleFirings.step] at next
    split_ifs at next with enabled
    rw [← Option.some.inj next]
    refine ⟨fun other => ?_, fun entry member => ?_⟩
    · have nothing : contents (createdFor other) [(w.firings.length, ⟨mtTid, .fired⟩)] = [] := by
        simp [contents, createdFor, Phase.task]
      rw [contents_append, nothing, Multiset.coe_nil, add_zero]
      exact inv.tasks other
    · rcases List.mem_append.mp member with old | new
      · exact inv.own entry old
      · rw [List.mem_singleton.mp new]
        exact own_of_no_source rfl
  | lookup i fails => exact inv.lookup next
  | createTask i randBytes now fails => exact inv.createTask next
  | createHistory i fails =>
    simp only [ScheduleFirings.step, createHistory] at next
    split at next
    · rename_i mt tid createTime created
      rw [← Option.some.inj next]
      refine inv.moved (.noted mt tid) (by rw [created]; rfl) (own_of_no_source rfl)
        (fun mtTid => ?_) rfl
      apply tasksOf_congr
      cases fails with
      | true => rfl
      | false => rfl
    · contradiction
  | updateRow i fails =>
    simp only [ScheduleFirings.step, updateRow] at next
    split at next
    · rename_i mt tid noted
      rw [← Option.some.inj next]
      exact inv.moved (.appended mt tid) (by rw [noted]; rfl) (own_of_no_source rfl)
        (fun _ => rfl) rfl
    · contradiction
  | dispatch i fails now =>
    simp only [ScheduleFirings.step, dispatch] at next
    split at next
    · rename_i mt tid appended
      have same : some tid = (get w.firings i).phase.task := by
        rw [appended]
        rfl
      split_ifs at next with connected
      · rw [← Option.some.inj next]
        exact inv.moved (.finished (some tid)) same (own_of_no_source rfl) (fun _ => rfl) rfl
      · rw [← Option.some.inj next]
        refine inv.moved (.finished (some tid)) same (own_of_no_source rfl) (fun mtTid => ?_) rfl
        exact tasksOf_updateTaskStatus mtTid (w.moved i _) _ _ _ _ _
    · contradiction

theorem inv_start (schedules : List (String × CreateScheduleReq)) : Inv (start schedules) :=
  ⟨fun _ => rfl, fun _ member => absurd member List.not_mem_nil⟩

theorem tasksOf_perm {schedules : List (String × CreateScheduleReq)}
    (run : Reaches (step server) free (start schedules) w) (mtTid : String) :
    (w.tasksOf mtTid).Perm ((w.firingsOf mtTid).flatMap fun call => call.2.phase.task.toList) := by
  have inv : Inv w := run.invariant Inv (fun _ action _ inv _ next => inv.step action next)
    (inv_start schedules)
  have split : (w.firingsOf mtTid).flatMap (fun call => call.2.phase.task.toList) =
      contents (createdFor mtTid) w.firings := by
    rw [World.firingsOf, contents]
    induction w.firings with
    | nil => rfl
    | cons call calls ih =>
      by_cases here : call.2.mtTid = mtTid
      · rw [List.filter_cons_of_pos (by simpa using here), List.flatMap_cons, ih, List.flatMap_cons,
          createdFor, if_pos here]
      · rw [List.filter_cons_of_neg (by simpa using here), ih, List.flatMap_cons, createdFor,
          if_neg here, List.nil_append]
  rw [split]
  exact Multiset.coe_eq_coe.mp (inv.tasks mtTid)

/-- No call gets beyond its lookup, which asks for a column that is not there. -/
structure Stuck (w : World) : Prop where
  rows : ∀ row ∈ w.rows, row.subTIDs = []
  tasks : w.db.tasks = []
  firings : All (fun call => call.phase = .fired ∨ call.phase = .finished none) w.firings

theorem stuck_start (schedules : List (String × CreateScheduleReq)) : Stuck (start schedules) := by
  refine ⟨fun row member => ?_, rfl, fun _ member => absurd member List.not_mem_nil⟩
  obtain ⟨schedule, _, rfl⟩ := List.mem_map.mp member
  rfl

theorem Stuck.step (named : server.columns = columns) (inv : Stuck w) (action : Action)
    (next : step server w action = some w') : Stuck w' := by
  have phase : ∀ i, (get w.firings i).phase = .fired ∨ (get w.firings i).phase = .finished none :=
    inv.firings.get (.inr rfl)
  cases action with
  | fire mtTid =>
    simp only [ScheduleFirings.step] at next
    split_ifs at next with enabled
    rw [← Option.some.inj next]
    refine ⟨inv.rows, inv.tasks, fun entry member => ?_⟩
    rcases List.mem_append.mp member with old | new
    · exact inv.firings entry old
    · rw [List.mem_singleton.mp new]
      exact .inl rfl
  | lookup i fails =>
    have missing : firstWhere server.columns w.rows "tid" (get w.firings i).mtTid = none := by
      rw [named]
      exact if_neg (by decide)
    simp only [ScheduleFirings.step, ScheduleFirings.lookup, missing, ite_self] at next
    split at next
    · rw [← Option.some.inj next]
      exact ⟨inv.rows, inv.tasks, inv.firings.set (.inr rfl) i⟩
    · contradiction
  | createTask i randBytes now fails =>
    rcases phase i with here | here <;>
      simp [ScheduleFirings.step, ScheduleFirings.createTask, here] at next
  | createHistory i fails =>
    rcases phase i with here | here <;>
      simp [ScheduleFirings.step, ScheduleFirings.createHistory, here] at next
  | updateRow i fails =>
    rcases phase i with here | here <;>
      simp [ScheduleFirings.step, ScheduleFirings.updateRow, here] at next
  | dispatch i fails now =>
    rcases phase i with here | here <;>
      simp [ScheduleFirings.step, ScheduleFirings.dispatch, here] at next

/-- With the columns that `multi_tasks` has, the firings are recorded exactly as long as
there are none. -/
theorem recorded_iff {schedules : List (String × CreateScheduleReq)} {grpcCC : Bool}
    (run : Reaches (step ⟨columns, grpcCC⟩) free (start schedules) w) :
    Recorded w ↔ w.firings = [] := by
  have stuck : Stuck w := run.invariant Stuck
    (fun _ action _ inv _ next => inv.step rfl action next) (stuck_start schedules)
  have nothing : ∀ mtTid, w.tasksOf mtTid = [] := by
    intro mtTid
    rw [World.tasksOf, stuck.tasks]
    rfl
  constructor
  · intro recorded
    refine List.eq_nil_iff_forall_not_mem.mpr fun call member => ?_
    have count := (recorded call.2.mtTid).1
    have counted : call ∈ w.firingsOf call.2.mtTid :=
      List.mem_filter.mpr ⟨member, decide_eq_true rfl⟩
    rw [nothing, List.length_nil] at count
    exact absurd (List.length_pos_of_mem counted) (by omega)
  · intro none mtTid
    rw [nothing, World.firingsOf, none]
    refine ⟨rfl, fun row member _ => ?_⟩
    rw [stuck.rows row member]

def schedule : List (String × CreateScheduleReq) := [("m", ⟨"", "@hourly", 0, 0, "", 0, 0, 0⟩)]

def oneFiring : List Action := [.fire "m", .lookup 0 false]

def afterOneFiring : World :=
  { start schedule with firings := [(0, ⟨"m", .finished none⟩)] }

theorem oneFiring_runs :
    Reaches (step ⟨columns, true⟩) free (start schedule) afterOneFiring :=
  reaches_of_execute oneFiring (by rfl)

theorem recorded_iff_oneFiring : Recorded afterOneFiring ↔ afterOneFiring.firings = [] :=
  recorded_iff oneFiring_runs

theorem oneFiring_not_recorded :
    ¬ ∀ w, Reaches (step ⟨columns, true⟩) free (start schedule) w →
      w.Finished → Recorded w := by
  intro all
  have finished : afterOneFiring.Finished := by
    intro call member
    rw [List.mem_singleton.mp member]
    exact ⟨none, rfl⟩
  have recorded := all afterOneFiring oneFiring_runs finished
  exact absurd (recorded "m").1 (by decide)

end DropPlatform.ScheduleFirings
