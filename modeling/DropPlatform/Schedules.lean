import DropPlatform.TaskLifecycle

/-! Cron schedules are rows of `multi_tasks`; the process that serves the requests holds a
cron with one entry for each schedule it is to run. Both are changed by the requests for
schedules, and the cron is built anew from the table when the process starts.
A column whose name the table does not have is rejected by the database, and a rejected
or failed statement affects no row. -/

namespace DropPlatform.Schedules
open TransitionRuns TaskStore TaskLifecycle

def triggerCron : Int := 1

/-- A row of `multi_tasks`; the two JSON columns hold what their text stands for. -/
structure MultiTasks where
  tid : String
  subTIDs : List String
  type : Int
  status : Int
  analysisStatus : Int
  triggerType : Int
  cronExpr : String
  scheduleParams : CreateTaskReq
  enabled : Bool
deriving DecidableEq, Repr

/-- The names of the columns for `TID` and `SubTIDs`. -/
structure Columns where
  tid : String
  subTIDs : String
deriving DecidableEq, Repr

def columns : Columns := ⟨"t_id", "sub_t_ids"⟩

def firstWhere (columns : Columns) (rows : List MultiTasks) (column value : String) :
    Option MultiTasks :=
  if column = columns.tid then rows.find? (·.tid = value) else none

/-- The parser of the cron library; it has no schedule for the empty text. -/
structure CronParser where
  valid : String → Bool
  nonempty : valid "" = false

theorem CronParser.ne_empty (parser : CronParser) {cronExpr : String}
    (valid : parser.valid cronExpr = true) : cronExpr ≠ "" := by
  rintro rfl
  rw [parser.nonempty] at valid
  exact absurd valid nofun

/-- `cron` lists the entries of the cron engine, each with the schedule that its function
dispatches; `entry` is the map by which they are found again. -/
structure CronScheduler where
  nextID : Nat
  cron : List (Nat × String)
  entry : List (String × Nat)
  mirrored : cron = entry.map Prod.swap
  tids : (entry.map Prod.fst).Nodup
  ids : (entry.map Prod.snd).Nodup
  issued : ∀ e ∈ entry, e.2 ≤ nextID

namespace CronScheduler

def running (cs : CronScheduler) : List String := cs.cron.map Prod.snd

theorem running_eq (cs : CronScheduler) : cs.running = cs.entry.map Prod.fst := by
  rw [running, cs.mirrored, List.map_map]
  rfl

end CronScheduler

def newCronScheduler : CronScheduler where
  nextID := 0
  cron := []
  entry := []
  mirrored := rfl
  tids := List.nodup_nil
  ids := List.nodup_nil
  issued := nofun

theorem filter_mirrored (cs : CronScheduler) {tid : String} {own : String × Nat}
    (found : cs.entry.find? (·.1 = tid) = some own) :
    cs.cron.filter (·.1 ≠ own.2) = (cs.entry.filter (·.1 ≠ tid)).map Prod.swap := by
  have here := List.mem_of_find?_eq_some found
  have name : own.1 = tid := by simpa using List.find?_some found
  have same : ∀ e ∈ cs.entry, decide (e.2 ≠ own.2) = decide (e.1 ≠ tid) := by
    intro e member
    rw [decide_eq_decide, not_iff_not]
    constructor
    · intro number
      rw [List.inj_on_of_nodup_map cs.ids member here number, name]
    · intro other
      rw [List.inj_on_of_nodup_map cs.tids member here (other.trans name.symm)]
  rw [cs.mirrored, List.filter_map]
  exact congrArg (List.map Prod.swap) (List.filter_congr same)

def removeSchedule (cs : CronScheduler) (mtTid : String) : CronScheduler :=
  match found : cs.entry.find? (·.1 = mtTid) with
  | none => cs
  | some own =>
    { nextID := cs.nextID
      cron := cs.cron.filter (·.1 ≠ own.2)
      entry := cs.entry.filter (·.1 ≠ mtTid)
      mirrored := filter_mirrored cs found
      tids := cs.tids.sublist (List.filter_sublist.map _)
      ids := cs.ids.sublist (List.filter_sublist.map _)
      issued := fun e member => cs.issued e (List.mem_of_mem_filter member) }

theorem mem_running_removeSchedule (cs : CronScheduler) (mtTid tid : String) :
    tid ∈ (removeSchedule cs mtTid).running ↔ tid ∈ cs.running ∧ tid ≠ mtTid := by
  simp only [CronScheduler.running_eq]
  unfold removeSchedule
  split
  · rename_i absent
    have missing : mtTid ∉ cs.entry.map Prod.fst := by
      intro member
      obtain ⟨e, inside, same⟩ := List.mem_map.mp member
      exact List.find?_eq_none.mp absent e inside (decide_eq_true same)
    exact ⟨fun member => ⟨member, fun same => missing (same ▸ member)⟩, And.left⟩
  · simp only [List.mem_map, List.mem_filter, decide_eq_true_eq]
    constructor
    · rintro ⟨e, ⟨member, other⟩, rfl⟩
      exact ⟨⟨e, member, rfl⟩, other⟩
    · rintro ⟨⟨e, member, rfl⟩, other⟩
      exact ⟨e, ⟨member, other⟩, rfl⟩

/-- `cron.AddFunc` with the function that dispatches the schedule, and the note of its number. -/
def addFunc (cs : CronScheduler) (mtTid : String) (absent : mtTid ∉ cs.running) :
    CronScheduler where
  nextID := cs.nextID + 1
  cron := cs.cron ++ [(cs.nextID + 1, mtTid)]
  entry := cs.entry ++ [(mtTid, cs.nextID + 1)]
  mirrored := by
    rw [List.map_append, ← cs.mirrored]
    rfl
  tids := by
    rw [List.map_append, List.map_singleton, ← List.concat_eq_append]
    exact cs.tids.concat (cs.running_eq ▸ absent)
  ids := by
    have new : cs.nextID + 1 ∉ cs.entry.map Prod.snd := by
      intro member
      obtain ⟨e, inside, same⟩ := List.mem_map.mp member
      exact absurd (cs.issued e inside) (by omega)
    rw [List.map_append, List.map_singleton, ← List.concat_eq_append]
    exact cs.ids.concat new
  issued := by
    intro e member
    rcases List.mem_append.mp member with old | new
    · exact Nat.le_succ_of_le (cs.issued e old)
    · rw [List.mem_singleton.mp new]

/-- What is left of an earlier entry is removed even if the new expression is refused. -/
def addSchedule (parser : CronParser) (cs : CronScheduler) (mtTid cronExpr : String) :
    CronScheduler :=
  if parser.valid cronExpr then
    addFunc (removeSchedule cs mtTid) mtTid fun member =>
      ((mem_running_removeSchedule cs mtTid mtTid).mp member).2 rfl
  else removeSchedule cs mtTid

theorem mem_running_addSchedule (parser : CronParser) (cs : CronScheduler)
    (mtTid cronExpr tid : String) :
    tid ∈ (addSchedule parser cs mtTid cronExpr).running ↔
      tid ∈ cs.running ∧ tid ≠ mtTid ∨ tid = mtTid ∧ parser.valid cronExpr = true := by
  rw [addSchedule]
  split_ifs with valid
  · simp only [CronScheduler.running, addFunc, List.map_append, List.map_singleton,
      List.mem_append, List.mem_singleton, valid, and_true]
    exact or_congr_left (mem_running_removeSchedule cs mtTid tid)
  · rw [mem_running_removeSchedule]
    simp [valid]

def MultiTasks.Active (row : MultiTasks) : Prop :=
  row.triggerType = triggerCron ∧ row.enabled = true

instance (row : MultiTasks) : Decidable row.Active := inferInstanceAs (Decidable (_ ∧ _))

def loadSchedule (parser : CronParser) (cs : CronScheduler) (mt : MultiTasks) : CronScheduler :=
  if mt.cronExpr = "" then cs else addSchedule parser cs mt.tid mt.cronExpr

/-- A query that fails yields no rows. -/
def loadExistingSchedules (parser : CronParser) (rows : List MultiTasks) (queryFails : Bool)
    (cs : CronScheduler) : CronScheduler :=
  (if queryFails then [] else rows.filter (·.Active)).foldl (loadSchedule parser) cs

theorem mem_running_foldl_loadSchedule (parser : CronParser) {rows : List MultiTasks}
    (valid : ∀ row ∈ rows, parser.valid row.cronExpr = true) (cs : CronScheduler) (tid : String) :
    tid ∈ (rows.foldl (loadSchedule parser) cs).running ↔
      tid ∈ cs.running ∨ tid ∈ rows.map (·.tid) := by
  induction rows generalizing cs with
  | nil => simp
  | cons row rows ih =>
    have first := valid row List.mem_cons_self
    have others := ih fun other member => valid other (List.mem_cons_of_mem row member)
    rw [List.foldl_cons, others, loadSchedule, if_neg (parser.ne_empty first),
      mem_running_addSchedule, List.map_cons, List.mem_cons]
    by_cases own : tid = row.tid
    · simp [own, first]
    · simp [own]

structure CreateScheduleReq where
  name : String
  cronExpr : String
  type : Int
  profilerType : Int
  targetIP : String
  pid : Int
  duration : Int
  hz : Int
deriving DecidableEq, Repr

structure State where
  rows : List MultiTasks
  scheduler : CronScheduler

inductive Reply
  | error (http code : Nat) (message : String)
  | created (tid cronExpr : String)
  | toggled (tid : String) (enabled : Bool)
  | deleted (tid : String)
deriving DecidableEq, Repr

/-- The parameters kept for the tasks of the schedule; they run without a limit. -/
def CreateScheduleReq.taskParams (req : CreateScheduleReq) : CreateTaskReq where
  name := req.name
  type := taskTypeContinuous
  profilerType := req.profilerType
  targetIP := req.targetIP
  pid := req.pid
  duration := 0
  hz := req.hz
  event := ""

def CreateScheduleReq.row (req : CreateScheduleReq) (tid : String) : MultiTasks where
  tid := tid
  subTIDs := []
  type := req.type
  status := taskStatusPending
  analysisStatus := analysisStatusPending
  triggerType := triggerCron
  cronExpr := req.cronExpr
  scheduleParams := req.taskParams
  enabled := true

/-- `t_id` is the primary key: a second row with it is refused. -/
def createScheduleTask (parser : CronParser) (s : State) (body : Except String CreateScheduleReq)
    (tid : String) (insertFails : Bool) : State × Reply :=
  match body with
  | .error message => (s, .error 400 4000010 message)
  | .ok req =>
    if insertFails ∨ tid ∈ s.rows.map (·.tid) then
      (s, .error 500 5000010 "create schedule task failed")
    else
      (⟨s.rows ++ [req.row tid], addSchedule parser s.scheduler tid req.cronExpr⟩,
        .created tid req.cronExpr)

def MultiTasks.isSchedule (tid : String) (row : MultiTasks) : Bool :=
  row.tid = tid ∧ row.triggerType = triggerCron

/-- The row is looked up again by a column named `tid`, and the error is not looked at:
what cannot be found has the empty expression. -/
def toggleSchedule (parser : CronParser) (s : State) (tid : String) (body : Except String Bool)
    (updateFails : Bool) : State × Reply :=
  match body with
  | .error message => (s, .error 400 4000013 message)
  | .ok enabled =>
    if updateFails ∨ s.rows.any (·.isSchedule tid) = false then
      (s, .error 404 4040013 "schedule not found")
    else
      let rows := s.rows.map fun row =>
        if row.isSchedule tid then { row with enabled := enabled } else row
      let scheduler :=
        if enabled then
          let cronExpr := ((firstWhere columns rows "tid" tid).map (·.cronExpr)).getD ""
          if cronExpr ≠ "" then addSchedule parser s.scheduler tid cronExpr else s.scheduler
        else removeSchedule s.scheduler tid
      (⟨rows, scheduler⟩, .toggled tid enabled)

def deleteSchedule (s : State) (tid : String) (deleteFails : Bool) : State × Reply :=
  if deleteFails ∨ s.rows.any (·.isSchedule tid) = false then
    (s, .error 404 4040014 "schedule not found")
  else
    (⟨s.rows.filter fun row => !row.isSchedule tid, removeSchedule s.scheduler tid⟩, .deleted tid)

inductive Request
  | create (body : Except String CreateScheduleReq) (randBytes : Fin 12 → UInt8)
      (insertFails : Bool)
  | toggle (tid : String) (body : Except String Bool) (updateFails : Bool)
  | delete (tid : String) (deleteFails : Bool)
  | restart (queryFails : Bool)

def next (parser : CronParser) (s : State) : Request → State
  | .create body randBytes insertFails =>
    (createScheduleTask parser s body (genTID randBytes) insertFails).1
  | .toggle tid body updateFails => (toggleSchedule parser s tid body updateFails).1
  | .delete tid deleteFails => (deleteSchedule s tid deleteFails).1
  | .restart queryFails =>
    { s with scheduler := loadExistingSchedules parser s.rows queryFails newCronScheduler }

def initial : State := ⟨[], newCronScheduler⟩

/-- The cron runs exactly the enabled schedules of the table. -/
def Registered (s : State) : Prop :=
  ∀ tid, tid ∈ s.scheduler.running ↔ ∃ row ∈ s.rows, row.tid = tid ∧ row.Active

/-- A created schedule has an expression that the cron accepts, a disabled one is not enabled
again, and the schedules can be read when the process starts. -/
def Sound (parser : CronParser) (s : State) : Request → Prop
  | .create body randBytes insertFails =>
    ∀ req, body = .ok req → insertFails = false → genTID randBytes ∉ s.rows.map (·.tid) →
      parser.valid req.cronExpr = true
  | .toggle tid body updateFails =>
    body = .ok true → updateFails = false → s.rows.any (·.isSchedule tid) = true →
      ∃ row ∈ s.rows, row.tid = tid ∧ row.Active
  | .delete _ _ => True
  | .restart queryFails => queryFails = true → ∀ row ∈ s.rows, ¬ row.Active

structure Inv (parser : CronParser) (s : State) : Prop where
  registered : Registered s
  valid : ∀ row ∈ s.rows, parser.valid row.cronExpr = true

section steps
variable {parser : CronParser} {s : State}

theorem registered_create {req : CreateScheduleReq} {tid : String} (registered : Registered s)
    (absent : tid ∉ s.rows.map (·.tid)) :
    Registered ⟨s.rows ++ [req.row tid], addSchedule parser s.scheduler tid req.cronExpr⟩ ↔
      parser.valid req.cronExpr = true := by
  have unused : ¬ ∃ row ∈ s.rows, row.tid = tid ∧ row.Active := by
    rintro ⟨row, member, same, _⟩
    exact absent (List.mem_map.mpr ⟨row, member, same⟩)
  have active : (req.row tid).Active := ⟨rfl, rfl⟩
  have rows : ∀ other, (∃ row ∈ s.rows ++ [req.row tid], row.tid = other ∧ row.Active) ↔
      (∃ row ∈ s.rows, row.tid = other ∧ row.Active) ∨ other = tid := by
    intro other
    simp only [List.mem_append, List.mem_singleton, or_and_right, exists_or, exists_eq_left, active,
      and_true, eq_comm (a := other)]
    rfl
  simp only [Registered, mem_running_addSchedule, rows, registered _]
  constructor
  · intro all
    simpa [unused] using (all tid).mpr (.inr rfl)
  · intro valid other
    by_cases own : other = tid
    · simp [own, valid]
    · simp [own]

theorem exists_active_toggle {rows : List MultiTasks} {tid : String}
    (present : rows.any (·.isSchedule tid) = true) (enabled : Bool) (other : String) :
    (∃ row ∈ rows.map fun row => if row.isSchedule tid then { row with enabled := enabled } else row,
        row.tid = other ∧ row.Active) ↔
      (∃ row ∈ rows, row.tid = other ∧ row.Active) ∧ other ≠ tid ∨ other = tid ∧ enabled = true := by
  simp only [List.mem_map, exists_exists_and_eq_and]
  by_cases own : other = tid
  · subst own
    simp only [ne_eq, not_true, and_false, false_or, true_and]
    constructor
    · rintro ⟨row, _, same, trigger, on⟩
      by_cases schedule : row.isSchedule other = true
      · simpa only [if_pos schedule] using on
      · simp only [if_neg schedule] at same trigger
        exact absurd (decide_eq_true ⟨same, trigger⟩) schedule
    · intro on
      obtain ⟨row, member, schedule⟩ := List.any_eq_true.mp present
      obtain ⟨same, trigger⟩ := of_decide_eq_true schedule
      refine ⟨row, member, ?_⟩
      rw [if_pos schedule]
      exact ⟨same, trigger, on⟩
  · simp only [ne_eq, own, not_false_iff, and_true, false_and, or_false]
    refine exists_congr fun row => and_congr_right fun _ => ?_
    by_cases schedule : row.isSchedule tid = true
    · have named : row.tid = tid := (of_decide_eq_true schedule).1
      have differs : row.tid ≠ other := fun same => own (same.symm.trans named)
      rw [if_pos schedule]
      exact ⟨fun h => absurd h.1 differs, fun h => absurd h.1 differs⟩
    · rw [if_neg schedule]

theorem exists_active_delete (rows : List MultiTasks) (tid other : String) :
    (∃ row ∈ rows.filter fun row => !row.isSchedule tid, row.tid = other ∧ row.Active) ↔
      (∃ row ∈ rows, row.tid = other ∧ row.Active) ∧ other ≠ tid := by
  constructor
  · rintro ⟨row, member, same, active⟩
    obtain ⟨inside, kept⟩ := List.mem_filter.mp member
    refine ⟨⟨row, inside, same, active⟩, fun own => ?_⟩
    have schedule : row.isSchedule tid = true := decide_eq_true ⟨same.trans own, active.1⟩
    simp [schedule] at kept
  · rintro ⟨⟨row, inside, same, active⟩, differs⟩
    have kept : row.isSchedule tid = false :=
      decide_eq_false fun schedule => differs (same.symm.trans schedule.1)
    exact ⟨row, List.mem_filter.mpr ⟨inside, by rw [kept]; rfl⟩, same, active⟩

theorem toggleSchedule_enable {tid : String} (present : s.rows.any (·.isSchedule tid) = true) :
    (toggleSchedule parser s tid (.ok true) false).1 =
      { s with rows := s.rows.map fun row =>
          if row.isSchedule tid then { row with enabled := true } else row } := by
  have lookup : ∀ rows, firstWhere columns rows "tid" tid = none := fun _ => if_neg (by decide)
  simp [toggleSchedule, present, lookup]

theorem toggleSchedule_disable {tid : String} (present : s.rows.any (·.isSchedule tid) = true) :
    (toggleSchedule parser s tid (.ok false) false).1 =
      ⟨s.rows.map fun row => if row.isSchedule tid then { row with enabled := false } else row,
        removeSchedule s.scheduler tid⟩ := by
  simp [toggleSchedule, present]

theorem registered_enable {tid : String} (registered : Registered s)
    (present : s.rows.any (·.isSchedule tid) = true) :
    Registered (toggleSchedule parser s tid (.ok true) false).1 ↔
      ∃ row ∈ s.rows, row.tid = tid ∧ row.Active := by
  rw [toggleSchedule_enable present]
  simp only [Registered, exists_active_toggle present, registered _, and_true]
  constructor
  · intro all
    simpa using (all tid).mpr (.inr rfl)
  · intro active other
    by_cases own : other = tid
    · simp only [own, active, ne_eq, not_true, and_false, or_true]
    · simp [own]

theorem registered_disable {tid : String} (registered : Registered s)
    (present : s.rows.any (·.isSchedule tid) = true) :
    Registered (toggleSchedule parser s tid (.ok false) false).1 := by
  rw [toggleSchedule_disable present]
  intro other
  rw [mem_running_removeSchedule, exists_active_toggle present, registered]
  simp

theorem registered_restart (inv : Inv parser s) (queryFails : Bool) :
    Registered (next parser s (.restart queryFails)) ↔ Sound parser s (.restart queryFails) := by
  have running : ∀ tid, tid ∈ (next parser s (.restart queryFails)).scheduler.running ↔
      queryFails = false ∧ ∃ row ∈ s.rows, row.tid = tid ∧ row.Active := by
    intro tid
    have valid : ∀ row ∈ if queryFails then [] else s.rows.filter (·.Active),
        parser.valid row.cronExpr = true := by
      cases queryFails with
      | true => exact fun _ member => absurd member List.not_mem_nil
      | false => exact fun row member => inv.valid row (List.mem_of_mem_filter member)
    simp only [next, loadExistingSchedules]
    rw [mem_running_foldl_loadSchedule parser valid]
    cases queryFails with
    | true => simp [newCronScheduler, CronScheduler.running]
    | false =>
      simp only [newCronScheduler, CronScheduler.running, List.map_nil, List.not_mem_nil, false_or,
        Bool.false_eq_true, if_false, List.mem_map, List.mem_filter, decide_eq_true_eq, true_and]
      exact exists_congr fun row => by tauto
  simp only [Registered, running, Sound]
  cases queryFails with
  | true =>
    simp only [Bool.true_eq_false, false_and, false_iff, forall_true_left]
    constructor
    · intro none row member active
      exact none row.tid ⟨row, member, rfl, active⟩
    · rintro none tid ⟨row, member, _, active⟩
      exact none row member active
  | false => simp [next]

theorem registered_createScheduleTask (registered : Registered s)
    (body : Except String CreateScheduleReq) (randBytes : Fin 12 → UInt8) (insertFails : Bool) :
    Registered (next parser s (.create body randBytes insertFails)) ↔
      Sound parser s (.create body randBytes insertFails) := by
  simp only [next, createScheduleTask, Sound]
  cases body with
  | error message => exact ⟨fun _ _ bound => absurd bound nofun, fun _ => registered⟩
  | ok req =>
    by_cases refused : insertFails = true ∨ genTID randBytes ∈ s.rows.map (·.tid)
    · simp only [if_pos refused]
      refine ⟨fun _ req' _ stored absent => ?_, fun _ => registered⟩
      rcases refused with failed | present
      · exact absurd (stored.symm.trans failed) Bool.false_ne_true
      · exact absurd present absent
    · obtain ⟨stored, absent⟩ := not_or.mp refused
      simp only [if_neg refused, registered_create registered absent]
      constructor
      · intro valid req' same _ _
        rw [← Except.ok.inj same]
        exact valid
      · intro all
        exact all req rfl (Bool.eq_false_iff.mpr stored) absent

theorem registered_toggleSchedule (registered : Registered s) (tid : String)
    (body : Except String Bool) (updateFails : Bool) :
    Registered (next parser s (.toggle tid body updateFails)) ↔
      Sound parser s (.toggle tid body updateFails) := by
  simp only [next, Sound]
  cases body with
  | error message => exact ⟨fun _ bound => absurd bound nofun, fun _ => registered⟩
  | ok enabled =>
    by_cases refused : updateFails = true ∨ s.rows.any (·.isSchedule tid) = false
    · have unchanged : (toggleSchedule parser s tid (.ok enabled) updateFails).1 = s := by
        simp only [toggleSchedule, if_pos refused]
      rw [unchanged]
      refine ⟨fun _ _ stored present => ?_, fun _ => registered⟩
      rcases refused with failed | absent
      · exact absurd (stored.symm.trans failed) Bool.false_ne_true
      · exact absurd (absent.symm.trans present) Bool.false_ne_true
    · obtain ⟨stored, found⟩ := not_or.mp refused
      obtain rfl : updateFails = false := Bool.eq_false_iff.mpr stored
      have present := (Bool.not_eq_false _).mp found
      cases enabled with
      | false =>
        exact ⟨fun _ bound => absurd bound nofun, fun _ => registered_disable registered present⟩
      | true =>
        rw [registered_enable registered present]
        exact ⟨fun active _ _ _ => active, fun all => all rfl rfl present⟩

theorem registered_next (inv : Inv parser s) (request : Request) :
    Registered (next parser s request) ↔ Sound parser s request := by
  have registered := inv.registered
  cases request with
  | create body randBytes insertFails =>
    exact registered_createScheduleTask registered body randBytes insertFails
  | toggle tid body updateFails => exact registered_toggleSchedule registered tid body updateFails
  | delete tid deleteFails =>
    refine ⟨fun _ => trivial, fun _ => ?_⟩
    simp only [next, deleteSchedule]
    split_ifs
    · exact registered
    · intro other
      rw [mem_running_removeSchedule, exists_active_delete, registered]
  | restart queryFails => exact registered_restart inv queryFails

theorem Inv.next (inv : Inv parser s) {request : Request} (sound : Sound parser s request) :
    Inv parser (next parser s request) := by
  refine ⟨(registered_next inv request).mpr sound, fun row member => ?_⟩
  cases request with
  | create body randBytes insertFails =>
    cases body with
    | error message => exact inv.valid row member
    | ok req =>
      simp only [Schedules.next, createScheduleTask] at member
      by_cases refused : insertFails = true ∨ genTID randBytes ∈ s.rows.map (·.tid)
      · rw [if_pos refused] at member
        exact inv.valid row member
      · rw [if_neg refused] at member
        obtain ⟨stored, absent⟩ := not_or.mp refused
        rcases List.mem_append.mp member with old | new
        · exact inv.valid row old
        · rw [List.mem_singleton.mp new]
          exact sound req rfl (Bool.eq_false_iff.mpr stored) absent
  | toggle tid body updateFails =>
    cases body with
    | error message => exact inv.valid row member
    | ok enabled =>
      simp only [Schedules.next, toggleSchedule] at member
      by_cases refused : updateFails = true ∨ s.rows.any (·.isSchedule tid) = false
      · rw [if_pos refused] at member
        exact inv.valid row member
      · rw [if_neg refused] at member
        obtain ⟨old, inside, rfl⟩ := List.mem_map.mp member
        have valid := inv.valid old inside
        split_ifs
        · exact valid
        · exact valid
  | delete tid deleteFails =>
    simp only [Schedules.next, deleteSchedule] at member
    split_ifs at member
    · exact inv.valid row member
    · exact inv.valid row (List.mem_of_mem_filter member)
  | restart queryFails => exact inv.valid row member

end steps

theorem inv_initial (parser : CronParser) : Inv parser initial := by
  refine ⟨fun tid => ?_, fun _ member => absurd member List.not_mem_nil⟩
  simp [initial, newCronScheduler, CronScheduler.running]

/-- Table and cron agree after every request of a run exactly if every request is sound. -/
theorem registered_iff (parser : CronParser) (requests : List Request) :
    (∀ t ∈ trace (next parser) initial requests, Registered t.2.2) ↔
      ∀ t ∈ trace (next parser) initial requests, Sound parser t.1 t.2.1 :=
  trace_iff (fun s _ (inv : Inv parser s) sound => inv.next sound) (fun _ inv => inv.registered)
    (fun _ request inv after => (registered_next inv request).mp after) (inv_initial parser) requests

def reenabled : List Request :=
  [.create (.ok ⟨"", "@hourly", 0, 0, "", 0, 0, 0⟩) (fun _ => 0) false,
    .toggle "aaaaaaaaaaaa" (.ok false) false, .toggle "aaaaaaaaaaaa" (.ok true) false]

theorem reenabled_not_registered :
    ¬ ∀ t ∈ trace (next ⟨fun cronExpr => cronExpr = "@hourly", rfl⟩) initial reenabled,
      Registered t.2.2 := by
  intro all
  have last := all _ (List.getLast_mem (l := trace _ initial reenabled) nofun) "aaaaaaaaaaaa"
  exact absurd last (by decide)

end DropPlatform.Schedules
