import DropPlatform.ExclusiveHoldings
import DropPlatform.TaskLifecycle

/-! The analysis of finished tasks at the granularity of single database statements: ticks of
any number of apiservers, the analyzer processes they start and wait for, analyzers started by
hand, and everything else that happens to the tasks. Selecting a task and marking it are two
statements, the mark is unconditional, and so are the analyzer's own writes. Two ticks may
therefore analyse one task, and a run by hand takes a finished analysis back. -/

namespace DropPlatform.AnalysisRuns
open TransitionRuns TaskStore KeyedStores ExclusiveHoldings
open TaskLifecycle (AnalysisWrite selectedByTick)

section model

/-- How a write ends. A write that is not acknowledged has been committed, but its caller is
told of an error. -/
inductive Outcome
  | ok | refused | unacknowledged
deriving DecidableEq, Repr

def Outcome.applied (o : Outcome) : Bool := o ≠ .refused

/-- Where the analysis of one task stands for those who work on it. -/
inductive Phase
  /-- Selected by a tick. -/
  | queued
  /-- Marked by `spawnAnalysis`. -/
  | spawning
  /-- The analyzer process has been started. -/
  | started
  /-- It has written that the analysis is running. -/
  | marked
  | working
  /-- Its suggestions have been inserted, or it has none. -/
  | finishing
  /-- It has written that the analysis succeeded. -/
  | succeeded
  /-- It has caught an exception. -/
  | failing
  | exited (zero : Bool)
deriving DecidableEq, Repr

/-- A tick with the analyzer it waits for, or an analyzer that nobody waits for. -/
structure Process where
  scheduler : Bool
  job : Option (String × Phase)
  queue : List String
deriving DecidableEq, Repr

instance inhabitedProcess : Inhabited Process := ⟨⟨false, none, []⟩⟩

def Process.held (p : Process) : List (String × Phase) :=
  p.job.toList ++ p.queue.map fun tid => (tid, .queued)

structure RuleMatch where
  func : String
  advice : String
deriving DecidableEq, Repr

/-- One committed transaction of `insert_suggestions`. -/
structure Insertion where
  tid : String
  ruleMatches : List RuleMatch
  aiResult : Option String
deriving DecidableEq, Repr

structure AnalysisSuggestion where
  tid : String
  func : String
  suggestion : String
  aiSuggestion : Option String
  status : Int
deriving DecidableEq, Repr

def Insertion.rows (ins : Insertion) : List AnalysisSuggestion :=
  (ins.ruleMatches.map fun m => ⟨ins.tid, m.func, m.advice, none, 0⟩) ++
    ins.aiResult.toList.map fun text => ⟨ins.tid, "__ai_summary__", "", some text, 1⟩

structure Store where
  db : Tables
  /-- The table of suggestions, as the transactions that wrote it. -/
  insertions : List Insertion
  /-- The tasks that schedulers have started an analyzer for. -/
  spawned : List String
deriving DecidableEq, Repr

def Store.suggestions (s : Store) : List AnalysisSuggestion := s.insertions.flatMap Insertion.rows

def Store.write (s : Store) (o : Outcome) (tid : String) (write : AnalysisWrite) : Store :=
  if o.applied then { s with db := s.db.setTask tid write.apply } else s

structure World where
  store : Store
  processes : Keyed Nat Process
deriving DecidableEq, Repr

inductive Move
  | markRunning (o : Outcome)
  | getTaskInfo (fails : Bool)
  | insertSuggestions (ruleMatches : List RuleMatch) (aiResult : Option String) (o : Outcome)
  /-- There is no `top.json`. -/
  | noSuggestions
  | markSuccess (o : Outcome)
  | exit
  /-- Any other statement of the `try` block raises. -/
  | raise
  | markFailed (error : String) (o : Outcome)
  /-- The process is killed. -/
  | die
deriving DecidableEq, Repr

/-- The analyzer's `main`. The first update stands before the `try` block; a task that is not
found ends the process by `sys.exit`, which the block does not catch. -/
def main (s : Store) (tid : String) : Phase → Move → Option (Store × Phase)
  | .started, .markRunning o =>
    some (s.write o tid .analyzerRunning, if o = .ok then .marked else .exited false)
  | .marked, .getTaskInfo fails =>
    if fails then some (s, .failing)
    else match s.db.tasks.find? (·.tid = tid) with
      | none => some (s, .exited false)
      | some task => some (s, if task.cosKey = "" then .failing else .working)
  | .working, .insertSuggestions ruleMatches aiResult o =>
    let insertions := if o.applied then [⟨tid, ruleMatches, aiResult⟩] else []
    some ({ s with insertions := s.insertions ++ insertions }, .finishing)
  | .working, .noSuggestions => some (s, .finishing)
  | .finishing, .markSuccess o =>
    some (s.write o tid .analyzerSuccess, if o = .ok then .succeeded else .failing)
  | .succeeded, .exit => some (s, .exited true)
  | .working, .raise | .finishing, .raise | .succeeded, .raise => some (s, .failing)
  | .failing, .markFailed error o => some (s.write o tid (.analyzerFailed error), .exited false)
  | .started, .die | .marked, .die | .working, .die | .finishing, .die | .succeeded, .die
  | .failing, .die => some (s, .exited false)
  | _, _ => none

inductive Action
  /-- A step of the rest of the platform. -/
  | elsewhere (a : TaskLifecycle.Action)
  /-- The query of `runAnalysisTick`. -/
  | select (i : Nat) (fails : Bool)
  /-- The first update of `spawnAnalysis`. -/
  | mark (i : Nat) (o : Outcome)
  /-- `cmd.CombinedOutput` starts the process, or cannot. -/
  | spawn (i : Nat) (launched : Bool)
  /-- The process has ended; its tick reports a failure. -/
  | collect (i : Nat) (reason : String) (o : Outcome)
  /-- The apiserver of a tick stops; the analyzer goes on without it. -/
  | crash (i : Nat)
  /-- `hotmethod_analyzer.py` is started by hand. -/
  | manual (i : Nat) (tid : String)
  | analyzer (i : Nat) (move : Move)

def step (w : World) : Action → Option World
  | .elsewhere a =>
    (TaskLifecycle.step ⟨w.store.db, []⟩ a).map fun p => { w with store.db := p.db }
  | .select i fails =>
    if (get w.processes i).held ≠ [] then none
    else
      let queue := if fails then [] else selectedByTick w.store.db
      some { w with processes := set w.processes i ⟨true, none, queue⟩ }
  | .mark i o =>
    match get w.processes i with
    | ⟨true, none, tid :: rest⟩ =>
      let job := if o = .ok then some (tid, .spawning) else none
      some ⟨w.store.write o tid .spawnRunning, set w.processes i ⟨true, job, rest⟩⟩
    | _ => none
  | .spawn i launched =>
    match get w.processes i with
    | ⟨scheduler, some (tid, .spawning), queue⟩ =>
      let spawned := if launched then w.store.spawned ++ [tid] else w.store.spawned
      let job := (tid, if launched then .started else .exited false)
      some ⟨{ w.store with spawned }, set w.processes i ⟨scheduler, some job, queue⟩⟩
    | _ => none
  | .collect i reason o =>
    match get w.processes i with
    | ⟨scheduler, some (tid, .exited zero), queue⟩ =>
      let store := if scheduler ∧ zero = false then w.store.write o tid (.spawnFailed reason)
        else w.store
      some ⟨store, set w.processes i ⟨scheduler, none, queue⟩⟩
    | _ => none
  | .crash i =>
    let p := get w.processes i
    some { w with processes := set w.processes i ⟨false, p.job.filter (·.2 ≠ .spawning), []⟩ }
  | .manual i tid =>
    if (get w.processes i).held ≠ [] then none
    else some { w with processes := set w.processes i ⟨false, some (tid, .started), []⟩ }
  | .analyzer i move =>
    match get w.processes i with
    | ⟨scheduler, some (tid, phase), queue⟩ =>
      (main w.store tid phase move).map fun after =>
        ⟨after.1, set w.processes i ⟨scheduler, some (tid, after.2), queue⟩⟩
    | _ => none

def initial : World := ⟨⟨⟨[], []⟩, [], []⟩, []⟩

end model

section invariant

/-- An analyzer that has written success ends with success. -/
def EndsWell : Phase → Move → Prop
  | _, .markSuccess o => o ≠ .unacknowledged
  | phase, .raise | phase, .die => phase ≠ .succeeded
  | _, _ => True

instance endsWellDecidable (phase : Phase) : (move : Move) → Decidable (EndsWell phase move)
  | .markSuccess o => inferInstanceAs (Decidable (o ≠ .unacknowledged))
  | .raise | .die => inferInstanceAs (Decidable (phase ≠ .succeeded))
  | .markRunning _ | .getTaskInfo _ | .insertSuggestions _ _ _ | .noSuggestions | .exit
  | .markFailed _ _ => .isTrue trivial

/-- Nobody else works on a task when a tick selects it or it is analysed by hand, which is done
to pending tasks only. -/
def Single (w : World) : Action → Prop
  | .select _ _ => ∀ tid ∈ selectedByTick w.store.db, Unheld Process.held w.processes tid
  | .manual _ tid => Unheld Process.held w.processes tid ∧
      ∃ task ∈ w.store.db.tasks, task.tid = tid ∧ task.analysisStatus = analysisStatusPending
  | .analyzer i move => ∀ job ∈ (get w.processes i).job, EndsWell job.2 move
  | _ => True

instance singleDecidable (w : World) : (a : Action) → Decidable (Single w a)
  | .select _ _ => inferInstanceAs (Decidable (∀ tid ∈ _, Unheld _ _ tid))
  | .manual _ _ => inferInstanceAs (Decidable (_ ∧ ∃ task ∈ w.store.db.tasks, _))
  | .analyzer i _ => inferInstanceAs (Decidable (∀ job ∈ (get w.processes i).job, _))
  | .elsewhere _ | .mark _ _ | .spawn _ _ | .collect _ _ _ | .crash _ => .isTrue trivial

def Known (s : Store) (tid : String) : Prop := tid ∈ s.db.tasks.map (·.tid)

/-- What the rows of a task can be in a phase of its analysis. -/
def Phase.allows : Phase → HotmethodTask → Prop
  | .queued, task => task.analysisStatus = analysisStatusPending
  | .spawning, task => task.analysisStatus = analysisStatusRunning ∨
      task.deleted ∧ task.analysisStatus = analysisStatusPending
  | .started, task => task.analysisStatus = analysisStatusPending ∨
      task.analysisStatus = analysisStatusRunning
  | .marked, task | .working, task | .finishing, task | .failing, task =>
    task.analysisStatus = analysisStatusRunning
  | .succeeded, task => task.analysisStatus = analysisStatusSuccess
  | .exited zero, task => zero = false → task.analysisStatus ≠ analysisStatusSuccess

def Phase.beforeStart : Phase → Bool
  | .queued | .spawning => true
  | _ => false

def Phase.beforeInsertion : Phase → Bool
  | .queued | .spawning | .started | .marked | .working => true
  | _ => false

/-- Nothing that a phase rules out is possible again in a later one. -/
abbrev Phase.Later (phase phase' : Phase) : Prop :=
  (phase'.beforeStart → phase.beforeStart) ∧ (phase'.beforeInsertion → phase.beforeInsertion)

structure Fits (s : Store) (tid : String) (phase : Phase) : Prop where
  known : Known s tid
  rows : ∀ task ∈ s.db.tasks, task.tid = tid → phase.allows task
  unstarted : phase.beforeStart → tid ∉ s.spawned
  unwritten : phase.beforeInsertion → ∀ ins ∈ s.insertions, ins.tid ≠ tid

def insertionsOf (s : Store) (tid : String) : List Insertion := s.insertions.filter (·.tid = tid)

/-- What holds of a task whoever works on it. -/
structure Tracked (s : Store) (tid : String) : Prop where
  startedOnce : s.spawned.count tid ≤ 1
  writtenOnce : (insertionsOf s tid).length ≤ 1
  started : tid ∈ s.spawned → Known s tid ∧ ∀ task ∈ s.db.tasks, task.tid = tid →
    task.analysisStatus ≠ analysisStatusPending ∨ task.deleted
  written : ∀ ins ∈ s.insertions, ins.tid = tid → Known s tid ∧
    ∀ task ∈ s.db.tasks, task.tid = tid → task.analysisStatus ≠ analysisStatusPending

structure Inv (w : World) : Prop where
  unique : (w.store.db.tasks.map (·.tid)).Nodup
  exclusive : Exclusive Process.held (Fits w.store) w.processes
  tracked : ∀ tid, Tracked w.store tid

/-- A task that a step does not concern: its rows keep their analysis, or it gets its first one. -/
structure Frame (s t : Store) (tid : String) : Prop where
  known : Known s tid → Known t tid
  rows : Known s tid → ∀ task ∈ t.db.tasks, task.tid = tid → ∃ before ∈ s.db.tasks,
    before.tid = tid ∧ before.analysisStatus = task.analysisStatus ∧ (before.deleted → task.deleted)
  spawned : t.spawned.count tid = s.spawned.count tid
  insertions : insertionsOf t tid = insertionsOf s tid

end invariant

section frames
variable {s t : Store} {tid : String}

theorem Phase.allows_mono {phase : Phase} {before task : HotmethodTask}
    (analysis : before.analysisStatus = task.analysisStatus)
    (deletion : before.deleted → task.deleted) (ok : phase.allows before) : phase.allows task := by
  cases phase with
  | spawning => exact ok.imp (analysis ▸ ·) fun both => ⟨deletion both.1, analysis ▸ both.2⟩
  | _ => simpa only [Phase.allows, analysis] using ok

theorem mem_insertionsOf {ins : Insertion} :
    ins ∈ insertionsOf s tid ↔ ins ∈ s.insertions ∧ ins.tid = tid := by
  simp [insertionsOf]

theorem Frame.mem_spawned (frame : Frame s t tid) : tid ∈ t.spawned ↔ tid ∈ s.spawned := by
  rw [← List.count_pos_iff, frame.spawned, List.count_pos_iff]

theorem Frame.mem_insertions (frame : Frame s t tid) {ins : Insertion} (own : ins.tid = tid) :
    ins ∈ t.insertions ↔ ins ∈ s.insertions := by
  have same : ins ∈ insertionsOf t tid ↔ ins ∈ insertionsOf s tid := by rw [frame.insertions]
  simpa only [mem_insertionsOf, own, and_true] using same

theorem Fits.frame {phase : Phase} (frame : Frame s t tid) (fits : Fits s tid phase) :
    Fits t tid phase where
  known := frame.known fits.known
  rows task member own := by
    obtain ⟨before, there, same, analysis, deletion⟩ := frame.rows fits.known task member own
    exact Phase.allows_mono analysis deletion (fits.rows before there same)
  unstarted early := by
    rw [frame.mem_spawned]
    exact fits.unstarted early
  unwritten early ins member own :=
    fits.unwritten early ins ((frame.mem_insertions own).mp member) own

theorem Tracked.frame (frame : Frame s t tid) (tracked : Tracked s tid) : Tracked t tid where
  startedOnce := frame.spawned ▸ tracked.startedOnce
  writtenOnce := frame.insertions ▸ tracked.writtenOnce
  started member := by
    obtain ⟨known, rows⟩ := tracked.started (frame.mem_spawned.mp member)
    refine ⟨frame.known known, fun task there own => ?_⟩
    obtain ⟨before, here, same, analysis, deletion⟩ := frame.rows known task there own
    rw [← analysis]
    exact (rows before here same).imp id deletion
  written ins member own := by
    obtain ⟨known, rows⟩ := tracked.written ins ((frame.mem_insertions own).mp member) own
    refine ⟨frame.known known, fun task there own' => ?_⟩
    obtain ⟨before, here, same, analysis, _⟩ := frame.rows known task there own'
    rw [← analysis]
    exact rows before here same

theorem Frame.refl (s : Store) (tid : String) : Frame s s tid where
  known known := known
  rows _ task member own := ⟨task, member, own, rfl, id⟩
  spawned := rfl
  insertions := rfl

end frames

section writes
variable {s t : Store} {tid : String} {f : HotmethodTask → HotmethodTask}

def Settled (analysisStatus : Int) : Prop :=
  analysisStatus = analysisStatusSuccess ∨ analysisStatus = analysisStatusFailed

def Kept (s t : Store) : Prop := ∀ task ∈ s.db.tasks, Settled task.analysisStatus →
  ∃ after ∈ t.db.tasks, after.tid = task.tid ∧ after.analysisStatus = task.analysisStatus

instance settledDecidable (analysisStatus : Int) : Decidable (Settled analysisStatus) :=
  inferInstanceAs (Decidable (_ ∨ _))

instance keptDecidable (s t : Store) : Decidable (Kept s t) :=
  inferInstanceAs (Decidable (∀ task ∈ s.db.tasks, _))

theorem Kept.refl (s : Store) : Kept s s := fun task member _ => ⟨task, member, rfl, rfl⟩

theorem Kept.trans {u : Store} (first : Kept s t) (second : Kept t u) : Kept s u := by
  intro task member settled
  obtain ⟨middle, there, own, same⟩ := first task member settled
  obtain ⟨after, here, own', same'⟩ := second middle there (by rw [same]; exact settled)
  exact ⟨after, here, own'.trans own, same'.trans same⟩

theorem frame_setTask {other : String} (apart : other ≠ tid)
    (keeps : ∀ task, (f task).tid = task.tid) :
    Frame s { s with db := s.db.setTask tid f } other where
  known known := by
    rw [Known, tids_setTask s.db tid keeps]
    exact known
  rows _ task member own := by
    obtain ⟨before, there, rfl⟩ := mem_setTask member
    split_ifs at own ⊢ with here
    · rw [keeps, here] at own
      exact absurd own.symm apart
    · exact ⟨before, there, own, rfl, id⟩
  spawned := rfl
  insertions := rfl

theorem kept_setTask (keeps : ∀ task, (f task).tid = task.tid)
    (same : ∀ task ∈ s.db.tasks, task.tid = tid → Settled task.analysisStatus →
      (f task).analysisStatus = task.analysisStatus) :
    Kept s { s with db := s.db.setTask tid f } := by
  intro task member settled
  refine ⟨_, List.mem_map_of_mem member, ?_⟩
  split_ifs with here
  · exact ⟨keeps task, same task member here settled⟩
  · exact ⟨rfl, rfl⟩

structure Quiet (s t : Store) : Prop where
  unique : (s.db.tasks.map (·.tid)).Nodup → (t.db.tasks.map (·.tid)).Nodup
  frame : ∀ tid, Frame s t tid
  kept : Kept s t

theorem Quiet.refl (s : Store) : Quiet s s := ⟨id, Frame.refl s, Kept.refl s⟩

theorem quiet_setTask (keeps : ∀ task, (f task).tid = task.tid)
    (analysis : ∀ task, (f task).analysisStatus = task.analysisStatus)
    (deletion : ∀ task, task.deleted → (f task).deleted) :
    Quiet s { s with db := s.db.setTask tid f } where
  unique distinct := by
    rw [tids_setTask s.db tid keeps]
    exact distinct
  frame other :=
    { known known := by
        rw [Known, tids_setTask s.db tid keeps]
        exact known
      rows _ task member own := by
        obtain ⟨before, there, rfl⟩ := mem_setTask member
        refine ⟨before, there, ?_⟩
        split_ifs at own ⊢ with here
        · exact ⟨(keeps before).symm.trans own, (analysis before).symm, deletion before⟩
        · exact ⟨own, rfl, id⟩
      spawned := rfl
      insertions := rfl }
  kept := kept_setTask keeps fun task _ _ _ => analysis task

theorem quiet_transition {db : Tables} {reason : String}
    (done : db = s.db ∨ Transition s.db db tid reason) : Quiet s { s with db } := by
  rcases done with rfl | ⟨task, _, newStatus, now, _, _, rfl⟩
  · exact Quiet.refl s
  · have update : Quiet s { s with db := s.db.setTask tid (·.withStatus newStatus reason now) } :=
      quiet_setTask (fun _ => rfl) (fun _ => rfl) fun _ deleted => deleted
    exact ⟨update.unique, fun tid => ⟨(update.frame tid).known, (update.frame tid).rows, rfl, rfl⟩,
      update.kept⟩

theorem quiet_insert {task : HotmethodTask} (fresh : ¬ Known s task.tid)
    (history : List TaskStatusHistory) :
    Quiet s { s with db := ⟨s.db.tasks ++ [task], history⟩ } where
  unique distinct := by
    rw [List.map_append, List.nodup_append_comm]
    exact List.nodup_cons.mpr ⟨fresh, distinct⟩
  frame tid :=
    { known known := by
        rw [Known, List.map_append]
        exact List.mem_append_left _ known
      rows known row member own := by
        rcases List.mem_append.mp member with there | new
        · exact ⟨row, there, own, rfl, id⟩
        · rw [List.mem_singleton.mp new] at own
          exact absurd (own ▸ known) fresh
      spawned := rfl
      insertions := rfl }
  kept row member _ := ⟨row, List.mem_append_left _ member, rfl, rfl⟩

theorem quiet_create (creation : TaskLifecycle.Creation) (now : Nat) (rowOk historyOk : Bool) :
    Quiet s { s with db := TaskLifecycle.create creation tid now rowOk historyOk s.db } := by
  unfold TaskLifecycle.create
  split_ifs with refused recorded
  · exact Quiet.refl s
  all_goals
    have fresh : ¬ Known s (creation.row tid now).tid := by
      rw [TaskLifecycle.row_tid]
      exact (not_or.mp refused).2
    exact quiet_insert fresh _

theorem quiet_elsewhere {a : TaskLifecycle.Action} {p : TaskLifecycle.Platform}
    (next : TaskLifecycle.step ⟨s.db, []⟩ a = some p) : Quiet s { s with db := p.db } := by
  cases a with
  | create creation tid now rowOk historyOk =>
    rw [← Option.some.inj next]
    exact quiet_create creation now rowOk historyOk
  | apiserverUpdate fails tid newStatus reason now =>
    rw [← Option.some.inj next]
    exact quiet_transition (apiserver_updateTaskStatus_cases fails s.db tid newStatus reason now)
  | healthCheckDo fails tid now =>
    rw [← Option.some.inj next]
    exact quiet_transition (dropServer_updateTaskStatus_cases fails s.db tid _ _ now)
  | notifyResult fails result k now =>
    obtain ⟨update, _, rfl⟩ := Option.map_eq_some_iff.mp next
    exact quiet_transition (dropServer_updateTaskStatus_cases fails s.db _ _ _ now)
  | uploadTaskFile tid filename =>
    rw [← Option.some.inj next]
    apply quiet_setTask <;> intro task <;> split_ifs <;> first | rfl | exact id
  | deleteTask tid =>
    rw [← Option.some.inj next]
    exact quiet_setTask (fun _ => rfl) (fun _ => rfl) fun _ _ => rfl
  | analysisTick =>
    rw [← Option.some.inj next]
    exact Quiet.refl s
  | analysisWrite tid write => 
    simp [TaskLifecycle.step] at next

end writes

section touches
variable {s t : Store} {tid : String} {phase phase' : Phase} {o : Outcome} {wr : AnalysisWrite}

def written : AnalysisWrite → Int
  | .spawnRunning | .analyzerRunning => analysisStatusRunning
  | .analyzerSuccess => analysisStatusSuccess
  | .spawnFailed _ | .analyzerFailed _ => analysisStatusFailed

theorem written_ne_pending (wr : AnalysisWrite) : written wr ≠ analysisStatusPending := by
  cases wr <;> simp only [written] <;> decide

theorem apply_analysisStatus (wr : AnalysisWrite) (task : HotmethodTask) :
    (wr.apply task).analysisStatus = written wr ∨
      task.deleted ∧ (wr.apply task).analysisStatus = task.analysisStatus := by
  cases wr with
  | spawnRunning | spawnFailed =>
    simp only [AnalysisWrite.apply]
    split_ifs with deleted
    · exact .inr ⟨deleted, rfl⟩
    · exact .inl rfl
  | analyzerRunning | analyzerSuccess | analyzerFailed => exact .inl rfl

theorem apply_deleted (wr : AnalysisWrite) (task : HotmethodTask) :
    (wr.apply task).deleted = task.deleted := by
  cases wr with
  | spawnRunning | spawnFailed =>
    simp only [AnalysisWrite.apply]
    split_ifs <;> rfl
  | analyzerRunning | analyzerSuccess | analyzerFailed => rfl

theorem apply_ne_pending {task : HotmethodTask}
    (begun : task.analysisStatus ≠ analysisStatusPending) :
    (wr.apply task).analysisStatus ≠ analysisStatusPending := by
  rcases apply_analysisStatus wr task with set | ⟨_, same⟩
  · rw [set]
    exact written_ne_pending wr
  · rw [same]
    exact begun

theorem forall_rows_setTask {P : HotmethodTask → Prop}
    (rows : ∀ task ∈ s.db.tasks, task.tid = tid → P (wr.apply task)) :
    ∀ task ∈ (s.db.setTask tid wr.apply).tasks, task.tid = tid → P task := by
  intro task member own
  obtain ⟨before, there, rfl⟩ := mem_setTask member
  split_ifs at own ⊢ with here
  · exact rows before there here
  · exact absurd own here

structure Touches (s t : Store) (tid : String) : Prop where
  tids : t.db.tasks.map (·.tid) = s.db.tasks.map (·.tid)
  frame : ∀ other, other ≠ tid → Frame s t other
  tracked : Tracked t tid
  kept : Kept s t

theorem touches_refl (tracked : Tracked s tid) : Touches s s tid :=
  ⟨rfl, fun other _ => Frame.refl s other, tracked, Kept.refl s⟩

theorem Tracked.setTask (tracked : Tracked s tid) :
    Tracked { s with db := s.db.setTask tid wr.apply } tid := by
  have known : Known s tid → Known { s with db := s.db.setTask tid wr.apply } tid := by
    rw [Known, Known, tids_setTask s.db tid wr.apply_tid]
    exact id
  refine ⟨tracked.startedOnce, tracked.writtenOnce, fun member => ?_, fun ins member own => ?_⟩
  · obtain ⟨here, rows⟩ := tracked.started member
    refine ⟨known here, forall_rows_setTask fun task there own => ?_⟩
    rw [apply_deleted]
    exact (rows task there own).imp apply_ne_pending id
  · obtain ⟨here, rows⟩ := tracked.written ins member own
    refine ⟨known here, forall_rows_setTask fun task there own' => ?_⟩
    exact apply_ne_pending (rows task there own')

theorem touches_write (tracked : Tracked s tid)
    (same : ∀ task ∈ s.db.tasks, task.tid = tid → Settled task.analysisStatus →
      (wr.apply task).analysisStatus = task.analysisStatus) :
    Touches s (s.write o tid wr) tid := by
  unfold Store.write
  split_ifs
  · exact ⟨tids_setTask s.db tid wr.apply_tid,
      fun other apart => frame_setTask apart wr.apply_tid, tracked.setTask,
      kept_setTask wr.apply_tid same⟩
  · exact touches_refl tracked

theorem Fits.to (fits : Fits s tid phase) (later : phase.Later phase')
    (rows : ∀ task, phase.allows task → phase'.allows task) : Fits s tid phase' :=
  ⟨fits.known, fun task member own => rows task (fits.rows task member own),
    fun early => fits.unstarted (later.1 early), fun early => fits.unwritten (later.2 early)⟩

theorem Fits.write (fits : Fits s tid phase) (later : phase.Later phase')
    (applied : o.applied → ∀ task, phase.allows task → phase'.allows (wr.apply task))
    (refused : o = .refused → ∀ task, phase.allows task → phase'.allows task) :
    Fits (s.write o tid wr) tid phase' := by
  unfold Store.write
  split_ifs with done
  · refine ⟨?_, ?_, fun early => fits.unstarted (later.1 early),
      fun early => fits.unwritten (later.2 early)⟩
    · rw [Known, tids_setTask s.db tid wr.apply_tid]
      exact fits.known
    · exact forall_rows_setTask fun task member own =>
        applied done task (fits.rows task member own)
  · exact fits.to later (refused (by simpa [Outcome.applied] using done))

theorem touches_spawn (fits : Fits s tid .spawning) (tracked : Tracked s tid) :
    Touches s { s with spawned := s.spawned ++ [tid] } tid where
  tids := rfl
  frame other apart :=
    { known := id
      rows _ task member own := ⟨task, member, own, rfl, id⟩
      spawned := by
        rw [List.count_append, List.count_singleton, if_neg (by simpa using apart.symm), add_zero]
      insertions := rfl }
  tracked :=
    { startedOnce := by
        rw [List.count_append, List.count_eq_zero.mpr (fits.unstarted rfl), List.count_singleton_self]
      writtenOnce := tracked.writtenOnce
      started _ := by
        refine ⟨fits.known, fun task member own => ?_⟩
        rcases fits.rows task member own with running | ⟨deleted, _⟩
        · exact .inl (by rw [running]; decide)
        · exact .inr deleted
      written := tracked.written }
  kept := Kept.refl s

theorem touches_insert (fits : Fits s tid .working) (tracked : Tracked s tid)
    (ruleMatches : List RuleMatch) (aiResult : Option String) :
    Touches s { s with insertions := s.insertions ++ [⟨tid, ruleMatches, aiResult⟩] } tid where
  tids := rfl
  frame other apart :=
    { known := id
      rows _ task member own := ⟨task, member, own, rfl, id⟩
      spawned := rfl
      insertions := by
        simp [insertionsOf, List.filter_append, apart.symm] }
  tracked :=
    { startedOnce := tracked.startedOnce
      writtenOnce := by
        have none : s.insertions.filter (·.tid = tid) = [] :=
          List.filter_eq_nil_iff.mpr fun ins member => by simpa using fits.unwritten rfl ins member
        simp [insertionsOf, List.filter_append, none]
      started := tracked.started
      written _ _ _ := by
        refine ⟨fits.known, fun task member own => ?_⟩
        rw [fits.rows task member own]
        decide }
  kept := Kept.refl s

theorem not_settled_running {task : HotmethodTask}
    (running : task.analysisStatus = analysisStatusRunning) : ¬ Settled task.analysisStatus := by
  rw [running, Settled]
  decide

theorem allows_exited {task : HotmethodTask} (before : phase ≠ .succeeded)
    (alive : ∀ zero, phase ≠ .exited zero) (ok : phase.allows task) :
    (Phase.exited false).allows task := by
  intro _ success
  cases phase with
  | succeeded => exact before rfl
  | exited zero => exact alive zero rfl
  | _ => simp [Phase.allows, success, analysisStatusPending, analysisStatusRunning,
      analysisStatusSuccess] at ok

theorem touches_markRunning (fits : Fits s tid .started) (tracked : Tracked s tid) (o : Outcome) :
    Touches s (s.write o tid .analyzerRunning) tid ∧
      Fits (s.write o tid .analyzerRunning) tid (if o = .ok then .marked else .exited false) := by
  constructor
  · apply touches_write tracked
    intro task member own settled
    rcases fits.rows task member own with pending | running
    · rw [pending, Settled] at settled
      exact absurd settled (by decide)
    · exact absurd settled (not_settled_running running)
  · split_ifs with acknowledged
    · exact fits.write (by decide) (fun _ _ _ => rfl) fun refused => by simp [refused] at acknowledged
    · refine fits.write (by decide) ?_ fun _ _ => allows_exited (by decide) (by simp)
      exact fun _ _ _ _ => show analysisStatusRunning ≠ analysisStatusSuccess by decide

theorem touches_markSuccess (fits : Fits s tid .finishing) (tracked : Tracked s tid)
    (told : o ≠ .unacknowledged) :
    Touches s (s.write o tid .analyzerSuccess) tid ∧
      Fits (s.write o tid .analyzerSuccess) tid (if o = .ok then .succeeded else .failing) := by
  constructor
  · apply touches_write tracked
    intro task member own settled
    exact absurd settled (not_settled_running (fits.rows task member own))
  · split_ifs with acknowledged
    · exact fits.write (by decide) (fun _ _ _ => rfl) fun refused => by simp [refused] at acknowledged
    · have refused : o = .refused := by cases o <;> simp_all
      exact fits.write (by decide) (by simp [refused, Outcome.applied]) fun _ _ => id

theorem touches_markFailed (fits : Fits s tid .failing) (tracked : Tracked s tid) (error : String)
    (o : Outcome) :
    Touches s (s.write o tid (.analyzerFailed error)) tid ∧
      Fits (s.write o tid (.analyzerFailed error)) tid (.exited false) := by
  constructor
  · apply touches_write tracked
    intro task member own settled
    exact absurd settled (not_settled_running (fits.rows task member own))
  · refine fits.write (by decide) ?_ fun _ _ => allows_exited (by decide) (by simp)
    exact fun _ _ _ _ => show analysisStatusFailed ≠ analysisStatusSuccess by decide

theorem touches_insertSuggestions (fits : Fits s tid .working) (tracked : Tracked s tid)
    (ruleMatches : List RuleMatch) (aiResult : Option String) (o : Outcome) :
    let t := { s with insertions := s.insertions ++
      if o.applied then [⟨tid, ruleMatches, aiResult⟩] else [] }
    Touches s t tid ∧ Fits t tid .finishing := by
  constructor
  · split_ifs
    · exact touches_insert fits tracked ruleMatches aiResult
    · rw [List.append_nil]
      exact touches_refl tracked
  · exact ⟨fits.known, fits.rows, fun early => absurd early (by decide),
      fun early => absurd early (by decide)⟩

theorem main_touches {move : Move} (fits : Fits s tid phase) (tracked : Tracked s tid)
    (ends : EndsWell phase move) (next : main s tid phase move = some (t, phase')) :
    Touches s t tid ∧ Fits t tid phase' := by
  have still : ∀ later, phase.Later later → (∀ task, phase.allows task → later.allows task) →
      some (s, later) = some (t, phase') → Touches s t tid ∧ Fits t tid phase' := by
    rintro later order rows ⟨⟩
    exact ⟨touches_refl tracked, fits.to order rows⟩
  revert next
  fun_cases main with
  | case1 o => rintro ⟨⟩; exact touches_markRunning fits tracked o
  | case2 => exact still .failing (by decide) fun _ => id
  | case3 => exact still (.exited false) (by decide) fun _ => allows_exited (by decide) (by simp)
  | case4 _ _ task _ =>
    split_ifs
    · exact still .failing (by decide) fun _ => id
    · exact still .working (by decide) fun _ => id
  | case5 ruleMatches aiResult o =>
    rintro ⟨⟩
    exact touches_insertSuggestions fits tracked ruleMatches aiResult o
  | case6 => exact still .finishing (by decide) fun _ => id
  | case7 o => rintro ⟨⟩; exact touches_markSuccess fits tracked ends
  | case8 => exact still (.exited true) (by decide) fun _ _ zero => absurd zero (by decide)
  | case9 | case10 => exact still .failing (by decide) fun _ => id
  | case11 | case17 => exact absurd rfl ends
  | case12 error o => rintro ⟨⟩; exact touches_markFailed fits tracked error o
  | case13 | case14 | case15 | case16 | case18 =>
    exact still (.exited false) (by decide) fun _ => allows_exited (by decide) (by simp)
  | case19 => exact fun none => absurd none (by simp)

end touches

section steps
variable {w w' : World} {t : Store} {i : Nat} {p : Process} {tid : String} {phase phase' : Phase}
  {rest : List (String × Phase)}

theorem Inv.fits (inv : Inv w) (here : (get w.processes i).held = (tid, phase) :: rest) :
    Fits w.store tid phase := by
  have member : (tid, phase) ∈ contents Process.held w.processes :=
    mem_contents_get rfl (here ▸ List.mem_cons_self)
  exact inv.exclusive.fit _ member

theorem Inv.tracked_after (inv : Inv w) (touches : Touches w.store t tid) (other : String) :
    Tracked t other := by
  by_cases same : other = tid
  · rw [same]
    exact touches.tracked
  · exact (inv.tracked other).frame (touches.frame other same)

theorem Inv.advance (inv : Inv w) (before : (get w.processes i).held = (tid, phase) :: rest)
    (after : p.held = (tid, phase') :: rest) (touches : Touches w.store t tid)
    (fits : Fits t tid phase') : Inv ⟨t, set w.processes i p⟩ where
  unique := by
    rw [touches.tids]
    exact inv.unique
  exclusive := inv.exclusive.advance rfl before after fits fun other _ apart =>
    Fits.frame (touches.frame other apart)
  tracked := inv.tracked_after touches

theorem Inv.release (inv : Inv w) (before : (get w.processes i).held = (tid, phase) :: rest)
    (after : p.held = rest) (touches : Touches w.store t tid) : Inv ⟨t, set w.processes i p⟩ where
  unique := by
    rw [touches.tids]
    exact inv.unique
  exclusive := inv.exclusive.release rfl before after fun other _ apart =>
    Fits.frame (touches.frame other apart)
  tracked := inv.tracked_after touches

theorem Inv.eq_of_tid (inv : Inv w) {task other : HotmethodTask} (here : task ∈ w.store.db.tasks)
    (there : other ∈ w.store.db.tasks) (same : other.tid = task.tid) : other = task :=
  List.inj_on_of_nodup_map inv.unique there here same

theorem Inv.pending (inv : Inv w) {task : HotmethodTask} (here : task ∈ w.store.db.tasks)
    (pending : task.analysisStatus = analysisStatusPending) :
    Fits w.store task.tid .started ∧ (task.deleted = false → Fits w.store task.tid .queued) := by
  have known : Known w.store task.tid := List.mem_map_of_mem here
  have rows : ∀ other ∈ w.store.db.tasks, other.tid = task.tid →
      other.analysisStatus = analysisStatusPending := by
    intro other there same
    rw [inv.eq_of_tid here there same]
    exact pending
  have unwritten : ∀ ins ∈ w.store.insertions, ins.tid ≠ task.tid := fun ins member own =>
    ((inv.tracked task.tid).written ins member own).2 task here rfl pending
  refine ⟨⟨known, fun other there same => .inl (rows other there same),
    fun early => absurd early (by decide), fun _ => unwritten⟩, fun alive => ?_⟩
  refine ⟨known, rows, fun _ member => ?_, fun _ => unwritten⟩
  rcases ((inv.tracked task.tid).started member).2 task here rfl with begun | deleted
  · exact begun pending
  · rw [alive] at deleted
    exact Bool.false_ne_true deleted

theorem Inv.select (inv : Inv w) (idle : (get w.processes i).held = [])
    (free : ∀ tid ∈ selectedByTick w.store.db, Unheld Process.held w.processes tid)
    (fails : Bool) : Inv ⟨w.store, set w.processes i
      ⟨true, none, if fails then [] else selectedByTick w.store.db⟩⟩ := by
  refine ⟨inv.unique, ?_, inv.tracked⟩
  cases fails with
  | true => exact inv.exclusive.drop rfl (Multiset.zero_le _)
  | false =>
    apply inv.exclusive.take rfl idle
    · have names : (selectedByTick w.store.db).Nodup := (List.filter_sublist.map _).nodup inv.unique
      rw [Process.held, Option.toList_none, List.nil_append, List.map_map]
      exact (List.map_id _).symm ▸ names
    · intro item member
      obtain ⟨tid, listed, rfl⟩ := List.mem_map.mp member
      exact free tid listed
    · intro item member
      obtain ⟨tid, listed, rfl⟩ := List.mem_map.mp member
      obtain ⟨task, chosen, rfl⟩ := List.mem_map.mp listed
      obtain ⟨here, conditions⟩ := List.mem_filter.mp chosen
      obtain ⟨_, pending, alive, _⟩ := of_decide_eq_true conditions
      exact (inv.pending here pending).2 alive

theorem Inv.manual (inv : Inv w) (idle : (get w.processes i).held = [])
    (free : Unheld Process.held w.processes tid) {task : HotmethodTask}
    (here : task ∈ w.store.db.tasks) (own : task.tid = tid)
    (pending : task.analysisStatus = analysisStatusPending) :
    Inv ⟨w.store, set w.processes i ⟨false, some (tid, .started), []⟩⟩ := by
  refine ⟨inv.unique, ?_, inv.tracked⟩
  apply inv.exclusive.take rfl idle
  · exact List.nodup_singleton tid
  · intro item member
    rw [List.mem_singleton.mp member]
    exact free
  · intro item member
    rw [List.mem_singleton.mp member, ← own]
    exact (inv.pending here pending).1

theorem held_of_job {scheduler : Bool} {job : String × Phase} {queue : List String} :
    (Process.mk scheduler (some job) queue).held = job :: queue.map fun tid => (tid, .queued) := rfl

theorem held_at {scheduler : Bool} {job : String × Phase} {queue : List String}
    (here : get w.processes i = ⟨scheduler, some job, queue⟩) :
    (get w.processes i).held = job :: queue.map fun tid => (tid, .queued) := by
  rw [here, held_of_job]

theorem held_crash_le (p : Process) :
    ((⟨false, p.job.filter (·.2 ≠ .spawning), []⟩ : Process).held : Multiset (String × Phase)) ≤
      p.held := by
  obtain ⟨_, job, queue⟩ := p
  cases job with
  | none => exact Multiset.zero_le _
  | some job =>
    by_cases spawning : job.2 = .spawning
    · simp [Process.held, Option.filter, spawning]
    · simp [Process.held, Option.filter, spawning]

theorem Inv.mark (inv : Inv w) {queue : List String}
    (here : get w.processes i = ⟨true, none, tid :: queue⟩) (o : Outcome) :
    Inv ⟨w.store.write o tid .spawnRunning,
      set w.processes i ⟨true, if o = .ok then some (tid, .spawning) else none, queue⟩⟩ ∧
    Kept w.store (w.store.write o tid .spawnRunning) := by
  have before : (get w.processes i).held =
      (tid, .queued) :: queue.map fun tid => (tid, .queued) := by rw [here]; rfl
  have fits := inv.fits before
  have touches : Touches w.store (w.store.write o tid .spawnRunning) tid := by
    apply touches_write (inv.tracked tid)
    intro task member own settled
    rw [show task.analysisStatus = _ from fits.rows task member own, Settled] at settled
    exact absurd settled (by decide)
  refine ⟨?_, touches.kept⟩
  split_ifs with acknowledged
  · refine inv.advance before held_of_job touches ?_
    refine fits.write (by decide) (fun _ task pending => ?_) fun refused => by
      simp [refused] at acknowledged
    rcases apply_analysisStatus .spawnRunning task with running | ⟨deleted, same⟩
    · exact .inl running
    · exact .inr ⟨(apply_deleted _ task).trans deleted, same.trans pending⟩
  · exact inv.release before rfl touches

theorem Inv.spawn (inv : Inv w) {scheduler : Bool} {queue : List String}
    (here : get w.processes i = ⟨scheduler, some (tid, .spawning), queue⟩) (launched : Bool) :
    let store := { w.store with
      spawned := if launched then w.store.spawned ++ [tid] else w.store.spawned }
    let job := (tid, if launched then .started else .exited false)
    Inv ⟨store, set w.processes i ⟨scheduler, some job, queue⟩⟩ ∧ Kept w.store store := by
  have before := held_at here
  have fits := inv.fits before
  cases launched with
  | true =>
    have touches := touches_spawn fits (inv.tracked tid)
    refine ⟨inv.advance before held_of_job touches ?_, touches.kept⟩
    refine ⟨fits.known, fun task member own => ?_, fun early => absurd early (by decide),
      fun _ => fits.unwritten rfl⟩
    exact (fits.rows task member own).symm.imp And.right id
  | false =>
    have touches := touches_refl (inv.tracked tid)
    refine ⟨inv.advance before held_of_job touches (fits.to (by decide) fun _ => ?_), touches.kept⟩
    exact allows_exited (by decide) (by simp)

theorem Inv.collect (inv : Inv w) {scheduler zero : Bool} {queue : List String}
    (here : get w.processes i = ⟨scheduler, some (tid, .exited zero), queue⟩) (reason : String)
    (o : Outcome) :
    let store := if scheduler ∧ zero = false then w.store.write o tid (.spawnFailed reason)
      else w.store
    Inv ⟨store, set w.processes i ⟨scheduler, none, queue⟩⟩ ∧ Kept w.store store := by
  have before := held_at here
  have touches : Touches w.store (if scheduler ∧ zero = false then
      w.store.write o tid (.spawnFailed reason) else w.store) tid := by
    split_ifs with failed
    · apply touches_write (inv.tracked tid)
      intro task member own settled
      have other := (inv.fits before).rows task member own failed.2
      have failure : task.analysisStatus = analysisStatusFailed := settled.resolve_left other
      rcases apply_analysisStatus (.spawnFailed reason) task with written | ⟨_, same⟩
      · exact written.trans failure.symm
      · exact same
    · exact touches_refl (inv.tracked tid)
  exact ⟨inv.release before rfl touches, touches.kept⟩

theorem Inv.analyzer (inv : Inv w) {scheduler : Bool} {queue : List String} {move : Move}
    (here : get w.processes i = ⟨scheduler, some (tid, phase), queue⟩) (ends : EndsWell phase move)
    (next : main w.store tid phase move = some (t, phase')) :
    Inv ⟨t, set w.processes i ⟨scheduler, some (tid, phase'), queue⟩⟩ ∧ Kept w.store t := by
  have before := held_at here
  obtain ⟨touches, fits⟩ := main_touches (inv.fits before) (inv.tracked tid) ends next
  exact ⟨inv.advance before held_of_job touches fits, touches.kept⟩

theorem step_keeps {a : Action} (inv : Inv w) (single : Single w a) (next : step w a = some w') :
    Inv w' ∧ Kept w.store w'.store := by
  cases a with
  | elsewhere a =>
    obtain ⟨p, taken, rfl⟩ := Option.map_eq_some_iff.mp next
    have quiet := quiet_elsewhere taken
    exact ⟨⟨quiet.unique inv.unique, inv.exclusive.mono fun tid _ => Fits.frame (quiet.frame tid),
      fun tid => (inv.tracked tid).frame (quiet.frame tid)⟩, quiet.kept⟩
  | select i fails =>
    obtain ⟨idle, done⟩ := Option.ite_none_left_eq_some.mp next
    rw [← Option.some.inj done]
    exact ⟨inv.select (not_not.mp idle) single fails, Kept.refl _⟩
  | mark i o =>
    simp only [step] at next
    split at next
    case h_1 tid rest here =>
      rw [← Option.some.inj next]
      exact inv.mark here o
    case h_2 => simp at next
  | spawn i launched =>
    simp only [step] at next
    split at next
    case h_1 scheduler tid queue here =>
      rw [← Option.some.inj next]
      exact inv.spawn here launched
    case h_2 => simp at next
  | collect i reason o =>
    simp only [step] at next
    split at next
    case h_1 scheduler tid zero queue here =>
      rw [← Option.some.inj next]
      exact inv.collect here reason o
    case h_2 => simp at next
  | crash i =>
    rw [← Option.some.inj next]
    exact ⟨⟨inv.unique, inv.exclusive.drop rfl (held_crash_le _), inv.tracked⟩, Kept.refl _⟩
  | manual i tid =>
    obtain ⟨idle, done⟩ := Option.ite_none_left_eq_some.mp next
    rw [← Option.some.inj done]
    obtain ⟨free, task, here, own, pending⟩ := single
    exact ⟨inv.manual (not_not.mp idle) free here own pending, Kept.refl _⟩
  | analyzer i move =>
    simp only [step] at next
    split at next
    case h_1 scheduler tid phase queue here =>
      obtain ⟨after, taken, rfl⟩ := Option.map_eq_some_iff.mp next
      exact inv.analyzer here (single (tid, phase) (by rw [here]; rfl)) taken
    case h_2 => simp at next

theorem initial_inv : Inv initial where
  unique := List.nodup_nil
  exclusive := ⟨Multiset.nodup_zero, List.forall_mem_nil _⟩
  tracked _ := ⟨Nat.zero_le 1, Nat.zero_le 1, fun member => absurd member List.not_mem_nil,
    fun _ member => absurd member List.not_mem_nil⟩

end steps

section runs
variable {w w' : World}

def Store.suggestionsOf (s : Store) (tid : String) : List AnalysisSuggestion :=
  s.suggestions.filter (·.tid = tid)

/-- The suggestions of a task are those that one run of the analyzer inserted. -/
def OfOneRun (s : Store) (tid : String) : Prop :=
  s.suggestionsOf tid = [] ∨ ∃ ins ∈ s.insertions, ins.tid = tid ∧ s.suggestionsOf tid = ins.rows

instance ofOneRunDecidable (s : Store) (tid : String) : Decidable (OfOneRun s tid) :=
  inferInstanceAs (Decidable (_ ∨ ∃ ins ∈ s.insertions, _))

theorem tid_of_mem_rows {ins : Insertion} {row : AnalysisSuggestion} (member : row ∈ ins.rows) :
    row.tid = ins.tid := by
  rcases List.mem_append.mp member with rule | ai
  · obtain ⟨m, _, rfl⟩ := List.mem_map.mp rule
    rfl
  · obtain ⟨text, _, rfl⟩ := List.mem_map.mp ai
    rfl

theorem filter_flatMap_rows (insertions : List Insertion) (tid : String) :
    (insertions.flatMap Insertion.rows).filter (·.tid = tid) =
      (insertions.filter (·.tid = tid)).flatMap Insertion.rows := by
  induction insertions with
  | nil => rfl
  | cons ins rest ih =>
    rw [List.flatMap_cons, List.filter_append, ih]
    by_cases own : ins.tid = tid
    · have all : ins.rows.filter (·.tid = tid) = ins.rows :=
        List.filter_eq_self.mpr fun row member => by simp [tid_of_mem_rows member, own]
      rw [all, List.filter_cons_of_pos (by simpa using own), List.flatMap_cons]
    · have none : ins.rows.filter (·.tid = tid) = [] :=
        List.filter_eq_nil_iff.mpr fun row member => by simp [tid_of_mem_rows member, own]
      rw [none, List.filter_cons_of_neg (by simpa using own), List.nil_append]

theorem Tracked.ofOneRun {s : Store} {tid : String} (tracked : Tracked s tid) : OfOneRun s tid := by
  have rows : s.suggestionsOf tid = (insertionsOf s tid).flatMap Insertion.rows :=
    filter_flatMap_rows s.insertions tid
  have few := tracked.writtenOnce
  rw [OfOneRun, rows]
  match found : insertionsOf s tid with
  | [] => exact .inl rfl
  | [ins] =>
    obtain ⟨member, own⟩ := mem_insertionsOf.mp (found ▸ List.mem_singleton_self ins)
    exact .inr ⟨ins, member, own, List.flatMap_singleton _ _⟩
  | _ :: _ :: _ =>
    rw [found] at few
    simp at few

/-- In a run whose steps are all single, schedulers start the analysis of a task at most once,
its suggestions are those of one run, and a settled analysis is never taken back. -/
theorem single_runs_analyse_once (before : Reaches step Single initial w)
    (run : Reaches step Single w w') :
    (∀ tid, w'.store.spawned.count tid ≤ 1 ∧ OfOneRun w'.store tid) ∧ Kept w.store w'.store := by
  have keeps : ∀ w a w', Inv w → Single w a → step w a = some w' → Inv w' :=
    fun _ _ _ inv single next => (step_keeps inv single next).1
  have inv := before.invariant Inv keeps initial_inv
  constructor
  · intro tid
    have tracked := (run.invariant Inv keeps inv).tracked tid
    exact ⟨tracked.startedOnce, tracked.ofOneRun⟩
  · exact run.related Inv (fun w w' => Kept w.store w'.store) keeps (fun w => Kept.refl w.store)
      (fun _ _ _ _ inv single next kept => kept.trans (step_keeps inv single next).2) inv

def collected : List Action :=
  [.create (.createTask ⟨"cpu", 0, 0, "10.0.0.1", 1, 10, 99, "cpu"⟩ "u" "user") "t" 0 true true,
    .healthCheckDo noFailure "t" 1,
    .uploadTaskFile "t" "perf.data",
    .notifyResult noFailure ⟨"t", "", "perf.data", "t/perf.data"⟩ 0 2,
    .notifyResult noFailure ⟨"t", "", "perf.data", "t/perf.data"⟩ 1 3].map .elsewhere

def analysed (i : Nat) : List Action :=
  [.mark i .ok, .spawn i true, .analyzer i (.markRunning .ok), .analyzer i (.getTaskInfo false),
    .analyzer i (.insertSuggestions [⟨"malloc", "pool"⟩] (some "summary") .ok),
    .analyzer i (.markSuccess .ok), .analyzer i .exit, .collect i "" .ok]

def firstTick : List Action := collected ++ .select 0 false :: analysed 0

theorem single_runs_analyse_once_twoTicks :
    ∃ w w', Reaches step Single initial w ∧ Reaches step Single w w' ∧
      w.store.db.tasks.map (·.analysisStatus) = [analysisStatusSuccess] ∧
      w'.store.spawned = ["t"] ∧
      (∀ tid, w'.store.spawned.count tid ≤ 1 ∧ OfOneRun w'.store tid) ∧ Kept w.store w'.store :=
  ⟨_, _, reaches_of_execute firstTick rfl, reaches_of_execute [.select 1 false] rfl, rfl, rfl,
    single_runs_analyse_once (reaches_of_execute firstTick rfl)
      (reaches_of_execute [.select 1 false] rfl)⟩

def raced : List Action := collected ++ .select 0 false :: .select 1 false :: analysed 0

/-- The analysis is started twice, its success is taken back, and its suggestions are inserted
a second time. -/
theorem raced_analyses_twice :
    ∃ w v w', Reaches step free initial w ∧ Reaches step free w v ∧ Reaches step free v w' ∧
      ¬ Kept w.store v.store ∧ w'.store.spawned.count "t" = 2 ∧ ¬ OfOneRun w'.store "t" ∧
      ((w'.store.suggestionsOf "t").filter (·.func = "__ai_summary__")).length = 2 :=
  ⟨_, _, _, reaches_of_execute raced rfl, reaches_of_execute [.mark 1 .ok] rfl,
    reaches_of_execute (analysed 1).tail rfl, by decide, rfl, by decide, rfl⟩

end runs

end DropPlatform.AnalysisRuns
