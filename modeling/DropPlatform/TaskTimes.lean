import DropPlatform.TaskLifecycle

/-! The columns `begin_time` and `end_time` over whole lives of tasks. Both programs write
them beside the status: `begin_time` with RUNNING, `end_time` with DONE and FAILED. No
transition clears them. -/

namespace DropPlatform.TaskTimes
open TransitionRuns TaskStore TaskLifecycle

/-- What the two columns are meant to say about the status. -/
structure Consistent (task : HotmethodTask) : Prop where
  ended : task.endTime.isSome ↔ task.status = taskStatusDone ∨ task.status = taskStatusFailed
  begun : task.status = taskStatusRunning ∨ task.status = taskStatusUploading ∨
    task.status = taskStatusDone → task.beginTime.isSome
  waiting : task.status = taskStatusPending → task.beginTime = none
  ordered : ∀ start ∈ task.beginTime, ∀ stop ∈ task.endTime, start ≤ stop

instance decidableConsistent (task : HotmethodTask) : Decidable (Consistent task) :=
  decidable_of_iff
    ((task.endTime.isSome ↔ task.status = taskStatusDone ∨ task.status = taskStatusFailed) ∧
      (task.status = taskStatusRunning ∨ task.status = taskStatusUploading ∨
        task.status = taskStatusDone → task.beginTime.isSome) ∧
      (task.status = taskStatusPending → task.beginTime = none) ∧
      ∀ start ∈ task.beginTime, ∀ stop ∈ task.endTime, start ≤ stop)
    ⟨fun ⟨ended, begun, waiting, ordered⟩ => ⟨ended, begun, waiting, ordered⟩,
      fun ⟨ended, begun, waiting, ordered⟩ => ⟨ended, begun, waiting, ordered⟩⟩

def clockOf : Action → Option Nat
  | .create _ _ now _ _ | .apiserverUpdate _ _ _ _ now | .healthCheckDo _ _ now
  | .notifyResult _ _ _ now => some now
  | .uploadTaskFile _ _ | .deleteTask _ | .analysisTick | .analysisWrite _ _ => none

/-- An action that cannot take place leaves the platform as it is. -/
def next (p : Platform) (a : Action) : Platform := (step p a).getD p

def Retries (p : Platform) (a : Action) : Prop :=
  ∃ task ∈ p.db.tasks, task.status = taskStatusFailed ∧
    ∃ task' ∈ (next p a).db.tasks, task'.tid = task.tid ∧ task'.status = taskStatusPending

section effects

def columns (task : HotmethodTask) : String × Int × Option Nat × Option Nat :=
  (task.tid, task.status, task.beginTime, task.endTime)

/-- What an action can do to the rows: nothing that matters here, a new row, or one
transition of one task at the time that the action has read. -/
inductive Effect (tasks : List HotmethodTask) (clock : Option Nat) : List HotmethodTask → Prop
  | quiet (f : HotmethodTask → HotmethodTask) (same : ∀ task, columns (f task) = columns task) :
    Effect tasks clock (tasks.map f)
  | created (creation : Creation) (tid : String) (now : Nat) (fresh : tid ∉ tasks.map (·.tid)) :
    Effect tasks clock (tasks ++ [creation.row tid now])
  | moved (task : HotmethodTask) (member : task ∈ tasks) (newStatus : Int) (reason : String)
    (now : Nat) (read : clock = some now) (ok : Allowed task.status newStatus) :
    Effect tasks clock (tasks.map fun other =>
      if other.tid = task.tid then other.withStatus newStatus reason now else other)

variable {clock : Option Nat}

theorem Effect.none {tasks : List HotmethodTask} : Effect tasks clock tasks := by
  have same : Effect tasks clock (tasks.map id) := .quiet id fun _ => rfl
  rwa [List.map_id] at same

theorem effect_create (creation : Creation) (tid : String) (now : Nat) (rowOk historyOk : Bool)
    (db : Tables) :
    Effect db.tasks clock (create creation tid now rowOk historyOk db).tasks := by
  by_cases refused : rowOk = false ∨ tid ∈ db.tasks.map (·.tid)
  · rw [create, if_pos refused]
    exact .none
  · rw [tasks_create refused]
    exact .created creation tid now fun known => refused (.inr known)

theorem effect_setTask (db : Tables) (tid : String) {f : HotmethodTask → HotmethodTask}
    (same : ∀ task, columns (f task) = columns task) :
    Effect db.tasks clock (db.setTask tid f).tasks := by
  refine .quiet _ fun task => ?_
  split_ifs
  · exact same task
  · rfl

theorem effect_apiserver (fails : Statement → Bool) (db : Tables) (tid : String) (newStatus : Int)
    (reason : String) (now : Nat) :
    Effect db.tasks (some now)
      (Apiserver.updateTaskStatus fails db tid newStatus reason now).tasks := by
  unfold Apiserver.updateTaskStatus
  cases result : Apiserver.updateTaskStatusTx fails db tid newStatus reason now with
  | error e => exact .none
  | ok db' =>
    obtain ⟨task, member, rfl, allowed, rfl⟩ := apiserver_tx_ok result
    exact .moved task member newStatus _ now rfl allowed

theorem effect_dropServer (fails : Statement → Bool) (db : Tables) (tid : String)
    (update : Int × String) (now : Nat) :
    Effect db.tasks (some now) (dropServerUpdate fails tid now update db).tasks := by
  unfold dropServerUpdate DropServer.updateTaskStatus
  cases result : DropServer.updateTaskStatusTx fails db tid update.1 update.2 now with
  | error e => exact .none
  | ok db' =>
    obtain ⟨task, member, named, allowed, rfl⟩ := dropServer_tx_ok result
    have moved : Effect db.tasks (some now) _ :=
      .moved task member update.1 (cStr update.2) now rfl allowed
    rwa [named] at moved

theorem columns_analysisWrite (write : AnalysisWrite) (task : HotmethodTask) :
    columns (write.apply task) = columns task := by
  cases write with
  | spawnRunning | spawnFailed reason =>
    simp only [AnalysisWrite.apply]
    split_ifs <;> rfl
  | analyzerRunning | analyzerSuccess | analyzerFailed error => rfl

theorem effect_next (p : Platform) (a : Action) :
    Effect p.db.tasks (clockOf a) (next p a).db.tasks := by
  cases a with
  | create creation tid now rowOk historyOk =>
    exact effect_create creation tid now rowOk historyOk p.db
  | apiserverUpdate fails tid newStatus reason now =>
    exact effect_apiserver fails p.db tid newStatus reason now
  | healthCheckDo fails tid now => exact effect_dropServer fails _ tid _ now
  | notifyResult fails result k now =>
    simp only [next, step]
    cases (DropServer.notifyResultUpdates result)[k]? with
    | none => exact .none
    | some update => exact effect_dropServer fails _ result.taskId update now
  | uploadTaskFile tid filename =>
    refine effect_setTask p.db tid fun task => ?_
    split_ifs <;> rfl
  | deleteTask tid => exact effect_setTask p.db tid fun _ => rfl
  | analysisTick => exact .none
  | analysisWrite tid write =>
    simp only [next, step]
    split_ifs
    · exact effect_setTask p.db tid (columns_analysisWrite write)
    · exact .none

end effects

section consistency
variable {task other : HotmethodTask}

theorem Consistent.congr (consistent : Consistent task) (same : columns other = columns task) :
    Consistent other := by
  simp only [columns, Prod.mk.injEq] at same
  obtain ⟨_, status, begins, ends⟩ := same
  obtain ⟨ended, begun, waiting, ordered⟩ := consistent
  rw [← status, ← ends] at ended
  rw [← status, ← begins] at begun waiting
  rw [← begins, ← ends] at ordered
  exact ⟨ended, begun, waiting, ordered⟩

theorem consistent_row (creation : Creation) (tid : String) (now : Nat) :
    Consistent (creation.row tid now) := by
  refine ⟨?_, ?_, ?_, ?_⟩
  · simp [taskStatusPending, taskStatusDone, taskStatusFailed]
  · simp [taskStatusPending, taskStatusRunning, taskStatusUploading, taskStatusDone]
  · simp
  · simp

theorem Consistent.withStatus (consistent : Consistent task) {newStatus : Int} {now : Nat}
    (past : ∀ start ∈ task.beginTime, start ≤ now) (ok : Allowed task.status newStatus)
    (first : newStatus ≠ taskStatusPending) (reason : String) :
    Consistent (task.withStatus newStatus reason now) := by
  obtain ⟨ended, begun, _, _⟩ := consistent
  rw [allowed_iff] at ok
  simp only [List.mem_cons, Prod.mk.injEq, List.not_mem_nil, or_false] at ok
  simp only [taskStatusPending, taskStatusRunning, taskStatusUploading, taskStatusDone,
    taskStatusFailed] at ended begun first
  have stops : (task.withStatus newStatus reason now).endTime =
      if newStatus = 3 ∨ newStatus = 4 then some now else task.endTime := rfl
  have starts : (task.withStatus newStatus reason now).beginTime =
      if newStatus = 1 then some now else task.beginTime := rfl
  have unended : ¬ (newStatus = 3 ∨ newStatus = 4) → task.endTime = none := by
    intro going
    rw [← Option.not_isSome_iff_eq_none, ended]
    omega
  refine ⟨?_, ?_, ?_, ?_⟩
  · rw [stops, withStatus_status]
    split_ifs with stopped
    · exact iff_of_true rfl stopped
    · rw [unended stopped]
      exact iff_of_false Bool.false_ne_true stopped
  · intro running
    rw [withStatus_status] at running
    simp only [taskStatusRunning, taskStatusUploading, taskStatusDone] at running
    rw [starts]
    split_ifs with started
    · rfl
    · exact begun (by omega)
  · intro pending
    exact absurd pending first
  · intro start begins stop ends
    rw [starts] at begins
    rw [stops] at ends
    by_cases stopped : newStatus = 3 ∨ newStatus = 4
    · rw [if_neg (by omega)] at begins
      rw [if_pos stopped] at ends
      rw [← Option.mem_some_iff.mp ends]
      exact past start begins
    · rw [if_neg stopped, unended stopped] at ends
      exact absurd ends (Option.not_mem_none stop)

theorem Consistent.not_retried (consistent : Consistent task)
    (failed : task.status = taskStatusFailed) (reason : String) (now : Nat) :
    ¬ Consistent (task.withStatus taskStatusPending reason now) := by
  intro after
  have ended := consistent.ended.mpr (.inr failed)
  have status := after.ended.mp ended
  rw [withStatus_status] at status
  exact absurd status (by decide)

end consistency

structure Sound (tasks : List HotmethodTask) (clock : Nat) : Prop where
  unique : (tasks.map (·.tid)).Nodup
  consistent : ∀ task ∈ tasks, Consistent task
  past : ∀ task ∈ tasks, ∀ start ∈ task.beginTime, start ≤ clock

section runs
variable {tasks : List HotmethodTask} {task : HotmethodTask} {clock now : Nat}

theorem Sound.eq_of_tid (sound : Sound tasks clock) {other : HotmethodTask}
    (here : task ∈ tasks) (there : other ∈ tasks) (same : other.tid = task.tid) : other = task :=
  List.inj_on_of_nodup_map sound.unique there here same

theorem Sound.mono (sound : Sound tasks clock) (later : clock ≤ now) : Sound tasks now :=
  ⟨sound.unique, sound.consistent, fun task member start begun =>
    (sound.past task member start begun).trans later⟩

theorem Sound.quiet (sound : Sound tasks clock) {f : HotmethodTask → HotmethodTask}
    (same : ∀ task, columns (f task) = columns task) : Sound (tasks.map f) clock := by
  refine ⟨?_, ?_, ?_⟩
  · have tids : (tasks.map f).map (·.tid) = tasks.map (·.tid) := by
      rw [List.map_map]
      exact List.map_congr_left fun task _ => congrArg (·.1) (same task)
    rw [tids]
    exact sound.unique
  · intro task member
    obtain ⟨before, there, rfl⟩ := List.mem_map.mp member
    exact (sound.consistent before there).congr (same before)
  · intro task member start begun
    obtain ⟨before, there, rfl⟩ := List.mem_map.mp member
    have begins : (f before).beginTime = before.beginTime := congrArg (·.2.2.1) (same before)
    rw [begins] at begun
    exact sound.past before there start begun

theorem Sound.created (sound : Sound tasks clock) (creation : Creation) {tid : String}
    (now : Nat) (fresh : tid ∉ tasks.map (·.tid)) :
    Sound (tasks ++ [creation.row tid now]) clock := by
  refine ⟨?_, ?_, ?_⟩
  · rw [List.map_append, List.map_singleton, row_tid, ← List.concat_eq_append]
    exact sound.unique.concat fresh
  · intro task member
    rcases List.mem_append.mp member with old | new
    · exact sound.consistent task old
    · rw [List.mem_singleton.mp new]
      exact consistent_row creation tid now
  · intro task member start begun
    rcases List.mem_append.mp member with old | new
    · exact sound.past task old start begun
    · rw [List.mem_singleton.mp new, row_beginTime] at begun
      exact absurd begun (Option.not_mem_none start)

theorem Sound.moved (sound : Sound tasks now) (member : task ∈ tasks) {newStatus : Int}
    (reason : String) (ok : Allowed task.status newStatus) (first : newStatus ≠ taskStatusPending) :
    Sound (tasks.map fun other =>
      if other.tid = task.tid then other.withStatus newStatus reason now else other) now := by
  refine ⟨?_, ?_, ?_⟩
  · have tids := tids_setTask ⟨tasks, []⟩ task.tid
      (f := (·.withStatus newStatus reason now)) fun _ => rfl
    exact tids.symm ▸ sound.unique
  · intro other changed
    obtain ⟨before, there, rfl⟩ := List.mem_map.mp changed
    split_ifs with same
    · have := sound.eq_of_tid member there same
      subst this
      exact (sound.consistent before there).withStatus (sound.past before there) ok first reason
    · exact sound.consistent before there
  · intro other changed start begun
    obtain ⟨before, there, rfl⟩ := List.mem_map.mp changed
    split_ifs at begun with same
    · simp only [HotmethodTask.withStatus] at begun
      split_ifs at begun
      · exact (Option.mem_some_iff.mp begun).ge
      · exact sound.past before there start begun
    · exact sound.past before there start begun

variable {p : Platform} {a : Action}

theorem retries_of_pending (member : task ∈ p.db.tasks) {reason : String}
    (ok : Allowed task.status taskStatusPending)
    (after : (next p a).db.tasks = p.db.tasks.map fun other =>
      if other.tid = task.tid then other.withStatus taskStatusPending reason now else other) :
    Retries p a := by
  refine ⟨task, member, ?_, task.withStatus taskStatusPending reason now, ?_, rfl, rfl⟩
  · rw [allowed_iff] at ok
    simp only [taskStatusPending, List.mem_cons, Prod.mk.injEq, List.not_mem_nil, or_false] at ok
    change task.status = 4
    omega
  · rw [after]
    exact List.mem_map.mpr ⟨task, member, if_pos rfl⟩

theorem Sound.next (sound : Sound p.db.tasks clock) (later : clock ≤ (clockOf a).getD clock)
    (kept : ¬ Retries p a) : Sound (next p a).db.tasks ((clockOf a).getD clock) := by
  have effect := effect_next p a
  generalize after : (TaskTimes.next p a).db.tasks = tasks at effect ⊢
  cases effect with
  | quiet f same => exact (sound.mono later).quiet same
  | created creation tid now fresh => exact (sound.mono later).created creation now fresh
  | moved task member newStatus reason now read ok =>
    rw [read, Option.getD_some] at later ⊢
    refine (sound.mono later).moved member reason ok ?_
    rintro rfl
    exact kept (retries_of_pending member ok after)

theorem Sound.not_retries (sound : Sound p.db.tasks clock)
    (consistent : ∀ task ∈ (TaskTimes.next p a).db.tasks, Consistent task) : ¬ Retries p a := by
  rintro ⟨task, member, failed, task', there, same, pending⟩
  have clean := consistent task' there
  have alone : ∀ other ∈ p.db.tasks, other.tid = task.tid → other.status ≠ taskStatusPending := by
    intro other here named
    rw [sound.eq_of_tid member here named, failed]
    decide
  have effect := effect_next p a
  generalize after : (TaskTimes.next p a).db.tasks = tasks at effect
  rw [after] at there
  cases effect with
  | quiet f kept =>
    obtain ⟨before, here, rfl⟩ := List.mem_map.mp there
    have tid : (f before).tid = before.tid := congrArg (·.1) (kept before)
    have status : (f before).status = before.status := congrArg (·.2.1) (kept before)
    exact alone before here (tid.symm.trans same) (status.symm.trans pending)
  | created creation tid now fresh =>
    rcases List.mem_append.mp there with old | new
    · exact alone task' old same pending
    · rw [List.mem_singleton.mp new, row_tid] at same
      exact fresh (same ▸ List.mem_map_of_mem member)
  | moved moving here newStatus reason now read ok =>
    obtain ⟨before, here', rfl⟩ := List.mem_map.mp there
    split_ifs at same pending clean with chosen
    · have := sound.eq_of_tid member here' same
      subst this
      rw [withStatus_status] at pending
      rw [pending] at clean
      exact (sound.consistent before here').not_retried failed reason now clean
    · exact alone before here' same pending

theorem later_of_isChain {rest : List Action}
    (chain : (clock :: (a :: rest).filterMap clockOf).IsChain (· ≤ ·)) :
    clock ≤ (clockOf a).getD clock ∧
      ((clockOf a).getD clock :: rest.filterMap clockOf).IsChain (· ≤ ·) := by
  rw [List.filterMap_cons] at chain
  cases reading : clockOf a with
  | none =>
    rw [reading] at chain
    exact ⟨le_rfl, chain⟩
  | some now =>
    rw [reading] at chain
    exact List.isChain_cons_cons.mp chain

end runs

/-- The two columns say what they should after every action exactly if no failed task is
ever retried. -/
theorem consistent_iff (actions : List Action)
    (monotone : (actions.filterMap clockOf).IsChain (· ≤ ·)) :
    (∀ t ∈ trace next initial actions, ∀ task ∈ t.2.2.db.tasks, Consistent task) ↔
      ∀ t ∈ trace next initial actions, ¬ Retries t.1 t.2.1 := by
  -- The clock has reached every `begin_time`, and what is read later is no earlier.
  refine trace_iff_ahead
    (fun p rest => ∃ clock, Sound p.db.tasks clock ∧
      (clock :: rest.filterMap clockOf).IsChain (· ≤ ·))
    (fun p => ∀ task ∈ p.db.tasks, Consistent task) (fun p a => ¬ Retries p a) ?_ ?_ ?_ ?_
  · rintro p a rest ⟨clock, sound, chain⟩ kept
    have ⟨later, ahead⟩ := later_of_isChain chain
    exact ⟨_, sound.next later kept, ahead⟩
  · rintro p rest ⟨clock, sound, _⟩
    exact sound.consistent
  · rintro p a rest ⟨clock, sound, _⟩ after
    exact sound.not_retries after
  · refine ⟨0, ⟨List.nodup_nil, ?_, ?_⟩, ?_⟩
    · intro task member
      exact absurd member List.not_mem_nil
    · intro task member
      exact absurd member List.not_mem_nil
    · exact List.isChain_cons.mpr ⟨fun now _ => Nat.zero_le now, monotone⟩

def secondRun : List Action :=
  [.create (.nlChat "" 0 "" 0 0 "" "") "t" 0 true true,
    .apiserverUpdate noFailure "t" taskStatusFailed "" 1,
    .apiserverUpdate noFailure "t" taskStatusPending "" 2,
    .healthCheckDo noFailure "t" 3]

theorem consistent_iff_secondRun :
    (secondRun.filterMap clockOf).IsChain (· ≤ ·) ∧
      ((∀ t ∈ trace next initial secondRun, ∀ task ∈ t.2.2.db.tasks, Consistent task) ↔
        ∀ t ∈ trace next initial secondRun, ¬ Retries t.1 t.2.1) :=
  ⟨by decide, consistent_iff secondRun (by decide)⟩

/-- The second run begins after the end that the row still shows. -/
theorem secondRun_inconsistent :
    (secondRun.filterMap clockOf).IsChain (· ≤ ·) ∧
      ((secondRun.foldl next initial).db.tasks.map fun task =>
        (task.status, task.beginTime, task.endTime)) = [(taskStatusRunning, some 3, some 1)] ∧
      ¬ ∀ t ∈ trace next initial secondRun, ∀ task ∈ t.2.2.db.tasks, Consistent task := by
  refine ⟨by decide, ?_, ?_⟩
  · decide +kernel
  · decide +kernel

end DropPlatform.TaskTimes
