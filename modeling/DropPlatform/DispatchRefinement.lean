import DropPlatform.TaskDispatch

/-! The dispatch system refines the ledger of copies: every step of the three programs is
the event that `event` names. What the ledger says about lost, superfluous and outdated
copies therefore holds of the programs. -/

namespace DropPlatform.DispatchRefinement
open TransitionRuns TaskStore KeyedStores CopyLedger TaskDispatch
open TaskLifecycle (CreateTaskReq Creation create dropServerUpdate)

def nextStatus (new old : Int) : Int := if Allowed old new then new else old

/-- Rows are found by their key, are not deleted, and their keys survive `c_str()`. -/
structure Rows (db : Tables) : Prop where
  unique : (db.tasks.map (·.tid)).Nodup
  live : ∀ task ∈ db.tasks, task.deleted = false
  plain : ∀ task ∈ db.tasks, cStr task.tid = task.tid

structure KeepsRows (db db' : Tables) : Prop where
  rows : Rows db → Rows db'
  tids : ∀ tid ∈ db.tasks.map (·.tid), tid ∈ db'.tasks.map (·.tid)

section
variable {db db' : Tables} {tid reason : String} {newStatus : Int} {now : Nat}

theorem find_setTask (f : HotmethodTask → HotmethodTask) (key : ∀ task, (f task).tid = task.tid)
    (other : String) :
    (db.setTask tid f).tasks.find? (·.tid = other) =
      (db.tasks.find? (·.tid = other)).map fun task => if task.tid = tid then f task else task := by
  simp only [Tables.setTask, List.find?_map]
  congr 1
  congr 1
  funext task
  simp only [Function.comp]
  split_ifs with same
  · rw [key]
  · rfl

theorem tid_of_find {task : HotmethodTask} (found : db.tasks.find? (·.tid = tid) = some task) :
    task.tid = tid := by
  simpa using List.find?_some found

theorem statusOf_setTask (f : HotmethodTask → HotmethodTask)
    (key : ∀ task, (f task).tid = task.tid) :
    statusOf (db.setTask tid f) = Function.update (statusOf db) tid
      ((db.tasks.find? (·.tid = tid)).map fun task => (f task).status) := by
  funext other
  rw [statusOf, find_setTask f key]
  by_cases same : other = tid
  · subst same
    rw [Function.update_self]
    cases found : db.tasks.find? (·.tid = other) with
    | none => rfl
    | some task => simp [tid_of_find found]
  · rw [Function.update_of_ne same, statusOf]
    cases there : db.tasks.find? (·.tid = other) with
    | none => rfl
    | some task =>
      have differs : task.tid ≠ tid := by
        rw [tid_of_find there]
        exact same
      simp [differs]

theorem keepsRows_setTask {f : HotmethodTask → HotmethodTask}
    (key : ∀ task, (f task).tid = task.tid) (kept : ∀ task, (f task).deleted = task.deleted)
    (row : TaskStatusHistory) : KeepsRows db ((db.setTask tid f).addHistory row) := by
  have tids : ((db.setTask tid f).addHistory row).tasks.map (·.tid) = db.tasks.map (·.tid) :=
    tids_setTask db tid key
  refine ⟨fun rows => ⟨tids ▸ rows.unique, fun task member => ?_, fun task member => ?_⟩,
    fun other member => tids ▸ member⟩
  · obtain ⟨before, there, rfl⟩ := mem_setTask member
    split_ifs
    · rw [kept]
      exact rows.live before there
    · exact rows.live before there
  · obtain ⟨before, there, rfl⟩ := mem_setTask member
    split_ifs
    · rw [key]
      exact rows.plain before there
    · exact rows.plain before there

theorem KeepsRows.refl (db : Tables) : KeepsRows db db := ⟨id, fun _ => id⟩

theorem KeepsRows.trans {db'' : Tables} (first : KeepsRows db db') (second : KeepsRows db' db'') :
    KeepsRows db db'' :=
  ⟨second.rows ∘ first.rows, fun tid member => second.tids tid (first.tids tid member)⟩

def updated (db : Tables) (tid : String) (newStatus : Int) (reason : String) (now : Nat) :
    Tables :=
  match db.tasks.find? (·.tid = tid) with
  | none => db
  | some task =>
    if Allowed task.status newStatus then
      (db.setTask tid (·.withStatus newStatus reason now)).addHistory
        ⟨tid, task.status, newStatus, reason, now⟩
    else db

theorem Rows.find (rows : Rows db) :
    db.tasks.find? (fun task => task.tid = tid ∧ task.deleted = false) =
      db.tasks.find? (·.tid = tid) := by
  apply List.find?_congr
  intro task member
  simp [rows.live task member]

theorem selectStatus_eq (rows : Rows db) :
    selectStatus db tid newStatus =
      (statusOf db tid).filter (Apiserver.isTransitionAllowed · newStatus) := by
  rw [selectStatus, rows.find, statusOf]
  cases db.tasks.find? (·.tid = tid) <;> rfl

theorem updateTaskStatus_eq (rows : Rows db) :
    Apiserver.updateTaskStatus noFailure db tid newStatus reason now =
      ((selectStatus db tid newStatus).map fun oldStatus =>
        commitStatus db tid oldStatus newStatus reason now).getD db := by
  have undeleted (reason : String) : db.setTask tid (·.withStatus newStatus reason now) =
      db.setTask tid fun task =>
        if task.deleted then task else task.withStatus newStatus reason now := by
    rw [Tables.setTask, Tables.setTask]
    congr 1
    refine List.map_congr_left fun task member => ?_
    rw [rows.live task member]
    rfl
  simp only [Apiserver.updateTaskStatus, Apiserver.updateTaskStatusTx, runStatement, noFailure,
    selectStatus, bind, Except.bind, Bool.false_eq_true, if_false]
  cases db.tasks.find? fun task => task.tid = tid ∧ task.deleted = false with
  | none => rfl
  | some task =>
    cases ok : Apiserver.isTransitionAllowed task.status newStatus with
    | false => simp [ok, Except.toOption]
    | true => simp [ok, Except.toOption, commitStatus, undeleted]

theorem statusOf_commitStatus (rows : Rows db) (tid : String) (oldStatus newStatus : Int)
    (reason : String) (now : Nat) :
    statusOf (commitStatus db tid oldStatus newStatus reason now) =
      Function.update (statusOf db) tid ((statusOf db tid).map fun _ => newStatus) := by
  refine (statusOf_setTask _ fun task => ?_).trans ?_
  · split_ifs <;> rfl
  · congr 1
    rw [statusOf, Option.map_map]
    cases found : db.tasks.find? (·.tid = tid) with
    | none => rfl
    | some task => simp [rows.live task (List.mem_of_find?_eq_some found)]

theorem keepsRows_commitStatus (db : Tables) (tid : String) (oldStatus newStatus : Int)
    (reason : String) (now : Nat) :
    KeepsRows db (commitStatus db tid oldStatus newStatus reason now) :=
  keepsRows_setTask (fun task => by split_ifs <;> rfl) (fun task => by split_ifs <;> rfl) _

theorem dropServer_updates :
    DropServer.updateTaskStatus noFailure db tid newStatus reason now =
      updated db (cStr tid) newStatus (cStr reason) now := by
  simp only [DropServer.updateTaskStatus, DropServer.updateTaskStatusTx, runStatement, noFailure,
    updated, Allowed, dropServer_isTransitionAllowed, bind, Except.bind,
    Bool.false_eq_true, if_false]
  cases db.tasks.find? (·.tid = cStr tid) with
  | none => rfl
  | some task =>
    cases ok : Apiserver.isTransitionAllowed task.status newStatus <;>
      simp [ok, Except.toOption]

theorem dropServer_eq_updated (plain : cStr tid = tid) :
    DropServer.updateTaskStatus noFailure db tid newStatus reason now =
      updated db tid newStatus (cStr reason) now := by
  rw [dropServer_updates, plain]

theorem statusOf_updated (db : Tables) (tid : String) (newStatus : Int) (reason : String)
    (now : Nat) :
    statusOf (updated db tid newStatus reason now) =
      Function.update (statusOf db) tid ((statusOf db tid).map (nextStatus newStatus)) := by
  unfold updated
  cases found : db.tasks.find? (·.tid = tid) with
  | none =>
    have absent : statusOf db tid = none := by simp [statusOf, found]
    rw [absent, Option.map_none, ← absent, Function.update_eq_self]
  | some task =>
    have status : statusOf db tid = some task.status := by simp [statusOf, found]
    rw [status, Option.map_some, nextStatus]
    dsimp only
    split_ifs with ok
    · refine (statusOf_setTask (·.withStatus newStatus reason now) fun _ => rfl).trans ?_
      rw [found]
      rfl
    · rw [← status, Function.update_eq_self]

theorem keepsRows_updated (db : Tables) (tid : String) (newStatus : Int) (reason : String)
    (now : Nat) : KeepsRows db (updated db tid newStatus reason now) := by
  unfold updated
  split
  · exact .refl db
  · split_ifs
    · exact keepsRows_setTask (f := (·.withStatus newStatus reason now)) (fun _ => rfl)
        (fun _ => rfl) _
    · exact .refl db

theorem statusOf_applyReport (db : Tables) (now : Nat) (result : TaskResult)
    (plain : cStr result.taskId = result.taskId) :
    statusOf (applyReport result now db) =
      Function.update (statusOf db) result.taskId ((statusOf db result.taskId).map fun old =>
        ((DropServer.notifyResultUpdates result).map (·.1)).foldl
          (fun s new => nextStatus new s) old) := by
  unfold applyReport
  generalize DropServer.notifyResultUpdates result = updates
  induction updates generalizing db with
  | nil => simp
  | cons update updates ih =>
    rw [List.foldl_cons, ih, dropServerUpdate, dropServer_eq_updated plain, statusOf_updated]
    simp [Function.comp_def]

theorem keepsRows_applyReport (db : Tables) (now : Nat) (result : TaskResult) :
    KeepsRows db (applyReport result now db) := by
  unfold applyReport
  generalize DropServer.notifyResultUpdates result = updates
  induction updates generalizing db with
  | nil => exact .refl db
  | cons update updates ih =>
    rw [List.foldl_cons]
    refine .trans ?_ (ih _)
    rw [dropServerUpdate, dropServer_updates]
    exact keepsRows_updated ..

theorem statusOf_create (creation : Creation) (fresh : tid ∉ db.tasks.map (·.tid)) :
    statusOf (create creation tid now true true db) =
      Function.update (statusOf db) tid (some taskStatusPending) := by
  funext other
  have absent : db.tasks.find? (·.tid = tid) = none := by
    simp only [List.find?_eq_none, decide_eq_true_eq]
    intro task member same
    exact fresh (same ▸ List.mem_map_of_mem member)
  rw [create, if_neg (by simp [fresh])]
  simp only [if_true, statusOf, Tables.addHistory, List.find?_append]
  by_cases same : other = tid
  · subst same
    simp [absent]
  · rw [Function.update_of_ne same]
    simp [Ne.symm same, statusOf]

theorem statusOf_eq_none (fresh : tid ∉ db.tasks.map (·.tid)) : statusOf db tid = none := by
  rw [statusOf, Option.map_eq_none_iff, List.find?_eq_none]
  intro task member same
  exact fresh (of_decide_eq_true same ▸ List.mem_map_of_mem member)

theorem keepsRows_create (creation : Creation) (fresh : tid ∉ db.tasks.map (·.tid))
    (plain : cStr tid = tid) : KeepsRows db (create creation tid now true true db) := by
  have accepted : ¬ (true = false ∨ tid ∈ db.tasks.map (·.tid)) := by simp [fresh]
  refine ⟨fun rows => ⟨TaskLifecycle.nodup_create rows.unique .., ?_, ?_⟩, fun other member => ?_⟩
  · intro task member
    rw [TaskLifecycle.tasks_create accepted] at member
    rcases List.mem_append.mp member with old | new
    · exact rows.live task old
    · rw [List.mem_singleton.mp new, TaskLifecycle.row_deleted]
  · intro task member
    rw [TaskLifecycle.tasks_create accepted] at member
    rcases List.mem_append.mp member with old | new
    · exact rows.plain task old
    · rw [List.mem_singleton.mp new, TaskLifecycle.row_tid, plain]
  · rw [TaskLifecycle.tasks_create accepted, List.map_append]
    exact List.mem_append_left _ member

end

section phases

theorem nextStatus_of_over {new old : Int} (retried : new ≠ taskStatusPending)
    (late : old ≠ 0 ∧ old ≠ 1 ∧ old ≠ 2) : nextStatus new old = old := by
  apply if_neg
  rw [allowed_iff]
  simp only [taskStatusPending, List.mem_cons, Prod.mk.injEq, List.not_mem_nil, or_false] at *
  omega

theorem phaseOf_over {status : Int} (late : status ≠ 0 ∧ status ≠ 1) :
    phaseOf (some status) = .over := by
  simp [phaseOf, taskStatusPending, taskStatusRunning, late.1, late.2]

theorem status_cases (status : Int) :
    status = 0 ∨ status = 1 ∨ status = 2 ∨ (status ≠ 0 ∧ status ≠ 1 ∧ status ≠ 2) := by
  omega

theorem phaseOf_map {f : Int → Int} {g : Phase → Phase} (absent : g .absent = .absent)
    (pending : phaseOf (some (f 0)) = g .waiting) (running : phaseOf (some (f 1)) = g .taken)
    (uploading : phaseOf (some (f 2)) = g .over) (ended : g .over = .over)
    (keeps : ∀ old, old ≠ 0 ∧ old ≠ 1 ∧ old ≠ 2 → f old = old) (status : Option Int) :
    phaseOf (status.map f) = g (phaseOf status) := by
  cases status with
  | none => exact absent.symm
  | some status =>
    rcases status_cases status with rfl | rfl | rfl | late
    · exact pending
    · exact running
    · exact uploading
    · rw [Option.map_some, keeps status late, phaseOf_over ⟨late.1, late.2.1⟩, ended]

theorem phaseOf_failed (status : Option Int) :
    phaseOf (status.map (nextStatus taskStatusFailed)) = (phaseOf status).closed :=
  phaseOf_map rfl (by decide) (by decide) (by decide) rfl
    (fun _ late => nextStatus_of_over (by decide) late) status

theorem phaseOf_running (status : Option Int) :
    phaseOf (status.map (nextStatus taskStatusRunning)) = (phaseOf status).handed :=
  phaseOf_map rfl (by decide) (by decide) (by decide) rfl
    (fun _ late => nextStatus_of_over (by decide) late) status

theorem notifyResultUpdates_status (result : TaskResult) :
    (DropServer.notifyResultUpdates result).map (·.1) =
      if result.errorMessage = "" then [taskStatusUploading, taskStatusDone]
      else [taskStatusFailed] := by
  unfold DropServer.notifyResultUpdates
  split_ifs <;> rfl

theorem phaseOf_reported (status : Option Int) (result : TaskResult) :
    phaseOf (status.map fun old => ((DropServer.notifyResultUpdates result).map (·.1)).foldl
      (fun s new => nextStatus new s) old) =
      (phaseOf status).reported (result.errorMessage = "") := by
  rw [notifyResultUpdates_status]
  by_cases success : result.errorMessage = ""
  · simp only [success, if_true, List.foldl_cons, List.foldl_nil, decide_true]
    refine phaseOf_map rfl (by decide) (by decide) (by decide) rfl (fun old late => ?_) status
    rw [nextStatus_of_over (by decide) late, nextStatus_of_over (by decide) late]
  · simp only [success, if_false, List.foldl_cons, List.foldl_nil, decide_false]
    rw [show (fun old => nextStatus taskStatusFailed old) = nextStatus taskStatusFailed from rfl,
      phaseOf_failed]
    cases phaseOf status <;> rfl

theorem closed_phaseOf (status : Option Int) :
    (phaseOf status).closed = phaseOf (status.map fun _ => taskStatusFailed) := by
  cases status with
  | none => rfl
  | some status =>
    rcases status_cases status with rfl | rfl | rfl | late
    · rfl
    · rfl
    · rfl
    · rw [phaseOf_over ⟨late.1, late.2.1⟩]
      rfl

theorem closed_of_refused {db : Tables} {tid : String} (rows : Rows db)
    (refused : selectStatus db tid taskStatusFailed = none) :
    (phaseOf (statusOf db tid)).closed = phaseOf (statusOf db tid) := by
  rw [selectStatus_eq rows] at refused
  cases stored : statusOf db tid with
  | none => rfl
  | some status =>
    rw [stored] at refused
    rcases status_cases status with rfl | rfl | rfl | late
    · exact absurd refused (by decide)
    · exact absurd refused (by decide)
    · rfl
    · rw [phaseOf_over ⟨late.1, late.2.1⟩]
      rfl

end phases

/-- Keys of tasks and of their copies pass unchanged through `c_str()`, and what is being
retried exists. -/
structure Inv (s : System) : Prop where
  rows : Rows s.db
  calls : All (fun call => cStr call.copy.tid = call.copy.tid) s.calls
  retries : All (fun retry => retry.phase = .ended ∨ retry.tid ∈ s.db.tasks.map (·.tid)) s.retries
  queues : All (fun queue => ∀ c ∈ queue, cStr c.tid = c.tid) s.queues
  agents : All (fun agent => ∀ c ∈ agent.copies, cStr c.tid = c.tid) s.agents

section simulation
variable {s s' : System} {db : Tables} {ip tid : String} {i k now : Nat}

theorem Inv.call (inv : Inv s) (i : Nat) :
    cStr (get s.calls i).copy.tid = (get s.calls i).copy.tid :=
  inv.calls.get (by decide) i

theorem Inv.agent (inv : Inv s) (ip : String) :
    ∀ c ∈ (get s.agents ip).copies, cStr c.tid = c.tid :=
  inv.agents.get (by simp [Agent.copies, default]) ip

theorem Inv.queue (inv : Inv s) (ip : String) : ∀ c ∈ get s.queues ip, cStr c.tid = c.tid :=
  inv.queues.get (by simp [default]) ip

theorem Inv.retry (inv : Inv s) (j : Nat) :
    (get s.retries j).phase = .ended ∨ (get s.retries j).tid ∈ s.db.tasks.map (·.tid) :=
  inv.retries.get (.inl rfl) j

theorem Inv.setDb (inv : Inv s) (keeps : KeepsRows s.db db) : Inv { s with db } := by
  refine ⟨keeps.rows inv.rows, inv.calls, fun entry member => ?_, inv.queues, inv.agents⟩
  exact (inv.retries entry member).imp_right (keeps.tids _)

theorem Inv.setCall (inv : Inv s) {call : DispatchCall} (same : call.copy = (get s.calls i).copy) :
    Inv { s with calls := set s.calls i call } := by
  refine ⟨inv.rows, inv.calls.set ?_ i, inv.retries, inv.queues, inv.agents⟩
  rw [same]
  exact inv.call i

theorem Inv.setQueue (inv : Inv s) {queue : List Copy} (plain : ∀ c ∈ queue, cStr c.tid = c.tid) :
    Inv { s with queues := set s.queues ip queue } :=
  ⟨inv.rows, inv.calls, inv.retries, inv.queues.set plain ip, inv.agents⟩

theorem Inv.setRetry (inv : Inv s) {j : Nat} {retry : RetryCall}
    (known : retry.phase = .ended ∨ retry.tid ∈ s.db.tasks.map (·.tid)) :
    Inv { s with retries := set s.retries j retry } :=
  ⟨inv.rows, inv.calls, inv.retries.set known j, inv.queues, inv.agents⟩

theorem Inv.setAgent (inv : Inv s) {agent : Agent}
    (fewer : ∀ c ∈ agent.copies, c ∈ (get s.agents ip).copies) :
    Inv { s with agents := set s.agents ip agent } :=
  ⟨inv.rows, inv.calls, inv.retries, inv.queues,
    inv.agents.set (fun c member => inv.agent ip c (fewer c member)) ip⟩

theorem Inv.dispatchTask (inv : Inv s) (plain : cStr tid = tid) (req : CreateTaskReq) :
    Inv (dispatchTask s tid req) := by
  refine ⟨inv.rows, fun entry member => ?_, inv.retries, inv.queues, inv.agents⟩
  rcases List.mem_append.mp member with old | new
  · exact inv.calls entry old
  · rw [List.mem_singleton.mp new]
    exact plain

/-- The step keeps the invariant and is the given event of the ledger. -/
def Refines (s s' : System) (e : Event String Copy) : Prop :=
  Inv s' ∧ (ledger s).Next Copy.tid Copy.attempt (ledger s') e

theorem phase_update {f : Int → Int} {g : Phase → Phase}
    (commutes : phaseOf ((statusOf s.db tid).map f) = g (phaseOf (statusOf s.db tid)))
    (status : statusOf db = Function.update (statusOf s.db) tid ((statusOf s.db tid).map f)) :
    (fun other => phaseOf (statusOf db other)) =
      Function.update (ledger s).phase tid (g ((ledger s).phase tid)) := by
  funext other
  rw [status]
  by_cases same : other = tid
  · subst same
    simpa [ledger] using commutes
  · simp [ledger, Function.update_of_ne same]

section agents
variable {agent : Agent} {c : Copy}

theorem refines_agent_same (inv : Inv s)
    (same : (agent.copies : Multiset Copy) = (get s.agents ip).copies) :
    Refines s { s with agents := set s.agents ip agent } .quiet := by
  refine ⟨inv.setAgent fun d member => ?_, ?_⟩
  · rwa [← Multiset.mem_coe, ← same]
  · exact Ledger.ext rfl rfl rfl (contents_same rfl same)

theorem refines_agent_lose (inv : Inv s)
    (less : ((get s.agents ip).copies : Multiset Copy) = c ::ₘ agent.copies) :
    Refines s { s with agents := set s.agents ip agent } (.lose c) := by
  refine ⟨inv.setAgent fun d member => ?_, _, contents_take rfl less, rfl⟩
  rw [← Multiset.mem_coe, less]
  exact Multiset.mem_cons_of_mem member

theorem refines_agent_merge (inv : Inv s)
    (less : ((get s.agents ip).copies : Multiset Copy) = c ::ₘ agent.copies)
    (twin : ∃ d ∈ agent.copies, d.tid = c.tid) :
    Refines s { s with agents := set s.agents ip agent } (.merge c) := by
  refine ⟨(refines_agent_lose inv less).1, _, contents_take rfl less, ?_, rfl⟩
  obtain ⟨d, member, same⟩ := twin
  exact ⟨d, mem_contents_set member, same⟩

end agents

theorem failedTask_known {uid : String} {task : HotmethodTask}
    (found : failedTask s.db tid uid = some task) : tid ∈ s.db.tasks.map (·.tid) := by
  have wanted := List.find?_some found
  simp only [decide_eq_true_eq] at wanted
  exact List.mem_map.mpr ⟨task, List.mem_of_find?_eq_some found, wanted.1⟩

theorem statusOf_known (known : tid ∈ s.db.tasks.map (·.tid)) :
    ∃ status, statusOf s.db tid = some status := by
  obtain ⟨task, member, named⟩ := List.mem_map.mp known
  cases found : s.db.tasks.find? (·.tid = tid) with
  | none => exact absurd (decide_eq_true named) (List.find?_eq_none.mp found task member)
  | some other => exact ⟨other.status, by rw [statusOf, found]; rfl⟩

theorem dispatchTask_refines {retries : Keyed Nat RetryCall} (inv : Inv { s with db, retries })
    (plain : cStr tid = tid)
    (status : statusOf db = Function.update (statusOf s.db) tid (some taskStatusPending))
    (req : CreateTaskReq) :
    Refines s (dispatchTask { s with db, retries } tid req)
      (.accept (newCopy tid req (s.attempts tid))) := by
  refine ⟨inv.dispatchTask plain req, rfl, Ledger.ext ?_ rfl ?_ rfl⟩
  · funext other
    change phaseOf (statusOf db other) = Function.update (ledger s).phase tid .waiting other
    rw [status]
    by_cases same : other = tid
    · subst same
      rw [Function.update_self, Function.update_self]
      rfl
    · rw [Function.update_of_ne same, Function.update_of_ne same]
      rfl
  · simp only [ledger, dispatchTask, contents_append]
    rw [← Multiset.singleton_add, add_right_comm, add_comm]
    rfl

theorem createTask_refines (inv : Inv s) (creation : Creation) {randBytes : Fin 12 → UInt8}
    (fresh : genTID randBytes ∉ s.db.tasks.map (·.tid)) :
    Refines s (dispatchTask { s with db := create creation (genTID randBytes) now true true s.db }
      (genTID randBytes) creation.request) (event s (.createTask creation randBytes now)) := by
  have plain := cStr_genTID randBytes
  simp only [event, if_neg fresh]
  exact dispatchTask_refines (inv.setDb (keepsRows_create creation fresh plain)) plain
    (statusOf_create creation fresh) _

theorem retryTask_refines (inv : Inv s) {uid : String} {task : HotmethodTask}
    (found : failedTask s.db tid uid = some task) (req : CreateTaskReq) :
    Refines s { s with retries := s.retries ++ [(s.retries.length, ⟨tid, req, .found⟩)] }
      .quiet := by
  refine ⟨⟨inv.rows, inv.calls, fun entry member => ?_, inv.queues, inv.agents⟩, rfl⟩
  rcases List.mem_append.mp member with old | new
  · exact inv.retries entry old
  · rw [List.mem_singleton.mp new]
    exact .inr (failedTask_known found)

theorem Inv.retried (inv : Inv s) {j : Nat} (going : (get s.retries j).phase ≠ .ended) :
    (get s.retries j).tid ∈ s.db.tasks.map (·.tid) :=
  (inv.retry j).resolve_left going

theorem retryCommit_refines (inv : Inv s) {j : Nat} {oldStatus : Int}
    (selected : (get s.retries j).phase = .selected oldStatus) :
    Refines s (dispatchTask { s with
      db := commitStatus s.db (get s.retries j).tid oldStatus taskStatusPending "用户触发重试" now
      retries := set s.retries j { get s.retries j with phase := .ended } }
        (get s.retries j).tid (get s.retries j).req) (event s (.retryCommit j now)) := by
  have known := inv.retried (by rw [selected]; exact RetryPhase.noConfusion)
  obtain ⟨task, member, named⟩ := List.mem_map.mp known
  obtain ⟨status, stored⟩ := statusOf_known known
  have ended : Inv { s with
      db := commitStatus s.db (get s.retries j).tid oldStatus taskStatusPending "用户触发重试" now
      retries := set s.retries j { get s.retries j with phase := .ended } } :=
    (inv.setDb (keepsRows_commitStatus ..)).setRetry (.inl rfl)
  refine dispatchTask_refines ended (named ▸ inv.rows.plain task member) ?_ _
  rw [statusOf_commitStatus inv.rows, stored]
  rfl

section calls
variable {call : DispatchCall}

theorem requested_leaves (here : requestedCopies (get s.calls i) = [(get s.calls i).copy])
    (there : requestedCopies call = []) :
    (contents requestedCopies s.calls : Multiset Copy) =
      (get s.calls i).copy ::ₘ contents requestedCopies (set s.calls i call) := by
  apply contents_take rfl
  rw [here, there]
  rfl

theorem requested_same (same : requestedCopies call = requestedCopies (get s.calls i)) :
    (contents requestedCopies (set s.calls i call) : Multiset Copy) =
      contents requestedCopies s.calls :=
  contents_same rfl (congrArg _ same)

end calls

theorem serverCreateTask_refines (inv : Inv s)
    (unprocessed : (get s.calls i).processed = false) :
    Refines s { s with
      queues := push s.queues (get s.calls i).targetIP (get s.calls i).copy
      calls := set s.calls i { get s.calls i with processed := true } }
      (event s (.serverCreateTask i)) := by
  have queue : ∀ c ∈ get s.queues (get s.calls i).targetIP ++ [(get s.calls i).copy],
      cStr c.tid = c.tid := by
    intro c member
    rcases List.mem_append.mp member with old | new
    · exact inv.queue _ c old
    · rw [List.mem_singleton.mp new]
      exact inv.call i
  have kept : Inv { s with calls := set s.calls i { get s.calls i with processed := true } } :=
    inv.setCall rfl
  refine ⟨kept.setQueue queue, ?_⟩
  have pushed : requestedCopies { get s.calls i with processed := true } = [] := by
    simp [requestedCopies]
  simp only [event]
  split_ifs with returned
  · -- the copy was not counted any more
    refine Ledger.ext rfl rfl ?_ rfl
    have none : requestedCopies (get s.calls i) = [] := by simp [requestedCopies, returned]
    simp only [ledger]
    rw [contents_push, requested_same (pushed.trans none.symm), Multiset.add_cons]
  · refine Ledger.ext rfl rfl ?_ rfl
    have here : requestedCopies (get s.calls i) = [(get s.calls i).copy] :=
      if_pos ⟨unprocessed, returned⟩
    simp only [ledger]
    rw [contents_push, requested_leaves here pushed, Multiset.add_cons, Multiset.cons_add]

section clients
variable {client : ClientPhase}

theorem setClient_refines_same (inv : Inv s)
    (same : (get s.calls i).processed = true ∨
      (client = .returned ↔ (get s.calls i).client = .returned)) :
    Refines s (setClient s i client) .quiet := by
  refine ⟨inv.setCall rfl, Ledger.ext rfl rfl ?_ rfl⟩
  simp only [ledger, setClient]
  rw [requested_same]
  rcases same with processed | alike
  · simp [requestedCopies, processed]
  · simp only [requestedCopies, ne_eq, alike]

theorem setClient_refines_withdraw (inv : Inv s) (keeps : KeepsRows s.db db)
    (unprocessed : (get s.calls i).processed = false) (going : (get s.calls i).client ≠ .returned)
    (closes : (fun other => phaseOf (statusOf db other)) =
      Function.update (ledger s).phase (get s.calls i).copy.tid
        ((ledger s).phase (get s.calls i).copy.tid).closed) :
    Refines s (setClient { s with db } i .returned) (.withdraw (get s.calls i).copy) := by
  refine ⟨(inv.setDb keeps).setCall rfl, _, ?_, Ledger.ext closes rfl rfl rfl⟩
  have left : requestedCopies { get s.calls i with client := .returned } = [] := by
    simp [requestedCopies]
  simp only [ledger]
  rw [requested_leaves (if_pos ⟨unprocessed, going⟩) left, Multiset.cons_add]
  rfl

end clients

theorem failureRefused_refines (inv : Inv s) {reason : String}
    (failed : (get s.calls i).client = .failed reason)
    (refused : selectStatus s.db (get s.calls i).copy.tid taskStatusFailed = none) :
    Refines s (setClient s i .returned) (event s (.failureSelect i)) := by
  simp only [event, refused, and_true]
  split_ifs with unprocessed
  · refine setClient_refines_withdraw inv (.refl s.db) unprocessed (by rw [failed]; simp) ?_
    have closed := closed_of_refused inv.rows refused
    simp only [ledger, closed, Function.update_eq_self]
  · exact setClient_refines_same inv (.inl (Bool.eq_true_of_not_eq_false unprocessed))

theorem failureCommit_refines (inv : Inv s) {reason : String} {oldStatus : Int}
    (selected : (get s.calls i).client = .selected reason oldStatus) :
    Refines s (setClient { s with
      db := commitStatus s.db (get s.calls i).copy.tid oldStatus taskStatusFailed reason now }
        i .returned) (event s (.failureCommit i now)) := by
  have closes := phase_update (g := Phase.closed) (closed_phaseOf _).symm
    (statusOf_commitStatus inv.rows (get s.calls i).copy.tid oldStatus taskStatusFailed reason now)
  have keeps := keepsRows_commitStatus s.db (get s.calls i).copy.tid oldStatus taskStatusFailed
    reason now
  simp only [event]
  split_ifs with processed
  · refine ⟨(inv.setDb keeps).setCall rfl, Ledger.ext closes rfl ?_ rfl⟩
    simp only [ledger, setClient]
    rw [requested_same]
    simp [requestedCopies, processed]
  · exact setClient_refines_withdraw inv keeps (Bool.eq_false_iff.mpr processed)
      (by rw [selected]; simp) closes

theorem healthCheckDo_refines (inv : Inv s) {c : Copy} {rest : List Copy}
    (idle : (get s.agents ip).reply = none) (held : get s.queues ip = c :: rest) :
    Refines s { s with
      db := dropServerUpdate noFailure c.tid now DropServer.healthCheckUpdate s.db
      queues := set s.queues ip rest
      agents := set s.agents ip { get s.agents ip with reply := some ⟨true, some c, rfl⟩ } }
      (event s (.healthCheckDo ip now)) := by
  have popped : pop s.queues ip = some (c, set s.queues ip rest) := by rw [pop, held]
  have plain : cStr c.tid = c.tid := inv.queue ip c (by simp [held])
  simp only [event, popped, dropServerUpdate, dropServer_eq_updated plain]
  have hands := phase_update (phaseOf_running _)
    (statusOf_updated s.db c.tid taskStatusRunning (cStr DropServer.healthCheckUpdate.2) now)
  have kept := inv.setDb (keepsRows_updated s.db c.tid taskStatusRunning
    (cStr DropServer.healthCheckUpdate.2) now)
  have queues : All (fun queue => ∀ c ∈ queue, cStr c.tid = c.tid) (set s.queues ip rest) :=
    inv.queues.set (fun d member => inv.queue ip d (by simp [held, member])) ip
  have agents : All (fun agent => ∀ c ∈ agent.copies, cStr c.tid = c.tid)
      (set s.agents ip { get s.agents ip with reply := some ⟨true, some c, rfl⟩ }) := by
    apply inv.agents.set
    intro d member
    simp only [Agent.copies, Option.bind_some, Option.toList_some, List.cons_append,
      List.nil_append, List.mem_cons] at member
    rcases member with rfl | old
    · exact plain
    · exact inv.agent ip d (by simpa [Agent.copies, idle] using old)
  refine ⟨⟨kept.rows, kept.calls, kept.retries, queues, agents⟩, _, ?_,
    Ledger.ext hands rfl rfl ?_⟩
  · simp only [ledger]
    rw [contents_pop popped, Multiset.add_cons]
  · apply contents_put rfl
    simp [Agent.copies, idle]

theorem loseReply_refines (inv : Inv s) :
    Refines s { s with agents := set s.agents ip { get s.agents ip with reply := none } }
      (event s (.loseReply ip)) := by
  simp only [event]
  cases carried : (get s.agents ip).reply.bind (·.taskDesc) with
  | none =>
    apply refines_agent_same inv
    simp [Agent.copies, carried]
  | some c =>
    apply refines_agent_lose inv
    simp [Agent.copies, carried]

section heartbeats
variable {c : Copy} (carried : (get s.agents ip).reply = some ⟨true, some c, rfl⟩)
include carried

theorem heartbeatDrop_refines (inv : Inv s)
    (twin : (get s.agents ip).queue.any (·.tid = c.tid) = true) :
    Refines s { s with agents := set s.agents ip { get s.agents ip with reply := none } }
      (event s (.heartbeatReply ip)) := by
  simp only [event, carried, Option.bind_some, if_pos twin]
  obtain ⟨d, member, same⟩ := List.any_eq_true.mp twin
  apply refines_agent_merge inv
  · simp [Agent.copies, carried]
  · exact ⟨d, by simp [Agent.copies, member], of_decide_eq_true same⟩

theorem heartbeatReply_refines (inv : Inv s)
    (alone : (get s.agents ip).queue.any (·.tid = c.tid) = false) :
    Refines s { s with
      agents := set s.agents ip { get s.agents ip with
        reply := none, queue := (get s.agents ip).queue ++ [c] } }
      (event s (.heartbeatReply ip)) := by
  simp only [event, carried, Option.bind_some, if_neg (Bool.eq_false_iff.mp alone)]
  apply refines_agent_same inv
  simp only [Agent.copies, carried, Option.bind_none, Option.bind_some, Option.toList_none,
    Option.toList_some, ← Multiset.coe_add, Multiset.coe_nil]
  abel

end heartbeats

theorem copies_set_execution {agent : Agent} {execution : Execution}
    (there : agent.executions[k]? = some execution) {later : Execution}
    (same : later.copy = execution.copy) :
    Agent.copies { agent with executions := agent.executions.set k later } = agent.copies := by
  obtain ⟨bound, rfl⟩ := List.getElem?_eq_some_iff.mp there
  have kept : (agent.executions.set k later).map (·.copy) = agent.executions.map (·.copy) := by
    have here : (agent.executions.map (·.copy))[k]? = some agent.executions[k].copy := by
      simp [bound]
    obtain ⟨_, found⟩ := List.getElem?_eq_some_iff.mp here
    rw [List.map_set, same, ← found, List.set_getElem_self]
  simp only [Agent.copies, kept]

theorem copies_erase_execution {agent : Agent} {execution : Execution}
    (there : agent.executions[k]? = some execution) :
    (agent.copies : Multiset Copy) = execution.copy ::ₘ
      Agent.copies { agent with executions := agent.executions.eraseIdx k } := by
  obtain ⟨bound, rfl⟩ := List.getElem?_eq_some_iff.mp there
  have split := (List.getElem_cons_eraseIdx_perm bound).map (·.copy)
  rw [List.map_cons] at split
  have parts := (Multiset.coe_eq_coe.mpr split).symm
  simp only [Agent.copies, ← Multiset.coe_add, parts, ← Multiset.cons_coe, Multiset.add_cons]

theorem notifyResult_refines (inv : Inv s) {c : Copy} {result : TaskResult}
    {named : ∀ sent ∈ some result, _}
    (there : (get s.agents ip).executions[k]? = some ⟨c, some result, named⟩) :
    Refines s { s with
      db := applyReport result now s.db
      agents := set s.agents ip { get s.agents ip with
        executions := (get s.agents ip).executions.eraseIdx k } }
      (event s (.notifyResult ip k now)) := by
  have less := copies_erase_execution there
  have name : result.taskId = c.tid := named result rfl
  have plain : cStr result.taskId = result.taskId := by
    rw [name]
    exact inv.agent ip c (by rw [← Multiset.mem_coe, less]; exact Multiset.mem_cons_self c _)
  simp only [event, there]
  have reports := phase_update (phaseOf_reported _ result)
    (statusOf_applyReport s.db now result plain)
  rw [name] at reports
  refine ⟨(inv.setDb (keepsRows_applyReport s.db now result)).setAgent fun d member => ?_, _,
    contents_take rfl less, Ledger.ext reports rfl rfl rfl⟩
  rw [← Multiset.mem_coe, less]
  exact Multiset.mem_cons_of_mem member

theorem step_refines (inv : Inv s) {a : Action} (next : step s a = some s') :
    Refines s s' (event s a) := by
  cases move_of_step next with
  | createRefused known =>
    rw [event, if_pos known]
    exact ⟨inv, rfl⟩
  | createTask fresh => exact createTask_refines inv _ fresh
  | retryRefused => exact ⟨inv, rfl⟩
  | retryTask found => exact retryTask_refines inv found _
  | retrySelect found phase =>
    have known := inv.retried (by rw [found]; exact RetryPhase.noConfusion)
    exact ⟨inv.setRetry (.inr known), rfl⟩
  | retryCommit selected => exact retryCommit_refines inv selected
  | serverCreateTask unprocessed => exact serverCreateTask_refines inv unprocessed
  | dispatchReply processed _ => exact setClient_refines_same inv (.inl processed)
  | dispatchError waits _ => exact setClient_refines_same inv (.inr (by rw [waits]; simp))
  | failureRefused failed refused => exact failureRefused_refines inv failed refused
  | failureSelect failed selected =>
    rw [event, if_neg (by rw [selected]; simp)]
    exact setClient_refines_same inv (.inr (by rw [failed]; simp))
  | failureCommit selected => exact failureCommit_refines inv selected
  | healthCheckEmpty idle empty =>
    simp only [event, empty]
    exact refines_agent_same inv (by simp [Agent.copies, idle])
  | healthCheckDo idle held => exact healthCheckDo_refines inv idle held
  | loseReply _ => exact loseReply_refines inv
  | heartbeatEmpty carried none =>
    simp only [event, carried, none, Option.bind_some]
    exact refines_agent_same inv (by simp [Agent.copies, carried, none])
  | heartbeatDrop carried twin => exact heartbeatDrop_refines carried inv twin
  | heartbeatReply carried alone => exact heartbeatReply_refines carried inv alone
  | workerTake held =>
    apply refines_agent_same inv
    simp only [Agent.copies, held, ← Multiset.coe_add, List.map_append, List.map_cons,
      List.map_nil, ← Multiset.cons_coe, Multiset.coe_nil, ← Multiset.singleton_add]
    abel
  | recordEnds there =>
    exact refines_agent_same inv (congrArg _ (copies_set_execution there rfl))
  | notifyResult there => exact notifyResult_refines inv there
  | loseReport there =>
    simp only [event, there]
    exact refines_agent_lose inv (copies_erase_execution there)

end simulation

theorem initial_inv : Inv initial := by
  refine ⟨⟨?_, ?_, ?_⟩, ?_, ?_, ?_, ?_⟩ <;> simp [initial, All]

end DropPlatform.DispatchRefinement
