import DropPlatform.DispatchRefinement

/-! What the ledger of copies says about the dispatch of tasks: which messages must not
be lost, and which retries must not overlap, so that every waiting or running task has
exactly one copy, and when a report can only concern the attempt that is current. -/

namespace DropPlatform.DispatchLaws
open TransitionRuns TaskStore KeyedStores CopyLedger TaskDispatch DispatchRefinement

def liveCopies (s : System) : List Copy :=
  contents id s.queues ++ contents Agent.copies s.agents

/-- A call of `dispatchTask` for the task has not returned yet. -/
def Dispatching (s : System) (tid : String) : Prop :=
  ∃ entry ∈ s.calls, entry.2.copy.tid = tid ∧ entry.2.client ≠ .returned

instance (s : System) (tid : String) : Decidable (Dispatching s tid) :=
  inferInstanceAs (Decidable (∃ entry ∈ s.calls, _ ∧ _))

/-- Every task that waits or runs, and whose dispatch has returned, has one live copy. -/
def OneCopyEach (s : System) : Prop :=
  ∀ tid status, statusOf s.db tid = some status →
    status = taskStatusPending ∨ status = taskStatusRunning → ¬ Dispatching s tid →
    (liveCopies s).countP (·.tid = tid) = 1

/-- No reply of `Do` that carries a task, and no report, is lost. -/
def Received (s : System) : Action → Prop
  | .loseReply ip => (get s.agents ip).reply.bind (·.taskDesc) = none
  | .loseReport _ _ => False
  | _ => True

/-- A dispatch fails for the client only if drop_server does not queue its task. -/
def Acknowledged (s : System) : Action → Prop
  | .serverCreateTask i => (get s.calls i).client = .waiting
  | .dispatchError i _ => (get s.calls i).processed = false
  | _ => True

/-- The status that a retry overwrites is still FAILED. -/
def Unraced (s : System) : Action → Prop
  | .retryCommit j _ => statusOf s.db (get s.retries j).tid = some taskStatusFailed
  | _ => True

def Delivered (s : System) (a : Action) : Prop := Received s a ∧ Acknowledged s a ∧ Unraced s a

instance (s : System) : (a : Action) → Decidable (Received s a)
  | .loseReply ip =>
    inferInstanceAs (Decidable ((get s.agents ip).reply.bind (·.taskDesc) = none))
  | .loseReport _ _ => .isFalse id
  | .createTask _ _ _ | .retryTask _ _ _ | .retrySelect _ | .retryCommit _ _ | .serverCreateTask _
  | .dispatchReply _ | .dispatchError _ _ | .failureSelect _ | .failureCommit _ _
  | .healthCheckDo _ _ | .heartbeatReply _ | .workerTake _ | .recordEnds _ _ _
  | .notifyResult _ _ _ => .isTrue trivial

instance (s : System) : (a : Action) → Decidable (Acknowledged s a)
  | .serverCreateTask i => inferInstanceAs (Decidable ((get s.calls i).client = .waiting))
  | .dispatchError i _ => inferInstanceAs (Decidable ((get s.calls i).processed = false))
  | .createTask _ _ _ | .retryTask _ _ _ | .retrySelect _ | .retryCommit _ _ | .dispatchReply _
  | .failureSelect _ | .failureCommit _ _ | .healthCheckDo _ _ | .loseReply _ | .heartbeatReply _
  | .workerTake _ | .recordEnds _ _ _ | .notifyResult _ _ _ | .loseReport _ _ => .isTrue trivial

instance (s : System) : (a : Action) → Decidable (Unraced s a)
  | .retryCommit j _ =>
    inferInstanceAs (Decidable (statusOf s.db (get s.retries j).tid = some taskStatusFailed))
  | .createTask _ _ _ | .retryTask _ _ _ | .retrySelect _ | .serverCreateTask _ | .dispatchReply _
  | .dispatchError _ _ | .failureSelect _ | .failureCommit _ _ | .healthCheckDo _ _ | .loseReply _
  | .heartbeatReply _ | .workerTake _ | .recordEnds _ _ _ | .notifyResult _ _ _
  | .loseReport _ _ => .isTrue trivial

instance (s : System) (a : Action) : Decidable (Delivered s a) :=
  inferInstanceAs (Decidable (_ ∧ _ ∧ _))

section calls
variable {s t : System} {a : Action}

def FailuresReal (s : System) : Prop :=
  All (fun call => call.processed = true → call.client = .waiting ∨ call.client = .returned) s.calls

theorem FailuresReal.get (real : FailuresReal s) (i : Nat)
    (processed : (get s.calls i).processed = true) :
    (get s.calls i).client = .waiting ∨ (get s.calls i).client = .returned :=
  All.get real (fun _ => .inr rfl) i processed

theorem FailuresReal.unprocessed (real : FailuresReal s) {i : Nat}
    (ended : (KeyedStores.get s.calls i).client ≠ .waiting)
    (going : (KeyedStores.get s.calls i).client ≠ .returned) :
    (KeyedStores.get s.calls i).processed = false := by
  by_contra processed
  exact (real.get i (Bool.eq_true_of_not_eq_false processed)).elim ended going

theorem FailuresReal.setClient (real : FailuresReal s) {i : Nat} {client : ClientPhase}
    (fits : (KeyedStores.get s.calls i).processed = true →
      client = .waiting ∨ client = .returned) {db : Tables} :
    FailuresReal (setClient { s with db } i client) :=
  All.set real fits i

theorem FailuresReal.dispatchTask (real : FailuresReal s) (tid : String)
    (req : TaskLifecycle.CreateTaskReq) {db : Tables} {retries : Keyed Nat RetryCall} :
    FailuresReal (dispatchTask { s with db, retries } tid req) := by
  intro entry member
  rcases List.mem_append.mp member with old | new
  · exact real entry old
  · rw [List.mem_singleton.mp new]
    exact fun processed => absurd processed Bool.false_ne_true

theorem FailuresReal.step (real : FailuresReal s) (ok : Acknowledged s a)
    (next : step s a = some t) : FailuresReal t := by
  cases move_of_step next with
  | createTask _ => exact real.dispatchTask _ _
  | retryCommit _ => exact real.dispatchTask _ _
  | @serverCreateTask i _ =>
    exact All.set real (v := { KeyedStores.get s.calls i with processed := true })
      (fun _ => .inl ok) i
  | dispatchReply _ _ => exact real.setClient fun _ => .inr rfl
  | dispatchError _ _ =>
    exact real.setClient fun processed => absurd (ok.symm.trans processed) Bool.false_ne_true
  | failureRefused _ _ => exact real.setClient fun _ => .inr rfl
  | failureSelect failed _ =>
    have unprocessed := real.unprocessed (by rw [failed]; exact ClientPhase.noConfusion)
      (by rw [failed]; exact ClientPhase.noConfusion)
    exact real.setClient fun processed =>
      absurd (unprocessed.symm.trans processed) Bool.false_ne_true
  | failureCommit _ => exact real.setClient fun _ => .inr rfl
  | createRefused | retryRefused | retryTask | retrySelect | healthCheckEmpty | healthCheckDo
  | loseReply | heartbeatEmpty | heartbeatDrop | heartbeatReply | workerTake | recordEnds
  | notifyResult | loseReport => exact real

end calls

section events
variable {s t : System} {a : Action}

theorem event_ne_lose (ok : Received s a) (c : Copy) : event s a ≠ .lose c := by
  intro lost
  cases a with
  | loseReply ip =>
    simp only [Received] at ok
    simp [event, ok] at lost
  | loseReport ip k => exact ok
  | _ =>
    simp only [event] at lost
    repeat' split at lost
    all_goals cases lost

theorem event_ne_cancel (real : FailuresReal s) (next : step s a = some t) (tid : String) :
    event s a ≠ .cancel tid := by
  intro cancelled
  cases a with
  | failureCommit i now =>
    simp only [event] at cancelled
    split_ifs at cancelled with processed
    cases move_of_step next with
    | failureCommit selected =>
      have unprocessed := real.unprocessed (by rw [selected]; exact ClientPhase.noConfusion)
        (by rw [selected]; exact ClientPhase.noConfusion)
      exact Bool.false_ne_true (unprocessed.symm.trans processed)
  | _ =>
    simp only [event] at cancelled
    repeat' split at cancelled
    all_goals cases cancelled

theorem event_ne_revive (ok : Acknowledged s a) (c : Copy) : event s a ≠ .revive c := by
  intro revived
  cases a with
  | serverCreateTask i =>
    rw [event, show (get s.calls i).client = .waiting from ok] at revived
    cases revived
  | _ =>
    simp only [event] at revived
    repeat' split at revived
    all_goals cases revived

theorem accept_cases {c : Copy} (accepted : event s a = .accept c) :
    (ledger s).phase c.tid = .absent ∨
      ∃ j now, a = .retryCommit j now ∧ c.tid = (get s.retries j).tid := by
  cases a with
  | createTask creation randBytes now =>
    simp only [event] at accepted
    split_ifs at accepted with known
    cases accepted
    refine .inl ?_
    change phaseOf (statusOf s.db (genTID randBytes)) = .absent
    rw [statusOf_eq_none known]
    rfl
  | retryCommit j now =>
    cases accepted
    exact .inr ⟨j, now, rfl, rfl⟩
  | _ =>
    simp only [event] at accepted
    repeat' split at accepted
    all_goals cases accepted

theorem accept_free (ok : Unraced s a) {c : Copy} (accepted : event s a = .accept c) :
    (ledger s).phase c.tid = .absent ∨ (ledger s).phase c.tid = .over := by
  refine (accept_cases accepted).imp_right ?_
  rintro ⟨j, now, rfl, named⟩
  change phaseOf (statusOf s.db c.tid) = .over
  rw [named, show statusOf s.db (get s.retries j).tid = some taskStatusFailed from ok]
  rfl

theorem step_complete (inv : Inv s) (complete : (ledger s).Complete Copy.tid) (ok : Received s a)
    (next : step s a = some t) : (ledger t).Complete Copy.tid :=
  complete.next (step_refines inv next).2 (event_ne_lose ok)

theorem step_single (inv : Inv s) (single : (ledger s).Single Copy.tid) (real : FailuresReal s)
    (acknowledged : Acknowledged s a) (unraced : Unraced s a) (next : step s a = some t) :
    (ledger t).Single Copy.tid :=
  single.next (step_refines inv next).2 (event_ne_cancel real next) (event_ne_revive acknowledged)
    fun _ => accept_free unraced

theorem initial_complete : (ledger initial).Complete Copy.tid := by
  intro tid
  simp [ledger, initial, statusOf, phaseOf]

theorem initial_single : (ledger initial).Single Copy.tid := by
  intro tid
  simp [ledger, initial, contents, copies]

end events

theorem requested_settled {s : System} {tid : String} (returned : ¬ Dispatching s tid) :
    (contents requestedCopies s.calls).countP (·.tid = tid) = 0 := by
  rw [List.countP_eq_zero]
  intro c member named
  obtain ⟨entry, there, held⟩ := List.mem_flatMap.mp member
  simp only [requestedCopies] at held
  split_ifs at held with requested
  · rw [List.mem_singleton.mp held] at named
    exact returned ⟨entry, there, of_decide_eq_true named, requested.2⟩
  · cases held

theorem oneCopyEach_of_ledger {s : System} (complete : (ledger s).Complete Copy.tid)
    (single : (ledger s).Single Copy.tid) : OneCopyEach s := by
  intro tid status stored unfinished returned
  have settled := requested_settled returned
  have atLeast := complete tid
  have atMost := single tid
  simp only [ledger, copies, Multiset.countP_add, Multiset.coe_countP, settled, stored]
    at atLeast atMost
  rw [liveCopies, List.countP_append]
  rcases unfinished with rfl | rfl
  · have waiting : phaseOf (some taskStatusPending) = .waiting := rfl
    simp only [waiting, if_true, reduceCtorEq, if_false, forall_const] at atLeast atMost
    omega
  · have running : phaseOf (some taskStatusRunning) = .taken := rfl
    simp only [running, if_true, reduceCtorEq, if_false, forall_const] at atLeast atMost
    omega

structure Alone (s : System) : Prop where
  inv : Inv s
  single : (ledger s).Single Copy.tid
  real : FailuresReal s

theorem Alone.step {s t : System} {a : Action} (alone : Alone s) (acknowledged : Acknowledged s a)
    (unraced : Unraced s a) (next : step s a = some t) : Alone t :=
  ⟨(step_refines alone.inv next).1,
    step_single alone.inv alone.single alone.real acknowledged unraced next,
    alone.real.step acknowledged next⟩

theorem initial_alone : Alone initial :=
  ⟨initial_inv, initial_single, fun _ member => absurd member List.not_mem_nil⟩

/-- As long as no message of the dispatch is lost and no retry is raced, no task that waits
or runs is lost or duplicated. -/
theorem delivered_steps_keep_oneCopyEach {s : System}
    (run : Reaches step Delivered initial s) : OneCopyEach s := by
  let balanced (s : System) : Prop := Alone s ∧ (ledger s).Complete Copy.tid
  have keeps : ∀ s a t, balanced s → Delivered s a → step s a = some t → balanced t := by
    intro s a t before ok next
    obtain ⟨alone, complete⟩ := before
    exact ⟨alone.step ok.2.1 ok.2.2 next, step_complete alone.inv complete ok.1 next⟩
  have balance := run.invariant balanced keeps ⟨initial_alone, initial_complete⟩
  exact oneCopyEach_of_ledger balance.2 balance.1.single

def someRequest : TaskLifecycle.CreateTaskReq := ⟨"cpu", 0, 0, "10.0.0.1", 1, 10, 99, "cpu"⟩

def someTid : String := genTID fun _ => 0

def handedOut : List Action :=
  [.createTask (.createTask someRequest "u" "user") (fun _ => 0) 0, .serverCreateTask 0,
   .dispatchReply 0, .healthCheckDo "10.0.0.1" 1]

theorem delivered_steps_keep_oneCopyEach_handedOut :
    ∃ s, Reaches step Delivered initial s ∧ OneCopyEach s ∧
      statusOf s.db someTid = some taskStatusRunning ∧ (liveCopies s).map (·.tid) = [someTid] := by
  have run : Reaches step Delivered initial _ := reaches_of_execute handedOut rfl
  exact ⟨_, run, delivered_steps_keep_oneCopyEach run, rfl, rfl⟩

/-- The reply that carries the task never reaches the agent. -/
theorem lostReply_loses_task :
    ∃ s, Reaches step free initial s ∧ statusOf s.db someTid = some taskStatusRunning ∧
      ¬ Dispatching s someTid ∧ liveCopies s = [] ∧ ¬ OneCopyEach s := by
  have run : Reaches step free initial _ :=
    reaches_of_execute (handedOut ++ [Action.loseReply "10.0.0.1"]) rfl
  refine ⟨_, run, rfl, by decide, rfl, ?_⟩
  intro each
  have one := each someTid taskStatusRunning rfl (.inr rfl) (by decide)
  exact absurd one (by decide)

def failedOnce : List Action :=
  handedOut ++ [.heartbeatReply "10.0.0.1", .workerTake "10.0.0.1",
    .recordEnds "10.0.0.1" 0 (.failed "No such process"), .notifyResult "10.0.0.1" 0 2]

def retriedTwice : List Action :=
  failedOnce ++ [.retryTask someTid "u" someRequest, .retryTask someTid "u" someRequest,
    .retrySelect 0, .retrySelect 1, .retryCommit 0 3, .retryCommit 1 4, .serverCreateTask 1,
    .serverCreateTask 2, .dispatchReply 1, .dispatchReply 2]

/-- Without any message lost, two overlapping retries leave two copies of the task. -/
theorem overlappingRetries_duplicate_task :
    ∃ s, Reaches step (fun s a => Received s a ∧ Acknowledged s a) initial s ∧
      statusOf s.db someTid = some taskStatusPending ∧ ¬ Dispatching s someTid ∧
      (liveCopies s).map (·.tid) = [someTid, someTid] ∧ ¬ OneCopyEach s := by
  have run : Reaches step (fun s a => Received s a ∧ Acknowledged s a) initial _ :=
    reaches_of_execute retriedTwice rfl
  refine ⟨_, run, rfl, by decide, rfl, ?_⟩
  intro each
  have one := each someTid taskStatusPending rfl (.inl rfl) (by decide)
  exact absurd one (by decide)

/-- A report changes the stored status of no task but its own, and of that one only
during the attempt that it reports on. -/
def CurrentReports (s : System) : Prop :=
  ∀ ip k now execution t, (get s.agents ip).executions[k]? = some execution →
    step s (.notifyResult ip k now) = some t → ∀ tid, statusOf t.db tid ≠ statusOf s.db tid →
      execution.copy.tid = tid ∧ execution.copy.attempt = s.attempts tid

/-- A retry is committed only when no copy of its task is left, neither unprocessed nor live,
and a request whose client has given up is not processed once the task has been retried. -/
def CleanRetries (s : System) : Action → Prop
  | .retryCommit j _ =>
      ∀ c ∈ contents requestedCopies s.calls ++ liveCopies s, c.tid ≠ (get s.retries j).tid
  | .serverCreateTask i => (get s.calls i).client = .returned →
      (get s.calls i).copy.attempt = s.attempts (get s.calls i).copy.tid
  | _ => True

instance (s : System) : (a : Action) → Decidable (CleanRetries s a)
  | .retryCommit j _ =>
    inferInstanceAs (Decidable (∀ c ∈ _ ++ liveCopies s, c.tid ≠ (get s.retries j).tid))
  | .serverCreateTask _ => inferInstanceAs (Decidable (_ → _))
  | .createTask _ _ _ | .retryTask _ _ _ | .retrySelect _ | .dispatchReply _ | .dispatchError _ _
  | .failureSelect _ | .failureCommit _ _ | .healthCheckDo _ _ | .loseReply _ | .heartbeatReply _
  | .workerTake _ | .recordEnds _ _ _ | .notifyResult _ _ _ | .loseReport _ _ => .isTrue trivial

section attempts
variable {s t : System} {a : Action}

theorem mem_ledger {c : Copy} : c ∈ (ledger s).waiting + (ledger s).taken ↔
    c ∈ contents requestedCopies s.calls ++ liveCopies s := by
  simp [ledger, liveCopies]

theorem accept_clean (ok : CleanRetries s a) {c : Copy} (accepted : event s a = .accept c)
    (present : (ledger s).phase c.tid ≠ .absent) :
    ∀ d ∈ (ledger s).waiting + (ledger s).taken, d.tid ≠ c.tid := by
  obtain ⟨j, now, rfl, named⟩ := (accept_cases accepted).resolve_left present
  intro d member
  rw [named]
  exact ok d (mem_ledger.mp member)

theorem revive_current (ok : CleanRetries s a) {c : Copy} (revived : event s a = .revive c) :
    c.attempt = (ledger s).generation c.tid := by
  cases a with
  | serverCreateTask i =>
    simp only [event] at revived
    split_ifs at revived with phase
    cases revived
    exact ok phase
  | _ =>
    simp only [event] at revived
    repeat' split at revived
    all_goals cases revived

theorem step_current (inv : Inv s) (current : (ledger s).Current Copy.tid Copy.attempt)
    (ok : CleanRetries s a) (next : step s a = some t) :
    (ledger t).Current Copy.tid Copy.attempt :=
  current.next (fun c => c.begun) (step_refines inv next).2
    (fun _ => accept_clean ok) fun _ => revive_current ok

theorem initial_current : (ledger initial).Current Copy.tid Copy.attempt := by
  constructor
  · simp [ledger, initial, contents]
  · simp [ledger, initial]

theorem currentReports_of_ledger (inv : Inv s)
    (current : (ledger s).Current Copy.tid Copy.attempt) : CurrentReports s := by
  intro ip k now execution t there next tid changed
  obtain ⟨c, report, named⟩ := execution
  have held : c ∈ (get s.agents ip).copies := by
    rw [← Multiset.mem_coe, copies_erase_execution there]
    exact Multiset.mem_cons_self c _
  have taken : c ∈ contents Agent.copies s.agents := mem_contents_get rfl held
  simp only [step, notifyResult, there] at next
  cases report with
  | none => cases next
  | some result =>
    have name : result.taskId = c.tid := named result rfl
    have status := statusOf_applyReport s.db now result (name ▸ inv.agent ip c held)
    rw [← Option.some.inj next] at changed
    dsimp only at changed
    rw [status, name] at changed
    have same : c.tid = tid := by
      by_contra differs
      exact changed (Function.update_of_ne (Ne.symm differs) _ _)
    refine ⟨same, ?_⟩
    rw [← same]
    exact current.tagged c (Multiset.mem_add.mpr (.inr taken))

end attempts

/-- When retries are clean, a late report never meets a later attempt of its task. -/
theorem clean_retries_keep_currentReports {s : System}
    (run : Reaches step CleanRetries initial s) : CurrentReports s := by
  let current (s : System) : Prop := Inv s ∧ (ledger s).Current Copy.tid Copy.attempt
  have keeps : ∀ s a t, current s → CleanRetries s a → step s a = some t → current t := by
    intro s a t before ok next
    exact ⟨(step_refines before.1 next).1, step_current before.1 before.2 ok next⟩
  have tagged := run.invariant current keeps ⟨initial_inv, initial_current⟩
  exact currentReports_of_ledger tagged.1 tagged.2

theorem no_copies_of_over {s : System} (single : (ledger s).Single Copy.tid) {tid : String}
    (ended : (ledger s).phase tid = .over) :
    ∀ c ∈ (ledger s).waiting + (ledger s).taken, c.tid ≠ tid := by
  have bounds := single tid
  simp only [ended, reduceCtorEq, if_false, Nat.le_zero, copies, Multiset.countP_eq_zero] at bounds
  intro c member
  rcases Multiset.mem_add.mp member with waiting | taken
  · exact bounds.1 c waiting
  · exact bounds.2 c taken

theorem acknowledged_run_clean {s : System}
    (run : Reaches step (fun s a => Acknowledged s a ∧ Unraced s a) initial s) :
    Reaches step CleanRetries initial s := by
  have clean : ∀ s a, Alone s → Acknowledged s a ∧ Unraced s a → CleanRetries s a := by
    intro s a alone ok
    cases a with
    | retryCommit j now =>
      intro c member
      refine no_copies_of_over alone.single ?_ c (mem_ledger.mpr member)
      change phaseOf (statusOf s.db (get s.retries j).tid) = .over
      rw [show statusOf s.db (get s.retries j).tid = some taskStatusFailed from ok.2]
      rfl
    | serverCreateTask i =>
      intro returned
      exact absurd ((show (get s.calls i).client = .waiting from ok.1).symm.trans returned)
        ClientPhase.noConfusion
    | _ => trivial
  exact run.weaken Alone (fun _ _ _ alone ok => alone.step ok.1 ok.2) clean initial_alone

def secondAttempt : List Action :=
  failedOnce ++ [.retryTask someTid "u" someRequest, .retrySelect 0, .retryCommit 0 3,
    .serverCreateTask 1, .dispatchReply 1, .healthCheckDo "10.0.0.1" 4, .heartbeatReply "10.0.0.1",
    .workerTake "10.0.0.1", .recordEnds "10.0.0.1" 0 (.collected "perf.data")]

theorem clean_retries_keep_currentReports_secondAttempt :
    ∃ s, Reaches step CleanRetries initial s ∧ CurrentReports s ∧ s.attempts someTid = 2 ∧
      (step s (.notifyResult "10.0.0.1" 0 5)).map (statusOf ·.db someTid) = some (some 3) := by
  have run : Reaches step CleanRetries initial _ := reaches_of_execute secondAttempt rfl
  exact ⟨_, run, clean_retries_keep_currentReports run, rfl, rfl⟩

/-- The dispatch of the first attempt times out while the agent executes it; the task is
retried and handed out again, when the report of the first execution arrives. -/
def staleReport : List Action :=
  [.createTask (.createTask someRequest "u" "user") (fun _ => 0) 0, .serverCreateTask 0,
   .healthCheckDo "10.0.0.1" 1, .heartbeatReply "10.0.0.1", .workerTake "10.0.0.1",
   .dispatchError 0 "context deadline exceeded", .failureSelect 0, .failureCommit 0 2,
   .retryTask someTid "u" someRequest, .retrySelect 0, .retryCommit 0 3,
   .serverCreateTask 1, .dispatchReply 1, .healthCheckDo "10.0.0.1" 4,
   .recordEnds "10.0.0.1" 0 (.collected "perf.data")]

theorem staleReport_ends_later_attempt :
    ∃ s t, Reaches step free initial s ∧ step s (.notifyResult "10.0.0.1" 0 5) = some t ∧
      (get s.agents "10.0.0.1").executions.map (·.copy.attempt) = [1] ∧
      s.attempts someTid = 2 ∧ statusOf s.db someTid = some taskStatusRunning ∧
      statusOf t.db someTid = some taskStatusDone ∧ ¬ CurrentReports s := by
  refine ⟨_, _, reaches_of_execute staleReport rfl, rfl, rfl, rfl, rfl, rfl, ?_⟩
  intro current
  have only := current "10.0.0.1" 0 5 _ _ rfl rfl someTid (by decide)
  exact absurd only.2 (by decide)

end DropPlatform.DispatchLaws
