import DropPlatform.AgentThreads

/-! How drop_agent shuts down. `SignalHandler` takes the mutex of the queue on whatever thread
the signal interrupts. If that thread holds the mutex, it waits for itself and the agent hangs;
if it does not, and what the handlers log gets written, the worker can always be run to its
end, without a wake-up that nobody sent. -/

namespace DropPlatform.AgentShutdown
open TransitionRuns AgentThreads Mutexes
open TaskDispatch (Copy Execution Outcome)

variable {logs : State → Thread → Bool} {s t : State} {u v : Thread}

section hang

/-- The thread waits in a handler for the mutex that it holds itself, or is on its way there. -/
structure Hung (u : Thread) (s : State) : Prop where
  inv : Inv s
  holds : s.holder = some u
  blocked : ∃ frame outer, s.handlers u = frame :: outer ∧ (frame = .logging ∨ frame = .locking)

def shared (s : State) : Bool × List Copy × List Copy × List Copy :=
  (s.shutdown, s.queue, s.taken, s.accepted)

variable {a : Action}

theorem Hung.suspended (hung : Hung u s) : s.handlers u ≠ [] := by
  obtain ⟨frame, outer, top, _⟩ := hung.blocked
  rw [top]
  exact List.cons_ne_nil _ _

theorem Hung.not_inside (hung : Hung u s) (enters : inside s v ≠ 0) : v = u :=
  Option.some.inj ((hung.inv.exclusive.holder_eq enters).symm.trans hung.holds)

theorem Hung.elsewhere (hung : Hung u s) {frame : HandlerAt} {outer : List HandlerAt}
    (frames : s.handlers v = frame :: outer) (past : frame ≠ .logging ∧ frame ≠ .locking) :
    u ≠ v := by
  rintro rfl
  obtain ⟨own, _, top, early⟩ := hung.blocked
  obtain rfl : own = frame := (List.cons.inj (top.symm.trans frames)).1
  exact early.elim past.1 past.2

theorem Hung.step {a : Action} (hung : Hung u s) (next : step logs s a = some t) :
    Hung u t ∧ shared t = shared s ∧ (s.worker ≠ .ended → t.worker ≠ .ended) := by
  obtain ⟨running, resumed, move⟩ := step_cases next
  have inv := hung.inv.step next
  have locked : s.holder ≠ none := by
    rw [hung.holds]
    exact Option.some_ne_none u
  -- The code of a thread that is inside is suspended, since that thread is the one that waits.
  have outside {v : Thread} (enters : inside s v ≠ 0) (member : v ∈ performer s a) : False := by
    rw [hung.not_inside enters] at member
    exact hung.suspended (resumed u member)
  cases move with
  | heartbeatLock _ unlocked | workerLock _ unlocked | handlerLock _ unlocked =>
    exact absurd unlocked locked
  | heartbeatDrop at_ _ | heartbeatPush at_ _ =>
    exact (outside (v := .heartbeat) (by simp [inside, own, at_, HeartbeatAt.inside]) rfl).elim
  | workerRests at_ _ | workerTakes at_ _ _ _ =>
    exact (outside (v := .worker) (by simp [inside, own, at_, WorkerAt.inside]) rfl).elim
  | @handlerSet v _ frames =>
    have same := hung.not_inside (v := v) (by simp [inside, frames])
    exact absurd same.symm (hung.elsewhere frames ⟨by simp, by simp⟩)
  | heartbeatTop | heartbeatReply | heartbeatWake | recordEnds | mainReturns =>
    exact ⟨⟨inv, hung.holds, hung.blocked⟩, rfl, id⟩
  | workerWake | workerDetach => exact ⟨⟨inv, hung.holds, hung.blocked⟩, rfl, by simp⟩
  | heartbeatNotify =>
    exact ⟨⟨inv, hung.holds, hung.blocked⟩, rfl, fun busy ended => busy ((wake_eq_ended _).mp ended)⟩
  | reportEnds =>
    refine ⟨⟨inv, hung.holds, hung.blocked⟩, rfl, fun busy => ?_⟩
    dsimp only
    split_ifs
    · exact busy
    · simp
  | @signal v _ =>
    refine ⟨⟨inv, hung.holds, ?_⟩, rfl, id⟩
    by_cases here : u = v
    · rw [here, handlers_handlerMoves_self]
      exact ⟨_, _, rfl, .inl rfl⟩
    · rw [handlers_handlerMoves_of_ne here]
      exact hung.blocked
  | @handlerLog v _ frames _ =>
    refine ⟨⟨inv, hung.holds, ?_⟩, rfl, id⟩
    by_cases here : u = v
    · rw [here, handlers_handlerMoves_self]
      exact ⟨_, _, rfl, .inr rfl⟩
    · rw [handlers_handlerMoves_of_ne here]
      exact hung.blocked
  | handlerNotify frames =>
    refine ⟨⟨inv, hung.holds, ?_⟩, rfl, fun busy ended => busy ((wake_eq_ended _).mp ended)⟩
    rw [handlers_handlerMoves_of_ne (hung.elsewhere frames ⟨by simp, by simp⟩)]
    exact hung.blocked

/-- A signal that reaches a thread inside its critical section: in everything that can follow
the flag is never set and no task is accepted or taken, and unless the worker had ended before,
the process stays. -/
theorem signal_to_holder_hangs (run : Reaches (step logs) free start s) (held : s.holder = some u)
    (hit : step logs s (.signal u) = some t) {later : State}
    (after : Reaches (step logs) free t later) :
    shared later = shared s ∧
      (s.worker ≠ .ended → later.worker ≠ .ended ∧ later.exited = false) := by
  have inv := (inv_of_reaches run).step hit
  obtain ⟨running, _, move⟩ := step_cases hit
  have hung : Hung u t ∧ shared t = shared s ∧ (s.worker ≠ .ended → t.worker ≠ .ended) := by
    cases move
    exact ⟨⟨inv, held, ⟨_, _, handlers_handlerMoves_self _ _, .inl rfl⟩⟩, rfl, id⟩
  have whole := after.invariant
    (fun x => Hung u x ∧ shared x = shared s ∧ (s.worker ≠ .ended → x.worker ≠ .ended))
    (fun x a y before _ next => by
      obtain ⟨still, same, busy⟩ := before.1.step next
      exact ⟨still, same.trans before.2.1, busy ∘ before.2.2⟩) hung
  refine ⟨whole.2.1, fun busy => ⟨whole.2.2 busy, ?_⟩⟩
  by_contra gone
  exact whole.2.2 busy (whole.1.inv.last (Bool.eq_true_of_not_eq_false gone))

theorem signal_to_holder_hangs_heartbeat :
    ∃ s t, Reaches (step logged) free start s ∧ s.heartbeat = .checking perfTask ∧
      step logged s (.signal .heartbeat) = some t ∧
      ∀ later, Reaches (step logged) free t later →
        later.exited = false ∧ shared later = shared s := by
  have run : Reaches (step logged) free start _ :=
    reaches_of_execute [.heartbeatTop, .heartbeatReply (some perfTask), .heartbeatLock] rfl
  refine ⟨_, _, run, rfl, rfl, fun later after => ?_⟩
  obtain ⟨same, stays⟩ := signal_to_holder_hangs run rfl rfl after
  exact ⟨(stays (by decide)).2, same⟩

end hang

section completion

/-- No signal hits a thread that holds the mutex. -/
def Deliverable (s : State) : Action → Prop
  | .signal t => s.holder ≠ some t
  | _ => True

instance decidableDeliverable : ∀ (s : State) (a : Action), Decidable (Deliverable s a)
  | s, .signal t => inferInstanceAs (Decidable (s.holder ≠ some t))
  | _, .heartbeatTop | _, .heartbeatReply _ | _, .heartbeatLock | _, .heartbeatCheck
  | _, .heartbeatNotify | _, .heartbeatWake | _, .workerLock | _, .workerCheck | _, .workerWake
  | _, .workerDetach | _, .recordEnds _ _ | _, .reportEnds _ | _, .handlerLog _ | _, .handlerLock _
  | _, .handlerSet _ | _, .handlerNotify _ | _, .mainReturns => .isTrue trivial

/-- Neither a further signal or reply nor a wake-up that nobody sent. -/
def Prompted (_ : State) : Action → Prop
  | .signal _ | .heartbeatReply _ | .workerWake => False
  | _ => True

/-- The `LOG(INFO)` of every handler returns, whatever its thread was doing. -/
def LogReturns (logs : State → Thread → Bool) : Prop := ∀ s t, logs s t = true

def Unblocked (s : State) : Prop :=
  ∀ u, s.holder = some u → s.handlers u = [] ∨ ∃ outer, s.handlers u = .setting :: outer

theorem unblocked_step {a : Action} (unblocked : Unblocked s) (deliverable : Deliverable s a)
    (next : step logs s a = some t) : Unblocked t := by
  obtain ⟨_, resumed, move⟩ := step_cases next
  cases move with
  | heartbeatLock | workerLock =>
    rintro _ ⟨⟩
    exact .inl (resumed _ rfl)
  | heartbeatDrop | heartbeatPush | workerRests | workerTakes | handlerSet => nofun
  | @signal v _ =>
    intro u held
    have other : u ≠ v := by
      rintro rfl
      exact deliverable held
    rw [handlers_handlerMoves_of_ne other]
    exact unblocked u held
  | @handlerLock v outer _ _ =>
    rintro _ ⟨⟩
    exact .inr ⟨outer, handlers_handlerMoves_self _ _⟩
  | @handlerLog v outer frames _ | @handlerNotify v outer frames =>
    intro u held
    have other : u ≠ v := by
      rintro rfl
      rcases unblocked u held with none | ⟨_, top⟩
      · rw [none] at frames
        cases frames
      · rw [top] at frames
        cases (List.cons.inj frames).1
    rw [handlers_handlerMoves_of_ne other]
    exact unblocked u held
  | _ => exact unblocked

structure Settling (s : State) : Prop where
  inv : Inv s
  running : s.exited = false
  unlocked : s.holder = none
  down : s.shutdown = true

theorem advance {a : Action} (running : s.exited = false) (prompted : Prompted s a)
    (resumed : ∀ u ∈ performer s a, s.handlers u = []) (next : perform logs s a = some t) :
    Reaches (step logs) Prompted s t :=
  .single ⟨a, prompted, by rw [step, if_pos ⟨running, resumed⟩, next]⟩

theorem inv_of_prompted (inv : Inv s) (run : Reaches (step logs) Prompted s t) : Inv t :=
  run.invariant Inv (fun _ _ _ inv _ next => inv.step next) inv

theorem frames_of_unlocked (inv : Inv s) (unlocked : s.holder = none) :
    .setting ∉ s.handlers u := by
  have ex := inv.exclusive
  rw [unlocked] at ex
  have none := ex.outside (t := u) (Option.some_ne_none u).symm
  exact List.count_eq_zero.mp (Nat.eq_zero_of_add_eq_zero_left none)

structure Cleared (u : Thread) (s t : State) : Prop where
  handlers : t.handlers = Function.update s.handlers u []
  worker : t.worker = if s.handlers u = [] then s.worker else wake s.worker
  heartbeat : t.heartbeat = s.heartbeat
  queue : t.queue = s.queue
  accepted : t.accepted = s.accepted

theorem Settling.eq_self (settling : Settling s) : { s with holder := none, shutdown := true } = s := by
  rw [← settling.unlocked, ← settling.down]

section handlers
variable (returns : LogReturns logs)

include returns

theorem handler_tells {frame : HandlerAt} {outer : List HandlerAt} (running : s.exited = false)
    (unlocked : s.holder = none) (pending : s.handlers u = frame :: outer)
    (early : frame = .logging ∨ frame = .locking) :
    Reaches (step logs) Prompted s
      (handlerMoves { s with holder := none, shutdown := true } u (.notifying :: outer)) := by
  let asking := handlerMoves s u (.locking :: outer)
  let locked := handlerMoves { s with holder := some u } u (.setting :: outer)
  have asks : Reaches (step logs) Prompted s asking := by
    rcases early with rfl | rfl
    · exact advance (a := .handlerLog u) running trivial (by simp [performer])
        (by simp [perform, pending, returns s u, asking])
    · have same : asking = s := by
        simp only [asking, handlerMoves, ← pending, Function.update_eq_self]
      rw [same]
  have locks : Reaches (step logs) Prompted asking locked :=
    advance (a := .handlerLock u) running trivial (by simp [performer])
      (by simp [perform, unlocked, locked, asking, handlerMoves])
  exact (asks.trans locks).trans (advance (a := .handlerSet u) running trivial
    (by simp [performer]) (by simp [perform, locked, handlerMoves]))

theorem handler_returns {frame : HandlerAt} {outer : List HandlerAt} (settling : Settling s)
    (pending : s.handlers u = frame :: outer) :
    Reaches (step logs) Prompted s (handlerMoves { s with worker := wake s.worker } u outer) := by
  have notifies {s : State} (running : s.exited = false)
      (top : s.handlers u = .notifying :: outer) :
      Reaches (step logs) Prompted s (handlerMoves { s with worker := wake s.worker } u outer) :=
    advance (a := .handlerNotify u) running trivial (by simp [performer]) (by simp [perform, top])
  have tells (early : frame = .logging ∨ frame = .locking) :
      Reaches (step logs) Prompted s (handlerMoves { s with worker := wake s.worker } u outer) := by
    let told := handlerMoves { s with holder := none, shutdown := true } u (.notifying :: outer)
    have last := notifies (s := told) settling.running (by simp [told])
    refine (handler_tells returns settling.running settling.unlocked pending early).trans ?_
    have same : handlerMoves { told with worker := wake told.worker } u outer =
        handlerMoves { s with worker := wake s.worker } u outer := by
      simp only [told, settling.eq_self]
      simp [handlerMoves]
    exact same ▸ last
  cases frame with
  | logging => exact tells (.inl rfl)
  | locking => exact tells (.inr rfl)
  | notifying => exact notifies settling.running pending
  | setting =>
    refine absurd ?_ (frames_of_unlocked (u := u) settling.inv settling.unlocked)
    rw [pending]
    exact List.mem_cons_self

theorem handlers_return (u : Thread) (settling : Settling s) :
    ∃ t, Reaches (step logs) Prompted s t ∧ Settling t ∧ Cleared u s t := by
  generalize pending : s.handlers u = frames
  induction frames generalizing s with
  | nil =>
    exact ⟨s, .refl, settling, by rw [← pending, Function.update_eq_self], by rw [if_pos pending],
      rfl, rfl, rfl⟩
  | cons frame outer ih =>
    let after := handlerMoves { s with worker := wake s.worker } u outer
    have run : Reaches (step logs) Prompted s after := handler_returns returns settling pending
    have settled : Settling after :=
      ⟨inv_of_prompted settling.inv run, settling.running, settling.unlocked, settling.down⟩
    obtain ⟨last, more, end_, cleared⟩ := ih settled (handlers_handlerMoves_self u outer)
    refine ⟨last, run.trans more, end_, ?_, ?_, cleared.heartbeat, cleared.queue,
      cleared.accepted⟩
    · rw [cleared.handlers]
      exact Function.update_idem _ _ _
    · have filled : s.handlers u ≠ [] := by
        rw [pending]
        exact List.cons_ne_nil _ _
      rw [cleared.worker, if_neg filled]
      change (if _ then wake s.worker else wake (wake s.worker)) = _
      rw [wake_wake, ite_self]

end handlers

structure Ready (s : State) : Prop extends Settling s where
  resumed : s.handlers .worker = []

structure Kept (s t : State) : Prop where
  handlers : t.handlers = s.handlers
  queue : t.queue = s.queue
  accepted : t.accepted = s.accepted

theorem Ready.advance {a : Action} (ready : Ready s) (next : perform logs s a = some t)
    (prompted : Prompted s a) (mine : ∀ u ∈ performer s a, u = .worker)
    (frame : t.exited = s.exited ∧ t.holder = s.holder ∧ t.shutdown = s.shutdown ∧
      t.handlers = s.handlers) :
    Reaches (step logs) Prompted s t ∧ Ready t := by
  obtain ⟨running, holder, shutdown, handlers⟩ := frame
  have run : Reaches (step logs) Prompted s t := by
    refine AgentShutdown.advance ready.running prompted (fun u member => ?_) next
    rw [mine u member]
    exact ready.resumed
  exact ⟨run, ⟨inv_of_prompted ready.inv run, running.trans ready.running,
    holder.trans ready.unlocked, shutdown.trans ready.down⟩, by rw [handlers, ready.resumed]⟩

theorem report_ends {k : Nat} {execution : Execution} (ready : Ready s)
    (entry : s.executions[k]? = some execution) (kind : ¬ continuous execution.copy)
    (finished : execution.report.isSome) :
    ∃ t, Reaches (step logs) Prompted s t ∧ Ready t ∧ t.worker = .locking ∧ Kept s t := by
  obtain ⟨copy, report, named⟩ := execution
  obtain ⟨result, rfl⟩ := Option.isSome_iff_exists.mp finished
  let after := { s with
    executions := s.executions.eraseIdx k, reported := s.reported ++ [copy], worker := .locking }
  have next : perform logs s (.reportEnds k) = some after := by
    simp [perform, entry, kind, after]
  obtain ⟨run, still⟩ := ready.advance next trivial (by simp [performer, entry]) ⟨rfl, rfl, rfl, rfl⟩
  exact ⟨after, run, still, rfl, rfl, rfl, rfl⟩

theorem task_ends {c : Copy} (ready : Ready s) (at_ : s.worker = .working c) :
    ∃ t, Reaches (step logs) Prompted s t ∧ Ready t ∧ t.worker = .locking ∧ Kept s t := by
  by_cases kind : continuous c
  · have next : perform logs s .workerDetach = some { s with worker := .locking } := by
      simp [perform, at_, kind]
    obtain ⟨run, still⟩ := ready.advance next trivial (by simp [performer]) ⟨rfl, rfl, rfl, rfl⟩
    exact ⟨_, run, still, rfl, rfl, rfl, rfl⟩
  · have member : c ∈ s.copies := by
      have mine : c ∈ s.worker.busy := by simp [at_, WorkerAt.busy, kind]
      exact (List.mem_filter.mp (ready.inv.single.mem_iff.mpr mine)).1
    obtain ⟨execution, listed, rfl⟩ := List.mem_map.mp member
    obtain ⟨k, entry⟩ := List.mem_iff_getElem?.mp listed
    by_cases finished : execution.report.isSome
    · exact report_ends ready entry kind finished
    · -- The recording ends first; how it does makes no difference here.
      let reporting := Execution.reporting execution.copy (.failed "")
      let after := { s with executions := s.executions.set k reporting }
      have next : perform logs s (.recordEnds k (.failed "")) = some after := by
        obtain ⟨copy, report, named⟩ := execution
        obtain rfl : report = none := by simpa using finished
        simp [perform, entry, after, reporting]
      obtain ⟨run, still⟩ :=
        ready.advance next trivial (by simp [performer, entry]) ⟨rfl, rfl, rfl, rfl⟩
      obtain ⟨bound, _⟩ := List.getElem?_eq_some_iff.mp entry
      have there : after.executions[k]? = some reporting := List.getElem?_set_self bound
      obtain ⟨last, more, settled, locking, kept⟩ := report_ends still there kind rfl
      exact ⟨last, run.trans more, settled, locking, kept.handlers, kept.queue, kept.accepted⟩

theorem worker_checks (ready : Ready s) (at_ : s.worker = .locking) :
    Reaches (step logs) Prompted s (workerCheck { s with holder := some .worker, worker := .checking }) := by
  have mine : ∀ u ∈ (some Thread.worker : Option Thread), s.handlers u = [] := by
    rintro _ ⟨⟩
    exact ready.resumed
  have locks : Reaches (step logs) Prompted s
      { s with holder := some .worker, worker := .checking } :=
    advance (a := .workerLock) ready.running trivial mine
      (by rw [perform, if_pos ⟨at_, ready.unlocked⟩])
  exact locks.trans (advance (a := .workerCheck) ready.running trivial mine rfl)

theorem locking_ends (ready : Ready s) (at_ : s.worker = .locking) :
    ∃ t, Reaches (step logs) Prompted s t ∧ Settling t ∧ t.worker = .ended ∧ t.queue = [] ∧
      t.accepted = s.accepted ∧ t.handlers = s.handlers := by
  generalize queued : s.queue = queue
  induction queue generalizing s with
  | nil =>
    have run : Reaches (step logs) Prompted s _ := worker_checks ready at_
    simp only [workerCheck, queued, ready.down, if_true] at run
    exact ⟨_, run, ⟨inv_of_prompted ready.inv run, ready.running, rfl, rfl⟩, rfl, rfl, rfl, rfl⟩
  | cons c rest ih =>
    have run : Reaches (step logs) Prompted s _ := worker_checks ready at_
    simp only [workerCheck, queued] at run
    have taking : Ready _ :=
      ⟨⟨inv_of_prompted ready.inv run, ready.running, rfl, ready.down⟩, ready.resumed⟩
    obtain ⟨next, works, still, locking, kept⟩ := task_ends taking rfl
    obtain ⟨last, more, settling, ended, empty, accepted, handlers⟩ := ih still locking kept.queue
    exact ⟨last, (run.trans works).trans more, settling, ended, empty,
      accepted.trans kept.accepted, handlers.trans kept.handlers⟩

theorem worker_ends (ready : Ready s) (awake : s.worker ≠ .waiting) (busy : s.worker ≠ .ended) :
    ∃ t, Reaches (step logs) Prompted s t ∧ Settling t ∧ t.worker = .ended ∧ t.queue = [] ∧
      t.accepted = s.accepted ∧ t.handlers = s.handlers := by
  cases at_ : s.worker with
  | waiting => exact absurd at_ awake
  | ended => exact absurd at_ busy
  | checking =>
    have held := ready.inv.exclusive.holder_eq (t := .worker)
      (by simp [inside, own, at_, WorkerAt.inside])
    exact absurd (held.symm.trans ready.unlocked) (Option.some_ne_none _)
  | locking => exact locking_ends ready at_
  | working c =>
    obtain ⟨next, works, still, locking, kept⟩ := task_ends ready at_
    obtain ⟨last, more, settling, ended, empty, accepted, handlers⟩ := locking_ends still locking
    exact ⟨last, works.trans more, settling, ended, empty, accepted.trans kept.accepted,
      handlers.trans kept.handlers⟩

def Asked (s : State) : Prop := s.shutdown = true ∨ ∃ u, s.handlers u ≠ []

theorem mutex_released (inv : Inv s) (running : s.exited = false) (unblocked : Unblocked s)
    (asked : Asked s) :
    ∃ t, Reaches (step logs) Prompted s t ∧ t.holder = none ∧ t.exited = false ∧ Asked t ∧
      s.accepted <+: t.accepted ∧ (t.worker = .ended → s.worker = .ended ∨ t.queue = []) := by
  cases held : s.holder with
  | none => exact ⟨s, .refl, held, running, asked, List.prefix_rfl, .inl⟩
  | some u =>
    have once := inv.exclusive u
    rw [if_pos held, inside] at once
    rcases unblocked u held with resumed | ⟨outer, top⟩
    · rw [resumed, List.count_nil, add_zero] at once
      have mine : ∀ v ∈ (some u : Option Thread), s.handlers v = [] := by
        rintro _ ⟨⟩
        exact resumed
      cases u with
      | heartbeat =>
        rw [own] at once
        cases at_ : s.heartbeat with
        | checking c =>
          have run : Reaches (step logs) Prompted s (heartbeatCheck s c) :=
            advance (a := .heartbeatCheck) running trivial mine (by rw [perform, at_])
          refine ⟨_, run, ?_⟩
          rw [heartbeatCheck]
          split_ifs
          · exact ⟨rfl, running, asked, List.prefix_rfl, .inl⟩
          · exact ⟨rfl, running, asked, List.prefix_append _ _, .inl⟩
        | _ => simp [at_, HeartbeatAt.inside] at once
      | worker =>
        rw [own] at once
        cases at_ : s.worker with
        | checking =>
          have run : Reaches (step logs) Prompted s (workerCheck s) :=
            advance (a := .workerCheck) running trivial mine (by rw [perform, if_pos at_])
          refine ⟨_, run, ?_⟩
          unfold workerCheck
          split
          · rename_i empty
            exact ⟨rfl, running, asked, List.prefix_rfl, fun _ => .inr empty⟩
          · exact ⟨rfl, running, asked, List.prefix_rfl, fun ended => by cases ended⟩
        | _ => simp [at_, WorkerAt.inside] at once
      | other n => simp [own] at once
    · have run : Reaches (step logs) Prompted s (handlerMoves
          { s with holder := none, shutdown := true } u (.notifying :: outer)) :=
        advance (a := .handlerSet u) running trivial (by simp [performer]) (by simp [perform, top])
      exact ⟨_, run, rfl, running, .inl rfl, List.prefix_rfl, .inl⟩

section shutdown
variable (returns : LogReturns logs)

include returns

theorem flag_set (inv : Inv s) (running : s.exited = false) (unlocked : s.holder = none)
    (asked : Asked s) :
    ∃ t, Reaches (step logs) Prompted s t ∧ Settling t ∧ t.worker = s.worker ∧ t.queue = s.queue ∧
      t.accepted = s.accepted := by
  by_cases down : s.shutdown = true
  · exact ⟨s, .refl, ⟨inv, running, unlocked, down⟩, rfl, rfl, rfl⟩
  · -- Its handlers have not got the mutex yet, or the flag would be set.
    obtain ⟨u, filled⟩ := asked.resolve_left down
    obtain ⟨frame, outer, pending⟩ := List.exists_cons_of_ne_nil filled
    have early : frame = .logging ∨ frame = .locking := by
      cases frame with
      | logging => exact .inl rfl
      | locking => exact .inr rfl
      | setting =>
        refine absurd ?_ (frames_of_unlocked (u := u) inv unlocked)
        simp [pending]
      | notifying => exact absurd (inv.told u (by simp [pending])) down
    have run := handler_tells returns running unlocked pending early
    exact ⟨_, run, ⟨inv_of_prompted inv run, running, rfl, rfl⟩, rfl, rfl, rfl⟩

theorem worker_wakes (ready : Ready s) :
    ∃ t, Reaches (step logs) Prompted s t ∧ Ready t ∧ t.worker = wake s.worker ∧ t.queue = s.queue ∧
      t.accepted = s.accepted := by
  by_cases asleep : s.worker = .waiting
  · have owed : Owed s := by
      refine (ready.inv.vigilant asleep).resolve_left fun idle => ?_
      exact absurd (ready.down.symm.trans idle.2) (by simp)
    -- A thread other than the worker is about to notify, or will when its handlers return.
    have cleared {u : Thread} (other : u ≠ .worker) :
        ∃ t, Reaches (step logs) Prompted s t ∧ Ready t ∧ Cleared u s t := by
      obtain ⟨t, run, settling, cleared⟩ := handlers_return returns u ready.toSettling
      refine ⟨t, run, ⟨settling, ?_⟩, cleared⟩
      rw [cleared.handlers, Function.update_of_ne other.symm, ready.resumed]
    rcases owed with at_ | ⟨u, telling⟩
    · obtain ⟨t, run, still, cleared⟩ := cleared (u := .heartbeat) (by simp)
      have next : perform logs t .heartbeatNotify =
          some { t with heartbeat := .sleeping, worker := wake t.worker } := by
        rw [perform, if_pos (cleared.heartbeat.trans at_)]
      have resumed : ∀ u ∈ performer t .heartbeatNotify, t.handlers u = [] := by
        rintro _ ⟨⟩
        rw [cleared.handlers, Function.update_self]
      have more := run.trans (advance (a := .heartbeatNotify) still.running trivial resumed next)
      refine ⟨_, more, ⟨⟨inv_of_prompted ready.inv more, still.running, still.unlocked,
        still.down⟩, still.resumed⟩, ?_, cleared.queue, cleared.accepted⟩
      change wake t.worker = _
      rw [cleared.worker]
      split_ifs <;> simp
    · have filled : s.handlers u ≠ [] := List.ne_nil_of_mem telling
      have other : u ≠ .worker := fun same => filled (same ▸ ready.resumed)
      obtain ⟨t, run, still, cleared⟩ := cleared other
      refine ⟨t, run, still, ?_, cleared.queue, cleared.accepted⟩
      rw [cleared.worker, if_neg filled]
  · refine ⟨s, .refl, ready, ?_, rfl, rfl⟩
    cases at_ : s.worker <;> simp_all [wake]

theorem settling_ends (settling : Settling s) (empty : s.worker = .ended → s.queue = []) :
    ∃ t, Reaches (step logs) Prompted s t ∧ Settling t ∧ t.worker = .ended ∧ t.queue = [] ∧
      t.accepted = s.accepted := by
  obtain ⟨a, clears, settlingA, cleared⟩ := handlers_return returns .worker settling
  have ready : Ready a := ⟨settlingA, by rw [cleared.handlers, Function.update_self]⟩
  obtain ⟨b, wakes, readyB, workerB, queueB, acceptedB⟩ := worker_wakes returns ready
  have ended : b.worker = .ended ↔ s.worker = .ended := by
    rw [workerB, wake_eq_ended, cleared.worker]
    split_ifs <;> simp
  by_cases done : b.worker = .ended
  · refine ⟨b, clears.trans wakes, readyB.toSettling, done, ?_, acceptedB.trans cleared.accepted⟩
    rw [queueB, cleared.queue, empty (ended.mp done)]
  · have awake : b.worker ≠ .waiting := by
      rw [workerB]
      exact wake_ne_waiting _
    obtain ⟨c, works, settlingC, endedC, emptyC, acceptedC, _⟩ := worker_ends readyB awake done
    exact ⟨c, (clears.trans wakes).trans works, settlingC, endedC, emptyC,
      (acceptedC.trans acceptedB).trans cleared.accepted⟩

theorem main_returns (settling : Settling s) (ended : s.worker = .ended) :
    ∃ t, Reaches (step logs) Prompted s t ∧ t.exited = true ∧ t.queue = s.queue ∧
      t.accepted = s.accepted := by
  obtain ⟨a, clears, settlingA, cleared⟩ := handlers_return returns mainThread settling
  have stays : a.worker = .ended := by
    rw [cleared.worker, ended]
    split_ifs <;> rfl
  have resumed : ∀ u ∈ performer a .mainReturns, a.handlers u = [] := by
    rintro _ ⟨⟩
    rw [cleared.handlers, Function.update_self]
  have exits : Reaches (step logs) Prompted a { a with exited := true } :=
    advance (a := .mainReturns) settlingA.running trivial resumed (by rw [perform, if_pos stays])
  exact ⟨_, clears.trans exits, rfl, cleared.queue, cleared.accepted⟩

omit returns in
/-- Unless a signal hits a thread that holds the mutex, the agent can always complete a
shutdown before its worker has ended, with every task taken that it has accepted. No wake-up is
lost on the way, and none that nobody sent is needed. -/
theorem shutdown_completes (returns : LogReturns logs)
    (run : Reaches (step logs) Deliverable start s) (asked : Asked s) (busy : s.worker ≠ .ended) :
    ∃ t, Reaches (step logs) Prompted s t ∧ t.exited = true ∧ t.queue = [] ∧
      s.accepted <+: t.taken := by
  have inv := inv_of_reaches run
  have running : s.exited = false := by
    by_contra gone
    exact busy (inv.last (Bool.eq_true_of_not_eq_false gone))
  have unblocked : Unblocked s := by
    refine run.invariant Unblocked (fun _ _ _ before ok next => unblocked_step before ok next) ?_
    intro u held
    cases held
  obtain ⟨a, toA, unlocked, runningA, askedA, more, last⟩ :=
    mutex_released inv running unblocked asked
  obtain ⟨b, toB, settling, workerB, queueB, acceptedB⟩ :=
    flag_set returns (inv_of_prompted inv toA) runningA unlocked askedA
  have empty : b.worker = .ended → b.queue = [] := by
    intro ended
    rw [queueB]
    exact (last (workerB.symm.trans ended)).resolve_left busy
  obtain ⟨c, toC, settlingC, ended, emptyC, acceptedC⟩ := settling_ends returns settling empty
  obtain ⟨t, toT, exited, queueT, acceptedT⟩ := main_returns returns settlingC ended
  have whole := ((toA.trans toB).trans toC).trans toT
  have none := queueT.trans emptyC
  refine ⟨t, whole, exited, none, ?_⟩
  have all := (inv_of_prompted inv whole).fifo
  rw [none, List.append_nil, acceptedT, acceptedC, acceptedB] at all
  exact all ▸ more

end shutdown

theorem shutdown_completes_asleep :
    ∃ s t, Reaches (step logged) Deliverable start s ∧ s.worker = .waiting ∧
      s.accepted = [perfTask] ∧ Reaches (step logged) Prompted s t ∧ t.exited = true ∧
      s.accepted <+: t.taken := by
  have run : Reaches (step logged) Deliverable start _ := reaches_of_execute [.workerLock,
    .workerCheck, .heartbeatTop, .heartbeatReply (some perfTask), .heartbeatLock, .heartbeatCheck,
    .signal .heartbeat] rfl
  obtain ⟨t, completes, exited, _, taken⟩ := shutdown_completes (fun _ _ => rfl) run
    (.inr ⟨.heartbeat, List.cons_ne_nil _ _⟩) (by decide)
  exact ⟨_, t, run, rfl, rfl, completes, exited, taken⟩

end completion

end DropPlatform.AgentShutdown
