import DropPlatform.TaskStore
import DropPlatform.SqlTransactions

/-! `PGStore::UpdateTaskStatus` when several gRPC handler threads call it at once.
`PGStore` holds one `PGconn` and takes no mutex, so every PQexec of every call is a
statement of the same session, in any order. BEGIN, COMMIT and ROLLBACK act on the
transaction of that session, whichever call has opened it. -/

namespace DropPlatform.SharedConnection
open TransitionRuns TaskStore SqlTransactions

structure Call where
  tid : String
  newStatus : Int
  reason : String
  now : Nat
deriving DecidableEq, Repr

/-- The tables together with a record of which calls' UPDATE and INSERT they contain. -/
structure Marked where
  db : Tables
  updates : List Nat
  inserts : List Nat
deriving DecidableEq, Repr

def Marked.update (i : Nat) (c : Call) (m : Marked) : Marked :=
  { m with
    db := m.db.setTask (cStr c.tid) (·.withStatus c.newStatus (cStr c.reason) c.now)
    updates := i :: m.updates }

def Marked.insert (i : Nat) (c : Call) (oldStatus : Int) (m : Marked) : Marked :=
  { m with
    db := m.db.addHistory ⟨cStr c.tid, oldStatus, c.newStatus, cStr c.reason, c.now⟩
    inserts := i :: m.inserts }

def afterSelect (c : Call) (view : Option Marked) : CallState Call :=
  match view.bind fun m => m.db.tasks.find? (fun t => t.tid = cStr c.tid) with
  | none => .failed
  | some task =>
    if DropServer.isTransitionAllowed task.status c.newStatus then .selected c task.status
    else .failed

/-- The next statement of call `i`; `ok` says whether the server would accept it. -/
def statement (i : Nat) (ok : Bool) (pc : CallState Call) (s : Session Marked) :
    Option (CallState Call × Session Marked) :=
  match pc with
  | .idle => none
  | .called c =>
    let (s, done) := s.begin ok
    some (if done then .begun c else .idle, s)
  | .begun c =>
    let view := s.view
    let (s, done) := s.exec id ok
    some (if done then afterSelect c view else .failed, s)
  | .selected c oldStatus =>
    let (s, done) := s.exec (Marked.update i c) ok
    some (if done then .updated c oldStatus else .failed, s)
  | .updated c oldStatus =>
    let (s, done) := s.exec (Marked.insert i c oldStatus) ok
    some (if done then .inserted c oldStatus else .failed, s)
  | .inserted _ _ => some (.idle, s.commit ok)
  | .failed => some (.idle, s.rollback)

def nextStatement : CallState Call → Option Statement
  | .called _ => some .begin
  | .begun _ => some .select
  | .selected _ _ => some .update
  | .updated _ _ => some .insert
  | .inserted _ _ => some .commit
  | _ => none

/-- One call that has the session to itself, from `pc` to its return. -/
def runAlone (fails : Statement → Bool) (i : Nat) :
    Nat → CallState Call → Session Marked → Session Marked
  | 0, _, s => s
  | fuel + 1, pc, s =>
    match statement i (!(nextStatement pc).any fails) pc s with
    | none => s
    | some (pc, s) => runAlone fails i fuel pc s

theorem runAlone_eq_updateTaskStatus (fails : Statement → Bool) (i : Nat) (c : Call)
    (m : Marked) :
    (runAlone fails i 6 (.called c) ⟨m, .none⟩).committed.db =
      DropServer.updateTaskStatus fails m.db c.tid c.newStatus c.reason c.now ∧
    (runAlone fails i 6 (.called c) ⟨m, .none⟩).tx = .none := by
  unfold DropServer.updateTaskStatus DropServer.updateTaskStatusTx
  cases begins : fails .begin with
  | true =>
    simp [runAlone, statement, nextStatement, begins, Session.begin, runStatement, bind,
      Except.bind, Except.toOption]
  | false =>
    cases selects : fails .select with
    | true =>
      simp [runAlone, statement, nextStatement, begins, selects, Session.begin, Session.exec,
        Session.rollback, runStatement, bind, Except.bind, Except.toOption]
    | false =>
      cases found : m.db.tasks.find? (fun t => t.tid = cStr c.tid) with
      | none =>
        simp [runAlone, statement, nextStatement, begins, selects, found, afterSelect,
          Session.view, Session.begin, Session.exec, Session.rollback, runStatement, bind,
          Except.bind, Except.toOption]
      | some task =>
        cases allowed : DropServer.isTransitionAllowed task.status c.newStatus with
        | false =>
          simp [runAlone, statement, nextStatement, begins, selects, found, allowed, afterSelect,
            Session.view, Session.begin, Session.exec, Session.rollback, runStatement, bind,
            Except.bind, Except.toOption]
        | true =>
          cases updates : fails .update <;> cases inserts : fails .insert <;>
            cases commits : fails .commit <;>
            simp [runAlone, statement, nextStatement, begins, selects, found, allowed,
              afterSelect, updates, inserts, commits, Session.view, Session.begin, Session.exec,
              Session.rollback, Session.commit, runStatement, bind, Except.bind,
              Except.toOption, Marked.update, Marked.insert]

structure State where
  session : Session Marked
  calls : Nat → CallState Call
  /-- Calls are numbered in the order in which they are made. -/
  count : Nat

inductive Action
  | call (c : Call)
  | next (i : Nat) (ok : Bool)
deriving DecidableEq, Repr

def step (w : State) : Action → Option State
  | .call c => some { w with calls := Function.update w.calls w.count (.called c),
                             count := w.count + 1 }
  | .next i ok => (statement i ok (w.calls i) w.session).map fun (pc, s) =>
      { w with session := s, calls := Function.update w.calls i pc }

def writing : CallState Call → Option Call
  | .updated c _ => some c
  | _ => none

/-- No other call stands between its UPDATE and its INSERT (for the given task). -/
def Alone (w : State) (i : Nat) (relevant : Call → Bool) : Prop :=
  ∀ j < w.count, j ≠ i → (writing (w.calls j)).all (fun c => !relevant c) = true

instance (w : State) (i : Nat) (relevant : Call → Bool) : Decidable (Alone w i relevant) :=
  inferInstanceAs (Decidable (∀ j < w.count, j ≠ i → _ = true))

def Calm (w : State) (i : Nat) : CallState Call → Prop
  | .selected c _ => w.session.inTransaction = true ∧
      Alone w i fun other => cStr other.tid == cStr c.tid
  | .inserted _ _ => Alone w i fun _ => true
  | .failed => Alone w i fun _ => true
  | _ => True

/-- A call sends COMMIT or ROLLBACK only while no other call is between its UPDATE
and its INSERT, and UPDATE only inside a transaction and while no other call for
the same task is between the two. -/
def Undisturbed (w : State) : Action → Prop
  | .call _ => True
  | .next i _ => Calm w i (w.calls i)

instance (w : State) (i : Nat) : (pc : CallState Call) → Decidable (Calm w i pc)
  | .selected _ _ => inferInstanceAs (Decidable (_ ∧ _))
  | .inserted _ _ => inferInstanceAs (Decidable (Alone w i _))
  | .failed => inferInstanceAs (Decidable (Alone w i _))
  | .idle | .called _ | .begun _ | .updated _ _ => .isTrue trivial

instance (w : State) : (a : Action) → Decidable (Undisturbed w a)
  | .call _ => .isTrue trivial
  | .next i _ => inferInstanceAs (Decidable (Calm w i (w.calls i)))

/-- The status of the task is the new status of its last history row. -/
def Consistent (db : Tables) (tid : String) : Prop :=
  ∀ task ∈ db.tasks, task.tid = tid →
    ((db.history.filter (·.tid = tid)).getLast?.map (·.newStatus)) = some task.status

def StatusIs (db : Tables) (tid : String) (status : Int) : Prop :=
  ∀ task ∈ db.tasks, task.tid = tid → task.status = status

/-- Every call has left either nothing or both its status change and its history row. -/
def AllOrNothing (m : Marked) : Prop :=
  (∀ tid, Consistent m.db tid) ∧ ∀ i, i ∈ m.inserts ↔ i ∈ m.updates

section Tables
variable {db : Tables} {tid other : String} {newStatus status : Int} {reason : String} {now : Nat}

theorem statusIs_setTask :
    StatusIs (db.setTask tid (·.withStatus newStatus reason now)) tid newStatus := by
  intro task member named
  obtain ⟨before, _, rfl⟩ := mem_setTask member
  split_ifs at named ⊢ with same
  · rfl
  · exact (same named).elim

theorem unchanged_of_other {task : HotmethodTask} (differs : other ≠ tid)
    (member : task ∈ (db.setTask tid (·.withStatus newStatus reason now)).tasks)
    (named : task.tid = other) : task ∈ db.tasks := by
  obtain ⟨before, there, rfl⟩ := mem_setTask member
  split_ifs at named ⊢ with same
  · exact (differs (named.symm.trans same)).elim
  · exact there

theorem consistent_setTask (differs : other ≠ tid) (before : Consistent db other) :
    Consistent (db.setTask tid (·.withStatus newStatus reason now)) other :=
  fun task member named => before task (unchanged_of_other differs member named) named

theorem statusIs_setTask_of_ne (differs : other ≠ tid) (before : StatusIs db other status) :
    StatusIs (db.setTask tid (·.withStatus newStatus reason now)) other status :=
  fun task member named => before task (unchanged_of_other differs member named) named

theorem consistent_addHistory {row : TaskStatusHistory}
    (before : StatusIs db row.tid row.newStatus) : Consistent (db.addHistory row) row.tid := by
  intro task member named
  simp [Tables.addHistory, before task member named]

theorem consistent_addHistory_of_ne {row : TaskStatusHistory} (differs : other ≠ row.tid)
    (before : Consistent db other) : Consistent (db.addHistory row) other := by
  intro task member named
  have skipped : ¬ row.tid = other := fun same => differs same.symm
  simpa [Tables.addHistory, skipped] using before task member named

end Tables

/-- The open transaction, with the calls that stand between UPDATE and INSERT. -/
structure ViewOk (writers : Nat → Option Call) (v : Marked) : Prop where
  settled : ∀ tid, (∀ i c, writers i = some c → cStr c.tid ≠ tid) → Consistent v.db tid
  pending : ∀ i c, writers i = some c → StatusIs v.db (cStr c.tid) c.newStatus
  single : ∀ i j c d, writers i = some c → writers j = some d → cStr c.tid = cStr d.tid → i = j
  recorded : ∀ i, i ∈ v.inserts → i ∈ v.updates
  owed : ∀ i, i ∈ v.updates → i ∈ v.inserts ∨ (writers i).isSome
  written : ∀ i c, writers i = some c → i ∈ v.updates

def State.writers (w : State) (i : Nat) : Option Call := writing (w.calls i)

structure Inv (w : State) : Prop where
  atomic : AllOrNothing w.session.committed
  numbered : ∀ i, w.count ≤ i → w.calls i = .idle
  outside : w.session.tx = .none → ∀ i, w.writers i = none
  inside : ∀ v, w.session.tx = .open v → ViewOk w.writers v

theorem ViewOk.allOrNothing {writers : Nat → Option Call} {v : Marked} (ok : ViewOk writers v)
    (quiet : ∀ i, writers i = none) : AllOrNothing v := by
  refine ⟨fun tid => ok.settled tid (fun i c writer => ?_), fun i => ⟨ok.recorded i, fun done => ?_⟩⟩
  · rw [quiet i] at writer
    cases writer
  · simpa [quiet i] using ok.owed i done

theorem AllOrNothing.viewOk {writers : Nat → Option Call} {m : Marked} (atomic : AllOrNothing m)
    (quiet : ∀ i, writers i = none) : ViewOk writers m where
  settled tid _ := atomic.1 tid
  pending i c writer := by rw [quiet i] at writer; cases writer
  single i _ c _ writer := by rw [quiet i] at writer; cases writer
  recorded i := (atomic.2 i).mp
  owed i done := .inl ((atomic.2 i).mpr done)
  written i c writer := by rw [quiet i] at writer; cases writer

theorem ViewOk.update {writers : Nat → Option Call} {v : Marked} (ok : ViewOk writers v)
    {i : Nat} {c : Call} (idle : writers i = none)
    (alone : ∀ j d, writers j = some d → cStr d.tid ≠ cStr c.tid) :
    ViewOk (Function.update writers i (some c)) (v.update i c) := by
  have others {j : Nat} {d : Call} (writer : Function.update writers i (some c) j = some d) :
      (j = i ∧ d = c) ∨ (j ≠ i ∧ writers j = some d) := by
    by_cases same : j = i
    · subst same
      exact .inl ⟨rfl, by simpa using writer.symm⟩
    · exact .inr ⟨same, by simpa [Function.update_of_ne same] using writer⟩
  constructor
  case settled =>
    intro tid away
    have differs : tid ≠ cStr c.tid := fun same => away i c (by simp) same.symm
    refine consistent_setTask differs (ok.settled tid (fun j d writer => ?_))
    have apart : j ≠ i := fun same => by simp [same, idle] at writer
    exact away j d (by simpa [Function.update_of_ne apart] using writer)
  case pending =>
    intro j d writer
    rcases others writer with ⟨_, rfl⟩ | ⟨_, before⟩
    · exact statusIs_setTask
    · exact statusIs_setTask_of_ne (alone j d before) (ok.pending j d before)
  case single =>
    intro j k d e first second same
    rcases others first with ⟨rfl, rfl⟩ | ⟨_, before⟩
    · rcases others second with ⟨rfl, _⟩ | ⟨_, after⟩
      · rfl
      · exact (alone k e after same.symm).elim
    · rcases others second with ⟨rfl, rfl⟩ | ⟨_, after⟩
      · exact (alone j d before same).elim
      · exact ok.single j k d e before after same
  case recorded =>
    intro j done
    exact List.mem_cons_of_mem _ (ok.recorded j done)
  case owed =>
    intro j done
    rcases List.mem_cons.mp done with rfl | before
    · exact .inr (by simp)
    · by_cases same : j = i
      · subst same
        exact .inr (by simp)
      · simpa [Function.update_of_ne same, Marked.update] using ok.owed j before
  case written =>
    intro j d writer
    rcases others writer with ⟨rfl, _⟩ | ⟨_, before⟩
    · exact List.mem_cons_self
    · exact List.mem_cons_of_mem _ (ok.written j d before)

theorem ViewOk.insert {writers : Nat → Option Call} {v : Marked} (ok : ViewOk writers v)
    {i : Nat} {c : Call} (oldStatus : Int) (here : writers i = some c) :
    ViewOk (Function.update writers i none) (v.insert i c oldStatus) := by
  have others {j : Nat} {d : Call} (writer : Function.update writers i none j = some d) :
      j ≠ i ∧ writers j = some d := by
    by_cases same : j = i
    · subst same
      simp at writer
    · exact ⟨same, by simpa [Function.update_of_ne same] using writer⟩
  constructor
  case settled =>
    intro tid away
    by_cases same : tid = cStr c.tid
    · subst same
      exact consistent_addHistory (ok.pending i c here)
    · refine consistent_addHistory_of_ne same (ok.settled tid (fun j d writer => ?_))
      by_cases mine : j = i
      · subst mine
        rw [here] at writer
        rw [← Option.some.inj writer]
        exact fun h => same h.symm
      · exact away j d (by simpa [Function.update_of_ne mine] using writer)
  case pending =>
    intro j d writer
    exact ok.pending j d (others writer).2
  case single =>
    intro j k d e first second same
    exact ok.single j k d e (others first).2 (others second).2 same
  case recorded =>
    intro j done
    rcases List.mem_cons.mp done with rfl | before
    · exact ok.written j c here
    · exact ok.recorded j before
  case owed =>
    intro j done
    by_cases same : j = i
    · subst same
      exact .inl List.mem_cons_self
    · rcases ok.owed j done with inserted | writer
      · exact .inl (List.mem_cons_of_mem _ inserted)
      · exact .inr (by simpa [Function.update_of_ne same] using writer)
  case written =>
    intro j d writer
    exact ok.written j d (others writer).2

theorem Inv.move {w : State} (inv : Inv w) {i : Nat} {pc : CallState Call}
    {s : Session Marked} (active : w.calls i ≠ .idle) (atomic : AllOrNothing s.committed)
    (outside : s.tx = .none → ∀ j, Function.update w.writers i (writing pc) j = none)
    (inside : ∀ v, s.tx = .open v → ViewOk (Function.update w.writers i (writing pc)) v) :
    Inv { w with session := s, calls := Function.update w.calls i pc } := by
  have writers : State.writers { w with session := s, calls := Function.update w.calls i pc } =
      Function.update w.writers i (writing pc) := by
    funext j
    by_cases same : j = i
    · subst same
      simp [State.writers]
    · simp [State.writers, Function.update_of_ne same]
  refine ⟨atomic, ?_, by rwa [writers], by rwa [writers]⟩
  intro j late
  have differs : j ≠ i := fun same => active (inv.numbered i (same ▸ late))
  simpa [Function.update_of_ne differs] using inv.numbered j late

theorem Inv.stay {w : State} (inv : Inv w) {i : Nat} {pc : CallState Call}
    {s : Session Marked} (active : w.calls i ≠ .idle) (before : w.writers i = none)
    (after : writing pc = none) (committed : s.committed = w.session.committed)
    (tx : s.tx = w.session.tx ∨ (w.session.tx = .none ∧ s.tx = .open w.session.committed) ∨
      s.tx = .aborted) :
    Inv { w with session := s, calls := Function.update w.calls i pc } := by
  have same : Function.update w.writers i (writing pc) = w.writers := by
    rw [after, ← before, Function.update_eq_self]
  refine inv.move active (committed ▸ inv.atomic) ?_ ?_
  · intro ended
    rw [same]
    rcases tx with unchanged | ⟨_, opened⟩ | aborted
    · exact inv.outside (unchanged ▸ ended)
    · rw [opened] at ended
      cases ended
    · rw [aborted] at ended
      cases ended
  · intro v opened
    rw [same]
    rcases tx with unchanged | ⟨closed, fresh⟩ | aborted
    · exact inv.inside v (unchanged ▸ opened)
    · rw [fresh] at opened
      cases opened
      exact inv.atomic.viewOk (inv.outside closed)
    · rw [aborted] at opened
      cases opened

theorem Alone.others {w : State} (inv : Inv w) {i : Nat} {relevant : Call → Bool}
    (alone : Alone w i relevant) {j : Nat} {d : Call} (differs : j ≠ i)
    (writer : w.writers j = some d) : relevant d = false := by
  have known : j < w.count := by
    by_contra late
    have idle := inv.numbered j (Nat.le_of_not_lt late)
    simp [State.writers, idle, writing] at writer
  have quiet := alone j known differs
  simp only [State.writers] at writer
  simpa [writer] using quiet

theorem Alone.quiet {w : State} (inv : Inv w) {i : Nat} (alone : Alone w i fun _ => true)
    (mine : w.writers i = none) : ∀ j, w.writers j = none := by
  intro j
  by_cases same : j = i
  · exact same ▸ mine
  · cases writer : w.writers j with
    | none => rfl
    | some d => cases alone.others inv same writer

theorem Inv.finish {w : State} (inv : Inv w) {i : Nat} {m : Marked}
    (active : w.calls i ≠ .idle) (quiet : ∀ j, w.writers j = none) (atomic : AllOrNothing m) :
    Inv { w with session := ⟨m, .none⟩, calls := Function.update w.calls i .idle } := by
  refine inv.move active atomic (fun _ j => ?_) (fun v opened => by cases opened)
  by_cases same : j = i
  · subst same
    simp [writing]
  · simpa [Function.update_of_ne same] using quiet j

theorem update_inv {w : State} (inv : Inv w) {i : Nat} {c : Call} {oldStatus : Int} {ok : Bool}
    (here : w.calls i = .selected c oldStatus)
    (inTx : w.session.inTransaction = true)
    (alone : Alone w i fun other => cStr other.tid == cStr c.tid) :
    Inv { w with
      session := (w.session.exec (Marked.update i c) ok).1
      calls := Function.update w.calls i
        (if (w.session.exec (Marked.update i c) ok).2 then .updated c oldStatus else .failed) } := by
  have active : w.calls i ≠ .idle := by simp [here]
  have mine : w.writers i = none := by simp [State.writers, here, writing]
  rcases w.session.exec_cases (Marked.update i c) ok with
    ⟨_, failed⟩ | ⟨closed, _⟩ | ⟨view, opened, done⟩ | failed
  · rw [failed]
    exact inv.stay active mine rfl rfl (.inl rfl)
  · simp [Session.inTransaction, closed] at inTx
  · rw [done]
    refine inv.move active inv.atomic (fun ended => by cases ended) (fun v now => ?_)
    cases now
    refine (inv.inside view opened).update mine (fun j d writer => ?_)
    have differs : j ≠ i := fun same => by simp [same, mine] at writer
    simpa using alone.others inv differs writer
  · rw [failed]
    exact inv.stay active mine rfl rfl (.inr (.inr rfl))

theorem insert_inv {w : State} (inv : Inv w) {i : Nat} {c : Call} {oldStatus : Int} {ok : Bool}
    (here : w.calls i = .updated c oldStatus) :
    Inv { w with
      session := (w.session.exec (Marked.insert i c oldStatus) ok).1
      calls := Function.update w.calls i
        (if (w.session.exec (Marked.insert i c oldStatus) ok).2 then .inserted c oldStatus
          else .failed) } := by
  have active : w.calls i ≠ .idle := by simp [here]
  have mine : w.writers i = some c := by simp [State.writers, here, writing]
  have running : w.session.tx ≠ .none := by
    intro closed
    simp [inv.outside closed i] at mine
  rcases w.session.exec_cases (Marked.insert i c oldStatus) ok with
    ⟨unopened, failed⟩ | ⟨closed, _⟩ | ⟨view, opened, done⟩ | failed
  · rw [failed]
    exact inv.move active inv.atomic (fun closed => (running closed).elim)
      (fun v opened => (unopened v opened).elim)
  · exact (running closed).elim
  · rw [done]
    refine inv.move active inv.atomic (fun ended => by cases ended) (fun v now => ?_)
    cases now
    exact (inv.inside view opened).insert oldStatus mine
  · rw [failed]
    exact inv.move active inv.atomic (fun ended => by cases ended) (fun v now => by cases now)

theorem begin_inv {w : State} (inv : Inv w) {i : Nat} {c : Call} {ok : Bool}
    (here : w.calls i = .called c) :
    Inv { w with
      session := (w.session.begin ok).1
      calls := Function.update w.calls i (if (w.session.begin ok).2 then .begun c else .idle) } := by
  have active : w.calls i ≠ .idle := by simp [here]
  have mine : w.writers i = none := by simp [State.writers, here, writing]
  have after : writing (if (w.session.begin ok).2 then .begun c else .idle) = none := by
    split_ifs <;> rfl
  rcases w.session.begin_cases ok with same | ⟨closed, opened⟩ | aborted
  · exact inv.stay active mine after (by rw [same]) (.inl (by rw [same]))
  · exact inv.stay active mine after (by rw [opened]) (.inr (.inl ⟨closed, by rw [opened]⟩))
  · exact inv.stay active mine after (by rw [aborted]) (.inr (.inr (by rw [aborted])))

theorem select_inv {w : State} (inv : Inv w) {i : Nat} {c : Call} {ok : Bool}
    (here : w.calls i = .begun c) :
    Inv { w with
      session := (w.session.exec id ok).1
      calls := Function.update w.calls i
        (if (w.session.exec id ok).2 then afterSelect c w.session.view else .failed) } := by
  have active : w.calls i ≠ .idle := by simp [here]
  have mine : w.writers i = none := by simp [State.writers, here, writing]
  have after : writing (if (w.session.exec id ok).2 then afterSelect c w.session.view
      else .failed) = none := by
    unfold afterSelect
    split_ifs
    · split
      · rfl
      · split_ifs <;> rfl
    · rfl
  rcases w.session.exec_cases id ok with
    ⟨_, failed⟩ | ⟨_, done⟩ | ⟨view, opened, done⟩ | failed
  · exact inv.stay active mine after (by rw [failed]) (.inl (by rw [failed]))
  · exact inv.stay active mine after (by rw [done]; rfl) (.inl (by rw [done]))
  · exact inv.stay active mine after (by rw [done]) (.inl (by rw [done, opened]; rfl))
  · exact inv.stay active mine after (by rw [failed]) (.inr (.inr (by rw [failed])))

theorem commit_inv {w : State} (inv : Inv w) {i : Nat} {c : Call} {oldStatus : Int} {ok : Bool}
    (here : w.calls i = .inserted c oldStatus) (alone : Alone w i fun _ => true) :
    Inv { w with
      session := w.session.commit ok, calls := Function.update w.calls i .idle } := by
  have active : w.calls i ≠ .idle := by simp [here]
  have quiet := alone.quiet inv (by simp [State.writers, here, writing])
  rcases w.session.commit_cases ok with ended | ⟨view, opened, done⟩
  · rw [ended]
    exact inv.finish active quiet inv.atomic
  · rw [done]
    exact inv.finish active quiet ((inv.inside view opened).allOrNothing quiet)

theorem rollback_inv {w : State} (inv : Inv w) {i : Nat} (here : w.calls i = .failed)
    (alone : Alone w i fun _ => true) :
    Inv { w with session := w.session.rollback, calls := Function.update w.calls i .idle } := by
  have active : w.calls i ≠ .idle := by simp [here]
  exact inv.finish active (alone.quiet inv (by simp [State.writers, here, writing])) inv.atomic

theorem call_inv {w : State} (inv : Inv w) (c : Call) :
    Inv { w with calls := Function.update w.calls w.count (.called c), count := w.count + 1 } := by
  have writers : State.writers { w with
      calls := Function.update w.calls w.count (.called c), count := w.count + 1 } = w.writers := by
    funext j
    by_cases same : j = w.count
    · subst same
      simp [State.writers, writing, inv.numbered w.count (Nat.le_refl _)]
    · simp [State.writers, Function.update_of_ne same]
  refine ⟨inv.atomic, ?_, by rw [writers]; exact inv.outside, by rw [writers]; exact inv.inside⟩
  intro j late
  have late : w.count + 1 ≤ j := late
  have differs : j ≠ w.count := by omega
  simpa [Function.update_of_ne differs] using inv.numbered j (by omega)

theorem step_inv {w w' : State} {a : Action} (inv : Inv w) (calm : Undisturbed w a)
    (next : step w a = some w') : Inv w' := by
  cases a with
  | call c =>
    rw [← Option.some.inj next]
    exact call_inv inv c
  | next i ok =>
    obtain ⟨⟨pc, s⟩, got, rfl⟩ := Option.map_eq_some_iff.mp next
    cases here : w.calls i with
    | idle => simp [statement, here] at got
    | called c =>
      simp only [statement, here, Option.some.injEq, Prod.mk.injEq] at got
      rw [← got.1, ← got.2]
      exact begin_inv inv here
    | begun c =>
      simp only [statement, here, Option.some.injEq, Prod.mk.injEq] at got
      rw [← got.1, ← got.2]
      exact select_inv inv here
    | selected c oldStatus =>
      simp only [statement, here, Option.some.injEq, Prod.mk.injEq] at got
      simp only [Undisturbed, here, Calm] at calm
      rw [← got.1, ← got.2]
      exact update_inv inv here calm.1 calm.2
    | updated c oldStatus =>
      simp only [statement, here, Option.some.injEq, Prod.mk.injEq] at got
      rw [← got.1, ← got.2]
      exact insert_inv inv here
    | inserted c oldStatus =>
      simp only [statement, here, Option.some.injEq, Prod.mk.injEq] at got
      simp only [Undisturbed, here, Calm] at calm
      rw [← got.1, ← got.2]
      exact commit_inv inv here calm
    | failed =>
      simp only [statement, here, Option.some.injEq, Prod.mk.injEq] at got
      simp only [Undisturbed, here, Calm] at calm
      rw [← got.1, ← got.2]
      exact rollback_inv inv here calm

/-- No call has been made yet and every task agrees with its history. -/
def State.Fresh (w : State) : Prop :=
  (∀ i, w.calls i = .idle) ∧ w.session.tx = .none ∧
    (∀ tid, Consistent w.session.committed.db tid) ∧
    w.session.committed.updates = [] ∧ w.session.committed.inserts = []

theorem State.Fresh.inv {w : State} (fresh : w.Fresh) : Inv w := by
  obtain ⟨idle, closed, consistent, updates, inserts⟩ := fresh
  refine ⟨⟨consistent, ?_⟩, fun i _ => idle i, fun _ i => ?_, fun v opened => ?_⟩
  · intro i
    rw [updates, inserts]
  · simp [State.writers, idle i, writing]
  · rw [closed] at opened
    cases opened

/-- In every interleaving in which no transaction is ended while another call is
between its UPDATE and its INSERT, what is committed contains every call wholly or
not at all: every status is that of the last history row, and no history row is
committed without the status change it records. -/
theorem undisturbed_calls_allOrNothing {start w : State} (fresh : start.Fresh)
    (run : Reaches step Undisturbed start w) : AllOrNothing w.session.committed := by
  have keeps : ∀ s a t, Inv s → Undisturbed s a → step s a = some t → Inv t :=
    fun _ _ _ inv calm next => step_inv inv calm next
  exact (run.invariant Inv keeps fresh.inv).atomic

def uploadingState : State where
  session := ⟨⟨⟨[blankTask "t" taskStatusUploading], [⟨"t", -1, 0, "created", 0⟩,
    ⟨"t", 0, 1, "running", 1⟩, ⟨"t", 1, 2, "uploading", 2⟩]⟩, [], []⟩, .none⟩
  calls := fun _ => .idle
  count := 0

theorem uploadingState_fresh : uploadingState.Fresh := by
  refine ⟨fun _ => rfl, rfl, ?_, rfl, rfl⟩
  intro tid task member named
  have only : task = blankTask "t" taskStatusUploading := by simpa [uploadingState] using member
  subst only
  subst named
  decide

def concurrentCalls : List Action :=
  [.call ⟨"t", taskStatusDone, "done", 3⟩, .call ⟨"t", taskStatusRunning, "started", 3⟩]

def oneAfterTheOther : List Action :=
  concurrentCalls ++ List.replicate 5 (.next 0 true) ++ List.replicate 3 (.next 1 true)

theorem undisturbed_calls_allOrNothing_oneAfterTheOther :
    ∃ w, Reaches step Undisturbed uploadingState w ∧ AllOrNothing w.session.committed ∧
      w.session.committed.updates = [0] :=
  ⟨_, reaches_of_execute oneAfterTheOther rfl,
    undisturbed_calls_allOrNothing uploadingState_fresh (reaches_of_execute oneAfterTheOther rfl),
    rfl⟩

/-- The refused second call sends its ROLLBACK between UPDATE and INSERT of the first. -/
def rollbackBetween : List Action :=
  concurrentCalls ++ List.replicate 3 (.next 0 true) ++ List.replicate 3 (.next 1 true) ++
    List.replicate 2 (.next 0 true)

theorem rollback_splits_call :
    ∃ w, Reaches step free uploadingState w ∧ w.session.tx = .none ∧
      ¬ Consistent w.session.committed.db "t" ∧
      w.session.committed.inserts = [0] ∧ w.session.committed.updates = [] := by
  refine ⟨_, reaches_of_execute rollbackBetween rfl, rfl, ?_, rfl, rfl⟩
  intro consistent
  exact absurd (consistent (blankTask "t" taskStatusUploading) (by decide) rfl) (by decide)

end DropPlatform.SharedConnection
