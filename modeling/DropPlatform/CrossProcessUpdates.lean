import DropPlatform.TaskStore
import DropPlatform.SqlTransactions

/-! Statement-level runs of `updateTaskStatus` (apiserver) and
`PGStore::UpdateTaskStatus` (drop_server) on the row of one task.
Every apiserver call has a session of its own; drop_server has one session and
issues its calls one after the other. At READ COMMITTED the SELECT of drop_server
is sent with FOR UPDATE and takes the row lock. The SELECT of the apiserver is a
plain one, since `Set("gorm:query_option", ...)` adds no clause in gorm v1.31. -/

namespace DropPlatform.CrossProcessUpdates
open TransitionRuns TaskStore SqlTransactions

inductive Sess
  | apiserver (call : Nat)
  | dropServer
deriving DecidableEq, Repr

inductive ApiserverCall
  | dispatchTaskFailed (reason : String)
  | createTaskWithoutGrpc
  | retryTask
deriving DecidableEq, Repr

structure UpdateCall where
  newStatus : Int
  reason : String
  now : Nat
deriving DecidableEq, Repr

def ApiserverCall.update (call : ApiserverCall) (now : Nat) : UpdateCall :=
  match call with
  | .dispatchTaskFailed reason => ⟨taskStatusFailed, Apiserver.effectiveReason reason, now⟩
  | .createTaskWithoutGrpc => ⟨taskStatusFailed,
      "gRPC connection unavailable, cannot dispatch task to drop_server", now⟩
  | .retryTask => ⟨taskStatusPending, "用户触发重试", now⟩

abbrev Pc := CallState UpdateCall

abbrev Db := LockedRow Sess HotmethodTask TaskStatusHistory

/-- `none` waits for the row lock; the inner `none` finds no row. -/
def select (s : Sess) (db : Db) : Option (Option Int × Db) :=
  match s with
  | .apiserver _ => some (if (db.read s).deleted then none else some (db.read s).status, db)
  | .dropServer => (db.acquire s).map fun db => (some (db.read s).status, db)

def isTransitionAllowed : Sess → Int → Int → Bool
  | .apiserver _ => Apiserver.isTransitionAllowed
  | .dropServer => DropServer.isTransitionAllowed

def afterSelect (s : Sess) (c : UpdateCall) : Option Int → Pc
  | none => .failed
  | some oldStatus =>
    if isTransitionAllowed s oldStatus c.newStatus then .selected c oldStatus else .failed

/-- The next statement of session `s`; `ok` says whether the server accepts it. -/
def statement (tid : String) (s : Sess) (ok : Bool) (pc : Pc) (db : Db) : Option (Pc × Db) :=
  match pc with
  | .idle => none
  | .called c => some (if ok then .begun c else .idle, db)
  | .begun c =>
    if ok then (select s db).map fun (found, db) => (afterSelect s c found, db)
    else some (.failed, db)
  | .selected c oldStatus =>
    if ok then
      (db.write s (·.withStatus c.newStatus c.reason c.now)).map (.updated c oldStatus, ·)
    else some (.failed, db)
  | .updated c oldStatus =>
    if ok then
      some (.inserted c oldStatus, db.insert s ⟨tid, oldStatus, c.newStatus, c.reason, c.now⟩)
    else some (.failed, db)
  | .inserted _ _ => some (.idle, if ok then db.commit s else db.rollback s)
  | .failed => some (.idle, db.rollback s)

structure World where
  db : Db
  pc : Sess → Pc

def World.set (w : World) (s : Sess) (pc : Pc) (db : Db) : World :=
  ⟨db, Function.update w.pc s pc⟩

inductive Action
  | apiserverCall (call : Nat) (kind : ApiserverCall) (now : Nat)
  | dropServerCall (newStatus : Int) (reason : String) (now : Nat)
  | next (s : Sess) (ok : Bool)
deriving DecidableEq, Repr

/-- `RetryTask` first looks, outside any transaction, for the task in status FAILED. -/
def accepts (w : World) : ApiserverCall → Bool
  | .retryTask => w.db.row.status == taskStatusFailed && !w.db.row.deleted
  | _ => true

def step (tid : String) (w : World) : Action → Option World
  | .apiserverCall call kind now =>
    if w.pc (.apiserver call) = .idle ∧ accepts w kind then
      some (w.set (.apiserver call) (.called (kind.update now)) w.db)
    else none
  | .dropServerCall newStatus reason now =>
    if w.pc .dropServer = .idle then
      some (w.set .dropServer (.called ⟨newStatus, cStr reason, now⟩) w.db)
    else none
  | .next s ok => (statement tid s ok (w.pc s) w.db).map fun (pc, db) => w.set s pc db

def readsStatus (status : Int) : Pc → Bool
  | .selected _ oldStatus => status == oldStatus
  | _ => true

/-- An apiserver call sends its UPDATE only while the committed status is still
the one its SELECT returned. -/
def UpdatesFresh (w : World) : Action → Prop
  | .next (.apiserver call) true => readsStatus w.db.row.status (w.pc (.apiserver call)) = true
  | _ => True

instance (w : World) : (a : Action) → Decidable (UpdatesFresh w a)
  | .next (.apiserver _) true => inferInstanceAs (Decidable (_ = true))
  | .next (.apiserver _) false => .isTrue trivial
  | .next .dropServer _ => .isTrue trivial
  | .apiserverCall _ _ _ => .isTrue trivial
  | .dropServerCall _ _ _ => .isTrue trivial

/-- What the session that holds the row lock has done, `rows` being committed. -/
def Holds (tid : String) (db : Db) (s : Sess) (rows : List TaskStatusHistory) : Pc → Prop
  | .selected c oldStatus => db.draft = none ∧ db.LogIs s rows [] ∧
      db.row.status = oldStatus ∧ Allowed oldStatus c.newStatus
  | .updated c oldStatus => db.draft = some (db.row.withStatus c.newStatus c.reason c.now) ∧
      db.LogIs s rows [] ∧ db.row.status = oldStatus ∧ Allowed oldStatus c.newStatus
  | .inserted c oldStatus => db.draft = some (db.row.withStatus c.newStatus c.reason c.now) ∧
      db.LogIs s rows [⟨tid, oldStatus, c.newStatus, c.reason, c.now⟩] ∧
      db.row.status = oldStatus ∧ Allowed oldStatus c.newStatus
  | .failed => ∃ own, db.LogIs s rows own
  | _ => False

def Waits (s : Sess) : Pc → Prop
  | .selected c oldStatus => s ≠ .dropServer ∧ Allowed oldStatus c.newStatus
  | .updated _ _ => False
  | .inserted _ _ => False
  | _ => True

def LockState (tid : String) (db : Db) (rows : List TaskStatusHistory) (pc : Sess → Pc) : Prop :=
  match db.lock with
  | none => db.draft = none ∧ db.log = rows.map fun row => (none, row)
  | some s => Holds tid db s rows (pc s)

structure Inv (tid : String) (w : World) : Prop where
  locked : ∃ rows, AuditTrail rows w.db.row.status ∧ LockState tid w.db rows w.pc
  waits : ∀ s, w.db.lock ≠ some s → Waits s (w.pc s)

theorem isTransitionAllowed_iff {s : Sess} {old new : Int} :
    isTransitionAllowed s old new = true ↔ Allowed old new := by
  cases s with
  | apiserver call => rfl
  | dropServer => rw [isTransitionAllowed, dropServer_isTransitionAllowed]; rfl

theorem Holds.logIs {tid : String} {db : Db} {s : Sess} {rows : List TaskStatusHistory} {pc : Pc}
    (held : Holds tid db s rows pc) : ∃ own, db.LogIs s rows own := by
  cases pc with
  | selected c oldStatus => exact ⟨_, held.2.1⟩
  | updated c oldStatus => exact ⟨_, held.2.1⟩
  | inserted c oldStatus => exact ⟨_, held.2.1⟩
  | failed => exact held
  | _ => exact held.elim

theorem LockState.logIs {tid : String} {db : Db} {rows : List TaskStatusHistory}
    {pc : Sess → Pc} (state : LockState tid db rows pc) :
    ∃ own holder, db.LogIs holder rows own ∧ (own ≠ [] → db.lock = some holder) := by
  unfold LockState at state
  split at state
  · exact ⟨[], .dropServer, by simpa [LockedRow.LogIs] using state.2, fun h => (h rfl).elim⟩
  · rename_i s lock
    obtain ⟨own, shape⟩ := state.logIs
    exact ⟨own, s, shape, fun _ => lock⟩

theorem Inv.wait {tid : String} {w : World} (inv : Inv tid w) {s : Sess} {pc : Pc}
    (free : w.db.lock ≠ some s) (waiting : Waits s pc) : Inv tid (w.set s pc w.db) := by
  obtain ⟨⟨rows, trail, state⟩, waits⟩ := inv
  refine ⟨⟨rows, trail, ?_⟩, ?_⟩
  · unfold LockState at *
    cases lock : w.db.lock with
    | none => simpa [World.set, lock] using state
    | some holder =>
      have differs : holder ≠ s := fun same => free (same ▸ lock)
      simpa [World.set, lock, Function.update_of_ne differs] using state
  · intro other unlocked
    by_cases same : other = s
    · subst same
      simpa [World.set] using waiting
    · simpa [World.set, Function.update_of_ne same] using waits other unlocked

theorem Inv.hold {tid : String} {w : World} (inv : Inv tid w) {s : Sess} {pc : Pc} {db : Db}
    {rows : List TaskStatusHistory} (unlocked : w.db.lock = none ∨ w.db.lock = some s)
    (lock : db.lock = some s) (trail : AuditTrail rows db.row.status)
    (held : Holds tid db s rows pc) : Inv tid (w.set s pc db) := by
  refine ⟨⟨rows, trail, ?_⟩, ?_⟩
  · simpa [LockState, World.set, lock] using held
  · intro other free
    have differs : other ≠ s := fun same => free (same ▸ lock)
    have before : w.db.lock ≠ some other := by
      rcases unlocked with released | mine
      · simp [released]
      · rw [mine]
        exact fun same => differs (Option.some.inj same).symm
    simpa [World.set, Function.update_of_ne differs] using inv.waits other before

theorem Inv.finish {tid : String} {w : World} (inv : Inv tid w) {s : Sess} {db : Db}
    {rows : List TaskStatusHistory} (holder : w.db.lock = some s)
    (lock : db.lock = none) (draft : db.draft = none)
    (log : db.log = rows.map fun row => (none, row)) (trail : AuditTrail rows db.row.status) :
    Inv tid (w.set s .idle db) := by
  refine ⟨⟨rows, trail, ?_⟩, ?_⟩
  · simpa [LockState, World.set, lock] using ⟨draft, log⟩
  · intro other _
    by_cases same : other = s
    · subst same
      simp [World.set, Waits]
    · have before : w.db.lock ≠ some other := by
        rw [holder]
        exact fun h => same (Option.some.inj h).symm
      simpa [World.set, Function.update_of_ne same] using inv.waits other before

theorem Inv.holder {tid : String} {w : World} (inv : Inv tid w) {s : Sess}
    (lock : w.db.lock = some s) :
    ∃ rows, AuditTrail rows w.db.row.status ∧ Holds tid w.db s rows (w.pc s) := by
  obtain ⟨⟨rows, trail, state⟩, _⟩ := inv
  exact ⟨rows, trail, by simpa [LockState, lock] using state⟩

theorem Inv.unlocked {tid : String} {w : World} (inv : Inv tid w) (lock : w.db.lock = none) :
    ∃ rows, AuditTrail rows w.db.row.status ∧ w.db.draft = none ∧
      w.db.log = rows.map fun row => (none, row) := by
  obtain ⟨⟨rows, trail, state⟩, _⟩ := inv
  exact ⟨rows, trail, by simpa [LockState, lock] using state⟩

theorem Inv.foreign {tid : String} {w : World} (inv : Inv tid w) {s : Sess}
    (free : w.db.lock ≠ some s) : ∀ entry ∈ w.db.log, entry.1 ≠ some s := by
  obtain ⟨⟨rows, _, state⟩, _⟩ := inv
  obtain ⟨own, holder, shape, lock⟩ := state.logIs
  intro entry member owned
  rw [shape] at member
  rcases List.mem_append.mp member with settled | pending
  · obtain ⟨row, _, rfl⟩ := List.mem_map.mp settled
    cases owned
  · obtain ⟨row, there, rfl⟩ := List.mem_map.mp pending
    have same : holder = s := Option.some.inj owned
    exact free (same ▸ lock (List.ne_nil_of_mem there))

theorem select_inv {tid : String} {w : World} (inv : Inv tid w) {s : Sess} {c : UpdateCall}
    {found : Option Int} {db : Db} (here : w.pc s = .begun c)
    (got : select s w.db = some (found, db)) : Inv tid (w.set s (afterSelect s c found) db) := by
  have free : w.db.lock ≠ some s := by
    intro lock
    obtain ⟨_, _, held⟩ := inv.holder lock
    rw [here] at held
    exact held
  cases s with
  | apiserver call =>
    simp only [select, Option.some.injEq, Prod.mk.injEq] at got
    obtain ⟨_, rfl⟩ := got
    apply inv.wait free
    cases found with
    | none => trivial
    | some oldStatus =>
      simp only [afterSelect]
      split_ifs with ok
      · exact ⟨by simp, isTransitionAllowed_iff.mp ok⟩
      · trivial
  | dropServer =>
    obtain ⟨locked, taken, same⟩ := Option.map_eq_some_iff.mp got
    obtain ⟨unlocked, rfl⟩ := LockedRow.acquire_some taken
    obtain ⟨rfl, rfl⟩ := Prod.mk.inj same
    have released : w.db.lock = none := unlocked.resolve_right free
    obtain ⟨rows, trail, draft, log⟩ := inv.unlocked released
    let db : Db := { w.db with lock := some .dropServer }
    have shape : db.LogIs .dropServer rows [] := by simpa [db, LockedRow.LogIs] using log
    have status : (db.read .dropServer).status = w.db.row.status := by
      simp [db, LockedRow.read, draft]
    have held : Holds tid db .dropServer rows
        (afterSelect .dropServer c (some (db.read .dropServer).status)) := by
      simp only [afterSelect, status]
      split_ifs with ok
      · exact ⟨draft, shape, rfl, isTransitionAllowed_iff.mp ok⟩
      · exact ⟨[], shape⟩
    exact inv.hold unlocked rfl trail held

theorem fail_inv {tid : String} {w : World} (inv : Inv tid w) (s : Sess) :
    Inv tid (w.set s .failed w.db) := by
  by_cases lock : w.db.lock = some s
  · obtain ⟨rows, trail, held⟩ := inv.holder lock
    exact inv.hold (.inr lock) lock trail held.logIs
  · exact inv.wait lock trivial

theorem update_inv {tid : String} {w : World} (inv : Inv tid w) {s : Sess} {c : UpdateCall}
    {oldStatus : Int} {db : Db} (here : w.pc s = .selected c oldStatus)
    (fresh : s ≠ .dropServer → w.db.row.status = oldStatus)
    (got : w.db.write s (·.withStatus c.newStatus c.reason c.now) = some db) :
    Inv tid (w.set s (.updated c oldStatus) db) := by
  obtain ⟨unlocked, rfl⟩ := LockedRow.write_some got
  rcases id unlocked with lock | lock
  · obtain ⟨rows, trail, draft, log⟩ := inv.unlocked lock
    have waiting := inv.waits s (by simp [lock])
    rw [here] at waiting
    let db : Db := { w.db with
      lock := some s
      draft := some ((w.db.draft.getD w.db.row).withStatus c.newStatus c.reason c.now) }
    have held : Holds tid db s rows (.updated c oldStatus) := by
      refine ⟨?_, ?_, fresh waiting.1, waiting.2⟩
      · simp [db, draft]
      · simpa [db, LockedRow.LogIs] using log
    exact inv.hold unlocked rfl trail held
  · obtain ⟨rows, trail, held⟩ := inv.holder lock
    rw [here] at held
    obtain ⟨draft, shape, status, ok⟩ := held
    let db : Db := { w.db with
      lock := some s
      draft := some ((w.db.draft.getD w.db.row).withStatus c.newStatus c.reason c.now) }
    have held : Holds tid db s rows (.updated c oldStatus) :=
      ⟨by simp [db, draft], shape, status, ok⟩
    exact inv.hold unlocked rfl trail held

theorem updated_holds {tid : String} {w : World} (inv : Inv tid w) {s : Sess}
    (writes : ¬ Waits s (w.pc s)) :
    w.db.lock = some s ∧ ∃ rows, AuditTrail rows w.db.row.status ∧
      Holds tid w.db s rows (w.pc s) := by
  have lock : w.db.lock = some s := by
    by_contra free
    exact writes (inv.waits s free)
  exact ⟨lock, inv.holder lock⟩

theorem insert_inv {tid : String} {w : World} (inv : Inv tid w) {s : Sess} {c : UpdateCall}
    {oldStatus : Int} (here : w.pc s = .updated c oldStatus) :
    Inv tid (w.set s (.inserted c oldStatus)
      (w.db.insert s ⟨tid, oldStatus, c.newStatus, c.reason, c.now⟩)) := by
  obtain ⟨lock, rows, trail, held⟩ := updated_holds inv (s := s) (by simp [here, Waits])
  rw [here] at held
  obtain ⟨draft, shape, status, ok⟩ := held
  have held : Holds tid (w.db.insert s ⟨tid, oldStatus, c.newStatus, c.reason, c.now⟩) s rows
      (.inserted c oldStatus) := ⟨draft, shape.insert _, status, ok⟩
  exact inv.hold (.inr lock) lock trail held

theorem commit_inv {tid : String} {w : World} (inv : Inv tid w) {s : Sess} {c : UpdateCall}
    {oldStatus : Int} (here : w.pc s = .inserted c oldStatus) :
    Inv tid (w.set s .idle (w.db.commit s)) := by
  obtain ⟨lock, rows, trail, held⟩ := updated_holds inv (s := s) (by simp [here, Waits])
  rw [here] at held
  obtain ⟨draft, shape, status, ok⟩ := held
  rw [shape.commit lock]
  have extended := trail.snoc ⟨tid, oldStatus, c.newStatus, c.reason, c.now⟩ status.symm ok
  exact inv.finish lock rfl rfl rfl (by simpa [draft] using extended)

theorem rollback_inv {tid : String} {w : World} (inv : Inv tid w) (s : Sess) :
    Inv tid (w.set s .idle (w.db.rollback s)) := by
  by_cases lock : w.db.lock = some s
  · obtain ⟨rows, trail, held⟩ := inv.holder lock
    obtain ⟨own, shape⟩ := held.logIs
    rw [shape.rollback lock]
    exact inv.finish lock rfl rfl rfl trail
  · rw [LockedRow.rollback_of_bystander lock (inv.foreign lock)]
    exact inv.wait lock trivial

theorem statement_inv {tid : String} {w : World} (inv : Inv tid w) {s : Sess} {ok : Bool}
    {pc : Pc} {db : Db} (fresh : UpdatesFresh w (.next s ok))
    (got : statement tid s ok (w.pc s) w.db = some (pc, db)) : Inv tid (w.set s pc db) := by
  cases here : w.pc s with
  | idle => simp [statement, here] at got
  | called c =>
    have free : w.db.lock ≠ some s := by
      intro lock
      obtain ⟨_, _, held⟩ := inv.holder lock
      rw [here] at held
      exact held
    cases ok <;> simp only [statement, here, Bool.false_eq_true, if_true, if_false,
      Option.some.injEq, Prod.mk.injEq] at got <;> obtain ⟨rfl, rfl⟩ := got <;>
      exact inv.wait free trivial
  | begun c =>
    cases ok with
    | false =>
      simp only [statement, here, Bool.false_eq_true, if_false, Option.some.injEq,
        Prod.mk.injEq] at got
      obtain ⟨rfl, rfl⟩ := got
      exact fail_inv inv s
    | true =>
      simp only [statement, here, if_true] at got
      obtain ⟨⟨found, db'⟩, selected, same⟩ := Option.map_eq_some_iff.mp got
      obtain ⟨rfl, rfl⟩ := Prod.mk.inj same
      exact select_inv inv here selected
  | selected c oldStatus =>
    cases ok with
    | false =>
      simp only [statement, here, Bool.false_eq_true, if_false, Option.some.injEq,
        Prod.mk.injEq] at got
      obtain ⟨rfl, rfl⟩ := got
      exact fail_inv inv s
    | true =>
      simp only [statement, here, if_true] at got
      obtain ⟨db', written, same⟩ := Option.map_eq_some_iff.mp got
      obtain ⟨rfl, rfl⟩ := Prod.mk.inj same
      refine update_inv inv here (fun go => ?_) written
      cases s with
      | apiserver call => simpa [UpdatesFresh, here, readsStatus] using fresh
      | dropServer => exact (go rfl).elim
  | updated c oldStatus =>
    cases ok with
    | false =>
      simp only [statement, here, Bool.false_eq_true, if_false, Option.some.injEq,
        Prod.mk.injEq] at got
      obtain ⟨rfl, rfl⟩ := got
      exact fail_inv inv s
    | true =>
      simp only [statement, here, if_true, Option.some.injEq, Prod.mk.injEq] at got
      obtain ⟨rfl, rfl⟩ := got
      exact insert_inv inv here
  | inserted c oldStatus =>
    cases ok with
    | false =>
      simp only [statement, here, Bool.false_eq_true, if_false, Option.some.injEq,
        Prod.mk.injEq] at got
      obtain ⟨rfl, rfl⟩ := got
      exact rollback_inv inv s
    | true =>
      simp only [statement, here, if_true, Option.some.injEq, Prod.mk.injEq] at got
      obtain ⟨rfl, rfl⟩ := got
      exact commit_inv inv here
  | failed =>
    simp only [statement, here, Option.some.injEq, Prod.mk.injEq] at got
    obtain ⟨rfl, rfl⟩ := got
    exact rollback_inv inv s

theorem step_inv {tid : String} {w w' : World} {a : Action} (inv : Inv tid w)
    (fresh : UpdatesFresh w a) (next : step tid w a = some w') : Inv tid w' := by
  have free {s : Sess} (idle : w.pc s = .idle) : w.db.lock ≠ some s := by
    intro lock
    obtain ⟨_, _, held⟩ := inv.holder lock
    rw [idle] at held
    exact held
  cases a with
  | apiserverCall call kind now =>
    simp only [step] at next
    split_ifs at next with ready
    rw [← Option.some.inj next]
    exact inv.wait (free ready.1) trivial
  | dropServerCall newStatus reason now =>
    simp only [step] at next
    split_ifs at next with ready
    rw [← Option.some.inj next]
    exact inv.wait (free ready) trivial
  | next s ok =>
    obtain ⟨⟨pc, db⟩, got, rfl⟩ := Option.map_eq_some_iff.mp next
    exact statement_inv inv fresh got

theorem statement_committed {tid : String} {s : Sess} {ok : Bool} {pc pc' : Pc} {db db' : Db}
    (got : statement tid s ok pc db = some (pc', db')) :
    (db'.row = db.row ∧ db'.committedLog = db.committedLog) ∨
      db' = db.commit s ∧ ∃ c oldStatus, pc = .inserted c oldStatus := by
  cases pc with
  | idle => simp [statement] at got
  | called c =>
    simp only [statement, Option.some.injEq, Prod.mk.injEq] at got
    exact .inl (got.2 ▸ ⟨rfl, rfl⟩)
  | begun c =>
    simp only [statement] at got
    split_ifs at got
    · obtain ⟨⟨found, read⟩, selected, same⟩ := Option.map_eq_some_iff.mp got
      obtain ⟨_, rfl⟩ := Prod.mk.inj same
      cases s with
      | apiserver call =>
        simp only [select, Option.some.injEq, Prod.mk.injEq] at selected
        exact .inl (selected.2 ▸ ⟨rfl, rfl⟩)
      | dropServer =>
        obtain ⟨locked, taken, same⟩ := Option.map_eq_some_iff.mp selected
        obtain ⟨_, rfl⟩ := LockedRow.acquire_some taken
        obtain ⟨_, rfl⟩ := Prod.mk.inj same
        exact .inl ⟨rfl, rfl⟩
    · simp only [Option.some.injEq, Prod.mk.injEq] at got
      exact .inl (got.2 ▸ ⟨rfl, rfl⟩)
  | selected c oldStatus =>
    simp only [statement] at got
    split_ifs at got
    · obtain ⟨written, wrote, same⟩ := Option.map_eq_some_iff.mp got
      obtain ⟨_, rfl⟩ := LockedRow.write_some wrote
      obtain ⟨_, rfl⟩ := Prod.mk.inj same
      exact .inl ⟨rfl, rfl⟩
    · simp only [Option.some.injEq, Prod.mk.injEq] at got
      exact .inl (got.2 ▸ ⟨rfl, rfl⟩)
  | updated c oldStatus =>
    simp only [statement] at got
    split_ifs at got <;> simp only [Option.some.injEq, Prod.mk.injEq] at got <;>
      rw [← got.2]
    · exact .inl ⟨rfl, LockedRow.committedLog_insert _⟩
    · exact .inl ⟨rfl, rfl⟩
  | inserted c oldStatus =>
    simp only [statement, Option.some.injEq, Prod.mk.injEq] at got
    rw [← got.2]
    cases ok with
    | false => exact .inl ⟨LockedRow.rollback_row, LockedRow.committedLog_rollback⟩
    | true => exact .inr ⟨rfl, c, oldStatus, rfl⟩
  | failed =>
    simp only [statement, Option.some.injEq, Prod.mk.injEq] at got
    rw [← got.2]
    exact .inl ⟨LockedRow.rollback_row, LockedRow.committedLog_rollback⟩

/-- What other sessions can see of the task. -/
def World.committed (w : World) : Tables := ⟨[w.db.row], w.db.committedLog⟩

theorem commit_transition {tid : String} {w : World} (inv : Inv tid w) {s : Sess}
    {c : UpdateCall} {oldStatus : Int} (here : w.pc s = .inserted c oldStatus)
    (owner : w.db.row.tid = tid) :
    Transition w.committed ⟨[(w.db.commit s).row], (w.db.commit s).committedLog⟩ tid c.reason := by
  obtain ⟨lock, rows, _, held⟩ := updated_holds inv (s := s) (by simp [here, Waits])
  rw [here] at held
  obtain ⟨draft, shape, status, ok⟩ := held
  refine ⟨w.db.row, by simp [World.committed], c.newStatus, c.now, owner, status ▸ ok, ?_⟩
  have after : (w.db.commit s).LogIs s (rows ++
      [⟨tid, oldStatus, c.newStatus, c.reason, c.now⟩]) [] := by
    rw [shape.commit lock]
    simp [LockedRow.LogIs]
  rw [after.committedLog, shape.commit lock, World.committed, shape.committedLog]
  simp [Tables.setTask, Tables.addHistory, owner, draft, status]

theorem step_refines {tid : String} {w w' : World} {a : Action} (inv : Inv tid w)
    (owner : w.db.row.tid = tid) (next : step tid w a = some w') :
    w'.committed = w.committed ∨ ∃ reason, Transition w.committed w'.committed tid reason := by
  cases a with
  | apiserverCall call kind now =>
    simp only [step] at next
    split_ifs at next
    exact .inl (Option.some.inj next ▸ rfl)
  | dropServerCall newStatus reason now =>
    simp only [step] at next
    split_ifs at next
    exact .inl (Option.some.inj next ▸ rfl)
  | next s ok =>
    obtain ⟨⟨pc, db⟩, got, rfl⟩ := Option.map_eq_some_iff.mp next
    rcases statement_committed got with ⟨row, log⟩ | ⟨rfl, c, oldStatus, here⟩
    · exact .inl (by simp [World.committed, World.set, row, log])
    · exact .inr ⟨c.reason, commit_transition inv here owner⟩

theorem step_tid {tid : String} {w w' : World} {a : Action} (inv : Inv tid w)
    (owner : w.db.row.tid = tid) (next : step tid w a = some w') : w'.db.row.tid = tid := by
  rcases step_refines inv owner next with same | ⟨reason, task, member, new, now, _, _, same⟩
  · have rows := congrArg Tables.tasks same
    simpa [World.committed, owner] using congrArg (List.map HotmethodTask.tid) rows
  · have rows := congrArg Tables.tasks same
    simpa [World.committed, Tables.setTask, Tables.addHistory, owner] using
      congrArg (List.map HotmethodTask.tid) rows

theorem step_done {tid : String} {w w' : World} {a : Action} (inv : Inv tid w)
    (owner : w.db.row.tid = tid) (next : step tid w a = some w')
    (done : w.db.row.status = taskStatusDone) : w'.db.row.status = taskStatusDone := by
  rcases step_refines inv owner next with same | ⟨_, task, member, new, _, _, ok, _⟩
  · have rows := congrArg Tables.tasks same
    simpa [World.committed, done] using congrArg (List.map HotmethodTask.status) rows
  · have only : task = w.db.row := by simpa [World.committed] using member
    rw [only, done] at ok
    exact (done_final _ ok).elim

/-- No call is under way and the committed rows form the audit trail of the task. -/
def World.Quiet (w : World) (tid : String) : Prop :=
  (∀ s, w.pc s = .idle) ∧ w.db.row.tid = tid ∧ w.db.lock = none ∧ w.db.draft = none ∧
    ∃ rows, w.db.log = rows.map (fun row => (none, row)) ∧ AuditTrail rows w.db.row.status

theorem World.Quiet.inv {tid : String} {w : World} (quiet : w.Quiet tid) : Inv tid w := by
  obtain ⟨idle, _, lock, draft, rows, log, trail⟩ := quiet
  refine ⟨⟨rows, trail, ?_⟩, ?_⟩
  · simpa [LockState, lock] using ⟨draft, log⟩
  · intro s _
    rw [idle s]
    trivial

theorem Inv.auditTrail {tid : String} {w : World} (inv : Inv tid w) :
    AuditTrail w.db.committedLog w.db.row.status := by
  obtain ⟨⟨rows, trail, state⟩, _⟩ := inv
  obtain ⟨own, holder, shape, _⟩ := state.logIs
  rw [shape.committedLog]
  exact trail

/-- As long as no apiserver UPDATE overwrites a status committed after its SELECT,
the committed history is an audit trail in every state of every interleaving, and
a committed DONE is final. -/
theorem fresh_updates_keep_auditTrail {tid : String} {start w : World} (quiet : start.Quiet tid)
    (run : Reaches (step tid) UpdatesFresh start w) :
    AuditTrail w.db.committedLog w.db.row.status ∧
      ∀ later, Reaches (step tid) UpdatesFresh w later →
        w.db.row.status = taskStatusDone → later.db.row.status = taskStatusDone := by
  let owned : World → Prop := fun s => Inv tid s ∧ s.db.row.tid = tid
  let staysDone : World → World → Prop := fun s t =>
    s.db.row.status = taskStatusDone → t.db.row.status = taskStatusDone
  have keeps : ∀ s a t, owned s → UpdatesFresh s a → step tid s a = some t → owned t :=
    fun _ _ _ holds fresh next =>
      ⟨step_inv holds.1 fresh next, step_tid holds.1 holds.2 next⟩
  have reached : owned w := run.invariant owned keeps ⟨quiet.inv, quiet.2.1⟩
  refine ⟨reached.1.auditTrail, fun later rest => ?_⟩
  refine rest.related owned staysDone keeps (fun _ => id) ?_ reached
  intro _ _ _ _ holds _ next ih done
  exact step_done holds.1 holds.2 next (ih done)

def uploadingWorld : World where
  db := { row := blankTask "t" taskStatusUploading, lock := none, draft := none,
          log := [(none, ⟨"t", -1, 0, "created", 0⟩), (none, ⟨"t", 0, 1, "running", 1⟩),
            (none, ⟨"t", 1, 2, "uploading", 2⟩)] }
  pc := fun _ => .idle

theorem uploadingWorld_quiet : uploadingWorld.Quiet "t" :=
  ⟨fun _ => rfl, rfl, rfl, rfl, [⟨"t", -1, 0, "created", 0⟩, ⟨"t", 0, 1, "running", 1⟩,
    ⟨"t", 1, 2, "uploading", 2⟩], rfl, by decide⟩

def reportDone : List Action :=
  .dropServerCall taskStatusDone "done" 3 :: List.replicate 5 (.next .dropServer true)

def dispatchReads : List Action :=
  .apiserverCall 0 (.dispatchTaskFailed "deadline exceeded") 4 ::
    List.replicate 2 (.next (.apiserver 0) true)

def dispatchWrites : List Action := List.replicate 3 (.next (.apiserver 0) true)

theorem fresh_updates_keep_auditTrail_late_dispatch :
    ∃ w later, Reaches (step "t") UpdatesFresh uploadingWorld w ∧
      Reaches (step "t") UpdatesFresh w later ∧ w.db.row.status = taskStatusDone ∧
      AuditTrail w.db.committedLog w.db.row.status ∧ later.db.row.status = taskStatusDone := by
  have reported : Reaches (step "t") UpdatesFresh uploadingWorld _ :=
    reaches_of_execute reportDone rfl
  have kept := fresh_updates_keep_auditTrail uploadingWorld_quiet reported
  refine ⟨_, _, reported, reaches_of_execute (dispatchReads ++ [.next (.apiserver 0) true]) rfl,
    rfl, kept.1, ?_⟩
  exact kept.2 _ (reaches_of_execute (dispatchReads ++ [.next (.apiserver 0) true]) rfl) rfl

theorem dispatch_overwrites_done :
    ∃ w later, Reaches (step "t") free uploadingWorld w ∧ Reaches (step "t") free w later ∧
      w.db.row.status = taskStatusDone ∧ later.db.row.status = taskStatusFailed ∧
      ¬ AuditTrail later.db.committedLog later.db.row.status := by
  refine ⟨_, _, reaches_of_execute (dispatchReads ++ reportDone) rfl,
    reaches_of_execute dispatchWrites rfl, rfl, rfl, ?_⟩
  decide

end DropPlatform.CrossProcessUpdates
