import Mathlib.Tactic

/-! Two views of transactions in an SQL server.
`LockedRow` is one row and one append-only log as several READ COMMITTED sessions
use them. A write takes the row lock until its transaction ends, a locking read
takes it as well, a plain read takes nothing and sees the last committed version.
Log entries keep the order in which they were inserted; an entry belongs to its
session until that session commits.
`Session` is one session whose statements may come from several callers. -/

namespace DropPlatform.SqlTransactions

structure LockedRow (Sess ρ η : Type*) where
  row : ρ
  lock : Option Sess
  /-- The version written, and not yet committed, by the holder of the lock. -/
  draft : Option ρ
  log : List (Option Sess × η)

namespace LockedRow
variable {Sess ρ η : Type*}

def insert (s : Sess) (x : η) (db : LockedRow Sess ρ η) : LockedRow Sess ρ η :=
  { db with log := db.log ++ [(some s, x)] }

def committedLog (db : LockedRow Sess ρ η) : List η :=
  db.log.filterMap fun entry => if entry.1 = none then some entry.2 else none

/-- Committed entries first, then the entries of one session. -/
def LogIs (db : LockedRow Sess ρ η) (s : Sess) (rows own : List η) : Prop :=
  db.log = rows.map (fun x => (none, x)) ++ own.map (fun x => (some s, x))

variable {db db' : LockedRow Sess ρ η} {s : Sess} {rows own : List η}

theorem LogIs.committedLog (shape : LogIs db s rows own) : db.committedLog = rows := by
  unfold LockedRow.committedLog
  rw [shape, List.filterMap_append, List.filterMap_map, List.filterMap_map]
  simp

@[simp] theorem committedLog_insert (x : η) : (db.insert s x).committedLog = db.committedLog := by
  simp [LockedRow.insert, LockedRow.committedLog]

theorem LogIs.insert (shape : LogIs db s rows own) (x : η) :
    LogIs (db.insert s x) s rows (own ++ [x]) := by
  unfold LogIs at *
  simp [LockedRow.insert, shape]

variable [DecidableEq Sess]

def read (s : Sess) (db : LockedRow Sess ρ η) : ρ :=
  if db.lock = some s then db.draft.getD db.row else db.row

/-- `none`: the row is locked by another session and the statement has to wait. -/
def acquire (s : Sess) (db : LockedRow Sess ρ η) : Option (LockedRow Sess ρ η) :=
  if db.lock = none ∨ db.lock = some s then some { db with lock := some s } else none

def write (s : Sess) (f : ρ → ρ) (db : LockedRow Sess ρ η) : Option (LockedRow Sess ρ η) :=
  (acquire s db).map fun db => { db with draft := some (f (db.draft.getD db.row)) }

def release (s : Sess) (db : LockedRow Sess ρ η) : LockedRow Sess ρ η :=
  if db.lock = some s then { db with lock := none, draft := none } else db

def commit (s : Sess) (db : LockedRow Sess ρ η) : LockedRow Sess ρ η :=
  release s { db with
    row := read s db
    log := db.log.map fun entry => if entry.1 = some s then (none, entry.2) else entry }

def rollback (s : Sess) (db : LockedRow Sess ρ η) : LockedRow Sess ρ η :=
  release s { db with log := db.log.filter fun entry => entry.1 ≠ some s }

theorem acquire_some (got : acquire s db = some db') :
    (db.lock = none ∨ db.lock = some s) ∧ db' = { db with lock := some s } := by
  unfold acquire at got
  split_ifs at got with unlocked
  exact ⟨unlocked, (Option.some.inj got).symm⟩

theorem write_some {f : ρ → ρ} (got : write s f db = some db') :
    (db.lock = none ∨ db.lock = some s) ∧
      db' = { db with lock := some s, draft := some (f (db.draft.getD db.row)) } := by
  obtain ⟨locked, taken, rfl⟩ := Option.map_eq_some_iff.mp got
  obtain ⟨unlocked, rfl⟩ := acquire_some taken
  exact ⟨unlocked, rfl⟩

theorem release_of_not_holder (other : db.lock ≠ some s) : release s db = db := by
  simp [release, other]

theorem LogIs.commit (shape : LogIs db s rows own) (holder : db.lock = some s) :
    db.commit s = { db with
      row := db.draft.getD db.row, lock := none, draft := none
      log := (rows ++ own).map fun x => (none, x) } := by
  unfold LogIs at shape
  simp [LockedRow.commit, release, LockedRow.read, holder, shape, Function.comp_def]

theorem LogIs.rollback (shape : LogIs db s rows own) (holder : db.lock = some s) :
    db.rollback s = { db with
      lock := none, draft := none, log := rows.map fun x => (none, x) } := by
  unfold LogIs at shape
  have kept : (rows.map fun x => ((none : Option Sess), x)).filter
      (fun entry => entry.1 ≠ some s) = rows.map fun x => (none, x) := by
    rw [List.filter_eq_self]
    simp
  have dropped : (own.map fun x => (some s, x)).filter (fun entry => entry.1 ≠ some s) = [] := by
    rw [List.filter_eq_nil_iff]
    simp
  simp only [LockedRow.rollback, release, holder, if_true, shape, List.filter_append,
    kept, dropped, List.append_nil]

@[simp] theorem rollback_row : (db.rollback s).row = db.row := by
  unfold LockedRow.rollback release
  split_ifs <;> rfl

@[simp] theorem committedLog_rollback : (db.rollback s).committedLog = db.committedLog := by
  have log : (db.rollback s).log = db.log.filter fun entry => entry.1 ≠ some s := by
    unfold LockedRow.rollback release
    split_ifs <;> rfl
  unfold LockedRow.committedLog
  rw [log, List.filterMap_filter]
  congr 1
  funext entry
  by_cases settled : entry.1 = none <;> simp [settled]

theorem rollback_of_bystander (other : db.lock ≠ some s)
    (foreign : ∀ entry ∈ db.log, entry.1 ≠ some s) : db.rollback s = db := by
  have kept : db.log.filter (fun entry => entry.1 ≠ some s) = db.log := by
    rw [List.filter_eq_self]
    intro entry member
    simpa using foreign entry member
  rw [LockedRow.rollback, kept]
  exact release_of_not_holder other

end LockedRow

inductive Tx (σ : Type*)
  | none
  | open (view : σ)
  /-- A statement has failed; the server refuses everything up to the end of the block. -/
  | aborted

structure Session (σ : Type*) where
  committed : σ
  tx : Tx σ

namespace Session
variable {σ : Type*}

/-- What a SELECT sees; `none` inside an aborted transaction. -/
def view (s : Session σ) : Option σ :=
  match s.tx with
  | .none => some s.committed
  | .open view => some view
  | .aborted => none

def inTransaction (s : Session σ) : Bool :=
  match s.tx with
  | .none => false
  | _ => true

/-- BEGIN inside an open transaction succeeds and changes nothing. -/
def begin (ok : Bool) (s : Session σ) : Session σ × Bool :=
  match s.tx with
  | .none => if ok then ({ s with tx := .open s.committed }, true) else (s, false)
  | .open _ => if ok then (s, true) else ({ s with tx := .aborted }, false)
  | .aborted => (s, false)

/-- A statement outside a transaction commits by itself. -/
def exec (f : σ → σ) (ok : Bool) (s : Session σ) : Session σ × Bool :=
  match s.tx with
  | .none => if ok then ({ s with committed := f s.committed }, true) else (s, false)
  | .open view => if ok then ({ s with tx := .open (f view) }, true)
      else ({ s with tx := .aborted }, false)
  | .aborted => (s, false)

/-- COMMIT ends whatever transaction is open; an aborted one is rolled back. -/
def commit (ok : Bool) (s : Session σ) : Session σ :=
  match s.tx with
  | .open view => if ok then ⟨view, .none⟩ else { s with tx := .none }
  | _ => { s with tx := .none }

def rollback (s : Session σ) : Session σ := { s with tx := .none }

theorem begin_cases (ok : Bool) (s : Session σ) :
    (s.begin ok).1 = s ∨
    (s.tx = .none ∧ (s.begin ok).1 = { s with tx := .open s.committed }) ∨
    (s.begin ok).1 = { s with tx := .aborted } := by
  obtain ⟨committed, tx⟩ := s
  cases tx <;> cases ok <;> simp [Session.begin]

theorem exec_cases (f : σ → σ) (ok : Bool) (s : Session σ) :
    ((∀ view, s.tx ≠ .open view) ∧ s.exec f ok = (s, false)) ∨
    (s.tx = .none ∧ s.exec f ok = ({ s with committed := f s.committed }, true)) ∨
    (∃ view, s.tx = .open view ∧ s.exec f ok = ({ s with tx := .open (f view) }, true)) ∨
    s.exec f ok = ({ s with tx := .aborted }, false) := by
  obtain ⟨committed, tx⟩ := s
  cases tx <;> cases ok <;> simp [Session.exec]

theorem commit_cases (ok : Bool) (s : Session σ) :
    s.commit ok = s.rollback ∨ ∃ view, s.tx = .open view ∧ s.commit ok = ⟨view, .none⟩ := by
  obtain ⟨committed, tx⟩ := s
  cases tx <;> cases ok <;> simp [Session.commit, Session.rollback]

end Session

end DropPlatform.SqlTransactions
