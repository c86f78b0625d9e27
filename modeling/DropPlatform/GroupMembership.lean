import DropPlatform.TaskLifecycle
import DropPlatform.TaskReads

/-! What one user can do to the set of other users' tasks that the ownership clause of
`GetTask` and `DeleteTask` lets through. The group handlers check neither the owner of a
group nor that it exists, so membership rows can be added for any group and any user,
also for groups that are yet to be created. -/

namespace DropPlatform.GroupMembership
open TransitionRuns TaskStore TaskReads
open TaskLifecycle (CreateTaskReq Creation create deleteTask uploadTaskFile)

structure Group where
  gid : Nat
  name : String
  ownerId : String
deriving DecidableEq, Repr

structure AgentInfo where
  id : Nat
  gid : Nat
deriving DecidableEq, Repr

structure Accounts where
  db : Tables
  members : List GroupMember
  groups : List Group
  /-- The next value of the sequence behind `groups.gid`. -/
  nextGid : Nat
  agents : List AgentInfo
deriving DecidableEq, Repr

/-- The requests of one user, with the outcomes of their database statements; a body that
cannot be bound is refused. `dispatchFailed` is the late part of a creation or a retry,
`elsewhere` a request that writes only to the tables of schedules and segments. -/
inductive Request
  | createGroup (name : String) (groupOk memberOk : Bool)
  | addGroupMember (gid : Nat) (uid : String) (ok : Bool)
  | removeGroupMember (gid : Nat) (uid : String) (ok : Bool)
  | addGroupAgent (gid agentId : Nat) (ok : Bool)
  | removeGroupAgent (gid agentId : Nat) (ok : Bool)
  | createTask (req : CreateTaskReq) (userName : String) (randBytes : Fin 12 → UInt8)
      (now : Nat) (rowOk historyOk : Bool)
  | nlChat (title : String) (profilerType : Int) (targetIP : String) (pid duration : Int)
      (userName : String) (randBytes : Fin 12 → UInt8) (now : Nat) (rowOk historyOk : Bool)
  | deleteTask (tid : String) (ok : Bool)
  | retryTask (tid : String) (fails : Statement → Bool) (now : Nat)
  | dispatchFailed (tid reason : String) (fails : Statement → Bool) (now : Nat)
  | uploadTaskFile (tid filename : String) (ok : Bool)
  | elsewhere
  | read (request : TaskReads.Request)

/-- The insert takes a value from the sequence even if it is refused. -/
def createGroup (u name : String) (groupOk memberOk : Bool) (s : Accounts) : Accounts :=
  let gid := s.nextGid
  if groupOk = false ∨ (∃ group ∈ s.groups, group.gid = gid ∨ group.name = name) then
    { s with nextGid := gid + 1 }
  else
    { s with
      groups := s.groups ++ [⟨gid, name, u⟩]
      nextGid := gid + 1
      members := if memberOk ∧ ⟨gid, u⟩ ∉ s.members then s.members ++ [⟨gid, u⟩] else s.members }

/-- `FirstOrCreate` looks for a row by the non-zero fields of its condition. -/
def findsMember (members : List GroupMember) (gid : Nat) (uid : String) : Bool :=
  ∃ m ∈ members, (gid = 0 ∨ m.gid = gid) ∧ (uid = "" ∨ m.uid = uid)

def addGroupMember (gid : Nat) (uid : String) (s : Accounts) : Accounts :=
  if findsMember s.members gid uid then s else { s with members := s.members ++ [⟨gid, uid⟩] }

def removeGroupMember (gid : Nat) (uid : String) (s : Accounts) : Accounts :=
  { s with members := s.members.filter fun m => ¬ (m.gid = gid ∧ m.uid = uid) }

def setAgentGid (agentId : Nat) (old : Option Nat) (gid : Nat) (s : Accounts) : Accounts :=
  { s with agents := s.agents.map fun agent =>
      if agent.id = agentId ∧ old.all (· = agent.gid) then { agent with gid } else agent }

def deleteAccessible (u tid : String) (s : Accounts) : Accounts :=
  if s.db.tasks.any fun task => task.tid = tid ∧ mayAccess s.members u task.uid ∧
      task.deleted = false then
    { s with db := deleteTask tid s.db }
  else s

def retryTask (u tid : String) (fails : Statement → Bool) (now : Nat) (s : Accounts) : Accounts :=
  match failedTask s.db tid u with
  | none => s
  | some _ => { s with
      db := Apiserver.updateTaskStatus fails s.db tid taskStatusPending "用户触发重试" now }

def createOwn (creation : Creation) (randBytes : Fin 12 → UInt8) (now : Nat)
    (rowOk historyOk : Bool) (s : Accounts) : Accounts :=
  { s with db := create creation (genTID randBytes) now rowOk historyOk s.db }

def step (u : String) (s : Accounts) : Request → Option Accounts
  | .createGroup name groupOk memberOk => some (createGroup u name groupOk memberOk s)
  | .addGroupMember gid uid ok => some (if ok then addGroupMember gid uid s else s)
  | .removeGroupMember gid uid ok => some (if ok then removeGroupMember gid uid s else s)
  | .addGroupAgent gid agentId ok => some (if ok then setAgentGid agentId none gid s else s)
  | .removeGroupAgent gid agentId ok =>
    some (if ok then setAgentGid agentId (some gid) 0 s else s)
  | .createTask req userName randBytes now rowOk historyOk =>
    some (createOwn (.createTask req u userName) randBytes now rowOk historyOk s)
  | .nlChat title profilerType targetIP pid duration userName randBytes now rowOk historyOk =>
    some (createOwn (.nlChat title profilerType targetIP pid duration u userName) randBytes now
      rowOk historyOk s)
  | .deleteTask tid ok => some (if ok then deleteAccessible u tid s else s)
  | .retryTask tid fails now => some (retryTask u tid fails now s)
  | .dispatchFailed tid reason fails now => some { s with
      db := Apiserver.updateTaskStatus fails s.db tid taskStatusFailed reason now }
  | .uploadTaskFile tid filename ok =>
    some (if ok then { s with db := uploadTaskFile tid filename s.db } else s)
  | .elsewhere | .read _ => some s

def identity (task : HotmethodTask) : String × String × Bool := (task.tid, task.uid, task.deleted)

/-- The tasks of other users, with their owners, that `u` can get and delete. -/
def accessible (u : String) (s : Accounts) : Set (String × String) :=
  {p | (p.1, p.2, false) ∈ s.db.tasks.map identity ∧ p.2 ≠ u ∧ mayAccess s.members u p.2 = true}

def Shares (members : List GroupMember) (u v : String) : Prop :=
  ∃ gid, (⟨gid, u⟩ : GroupMember) ∈ members ∧ (⟨gid, v⟩ : GroupMember) ∈ members

theorem mayAccess_iff {members : List GroupMember} {u owner : String} :
    mayAccess members u owner = true ↔ owner = u ∨ Shares members u owner := by
  simp only [mayAccess, decide_eq_true_eq]
  apply or_congr_right
  constructor
  · rintro ⟨m, member, rfl, n, own, rfl, same⟩
    exact ⟨m.gid, same ▸ own, member⟩
  · rintro ⟨gid, own, member⟩
    exact ⟨⟨gid, owner⟩, member, rfl, ⟨gid, u⟩, own, rfl, rfl⟩

theorem shares_append {members : List GroupMember} {u v w : String} {gid : Nat} (other : w ≠ u) :
    Shares (members ++ [⟨gid, v⟩]) u w ↔ Shares members u w ∨
      (v = u ∧ ⟨gid, w⟩ ∈ members ∨ v = w ∧ ⟨gid, u⟩ ∈ members) := by
  simp only [Shares, List.mem_append, List.mem_singleton, GroupMember.mk.injEq]
  constructor
  · rintro ⟨g, own | ⟨rfl, rfl⟩, member | ⟨same, rfl⟩⟩
    · exact .inl ⟨g, own, member⟩
    · exact .inr (.inr ⟨rfl, same ▸ own⟩)
    · exact .inr (.inl ⟨rfl, member⟩)
    · exact absurd rfl other
  · rintro (⟨g, own, member⟩ | ⟨rfl, member⟩ | ⟨rfl, own⟩)
    · exact ⟨g, .inl own, .inl member⟩
    · exact ⟨gid, .inr ⟨rfl, rfl⟩, .inl member⟩
    · exact ⟨gid, .inl own, .inr ⟨rfl, rfl⟩⟩

/-- If `v` becomes a member of the group, nobody with live tasks whom `u` thereby meets
was a stranger to `u` before. -/
def Joins (u : String) (s : Accounts) (gid : Nat) (v : String) : Prop :=
  ∀ task ∈ s.db.tasks, task.deleted = false → task.uid ≠ u →
    (v = u ∧ ⟨gid, task.uid⟩ ∈ s.members ∨ v = task.uid ∧ ⟨gid, u⟩ ∈ s.members) →
    mayAccess s.members u task.uid = true

/-- Memberships are added only where they make no strangers meet. -/
def Harmless (u : String) (s : Accounts) : Request → Prop
  | .createGroup name groupOk memberOk => groupOk = true → memberOk = true →
      (∀ group ∈ s.groups, group.gid ≠ s.nextGid ∧ group.name ≠ name) → Joins u s s.nextGid u
  | .addGroupMember gid uid ok => ok = true → findsMember s.members gid uid = false →
      Joins u s gid uid
  | _ => True

instance (u : String) (s : Accounts) (gid : Nat) (v : String) : Decidable (Joins u s gid v) :=
  inferInstanceAs (Decidable (∀ task ∈ s.db.tasks, _ → _ → _ → _))

instance (u : String) (s : Accounts) : (r : Request) → Decidable (Harmless u s r)
  | .createGroup name _ _ => inferInstanceAs (Decidable (_ → _ →
      (∀ group ∈ s.groups, group.gid ≠ s.nextGid ∧ group.name ≠ name) → Joins u s s.nextGid u))
  | .addGroupMember _ _ _ => inferInstanceAs (Decidable (_ → _ → Joins _ _ _ _))
  | .removeGroupMember _ _ _ | .addGroupAgent _ _ _ | .removeGroupAgent _ _ _
  | .createTask _ _ _ _ _ _ | .nlChat _ _ _ _ _ _ _ _ _ _ | .deleteTask _ _
  | .retryTask _ _ _ | .dispatchFailed _ _ _ _ | .uploadTaskFile _ _ _ | .elsewhere
  | .read _ => .isTrue trivial

section containment
variable {u : String} {s t : Accounts}

theorem accessible_subset
    (rows : ∀ tid owner, owner ≠ u → (tid, owner, false) ∈ t.db.tasks.map identity →
      (tid, owner, false) ∈ s.db.tasks.map identity)
    (members : ∀ m ∈ t.members, m ∈ s.members) : accessible u t ⊆ accessible u s := by
  rintro ⟨tid, owner⟩ ⟨row, other, access⟩
  refine ⟨rows tid owner other row, other, ?_⟩
  rw [mayAccess_iff] at access ⊢
  apply access.imp_right
  rintro ⟨gid, own, member⟩
  exact ⟨gid, members _ own, members _ member⟩

theorem accessible_join_iff (gid : Nat) (v : String) :
    accessible u { s with members := s.members ++ [⟨gid, v⟩] } ⊆ accessible u s ↔
      Joins u s gid v := by
  constructor
  · intro contained task member live other meets
    have row : (task.tid, task.uid, false) ∈ s.db.tasks.map identity := by
      rw [← live]
      exact List.mem_map_of_mem member
    have after : (task.tid, task.uid) ∈
        accessible u { s with members := s.members ++ [⟨gid, v⟩] } :=
      ⟨row, other, mayAccess_iff.mpr (.inr ((shares_append other).mpr (.inr meets)))⟩
    exact (contained after).2.2
  · rintro joins ⟨tid, owner⟩ ⟨row, other, access⟩
    refine ⟨row, other, ?_⟩
    obtain ⟨task, member, named⟩ := List.mem_map.mp row
    simp only [identity, Prod.mk.injEq] at named
    obtain ⟨rfl, rfl, live⟩ := named
    have shared := (mayAccess_iff.mp access).resolve_left other
    rcases (shares_append other).mp shared with before | meets
    · exact mayAccess_iff.mpr (.inr before)
    · exact joins task member live other meets

theorem accessible_subset_of_identity
    (same : t.db.tasks.map identity = s.db.tasks.map identity) (members : t.members = s.members) :
    accessible u t ⊆ accessible u s := by
  apply accessible_subset
  · intro tid owner _ row
    exact same ▸ row
  · intro m member
    exact members ▸ member

theorem identity_updateTaskStatus (fails : Statement → Bool) (db : Tables) (tid : String)
    (newStatus : Int) (reason : String) (now : Nat) :
    (Apiserver.updateTaskStatus fails db tid newStatus reason now).tasks.map identity =
      db.tasks.map identity := by
  rcases apiserver_updateTaskStatus_cases fails db tid newStatus reason now with same | changed
  · rw [same]
  · obtain ⟨_, _, _, _, _, _, after⟩ := changed
    rw [after]
    apply map_setTask
    intro task
    rfl

theorem identity_uploadTaskFile (tid filename : String) (db : Tables) :
    (uploadTaskFile tid filename db).tasks.map identity = db.tasks.map identity := by
  apply map_setTask
  intro task
  split_ifs <;> rfl

theorem live_deleteTask {tid tid' owner : String} {db : Tables}
    (row : (tid', owner, false) ∈ (deleteTask tid db).tasks.map identity) :
    (tid', owner, false) ∈ db.tasks.map identity := by
  obtain ⟨task, member, named⟩ := List.mem_map.mp row
  obtain ⟨before, there, rfl⟩ := mem_setTask member
  split_ifs at named
  · simp [identity] at named
  · exact List.mem_map.mpr ⟨before, there, named⟩

theorem rows_create {creation : Creation} {tid tid' owner : String} {now : Nat}
    {rowOk historyOk : Bool} {db : Tables} (other : owner ≠ (creation.row tid now).uid)
    (row : (tid', owner, false) ∈ (create creation tid now rowOk historyOk db).tasks.map identity) :
    (tid', owner, false) ∈ db.tasks.map identity := by
  unfold create at row
  split_ifs at row
  · exact row
  all_goals
    simp only [Tables.addHistory, List.map_append, List.map_cons, List.map_nil, List.mem_append,
      List.mem_singleton] at row
    refine row.resolve_right ?_
    intro named
    exact other (congrArg (·.2.1) named)

theorem accessible_createOwn (creation : Creation) (randBytes : Fin 12 → UInt8) (now : Nat)
    (rowOk historyOk : Bool) (own : (creation.row (genTID randBytes) now).uid = u) :
    accessible u (createOwn creation randBytes now rowOk historyOk s) ⊆ accessible u s := by
  apply accessible_subset
  · intro tid owner other row
    exact rows_create (own ▸ other) row
  · intro m member
    exact member

theorem createGroup_contained_iff (name : String) (groupOk memberOk : Bool) :
    accessible u (createGroup u name groupOk memberOk s) ⊆ accessible u s ↔
      Harmless u s (.createGroup name groupOk memberOk) := by
  simp only [Harmless, createGroup]
  split_ifs with refused inserted
  · constructor
    · rintro - rfl rfl fresh
      obtain ⟨group, member, clash⟩ := refused.resolve_left (by decide)
      rcases clash with clash | clash
      · exact absurd clash (fresh group member).1
      · exact absurd clash (fresh group member).2
    · intro _
      exact accessible_subset_of_identity rfl rfl
  all_goals
    push Not at refused
    have created : groupOk = true := by simpa using refused.1
  · have appended := accessible_join_iff (u := u) (s := s) s.nextGid u
    constructor
    · rintro contained - - -
      exact appended.mp contained
    · intro harmless
      exact appended.mpr (harmless created inserted.1 refused.2)
  · constructor
    · rintro - - rfl - task member live other (⟨-, theirs⟩ | ⟨own, -⟩)
      · have already : (⟨s.nextGid, u⟩ : GroupMember) ∈ s.members := by simpa using inserted
        exact mayAccess_iff.mpr (.inr ⟨_, already, theirs⟩)
      · exact absurd own.symm other
    · intro _
      exact accessible_subset_of_identity rfl rfl

theorem addGroupMember_contained_iff (gid : Nat) (uid : String) :
    accessible u (addGroupMember gid uid s) ⊆ accessible u s ↔
      (findsMember s.members gid uid = false → Joins u s gid uid) := by
  unfold addGroupMember
  split_ifs with found
  · simp [found]
  · rw [accessible_join_iff]
    simp [found]

theorem step_contained_iff {r : Request} (next : step u s r = some t) :
    accessible u t ⊆ accessible u s ↔ Harmless u s r := by
  cases r <;> simp only [step, Option.some.injEq] at next <;> subst next
  case createGroup name groupOk memberOk => exact createGroup_contained_iff name groupOk memberOk
  case addGroupMember gid uid ok =>
    simp only [Harmless]
    split_ifs with ran
    · rw [addGroupMember_contained_iff]
      simp [ran]
    · simp [ran]
  all_goals
    refine iff_of_true ?_ trivial
  case removeGroupMember gid uid ok =>
    split_ifs
    · apply accessible_subset
      · intro tid owner _ row
        exact row
      · intro m member
        exact (List.mem_filter.mp member).1
    · exact subset_rfl
  case addGroupAgent gid agentId ok =>
    split_ifs <;> exact accessible_subset_of_identity rfl rfl
  case removeGroupAgent gid agentId ok =>
    split_ifs <;> exact accessible_subset_of_identity rfl rfl
  case createTask => exact accessible_createOwn _ _ _ _ _ rfl
  case nlChat => exact accessible_createOwn _ _ _ _ _ rfl
  case deleteTask tid ok =>
    simp only [deleteAccessible]
    split_ifs
    · apply accessible_subset
      · intro tid' owner _ row
        exact live_deleteTask row
      · intro m member
        exact member
    all_goals exact subset_rfl
  case retryTask tid fails now =>
    unfold retryTask
    split
    · exact subset_rfl
    · exact accessible_subset_of_identity (identity_updateTaskStatus ..) rfl
  case dispatchFailed tid reason fails now =>
    exact accessible_subset_of_identity (identity_updateTaskStatus ..) rfl
  case uploadTaskFile tid filename ok =>
    split_ifs
    · exact accessible_subset_of_identity (identity_uploadTaskFile ..) rfl
    · exact subset_rfl
  case elsewhere => exact subset_rfl
  case read => exact subset_rfl

theorem harmless_requests_gain_nothing (u : String) {s t : Accounts}
    (run : Reaches (step u) (Harmless u) s t) : accessible u t ⊆ accessible u s := by
  apply Reaches.related (fun _ => True) (fun s t => accessible u t ⊆ accessible u s) _ _ _ trivial
    run
  · intro _ _ _ _ _ _
    trivial
  · intro s
    exact subset_rfl
  · intro s r t v _ harmless next contained
    exact ((step_contained_iff next).mpr harmless).trans contained

end containment

def bobsTask : Accounts :=
  ⟨⟨[{ blankTask "bobstask0001" taskStatusDone with uid := "bob" }], []⟩, [], [], 1, []⟩

def ownGroup : List Request :=
  [.createGroup "team" true true, .addGroupMember 1 "carol" true,
    .createTask ⟨"cpu", taskTypeSingle, 0, "10.0.0.1", 42, 10, 99, "cpu"⟩ "eve" (fun _ => 0) 5
      true true,
    .removeGroupMember 1 "carol" true]

theorem harmless_requests_gain_nothing_ownGroup :
    ∃ t, Reaches (step "eve") (Harmless "eve") bobsTask t ∧ t.db.tasks.length = 2 ∧
      accessible "eve" t ⊆ accessible "eve" bobsTask := by
  have run : Reaches (step "eve") (Harmless "eve") bobsTask _ := reaches_of_execute ownGroup rfl
  exact ⟨_, run, rfl, harmless_requests_gain_nothing "eve" run⟩

/-- Adding a stranger to one's own group is enough to get and delete the stranger's tasks. -/
theorem addGroupMember_gains_access :
    ∃ t, Reaches (step "eve") free bobsTask t ∧
      ¬ accessible "eve" t ⊆ accessible "eve" bobsTask := by
  have run : Reaches (step "eve") free bobsTask _ :=
    reaches_of_execute [.createGroup "team" true true, .addGroupMember 1 "bob" true] rfl
  refine ⟨_, run, ?_⟩
  intro contained
  have gained := contained (a := ("bobstask0001", "bob")) ⟨by decide, by decide, by decide⟩
  exact absurd gained.2.2 (by decide)

end DropPlatform.GroupMembership
