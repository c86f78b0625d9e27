import DropPlatform.TaskStore

/-! Which agents are online: `PGStore::UpsertAgent`, called for every heartbeat and every
registration, and `PGStore::ScanAgentHeartbeats`, called by the scanner thread. Both write
the flag `online` of `agent_info` and the rows of `agent_audit_log`. Each call is one step;
its statements succeed, each with a reading of the clock of its own. -/

namespace DropPlatform.AgentAudit
open TransitionRuns TaskStore

inductive EventType
  | online | offline
deriving DecidableEq, Repr

/-- The columns that drop_server writes; times are in microseconds. -/
structure AgentInfo where
  id : Nat
  hostname : String
  ipAddr : String
  online : Bool
  uid : String
  version : String
  lastHb : Int
deriving DecidableEq, Repr

structure AgentAuditLog where
  agentId : Nat
  eventType : EventType
  reason : String
  timestamp : Int
deriving DecidableEq, Repr

structure Store where
  agents : List AgentInfo
  log : List AgentAuditLog
  /-- The sequence that numbers the rows of `agent_info`. -/
  nextId : Nat
deriving DecidableEq, Repr

def interval (timeoutSec : Int) : Int := timeoutSec * 1000000

/-- `now k` is what `NOW()` gives in the `k`-th statement. -/
def upsertAgent (now : Nat → Int) (ip hostname uid version : String) (s : Store) : Store :=
  let old := s.agents.find? (·.ipAddr = cStr ip)
  let row : AgentInfo :=
    ⟨s.nextId, cStr hostname, cStr ip, true, cStr uid, cStr version, now 1⟩
  -- an insert takes a number from the sequence even if it ends as an update
  let nextId := s.nextId + 1
  match old with
  | none => { s with agents := s.agents ++ [row], nextId }
  | some agent =>
    let agents := s.agents.map fun a => if a.ipAddr = cStr ip then { row with id := a.id } else a
    if agent.online then { s with agents, nextId }
    else { agents, nextId, log := s.log ++ [⟨agent.id, .online, "heartbeat recovered", now 2⟩] }

/-- One turn of either loop of the scan: the flag, and its row in the log. -/
def writeEvent (online : Bool) (event : EventType) (reason : String) (now : Int) (id : Nat)
    (s : Store) : Store :=
  { s with
    agents := s.agents.map fun a => if a.id = id then { a with online } else a
    log := s.log ++ [⟨id, event, reason, now⟩] }

def markOffline (timeoutSec : Int) : Int → Nat → Store → Store :=
  writeEvent false .offline (toString timeoutSec ++ "s无心跳")

def markOnline : Int → Nat → Store → Store := writeEvent true .online "heartbeat recovered"

def forAgents (mark : Int → Nat → Store → Store) (now : Nat → Int) : Nat → List Nat → Store → Store
  | _, [], s => s
  | k, id :: ids, s => forAgents mark now (k + 2) ids (mark (now (k + 1)) id s)

def staleAgents (timeoutSec now : Int) (s : Store) : List Nat :=
  (s.agents.filter fun a => a.online ∧ a.lastHb < now - interval timeoutSec).map (·.id)

def returnedAgents (timeoutSec now : Int) (s : Store) : List Nat :=
  (s.agents.filter fun a => a.online = false ∧ a.lastHb ≥ now - interval timeoutSec).map (·.id)

/-- The scan up to its second query, and the number of statements so far. -/
def firstLoop (timeoutSec : Int) (now : Nat → Int) (s : Store) : Store × Nat :=
  let stale := staleAgents timeoutSec (now 0) s
  (forAgents (markOffline timeoutSec) now 1 stale s, 2 * stale.length + 1)

def secondQuery (timeoutSec : Int) (now : Nat → Int) (s : Store) : List Nat :=
  let (s, k) := firstLoop timeoutSec now s
  returnedAgents timeoutSec (now k) s

def scanAgentHeartbeats (timeoutSec : Int) (now : Nat → Int) (s : Store) : Store :=
  let back := secondQuery timeoutSec now s
  let (s, k) := firstLoop timeoutSec now s
  forAgents markOnline now (k + 1) back s

structure World where
  store : Store
  /-- The last reading of the clock. -/
  clock : Int
  /-- Which agent was marked offline by a scan with which first reading of the clock. -/
  marks : List (Nat × Int)

inductive Action
  | upsertAgent (now : Nat → Int) (ip hostname uid version : String)
  | scanAgentHeartbeats (now : Nat → Int)

def next (timeoutSec : Int) (w : World) : Action → World
  | .upsertAgent now ip hostname uid version =>
    { w with store := upsertAgent now ip hostname uid version w.store, clock := now 2 }
  | .scanAgentHeartbeats now =>
    let k := (firstLoop timeoutSec now w.store).2 + 2 * (secondQuery timeoutSec now w.store).length
    { store := scanAgentHeartbeats timeoutSec now w.store
      clock := now k
      marks := w.marks ++ (staleAgents timeoutSec (now 0) w.store).map (·, now 0) }

def step (timeoutSec : Int) (w : World) (a : Action) : Option World := some (next timeoutSec w a)

def Action.now : Action → Nat → Int
  | .upsertAgent now _ _ _ _ => now
  | .scanAgentHeartbeats now => now

def Ordered (w : World) (a : Action) : Prop := Monotone a.now ∧ w.clock ≤ a.now 0

def initial : World := ⟨⟨[], [], 1⟩, 0, []⟩

def events (log : List AgentAuditLog) (id : Nat) : List EventType :=
  (log.filter (·.agentId = id)).map (·.eventType)

/-- The events of an agent that is online or not: they alternate, beginning with
`offline`, and the last one tells which. -/
structure Trail (events : List EventType) (online : Bool) : Prop where
  first : ∀ e ∈ events.head?, e = .offline
  alternates : events.IsChain (· ≠ ·)
  last : online = false ↔ events.getLast? = some .offline

theorem Trail.nil : Trail [] true where
  first := by simp
  alternates := .nil
  last := by simp

theorem Trail.markOffline {es : List EventType} (trail : Trail es true) :
    Trail (es ++ [.offline]) false where
  first e member := by
    cases es with
    | nil => simpa using member.symm
    | cons x rest => exact trail.first e member
  alternates := by
    rw [List.isChain_append]
    refine ⟨trail.alternates, .singleton _, ?_⟩
    intro x last y next
    have other : es.getLast? ≠ some .offline := fun same => Bool.noConfusion (trail.last.mpr same)
    rintro rfl
    simp only [List.head?_cons, Option.mem_some_iff] at next
    exact other (next ▸ last)
  last := by simp

theorem Trail.recover {es : List EventType} (trail : Trail es false) :
    Trail (es ++ [.online]) true where
  first e member := by
    cases es with
    | nil => exact absurd (trail.last.mp rfl) (by simp)
    | cons x rest => exact trail.first e member
  alternates := by
    rw [List.isChain_append]
    refine ⟨trail.alternates, .singleton _, ?_⟩
    intro x last y next
    have offline := trail.last.mp rfl
    rw [offline] at last
    simp only [List.head?_cons, Option.mem_some_iff] at last next
    rw [← last, ← next]
    exact EventType.noConfusion
  last := by simp

theorem events_append (log : List AgentAuditLog) (row : AgentAuditLog) (id : Nat) :
    events (log ++ [row]) id =
      if row.agentId = id then events log id ++ [row.eventType] else events log id := by
  rw [events, List.filter_append, List.map_append]
  by_cases same : row.agentId = id
  · simp [events, same]
  · simp [events, same]

def lastMark (marks : List (Nat × Int)) (id : Nat) : Option Int :=
  (marks.filter (·.1 = id)).getLast?.map (·.2)

theorem lastMark_append (marks : List (Nat × Int)) (id other : Nat) (t : Int) :
    lastMark (marks ++ [(id, t)]) other = if id = other then some t else lastMark marks other := by
  rw [lastMark, List.filter_append]
  by_cases same : id = other
  · simp [same]
  · simp [lastMark, same]

/-- What the flag of an agent is backed by: its trail, and the scan that cleared it. -/
structure Backed (timeoutSec clock : Int) (log : List AgentAuditLog) (marks : List (Nat × Int))
    (a : AgentInfo) : Prop where
  trail : Trail (events log a.id) a.online
  marked : a.online = false →
    ∃ t, lastMark marks a.id = some t ∧ a.lastHb < t - interval timeoutSec ∧ t ≤ clock

structure Inv (timeoutSec clock : Int) (marks : List (Nat × Int)) (s : Store) : Prop where
  ids : (s.agents.map (·.id)).Nodup
  ips : (s.agents.map (·.ipAddr)).Nodup
  numbered : ∀ a ∈ s.agents, a.id < s.nextId
  logged : ∀ row ∈ s.log, row.agentId < s.nextId
  backed : ∀ a ∈ s.agents, Backed timeoutSec clock s.log marks a

section steps
variable {timeoutSec clock clock' : Int} {marks marks' : List (Nat × Int)} {s : Store}

theorem Backed.congr {log log' : List AgentAuditLog} {a : AgentInfo}
    (backed : Backed timeoutSec clock log marks a) (later : clock ≤ clock')
    (sameEvents : events log' a.id = events log a.id)
    (sameMark : lastMark marks' a.id = lastMark marks a.id) :
    Backed timeoutSec clock' log' marks' a where
  trail := sameEvents ▸ backed.trail
  marked off := by
    obtain ⟨t, mark, old, before⟩ := backed.marked off
    exact ⟨t, sameMark.trans mark, old, before.trans later⟩

theorem Inv.later (inv : Inv timeoutSec clock marks s) (later : clock ≤ clock') :
    Inv timeoutSec clock' marks s :=
  { inv with backed := fun a member => (inv.backed a member).congr later rfl rfl }

theorem Inv.events_unknown (inv : Inv timeoutSec clock marks s) : events s.log s.nextId = [] := by
  rw [events, List.map_eq_nil_iff, List.filter_eq_nil_iff]
  intro row member same
  have known := inv.logged row member
  have equal : row.agentId = s.nextId := of_decide_eq_true same
  omega

theorem Inv.eq_of_id (inv : Inv timeoutSec clock marks s) {a b : AgentInfo} (here : a ∈ s.agents)
    (there : b ∈ s.agents) (same : a.id = b.id) : a = b :=
  List.inj_on_of_nodup_map inv.ids here there same

theorem Inv.map (inv : Inv timeoutSec clock marks s) {f : AgentInfo → AgentInfo}
    {log : List AgentAuditLog} {nextId : Nat} (sameId : ∀ a ∈ s.agents, (f a).id = a.id)
    (sameIp : ∀ a ∈ s.agents, (f a).ipAddr = a.ipAddr)
    (grown : s.nextId ≤ nextId) (logged : ∀ row ∈ log, row.agentId < nextId)
    (backed : ∀ a ∈ s.agents, Backed timeoutSec clock' log marks' (f a)) :
    Inv timeoutSec clock' marks' ⟨s.agents.map f, log, nextId⟩ where
  ids := by
    rw [List.map_map]
    exact (List.map_congr_left sameId) ▸ inv.ids
  ips := by
    rw [List.map_map]
    exact (List.map_congr_left sameIp) ▸ inv.ips
  numbered a member := by
    obtain ⟨before, there, rfl⟩ := List.mem_map.mp member
    rw [sameId before there]
    exact (inv.numbered before there).trans_le grown
  logged := logged
  backed a member := by
    obtain ⟨before, there, rfl⟩ := List.mem_map.mp member
    exact backed before there

theorem Inv.logged_append (inv : Inv timeoutSec clock marks s) {row : AgentAuditLog}
    (known : row.agentId < s.nextId) : ∀ other ∈ s.log ++ [row], other.agentId < s.nextId := by
  intro other member
  rcases List.mem_append.mp member with old | new
  · exact inv.logged other old
  · rw [List.mem_singleton.mp new]
    exact known

theorem Inv.markOffline (inv : Inv timeoutSec clock marks s) {agent : AgentInfo}
    (here : agent ∈ s.agents) (on : agent.online = true) {t : Int}
    (old : agent.lastHb < t - interval timeoutSec) (reached : clock ≤ t) (now : Int) :
    Inv timeoutSec t (marks ++ [(agent.id, t)]) (markOffline timeoutSec now agent.id s) := by
  apply inv.map
  · intro a _
    split_ifs <;> rfl
  · intro a _
    split_ifs <;> rfl
  · exact le_rfl
  · exact inv.logged_append (inv.numbered agent here)
  intro a member
  by_cases same : a.id = agent.id
  · have equal := inv.eq_of_id member here same
    subst equal
    rw [if_pos rfl]
    constructor
    · rw [events_append, if_pos rfl]
      exact (on ▸ (inv.backed a member).trail).markOffline
    · intro _
      exact ⟨t, by rw [lastMark_append, if_pos rfl], old, le_rfl⟩
  · have other : agent.id ≠ a.id := fun eq => same eq.symm
    rw [if_neg same]
    apply (inv.backed a member).congr reached
    · rw [events_append, if_neg other]
    · rw [lastMark_append, if_neg other]

theorem Inv.forAgents (inv : Inv timeoutSec clock marks s) {ids : List Nat} {t : Int}
    (distinct : ids.Nodup) (stale : ∀ id ∈ ids, ∃ a ∈ s.agents, a.id = id ∧ a.online = true ∧
      a.lastHb < t - interval timeoutSec) (reached : clock ≤ t) (now : Nat → Int) (k : Nat) :
    Inv timeoutSec t (marks ++ ids.map (·, t))
      (forAgents (AgentAudit.markOffline timeoutSec) now k ids s) := by
  induction ids generalizing s marks k clock with
  | nil => simpa [AgentAudit.forAgents] using inv.later reached
  | cons id ids ih =>
    obtain ⟨agent, here, rfl, on, old⟩ := stale id List.mem_cons_self
    have first := inv.markOffline here on old reached (now (k + 1))
    have rest := ih first (List.nodup_cons.mp distinct).2 ?_ le_rfl (k + 2)
    · simpa [AgentAudit.forAgents] using rest
    intro other member
    obtain ⟨a, there, rfl, on, old⟩ := stale other (List.mem_cons_of_mem _ member)
    have apart : a.id ≠ agent.id := fun eq => (List.nodup_cons.mp distinct).1 (eq ▸ member)
    exact ⟨a, List.mem_map.mpr ⟨a, there, if_neg apart⟩, rfl, on, old⟩

theorem Inv.firstLoop (inv : Inv timeoutSec clock marks s) {now : Nat → Int}
    (reached : clock ≤ now 0) :
    Inv timeoutSec (now 0) (marks ++ (staleAgents timeoutSec (now 0) s).map (·, now 0))
      (firstLoop timeoutSec now s).1 := by
  apply inv.forAgents _ _ reached
  · exact inv.ids.sublist (List.filter_sublist.map _)
  · intro id member
    obtain ⟨a, found, rfl⟩ := List.mem_map.mp member
    obtain ⟨here, stale⟩ := List.mem_filter.mp found
    have both := of_decide_eq_true stale
    exact ⟨a, here, rfl, both.1, both.2⟩

theorem Inv.returnedAgents (inv : Inv timeoutSec clock marks s) {now : Int} (later : clock ≤ now) :
    returnedAgents timeoutSec now s = [] := by
  rw [AgentAudit.returnedAgents, List.map_eq_nil_iff, List.filter_eq_nil_iff]
  intro a member found
  obtain ⟨off, recent⟩ := of_decide_eq_true found
  obtain ⟨t, _, old, before⟩ := (inv.backed a member).marked off
  omega

theorem Inv.secondQuery (inv : Inv timeoutSec clock marks s) {now : Nat → Int}
    (ordered : Monotone now) (reached : clock ≤ now 0) : secondQuery timeoutSec now s = [] :=
  (inv.firstLoop reached).returnedAgents (ordered (Nat.zero_le _))

theorem Inv.insertAgent (inv : Inv timeoutSec clock marks s) {row : AgentInfo}
    (number : row.id = s.nextId) (on : row.online = true) (later : clock ≤ clock')
    (new : ∀ a ∈ s.agents, a.ipAddr ≠ row.ipAddr) :
    Inv timeoutSec clock' marks ⟨s.agents ++ [row], s.log, s.nextId + 1⟩ where
  ids := by
    rw [List.map_append, List.map_singleton]
    refine inv.ids.append (List.nodup_singleton _) (List.disjoint_singleton.mpr fun member => ?_)
    obtain ⟨a, here, same⟩ := List.mem_map.mp member
    have known := inv.numbered a here
    omega
  ips := by
    rw [List.map_append, List.map_singleton]
    refine inv.ips.append (List.nodup_singleton _) (List.disjoint_singleton.mpr fun member => ?_)
    obtain ⟨a, here, same⟩ := List.mem_map.mp member
    exact new a here same
  numbered a member := by
    rcases List.mem_append.mp member with old | added
    · exact (inv.numbered a old).trans (Nat.lt_succ_self _)
    · rw [List.mem_singleton.mp added, number]
      exact Nat.lt_succ_self _
  logged other member := (inv.logged other member).trans (Nat.lt_succ_self _)
  backed a member := by
    rcases List.mem_append.mp member with old | added
    · exact (inv.backed a old).congr later rfl rfl
    · rw [List.mem_singleton.mp added]
      constructor
      · rw [number, inv.events_unknown, on]
        exact .nil
      · intro off
        rw [on] at off
        exact absurd off.symm Bool.false_ne_true

theorem Inv.updateAgent (inv : Inv timeoutSec clock marks s) {agent : AgentInfo} (row : AgentInfo)
    (here : agent ∈ s.agents) (address : agent.ipAddr = row.ipAddr) (on : row.online = true)
    (later : clock ≤ clock') {log : List AgentAuditLog}
    (logged : ∀ other ∈ log, other.agentId < s.nextId)
    (trail : Trail (events log agent.id) true)
    (others : ∀ id, id ≠ agent.id → events log id = events s.log id) :
    Inv timeoutSec clock' marks
      ⟨s.agents.map fun a => if a.ipAddr = row.ipAddr then { row with id := a.id } else a, log,
        s.nextId + 1⟩ := by
  apply inv.map
  · intro a _
    split_ifs <;> rfl
  · intro a _
    split_ifs with same
    · exact same.symm
    · rfl
  · exact Nat.le_succ _
  · exact fun other member => (logged other member).trans (Nat.lt_succ_self _)
  intro a member
  split_ifs with same
  · rw [List.inj_on_of_nodup_map inv.ips member here (same.trans address.symm)]
    constructor
    · rw [on]
      exact trail
    · intro off
      exact absurd (off.symm.trans on) Bool.false_ne_true
  · have apart : a.id ≠ agent.id := by
      intro eq
      rw [inv.eq_of_id member here eq] at same
      exact same address
    exact (inv.backed a member).congr later (others a.id apart) rfl

theorem Inv.upsertAgent (inv : Inv timeoutSec clock marks s) {now : Nat → Int}
    (later : clock ≤ clock') (ip hostname uid version : String) :
    Inv timeoutSec clock' marks (upsertAgent now ip hostname uid version s) := by
  cases found : s.agents.find? (·.ipAddr = cStr ip) with
  | none =>
    simp only [AgentAudit.upsertAgent, found]
    apply inv.insertAgent rfl rfl later
    intro a member same
    exact List.find?_eq_none.mp found a member (decide_eq_true same)
  | some agent =>
    have here := List.mem_of_find?_eq_some found
    have address : agent.ipAddr = cStr ip := by simpa using List.find?_some found
    have trail := (inv.backed agent here).trail
    let row : AgentInfo := ⟨s.nextId, cStr hostname, cStr ip, true, cStr uid, cStr version, now 1⟩
    simp only [AgentAudit.upsertAgent, found]
    split_ifs with on
    · rw [on] at trail
      exact inv.updateAgent row here address rfl later inv.logged trail fun _ _ => rfl
    · have off : agent.online = false := Bool.eq_false_iff.mpr on
      rw [off] at trail
      apply inv.updateAgent row here address rfl later
      · exact inv.logged_append (inv.numbered agent here)
      · rw [events_append, if_pos rfl]
        exact trail.recover
      · intro id apart
        rw [events_append, if_neg fun eq => apart eq.symm]

end steps

theorem inv_initial (timeoutSec : Int) :
    Inv timeoutSec initial.clock initial.marks initial.store where
  ids := .nil
  ips := .nil
  numbered := by simp [initial]
  logged := by simp [initial]
  backed := by simp [initial]

theorem Inv.next {timeoutSec : Int} {w : World} {a : Action}
    (inv : Inv timeoutSec w.clock w.marks w.store) (ordered : Ordered w a) :
    Inv timeoutSec (next timeoutSec w a).clock (next timeoutSec w a).marks
      (next timeoutSec w a).store := by
  obtain ⟨increasing, reached⟩ := ordered
  cases a with
  | upsertAgent now ip hostname uid version =>
    exact inv.upsertAgent (reached.trans (increasing (Nat.zero_le 2))) ip hostname uid version
  | scanAgentHeartbeats now =>
    have nobody : AgentAudit.secondQuery timeoutSec now w.store = [] :=
      inv.secondQuery increasing reached
    have unchanged : scanAgentHeartbeats timeoutSec now w.store =
        (AgentAudit.firstLoop timeoutSec now w.store).1 := by
      rw [scanAgentHeartbeats, nobody]
      rfl
    simp only [AgentAudit.next, unchanged]
    exact (inv.firstLoop reached).later (increasing (Nat.zero_le _))

/-- After any sequence of heartbeats, registrations and scans, the log and the flag of every
agent agree, an agent is offline only if it was silent for the whole timeout before the
scan that marked it, and the second query of a scan finds nobody. -/
theorem audit_log_follows_online {timeoutSec : Int} {w : World}
    (run : Reaches (step timeoutSec) Ordered initial w) :
    (∀ a ∈ w.store.agents, Trail (events w.store.log a.id) a.online ∧
      (a.online = false → ∃ t, lastMark w.marks a.id = some t ∧
        a.lastHb < t - interval timeoutSec)) ∧
      ∀ now, Ordered w (.scanAgentHeartbeats now) → secondQuery timeoutSec now w.store = [] := by
  have inv : Inv timeoutSec w.clock w.marks w.store :=
    run.invariant (fun w => Inv timeoutSec w.clock w.marks w.store)
      (fun _ _ _ inv ordered done => Option.some.inj done ▸ inv.next ordered)
      (inv_initial timeoutSec)
  constructor
  · intro a member
    obtain ⟨trail, marked⟩ := inv.backed a member
    refine ⟨trail, fun off => ?_⟩
    obtain ⟨t, mark, old, _⟩ := marked off
    exact ⟨t, mark, old⟩
  · intro now ordered
    exact inv.secondQuery ordered.1 ordered.2

def heartbeatAt (t : Int) : Action := .upsertAgent (fun _ => t) "10.0.0.1" "host" "" "1.0"

def scanAt (t : Int) : Action := .scanAgentHeartbeats fun _ => t

def afterSilence : World :=
  next 30 (next 30 (next 30 initial (heartbeatAt 0)) (scanAt 40000000)) (heartbeatAt 50000000)

theorem audit_log_follows_online_afterSilence :
    Reaches (step 30) Ordered initial afterSilence ∧
      ∀ a ∈ afterSilence.store.agents, Trail (events afterSilence.store.log a.id) a.online := by
  have run : Reaches (step 30) Ordered initial afterSilence := by
    refine .tail (.tail (.tail .refl ⟨heartbeatAt 0, ⟨monotone_const, ?_⟩, rfl⟩)
      ⟨scanAt 40000000, ⟨monotone_const, ?_⟩, rfl⟩)
      ⟨heartbeatAt 50000000, ⟨monotone_const, ?_⟩, rfl⟩
    all_goals decide
  exact ⟨run, fun a member => ((audit_log_follows_online run).1 a member).1⟩

end DropPlatform.AgentAudit
