import DropPlatform.AgentAudit
import DropPlatform.KeyedStores

/-! Who is online, in two places. `drop_server` keeps the time of the last heartbeat of each
address in memory, and the rows of `agent_info` with their flags; `StatAgent` answers from the
table if there is a connection, and from memory if not. A heartbeat writes first the one and then
the other, and anything may happen in between; a registration writes only the table. The two
clocks are taken for one. -/

namespace DropPlatform.AgentPresence
open TransitionRuns TaskStore KeyedStores AgentAudit

section model

abbrev Tracker := Keyed String Int

/-- Whole seconds since the last heartbeat are compared with the timeout. -/
def recent (timeoutSec now last : Int) : Bool := (now - last).tdiv 1000000 < timeoutSec

structure HealthCheckRequest where
  ipAddr : String
  hostName : String
  uid : String
  agentVersion : String
deriving DecidableEq, Repr

structure State where
  tracker : Tracker
  audit : World
  /-- The calls of `Do` that have updated the tracker and not yet the table. -/
  pending : List HealthCheckRequest
  /-- When the last scan began. -/
  scanned : Option Int

inductive Action
  | update (now : Int) (request : HealthCheckRequest)
  | upsert (i : Nat) (now : Nat → Int)
  | registerAgent (now : Nat → Int) (request : HealthCheckRequest)
  | scan (now : Nat → Int)

def HealthCheckRequest.upsert (request : HealthCheckRequest) (now : Nat → Int) : AgentAudit.Action :=
  .upsertAgent now request.ipAddr request.hostName request.uid request.agentVersion

def step (timeoutSec : Int) (s : State) : Action → Option State
  | .update now request => some { s with
      tracker := set s.tracker request.ipAddr now
      audit := { s.audit with clock := now }
      pending := s.pending ++ [request] }
  | .upsert i now => s.pending[i]?.map fun request => { s with
      audit := next timeoutSec s.audit (request.upsert now)
      pending := s.pending.eraseIdx i }
  | .registerAgent now request => some { s with
      audit := next timeoutSec s.audit (request.upsert now) }
  | .scan now => some { s with
      audit := next timeoutSec s.audit (.scanAgentHeartbeats now)
      scanned := some (now 0) }

def Ordered (s : State) : Action → Prop
  | .update now _ => s.audit.clock ≤ now
  | .upsert _ now | .registerAgent now _ | .scan now => Monotone now ∧ s.audit.clock ≤ now 0

def start : State := ⟨[], initial, [], none⟩

end model

section table
variable {now : Nat → Int} {ip hostname uid version : String} {s : Store} {a : AgentInfo}

theorem agents_upsertAgent : (upsertAgent now ip hostname uid version s).agents =
    if ∃ a ∈ s.agents, a.ipAddr = cStr ip then
      s.agents.map fun a => if a.ipAddr = cStr ip then
        ⟨a.id, cStr hostname, cStr ip, true, cStr uid, cStr version, now 1⟩ else a
    else s.agents ++ [⟨s.nextId, cStr hostname, cStr ip, true, cStr uid, cStr version, now 1⟩] := by
  cases found : s.agents.find? (·.ipAddr = cStr ip) with
  | none =>
    have absent : ¬ ∃ a ∈ s.agents, a.ipAddr = cStr ip := by simpa using found
    simp only [upsertAgent, found, if_neg absent]
  | some agent =>
    have here : ∃ a ∈ s.agents, a.ipAddr = cStr ip :=
      ⟨agent, List.mem_of_find?_eq_some found, by simpa using List.find?_some found⟩
    simp only [upsertAgent, found, if_pos here]
    split_ifs <;> rfl

theorem mem_upsertAgent (member : a ∈ (upsertAgent now ip hostname uid version s).agents) :
    a ∈ s.agents ∧ a.ipAddr ≠ cStr ip ∨
      a.ipAddr = cStr ip ∧ a.online = true ∧ a.lastHb = now 1 := by
  rw [agents_upsertAgent] at member
  split_ifs at member with known
  · obtain ⟨b, there, rfl⟩ := List.mem_map.mp member
    by_cases same : b.ipAddr = cStr ip
    · rw [if_pos same]
      exact .inr ⟨rfl, rfl, rfl⟩
    · rw [if_neg same]
      exact .inl ⟨there, same⟩
  · rcases List.mem_append.mp member with old | new
    · exact .inl ⟨old, fun same => known ⟨a, old, same⟩⟩
    · rw [List.mem_singleton.mp new]
      exact .inr ⟨rfl, rfl, rfl⟩

theorem kept_upsertAgent (member : a ∈ s.agents) (other : a.ipAddr ≠ cStr ip) :
    a ∈ (upsertAgent now ip hostname uid version s).agents := by
  rw [agents_upsertAgent]
  split_ifs
  · exact List.mem_map.mpr ⟨a, member, if_neg other⟩
  · exact List.mem_append_left _ member

theorem exists_upserted : ∃ a ∈ (upsertAgent now ip hostname uid version s).agents,
    a.ipAddr = cStr ip ∧ a.lastHb = now 1 := by
  rw [agents_upsertAgent]
  split_ifs with known
  · obtain ⟨b, there, same⟩ := known
    exact ⟨_, List.mem_map.mpr ⟨b, there, if_pos same⟩, rfl, rfl⟩
  · exact ⟨_, List.mem_append_right _ List.mem_cons_self, rfl, rfl⟩

theorem agents_forAgents (timeoutSec : Int) (k : Nat) (ids : List Nat) :
    (forAgents (markOffline timeoutSec) now k ids s).agents =
      s.agents.map fun a => if a.id ∈ ids then { a with online := false } else a := by
  induction ids generalizing s k with
  | nil => simp [forAgents]
  | cons id ids ih =>
    rw [forAgents, ih, markOffline, writeEvent, List.map_map]
    refine List.map_congr_left fun a _ => ?_
    by_cases here : a.id = id
    · by_cases later : id ∈ ids <;> simp [here, later]
    · by_cases later : a.id ∈ ids <;> simp [here, later]

theorem agents_firstLoop {timeoutSec : Int} : (firstLoop timeoutSec now s).1.agents =
    s.agents.map fun a => if a.id ∈ staleAgents timeoutSec (now 0) s then { a with online := false }
      else a :=
  agents_forAgents timeoutSec 1 _

end table

section runs
variable {timeoutSec : Int} {s t : State} {a : Action}

structure Inv (timeoutSec : Int) (s : State) : Prop where
  audit : AgentAudit.Inv timeoutSec s.audit.clock s.audit.marks s.audit.store
  distinct : (s.tracker.map Prod.fst).Nodup
  past : ∀ entry ∈ s.tracker, entry.2 ≤ s.audit.clock
  /-- What memory knows the table knows, or a heartbeat is about to write it. -/
  covered : ∀ entry ∈ s.tracker, (∃ request ∈ s.pending, request.ipAddr = entry.1) ∨
    ∃ row ∈ s.audit.store.agents, row.ipAddr = cStr entry.1 ∧ entry.2 ≤ row.lastHb
  begun : ∀ t ∈ s.scanned, t ≤ s.audit.clock
  fresh : ∀ row ∈ s.audit.store.agents, row.online = true →
    ∀ t ∈ s.scanned, t - interval timeoutSec ≤ row.lastHb

theorem inv_start : Inv timeoutSec start where
  audit := inv_initial timeoutSec
  distinct := .nil
  past := by simp [start]
  covered := by simp [start]
  begun := by simp [start]
  fresh := by simp [start, initial]

theorem Inv.update (inv : Inv timeoutSec s) {now : Int} (later : s.audit.clock ≤ now)
    (request : HealthCheckRequest) : Inv timeoutSec
      ⟨set s.tracker request.ipAddr now, { s.audit with clock := now }, s.pending ++ [request],
        s.scanned⟩ where
  audit := inv.audit.later later
  distinct := nodup_keys_set inv.distinct _ _
  past entry member := by
    rcases (mem_set_iff inv.distinct).mp member with ⟨_, new⟩ | ⟨_, old⟩
    · exact new.le
    · exact (inv.past entry old).trans later
  covered entry member := by
    rcases (mem_set_iff inv.distinct).mp member with ⟨same, _⟩ | ⟨_, old⟩
    · exact .inl ⟨request, List.mem_append_right _ List.mem_cons_self, same.symm⟩
    · refine (inv.covered entry old).imp_left ?_
      rintro ⟨waiting, there, address⟩
      exact ⟨waiting, List.mem_append_left _ there, address⟩
  begun t begun := (inv.begun t begun).trans later
  fresh := inv.fresh

theorem Inv.upsert (inv : Inv timeoutSec s) (nonneg : 0 ≤ timeoutSec) {now : Nat → Int}
    (ordered : Monotone now) (later : s.audit.clock ≤ now 0) (request : HealthCheckRequest)
    {pending : List HealthCheckRequest}
    (others : ∀ r ∈ s.pending, r ∈ pending ∨ r = request) : Inv timeoutSec
      { s with audit := next timeoutSec s.audit (request.upsert now), pending } := by
  have written : s.audit.clock ≤ now 1 := later.trans (ordered (Nat.zero_le 1))
  have reached : s.audit.clock ≤ now 2 := later.trans (ordered (Nat.zero_le 2))
  refine ⟨inv.audit.next ⟨ordered, later⟩, inv.distinct, fun entry member =>
    (inv.past entry member).trans reached, ?_, fun t begun => (inv.begun t begun).trans reached, ?_⟩
  · intro entry member
    obtain ⟨row, there, address, time⟩ :
        ∃ row ∈ (next timeoutSec s.audit (request.upsert now)).store.agents,
          row.ipAddr = cStr request.ipAddr ∧ row.lastHb = now 1 := exists_upserted
    have heard : entry.2 ≤ row.lastHb := by
      rw [time]
      exact (inv.past entry member).trans written
    rcases inv.covered entry member with ⟨r, waiting, same⟩ | ⟨known, here, same, before⟩
    · rcases others r waiting with still | rfl
      · exact .inl ⟨r, still, same⟩
      · exact .inr ⟨row, there, by rw [address, same], heard⟩
    · right
      by_cases its : known.ipAddr = cStr request.ipAddr
      · exact ⟨row, there, by rw [address, ← its, same], heard⟩
      · exact ⟨known, kept_upsertAgent here its, same, before⟩
  · intro row member on t begun
    rcases mem_upsertAgent member with ⟨old, _⟩ | ⟨_, _, time⟩
    · exact inv.fresh row old on t begun
    · have past := inv.begun t begun
      rw [time, interval]
      omega

theorem Inv.scan (inv : Inv timeoutSec s) {now : Nat → Int} (ordered : Monotone now)
    (later : s.audit.clock ≤ now 0) : Inv timeoutSec
      { s with audit := next timeoutSec s.audit (.scanAgentHeartbeats now), scanned := some (now 0) } := by
  have scanned : (scanAgentHeartbeats timeoutSec now s.audit.store).agents =
      (firstLoop timeoutSec now s.audit.store).1.agents := by
    rw [scanAgentHeartbeats, inv.audit.secondQuery ordered later]
    rfl
  have kept : ∀ row ∈ s.audit.store.agents, ∃ row' ∈
      (scanAgentHeartbeats timeoutSec now s.audit.store).agents,
        row'.ipAddr = row.ipAddr ∧ row'.lastHb = row.lastHb := by
    intro row member
    rw [scanned, agents_firstLoop]
    refine ⟨_, List.mem_map.mpr ⟨row, member, rfl⟩, ?_⟩
    split_ifs <;> exact ⟨rfl, rfl⟩
  refine ⟨inv.audit.next ⟨ordered, later⟩, inv.distinct, fun entry member =>
    (inv.past entry member).trans (later.trans (ordered (Nat.zero_le _))), ?_, ?_, ?_⟩
  · intro entry member
    refine (inv.covered entry member).imp_right ?_
    rintro ⟨row, here, same, before⟩
    obtain ⟨row', there, address, time⟩ := kept row here
    exact ⟨row', there, address.trans same, time ▸ before⟩
  · intro t begun
    rw [← Option.some.inj begun]
    exact ordered (Nat.zero_le _)
  · intro row member on t begun
    obtain rfl := Option.some.inj begun
    have listed : row ∈ (firstLoop timeoutSec now s.audit.store).1.agents := scanned ▸ member
    rw [agents_firstLoop] at listed
    obtain ⟨before, here, rfl⟩ := List.mem_map.mp listed
    by_cases stale : before.id ∈ staleAgents timeoutSec (now 0) s.audit.store
    · rw [if_pos stale] at on
      exact absurd on Bool.false_ne_true
    · rw [if_neg stale] at on ⊢
      by_contra old
      refine stale (List.mem_map.mpr ⟨before, List.mem_filter.mpr ⟨here, decide_eq_true ⟨on, ?_⟩⟩, rfl⟩)
      omega

theorem Inv.step (inv : Inv timeoutSec s) (nonneg : 0 ≤ timeoutSec) (ordered : Ordered s a)
    (done : step timeoutSec s a = some t) : Inv timeoutSec t := by
  cases a with
  | update now request =>
    obtain rfl := Option.some.inj done
    exact inv.update ordered request
  | upsert i now =>
    obtain ⟨request, found, rfl⟩ := Option.map_eq_some_iff.mp done
    refine inv.upsert nonneg ordered.1 ordered.2 request fun r member => ?_
    obtain ⟨j, there⟩ := List.mem_iff_getElem?.mp member
    by_cases same : j = i
    · exact .inr (Option.some.inj (there.symm.trans (same ▸ found)))
    · exact .inl (List.mem_eraseIdx_iff_getElem?.mpr ⟨j, same, there⟩)
  | registerAgent now request =>
    obtain rfl := Option.some.inj done
    exact inv.upsert nonneg ordered.1 ordered.2 request fun r member => .inl member
  | scan now =>
    obtain rfl := Option.some.inj done
    exact inv.scan ordered.1 ordered.2

theorem inv_of_reaches (nonneg : 0 ≤ timeoutSec) (run : Reaches (AgentPresence.step timeoutSec) Ordered start s) :
    Inv timeoutSec s :=
  run.invariant (Inv timeoutSec)
    (fun _ _ _ inv ordered done => inv.step nonneg ordered done) inv_start

def request : HealthCheckRequest := ⟨"10.0.0.1", "host", "", "1.0"⟩

end runs

end DropPlatform.AgentPresence
