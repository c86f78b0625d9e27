import DropPlatform.TextLines
import Mathlib.Data.List.DropRight

/-! The agent's `ServerPool` and the heartbeats that drive it. `Init` reads the server
addresses from a flag; `HeartbeatThread` sends its heartbeats to the current one and moves
on to the next after three failures in a row. Only `HeartbeatThread` changes the pool once
`Init` has returned; the worker threads ask it for the channel. -/

namespace DropPlatform.ServerPool
open TextLines

def comma : UInt8 := 44
def space : UInt8 := 32

structure Pool where
  addrs : List Bytes
  currentIdx : Nat
  /-- The address that the channel was created for. -/
  channel : Option Bytes
deriving DecidableEq, Repr

/-- The two loops of `Init` over one item. -/
def trim (addr : Bytes) : Bytes := (addr.dropWhile (· = space)).rdropWhile (· = space)

def defaultAddr : Bytes := [49, 50, 55, 46, 48, 46, 48, 46, 49, 58, 53, 48, 48, 53, 49]

def Pool.connect (pool : Pool) (idx : Nat) : Pool :=
  let currentIdx := idx % pool.addrs.length
  { pool with currentIdx, channel := pool.addrs[currentIdx]? }

def Pool.init (pool : Pool) (addrList : Bytes) : Pool :=
  let addrs := pool.addrs ++ ((lines comma addrList).map trim).filter (· ≠ [])
  { pool with addrs := if addrs = [] then [defaultAddr] else addrs }.connect 0

def Pool.failover (pool : Pool) : Pool :=
  pool.connect ((pool.currentIdx + 1) % pool.addrs.length)

/-- The local variables of `HeartbeatThread`, and the pool. With a single server the counter
only grows and nothing reads it. -/
structure HeartbeatThread where
  pool : Pool
  registered : Bool
  consecutiveFailures : Nat
deriving DecidableEq, Repr

/-- How the RPCs of one pass through the loop end; `registerOk` tells how `RegisterAgent`
ends if it is called. -/
inductive Outcome
  | failed
  | answered (registerOk : Bool)
deriving DecidableEq, Repr

structure Pass where
  index : Nat
  target : Option Bytes
  failed : Bool
  failedOver : Bool
  registerAgent : Option Bool
deriving DecidableEq, Repr

def failoverThreshold : Nat := 3

def pass (t : HeartbeatThread) : Outcome → HeartbeatThread × Pass
  | .failed =>
    let failures := t.consecutiveFailures + 1
    if failures ≥ failoverThreshold ∧ t.pool.addrs.length > 1 then
      (⟨t.pool.failover, false, 0⟩, ⟨t.pool.currentIdx, t.pool.channel, true, true, none⟩)
    else
      ({ t with consecutiveFailures := failures },
        ⟨t.pool.currentIdx, t.pool.channel, true, false, none⟩)
  | .answered registerOk =>
    if t.registered then
      ({ t with consecutiveFailures := 0 },
        ⟨t.pool.currentIdx, t.pool.channel, false, false, none⟩)
    else
      (⟨t.pool, registerOk, 0⟩,
        ⟨t.pool.currentIdx, t.pool.channel, false, false, some registerOk⟩)

def heartbeats (t : HeartbeatThread) : List Outcome → HeartbeatThread × List Pass
  | [] => (t, [])
  | o :: rest =>
    let (next, done) := pass t o
    let (last, passes) := heartbeats next rest
    (last, done :: passes)

def start (addrList : Bytes) : HeartbeatThread := ⟨Pool.init ⟨[], 0, none⟩ addrList, false, 0⟩

section trimming

/-- `addr` is what is left of `item` without the spaces around it. -/
def Trimmed (item addr : Bytes) : Prop :=
  (∃ before behind, item = List.replicate before space ++ addr ++ List.replicate behind space) ∧
    addr.head? ≠ some space ∧ addr.getLast? ≠ some space

theorem eq_replicate_of_forall {l : Bytes} (all : ∀ b ∈ l, decide (b = space)) :
    l = List.replicate l.length space :=
  List.eq_replicate_iff.mpr ⟨rfl, fun b member => of_decide_eq_true (all b member)⟩

theorem trimmed_trim (item : Bytes) : Trimmed item (trim item) := by
  have front := List.takeWhile_append_dropWhile (p := (· = space)) (l := item)
  have back := List.rdropWhile_append_rtakeWhile (p := (· = space))
    (l := item.dropWhile (· = space))
  refine ⟨⟨(item.takeWhile (· = space)).length,
    ((item.dropWhile (· = space)).rtakeWhile (· = space)).length, ?_⟩, ?_, ?_⟩
  · rw [← eq_replicate_of_forall fun b => List.mem_takeWhile_imp,
      ← eq_replicate_of_forall fun b => List.mem_rtakeWhile_imp, List.append_assoc]
    exact (front.symm.trans (congrArg _ back.symm))
  · intro first
    obtain ⟨rest, whole⟩ := List.rdropWhile_prefix (· = space) (l := item.dropWhile (· = space))
    have kept := List.head?_dropWhile_not (· = space) item
    have same : (item.dropWhile (· = space)).head? = some space := by
      rw [← whole, List.head?_append_of_ne_nil]
      · exact first
      · intro none
        rw [trim, none] at first
        exact Option.some_ne_none _ first.symm
    rw [same] at kept
    exact absurd kept (by decide)
  · intro last
    have filled : trim item ≠ [] := by
      intro none
      rw [none] at last
      exact Option.some_ne_none _ last.symm
    have kept := List.rdropWhile_last_not (· = space) (item.dropWhile (· = space)) filled
    rw [List.getLast?_eq_getLast_of_ne_nil filled] at last
    exact kept (decide_eq_true (Option.some.inj last))

/-- The addresses that `Init` is to find: the items between commas without the spaces
around them, less those that are empty then; the default if there are none. -/
def Addresses (addrList : Bytes) (addrs : List Bytes) : Prop :=
  ∃ items, List.Forall₂ Trimmed (addrList.splitOn comma) items ∧
    addrs = if items.filter (· ≠ []) = [] then [defaultAddr] else items.filter (· ≠ [])

theorem addresses_init (addrList : Bytes) :
    Addresses addrList (Pool.init ⟨[], 0, none⟩ addrList).addrs := by
  refine ⟨(addrList.splitOn comma).map trim, ?_, ?_⟩
  · rw [List.forall₂_map_right_iff]
    exact List.forall₂_same.mpr fun item _ => trimmed_trim item
  · have same : ((addrList.splitOn comma).map trim).filter (· ≠ []) =
        ((lines comma addrList).map trim).filter (· ≠ []) := by
      rcases splitOn_eq_lines comma addrList with parts | parts <;> rw [parts]
      rw [List.map_append, List.filter_append]
      exact List.append_nil _
    rw [same]
    rfl

end trimming

section histories

def sinceReset (passes : List Pass) : Nat :=
  (passes.reverse.takeWhile fun p => p.failed && !p.failedOver).length

def failovers (passes : List Pass) : Nat := passes.countP (·.failedOver)

def sinceFailover (passes : List Pass) : List Pass :=
  passes.reverse.takeWhile fun p => !p.failedOver

variable (passes : List Pass) (p : Pass)

@[simp] theorem sinceReset_snoc : sinceReset (passes ++ [p]) =
    if p.failed && !p.failedOver then sinceReset passes + 1 else 0 := by
  simp only [sinceReset, List.reverse_append, List.reverse_singleton, List.singleton_append,
    List.takeWhile_cons]
  split_ifs <;> rfl

@[simp] theorem failovers_snoc : failovers (passes ++ [p]) =
    failovers passes + if p.failedOver then 1 else 0 := by
  simp [failovers, List.countP_append, List.countP_singleton]

@[simp] theorem sinceFailover_snoc : sinceFailover (passes ++ [p]) =
    if p.failedOver then [] else p :: sinceFailover passes := by
  simp only [sinceFailover, List.reverse_append, List.reverse_singleton, List.singleton_append,
    List.takeWhile_cons]
  cases p.failedOver <;> rfl

theorem sinceReset_eq_zero {passes : List Pass}
    (reset : ∀ p ∈ passes.getLast?, p.failed = false ∨ p.failedOver) : sinceReset passes = 0 := by
  rw [List.getLast?_eq_head?_reverse] at reset
  rw [sinceReset]
  cases latest : passes.reverse with
  | nil => rfl
  | cons p rest =>
    have last := reset p (by rw [latest]; rfl)
    rw [List.takeWhile_cons_of_neg]
    · rfl
    · rcases last with answered | moved
      · simp [answered]
      · simp [moved]

end histories

/-- What the thread's variables say about the passes it has made. -/
structure Inv (addrs : List Bytes) (t : HeartbeatThread) (passes : List Pass) : Prop where
  servers : t.pool.addrs = addrs
  inside : t.pool.currentIdx < addrs.length
  channel : t.pool.channel = addrs[t.pool.currentIdx]?
  counter : 1 < addrs.length → t.consecutiveFailures = sinceReset passes
  low : 1 < addrs.length → t.consecutiveFailures < failoverThreshold
  rotation : t.pool.currentIdx = failovers passes % addrs.length
  registered : t.registered → ∃ p ∈ sinceFailover passes,
    p.registerAgent = some true ∧ p.index = t.pool.currentIdx ∧ p.target = t.pool.channel

namespace Inv
variable {addrs : List Bytes} {t : HeartbeatThread} {passes : List Pass}

theorem failedOver_iff (inv : Inv addrs t passes) (many : 1 < addrs.length) (o : Outcome) :
    (pass t o).2.failedOver ↔ o = .failed ∧ sinceReset passes = 2 := by
  cases o with
  | failed =>
    have counter := inv.counter many
    have low := inv.low many
    simp only [pass, failoverThreshold, inv.servers] at low ⊢
    split_ifs with reached
    · simp only [true_and, true_iff]
      omega
    · simp only [true_and, false_iff]
      omega
  | answered registerOk =>
    simp only [pass]
    split_ifs <;> simp

theorem pass_failed (inv : Inv addrs t passes) :
    Inv addrs (pass t .failed).1 (passes ++ [(pass t .failed).2]) := by
  simp only [pass, inv.servers]
  split_ifs with reached
  · have bound : (t.pool.currentIdx + 1) % addrs.length % addrs.length < addrs.length :=
      Nat.mod_lt _ (by omega)
    constructor
    · exact inv.servers
    · simpa [Pool.failover, Pool.connect, inv.servers] using bound
    · simp [Pool.failover, Pool.connect, inv.servers]
    · simp
    · simp [failoverThreshold]
    · simp [Pool.failover, Pool.connect, inv.servers, inv.rotation]
    · simp
  · have few : 1 < addrs.length → t.consecutiveFailures + 1 < failoverThreshold := by
      intro many
      omega
    constructor
    · exact inv.servers
    · exact inv.inside
    · exact inv.channel
    · intro many
      simp [inv.counter many]
    · exact few
    · simpa using inv.rotation
    · intro on
      obtain ⟨p, member, found⟩ := inv.registered on
      exact ⟨p, by simp [member], found⟩

theorem pass_answered (inv : Inv addrs t passes) (registerOk : Bool) :
    Inv addrs (pass t (.answered registerOk)).1
      (passes ++ [(pass t (.answered registerOk)).2]) := by
  simp only [pass]
  split_ifs with on
  · constructor
    · exact inv.servers
    · exact inv.inside
    · exact inv.channel
    · simp
    · simp [failoverThreshold]
    · simpa using inv.rotation
    · intro _
      obtain ⟨p, member, found⟩ := inv.registered on
      exact ⟨p, by simp [member], found⟩
  · constructor
    · exact inv.servers
    · exact inv.inside
    · exact inv.channel
    · simp
    · simp [failoverThreshold]
    · simpa using inv.rotation
    · intro ok
      refine ⟨⟨t.pool.currentIdx, t.pool.channel, false, false, some registerOk⟩, ?_,
        congrArg some ok, rfl, rfl⟩
      simp

theorem pass (inv : Inv addrs t passes) (o : Outcome) :
    Inv addrs (pass t o).1 (passes ++ [(pass t o).2]) := by
  cases o with
  | failed => exact inv.pass_failed
  | answered registerOk => exact inv.pass_answered registerOk

theorem heartbeats (inv : Inv addrs t passes) (outcomes : List Outcome) :
    Inv addrs (heartbeats t outcomes).1 (passes ++ (heartbeats t outcomes).2) := by
  induction outcomes generalizing t passes with
  | nil => simpa [ServerPool.heartbeats] using inv
  | cons o rest ih => simpa [ServerPool.heartbeats] using ih (inv.pass o)

end Inv

theorem addrs_init_ne_nil (addrList : Bytes) : (Pool.init ⟨[], 0, none⟩ addrList).addrs ≠ [] := by
  simp only [Pool.init, Pool.connect]
  split_ifs with none
  · exact List.cons_ne_nil _ _
  · exact none

theorem inv_start (addrList : Bytes) :
    Inv (Pool.init ⟨[], 0, none⟩ addrList).addrs (start addrList) [] where
  servers := rfl
  inside := by
    have some := List.length_pos_iff.mpr (addrs_init_ne_nil addrList)
    simpa [start, Pool.init, Pool.connect] using some
  channel := by simp [start, Pool.init, Pool.connect]
  counter _ := rfl
  low _ := Nat.zero_lt_succ _
  rotation := by simp [start, Pool.init, Pool.connect, failovers]
  registered on := absurd on Bool.false_ne_true

section rotation

theorem count_rotation {n a i : Nat} (start : a < n) (bound : i < n) :
    ((List.range n).map fun j => (a + j) % n).count i = 1 := by
  apply List.count_eq_one_of_mem
  · apply List.Nodup.map_on _ List.nodup_range
    intro j below k under same
    have cancelled : j ≡ k [MOD n] := Nat.ModEq.add_left_cancel' a same
    exact cancelled.eq_of_lt_of_lt (List.mem_range.mp below) (List.mem_range.mp under)
  · rw [List.mem_map]
    by_cases ahead : a ≤ i
    · refine ⟨i - a, List.mem_range.mpr (by omega), ?_⟩
      rw [Nat.add_sub_cancel' ahead, Nat.mod_eq_of_lt bound]
    · refine ⟨i + n - a, List.mem_range.mpr (by omega), ?_⟩
      rw [Nat.add_sub_cancel' (by omega), Nat.add_mod_right, Nat.mod_eq_of_lt bound]

theorem count_flatMap_replicate (l : List Nat) (m i : Nat) :
    (l.flatMap (List.replicate m)).count i = m * l.count i := by
  induction l with
  | nil => simp
  | cons x l ih =>
    rw [List.flatMap_cons, List.count_append, ih, List.count_replicate, List.count_cons]
    split_ifs <;> ring

theorem indices_of_three {pool : Pool} (many : 1 < pool.addrs.length) (registered : Bool)
    (rest : List Outcome) :
    ((heartbeats ⟨pool, registered, 0⟩ (List.replicate 3 .failed ++ rest)).2.map (·.index)) =
      List.replicate 3 pool.currentIdx ++
        ((heartbeats ⟨pool.failover, false, 0⟩ rest).2.map (·.index)) := by
  simp [heartbeats, pass, failoverThreshold, many, List.replicate_succ]

theorem indices_of_failures {pool : Pool} (many : 1 < pool.addrs.length) (registered : Bool)
    (inside : pool.currentIdx < pool.addrs.length) (m : Nat) :
    ((heartbeats ⟨pool, registered, 0⟩ (List.replicate (3 * m) .failed)).2.map (·.index)) =
      ((List.range m).map fun j => (pool.currentIdx + j) % pool.addrs.length).flatMap
        (List.replicate 3) := by
  induction m generalizing pool registered with
  | zero => rfl
  | succ m ih =>
    have bound : (pool.failover).currentIdx < pool.addrs.length := Nat.mod_lt _ (by omega)
    have later : ∀ j, (pool.failover.currentIdx + j) % pool.addrs.length =
        (pool.currentIdx + (j + 1)) % pool.addrs.length := by
      intro j
      simp only [Pool.failover, Pool.connect, Nat.mod_mod, Nat.mod_add_mod]
      congr 1
      omega
    have next := @ih pool.failover many false bound
    rw [Nat.mul_succ, Nat.add_comm, List.replicate_add, List.range_succ_eq_map, List.map_cons,
      List.flatMap_cons, List.map_map]
    rw [indices_of_three many, next, Nat.add_zero, Nat.mod_eq_of_lt inside]
    congr 2
    apply List.map_congr_left
    intro j _
    exact later j

end rotation

/-- After `Init` and any sequence of outcomes: the addresses are those of the flag, the
channel leads to the current one, three failures in a row move on to the next one, `3 n`
of them visit each of the `n` servers three times, and the agent counts as registered only
where it has registered since it came there. -/
theorem heartbeats_rotate (addrList : Bytes) (outcomes : List Outcome) :
    let (t, passes) := heartbeats (start addrList) outcomes
    let n := t.pool.addrs.length
    Addresses addrList t.pool.addrs ∧
      t.pool.currentIdx < n ∧ t.pool.channel = t.pool.addrs[t.pool.currentIdx]? ∧
      (1 < n → ∀ o, (pass t o).2.failedOver ↔ o = .failed ∧ sinceReset passes = 2) ∧
      t.pool.currentIdx = failovers passes % n ∧
      (1 < n → (∀ p ∈ passes.getLast?, p.failed = false ∨ p.failedOver) → ∀ i < n,
        (heartbeats t (List.replicate (3 * n) .failed)).2.countP (·.index = i) = 3) ∧
      (t.registered → ∃ p ∈ sinceFailover passes, p.registerAgent = some true ∧
        p.index = t.pool.currentIdx ∧ p.target = t.pool.channel) := by
  have inv : Inv _ (heartbeats (start addrList) outcomes).1 (heartbeats (start addrList) outcomes).2 :=
    (inv_start addrList).heartbeats outcomes
  have addresses := addresses_init addrList
  generalize heartbeats (start addrList) outcomes = result at inv ⊢
  obtain ⟨t, passes⟩ := result
  dsimp only at inv ⊢
  rw [inv.servers]
  refine ⟨addresses, inv.inside, inv.channel, fun many o => inv.failedOver_iff many o,
    inv.rotation, ?_, inv.registered⟩
  intro many reset i bound
  obtain ⟨pool, registered, failures⟩ := t
  have zero : failures = 0 := (inv.counter many).trans (sinceReset_eq_zero reset)
  have servers : pool.addrs = _ := inv.servers
  subst zero
  rw [← servers] at many bound ⊢
  have inside : pool.currentIdx < pool.addrs.length := servers ▸ inv.inside
  have visited := indices_of_failures many registered inside pool.addrs.length
  have counted := congrArg (List.count i) visited
  rw [count_flatMap_replicate, count_rotation inside bound, List.count, List.countP_map] at counted
  exact counted

end DropPlatform.ServerPool
