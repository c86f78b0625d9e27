import DropPlatform.CountMaps
import DropPlatform.KeyedStores
import DropPlatform.TransitionRuns
import Mathlib.Data.UInt

/-! The kernel probe `trace_sched_switch`. It runs on all CPUs at once; each call of a map
helper is one step on maps that all runs share. A key that is looked up and not found is
inserted with the count one, whatever has happened to it in between. The map `counts` is
taken to have room for every key, so that no update is refused. -/

namespace DropPlatform.OffCpuProbe
open TransitionRuns KeyedStores CountMaps

structure StackKey where
  pid : UInt32
  tgid : UInt32
  userStackId : Int32
  kernStackId : Int32
deriving DecidableEq, Repr

/-- The context of a run, with the two results of `bpf_get_stackid`. -/
structure SchedSwitch where
  prevPid : UInt32
  userStackId : Int32
  kernStackId : Int32
deriving DecidableEq, Repr

/-- The key that a run counts under, for what it has read from `target_pid`. -/
def stackKey (filter : Option UInt32) (ctx : SchedSwitch) : Option StackKey :=
  let filterTgid := filter.getD 0
  if filterTgid ≠ 0 ∧ ctx.prevPid ≠ filterTgid then none
  else some {
    pid := ctx.prevPid
    tgid := if filterTgid ≠ 0 then filterTgid else ctx.prevPid
    userStackId := ctx.userStackId
    kernStackId := ctx.kernStackId }

/-- How far a run of the probe has come: the constructor names the last helper called. -/
inductive Phase
  | entered (ctx : SchedSwitch)
  | keyed (sk : StackKey)
  | found (sk : StackKey)
  | missed (sk : StackKey)
  | returned (sk : Option StackKey)
deriving DecidableEq, Repr

instance : Inhabited Phase := ⟨.returned none⟩

structure World where
  targetPid : Option UInt32
  counts : CountMap StackKey UInt64
  probes : Keyed Nat Phase

inductive Action
  | schedSwitch (ctx : SchedSwitch)
  | readFilter (i : Nat)
  | lookupCount (i : Nat)
  /-- `__sync_fetch_and_add` or `bpf_map_update_elem`. -/
  | count (i : Nat)
  /-- Userspace sets or clears the filter. -/
  | setTargetPid (filter : Option UInt32)

def World.moved (w : World) (i : Nat) (phase : Phase) : World :=
  { w with probes := set w.probes i phase }

def readFilter (w : World) (i : Nat) : Option World :=
  match get w.probes i with
  | .entered ctx =>
    match stackKey w.targetPid ctx with
    | none => some (w.moved i (.returned none))
    | some sk => some (w.moved i (.keyed sk))
  | _ => none

def lookupCount (w : World) (i : Nat) : Option World :=
  match get w.probes i with
  | .keyed sk => some (w.moved i (if sk ∈ w.counts.keys then .found sk else .missed sk))
  | _ => none

def count (w : World) (i : Nat) : Option World :=
  match get w.probes i with
  | .found sk => some { w.moved i (.returned (some sk)) with
      counts := w.counts.put sk (w.counts.value sk + 1) }
  | .missed sk => some { w.moved i (.returned (some sk)) with counts := w.counts.put sk 1 }
  | _ => none

def step (w : World) : Action → Option World
  | .schedSwitch ctx => some { w with probes := w.probes ++ [(w.probes.length, .entered ctx)] }
  | .readFilter i => readFilter w i
  | .lookupCount i => lookupCount w i
  | .count i => count w i
  | .setTargetPid filter => some { w with targetPid := filter }

def start (filter : Option UInt32) : World := ⟨filter, .empty, []⟩

/-- The keys that runs have been counted under. -/
def Phase.counted : Phase → List StackKey
  | .returned (some sk) => [sk]
  | _ => []

def Phase.key : Phase → Option StackKey
  | .entered _ => none
  | .keyed sk | .found sk | .missed sk => some sk
  | .returned sk => sk

def World.runsWith (w : World) (sk : StackKey) : Nat := w.probes.countP (·.2.key = some sk)

def Phase.isReturned : Phase → Bool
  | .returned _ => true
  | _ => false

def World.Finished (w : World) : Prop := ∀ run ∈ w.probes, run.2.isReturned = true

instance (w : World) : Decidable w.Finished := inferInstanceAs (Decidable (∀ run ∈ w.probes, _))

/-- Every run is counted once under its key. -/
def Counted (w : World) : Prop := ∀ sk, w.counts.value sk = UInt64.ofNat (w.runsWith sk)

/-- A key that a run has missed is still missing when the run inserts it. -/
def Fresh (w : World) : Action → Prop
  | .count i => ∀ sk, get w.probes i = .missed sk → sk ∉ w.counts.keys
  | _ => True

def CountedSoFar (w : World) : Prop :=
  ∀ sk, w.counts.value sk = UInt64.ofNat ((contents Phase.counted w.probes).count sk)

section steps
variable {w w' : World} {i : Nat}

theorem CountedSoFar.moved (inv : CountedSoFar w) {phase : Phase}
    (before : (get w.probes i).counted = []) (after : phase.counted = []) :
    CountedSoFar (w.moved i phase) := by
  intro sk
  have same : (contents Phase.counted (set w.probes i phase) : Multiset StackKey) =
      contents Phase.counted w.probes := contents_same rfl (by rw [before, after])
  rw [World.moved, ← Multiset.coe_count, same, Multiset.coe_count]
  exact inv sk

theorem CountedSoFar.count (inv : CountedSoFar w) {sk : StackKey}
    (before : (get w.probes i).counted = []) : CountedSoFar { w.moved i (.returned (some sk)) with
      counts := w.counts.put sk (w.counts.value sk + 1) } := by
  intro other
  have more : (contents Phase.counted (set w.probes i (.returned (some sk))) : Multiset StackKey) =
      sk ::ₘ contents Phase.counted w.probes := contents_put rfl (by rw [before]; rfl)
  simp only [World.moved]
  rw [← Multiset.coe_count, more, Multiset.count_cons, Multiset.coe_count]
  by_cases same : other = sk
  · rw [same, if_pos rfl, CountMap.value_put_self, inv sk, UInt64.ofNat_add]
    rfl
  · rw [if_neg same, CountMap.value_put_of_ne _ _ same, add_zero]
    exact inv other

theorem CountedSoFar.step (inv : CountedSoFar w) {a : Action} (fresh : Fresh w a)
    (next : step w a = some w') : CountedSoFar w' := by
  cases a with
  | schedSwitch ctx =>
    rw [← Option.some.inj next]
    intro sk
    have nothing : contents Phase.counted [(w.probes.length, .entered ctx)] = [] := rfl
    rw [← Multiset.coe_count, contents_append, nothing, Multiset.coe_nil, add_zero,
      Multiset.coe_count]
    exact inv sk
  | readFilter i =>
    simp only [OffCpuProbe.step, readFilter] at next
    split at next
    · rename_i ctx entered
      have before : (get w.probes i).counted = [] := by rw [entered]; rfl
      split at next
      · exact Option.some.inj next ▸ inv.moved before rfl
      · exact Option.some.inj next ▸ inv.moved before rfl
    · contradiction
  | lookupCount i =>
    simp only [OffCpuProbe.step, lookupCount] at next
    split at next
    · rename_i sk keyed
      have before : (get w.probes i).counted = [] := by rw [keyed]; rfl
      rw [← Option.some.inj next]
      refine inv.moved before ?_
      split_ifs
      · rfl
      · rfl
    · contradiction
  | count i =>
    simp only [OffCpuProbe.step, OffCpuProbe.count] at next
    split at next
    · rename_i sk found
      rw [← Option.some.inj next]
      exact inv.count (by rw [found]; rfl)
    · rename_i sk missed
      -- the inserted one is the old value, zero, plus one
      have zero : w.counts.value sk = 0 := w.counts.absent sk (fresh sk missed)
      have one : (1 : UInt64) = w.counts.value sk + 1 := by rw [zero, zero_add]
      rw [← Option.some.inj next, one]
      exact inv.count (by rw [missed]; rfl)
    · contradiction
  | setTargetPid filter => exact Option.some.inj next ▸ inv

end steps

theorem count_counted {probes : Keyed Nat Phase}
    (finished : ∀ run ∈ probes, run.2.isReturned = true) (sk : StackKey) :
    (contents Phase.counted probes).count sk = probes.countP (·.2.key = some sk) := by
  induction probes with
  | nil => rfl
  | cons run probes ih =>
    have rest := ih fun other member => finished other (List.mem_cons_of_mem run member)
    have here := finished run List.mem_cons_self
    simp only [contents] at rest
    rw [contents, List.flatMap_cons, List.count_append, rest, List.countP_cons, Nat.add_comm]
    obtain ⟨i, phase⟩ := run
    cases phase with
    | returned key =>
      cases key with
      | none => rfl
      | some other => simp [Phase.counted, Phase.key, List.count_singleton]
    | entered ctx => exact absurd here Bool.false_ne_true
    | keyed sk => exact absurd here Bool.false_ne_true
    | found sk => exact absurd here Bool.false_ne_true
    | missed sk => exact absurd here Bool.false_ne_true

/-- If no run inserts a key that another one has inserted since it was missed, the probe
counts every run. -/
theorem fresh_runs_are_counted {filter : Option UInt32} {w : World}
    (run : Reaches step Fresh (start filter) w) (finished : w.Finished) : Counted w := by
  have counted : CountedSoFar w := run.invariant CountedSoFar
    (fun _ _ _ inv fresh next => inv.step fresh next) fun _ => rfl
  intro sk
  rw [counted sk, count_counted finished]
  rfl

instance (w : World) : (a : Action) → Decidable (Fresh w a)
  | .count i =>
    match here : get w.probes i with
    | .missed sk => decidable_of_iff (sk ∉ w.counts.keys)
        ⟨fun absent other same => by
          rw [here] at same
          exact Phase.missed.inj same ▸ absent, fun all => all sk here⟩
    | .entered _ | .keyed _ | .found _ | .returned _ =>
      .isTrue fun sk same => by
        rw [here] at same
        contradiction
  | .schedSwitch _ | .readFilter _ | .lookupCount _ | .setTargetPid _ => .isTrue trivial

def oneByOne : List Action :=
  [.schedSwitch ⟨0, -1, 3⟩, .readFilter 0, .lookupCount 0, .count 0,
    .schedSwitch ⟨0, -1, 3⟩, .readFilter 1, .lookupCount 1, .count 1]

def oneByOneState : World := (execute step Fresh (start none) oneByOne).getD (start none)

theorem fresh_runs_are_counted_oneByOne :
    oneByOneState.runsWith ⟨0, 0, -1, 3⟩ = 2 ∧ Counted oneByOneState := by
  have run : Reaches step Fresh (start none) oneByOneState := reaches_of_execute oneByOne rfl
  exact ⟨by decide, fresh_runs_are_counted run (by decide)⟩

def atOnce : List Action :=
  [.schedSwitch ⟨0, -1, 3⟩, .schedSwitch ⟨0, -1, 3⟩, .readFilter 0, .readFilter 1,
    .lookupCount 0, .lookupCount 1, .count 0, .count 1]

def atOnceState : World := (execute step free (start none) atOnce).getD (start none)

theorem atOnce_loses_run :
    ¬ ∀ w, Reaches step free (start none) w → w.Finished → Counted w := by
  intro all
  have counted := all atOnceState (reaches_of_execute atOnce rfl) (by decide) ⟨0, 0, -1, 3⟩
  exact absurd counted (by decide)

end DropPlatform.OffCpuProbe
