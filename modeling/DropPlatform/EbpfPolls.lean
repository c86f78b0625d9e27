import DropPlatform.EbpfFolding

/-! `EbpfLoader::poll` against a probe that goes on counting. A poll reads the entries of
the map one by one, resolves their symbols, writes the folded stacks to a file, and only
then deletes the entries it has read. Each call on the map is one step, between which the
probe may count; an increment is atomic here. -/

namespace DropPlatform.EbpfPolls
open TransitionRuns CountMaps Tallies OffCpuProbe
open EbpfFolding (Surroundings foldKeys render unknown)

inductive Poll
  | idle
  /-- `bpf_map_get_next_key` is next. -/
  | scanning (allKeys : List StackKey) (keyCounts : StackKey → UInt64)
  /-- The count of a key is looked up next. -/
  | visiting (nextKey : StackKey) (allKeys : List StackKey) (keyCounts : StackKey → UInt64)
  /-- The keys are read; the output file is opened next. -/
  | collected (allKeys : List StackKey) (keyCounts : StackKey → UInt64)
  | deleting (keys : List StackKey)

structure World where
  counts : CountMap StackKey UInt64
  /-- How often the probe has counted. -/
  increments : Nat
  /-- The lines of all output files. -/
  written : List (Bytes × UInt64)
  poll : Poll

inductive Action
  | increment (key : StackKey)
  | startPoll
  | getNextKey (next : Option StackKey)
  | lookupElem
  | writeOutput (env : Surroundings) (isOpen : Bool)
  | deleteElem

/-- The iteration yields some key that is in the map, or ends. -/
def getNextKey (w : World) (next : Option StackKey) : Option World :=
  match w.poll, next with
  | .scanning allKeys keyCounts, none => some { w with poll := .collected allKeys keyCounts }
  | .scanning allKeys keyCounts, some nextKey =>
    if nextKey ∈ w.counts.keys then some { w with poll := .visiting nextKey allKeys keyCounts }
    else none
  | _, _ => none

/-- A key that is gone, or has the count zero, is passed over. -/
def lookupElem (w : World) : Option World :=
  match w.poll with
  | .visiting nextKey allKeys keyCounts =>
    let count := (w.counts.lookup nextKey).getD 0
    some { w with poll :=
      if count = 0 then .scanning allKeys keyCounts
      else .scanning (allKeys ++ [nextKey]) (Function.update keyCounts nextKey count) }
  | _ => none

/-- A file that cannot be opened ends the poll before anything is deleted. -/
def writeOutput (w : World) (env : Surroundings) (isOpen : Bool) : Option World :=
  match w.poll with
  | .collected allKeys keyCounts =>
    if isOpen then
      some { w with
        written := w.written ++ (foldKeys env allKeys keyCounts).entries
        poll := .deleting allKeys }
    else some { w with poll := .idle }
  | _ => none

def deleteElem (w : World) : Option World :=
  match w.poll with
  | .deleting (key :: keys) => some { w with counts := w.counts.erase key, poll := .deleting keys }
  | .deleting [] => some { w with poll := .idle }
  | _ => none

def step (w : World) : Action → Option World
  | .increment key => some { w with
      counts := w.counts.put key (w.counts.value key + 1), increments := w.increments + 1 }
  | .startPoll =>
    match w.poll with
    | .idle => some { w with poll := .scanning [] fun _ => 0 }
    | _ => none
  | .getNextKey next => getNextKey w next
  | .lookupElem => lookupElem w
  | .writeOutput env isOpen => writeOutput w env isOpen
  | .deleteElem => deleteElem w

def start : World := ⟨.empty, 0, [], .idle⟩

/-- What has been counted is either written or still in the map. -/
def Conserved (w : World) : Prop :=
  weight (fun _ => True) w.written + w.counts.total = UInt64.ofNat w.increments

def Poll.taken : Poll → List StackKey
  | .idle => []
  | .scanning allKeys _ | .visiting _ allKeys _ | .collected allKeys _ => allKeys
  | .deleting keys => keys

/-- The probe does not count a key that the current poll has read and not yet deleted, and
the iteration does not come back to such a key. -/
def Calm (w : World) : Action → Prop
  | .increment key => key ∉ w.poll.taken
  | .getNextKey (some key) => key ∉ w.poll.taken
  | _ => True

def Agrees (counts : CountMap StackKey UInt64) : Poll → Prop
  | .idle | .deleting _ => True
  | .scanning allKeys keyCounts | .collected allKeys keyCounts =>
    ∀ key ∈ allKeys, keyCounts key = counts.value key
  | .visiting nextKey allKeys keyCounts =>
    nextKey ∉ allKeys ∧ ∀ key ∈ allKeys, keyCounts key = counts.value key

def overlap (counts : CountMap StackKey UInt64) : Poll → UInt64
  | .deleting keys => (keys.map counts.value).sum
  | _ => 0

structure Inv (w : World) : Prop where
  once : w.poll.taken.Nodup
  agrees : Agrees w.counts w.poll
  balance : weight (fun _ => True) w.written + w.counts.total =
    UInt64.ofNat w.increments + overlap w.counts w.poll

section steps
variable {w w' : World}

theorem Agrees.congr {counts counts' : CountMap StackKey UInt64} {poll : Poll}
    (agrees : Agrees counts poll)
    (same : ∀ key ∈ poll.taken, counts'.value key = counts.value key) : Agrees counts' poll := by
  cases poll with
  | idle => trivial
  | deleting keys => trivial
  | scanning allKeys keyCounts =>
    exact fun key member => (agrees key member).trans (same key member).symm
  | collected allKeys keyCounts =>
    exact fun key member => (agrees key member).trans (same key member).symm
  | visiting nextKey allKeys keyCounts =>
    exact ⟨agrees.1, fun key member => (agrees.2 key member).trans (same key member).symm⟩

theorem overlap_congr {counts counts' : CountMap StackKey UInt64} (poll : Poll)
    (same : ∀ key ∈ poll.taken, counts'.value key = counts.value key) :
    overlap counts' poll = overlap counts poll := by
  cases poll with
  | deleting keys => exact congrArg List.sum (List.map_congr_left same)
  | idle => rfl
  | scanning allKeys keyCounts => rfl
  | visiting nextKey allKeys keyCounts => rfl
  | collected allKeys keyCounts => rfl

theorem Inv.increment (inv : Inv w) {key : StackKey} (calm : key ∉ w.poll.taken) :
    Inv { w with
      counts := w.counts.put key (w.counts.value key + 1), increments := w.increments + 1 } := by
  have same : ∀ other ∈ w.poll.taken,
      (w.counts.put key (w.counts.value key + 1)).value other = w.counts.value other :=
    fun other member => CountMap.value_put_of_ne _ _ fun equal => calm (equal ▸ member)
  have total : (w.counts.put key (w.counts.value key + 1)).total = w.counts.total + 1 := by
    have sum := w.counts.total_put key (w.counts.value key + 1)
    generalize (w.counts.put key (w.counts.value key + 1)).total = new at sum ⊢
    rw [add_comm (w.counts.value key) 1, ← add_assoc] at sum
    exact add_right_cancel sum
  have number : UInt64.ofNat (w.increments + 1) = UInt64.ofNat w.increments + 1 :=
    UInt64.ofNat_add w.increments 1
  refine ⟨inv.once, inv.agrees.congr same, ?_⟩
  rw [total, overlap_congr w.poll same, number, ← add_assoc, inv.balance, add_right_comm]

theorem weight_foldKeys (env : Surroundings) (allKeys : List StackKey) (keyCounts : StackKey → UInt64) :
    weight (fun _ => True) (foldKeys env allKeys keyCounts).entries =
      (allKeys.map keyCounts).sum := by
  have events : ∀ keys : List StackKey,
      weight (fun _ => True) (keys.map fun key => (render env allKeys key, keyCounts key)) =
        (keys.map keyCounts).sum := by
    intro keys
    induction keys with
    | nil => rfl
    | cons key keys ih =>
      rw [List.map_cons, weight_cons, if_pos trivial, ih, List.map_cons, List.sum_cons]
  rw [foldKeys, Tally.weight_addAll, events]
  exact zero_add _

theorem Inv.setPoll (inv : Inv w) (poll : Poll) (once : poll.taken.Nodup)
    (agrees : Agrees w.counts poll) (same : overlap w.counts poll = overlap w.counts w.poll) :
    Inv { w with poll := poll } := by
  refine ⟨once, agrees, ?_⟩
  rw [same]
  exact inv.balance

theorem Inv.getNextKey (inv : Inv w) {nextKey : Option StackKey}
    (calm : Calm w (.getNextKey nextKey)) (next : getNextKey w nextKey = some w') : Inv w' := by
  have once := inv.once
  have agrees := inv.agrees
  simp only [EbpfPolls.getNextKey] at next
  split at next
  · rename_i allKeys keyCounts poll
    rw [poll] at once agrees
    rw [← Option.some.inj next]
    exact inv.setPoll (.collected allKeys keyCounts) once agrees (by rw [poll]; rfl)
  · rename_i allKeys keyCounts key poll
    split_ifs at next
    rw [poll] at once agrees
    have new : key ∉ allKeys := by
      rw [Calm, poll] at calm
      exact calm
    rw [← Option.some.inj next]
    exact inv.setPoll (.visiting key allKeys keyCounts) once ⟨new, agrees⟩ (by rw [poll]; rfl)
  · exact absurd next nofun

theorem lookup_getD (m : CountMap StackKey UInt64) (key : StackKey) :
    (m.lookup key).getD 0 = m.value key := by
  rw [CountMap.lookup]
  split_ifs with present
  · rfl
  · exact (m.absent key present).symm

theorem Inv.lookupElem (inv : Inv w) (next : lookupElem w = some w') : Inv w' := by
  have once := inv.once
  have agrees := inv.agrees
  simp only [EbpfPolls.lookupElem, lookup_getD] at next
  split at next
  · rename_i key allKeys keyCounts poll
    rw [poll] at once agrees
    obtain ⟨new, known⟩ := agrees
    rw [← Option.some.inj next]
    by_cases zero : w.counts.value key = 0
    · rw [if_pos zero]
      exact inv.setPoll (.scanning allKeys keyCounts) once known (by rw [poll]; rfl)
    · rw [if_neg zero]
      refine inv.setPoll (.scanning _ _) ?_ (fun other member => ?_) (by rw [poll]; rfl)
      · rw [Poll.taken, ← List.concat_eq_append]
        exact once.concat new
      · rcases List.mem_append.mp member with old | last
        · have differs : other ≠ key := fun same => new (same ▸ old)
          rw [Function.update_of_ne differs]
          exact known other old
        · rw [List.mem_singleton.mp last, Function.update_self]
  · exact absurd next nofun

theorem Inv.writeOutput (inv : Inv w) {env : Surroundings} {isOpen : Bool}
    (next : writeOutput w env isOpen = some w') : Inv w' := by
  have once := inv.once
  have agrees := inv.agrees
  have balance := inv.balance
  simp only [EbpfPolls.writeOutput] at next
  split at next
  · rename_i allKeys keyCounts poll
    rw [poll] at once agrees balance
    split_ifs at next with opened
    · rw [← Option.some.inj next]
      refine ⟨once, trivial, ?_⟩
      -- what is written now is what the map still holds of the keys
      have copied : (allKeys.map keyCounts).sum = (allKeys.map w.counts.value).sum :=
        congrArg List.sum (List.map_congr_left agrees)
      rw [weight_append, weight_foldKeys, copied, add_right_comm, balance]
      exact congrArg (· + _) (add_zero _)
    · rw [← Option.some.inj next]
      exact inv.setPoll .idle List.nodup_nil trivial (by rw [poll]; rfl)
  · exact absurd next nofun

theorem Inv.deleteElem (inv : Inv w) (next : deleteElem w = some w') : Inv w' := by
  have once := inv.once
  have balance := inv.balance
  simp only [EbpfPolls.deleteElem] at next
  split at next
  · rename_i key keys poll
    rw [poll] at once balance
    obtain ⟨apart, others⟩ := List.nodup_cons.mp once
    have same : ∀ other ∈ keys, (w.counts.erase key).value other = w.counts.value other :=
      fun other member => CountMap.value_erase_of_ne _ fun equal => apart (equal ▸ member)
    have rest : overlap (w.counts.erase key) (.deleting keys) = (keys.map w.counts.value).sum :=
      overlap_congr (.deleting keys) same
    rw [← Option.some.inj next]
    refine ⟨others, trivial, ?_⟩
    rw [← w.counts.total_erase key, overlap, List.map_cons, List.sum_cons,
      add_left_comm (UInt64.ofNat _), ← add_assoc, add_comm _ (w.counts.value key)] at balance
    rw [rest]
    exact add_left_cancel balance
  · rename_i poll
    rw [poll] at balance
    rw [← Option.some.inj next]
    exact ⟨List.nodup_nil, trivial, balance⟩
  · exact absurd next nofun

theorem Inv.step (inv : Inv w) {a : Action} (calm : Calm w a) (next : step w a = some w') :
    Inv w' := by
  cases a with
  | increment key => exact Option.some.inj next ▸ inv.increment calm
  | startPoll =>
    simp only [EbpfPolls.step] at next
    split at next
    · rename_i poll
      rw [← Option.some.inj next]
      exact inv.setPoll (.scanning [] fun _ => 0) List.nodup_nil nofun (by rw [poll]; rfl)
    · exact absurd next nofun
  | getNextKey nextKey => exact inv.getNextKey calm next
  | lookupElem => exact inv.lookupElem next
  | writeOutput env isOpen => exact inv.writeOutput next
  | deleteElem => exact inv.deleteElem next

end steps

theorem inv_start : Inv start := ⟨List.nodup_nil, trivial, rfl⟩

/-- If the probe leaves alone what a poll has read and not yet deleted, and no poll comes
back to a key, then between polls nothing is lost or counted twice. -/
theorem calm_polls_conserve {w : World} (run : Reaches step Calm start w)
    (between : w.poll = .idle) : Conserved w := by
  have inv : Inv w := run.invariant Inv (fun _ _ _ inv calm next => inv.step calm next) inv_start
  have none : overlap w.counts w.poll = 0 := by
    rw [between]
    rfl
  rw [Conserved, inv.balance, none, add_zero]

section runs

instance (w : World) : (a : Action) → Decidable (Calm w a)
  | .increment key => inferInstanceAs (Decidable (key ∉ w.poll.taken))
  | .getNextKey (some key) => inferInstanceAs (Decidable (key ∉ w.poll.taken))
  | .getNextKey none | .startPoll | .lookupElem | .writeOutput _ _ | .deleteElem => .isTrue trivial

def idleKey : StackKey := ⟨0, 0, -1, 3⟩

def noSymbols : Surroundings where
  kallsyms := none
  stackTraces _ := none
  userMaps _ := []
  frameMaps _ _ := []
  popen _ _ := none

def apart : List Action :=
  [.increment idleKey, .startPoll, .getNextKey (some idleKey), .lookupElem, .getNextKey none,
    .writeOutput noSymbols true, .deleteElem, .deleteElem, .increment idleKey]

def apartState : World := (execute step Calm start apart).getD start

theorem calm_polls_conserve_apart :
    apartState.written = [(unknown, 1)] ∧ apartState.increments = 2 ∧ Conserved apartState := by
  have run : Reaches step Calm start apartState := reaches_of_execute apart rfl
  exact ⟨by decide, rfl, calm_polls_conserve run rfl⟩

def meanwhile : List Action :=
  [.increment idleKey, .startPoll, .getNextKey (some idleKey), .lookupElem, .getNextKey none,
    .increment idleKey, .writeOutput noSymbols true, .deleteElem, .deleteElem]

def meanwhileState : World := (execute step free start meanwhile).getD start

theorem meanwhile_loses_increment :
    ¬ ∀ w, Reaches step free start w → w.poll = .idle → Conserved w := by
  intro all
  have conserved := all meanwhileState (reaches_of_execute meanwhile rfl) rfl
  have written : weight (fun _ => True) meanwhileState.written = 1 := by decide
  have left : meanwhileState.counts.total = 0 := by decide
  rw [Conserved, written, left] at conserved
  exact absurd conserved (by decide)

end runs

end DropPlatform.EbpfPolls
