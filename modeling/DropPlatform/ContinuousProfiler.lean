import DropPlatform.CollapsedStacks
import DropPlatform.TaskDispatch

/-! Continuous profiling: `record` merges burst after burst into `stacks_` and flushes it
as a segment every five minutes and once more when it stops. A flush can fail at three
points. The account of a run compares the samples merged so far with those in the segments
that reached the apiserver and those still in memory. -/

namespace DropPlatform.ContinuousProfiler
open Tallies TextLines TransitionRuns CollapsedStacks
open TaskDispatch (TaskDesc)

def segmentSeconds : Int := 300

/-- A file that a burst has collected, with what `merge_collapsed` can read of it. -/
structure BurstFile where
  name : String
  contents : Option Bytes
deriving DecidableEq, Repr

/-- What a flush meets: the clock, whether its file can be created, and whether the two
requests to the apiserver succeed. -/
structure FlushOutcome where
  nowTs : Int
  created : Bool
  uploaded : Bool
  registered : Bool
deriving DecidableEq, Repr

/-- One round of the loop: the files of the burst unless it fails, the clock after it, and
the outcome of the flush if one is due. -/
structure Iteration where
  burst : Option (List BurstFile)
  nowTs : Int
  flush : FlushOutcome
deriving DecidableEq, Repr

structure Segment where
  startTs : Int
  endTs : Int
  s3Key : String
  file : Bytes
deriving DecidableEq, Repr

structure State where
  stacks_ : Stacks
  segmentStartTs : Int
  flushedFiles : List String
  /-- The segments that the apiserver has both the file and the row of. -/
  stored : List Segment
  /-- Every sample that `merge_collapsed` has added. -/
  merged : List (Bytes × UInt64)
deriving DecidableEq

def mergeFile (s : State) (f : BurstFile) : State :=
  match f.contents with
  | none => s
  | some contents =>
    if "collapsed".toList <:+: f.name.toList then
      { s with
        stacks_ := mergeCollapsed s.stacks_ contents
        merged := s.merged ++ samples contents }
    else s

def flushSegment (tid outputDir : String) (outcome : FlushOutcome) (s : State) :
    Option String × State :=
  let ts := toString s.segmentStartTs
  if outcome.created = false then
    (some ("cannot create segment file: " ++ outputDir ++ "/" ++ ts ++ "/collapsed.txt"), s)
  else
    let file := writeStacks s.stacks_
    let cleared := { s with stacks_ := .empty }
    if outcome.uploaded = false then (some ("upload failed for segment " ++ ts), cleared)
    else if outcome.registered = false then (some ("register segment failed for " ++ ts), cleared)
    else
      let key := tid ++ "/" ++ ts ++ "/collapsed.txt"
      (none, { cleared with
        stored := s.stored ++ [⟨s.segmentStartTs, outcome.nowTs, key, file⟩]
        flushedFiles := s.flushedFiles ++ [ts ++ "/collapsed.txt"] })

def mergeBurst (s : State) : Option (List BurstFile) → State
  | none => s
  | some files => files.foldl mergeFile s

def flushDue (s : State) (round : Iteration) : Prop :=
  segmentSeconds ≤ round.nowTs - s.segmentStartTs

instance (s : State) (round : Iteration) : Decidable (flushDue s round) :=
  inferInstanceAs (Decidable (_ ≤ _))

def iteration (tid outputDir : String) (s : State) (round : Iteration) : State :=
  let s := mergeBurst s round.burst
  if flushDue s round then
    { (flushSegment tid outputDir round.flush s).2 with segmentStartTs := round.nowTs }
  else s

def finalFlush (tid outputDir : String) (s : State) (outcome : FlushOutcome) : State :=
  if s.stacks_.entries = [] then s else (flushSegment tid outputDir outcome s).2

/-- The types that `CreateProfiler` knows. -/
def createProfiler (profilerType : Nat) : Bool := profilerType ∈ [0, 1, 3, 5]

def start (startTs : Int) : State := ⟨.empty, startTs, [], [], []⟩

/-- `record` with the rounds that it makes before it is stopped. -/
def record (task : TaskDesc) (outputDir : String) (startTs : Int) (rounds : List Iteration)
    (last : FlushOutcome) : Option String × State :=
  if rounds ≠ [] ∧ createProfiler task.profilerType = false then
    (some ("unsupported inner profiler_type=" ++ toString task.profilerType), start startTs)
  else
    let s := rounds.foldl (iteration task.taskId outputDir) (start startTs)
    (none, finalFlush task.taskId outputDir s last)

inductive Step
  | iteration (round : Iteration)
  | finalFlush (outcome : FlushOutcome)
deriving DecidableEq, Repr

def next (tid outputDir : String) (s : State) : Step → State
  | .iteration round => iteration tid outputDir s round
  | .finalFlush outcome => finalFlush tid outputDir s outcome

def steps (profilerType : Nat) (rounds : List Iteration) (last : FlushOutcome) : List Step :=
  if rounds ≠ [] ∧ createProfiler profilerType = false then []
  else rounds.map .iteration ++ [.finalFlush last]

theorem record_eq (task : TaskDesc) (outputDir : String) (startTs : Int)
    (rounds : List Iteration) (last : FlushOutcome) :
    (record task outputDir startTs rounds last).2 =
      (steps task.profilerType rounds last).foldl (next task.taskId outputDir) (start startTs) := by
  unfold record steps
  split_ifs with unsupported
  · rfl
  · rw [List.foldl_append, List.foldl_map]
    rfl

/-- Every sample merged so far is in a stored segment or in memory. -/
def Conserved (s : State) : Prop :=
  ∀ stack, weight (· = stack) s.merged =
    weight (· = stack) (s.stored.flatMap fun segment => samples segment.file) +
      weight (· = stack) s.stacks_.entries

/-- The flush does not get past the creation of its file, or it succeeds, or there is
nothing to lose. -/
def KeepsSamples (s : State) (outcome : FlushOutcome) : Prop :=
  outcome.created = false ∨ outcome.uploaded = true ∧ outcome.registered = true ∨
    ∀ entry ∈ s.stacks_.entries, entry.2 = 0

def Safe (s : State) : Step → Prop
  | .iteration round =>
    flushDue (mergeBurst s round.burst) round → KeepsSamples (mergeBurst s round.burst) round.flush
  | .finalFlush outcome => s.stacks_.entries ≠ [] → KeepsSamples s outcome

structure Inv (s : State) : Prop where
  conserved : Conserved s
  clean : Clean s.stacks_.entries

section merging

theorem Inv.mergeFile {s : State} (inv : Inv s) (f : BurstFile) : Inv (mergeFile s f) := by
  unfold ContinuousProfiler.mergeFile
  cases f.contents with
  | none => exact inv
  | some contents =>
    by_cases named : "collapsed".toList <:+: f.name.toList
    · simp only [if_pos named, mergeCollapsed_eq]
      refine ⟨fun stack => ?_, inv.clean.addAll (clean_samples contents)⟩
      rw [weight_append, Tally.weight_addAll, inv.conserved stack, add_assoc]
    · simp only [if_neg named]
      exact inv

theorem Inv.mergeBurst {s : State} (inv : Inv s) (burst : Option (List BurstFile)) :
    Inv (mergeBurst s burst) := by
  cases burst with
  | none => exact inv
  | some files =>
    simp only [ContinuousProfiler.mergeBurst]
    induction files generalizing s with
    | nil => exact inv
    | cons f files ih => exact ih (inv.mergeFile f)

end merging

section flushing
variable {tid outputDir : String} {outcome : FlushOutcome} {s : State}

theorem flush_notCreated (failed : outcome.created = false) :
    (flushSegment tid outputDir outcome s).2 = s := by
  simp only [flushSegment, failed, if_true]

variable (tid outputDir s) in
theorem flush_created (created : outcome.created = true) :
    (flushSegment tid outputDir outcome s).2.merged = s.merged ∧
    (flushSegment tid outputDir outcome s).2.stacks_ = .empty ∧
    (flushSegment tid outputDir outcome s).2.stored.flatMap (fun segment => samples segment.file) =
      s.stored.flatMap (fun segment => samples segment.file) ++
        if outcome.uploaded = true ∧ outcome.registered = true then samples (writeStacks s.stacks_)
        else [] := by
  cases up : outcome.uploaded <;> cases reg : outcome.registered <;>
    simp [flushSegment, created, up, reg]

theorem weights_zero_iff :
    (∀ stack, weight (· = stack) s.stacks_.entries = 0) ↔ ∀ entry ∈ s.stacks_.entries, entry.2 = 0 := by
  constructor
  · intro zero entry member
    rw [← s.stacks_.ordered.weight_of_mem member, zero entry.1]
  · intro zero stack
    have amounts : ∀ a ∈ (s.stacks_.entries.filter fun e => e.1 = stack).map Prod.snd, a = 0 := by
      intro a member
      obtain ⟨entry, inside, rfl⟩ := List.mem_map.mp member
      exact zero entry (List.mem_of_mem_filter inside)
    exact List.sum_eq_zero amounts

theorem Inv.flush_iff (inv : Inv s) :
    Conserved (flushSegment tid outputDir outcome s).2 ↔ KeepsSamples s outcome := by
  cases created : outcome.created with
  | false => simp [flush_notCreated created, KeepsSamples, created, inv.conserved]
  | true =>
    obtain ⟨merged, emptied, stored⟩ := flush_created tid outputDir s created
    have account := inv.conserved
    by_cases sent : outcome.uploaded = true ∧ outcome.registered = true
    · simp only [KeepsSamples, created, sent, Bool.true_eq_false, false_or, and_self, true_or,
        iff_true]
      intro stack
      rw [merged, emptied, stored, if_pos sent, weight_append, samples_writeStacks inv.clean,
        account stack]
      exact (add_zero _).symm
    · simp only [KeepsSamples, created, sent, Bool.true_eq_false, false_or]
      rw [← weights_zero_iff]
      refine forall_congr' fun stack => ?_
      rw [merged, emptied, stored, if_neg sent, List.append_nil, account stack]
      have gone : weight (· = stack) (Tally.empty : Stacks).entries = 0 := rfl
      rw [gone, add_zero]
      exact add_eq_left

theorem Inv.flush (inv : Inv s) (keeps : KeepsSamples s outcome) :
    Inv (flushSegment tid outputDir outcome s).2 := by
  refine ⟨inv.flush_iff.mpr keeps, ?_⟩
  cases created : outcome.created with
  | false =>
    rw [flush_notCreated created]
    exact inv.clean
  | true =>
    rw [(flush_created tid outputDir s created).2.1]
    exact clean_empty

end flushing

section run
variable {tid outputDir : String} {s : State}

theorem Inv.safe_of_conserved (inv : Inv s) (step : Step)
    (after : Conserved (next tid outputDir s step)) : Safe s step := by
  cases step with
  | iteration round =>
    intro due
    have merged := inv.mergeBurst round.burst
    simp only [next, iteration, if_pos due] at after
    exact merged.flush_iff.mp after
  | finalFlush outcome =>
    intro nonempty
    simp only [next, finalFlush, if_neg nonempty] at after
    exact inv.flush_iff.mp after

theorem Inv.next (inv : Inv s) {step : Step} (safe : Safe s step) :
    Inv (next tid outputDir s step) := by
  cases step with
  | iteration round =>
    have merged := inv.mergeBurst round.burst
    by_cases due : flushDue (ContinuousProfiler.mergeBurst s round.burst) round
    · have flushed : Inv (flushSegment tid outputDir round.flush _).2 := merged.flush (safe due)
      simp only [ContinuousProfiler.next, iteration, if_pos due]
      exact ⟨flushed.conserved, flushed.clean⟩
    · simp only [ContinuousProfiler.next, iteration, if_neg due]
      exact merged
  | finalFlush outcome =>
    by_cases empty : s.stacks_.entries = []
    · simp only [ContinuousProfiler.next, finalFlush, if_pos empty]
      exact inv
    · simp only [ContinuousProfiler.next, finalFlush, if_neg empty]
      exact inv.flush (safe empty)

theorem start_inv (startTs : Int) : Inv (start startTs) :=
  ⟨fun _ => (add_zero _).symm, clean_empty⟩

end run

/-- After every round and after the last flush of `record`, all samples are accounted for
exactly if no flush that has samples to lose fails after it has created its file. -/
theorem record_conserves_iff (task : TaskDesc) (outputDir : String) (startTs : Int)
    (rounds : List Iteration) (last : FlushOutcome) :
    (∀ t ∈ trace (next task.taskId outputDir) (start startTs)
        (steps task.profilerType rounds last), Conserved t.2.2) ↔
      ∀ t ∈ trace (next task.taskId outputDir) (start startTs)
        (steps task.profilerType rounds last), Safe t.1 t.2.1 :=
  trace_iff (fun _ _ inv safe => inv.next safe) (fun _ inv => inv.conserved)
    (fun _ step inv after => inv.safe_of_conserved step after) (start_inv startTs) _

section keys

structure Timed (s : State) : Prop where
  ascending : (s.stored.map (·.startTs)).Pairwise (· < ·)
  past : ∀ segment ∈ s.stored, segment.startTs < s.segmentStartTs

variable {tid outputDir : String} {s : State}

theorem mergeBurst_frame (burst : Option (List BurstFile)) :
    (mergeBurst s burst).stored = s.stored ∧
      (mergeBurst s burst).segmentStartTs = s.segmentStartTs := by
  cases burst with
  | none => exact ⟨rfl, rfl⟩
  | some files =>
    simp only [mergeBurst]
    induction files generalizing s with
    | nil => exact ⟨rfl, rfl⟩
    | cons f files ih =>
      have rest := ih (s := mergeFile s f)
      have here : (mergeFile s f).stored = s.stored ∧
          (mergeFile s f).segmentStartTs = s.segmentStartTs := by
        unfold mergeFile
        split
        · exact ⟨rfl, rfl⟩
        · split <;> exact ⟨rfl, rfl⟩
      exact ⟨rest.1.trans here.1, rest.2.trans here.2⟩

theorem flush_stored (outcome : FlushOutcome) :
    (flushSegment tid outputDir outcome s).2.stored = s.stored ∨
      ∃ segment, segment.startTs = s.segmentStartTs ∧
        (flushSegment tid outputDir outcome s).2.stored = s.stored ++ [segment] := by
  unfold flushSegment
  split_ifs
  · exact .inl rfl
  · exact .inl rfl
  · exact .inl rfl
  · exact .inr ⟨_, rfl, rfl⟩

theorem Timed.flush (timed : Timed s) (tid outputDir : String) (outcome : FlushOutcome) :
    ((flushSegment tid outputDir outcome s).2.stored.map (·.startTs)).Pairwise (· < ·) ∧
      ∀ segment ∈ (flushSegment tid outputDir outcome s).2.stored,
        segment.startTs ≤ s.segmentStartTs := by
  rcases flush_stored outcome with same | ⟨segment, begun, more⟩
  · rw [same]
    exact ⟨timed.ascending, fun segment member => (timed.past segment member).le⟩
  · rw [more, List.map_append, List.pairwise_append]
    refine ⟨⟨timed.ascending, List.pairwise_singleton _ _, ?_⟩, ?_⟩
    · intro a earlier b new
      obtain ⟨old, member, rfl⟩ := List.mem_map.mp earlier
      rw [List.map_singleton, List.mem_singleton] at new
      rw [new, begun]
      exact timed.past old member
    · intro other member
      rcases List.mem_append.mp member with earlier | new
      · exact (timed.past other earlier).le
      · rw [List.mem_singleton.mp new, begun]

theorem Timed.iteration (timed : Timed s) (round : Iteration) :
    Timed (iteration tid outputDir s round) := by
  have frame := mergeBurst_frame (s := s) round.burst
  have merged : Timed (mergeBurst s round.burst) :=
    ⟨by rw [frame.1]; exact timed.ascending, by rw [frame.1, frame.2]; exact timed.past⟩
  by_cases due : flushDue (mergeBurst s round.burst) round
  · have flushed := merged.flush tid outputDir round.flush
    simp only [ContinuousProfiler.iteration, if_pos due]
    refine ⟨flushed.1, fun segment member => ?_⟩
    have begun := flushed.2 segment member
    have later : segmentSeconds ≤ _ := due
    rw [segmentSeconds] at later
    show segment.startTs < round.nowTs
    omega
  · simp only [ContinuousProfiler.iteration, if_neg due]
    exact merged

theorem record_segments_apart (task : TaskDesc) (outputDir : String) (startTs : Int)
    (rounds : List Iteration) (last : FlushOutcome) :
    ((record task outputDir startTs rounds last).2.stored.map (·.startTs)).Pairwise (· < ·) := by
  have timed : ∀ s, Timed s → Timed (rounds.foldl (iteration task.taskId outputDir) s) := by
    induction rounds with
    | nil => exact fun _ timed => timed
    | cons round rounds ih => exact fun s timed => ih _ (timed.iteration round)
  have loop := timed (start startTs) ⟨List.Pairwise.nil, fun _ member => absurd member List.not_mem_nil⟩
  unfold record
  split_ifs
  · exact List.Pairwise.nil
  · simp only [finalFlush]
    split_ifs
    · exact loop.ascending
    · exact (loop.flush task.taskId outputDir last).1

end keys

section registering

/-- `flush_segment` gets as far as `register_segment`. -/
def FlushOutcome.registers (outcome : FlushOutcome) : Bool := outcome.created && outcome.uploaded

/-- One call of `flush_segment`: the start of its segment, the clock as `record` has read it
for the loop, the clock as the call reads it again, and whether the segment is passed to
`register_segment`. The last call has no reading of the loop before it. -/
structure FlushCall where
  startTs : Int
  loopTs : Int
  endTs : Int
  registers : Bool
deriving DecidableEq, Repr

def flushCall (s : State) (loopTs : Int) (outcome : FlushOutcome) : FlushCall :=
  ⟨s.segmentStartTs, loopTs, outcome.nowTs, outcome.registers⟩

def flushOf (s : State) : Step → Option FlushCall
  | .iteration round =>
    let s := mergeBurst s round.burst
    if flushDue s round then some (flushCall s round.nowTs round.flush) else none
  | .finalFlush outcome =>
    if s.stacks_.entries = [] then none else some (flushCall s outcome.nowTs outcome)

def readings (s : State) : Step → List Int
  | .iteration round => round.nowTs :: ((flushOf s (.iteration round)).map (·.endTs)).toList
  | .finalFlush outcome => ((flushOf s (.finalFlush outcome)).map (·.endTs)).toList

def flushes (tid outputDir : String) (s : State) (steps : List Step) : List FlushCall :=
  (trace (next tid outputDir) s steps).filterMap fun t => flushOf t.1 t.2.1

def clockReadings (tid outputDir : String) (s : State) (steps : List Step) : List Int :=
  (trace (next tid outputDir) s steps).flatMap fun t => readings t.1 t.2.1

/-- Each segment that is passed on ends before the next one starts. -/
def Apart (calls : List FlushCall) : Prop :=
  calls.IsChain fun call later => call.endTs ≤ later.startTs

/-- Of two flushes in a row that both pass their segment on, the first reads the clock in the
second in which the loop has read it. -/
def Punctual (calls : List FlushCall) : Prop :=
  calls.IsChain fun call later => call.registers → later.registers → call.endTs = call.loopTs

/-- A row of flushes under a clock that stands at `clock` before it: each segment starts at
the reading of the loop for the flush before. -/
def InTurn : Int → Int → List FlushCall → Prop
  | _, _, [] => True
  | start, clock, call :: later =>
    call.startTs = start ∧ clock ≤ call.loopTs ∧ call.loopTs ≤ call.endTs ∧
      InTurn call.loopTs call.endTs later

theorem InTurn.le_startTs {start clock : Int} {calls : List FlushCall}
    (turn : InTurn start clock calls) (before : start ≤ clock) :
    ∀ call ∈ calls, start ≤ call.startTs := by
  induction calls generalizing start clock with
  | nil => simp
  | cons call later ih =>
    obtain ⟨begun, after, read, rest⟩ := turn
    intro other member
    rcases List.mem_cons.mp member with rfl | member
    · omega
    · have tail := ih rest read other member
      omega

theorem InTurn.mono {start clock earlier : Int} {calls : List FlushCall}
    (turn : InTurn start clock calls) (le : earlier ≤ clock) : InTurn start earlier calls := by
  cases calls with
  | nil => trivial
  | cons call later =>
    obtain ⟨begun, after, rest⟩ := turn
    exact ⟨begun, le.trans after, rest⟩

theorem apart_iff_punctual {start clock : Int} {calls : List FlushCall}
    (turn : InTurn start clock calls) : Apart (calls.filter (·.registers)) ↔ Punctual calls := by
  induction calls generalizing start clock with
  | nil => simp [Apart, Punctual]
  | cons call later ih =>
    obtain ⟨begun, after, read, rest⟩ := turn
    have tail := ih rest
    simp only [Apart, Punctual] at tail ⊢
    cases later with
    | nil => cases passed : call.registers <;> simp [passed]
    | cons second others =>
      obtain ⟨follows, waits, rereads, others'⟩ := rest
      have far := others'.le_startTs rereads
      cases passed : call.registers with
      | false => simp [passed, tail]
      | true =>
        cases passed' : second.registers with
        | false =>
          rw [List.filter_cons_of_pos passed, List.isChain_cons, List.isChain_cons_cons, tail]
          have clear : ∀ other ∈ ((second :: others).filter (·.registers)).head?,
              call.endTs ≤ other.startTs := by
            intro other found
            have member := List.mem_of_mem_head? found
            rw [List.filter_cons_of_neg (by simp [passed'])] at member
            have behind := far other (List.mem_of_mem_filter member)
            omega
          exact and_congr_left fun _ => ⟨fun _ _ => by simp [passed'], fun _ => clear⟩
        | true =>
          rw [List.filter_cons_of_pos passed, List.filter_cons_of_pos passed',
            List.isChain_cons_cons, List.isChain_cons_cons, ← tail, List.filter_cons_of_pos passed']
          refine and_congr_left fun _ => ?_
          simp only [passed, passed', forall_const]
          omega

variable (tid outputDir : String) (s : State)

theorem iteration_segmentStartTs (round : Iteration) :
    (iteration tid outputDir s round).segmentStartTs =
      if flushDue (mergeBurst s round.burst) round then round.nowTs else s.segmentStartTs := by
  simp only [iteration]
  split_ifs
  · rfl
  · exact (mergeBurst_frame round.burst).2

variable {tid outputDir s} in
theorem inTurn_flushes (rounds : List Iteration) (last : FlushOutcome) {clock : Int}
    (before : s.segmentStartTs ≤ clock)
    (monotone : (clock :: clockReadings tid outputDir s
      (rounds.map .iteration ++ [.finalFlush last])).IsChain (· ≤ ·)) :
    InTurn s.segmentStartTs clock
      (flushes tid outputDir s (rounds.map .iteration ++ [.finalFlush last])) := by
  induction rounds generalizing s clock with
  | nil =>
    by_cases empty : s.stacks_.entries = []
    · simp [flushes, trace, flushOf, empty, InTurn]
    · simp only [clockReadings, trace, readings, flushOf, if_neg empty, flushCall, List.map_nil,
        List.nil_append, List.flatMap_cons, List.flatMap_nil, Option.map_some, Option.toList_some,
        List.append_nil, List.isChain_cons_cons] at monotone
      simp [flushes, trace, flushOf, empty, flushCall, InTurn, monotone.1]
  | cons round rounds ih =>
    have started := iteration_segmentStartTs tid outputDir s round
    have kept := (mergeBurst_frame (s := s) round.burst).2
    by_cases due : flushDue (mergeBurst s round.burst) round
    · rw [if_pos due] at started
      simp only [clockReadings, trace, readings, flushOf, if_pos due, flushCall, List.map_cons,
        List.cons_append, List.flatMap_cons, Option.map_some, Option.toList_some,
        List.nil_append, List.isChain_cons_cons] at monotone
      obtain ⟨waits, reads, rest⟩ := monotone
      have later := ih (s := iteration tid outputDir s round) (by omega) rest
      rw [started] at later
      simp only [flushes, trace, List.map_cons, List.cons_append, List.filterMap_cons, flushOf,
        if_pos due, flushCall, InTurn]
      exact ⟨kept, waits, reads, later⟩
    · rw [if_neg due] at started
      simp only [clockReadings, trace, readings, flushOf, if_neg due, List.map_cons,
        List.cons_append, List.flatMap_cons, Option.map_none, Option.toList_none,
        List.nil_append, List.isChain_cons_cons] at monotone
      obtain ⟨waits, rest⟩ := monotone
      have begun : (iteration tid outputDir s round).segmentStartTs ≤ round.nowTs := by omega
      have later := ih begun rest
      rw [started] at later
      simp only [flushes, trace, List.map_cons, List.cons_append, List.filterMap_cons, flushOf,
        if_neg due]
      exact later.mono waits

theorem next_stored (step : Step) :
    (next tid outputDir s step).stored = s.stored ∨
      ∃ call ∈ flushOf s step, call.registers = true ∧ ∃ segment : Segment,
        (segment.startTs, segment.endTs) = (call.startTs, call.endTs) ∧
        (next tid outputDir s step).stored = s.stored ++ [segment] := by
  have flushed : ∀ (s : State) (loopTs : Int) (outcome : FlushOutcome),
      (flushSegment tid outputDir outcome s).2.stored = s.stored ∨
        (flushCall s loopTs outcome).registers = true ∧ ∃ segment : Segment,
          (segment.startTs, segment.endTs) = (s.segmentStartTs, outcome.nowTs) ∧
          (flushSegment tid outputDir outcome s).2.stored = s.stored ++ [segment] := by
    intro s loopTs outcome
    cases created : outcome.created <;> cases uploaded : outcome.uploaded <;>
      cases registered : outcome.registered <;>
      simp [flushSegment, flushCall, FlushOutcome.registers, created, uploaded, registered]
  cases step with
  | iteration round =>
    have kept := (mergeBurst_frame (s := s) round.burst).1
    by_cases due : flushDue (mergeBurst s round.burst) round
    · simp only [next, iteration, flushOf, if_pos due, Option.mem_some_iff, exists_eq_left', ← kept]
      exact flushed _ _ _
    · simp only [next, iteration, if_neg due]
      exact .inl kept
  | finalFlush outcome =>
    by_cases empty : s.stacks_.entries = []
    · exact .inl (by simp only [next, finalFlush, if_pos empty])
    · simp only [next, finalFlush, flushOf, if_neg empty, Option.mem_some_iff, exists_eq_left']
      exact flushed _ _ _

theorem stored_sublist (steps : List Step) :
    ((steps.foldl (next tid outputDir) s).stored.map fun seg => (seg.startTs, seg.endTs)).Sublist
      ((s.stored.map fun seg => (seg.startTs, seg.endTs)) ++
        ((flushes tid outputDir s steps).filter (·.registers)).map
          fun call => (call.startTs, call.endTs)) := by
  induction steps generalizing s with
  | nil => simp [flushes, trace]
  | cons step steps ih =>
    refine (ih (next tid outputDir s step)).trans ?_
    simp only [flushes, trace, List.filterMap_cons]
    rcases next_stored tid outputDir s step with
      same | ⟨call, made, passed, segment, times, more⟩
    · rw [same]
      apply List.Sublist.append_left
      cases flushOf s step with
      | none => exact List.Sublist.refl _
      | some call => exact ((List.sublist_cons_self call _).filter _).map _
    · rw [Option.mem_def.mp made, more, List.filter_cons_of_pos passed]
      simp [times]

/-- The segments that a run of `record` passes to `register_segment` do not overlap exactly
if the clock stands still between its two readings wherever two flushes in a row pass their
segment on. -/
theorem segments_apart_iff (task : TaskDesc) (outputDir : String) (startTs : Int)
    (rounds : List Iteration) (last : FlushOutcome)
    (monotone : (startTs :: clockReadings task.taskId outputDir (start startTs)
      (steps task.profilerType rounds last)).IsChain (· ≤ ·)) :
    Apart ((flushes task.taskId outputDir (start startTs)
      (steps task.profilerType rounds last)).filter (·.registers)) ↔
    Punctual (flushes task.taskId outputDir (start startTs)
      (steps task.profilerType rounds last)) := by
  unfold steps at monotone ⊢
  split_ifs at monotone ⊢ with unsupported
  · simp [flushes, trace, Apart, Punctual]
  · exact apart_iff_punctual (inTurn_flushes rounds last le_rfl monotone)

def lateReading : List Iteration :=
  [⟨none, 300, ⟨301, true, true, true⟩⟩, ⟨none, 600, ⟨600, true, true, true⟩⟩]

def perfTask : TaskDesc := ⟨"t", 1, 0, 1, 0, 4242, ""⟩

theorem segments_apart_iff_lateReading :
    Apart ((flushes "t" "/tmp/drop_t" (start 0)
      (steps 0 lateReading ⟨600, true, true, true⟩)).filter (·.registers)) ↔
    Punctual (flushes "t" "/tmp/drop_t" (start 0)
      (steps 0 lateReading ⟨600, true, true, true⟩)) :=
  segments_apart_iff perfTask "/tmp/drop_t" 0 lateReading ⟨600, true, true, true⟩ (by decide)

theorem lateReading_overlaps :
    flushes "t" "/tmp/drop_t" (start 0) (steps 0 lateReading ⟨600, true, true, true⟩) =
      [⟨0, 300, 301, true⟩, ⟨300, 600, 600, true⟩] ∧
    ¬ Apart ((flushes "t" "/tmp/drop_t" (start 0)
      (steps 0 lateReading ⟨600, true, true, true⟩)).filter (·.registers)) := by
  have calls : flushes "t" "/tmp/drop_t" (start 0) (steps 0 lateReading ⟨600, true, true, true⟩) =
      [⟨0, 300, 301, true⟩, ⟨300, 600, 600, true⟩] := by decide
  refine ⟨calls, ?_⟩
  rw [calls]
  simp [Apart]

end registering

def lostUpload : Iteration :=
  ⟨some [⟨"collapsed.txt", some [97, 32, 49]⟩], 300, ⟨300, true, false, true⟩⟩

theorem lostUpload_loses_sample :
    ¬ ∀ t ∈ trace (next "t" "/tmp/drop_t") (start 0) (steps 0 [lostUpload] lostUpload.flush),
      Conserved t.2.2 := by
  intro all
  have lost := all _ List.mem_cons_self [97]
  revert lost
  decide

end DropPlatform.ContinuousProfiler
