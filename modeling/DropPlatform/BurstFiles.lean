import DropPlatform.Collectors
import DropPlatform.ContinuousProfiler

/-! What becomes of the files of a burst. `ContinuousProfiler::record` runs one of the
collectors for each burst, hands a file to `merge_collapsed` if its name contains
"collapsed", and removes it in any case. The names are chosen by the collectors. -/

namespace DropPlatform.BurstFiles
open TextLines CollapsedStacks ContinuousProfiler Collectors

def sampleBurstSeconds : Nat := 30

/-- The task of a burst; a script is not passed on. -/
def burstTask (task : CollectTask) : CollectTask where
  desc := { task.desc with
    taskType := 0
    hz := (orDefault (toInt task.desc.hz) 1).toNat
    duration := sampleBurstSeconds }
  timeoutSec := if task.timeoutSec > 0 then sampleBurstSeconds + 30 else 0
  callgraph := task.callgraph
  scriptContent := ""

/-- A round of the loop: what the collector meets, what then stands on the disk (`some none`
is a file that cannot be opened), and the rest as before. -/
structure Round where
  env : Surroundings
  disk : String → Option (Option Bytes)
  nowTs : Int
  flush : FlushOutcome

inductive FileEvent
  | mergeCollapsed (fpath : String)
  | remove (fpath : String)
deriving DecidableEq, Repr

section burst
variable (task : CollectTask) (outputDir : String) (collector : Collector) (round : Round)

def burst : Except String (List String) := collector.record round.env (burstTask task) outputDir

def looksCollapsed (fname : String) : Prop := "collapsed".toList <:+: fname.toList

instance decidableLooksCollapsed (fname : String) : Decidable (looksCollapsed fname) :=
  inferInstanceAs (Decidable (_ <:+: _))

def fileEvents (disk : String → Option (Option Bytes)) (fname : String) : List FileEvent :=
  let fpath := outputDir ++ "/" ++ fname
  (if looksCollapsed fname ∧ (disk fpath).isSome then [.mergeCollapsed fpath] else []) ++
    [.remove fpath]

def burstEvents : List FileEvent :=
  match burst task outputDir collector round with
  | .error _ => []
  | .ok files => files.flatMap (fileEvents outputDir round.disk)

def Round.iteration : Iteration where
  burst := (burst task outputDir collector round).toOption.map fun files =>
    files.map fun fname => ⟨fname, (round.disk (outputDir ++ "/" ++ fname)).join⟩
  nowTs := round.nowTs
  flush := round.flush

def apply (disk : String → Option (Option Bytes)) (s : State) : FileEvent → State
  | .mergeCollapsed fpath =>
    match (disk fpath).join with
    | none => s
    | some contents => { s with
        stacks_ := mergeCollapsed s.stacks_ contents
        merged := s.merged ++ samples contents }
  | .remove _ => s

theorem mergeBurst_iteration (s : State) :
    mergeBurst s (round.iteration task outputDir collector).burst =
      (burstEvents task outputDir collector round).foldl (apply round.disk) s := by
  have file : ∀ (s : State) (fname : String),
      mergeFile s ⟨fname, (round.disk (outputDir ++ "/" ++ fname)).join⟩ =
        (fileEvents outputDir round.disk fname).foldl (apply round.disk) s := by
    intro s fname
    have unread : (round.disk (outputDir ++ "/" ++ fname)).join = none →
        apply round.disk s (.mergeCollapsed (outputDir ++ "/" ++ fname)) = s := by
      intro nothing
      rw [apply, nothing]
    rw [mergeFile, fileEvents]
    cases found : (round.disk (outputDir ++ "/" ++ fname)).join with
    | none =>
      by_cases called : looksCollapsed fname ∧ (round.disk (outputDir ++ "/" ++ fname)).isSome
      · rw [if_pos called]
        exact (unread found).symm
      · rw [if_neg called]
        rfl
    | some contents =>
      have kept : (round.disk (outputDir ++ "/" ++ fname)).isSome := by
        rw [Option.join_eq_some_iff.mp found]
        rfl
      by_cases named : looksCollapsed fname
      · rw [if_pos ⟨named, kept⟩]
        simp only [List.cons_append, List.nil_append, List.foldl_cons, List.foldl_nil, apply, found]
        exact if_pos named
      · rw [if_neg fun both => named both.1]
        simp only [List.nil_append, List.foldl_cons, List.foldl_nil, apply]
        exact if_neg named
  simp only [Round.iteration, burstEvents]
  cases burst task outputDir collector round with
  | error e => rfl
  | ok files =>
    simp only [Except.toOption, Option.map_some, mergeBurst]
    induction files generalizing s with
    | nil => rfl
    | cons fname files ih =>
      rw [List.map_cons, List.foldl_cons, ih, file, List.flatMap_cons, List.foldl_append]

end burst

section reading
variable (task : CollectTask) (outputDir : String) (rounds : List Round)

/-- In every burst that succeeds, each reported file that exists is merged before it is
removed. -/
def AllRead : Prop :=
  ∀ collector ∈ Collectors.createProfiler task.desc.profilerType, ∀ round ∈ rounds, ∀ files,
    burst task outputDir collector round = .ok files → ∀ fname ∈ files,
      (round.disk (outputDir ++ "/" ++ fname)).isSome →
        [FileEvent.mergeCollapsed (outputDir ++ "/" ++ fname),
          .remove (outputDir ++ "/" ++ fname)].Sublist (burstEvents task outputDir collector round)

theorem named_collapsed {collector : Collector} {round : Round} {files : List String}
    (done : burst task outputDir collector round = .ok files) (other : collector ≠ .perf) :
    looksCollapsed collector.file := by
  cases collector with
  | perf => exact absurd rfl other
  | asyncProfiler => decide
  | ebpf => decide
  | script =>
    simp only [burst, Collector.record, ScriptRunner.record, burstTask, if_true] at done
    cases done

theorem burstEvents_of_ok {collector : Collector} {round : Round} {files : List String}
    (done : burst task outputDir collector round = .ok files) :
    burstEvents task outputDir collector round =
      fileEvents outputDir round.disk collector.file := by
  rw [burstEvents, done]
  simp only [record_files done, List.flatMap_cons, List.flatMap_nil, List.append_nil]

variable {outputDir} in
theorem sublist_fileEvents_iff {disk : String → Option (Option Bytes)} {fname : String}
    (kept : (disk (outputDir ++ "/" ++ fname)).isSome) :
    [FileEvent.mergeCollapsed (outputDir ++ "/" ++ fname),
      .remove (outputDir ++ "/" ++ fname)].Sublist (fileEvents outputDir disk fname) ↔
        looksCollapsed fname := by
  rw [fileEvents]
  by_cases named : looksCollapsed fname
  · rw [if_pos ⟨named, kept⟩]
    exact iff_of_true (List.Sublist.refl _) named
  · rw [if_neg fun both => named both.1]
    refine iff_of_false (fun sub => ?_) named
    simpa using sub.length_le

theorem createProfiler_perf_iff (profilerType : Nat) :
    Collectors.createProfiler profilerType = some .perf ↔ profilerType = 0 := by
  unfold Collectors.createProfiler
  split <;> simp_all

/-- No file goes unread exactly if the collector is not perf or no burst of perf leaves a
file behind. -/
theorem allRead_iff : AllRead task outputDir rounds ↔
    (task.desc.profilerType = 0 → ∀ round ∈ rounds, ∀ files,
      burst task outputDir .perf round = .ok files →
        (round.disk (outputDir ++ "/" ++ Collector.perf.file)).isSome = false) := by
  have unnamed : ¬ looksCollapsed Collector.perf.file := by decide
  constructor
  · intro read perf round member files done
    have made := (createProfiler_perf_iff _).mpr perf
    have reported : Collector.perf.file ∈ files := by
      rw [record_files done]
      exact List.mem_singleton_self _
    refine Bool.eq_false_iff.mpr fun kept => unnamed ?_
    have merged := read _ made round member files done _ reported kept
    rw [burstEvents_of_ok task outputDir done] at merged
    exact (sublist_fileEvents_iff kept).mp merged
  · intro none collector made round member files done fname reported kept
    rw [record_files done, List.mem_singleton] at reported
    subst reported
    rw [burstEvents_of_ok task outputDir done]
    refine (sublist_fileEvents_iff kept).mpr (named_collapsed task outputDir done ?_)
    rintro rfl
    have absent := none ((createProfiler_perf_iff _).mp made) round member files done
    rw [absent] at kept
    exact Bool.false_ne_true kept

end reading

section perf
variable (task : CollectTask) (outputDir : String)

theorem createProfiler_isSome (profilerType : Nat) :
    (Collectors.createProfiler profilerType).isSome =
      ContinuousProfiler.createProfiler profilerType := by
  unfold Collectors.createProfiler ContinuousProfiler.createProfiler
  split <;> simp_all

theorem mergeBurst_perf (s : State) (round : Round) :
    mergeBurst s (round.iteration task outputDir .perf).burst = s := by
  have unnamed : ¬ looksCollapsed Collector.perf.file := by decide
  rw [mergeBurst_iteration]
  cases done : burst task outputDir .perf round with
  | error e =>
    rw [burstEvents, done]
    rfl
  | ok files =>
    rw [burstEvents_of_ok task outputDir done, fileEvents, if_neg fun both => unnamed both.1]
    rfl

structure Blank (s : State) : Prop where
  stacks_ : s.stacks_ = .empty
  merged : s.merged = []
  stored : ∀ segment ∈ s.stored, segment.file = []

theorem Blank.flush {s : State} (blank : Blank s) (tid : String) (outcome : FlushOutcome) :
    Blank (flushSegment tid outputDir outcome s).2 := by
  have file : writeStacks s.stacks_ = [] := by
    rw [blank.stacks_]
    rfl
  have stored : ∀ segment : Segment, segment.file = writeStacks s.stacks_ →
      ∀ other ∈ s.stored ++ [segment], other.file = [] := by
    intro segment written other member
    rcases List.mem_append.mp member with old | new
    · exact blank.stored other old
    · rw [List.mem_singleton.mp new, written, file]
  unfold flushSegment
  split_ifs
  · exact blank
  · exact ⟨rfl, blank.merged, blank.stored⟩
  · exact ⟨rfl, blank.merged, blank.stored⟩
  · exact ⟨rfl, blank.merged, stored _ rfl⟩

theorem Blank.iteration {s : State} (blank : Blank s) (round : Round) :
    Blank (iteration task.desc.taskId outputDir s (round.iteration task outputDir .perf)) := by
  simp only [ContinuousProfiler.iteration, mergeBurst_perf]
  split_ifs
  · have flushed := blank.flush outputDir task.desc.taskId round.flush
    exact ⟨flushed.stacks_, flushed.merged, flushed.stored⟩
  · exact blank

theorem perf_stores_blank (startTs : Int) (rounds : List Round) (last : FlushOutcome) :
    Blank (record { task.desc with profilerType := 0 } outputDir startTs
      (rounds.map (·.iteration task outputDir .perf)) last).2 := by
  have loop : ∀ s, Blank s → Blank ((rounds.map (·.iteration task outputDir .perf)).foldl
      (ContinuousProfiler.iteration task.desc.taskId outputDir) s) := by
    induction rounds with
    | nil => exact fun _ blank => blank
    | cons round rounds ih => exact fun s blank => ih _ (blank.iteration task outputDir round)
  have begun : Blank (start startTs) := ⟨rfl, rfl, fun _ member => absurd member List.not_mem_nil⟩
  simp only [record]
  split_ifs
  · exact begun
  · have ended := loop _ begun
    simp only [finalFlush, ended.stacks_]
    exact ended

end perf

def perfHost : Surroundings where
  exists_ _ := true
  canonical := id
  currentPath := "/"
  exeDir := none
  toolsDir := none
  perf _ := ⟨.exited 0 [], some 1⟩
  asprof _ _ := ⟨.exited 0 [], some 1⟩
  libbpf := ⟨true, true, true, true, true, true, true, true, ""⟩
  outputOpens := true
  scriptOpens := true
  chmodError := none
  script := .exited 0 []

def perfRound : Round := ⟨perfHost, fun _ => some (some [97]), 30, ⟨30, true, true, true⟩⟩

theorem perfRound_unread : ¬ AllRead (dispatched perfTask) "/tmp/drop_t" [perfRound] := by
  intro read
  have events : burstEvents (dispatched perfTask) "/tmp/drop_t" .perf perfRound =
      [.remove "/tmp/drop_t/perf.data"] := by decide
  have merged := read .perf rfl perfRound (List.mem_singleton_self _) ["perf.data"] (by decide)
    "perf.data" (List.mem_singleton_self _) (by decide)
  rw [events] at merged
  simpa using merged.length_le

end DropPlatform.BurstFiles
