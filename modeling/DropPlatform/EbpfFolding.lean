import DropPlatform.OffCpuProbe
import DropPlatform.RepeatedWords
import DropPlatform.UserSymbols

/-! What `EbpfLoader::poll` makes of one snapshot of the counts: the keys with a count are
collected, the user stacks behind them are read and their symbols resolved, every key is
rendered as one line of frames, and the counts of equal lines are added up. The calls of
`ReadUserMaps` may all answer differently, and `addr2line` may print anything. -/

namespace DropPlatform.EbpfFolding
open TextLines Tallies CollapsedStacks OffCpuProbe UserMaps UserSymbols RepeatedWords

section kallsyms

/-- What `operator>>` reads as a name: some characters, none of them white space. -/
structure KernelName where
  name : Bytes
  filled : name ≠ []
  clean : newline ∉ name

abbrev Ksyms := AList fun _ : UInt64 => KernelName

/-- `iss >> std::hex >> addr`; a number that does not fit fails. -/
def extractHex (text : Bytes) : Option (UInt64 × Bytes) :=
  let field := hexField text
  if field.digits = [] ∨ 2 ^ 64 ≤ hexNumeral field.digits then none
  else some (field.value, field.rest)

def firstWord (text : Bytes) : Bytes := (text.dropWhile isSpace).takeWhile (¬ isSpace ·)

theorem firstWord_clean (text : Bytes) : newline ∉ firstWord text := by
  intro inside
  have plain := List.mem_takeWhile_imp inside
  exact absurd plain (by decide)

/-- The address, one character for the type, and the name. -/
def parseKallsym (line : Bytes) : Option (UInt64 × KernelName) :=
  match extractHex line with
  | none => none
  | some (addr, rest) =>
    match rest.dropWhile isSpace with
    | [] => none
    | _ :: rest =>
      if filled : firstWord rest = [] then none
      else some (addr, ⟨firstWord rest, filled, firstWord_clean rest⟩)

/-- `none` if the file cannot be opened; a later line for the same address replaces an
earlier one. -/
def readKallsyms (file : Option Bytes) : Ksyms :=
  match file with
  | none => ∅
  | some text => ((lines newline text).filterMap parseKallsym).foldl
      (fun syms sym => syms.insert sym.1 sym.2) ∅

end kallsyms

def unknown : Bytes := [91, 117, 110, 107, 110, 111, 119, 110, 93]

/-- The symbol at the greatest address that is not above the given one. -/
def resolveKsym (syms : Ksyms) (addr : UInt64) : Bytes :=
  match (syms.keys.filter (· ≤ addr)).max? with
  | none => unknown
  | some base => ((syms.lookup base).map KernelName.name).getD unknown

/-- What a poll finds outside: the text of `/proc/kallsyms`, the map `stack_traces`, what
`ReadUserMaps` answers for a key in the second phase and for each frame of a key in the
third, and what `addr2line` prints. -/
structure Surroundings where
  kallsyms : Option Bytes
  stackTraces : Int32 → Option (Vector UInt64 64)
  userMaps : StackKey → List UserSym
  frameMaps : StackKey → Nat → List UserSym
  popen : Popen

/-- The entries of the map `counts`, in the order of the iteration. -/
structure Snapshot where
  entries : List (StackKey × UInt64)
  distinct : (entries.map Prod.fst).Nodup

structure Collected where
  allKeys : List StackKey
  keyCounts : AList fun _ : StackKey => UInt64

/-- The first phase; entries with the count zero are passed over. -/
def collect (snapshot : Snapshot) : Collected :=
  snapshot.entries.foldl (fun c entry =>
    if entry.2 = 0 then c
    else ⟨c.allKeys ++ [entry.1], c.keyCounts.insert entry.1 entry.2⟩) ⟨[], ∅⟩

def addresses (stack : Vector UInt64 64) : List UInt64 := stack.toList.takeWhile (· ≠ 0)

def fileOffset (maps : List UserSym) (addr : UInt64) : Option (Bytes × UInt64) :=
  (maps.find? fun m => m.start ≤ addr ∧ addr < m.stop).map fun m =>
    (m.path, addr - m.start + m.offset)

structure UserStacks where
  userStacks : AList fun _ : UInt32 × Int32 => List UInt64
  toResolve : List (Bytes × UInt64)

variable (env : Surroundings)

def collectUser (allKeys : List StackKey) : UserStacks :=
  allKeys.foldl (fun u key =>
    if 0 ≤ key.userStackId then
      match env.stackTraces key.userStackId with
      | some stack =>
        let addrs := addresses stack
        ⟨u.userStacks.insert (key.tgid, key.userStackId) addrs,
          u.toResolve ++ addrs.filterMap (fileOffset (env.userMaps key))⟩
      | none => u
    else u) ⟨∅, []⟩

def kernelFrames (key : StackKey) : List Bytes :=
  if 0 ≤ key.kernStackId then
    match env.stackTraces key.kernStackId with
    | some stack => (addresses stack).map (resolveKsym (readKallsyms env.kallsyms))
    | none => []
  else []

def userFrames (user : UserStacks) (resolved : Resolved) (key : StackKey) : List Bytes :=
  if 0 ≤ key.userStackId then
    match user.userStacks.lookup (key.tgid, key.userStackId) with
    | some addrs => addrs.mapIdx fun i addr => resolveUserFrame (env.frameMaps key i) addr resolved
    | none => []
  else []

/-- The loop over the reversed frames, with `;` between any two of them. -/
def appendFrames (stackStr : Bytes) (frames : List Bytes) : Bytes :=
  frames.reverse.foldl (fun stackStr f =>
    (if stackStr = [] then stackStr else stackStr ++ [59]) ++ f) stackStr

def stackString (kernel user : List Bytes) : Bytes :=
  let stackStr := appendFrames (appendFrames [] kernel) user
  if stackStr = [] then unknown else stackStr

/-- The line that a key is rendered as, once the keys of the snapshot are collected. -/
def render (allKeys : List StackKey) (key : StackKey) : Bytes :=
  let user := collectUser env allKeys
  let resolved := batchResolveUserSymbols env.popen user.toResolve
  stackString (kernelFrames env key) (userFrames env user resolved key)

def foldKeys (allKeys : List StackKey) (keyCounts : StackKey → UInt64) : Stacks :=
  Tally.empty.addAll (allKeys.map fun key => (render env allKeys key, keyCounts key))

def fold (snapshot : Snapshot) : Stacks :=
  let c := collect snapshot
  foldKeys env c.allKeys fun key => (c.keyCounts.lookup key).getD 0

/-- The fourth phase writes the same format as `flush_segment`. -/
def pollFile (snapshot : Snapshot) : Bytes := writeStacks (fold env snapshot)

section collecting

def Snapshot.counted (snapshot : Snapshot) : List (StackKey × UInt64) :=
  snapshot.entries.filter (·.2 ≠ 0)

theorem collect_eq (snapshot : Snapshot) :
    (collect snapshot).allKeys = snapshot.counted.map Prod.fst ∧
      ∀ entry ∈ snapshot.counted, (collect snapshot).keyCounts.lookup entry.1 = some entry.2 := by
  obtain ⟨entries, distinct⟩ := snapshot
  simp only [collect, Snapshot.counted]
  induction entries using List.reverseRecOn with
  | nil => simp
  | append_singleton entries entry ih =>
    rw [List.map_append, List.map_singleton] at distinct
    have ⟨keys, counts⟩ := ih (List.Nodup.of_append_left distinct)
    have fresh : entry.1 ∉ entries.map Prod.fst := by
      intro member
      exact List.disjoint_of_nodup_append distinct member (List.mem_singleton_self _)
    rw [List.foldl_append, List.foldl_cons, List.foldl_nil, List.filter_append]
    by_cases zero : entry.2 = 0
    · simp only [zero, if_true, keys]
      simpa [zero] using counts
    · simp only [if_neg zero, keys]
      refine ⟨by simp [zero], ?_⟩
      intro other member
      rcases List.mem_append.mp member with old | new
      · have differs : other.1 ≠ entry.1 := by
          intro same
          exact fresh (same ▸ List.mem_map_of_mem (List.mem_filter.mp old).1)
        rw [AList.lookup_insert_ne differs]
        exact counts other old
      · have same : other = entry := by simpa [zero] using new
        rw [same, AList.lookup_insert]

def rendered (snapshot : Snapshot) : List (Bytes × UInt64) :=
  snapshot.counted.map fun entry => (render env (snapshot.counted.map Prod.fst) entry.1, entry.2)

theorem fold_eq (snapshot : Snapshot) :
    fold env snapshot = Tally.empty.addAll (rendered env snapshot) := by
  have ⟨keys, counts⟩ := collect_eq snapshot
  rw [fold, foldKeys, keys, List.map_map, rendered]
  congr 1
  apply List.map_congr_left
  intro entry member
  simp only [Function.comp, counts entry member, Option.getD_some]

end collecting

section frames
variable {env}

theorem resolveKsym_named (syms : Ksyms) (addr : UInt64) :
    resolveKsym syms addr ≠ [] ∧ newline ∉ resolveKsym syms addr := by
  unfold resolveKsym
  split
  · decide
  · rename_i base _
    cases syms.lookup base with
    | none => decide
    | some sym => exact ⟨sym.filled, sym.clean⟩

theorem kernelFrames_named (key : StackKey) :
    ∀ f ∈ kernelFrames env key, f ≠ [] ∧ newline ∉ f := by
  intro f member
  unfold kernelFrames at member
  split at member
  · split at member
    · obtain ⟨addr, _, rfl⟩ := List.mem_map.mp member
      exact resolveKsym_named _ addr
    · exact absurd member List.not_mem_nil
  · exact absurd member List.not_mem_nil

theorem userFrames_named {user : UserStacks} {resolved : Resolved} (all : AllNamed resolved)
    (key : StackKey) : ∀ f ∈ userFrames env user resolved key, f ≠ [] ∧ newline ∉ f := by
  intro f member
  unfold userFrames at member
  split at member
  · split at member
    · obtain ⟨i, _, rfl⟩ := List.mem_mapIdx.mp member
      exact resolveUserFrame_named all _ _
    · exact absurd member List.not_mem_nil
  · exact absurd member List.not_mem_nil

end frames

section lines

def closed (line : Bytes) : Bytes := if line = [] then [] else line ++ [59]

/-- Every frame with a separator behind it, outermost first. -/
def separated (frames : List Bytes) : Bytes := frames.reverse.flatMap (· ++ [59])

theorem closed_eq_nil {line : Bytes} : closed line = [] ↔ line = [] := by
  unfold closed
  split_ifs with empty <;> simp [empty]

theorem closed_inj {line other : Bytes} : closed line = closed other ↔ line = other := by
  constructor
  · intro same
    by_cases empty : line = []
    · rw [closed_eq_nil.mpr empty, eq_comm, closed_eq_nil] at same
      rw [empty, same]
    · have filled : other ≠ [] := by
        intro none
        rw [closed_eq_nil.mpr none, closed_eq_nil] at same
        exact empty same
      rw [closed, closed, if_neg empty, if_neg filled] at same
      exact List.append_cancel_right same
  · rintro rfl
    rfl

theorem closed_step {line f : Bytes} (filled : f ≠ []) :
    closed ((if line = [] then line else line ++ [59]) ++ f) = closed line ++ (f ++ [59]) := by
  by_cases empty : line = []
  · simp [closed, empty, filled]
  · simp [closed, empty]

theorem closed_appendFrames {frames : List Bytes} (filled : ∀ f ∈ frames, f ≠ [])
    (line : Bytes) : closed (appendFrames line frames) = closed line ++ separated frames := by
  have reversed : ∀ f ∈ frames.reverse, f ≠ [] := fun f member =>
    filled f (List.mem_reverse.mp member)
  unfold appendFrames separated
  generalize frames.reverse = frames at reversed
  induction frames generalizing line with
  | nil => simp
  | cons f frames ih =>
    have others := ih ((if line = [] then line else line ++ [59]) ++ f)
      fun g member => reversed g (List.mem_cons_of_mem _ member)
    rw [List.foldl_cons, others, closed_step (reversed f List.mem_cons_self), List.flatMap_cons,
      List.append_assoc]

variable {kernel user : List Bytes}

theorem closed_line (kern : ∀ f ∈ kernel, f ≠ []) (usr : ∀ f ∈ user, f ≠ []) :
    closed (appendFrames (appendFrames [] kernel) user) = separated kernel ++ separated user := by
  rw [closed_appendFrames usr, closed_appendFrames kern]
  rfl

theorem separated_eq_nil {frames : List Bytes} : separated frames = [] ↔ frames = [] := by
  cases frames with
  | nil => exact iff_of_true rfl rfl
  | cons f frames => simp [separated]

theorem separated_clean {frames : List Bytes} (clean : ∀ f ∈ frames, newline ∉ f) :
    newline ∉ separated frames := by
  intro inside
  obtain ⟨f, member, here⟩ := List.mem_flatMap.mp inside
  rcases List.mem_append.mp here with name | mark
  · exact clean f (List.mem_reverse.mp member) name
  · exact absurd mark (by decide)

theorem stackString_clean (kern : ∀ f ∈ kernel, f ≠ [] ∧ newline ∉ f)
    (usr : ∀ f ∈ user, f ≠ [] ∧ newline ∉ f) : newline ∉ stackString kernel user := by
  simp only [stackString]
  split_ifs with empty
  · decide
  · intro inside
    have line := closed_line (fun f member => (kern f member).1) (fun f member => (usr f member).1)
    rw [closed, if_neg empty] at line
    have there := List.mem_append_left [59] inside
    rw [line, List.mem_append] at there
    rcases there with k | u
    · exact separated_clean (fun f member => (kern f member).2) k
    · exact separated_clean (fun f member => (usr f member).2) u

end lines

section conservation

theorem render_clean (allKeys : List StackKey) (key : StackKey) :
    newline ∉ render env allKeys key :=
  stackString_clean (kernelFrames_named key) (userFrames_named (allNamed_batchResolve _ _) key)

theorem fold_clean (snapshot : Snapshot) : Clean (fold env snapshot).entries := by
  rw [fold_eq]
  refine clean_empty.addAll fun k member => ?_
  obtain ⟨entry, there, rfl⟩ := List.mem_map.mp member
  obtain ⟨source, _, rfl⟩ := List.mem_map.mp there
  exact render_clean env _ _

theorem weight_rendered (snapshot : Snapshot) (p : Bytes → Prop) [DecidablePred p] :
    weight p (rendered env snapshot) =
      ((snapshot.counted.filter fun entry =>
        p (render env (snapshot.counted.map Prod.fst) entry.1)).map Prod.snd).sum := by
  rw [weight, rendered, List.filter_map, List.map_map]
  rfl

theorem weight_fold (snapshot : Snapshot) (p : Bytes → Prop) [DecidablePred p] :
    weight p (fold env snapshot).entries = weight p (rendered env snapshot) := by
  rw [fold_eq, Tally.weight_addAll]
  exact zero_add _

theorem sum_counted (snapshot : Snapshot) :
    (snapshot.counted.map Prod.snd).sum = (snapshot.entries.map Prod.snd).sum := by
  rw [Snapshot.counted]
  induction snapshot.entries with
  | nil => rfl
  | cons entry entries ih =>
    by_cases zero : entry.2 = 0
    · rw [List.filter_cons_of_neg (by simpa using zero), ih, List.map_cons, List.sum_cons, zero,
        zero_add]
    · rw [List.filter_cons_of_pos (by simpa using zero), List.map_cons, List.sum_cons, ih,
        List.map_cons, List.sum_cons]

end conservation

/-- The file of a poll has one line for each stack that a counted key is rendered as, with
the sum of the counts of these keys; nothing is lost, and `merge_collapsed` reads the same map
back. -/
theorem poll_conserves (snapshot : Snapshot) :
    samples (pollFile env snapshot) = (fold env snapshot).entries ∧
      (keys (fold env snapshot).entries).Nodup ∧
      (∀ stack, stack ∈ keys (fold env snapshot).entries ↔
        ∃ entry ∈ snapshot.counted, render env (snapshot.counted.map Prod.fst) entry.1 = stack) ∧
      (∀ line ∈ (fold env snapshot).entries, line.2 =
        ((snapshot.counted.filter fun entry =>
          render env (snapshot.counted.map Prod.fst) entry.1 = line.1).map Prod.snd).sum) ∧
      ((fold env snapshot).entries.map Prod.snd).sum = (snapshot.entries.map Prod.snd).sum ∧
      mergeCollapsed .empty (pollFile env snapshot) = fold env snapshot := by
  have read : samples (pollFile env snapshot) = (fold env snapshot).entries :=
    samples_writeStacks (fold_clean env snapshot)
  refine ⟨read, ?_, ?_, ?_, ?_, ?_⟩
  · exact (fold env snapshot).ordered.imp fun before => before.ne
  · intro stack
    rw [fold_eq, Tally.mem_keys_addAll]
    simp [Tally.empty, keys, rendered]
  · intro line member
    rw [← (fold env snapshot).ordered.weight_of_mem member, weight_fold, weight_rendered]
  · have whole := weight_fold env snapshot fun _ => True
    rw [weight_rendered, weight] at whole
    simpa [sum_counted] using whole
  · rw [mergeCollapsed_eq, read, Tally.addAll_entries]

section order
variable {kernel user : List Bytes}

def callPath (kernel user : List Bytes) : List Bytes := user.reverse ++ kernel.reverse

def callOrder (kernel user : List Bytes) : Bytes :=
  if callPath kernel user = [] then unknown else [59].intercalate (callPath kernel user)

theorem closed_intercalate {frames : List Bytes} (filled : ∀ f ∈ frames, f ≠ []) :
    closed ([59].intercalate frames) = frames.flatMap (· ++ [59]) := by
  induction frames with
  | nil => rfl
  | cons f frames ih =>
    have others := ih fun g member => filled g (List.mem_cons_of_mem _ member)
    have first := filled f List.mem_cons_self
    cases frames with
    | nil => simp [closed, first]
    | cons g frames =>
      have more : [59].intercalate (g :: frames) ≠ [] := by
        rw [← closed_eq_nil.ne, others]
        simp
      rw [closed, if_neg more] at others
      rw [List.flatMap_cons, ← others, List.intercalate_cons_cons, closed]
      simp

theorem stackString_eq_callOrder_iff (kern : ∀ f ∈ kernel, f ≠ []) (usr : ∀ f ∈ user, f ≠ []) :
    stackString kernel user = callOrder kernel user ↔
      ∃ cycle m n, separated kernel = repeated m cycle ∧ separated user = repeated n cycle := by
  have line := closed_line kern usr
  have path : closed ([59].intercalate (callPath kernel user)) =
      separated user ++ separated kernel := by
    rw [closed_intercalate, callPath, List.flatMap_append]
    · rfl
    · intro f member
      rcases List.mem_append.mp member with u | k
      · exact usr f (List.mem_reverse.mp u)
      · exact kern f (List.mem_reverse.mp k)
  rw [← append_comm_iff, ← line, ← path, closed_inj, stackString, callOrder]
  by_cases none : callPath kernel user = []
  · simp only [callPath, List.append_eq_nil_iff, List.reverse_eq_nil_iff] at none
    simp [none, callPath, appendFrames]
  · have filled : appendFrames (appendFrames [] kernel) user ≠ [] := by
      rw [← closed_eq_nil.ne, line]
      simpa [callPath, separated_eq_nil, and_comm] using none
    simp only [if_neg filled, if_neg none]

end order

def resolvedFrames (allKeys : List StackKey) (key : StackKey) : List Bytes :=
  let user := collectUser env allKeys
  userFrames env user (batchResolveUserSymbols env.popen user.toResolve) key

/-- The line of a key lists its frames from the outermost caller to the innermost callee
exactly if its two stacks are repetitions of one sequence, or one of them has no frames. -/
theorem render_eq_callOrder_iff (allKeys : List StackKey) (key : StackKey) :
    render env allKeys key = callOrder (kernelFrames env key) (resolvedFrames env allKeys key) ↔
      ∃ cycle m n, separated (kernelFrames env key) = repeated m cycle ∧
        separated (resolvedFrames env allKeys key) = repeated n cycle :=
  stackString_eq_callOrder_iff (fun f member => (kernelFrames_named key f member).1)
    (fun f member => (userFrames_named (allNamed_batchResolve _ _) key f member).1)

def oneFrame (addr : UInt64) : Vector UInt64 64 := Vector.ofFn fun i => if i = 0 then addr else 0

def mixed : Surroundings where
  kallsyms := some (ascii "10 t k\n")
  stackTraces id := if id = 1 then some (oneFrame 16) else some (oneFrame 32)
  userMaps _ := []
  frameMaps _ _ := []
  popen _ _ := none

def mixedKey : StackKey := ⟨1, 1, 2, 1⟩

/-- The line is `k;[unknown]:0x20`, with the callee before its caller. -/
theorem mixed_calls_upwards :
    render mixed [mixedKey] mixedKey ≠
      callOrder (kernelFrames mixed mixedKey) (resolvedFrames mixed [mixedKey] mixedKey) := by
  decide +kernel

end DropPlatform.EbpfFolding
