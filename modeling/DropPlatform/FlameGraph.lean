import DropPlatform.PrefixTrees
import DropPlatform.PythonText
import DropPlatform.TextLines

/-! The analyzer's flame graph: `collapsed_to_tree` reads folded stacks line by line into a
tree of frames, cut at a maximal depth, and totals it. -/

namespace DropPlatform.FlameGraph
open Tallies TextLines PrefixTrees PythonText

def acceptLine (line : Text) : Option (List Text × Int) :=
  let line := strip line
  if line = [] then none
  else match cutLast ' ' line with
    | none => none
    | some (stackStr, countStr) =>
      match int countStr with
      | none => none
      | some count => if count ≤ 0 then none else some (stackStr.splitOn ';', count)

def cutFrames (maxDepth : Int) (frames : List Text) : List Text :=
  if maxDepth < frames.length then sliceTo frames maxDepth else frames

def addLine (maxDepth : Int) (root : Node Text Int) (line : Text) : Node Text Int :=
  match acceptLine line with
  | none => root
  | some (frames, count) => insert (cutFrames maxDepth frames) count root

def root : Node Text Int := ⟨"root".toList, 0, []⟩

def collapsedToTree (text : Text) (maxDepth : Int) : Node Text Int :=
  propagate ((splitlines (strip text)).foldl (addLine maxDepth) root)

def accepted (text : Text) : List (List Text × Int) :=
  (splitlines (strip text)).filterMap acceptLine

/-- The accepted lines with their first `depth` frames. -/
def cutLines (text : Text) (depth : Nat) : List (List Text × Int) :=
  (accepted text).map fun line => (line.1.take depth, line.2)

theorem cutFrames_eq_take {maxDepth : Int} (positive : 1 ≤ maxDepth) (frames : List Text) :
    cutFrames maxDepth frames = frames.take maxDepth.toNat := by
  have front : 0 ≤ maxDepth := by omega
  rw [cutFrames, sliceTo, if_pos front]
  split_ifs with long
  · rfl
  · rw [List.take_of_length_le (by omega)]

theorem counts_foldl_addLine (maxDepth : Int) (lines : List Text)
    {node : Node Text Int} {events : List (List Text × Int)} (counts : Counts node events) :
    Counts (lines.foldl (addLine maxDepth) node)
      (events ++ (lines.filterMap acceptLine).map fun l => (cutFrames maxDepth l.1, l.2)) := by
  have counted := counts.foldl ((lines.filterMap acceptLine).map fun l =>
    (cutFrames maxDepth l.1, l.2))
  rw [List.foldl_map] at counted
  rw [foldl_eq_foldl_filterMap (fun node line skipped => ?_) (fun node line e read => ?_)]
  · exact counted
  · rw [addLine, skipped]
  · rw [addLine, read]

theorem counts_addLine (text : Text) (maxDepth : Int) :
    Counts ((splitlines (strip text)).foldl (addLine maxDepth) root)
      ((accepted text).map fun l => (cutFrames maxDepth l.1, l.2)) :=
  counts_foldl_addLine maxDepth _ (.empty _)

theorem exact_collapsedToTree (text : Text) {maxDepth : Int} (positive : 1 ≤ maxDepth) :
    Exact (collapsedToTree text maxDepth) (cutLines text maxDepth.toNat) := by
  have counts := counts_addLine text maxDepth
  simp only [cutFrames_eq_take positive] at counts
  exact counts.exact

def Valued (tree : Node Text Int) (path : List Text) (value : Int) : Prop :=
  ∃ n, At tree path n ∧ n.value = value

theorem valued_iff {tree : Node Text Int} {events : List (List Text × Int)}
    (exact : Exact tree events) {path : List Text} {value : Int} :
    Valued tree path value ↔
      (path ≠ [] → ∃ e ∈ events, path <+: e.1) ∧ weight (path <+: ·) events = value := by
  constructor
  · rintro ⟨n, there, rfl⟩
    exact ⟨fun some => (exact.paths path some).mp ⟨n, there⟩, (exact.values path n there).symm⟩
  · rintro ⟨begins, rfl⟩
    have present : ∃ n, At tree path n := by
      by_cases some : path = []
      · exact ⟨tree, some ▸ rfl⟩
      · exact (exact.paths path some).mpr (begins some)
    obtain ⟨n, there⟩ := present
    exact ⟨n, there, exact.values path n there⟩

theorem collapsedToTree_counts_accepted (text : Text) {maxDepth : Int} (positive : 1 ≤ maxDepth) :
    Exact (collapsedToTree text maxDepth) (cutLines text maxDepth.toNat) ∧
      (collapsedToTree text maxDepth).value = ((accepted text).map Prod.snd).sum ∧
      ∀ other, (accepted other).Perm (accepted text) → ∀ path value,
        (Valued (collapsedToTree other maxDepth) path value ↔
          Valued (collapsedToTree text maxDepth) path value) := by
  have exact := exact_collapsedToTree text positive
  refine ⟨exact, ?_, fun other same path value => ?_⟩
  · rw [exact.values [] _ rfl]
    simp [weight, cutLines, Function.comp_def]
  · have lines : (cutLines other maxDepth.toNat).Perm (cutLines text maxDepth.toNat) := same.map _
    rw [valued_iff exact, valued_iff (exact_collapsedToTree other positive), weight_perm lines]
    simp only [lines.mem_iff]

def sample : Text :=
  ['f', ';', 'g', ' ', '3', '\n', 'f', ' ', '2', '\n', 'x', '\n', 'f', ';', 'g', ';', 'h', ' ', '1']

theorem collapsedToTree_counts_accepted_sample :
    cutLines sample 2 = [([['f'], ['g']], 3), ([['f']], 2), ([['f'], ['g']], 1)] ∧
      Exact (collapsedToTree sample 2) (cutLines sample 2) ∧
      (collapsedToTree sample 2).value = ((accepted sample).map Prod.snd).sum := by
  have counted := collapsedToTree_counts_accepted sample (show (1 : Int) ≤ 2 by decide)
  exact ⟨by decide, counted.1, counted.2.1⟩

end DropPlatform.FlameGraph
