import DropPlatform.CountDicts
import DropPlatform.FlameGraph
import DropPlatform.RankedSelections

/-! The analyzer's table of functions: `parse_topn` reads folded stacks and lists the
functions with the largest self counts. The self counts are those of the flame graph; what it
calls inclusive counts the stacks that begin with a function, or else the self count again. -/

namespace DropPlatform.TopFunctions
open KeyedStores CountDicts Tallies TextLines PythonText PrefixTrees RankedSelections

section parser

/-- The frames and the count of a line, unless the line is skipped. -/
def acceptSample (line : Text) : Option (List Text × Int) :=
  let line := strip line
  if line = [] then none
  else match cutLast ' ' line with
    | none => none
    | some (stack, countStr) =>
      match int countStr with
      | none => none
      | some count => some (stack.splitOn ';', count)

structure Functions where
  funcSelf : Keyed Text Int
  funcInclusive : Keyed Text Int
  total : Int

def addSample (t : Functions) (line : Text) : Functions :=
  match acceptSample line with
  | none => t
  | some (frames, count) =>
    { total := t.total + count
      funcSelf := add t.funcSelf (frames.getLastD []) count
      funcInclusive := add t.funcInclusive (frames.headD []) count }

def functions (text : Text) : Functions := (fileLines text).foldl addSample ⟨[], [], 0⟩

structure TopEntry where
  func : Text
  self : Int
  inclusive : Int
  percentage : Float

/-- `sorted(items, key=lambda x: -x[1])`; Python's sort is stable. -/
def sortedBySelf (items : Keyed Text Int) : Keyed Text Int :=
  items.insertionSort fun a b => -a.2 ≤ -b.2

/-- The rounded percentage of one count in another is a parameter. -/
def parseTopn (percentage : Int → Int → Float) (text : Text) (topN : Int) : List TopEntry :=
  let t := functions text
  if t.total = 0 then []
  else (sliceTo (sortedBySelf t.funcSelf) topN).map fun item =>
    { func := item.1
      self := item.2
      inclusive := (t.funcInclusive.lookup item.1).getD item.2
      percentage := percentage item.2 t.total }

end parser

section samples

def samples (text : Text) : List (List Text × Int) :=
  (fileLines text).filterMap acceptSample

def firstFrames (events : List (List Text × Int)) : List (Text × Int) :=
  events.map fun e => (e.1.headD [], e.2)

def lastFrames (events : List (List Text × Int)) : List (Text × Int) :=
  events.map fun e => (e.1.getLastD [], e.2)

theorem functions_eq (text : Text) :
    functions text = ⟨addAll (lastFrames (samples text)), addAll (firstFrames (samples text)),
      ((samples text).map Prod.snd).sum⟩ := by
  have counted : functions text = (samples text).foldl (fun t e =>
      ⟨add t.funcSelf (e.1.getLastD []) e.2, add t.funcInclusive (e.1.headD []) e.2,
        t.total + e.2⟩) ⟨[], [], 0⟩ :=
    foldl_eq_foldl_filterMap (fun t line skipped => by rw [addSample, skipped])
      (fun t line e read => by rw [addSample, read]) _ _
  rw [counted]
  induction samples text using List.reverseRecOn with
  | nil => rfl
  | append_singleton events e ih =>
    simp only [List.foldl_concat, ih, lastFrames, firstFrames, List.map_append, List.map_singleton,
      addAll_concat, List.sum_append, List.sum_singleton]

theorem funcSelf_eq (text : Text) :
    (functions text).funcSelf = addAll (lastFrames (samples text)) := by rw [functions_eq]

theorem funcInclusive_eq (text : Text) :
    (functions text).funcInclusive = addAll (firstFrames (samples text)) := by rw [functions_eq]

theorem total_eq (text : Text) :
    (functions text).total = ((samples text).map Prod.snd).sum := by rw [functions_eq]

/-- What is read of a line without white space around it; an empty one has no space. -/
def readSample (line : Text) : Option (List Text × Int) :=
  match cutLast ' ' line with
  | none => none
  | some (stack, countStr) =>
    match int countStr with
    | none => none
    | some count => some (stack.splitOn ';', count)

theorem acceptSample_eq (line : Text) : acceptSample line = readSample (strip line) := by
  rw [acceptSample]
  split_ifs with empty
  · rw [empty]
    rfl
  · rfl

theorem filterMap_acceptSample (ls : List Text) :
    ls.filterMap acceptSample = (solidLines ls).filterMap readSample := by
  induction ls with
  | nil => rfl
  | cons line ls ih =>
    rw [solidLines_cons, List.filterMap_cons, acceptSample_eq, ih]
    split_ifs with empty
    · rw [empty]
      rfl
    · rw [List.filterMap_cons]

theorem acceptLine_eq (line : Text) :
    FlameGraph.acceptLine line = (acceptSample line).filter fun e => 0 < e.2 := by
  rw [FlameGraph.acceptLine, acceptSample]
  split_ifs
  · rfl
  cases cutLast ' ' (strip line) with
  | none => rfl
  | some cut =>
    obtain ⟨stack, countStr⟩ := cut
    dsimp only
    cases int countStr with
    | none => rfl
    | some count =>
      by_cases low : count ≤ 0
      · simp [low, Option.filter]
      · simp [Option.filter, not_le.mp low]

theorem accepted_eq {text : Text} (plain : PlainBreaks text) :
    FlameGraph.accepted text = (samples text).filter fun e => 0 < e.2 := by
  have same : samples text = (splitlines (strip text)).filterMap acceptSample := by
    rw [samples, fileLines_eq_splitlines plain, filterMap_acceptSample, filterMap_acceptSample,
      solidLines_strip]
  rw [same, FlameGraph.accepted, List.filter_filterMap]
  exact List.filterMap_congr fun line _ => acceptLine_eq line

theorem splitOn_ne_nil (text : Text) : text.splitOn ';' ≠ [] := List.splitOnP_ne_nil _ _

theorem frames_ne_nil {text : Text} {e : List Text × Int} (member : e ∈ samples text) :
    e.1 ≠ [] := by
  obtain ⟨line, _, read⟩ := List.mem_filterMap.mp member
  rw [acceptSample_eq, readSample] at read
  cases cut : cutLast ' ' (strip line) with
  | none =>
    rw [cut] at read
    cases read
  | some parts =>
    obtain ⟨stack, countStr⟩ := parts
    cases number : int countStr with
    | none =>
      simp only [cut, number] at read
      cases read
    | some count =>
      simp only [cut, number] at read
      cases read
      exact splitOn_ne_nil stack

end samples

section counts
variable {text : Text}

theorem getLastD_eq_iff {frames : List Text} (filled : frames ≠ []) (f : Text) :
    frames.getLastD [] = f ↔ frames.getLast? = some f := by
  rw [List.getLastD_eq_getLast?, List.getLast?_eq_some_getLast filled, Option.getD_some,
    Option.some_inj]

theorem headD_eq_iff {frames : List Text} (filled : frames ≠ []) (f : Text) :
    frames.headD [] = f ↔ frames.head? = some f := by
  rw [List.headD_eq_head?_getD, List.head?_eq_some_head filled, Option.getD_some, Option.some_inj]

theorem weight_lastFrames (text : Text) (f : Text) :
    weight (· = f) (lastFrames (samples text)) = weight (·.getLast? = some f) (samples text) := by
  rw [lastFrames, weight_map fun frames : List Text => frames.getLastD []]
  exact weight_congr fun line member => getLastD_eq_iff (frames_ne_nil member) f

theorem weight_firstFrames (text : Text) (f : Text) :
    weight (· = f) (firstFrames (samples text)) = weight (·.head? = some f) (samples text) := by
  rw [firstFrames, weight_map fun frames : List Text => frames.headD []]
  exact weight_congr fun line member => headD_eq_iff (frames_ne_nil member) f

theorem get_funcSelf (text : Text) (f : Text) :
    get (functions text).funcSelf f = weight (·.getLast? = some f) (samples text) := by
  rw [funcSelf_eq, get_addAll rfl, weight_lastFrames]

end counts

section inclusive
variable {text : Text} {percentage : Int → Int → Float} {topN : Int}

theorem mem_parseTopn {e : TopEntry} (member : e ∈ parseTopn percentage text topN) :
    e.self = weight (·.getLast? = some e.func) (samples text) ∧
    e.inclusive = if e.func ∈ keys (firstFrames (samples text))
      then weight (·.head? = some e.func) (samples text) else e.self := by
  rw [parseTopn] at member
  split_ifs at member with zero
  · exact absurd member List.not_mem_nil
  obtain ⟨item, inside, rfl⟩ := List.mem_map.mp member
  have listed : item ∈ (functions text).funcSelf := by
    rw [sliceTo] at inside
    exact (List.mem_insertionSort _).mp (List.mem_of_mem_take inside)
  rw [funcSelf_eq] at listed
  refine ⟨?_, ?_⟩
  · rw [mem_addAll rfl _ listed, weight_lastFrames]
  · have zero : (default : Int) = 0 := rfl
    simp only [funcInclusive_eq, lookup_addAll zero, weight_firstFrames]
    split_ifs <;> rfl

/-- Every stack that counts and has the function in it begins with it, or ends with it if no
stack begins with it. -/
def Fits (events : List (List Text × Int)) (f : Text) : Prop :=
  ∀ line ∈ events, 0 < line.2 → f ∈ line.1 →
    if f ∈ keys (firstFrames events) then line.1.head? = some f else line.1.getLast? = some f

theorem inclusive_eq_iff {e : TopEntry} (member : e ∈ parseTopn percentage text topN)
    (nonneg : ∀ line ∈ samples text, 0 ≤ line.2) :
    e.inclusive = weight (e.func ∈ ·) (samples text) ↔ Fits (samples text) e.func := by
  obtain ⟨self, inclusive⟩ := mem_parseTopn member
  rw [inclusive, self, Fits]
  split_ifs
  · exact weight_eq_iff nonneg fun frames begins => List.mem_of_mem_head? begins
  · exact weight_eq_iff nonneg fun frames ends => List.mem_of_mem_getLast? ends

theorem self_le_weight {e : TopEntry} (member : e ∈ parseTopn percentage text topN)
    (nonneg : ∀ line ∈ samples text, 0 ≤ line.2) :
    e.self ≤ weight (e.func ∈ ·) (samples text) := by
  rw [(mem_parseTopn member).1]
  exact weight_le nonneg fun frames ends => List.mem_of_mem_getLast? ends

theorem inclusive_right_iff (percentage : Int → Int → Float) (topN : Int)
    (nonneg : ∀ line ∈ samples text, 0 ≤ line.2) :
    (∀ e ∈ parseTopn percentage text topN,
      e.inclusive = weight (e.func ∈ ·) (samples text) ∧ e.self ≤ e.inclusive) ↔
    ∀ e ∈ parseTopn percentage text topN, Fits (samples text) e.func := by
  refine forall₂_congr fun e member => ?_
  rw [inclusive_eq_iff member nonneg |>.symm, and_iff_left_iff_imp]
  intro right
  rw [right]
  exact self_le_weight member nonneg

def twoStacks : Text := ['f', ';', 'g', ' ', '3', '\n', 'f', ' ', '2']

theorem inclusive_right_iff_twoStacks :
    samples twoStacks = [([['f'], ['g']], 3), ([['f']], 2)] ∧
    ∀ e ∈ parseTopn (fun _ _ => 0) twoStacks 30,
      e.inclusive = weight (e.func ∈ ·) (samples twoStacks) ∧ e.self ≤ e.inclusive := by
  have nonneg : ∀ line ∈ samples twoStacks, 0 ≤ line.2 := by decide +kernel
  refine ⟨by decide +kernel, (inclusive_right_iff (fun _ _ => 0) 30 nonneg).mpr ?_⟩
  unfold Fits
  decide +kernel

def innerFunction : Text := ['a', ';', 'b', ' ', '5', '\n', 'b', ';', 'c', ' ', '1']

theorem innerFunction_inclusive :
    (parseTopn (fun _ _ => 0) innerFunction 30).map (fun e => (e.func, e.self, e.inclusive)) =
      [(['b'], 5, 1), (['c'], 1, 1)] ∧
    weight (['b'] ∈ ·) (samples innerFunction) = 6 := by
  decide +kernel

end inclusive

section tree
variable {text : Text} {maxDepth : Int}

theorem counts_samples (plain : PlainBreaks text)
    (shallow : ∀ line ∈ samples text, line.1.length ≤ maxDepth) :
    Counts ((splitlines (strip text)).foldl (FlameGraph.addLine maxDepth) FlameGraph.root)
      ((samples text).filter fun line => 0 < line.2) := by
  have counts := FlameGraph.counts_addLine text maxDepth
  have uncut : (FlameGraph.accepted text).map (fun l => (FlameGraph.cutFrames maxDepth l.1, l.2)) =
      (samples text).filter fun line => 0 < line.2 := by
    rw [accepted_eq plain]
    refine (List.map_congr_left fun line member => ?_).trans (List.map_id _)
    have fits := shallow line (List.mem_of_mem_filter member)
    rw [FlameGraph.cutFrames, if_neg (by omega), id]
  rwa [uncut] at counts

theorem total_eq_value (plain : PlainBreaks text) (nonneg : ∀ line ∈ samples text, 0 ≤ line.2)
    (shallow : ∀ line ∈ samples text, line.1.length ≤ maxDepth) :
    (functions text).total = (FlameGraph.collapsedToTree text maxDepth).value := by
  rw [FlameGraph.collapsedToTree, (counts_samples plain shallow).value_propagate,
    weight_filter_pos nonneg, total_eq]
  simp [weight]

theorem self_eq_weight_names (plain : PlainBreaks text)
    (nonneg : ∀ line ∈ samples text, 0 ≤ line.2)
    (shallow : ∀ line ∈ samples text, line.1.length ≤ maxDepth) (f : Text) :
    get (functions text).funcSelf f =
      weight (· = f) (names (below (FlameGraph.collapsedToTree text maxDepth))) := by
  rw [FlameGraph.collapsedToTree, (counts_samples plain shallow).weight_own,
    weight_filter_pos nonneg, get_funcSelf]

end tree

section selection
variable {text : Text}

def appears (text : Text) (f : Text) : Nat := (keys (lastFrames (samples text))).idxOf f

theorem sortedBySelf_eq (items : Keyed Text Int) :
    sortedBySelf items = items.insertionSort fun a b => b.2 ≤ a.2 := by
  simp only [sortedBySelf, neg_le_neg_iff]

theorem pairwise_sortedBySelf (text : Text) :
    (sortedBySelf (functions text).funcSelf).Pairwise
      (Before Prod.snd fun a b => appears text a.1 < appears text b.1) := by
  rw [sortedBySelf_eq, funcSelf_eq]
  refine pairwise_insertionSort_stable ?_
  have ordered := keys_addAll_ordered (lastFrames (samples text))
  rw [List.pairwise_map] at ordered
  exact ordered

theorem listed_eq (percentage : Int → Int → Float) (some : (functions text).total ≠ 0)
    (topN : Nat) :
    (parseTopn percentage text topN).map (fun e => (e.func, e.self)) =
      (sortedBySelf (functions text).funcSelf).take topN := by
  rw [parseTopn, if_neg some, List.map_map, sliceTo, if_pos (Int.natCast_nonneg topN),
    Int.toNat_natCast]
  exact List.map_id _

theorem selects_parseTopn (percentage : Int → Int → Float) (some : (functions text).total ≠ 0)
    (topN : Nat) :
    Selects Prod.snd topN (functions text).funcSelf
      ((parseTopn percentage text topN).map fun e => (e.func, e.self)) := by
  rw [listed_eq percentage some]
  have ranked : Ranked Prod.snd (sortedBySelf (functions text).funcSelf) :=
    (pairwise_sortedBySelf text).imp fun before => before.le
  exact ranked.selects_take (List.perm_insertionSort _ _) topN

theorem mem_funcSelf_iff (text : Text) (f : Text) :
    f ∈ (functions text).funcSelf.map Prod.fst ↔
      ∃ line ∈ samples text, line.1.getLast? = some f := by
  rw [funcSelf_eq, mem_keys_addAll, keys, lastFrames, List.map_map, List.mem_map]
  refine exists_congr fun line => and_congr_right fun member => ?_
  exact getLastD_eq_iff (frames_ne_nil member) f

theorem topn_agrees_with_tree (percentage : Int → Int → Float) {maxDepth : Int} (topN : Nat)
    (plain : PlainBreaks text) (nonneg : ∀ line ∈ samples text, 0 ≤ line.2)
    (shallow : ∀ line ∈ samples text, line.1.length ≤ maxDepth) :
    (functions text).total = (FlameGraph.collapsedToTree text maxDepth).value ∧
    (∀ f, get (functions text).funcSelf f =
      weight (· = f) (names (below (FlameGraph.collapsedToTree text maxDepth)))) ∧
    ((functions text).funcSelf.map Prod.fst).Nodup ∧
    (∀ f, f ∈ (functions text).funcSelf.map Prod.fst ↔
      ∃ line ∈ samples text, line.1.getLast? = some f) ∧
    (0 < (functions text).total →
      Selects Prod.snd topN (functions text).funcSelf
        ((parseTopn percentage text topN).map fun e => (e.func, e.self)) ∧
      ((parseTopn percentage text topN).map fun e => (e.func, e.self)).Pairwise
        (Before Prod.snd fun a b => appears text a.1 < appears text b.1)) := by
  refine ⟨total_eq_value plain nonneg shallow, self_eq_weight_names plain nonneg shallow, ?_,
    mem_funcSelf_iff text, fun positive => ⟨selects_parseTopn percentage positive.ne' topN, ?_⟩⟩
  · rw [funcSelf_eq]
    exact nodup_addAll _
  · rw [listed_eq percentage positive.ne']
    exact (pairwise_sortedBySelf text).sublist (List.take_sublist _ _)

def recursion : Text :=
  ['f', ';', 'g', ' ', '3', '\n', 'f', ';', 'g', ';', 'f', ' ', '2', '\n', 'h', ' ', '0', '\n',
    'f', ' ', '1', '\n']

theorem topn_agrees_with_tree_recursion :
    (functions recursion).total = (FlameGraph.collapsedToTree recursion 200).value ∧
    get (functions recursion).funcSelf ['f'] =
      weight (· = ['f']) (names (below (FlameGraph.collapsedToTree recursion 200))) ∧
    (parseTopn (fun _ _ => 0) recursion 2).map (fun e => (e.func, e.self)) =
      [(['g'], 3), (['f'], 3)] ∧
    Selects Prod.snd 2 (functions recursion).funcSelf
      ((parseTopn (fun _ _ => 0) recursion 2).map fun e => (e.func, e.self)) := by
  have plain : PlainBreaks recursion := by
    have all : recursion.all (fun c => !isLineBreak c || c == '\n' || c == '\r') = true := by
      decide +kernel
    intro c member breaks
    simpa [breaks] using List.all_eq_true.mp all c member
  have nonneg : ∀ line ∈ samples recursion, 0 ≤ line.2 := by decide +kernel
  have shallow : ∀ line ∈ samples recursion, line.1.length ≤ (200 : Int) := by decide +kernel
  have agrees := topn_agrees_with_tree (fun _ _ => 0) 2 plain nonneg shallow
  have positive : 0 < (functions recursion).total := by decide +kernel
  exact ⟨agrees.1, agrees.2.1 ['f'], by decide +kernel, (agrees.2.2.2.2 positive).1⟩

end selection

end DropPlatform.TopFunctions
