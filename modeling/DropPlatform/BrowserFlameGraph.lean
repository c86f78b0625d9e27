import DropPlatform.FlameGraph
import DropPlatform.RoundedTrees
import DropPlatform.WholeFloats

/-! The browser's flame graph: `collapsedToTree` of `FlameGraph.tsx` beside the analyzer's
function of that name. On folded stacks as the writers emit them both read the same lines, and
JavaScript's numbers are exact there. The analyzer cuts stacks at its maximal depth and the
browser does not, so the trees are the same exactly if no counted stack is deeper. -/

namespace DropPlatform.BrowserFlameGraph
open PrefixTrees RoundedTrees TextLines
open PythonText (toNat_of_isDigit rdropWhile_append_of_pos)

section browser

/-- JavaScript's white space and line terminators. -/
def isSpace (c : Char) : Bool :=
  let n := c.toNat
  9 ≤ n ∧ n ≤ 13 ∨ n = 0x20 ∨ n = 0xA0 ∨ n = 0x1680 ∨ 0x2000 ≤ n ∧ n ≤ 0x200A ∨ n = 0x2028 ∨
    n = 0x2029 ∨ n = 0x202F ∨ n = 0x205F ∨ n = 0x3000 ∨ n = 0xFEFF

def trim (text : Text) : Text := (text.dropWhile isSpace).rdropWhile isSpace

/-- The whole numbers among JavaScript's that are not negative; `none` is infinity. -/
abbrev Number := Option Nat

def numbers : Arithmetic Number := ⟨some 0, WholeFloats.add⟩

/-- `parseInt(text, 10)`: whether there is a minus sign, and the number behind it. It reads the
digits that it finds; `none` stands for `NaN`. -/
def parseInt (text : Text) : Option (Bool × Number) :=
  let text := text.dropWhile isSpace
  let negative := text.head? = some '-'
  let text := if negative ∨ text.head? = some '+' then text.drop 1 else text
  let digits := text.takeWhile Char.isDigit
  if digits = [] then none
  else some (negative, WholeFloats.roundToFloat64 (Nat.ofDigitChars 10 digits 0))

def acceptLine (line : Text) : Option (List Text × Number) :=
  let trimmed := trim line
  if trimmed = [] then none
  else match cutLast ' ' trimmed with
    | none => none
    | some (stack, countStr) =>
      match parseInt countStr with
      | none => none
      | some (negative, count) =>
        if negative ∨ count = some 0 then none else some (stack.splitOn ';', count)

def addLine (root : Node Text Number) (line : Text) : Node Text Number :=
  match acceptLine line with
  | none => root
  | some (frames, count) => insert numbers frames count root

def root : Node Text Number := ⟨"root".toList, some 0, []⟩

def collapsedToTree (text : Text) : Node Text Number :=
  propagate numbers (((trim text).splitOn '\n').foldl addLine root)

end browser

section format

/-- A character of a frame: white space for neither program, and no separator. -/
def Plain (c : Char) : Prop :=
  PythonText.isSpace c = false ∧ isSpace c = false ∧ c ≠ ';'

structure FoldedLine where
  frames : List Text
  count : Nat
  filled : frames ≠ []
  plain : ∀ frame ∈ frames, frame ≠ [] ∧ ∀ c ∈ frame, Plain c

def FoldedLine.stack (l : FoldedLine) : Text := [';'].intercalate l.frames

def FoldedLine.print (l : FoldedLine) : Text := l.stack ++ ' ' :: Nat.toDigits 10 l.count

def folded (ls : List FoldedLine) (final : Bool) : Text :=
  ['\n'].intercalate (ls.map FoldedLine.print) ++ if final then ['\n'] else []

end format

section trimming
variable {space : Char → Bool}

/-- What the two notions of white space have in common. -/
structure Separates (space : Char → Bool) : Prop where
  newline : space '\n'
  digit : ∀ c, c.isDigit → space c = false
  plain : ∀ c, Plain c → space c = false

theorem separates_python : Separates PythonText.isSpace where
  newline := by decide
  digit c digit := by
    have range := toNat_of_isDigit digit
    simp only [PythonText.isSpace, decide_eq_false_iff_not]
    omega
  plain _ plain := plain.1

theorem separates_browser : Separates isSpace where
  newline := by decide
  digit c digit := by
    have range := toNat_of_isDigit digit
    simp only [isSpace, decide_eq_false_iff_not]
    omega
  plain _ plain := plain.2.1

/-- The text begins and ends with characters that are no white space. -/
def Solid (space : Char → Bool) (text : Text) : Prop :=
  ∃ first rest front last, text = first :: rest ∧ text = front ++ [last] ∧
    space first = false ∧ space last = false

theorem Solid.trim {text : Text} (solid : Solid space text) {tail : Text}
    (blank : ∀ c ∈ tail, space c) : ((text ++ tail).dropWhile space).rdropWhile space = text := by
  obtain ⟨first, rest, front, last, begins, ends, dark, darkLast⟩ := solid
  have kept : (text ++ tail).dropWhile space = text ++ tail := by
    rw [begins, List.cons_append, List.dropWhile_cons_of_neg (by simp [dark])]
  rw [kept, rdropWhile_append_of_pos blank, ends,
    List.rdropWhile_concat_neg _ _ _ (by simp [darkLast])]

theorem exists_intercalate (sep : Text) (text : Text) (texts : List Text) :
    ∃ rest, sep.intercalate (text :: texts) = text ++ rest := by
  cases texts with
  | nil => exact ⟨[], by rw [List.intercalate_singleton, List.append_nil]⟩
  | cons next texts =>
    exact ⟨_, by rw [List.intercalate_cons_cons, List.append_assoc]⟩

theorem solid_print (separates : Separates space) (l : FoldedLine) : Solid space l.print := by
  obtain ⟨frame, frames, split⟩ := List.exists_cons_of_ne_nil l.filled
  obtain ⟨filled, plain⟩ := l.plain frame (split ▸ List.mem_cons_self)
  obtain ⟨first, more, chars⟩ := List.exists_cons_of_ne_nil filled
  obtain ⟨rest, stack⟩ := exists_intercalate [';'] frame frames
  have digits : Nat.toDigits 10 l.count ≠ [] := Nat.toDigits_ne_nil
  refine ⟨first, more ++ rest ++ ' ' :: Nat.toDigits 10 l.count,
    l.stack ++ ' ' :: (Nat.toDigits 10 l.count).dropLast, (Nat.toDigits 10 l.count).getLast digits,
    ?_, ?_, ?_, ?_⟩
  · rw [FoldedLine.print, FoldedLine.stack, split, stack, chars]
    rfl
  · rw [FoldedLine.print, List.append_assoc, List.cons_append, List.dropLast_append_getLast digits]
  · exact separates.plain first (plain first (chars ▸ List.mem_cons_self))
  · exact separates.digit _
      (Nat.isDigit_of_mem_toDigits (by decide) (by decide) (List.getLast_mem digits))

theorem solid_intercalate (separates : Separates space) (l : FoldedLine) (ls : List FoldedLine) :
    Solid space (['\n'].intercalate ((l :: ls).map FoldedLine.print)) := by
  induction ls generalizing l with
  | nil =>
    rw [List.map_singleton, List.intercalate_singleton]
    exact solid_print separates l
  | cons next ls ih =>
    obtain ⟨first, rest, _, _, begins, _, dark, _⟩ := solid_print separates l
    obtain ⟨_, _, front, last, _, ends, _, darkLast⟩ := ih next
    rw [List.map_cons, List.map_cons, List.intercalate_cons_cons, ← List.map_cons, ends, begins]
    exact ⟨first, _, _, last, rfl, (List.append_assoc _ _ _).symm, dark, darkLast⟩

theorem trim_folded (separates : Separates space) (ls : List FoldedLine) (final : Bool) :
    ((folded ls final).dropWhile space).rdropWhile space =
      ['\n'].intercalate (ls.map FoldedLine.print) := by
  have blank : ∀ c ∈ (if final then ['\n'] else []), space c := by
    intro c member
    split_ifs at member
    · rw [List.mem_singleton.mp member]
      exact separates.newline
    · exact absurd member List.not_mem_nil
  cases ls with
  | nil =>
    rw [folded, List.map_nil, List.intercalate_nil, List.nil_append, ← List.append_nil (ite _ _ _),
      List.dropWhile_append_of_pos blank]
    rfl
  | cons l ls => exact (solid_intercalate separates l ls).trim blank

end trimming

section reading
variable {l : FoldedLine}

theorem mem_intercalate {sep : Text} {texts : List Text} {c : Char}
    (member : c ∈ sep.intercalate texts) : c ∈ sep ∨ ∃ text ∈ texts, c ∈ text := by
  induction texts with
  | nil => exact absurd member List.not_mem_nil
  | cons text texts ih =>
    cases texts with
    | nil =>
      rw [List.intercalate_singleton] at member
      exact .inr ⟨text, List.mem_singleton_self text, member⟩
    | cons next texts =>
      rw [List.intercalate_cons_cons, List.append_assoc] at member
      rcases List.mem_append.mp member with here | later
      · exact .inr ⟨text, List.mem_cons_self, here⟩
      · rcases List.mem_append.mp later with between | later
        · exact .inl between
        · exact (ih later).imp id fun ⟨other, there, inside⟩ =>
            ⟨other, List.mem_cons_of_mem _ there, inside⟩

theorem isDigit_of_mem {n : Nat} {c : Char} (member : c ∈ Nat.toDigits 10 n) : c.isDigit :=
  Nat.isDigit_of_mem_toDigits (by decide) (by decide) member

theorem not_mem_digits {n : Nat} {c : Char} (other : c.isDigit = false) :
    c ∉ Nat.toDigits 10 n := by
  intro member
  rw [isDigit_of_mem member] at other
  exact Bool.false_ne_true other.symm

theorem not_isLineBreak {c : Char} (member : c ∈ l.print) : PythonText.isLineBreak c = false := by
  have inside : ∀ c, PythonText.isSpace c = false → PythonText.isLineBreak c = false := by
    intro c dark
    by_contra breaks
    rw [PythonText.isSpace_of_isLineBreak ((Bool.not_eq_false _).mp breaks)] at dark
    exact Bool.false_ne_true dark.symm
  rcases List.mem_append.mp member with stack | count
  · rcases mem_intercalate stack with sep | ⟨frame, there, char⟩
    · rw [List.mem_singleton.mp sep]
      decide
    · exact inside c (((l.plain frame there).2 c char).1)
  · rcases List.mem_cons.mp count with rfl | digit
    · decide
    · exact inside c (separates_python.digit c (isDigit_of_mem digit))

theorem splitOn_stack (l : FoldedLine) : l.stack.splitOn ';' = l.frames := by
  apply List.splitOn_intercalate ';' _ l.filled
  intro frame there member
  exact ((l.plain frame there).2 ';' member).2.2 rfl

theorem cutLast_print (l : FoldedLine) :
    cutLast ' ' l.print = some (l.stack, Nat.toDigits 10 l.count) :=
  cutLast_append l.stack (not_mem_digits rfl)

theorem print_ne_nil (l : FoldedLine) : l.print ≠ [] := by
  simp [FoldedLine.print]

def FoldedLine.event (l : FoldedLine) : Option (List Text × Nat) :=
  if l.count = 0 then none else some (l.frames, l.count)

theorem python_acceptLine (small : l.count < 2 ^ 53) :
    FlameGraph.acceptLine l.print = l.event.map fun e => (e.1, (e.2 : Int)) := by
  have stripped : PythonText.strip l.print = l.print := by
    have trimmed := (solid_print separates_python l).trim (List.forall_mem_nil _)
    rwa [List.append_nil] at trimmed
  have short : (Nat.toDigits 10 l.count).length ≤ PythonText.intMaxStrDigits := by
    have bound : (Nat.toDigits 10 l.count).length ≤ 16 :=
      (Nat.length_toDigits_le_iff (by decide) (by decide)).mpr (small.trans (by norm_num))
    exact bound.trans (by decide)
  have count : PythonText.int (Nat.toDigits 10 l.count) = some (l.count : Int) := by
    rw [PythonText.int_of_isDigit (fun _ => isDigit_of_mem) Nat.toDigits_ne_nil short,
      Nat.ofDigitChars_ten_toDigits]
  simp only [FlameGraph.acceptLine, stripped, print_ne_nil, if_false, cutLast_print, count,
    splitOn_stack, FoldedLine.event]
  split_ifs with none zero zero
  · rfl
  · omega
  · omega
  · rfl

theorem parseInt_toDigits {n : Nat} (small : n < 2 ^ 53) :
    parseInt (Nat.toDigits 10 n) = some (false, some n) := by
  have filled : Nat.toDigits 10 n ≠ [] := Nat.toDigits_ne_nil
  obtain ⟨first, rest, split⟩ := List.exists_cons_of_ne_nil filled
  have digit : first.isDigit := isDigit_of_mem (split ▸ List.mem_cons_self)
  have kept : (Nat.toDigits 10 n).dropWhile isSpace = Nat.toDigits 10 n := by
    rw [split, List.dropWhile_cons_of_neg (by simp [separates_browser.digit first digit])]
  have unsigned : ∀ sign, Char.isDigit sign = false →
      (Nat.toDigits 10 n).head? ≠ some sign := by
    intro sign other same
    exact not_mem_digits other (List.mem_of_head? same)
  have taken : (Nat.toDigits 10 n).takeWhile Char.isDigit = Nat.toDigits 10 n :=
    List.takeWhile_eq_self_iff.mpr fun _ => isDigit_of_mem
  simp only [parseInt, kept, unsigned '-' rfl, unsigned '+' rfl, or_self, if_false, taken, filled,
    Nat.ofDigitChars_ten_toDigits, WholeFloats.roundToFloat64_of_lt small, decide_false]

theorem browser_acceptLine (small : l.count < 2 ^ 53) :
    acceptLine l.print = l.event.map fun e => (e.1, some e.2) := by
  have trimmed : trim l.print = l.print := by
    have trimmed := (solid_print separates_browser l).trim (List.forall_mem_nil _)
    rwa [List.append_nil] at trimmed
  simp only [acceptLine, trimmed, print_ne_nil, if_false, cutLast_print, parseInt_toDigits small,
    splitOn_stack, FoldedLine.event, Bool.false_eq_true, false_or, Option.some.injEq]
  split_ifs <;> rfl

end reading

section trees
variable (ls : List FoldedLine) (final : Bool)

def events : List (List Text × Nat) := ls.filterMap FoldedLine.event

def exactTree (samples : List (List Text × Nat)) : Node Text Nat :=
  PrefixTrees.propagate (samples.foldl (fun node e => PrefixTrees.insert e.1 e.2 node)
    ⟨"root".toList, 0, []⟩)

def cut (depth : Nat) (samples : List (List Text × Nat)) : List (List Text × Nat) :=
  samples.map fun e => (e.1.take depth, e.2)

variable {ls}

theorem sum_events : ((events ls).map Prod.snd).sum = (ls.map FoldedLine.count).sum := by
  induction ls with
  | nil => rfl
  | cons l ls ih =>
    rw [events] at ih ⊢
    by_cases zero : l.count = 0
    · have skipped : l.event = none := if_pos zero
      rw [List.filterMap_cons_none skipped, ih, List.map_cons, List.sum_cons, zero, zero_add]
    · have counted : l.event = some (l.frames, l.count) := if_neg zero
      rw [List.filterMap_cons_some counted, List.map_cons, List.sum_cons, ih, List.map_cons,
        List.sum_cons]

theorem count_le {l : FoldedLine} (member : l ∈ ls) : l.count ≤ (ls.map FoldedLine.count).sum :=
  List.le_sum_of_mem (List.mem_map_of_mem member)

abbrev Small (ls : List FoldedLine) : Prop := (ls.map FoldedLine.count).sum < 2 ^ 53

theorem python_lines (small : Small ls) :
    (PythonText.splitlines (PythonText.strip (folded ls final))).filterMap FlameGraph.acceptLine =
      (events ls).map fun e => (e.1, (e.2 : Int)) := by
  have stripped : PythonText.strip (folded ls final) = _ := trim_folded separates_python ls final
  have clean : ∀ line ∈ ls.map FoldedLine.print,
      line ≠ [] ∧ ∀ c ∈ line, PythonText.isLineBreak c = false := by
    intro line member
    obtain ⟨l, _, rfl⟩ := List.mem_map.mp member
    exact ⟨print_ne_nil l, fun c => not_isLineBreak⟩
  rw [stripped, PythonText.splitlines_intercalate clean, List.filterMap_map, events,
    List.map_filterMap]
  exact List.filterMap_congr fun l member => python_acceptLine ((count_le member).trans_lt small)

theorem browser_lines (small : Small ls) :
    ((trim (folded ls final)).splitOn '\n').filterMap acceptLine =
      (events ls).map fun e => (e.1, some e.2) := by
  have trimmed : trim (folded ls final) = _ := trim_folded separates_browser ls final
  rw [trimmed]
  cases ls with
  | nil => rfl
  | cons l ls =>
    have clean : ∀ line ∈ (l :: ls).map FoldedLine.print, '\n' ∉ line := by
      intro line member newline
      obtain ⟨l, _, rfl⟩ := List.mem_map.mp member
      exact absurd (not_isLineBreak newline) (by decide)
    rw [List.splitOn_intercalate '\n' clean (by simp), List.filterMap_map, events,
      List.map_filterMap]
    exact List.filterMap_congr fun l member => browser_acceptLine ((count_le member).trans_lt small)

theorem exactUpTo_numbers : ExactUpTo numbers (2 ^ 53 - 1) some where
  zero := rfl
  add a b small := by
    simp only [numbers]
    rw [WholeFloats.add_of_lt (by omega)]

theorem exactUpTo_int (bound : Nat) : ExactUpTo (exactly Int) bound fun n => (n : Int) where
  zero := rfl
  add a b _ := Nat.cast_add a b

theorem browser_tree (small : Small ls) :
    collapsedToTree (folded ls final) = mapValue some (exactTree (events ls)) := by
  have counted : collapsedToTree (folded ls final) =
      count numbers "root".toList ((events ls).map fun e => (e.1, some e.2)) := by
    rw [← browser_lines final small, collapsedToTree, count]
    refine congrArg _ (foldl_eq_foldl_filterMap (fun node line skipped => ?_)
      (fun node line e read => ?_) _ _)
    · rw [addLine, skipped]
    · rw [addLine, read]
  rw [counted, exactUpTo_numbers.count _ _ (by rw [sum_events]; omega)]
  rfl

theorem python_tree (small : Small ls) :
    FlameGraph.collapsedToTree (folded ls final) 200 =
      mapValue (fun n : Nat => (n : Int)) (exactTree (cut 200 (events ls))) := by
  have counted : FlameGraph.collapsedToTree (folded ls final) 200 =
      count (exactly Int) "root".toList
        ((cut 200 (events ls)).map fun e => (e.1, (e.2 : Int))) := by
    have same : (cut 200 (events ls)).map (fun e => (e.1, (e.2 : Int))) =
        ((events ls).map fun e => (e.1, (e.2 : Int))).map fun e => (e.1.take 200, e.2) := by
      rw [cut, List.map_map, List.map_map]
      rfl
    rw [same, ← python_lines final small, FlameGraph.collapsedToTree, count, propagate_exactly,
      List.foldl_map]
    refine congrArg _ (foldl_eq_foldl_filterMap (fun node line skipped => ?_)
      (fun node line e read => ?_) _ _)
    · rw [FlameGraph.addLine, skipped]
    · rw [FlameGraph.addLine, read, insert_exactly]
      exact congrArg (PrefixTrees.insert · e.2 node) (FlameGraph.cutFrames_eq_take (by decide) e.1)
  rw [counted, (exactUpTo_int _).count _ _ le_rfl]
  rfl

/-- The same names, values and order of children at every node. -/
def SameTree (server : Node Text Int) (browser : Node Text Number) : Prop :=
  mapValue some server = mapValue (Option.map fun n : Nat => (n : Int)) browser

theorem sameTree_iff_exactTree (small : Small ls) :
    SameTree (FlameGraph.collapsedToTree (folded ls final) 200)
        (collapsedToTree (folded ls final)) ↔
      mapValue (fun n : Nat => some (n : Int)) (exactTree (cut 200 (events ls))) =
        mapValue (fun n : Nat => some (n : Int)) (exactTree (events ls)) := by
  rw [SameTree, python_tree final small, browser_tree final small, mapValue_mapValue,
    mapValue_mapValue]
  rfl

theorem exact_exactTree (samples : List (List Text × Nat)) : Exact (exactTree samples) samples :=
  ((Counts.empty _).foldl samples).exact

theorem mem_events {e : List Text × Nat} :
    e ∈ events ls ↔ ∃ l ∈ ls, 0 < l.count ∧ (l.frames, l.count) = e := by
  simp only [events, FoldedLine.event, List.mem_filterMap, Option.ite_none_left_eq_some,
    Option.some.injEq, Nat.pos_iff_ne_zero]

theorem depth_le_of_sameTree (small : Small ls)
    (same : SameTree (FlameGraph.collapsedToTree (folded ls final) 200)
      (collapsedToTree (folded ls final))) :
    ∀ l ∈ ls, 0 < l.count → l.frames.length ≤ 200 := by
  intro l member positive
  by_contra deep
  rw [sameTree_iff_exactTree final small] at same
  have length : (l.frames.take 201).length = 201 := List.length_take_of_le (by omega)
  have filled : l.frames.take 201 ≠ [] := List.ne_nil_of_length_pos (by omega)
  obtain ⟨n, there⟩ := ((exact_exactTree (events ls)).paths _ filled).mpr
    ⟨(l.frames, l.count), mem_events.mpr ⟨l, member, positive, rfl⟩, List.take_prefix _ _⟩
  have image : ∃ m, At (mapValue (fun n : Nat => some (n : Int)) (exactTree (events ls)))
      (l.frames.take 201) m := ⟨_, at_mapValue.mpr ⟨n, there, rfl⟩⟩
  rw [← same] at image
  obtain ⟨_, m, reached, _⟩ := image.imp fun _ => at_mapValue.mp
  obtain ⟨e, listed, begins⟩ := ((exact_exactTree _).paths _ filled).mp ⟨m, reached⟩
  obtain ⟨whole, _, rfl⟩ := List.mem_map.mp listed
  have bound := begins.length_le
  rw [length, List.length_take] at bound
  omega

theorem sameTree_iff (ls : List FoldedLine) (final : Bool)
    (small : (ls.map FoldedLine.count).sum < 2 ^ 53) :
    SameTree (FlameGraph.collapsedToTree (folded ls final) 200)
        (collapsedToTree (folded ls final)) ↔
      ∀ l ∈ ls, 0 < l.count → l.frames.length ≤ 200 := by
  refine ⟨depth_le_of_sameTree final small, fun shallow => ?_⟩
  have uncut : cut 200 (events ls) = events ls := by
    rw [cut, List.map_congr_left, List.map_id]
    intro e listed
    obtain ⟨l, member, positive, rfl⟩ := mem_events.mp listed
    rw [List.take_of_length_le (shallow l member positive), id]
  rw [sameTree_iff_exactTree final small, uncut]

def recursion (depth : Nat) (positive : 0 < depth) : FoldedLine where
  frames := List.replicate depth ['f']
  count := 1
  filled := by
    rw [ne_eq, List.replicate_eq_nil_iff]
    omega
  plain frame member := by
    rw [(List.mem_replicate.mp member).2]
    refine ⟨by decide, fun c char => ?_⟩
    rw [List.mem_singleton.mp char]
    exact ⟨by decide, by decide, by decide⟩

theorem sameTree_iff_shallow :
    SameTree (FlameGraph.collapsedToTree (folded [recursion 200 (by decide)] true) 200)
      (collapsedToTree (folded [recursion 200 (by decide)] true)) := by
  refine (sameTree_iff _ true (by decide)).mpr fun l member _ => ?_
  rw [List.mem_singleton.mp member]
  exact (List.length_replicate).le

theorem deep_recursion_differs :
    ¬ SameTree (FlameGraph.collapsedToTree (folded [recursion 201 (by decide)] true) 200)
      (collapsedToTree (folded [recursion 201 (by decide)] true)) := by
  intro same
  have shallow := depth_le_of_sameTree true (by decide) same _ (List.mem_singleton_self _)
    (show 0 < 1 by decide)
  rw [recursion, List.length_replicate] at shallow
  omega

end trees

end DropPlatform.BrowserFlameGraph
