import DropPlatform.Tallies
import DropPlatform.TextLines
import Mathlib.Data.List.TakeWhile
import Mathlib.Data.UInt

/-! The agent's stack counts: `merge_collapsed` reads collapsed-stack files into a map from
stacks to 64-bit counts, and `flush_segment` writes that map as a collapsed-stack file.
Files are arbitrary bytes. What a segment file gives back is the map it was written from,
so the cuts between segments cannot be seen in what they add up to. -/

namespace DropPlatform.CollapsedStacks
open Tallies TextLines

abbrev Stacks := Tally Bytes UInt64

def newline : UInt8 := 10
def space : UInt8 := 32

/-- `isspace` of the C locale. -/
def isSpace (b : UInt8) : Bool := b = 32 ∨ 9 ≤ b ∧ b ≤ 13

/-- `std::stoull`: white space, a sign and decimal digits are taken from the front, what
follows them is ignored; a negative number is negated in 64 bits. `none` is an exception. -/
def stoull (text : Bytes) : Option UInt64 :=
  let text := text.dropWhile isSpace
  let negative := text.head? = some 45
  let text := if negative ∨ text.head? = some 43 then text.drop 1 else text
  let digits := text.takeWhile isDigit
  if digits = [] ∨ 2 ^ 64 ≤ numeral digits then none
  else if negative then some (-UInt64.ofNat (numeral digits))
  else some (UInt64.ofNat (numeral digits))

def parseLine (line : Bytes) : Option (Bytes × UInt64) :=
  if line = [] then none
  else match cutLast space line with
    | none => none
    | some (stack, count) => (stoull count).map fun count => (stack, count)

def mergeLine (held : Stacks) (line : Bytes) : Stacks :=
  match parseLine line with
  | none => held
  | some (stack, count) => held.add stack count

def mergeCollapsed (held : Stacks) (file : Bytes) : Stacks :=
  (lines newline file).foldl mergeLine held

def writeStacks (held : Stacks) : Bytes :=
  held.entries.flatMap fun entry => entry.1 ++ space :: decimal entry.2.toNat ++ [newline]

def samples (file : Bytes) : List (Bytes × UInt64) := (lines newline file).filterMap parseLine

theorem foldl_mergeLine (held : Stacks) (text : List Bytes) :
    text.foldl mergeLine held = held.addAll (text.filterMap parseLine) := by
  induction text generalizing held with
  | nil => rfl
  | cons line text ih =>
    rw [List.foldl_cons, ih, mergeLine]
    cases parsed : parseLine line with
    | none => rw [List.filterMap_cons_none parsed]
    | some sample =>
      rw [List.filterMap_cons_some parsed]
      rfl

theorem mergeCollapsed_eq (held : Stacks) (file : Bytes) :
    mergeCollapsed held file = held.addAll (samples file) := foldl_mergeLine held _

theorem foldl_mergeCollapsed (held : Stacks) (files : List Bytes) :
    files.foldl mergeCollapsed held = held.addAll (files.flatMap samples) := by
  induction files generalizing held with
  | nil => rfl
  | cons file files ih =>
    rw [List.foldl_cons, ih, mergeCollapsed_eq, List.flatMap_cons, Tally.addAll_append]

section reading

theorem stoull_decimal {n : Nat} (small : n < 2 ^ 64) :
    stoull (decimal n) = some (UInt64.ofNat n) := by
  have digits : ∀ b ∈ decimal n, isDigit b := fun b => isDigit_of_mem_decimal
  have noSpace : (decimal n).dropWhile isSpace = decimal n := by
    rw [List.dropWhile_eq_self_iff]
    intro nonempty
    have first := digits _ (List.getElem_mem nonempty)
    have bounds := isDigit_bounds first
    simp only [isSpace, UInt8.le_iff_toNat_le, ← UInt8.toNat_inj, decide_eq_true_eq]
    change ¬ (_ = 32 ∨ 9 ≤ _ ∧ _ ≤ 13)
    omega
  have noSign : ∀ c : UInt8, c.toNat < 48 → (decimal n).head? ≠ some c := by
    intro c low found
    exact isDigit_ne (digits c (List.mem_of_mem_head? found)) low rfl
  have allDigits : (decimal n).takeWhile isDigit = decimal n := List.takeWhile_eq_self_iff.mpr digits
  have fits : ¬ (decimal n = [] ∨ 2 ^ 64 ≤ n) := fun wrong =>
    wrong.elim (decimal_ne_nil n) (not_le.mpr small)
  simp only [stoull, noSpace, noSign 45 (by decide), noSign 43 (by decide), allDigits,
    numeral_decimal, or_self, if_false, fits]

theorem parseLine_entry (entry : Bytes × UInt64) :
    parseLine (entry.1 ++ space :: decimal entry.2.toNat) = some entry := by
  have cut := cutLast_append entry.1 (not_mem_decimal (c := space) (by decide) entry.2.toNat)
  have count := stoull_decimal entry.2.toNat_lt
  have written : entry.1 ++ space :: decimal entry.2.toNat ≠ [] := by simp
  simp only [parseLine, written, if_false, cut, count, UInt64.ofNat_toNat, Option.map_some]

end reading

def Clean (events : List (Bytes × UInt64)) : Prop := ∀ k ∈ keys events, newline ∉ k

theorem clean_samples (file : Bytes) : Clean (samples file) := by
  intro k member inside
  obtain ⟨sample, found, rfl⟩ := List.mem_map.mp member
  obtain ⟨line, here, parsed⟩ := List.mem_filterMap.mp found
  have clean := not_mem_of_mem_lines here
  simp only [parseLine] at parsed
  split_ifs at parsed with empty
  cases cut : cutLast space line with
  | none => simp [cut] at parsed
  | some parts =>
    simp only [cut, Option.map_eq_some_iff] at parsed
    obtain ⟨count, _, rfl⟩ := parsed
    rw [(eq_of_cutLast cut).1] at clean
    exact clean (List.mem_append_left _ inside)

theorem Clean.addAll {held : Stacks} {events : List (Bytes × UInt64)}
    (before : Clean held.entries) (new : Clean events) : Clean (held.addAll events).entries := by
  intro k member
  rw [Tally.mem_keys_addAll] at member
  exact member.elim (before k) (new k)

theorem clean_empty : Clean (Tally.empty : Stacks).entries := fun _ member =>
  absurd member List.not_mem_nil

theorem clean_files (files : List Bytes) : Clean (files.flatMap samples) := by
  intro k member
  obtain ⟨sample, found, rfl⟩ := List.mem_map.mp member
  obtain ⟨file, _, here⟩ := List.mem_flatMap.mp found
  exact clean_samples file _ (List.mem_map_of_mem here)

theorem samples_writeStacks {held : Stacks} (clean : Clean held.entries) :
    samples (writeStacks held) = held.entries := by
  have noNewline : ∀ entry ∈ held.entries,
      newline ∉ entry.1 ++ space :: decimal entry.2.toNat := by
    intro entry member inside
    simp only [List.mem_append, List.mem_cons] at inside
    rcases inside with inside | other | inside
    · exact clean _ (List.mem_map_of_mem member) inside
    · exact absurd other (by decide)
    · exact not_mem_decimal (by decide) _ inside
  rw [samples, writeStacks, lines_flatMap noNewline, List.filterMap_map]
  exact (List.filterMap_congr fun entry _ => parseLine_entry entry).trans List.filterMap_some

section segmentation

theorem weight_segment {p : Bytes → Prop} [DecidablePred p] (files : List Bytes) :
    weight p (samples (writeStacks (files.foldl mergeCollapsed .empty))) =
      weight p (files.flatMap samples) := by
  rw [foldl_mergeCollapsed, samples_writeStacks (clean_empty.addAll (clean_files files)),
    Tally.weight_addAll]
  exact zero_add _

theorem keys_segment (files : List Bytes) (k : Bytes) :
    k ∈ keys (samples (writeStacks (files.foldl mergeCollapsed .empty))) ↔
      k ∈ keys (files.flatMap samples) := by
  rw [foldl_mergeCollapsed, samples_writeStacks (clean_empty.addAll (clean_files files)),
    Tally.mem_keys_addAll]
  exact or_iff_right List.not_mem_nil

theorem weight_segments {p : Bytes → Prop} [DecidablePred p] (segments : List (List Bytes)) :
    weight p ((segments.map fun files => writeStacks (files.foldl mergeCollapsed .empty)).flatMap
      samples) = weight p (segments.flatten.flatMap samples) := by
  induction segments with
  | nil => rfl
  | cons files segments ih =>
    rw [List.map_cons, List.flatMap_cons, List.flatten_cons, List.flatMap_append, weight_append,
      weight_append, weight_segment, ih]

theorem keys_segments (segments : List (List Bytes)) (k : Bytes) :
    k ∈ keys ((segments.map fun files => writeStacks (files.foldl mergeCollapsed .empty)).flatMap
      samples) ↔ k ∈ keys (segments.flatten.flatMap samples) := by
  induction segments with
  | nil => rfl
  | cons files segments ih =>
    rw [List.map_cons, List.flatMap_cons, List.flatten_cons, List.flatMap_append, keys_append,
      keys_append, List.mem_append, List.mem_append, keys_segment, ih]

/-- However the files are cut into segments and in whatever order the segment files are
merged, the result is the map that merging the files themselves gives. -/
theorem segmentation_invisible (files : List Bytes) (segments : List (List Bytes))
    (cut : segments.flatten = files) (written : List Bytes)
    (order : written.Perm
      (segments.map fun files => writeStacks (files.foldl mergeCollapsed .empty))) :
    written.foldl mergeCollapsed .empty = files.foldl mergeCollapsed .empty := by
  have shuffled := order.flatMap_right samples
  rw [foldl_mergeCollapsed, foldl_mergeCollapsed]
  apply Tally.addAll_congr
  · intro k
    rw [← cut, ← keys_segments segments k]
    exact (shuffled.map Prod.fst).mem_iff
  · intro p decidable
    rw [← cut, ← weight_segments segments]
    exact weight_perm shuffled

theorem segmentation_invisible_reversed :
    [writeStacks ([[97, 32, 49, 50, 120]].foldl mergeCollapsed .empty),
      writeStacks ([[97, 32, 45, 49, 10]].foldl mergeCollapsed .empty)].foldl mergeCollapsed .empty =
    [[97, 32, 45, 49, 10], [97, 32, 49, 50, 120]].foldl mergeCollapsed .empty :=
  segmentation_invisible _ [[[97, 32, 45, 49, 10]], [[97, 32, 49, 50, 120]]] rfl _
    (List.Perm.swap _ _ _)

example : [[97, 32, 45, 49, 10], [97, 32, 49, 50, 120]].foldl mergeCollapsed .empty =
    (Tally.empty : Stacks).add [97] 11 := by decide

end segmentation

end DropPlatform.CollapsedStacks
