import DropPlatform.CollapsedStacks
import DropPlatform.ProfileWindow

/-! One line of a collapsed-stack file, as the two programs read it: the agent's
`merge_collapsed` with `std::getline` and `std::stoull`, the apiserver's
`GetProfileWindow` with `bufio.Scanner` and `strconv.ParseUint`. Lines are any bytes. -/

namespace DropPlatform.FoldedLines
open Tallies CollapsedStacks
open TaskReads (scanLines parseUint)
open TextLines

/-- What the agent adds to its counts for a file that consists of the line. -/
def agentAdds (line : Bytes) : List (Bytes × Nat) := (samples line).map fun e => (e.1, e.2.toNat)

/-- What the apiserver adds for an object that consists of the line. -/
def apiserverAdds (line : Bytes) : List (Bytes × Nat) :=
  (scanLines line [] []).filterMap TaskReads.parseLine

/-- White space, a sign and digits of a number below `2 ^ 64` stand at the front. -/
def StartsWithNumber (field : Bytes) : Prop :=
  ∃ spaces sign digits rest, field = spaces ++ (sign ++ (digits ++ rest)) ∧
    (∀ b ∈ spaces, isSpace b) ∧ sign ∈ [[], [43], [45]] ∧ digits ≠ [] ∧ (∀ b ∈ digits, isDigit b) ∧
    (∀ b ∈ rest.head?, ¬ isDigit b) ∧ numeral digits < 2 ^ 64

/-- Nothing but digits, up to a carriage return at the end. -/
def PlainNumber (field : Bytes) : Prop :=
  scanLines.dropCR field ≠ [] ∧ ∀ b ∈ scanLines.dropCR field, isDigit b

section numbers

theorem takeWhile_of_head {p : UInt8 → Bool} {l rest : Bytes} (all : ∀ b ∈ l, p b)
    (stop : ∀ b ∈ rest.head?, ¬ p b) : (l ++ rest).takeWhile p = l := by
  rw [List.takeWhile_append_of_pos all]
  cases rest with
  | nil => exact List.append_nil l
  | cons b rest =>
    rw [List.takeWhile_cons_of_neg (stop b rfl), List.append_nil]

theorem dropWhile_of_head {p : UInt8 → Bool} {l rest : Bytes} (all : ∀ b ∈ l, p b)
    (stop : ∀ b ∈ rest.head?, ¬ p b) : (l ++ rest).dropWhile p = rest := by
  rw [List.dropWhile_append_of_pos all]
  cases rest with
  | nil => rfl
  | cons b rest => rw [List.dropWhile_cons_of_neg (stop b rfl)]

theorem isSpace_digit {b : UInt8} (digit : isDigit b) : ¬ isSpace b := by
  have bounds := isDigit_bounds digit
  simp only [isSpace, UInt8.le_iff_toNat_le, ← UInt8.toNat_inj, decide_eq_true_eq]
  change ¬ (_ = 32 ∨ 9 ≤ _ ∧ _ ≤ 13)
  omega

theorem stoull_spaces {spaces : Bytes} (blank : ∀ b ∈ spaces, isSpace b) (text : Bytes) :
    stoull (spaces ++ text) = stoull text := by
  simp only [stoull, List.dropWhile_append_of_pos blank]

section signs
variable {digits rest : Bytes} (filled : digits ≠ []) (all : ∀ b ∈ digits, isDigit b)
  (stop : ∀ b ∈ rest.head?, ¬ isDigit b)
include filled all stop

theorem stoull_unsigned : stoull (digits ++ rest) =
    if 2 ^ 64 ≤ numeral digits then none else some (UInt64.ofNat (numeral digits)) := by
  obtain ⟨d, more, same⟩ := List.exists_cons_of_ne_nil filled
  have digit : isDigit d := all d (same ▸ List.mem_cons_self)
  have first : (digits ++ rest).head? = some d := by rw [same]; rfl
  have whole : (digits ++ rest).dropWhile isSpace = digits ++ rest :=
    dropWhile_of_head (l := []) (fun b member => absurd member List.not_mem_nil)
      fun b member => Option.some.inj (first.symm.trans member) ▸ isSpace_digit digit
  have noSign : ∀ c : UInt8, c.toNat < 48 → (digits ++ rest).head? ≠ some c :=
    fun c low found => isDigit_ne digit low (Option.some.inj (first.symm.trans found))
  simp only [stoull, whole, noSign 45 (by decide), noSign 43 (by decide),
    takeWhile_of_head all stop, filled, or_self, false_or, if_false]

theorem stoull_plus : stoull (43 :: (digits ++ rest)) =
    if 2 ^ 64 ≤ numeral digits then none else some (UInt64.ofNat (numeral digits)) := by
  have whole : (43 :: (digits ++ rest)).dropWhile isSpace = 43 :: (digits ++ rest) := rfl
  have positive : ¬ some (43 : UInt8) = some 45 := by decide
  simp only [stoull, whole, List.head?_cons, positive, or_true, if_true, if_false,
    List.drop_succ_cons, List.drop_zero, takeWhile_of_head all stop, filled, false_or]

theorem stoull_minus : stoull (45 :: (digits ++ rest)) =
    if 2 ^ 64 ≤ numeral digits then none else some (-UInt64.ofNat (numeral digits)) := by
  have whole : (45 :: (digits ++ rest)).dropWhile isSpace = 45 :: (digits ++ rest) := rfl
  simp only [stoull, whole, List.head?_cons, true_or, if_true, List.drop_succ_cons,
    List.drop_zero, takeWhile_of_head all stop, filled, false_or]

end signs

theorem exists_sign (text : Bytes) : ∃ sign ∈ [[], [43], [45]], text = sign ++
    if text.head? = some 45 ∨ text.head? = some 43 then text.drop 1 else text := by
  split_ifs with signed
  · cases text with
    | nil => simp at signed
    | cons b rest =>
      refine ⟨[b], ?_, rfl⟩
      rcases signed with minus | plus
      · simp [Option.some.inj minus]
      · simp [Option.some.inj plus]
  · exact ⟨[], List.mem_cons_self, rfl⟩

theorem stoull_isSome_iff (field : Bytes) : (stoull field).isSome ↔ StartsWithNumber field := by
  constructor
  · intro returns
    obtain ⟨sign, signed, cut⟩ := exists_sign (field.dropWhile isSpace)
    simp only [stoull] at returns
    generalize (if (field.dropWhile isSpace).head? = some 45 ∨
      (field.dropWhile isSpace).head? = some 43 then (field.dropWhile isSpace).drop 1
      else field.dropWhile isSpace) = body at returns cut
    have number : ¬ (body.takeWhile isDigit = [] ∨ 2 ^ 64 ≤ numeral (body.takeWhile isDigit)) := by
      intro bad
      rw [if_pos bad] at returns
      exact absurd returns Bool.false_ne_true
    obtain ⟨filled, small⟩ := not_or.mp number
    refine ⟨field.takeWhile isSpace, sign, body.takeWhile isDigit, body.dropWhile isDigit, ?_,
      fun b => List.mem_takeWhile_imp, signed, filled, fun b => List.mem_takeWhile_imp, ?_,
      not_le.mp small⟩
    · rw [List.takeWhile_append_dropWhile, ← cut, List.takeWhile_append_dropWhile]
    · intro b member
      have kept := List.head?_dropWhile_not isDigit body
      rw [member] at kept
      exact Bool.eq_false_iff.mp kept
  · rintro ⟨spaces, sign, digits, rest, rfl, blank, signed, filled, all, stop, small⟩
    have fits : ¬ 2 ^ 64 ≤ numeral digits := not_le.mpr small
    rw [stoull_spaces blank]
    simp only [List.mem_cons, List.not_mem_nil, or_false] at signed
    rcases signed with rfl | rfl | rfl
    · rw [List.nil_append, stoull_unsigned filled all stop, if_neg fits]
      rfl
    · rw [List.singleton_append, stoull_plus filled all stop, if_neg fits]
      rfl
    · rw [List.singleton_append, stoull_minus filled all stop, if_neg fits]
      rfl

theorem any_outside_iff (field : Bytes) :
    field.any (fun d => d < 48 ∨ 57 < d) = true ↔ ¬ ∀ b ∈ field, isDigit b := by
  simp only [List.any_eq_true, decide_eq_true_eq, not_forall, isDigit, not_and_or, UInt8.not_le,
    exists_prop]

theorem parseUint_digits {field : Bytes} (filled : field ≠ []) (all : ∀ b ∈ field, isDigit b) :
    parseUint field = if numeral field < 2 ^ 64 then some (numeral field) else none := by
  have fine : ¬ (field = [] ∨ field.any (fun d => d < 48 ∨ 57 < d) = true) := by
    rw [any_outside_iff]
    exact not_or.mpr ⟨filled, not_not.mpr all⟩
  rw [parseUint, if_neg fine]
  rfl

theorem parseUint_other {field : Bytes} (bad : ¬ (field ≠ [] ∧ ∀ b ∈ field, isDigit b)) :
    parseUint field = none := by
  rw [parseUint, if_pos]
  rw [any_outside_iff]
  exact (not_and_or.mp bad).imp_left not_not.mp

theorem exists_dropCR (field : Bytes) :
    ∃ rest, field = scanLines.dropCR field ++ rest ∧ ∀ b ∈ rest.head?, ¬ isDigit b := by
  rw [scanLines.dropCR]
  split_ifs with carriage
  · refine ⟨[13], ?_, ?_⟩
    · exact (List.dropLast_append_getLast? 13 carriage).symm
    · intro b member
      exact Option.some.inj member ▸ (by decide)
  · exact ⟨[], (List.append_nil field).symm, by simp⟩

theorem sameNumber_iff (field : Bytes) :
    (stoull field).map UInt64.toNat = parseUint (scanLines.dropCR field) ↔
      (StartsWithNumber field → PlainNumber field) := by
  by_cases plain : PlainNumber field
  · obtain ⟨filled, all⟩ := plain
    obtain ⟨rest, whole, stop⟩ := exists_dropCR field
    have read := stoull_unsigned filled all stop
    rw [← whole] at read
    rw [read, parseUint_digits filled all]
    refine iff_of_true ?_ fun _ => ⟨filled, all⟩
    by_cases small : numeral (scanLines.dropCR field) < 2 ^ 64
    · rw [if_neg (not_le.mpr small), if_pos small, Option.map_some, UInt64.toNat_ofNat_of_lt' small]
    · rw [if_pos (not_lt.mp small), if_neg small, Option.map_none]
  · rw [parseUint_other plain, Option.map_eq_none_iff, ← Option.isNone_iff_eq_none,
      ← Option.not_isSome, Bool.not_eq_true', ← Bool.not_eq_true, stoull_isSome_iff]
    exact ⟨fun none starts => absurd starts none, fun implies starts => plain (implies starts)⟩

end numbers

theorem dropCR_field (stack field : Bytes) :
    scanLines.dropCR (stack ++ 32 :: field) = stack ++ 32 :: scanLines.dropCR field := by
  cases field with
  | nil => simp [scanLines.dropCR]
  | cons b rest =>
    have last : (stack ++ 32 :: b :: rest).getLast? = (b :: rest).getLast? := by
      rw [List.getLast?_append_of_ne_nil _ (List.cons_ne_nil _ _), List.getLast?_cons_cons]
    rw [scanLines.dropCR, scanLines.dropCR, last]
    split_ifs
    · rw [List.dropLast_append_of_ne_nil (List.cons_ne_nil _ _), List.dropLast_cons_cons]
    · rfl

theorem space_dropCR {text : Bytes} (absent : space ∉ text) : space ∉ scanLines.dropCR text := by
  obtain ⟨rest, whole, _⟩ := exists_dropCR text
  intro member
  exact absent (whole ▸ List.mem_append_left rest member)

section lines
variable {line : Bytes} (clean : newline ∉ line)
include clean

theorem agentAdds_eq : agentAdds line = ((cutLast space line).bind fun cut =>
    (stoull cut.2).map fun n => (cut.1, n.toNat)).toList := by
  by_cases empty : line = []
  · rw [empty]
    rfl
  have parsed : parseLine line =
      (cutLast space line).bind fun cut => (stoull cut.2).map fun n => (cut.1, n) := by
    rw [parseLine, if_neg empty]
    cases cutLast space line <;> rfl
  rw [agentAdds, samples, lines_last clean empty, List.filterMap_cons, parsed]
  cases cutLast space line with
  | none => rfl
  | some cut =>
    dsimp only [Option.bind_some]
    cases stoull cut.2 <;> rfl

theorem apiserverAdds_eq (short : line.length ≤ 65535) :
    apiserverAdds line = ((cutLast space line).bind fun cut =>
      (parseUint (scanLines.dropCR cut.2)).map fun n => (cut.1, n)).toList := by
  by_cases empty : line = []
  · rw [empty]
    rfl
  have fits : ProfileWindow.fitsScanner line = true := decide_eq_true (by omega)
  have alone : lines TaskReads.newline line = [line] := lines_last clean empty
  rw [apiserverAdds, ProfileWindow.scanLines_eq, alone, List.takeWhile_cons_of_pos fits,
    List.takeWhile_nil, List.map_singleton, List.filterMap_cons, ProfileWindow.parseLine_eq]
  cases cut : cutLast space line with
  | none =>
    have absent : cutLast 32 (scanLines.dropCR line) = none :=
      cutLast_none.mpr (space_dropCR (cutLast_none.mp cut))
    rw [absent]
    rfl
  | some parts =>
    obtain ⟨stack, field⟩ := parts
    obtain ⟨rfl, apart⟩ := eq_of_cutLast cut
    have again : cutLast 32 (scanLines.dropCR (stack ++ space :: field)) =
        some (stack, scanLines.dropCR field) := by
      rw [space, dropCR_field]
      exact cutLast_append stack (space_dropCR apart)
    rw [again]
    dsimp only [Option.bind_some]
    cases parseUint (scanLines.dropCR field) <;> rfl

end lines

/-- For every line without a newline that fits into the scanner's buffer: both programs skip
it or add the same count to the same stack, exactly if what stands behind its last space is
a number in digits, up to a carriage return, or does not start with a number at all. -/
theorem decodedAlike_iff {line : Bytes} (clean : newline ∉ line) (short : line.length ≤ 65535) :
    agentAdds line = apiserverAdds line ↔
      ∀ stack field, line = stack ++ space :: field → space ∉ field →
        StartsWithNumber field → PlainNumber field := by
  rw [agentAdds_eq clean, apiserverAdds_eq clean short]
  cases cut : cutLast space line with
  | none =>
    refine iff_of_true rfl fun stack field whole _ => ?_
    exact absurd (whole ▸ List.mem_append_right stack List.mem_cons_self) (cutLast_none.mp cut)
  | some parts =>
    obtain ⟨stack, field⟩ := parts
    obtain ⟨rfl, apart⟩ := eq_of_cutLast cut
    have same : ((stoull field).map fun n => (stack, n.toNat)).toList =
        ((parseUint (scanLines.dropCR field)).map fun n => (stack, n)).toList ↔
        (stoull field).map UInt64.toNat = parseUint (scanLines.dropCR field) := by
      cases stoull field <;> cases parseUint (scanLines.dropCR field) <;> simp
    rw [Option.bind_some, Option.bind_some, same, sameNumber_iff]
    constructor
    · intro implies other field' whole apart'
      have parts := cut.symm.trans (whole ▸ cutLast_append other apart')
      simp only [Option.some.injEq, Prod.mk.injEq] at parts
      rw [← parts.2]
      exact implies
    · intro all
      exact all stack field rfl apart

def plainLine : Bytes := [109, 97, 105, 110, 32, 53]

theorem decodedAlike_iff_plainLine : agentAdds plainLine = apiserverAdds plainLine := by
  refine (decodedAlike_iff (by decide) (by decide)).mpr fun stack field whole apart _ => ?_
  have cut : some (stack, field) = some ([109, 97, 105, 110], [53]) :=
    (cutLast_append stack apart).symm.trans (whole ▸ rfl)
  simp only [Option.some.injEq, Prod.mk.injEq] at cut
  rw [cut.2]
  exact ⟨by decide, List.forall_mem_singleton.mpr rfl⟩

def negativeLine : Bytes := [109, 97, 105, 110, 32, 45, 49]

theorem negativeLine_decoded_apart :
    newline ∉ negativeLine ∧ negativeLine.length ≤ 65535 ∧
      agentAdds negativeLine ≠ apiserverAdds negativeLine := by decide

end DropPlatform.FoldedLines
