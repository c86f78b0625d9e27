import Mathlib.Data.List.Basic
import Mathlib.Tactic

/-! Texts that are read line by line, at once or through a buffer, lines that are cut at
their last separator, and decimal numerals in bytes. What a printer writes with these
separators is what the reader gets back, in front of anything that follows. -/

namespace DropPlatform

abbrev Bytes := List UInt8

abbrev Text := List Char

def ascii (text : String) : Bytes := text.toList.map fun c => UInt8.ofNat c.toNat

namespace TextLines

variable {α : Type*} [DecidableEq α]

/-- The lines of a text: what stands before each separator, and what is left behind the
last one unless nothing is. -/
def lines (sep : α) : List α → List (List α)
  | [] => []
  | x :: rest =>
    if x = sep then [] :: lines sep rest
    else match lines sep rest with
      | [] => [[x]]
      | line :: more => (x :: line) :: more

section lines
variable {sep : α}

theorem lines_append {line : List α} (clean : sep ∉ line) (rest : List α) :
    lines sep (line ++ sep :: rest) = line :: lines sep rest := by
  induction line with
  | nil => rw [List.nil_append, lines, if_pos rfl]
  | cons x line ih =>
    have other : x ≠ sep := fun same => clean (same ▸ List.mem_cons_self)
    rw [List.cons_append, lines, if_neg other, ih fun member => clean (List.mem_cons_of_mem x member)]

theorem lines_last {line : List α} (clean : sep ∉ line) (some : line ≠ []) :
    lines sep line = [line] := by
  induction line with
  | nil => exact absurd rfl some
  | cons x line ih =>
    have other : x ≠ sep := fun same => clean (same ▸ List.mem_cons_self)
    have others : sep ∉ line := fun member => clean (List.mem_cons_of_mem x member)
    cases line with
    | nil => rw [lines, if_neg other]; rfl
    | cons y line => rw [lines, if_neg other, ih others (List.cons_ne_nil y line)]

theorem lines_of_clean {line : List α} (clean : sep ∉ line) (some : line ≠ []) (rest : List α) :
    ∃ more others, lines sep (line ++ rest) = (line ++ more) :: others := by
  induction line with
  | nil => exact absurd rfl some
  | cons x line ih =>
    have other : x ≠ sep := fun same => clean (same ▸ List.mem_cons_self)
    have others : sep ∉ line := fun member => clean (List.mem_cons_of_mem x member)
    rw [List.cons_append, lines, if_neg other]
    cases line with
    | nil =>
      cases lines sep ([] ++ rest) with
      | nil => exact ⟨[], [], rfl⟩
      | cons first more => exact ⟨first, more, rfl⟩
    | cons y line =>
      obtain ⟨more, tail, found⟩ := ih others (List.cons_ne_nil y line)
      rw [found]
      exact ⟨more, tail, rfl⟩

theorem not_mem_of_mem_lines {text line : List α} (member : line ∈ lines sep text) :
    sep ∉ line := by
  induction text generalizing line with
  | nil => exact absurd member List.not_mem_nil
  | cons x rest ih =>
    by_cases here : x = sep
    · rw [lines, if_pos here] at member
      rcases List.mem_cons.mp member with rfl | member
      · exact List.not_mem_nil
      · exact ih member
    have other : sep ≠ x := fun same => here same.symm
    rw [lines, if_neg here] at member
    cases tail : lines sep rest with
    | nil =>
      rw [tail] at member
      rw [List.mem_singleton.mp member]
      exact List.not_mem_cons_of_ne_of_not_mem other List.not_mem_nil
    | cons first more =>
      rw [tail] at member ih
      rcases List.mem_cons.mp member with rfl | member
      · exact List.not_mem_cons_of_ne_of_not_mem other (ih List.mem_cons_self)
      · exact ih (List.mem_cons_of_mem first member)

theorem lines_flatMap {β : Type*} {print : β → List α} {items : List β}
    (clean : ∀ item ∈ items, sep ∉ print item) :
    lines sep (items.flatMap fun item => print item ++ [sep]) = items.map print := by
  induction items with
  | nil => rfl
  | cons item items ih =>
    have rest := ih fun other member => clean other (List.mem_cons_of_mem item member)
    rw [List.flatMap_cons, List.append_assoc, List.singleton_append,
      lines_append (clean item List.mem_cons_self), rest, List.map_cons]

theorem lines_cons_flatMap {line : List α} {others : List (List α)} (clean : sep ∉ line)
    (filled : line ≠ []) (each : ∀ other ∈ others, sep ∉ other ∧ other ≠ []) :
    lines sep (line ++ others.flatMap (sep :: ·)) = line :: others := by
  induction others generalizing line with
  | nil => rw [List.flatMap_nil, List.append_nil, lines_last clean filled]
  | cons other others ih =>
    obtain ⟨first, rest⟩ := List.forall_mem_cons.mp each
    rw [List.flatMap_cons, List.cons_append, lines_append clean, ih first.1 first.2 rest]

theorem splitOn_eq_lines (sep : α) (text : List α) :
    text.splitOn sep = lines sep text ∨ text.splitOn sep = lines sep text ++ [[]] := by
  induction text with
  | nil => exact .inr rfl
  | cons x rest ih =>
    rw [List.splitOn, List.splitOnP_cons_eq_if_modifyHead]
    by_cases here : x = sep
    · rw [if_pos (beq_iff_eq.mpr here), lines, if_pos here]
      exact ih.imp (congrArg ([] :: ·)) (congrArg ([] :: ·))
    · rw [if_neg fun same => here (beq_iff_eq.mp same), lines, if_neg here]
      cases tail : lines sep rest with
      | nil =>
        have whole : rest.splitOn sep = [[]] := by
          rw [tail] at ih
          exact ih.resolve_left (List.splitOn_ne_nil sep rest)
        exact .inl (congrArg (List.modifyHead (x :: ·)) whole)
      | cons line more =>
        rw [tail] at ih
        exact ih.imp (congrArg (List.modifyHead (x :: ·))) (congrArg (List.modifyHead (x :: ·)))

end lines

omit [DecidableEq α] in
theorem foldl_eq_foldl_filterMap {β γ : Type*} {accept : α → Option β} {put : γ → β → γ}
    {step : γ → α → γ} (skips : ∀ state line, accept line = none → step state line = state)
    (puts : ∀ state line item, accept line = some item → step state line = put state item)
    (lines : List α) (state : γ) :
    lines.foldl step state = (lines.filterMap accept).foldl put state := by
  induction lines generalizing state with
  | nil => rfl
  | cons line lines ih =>
    rw [List.foldl_cons, ih]
    cases read : accept line with
    | none => rw [List.filterMap_cons_none read, skips state line read]
    | some item => rw [List.filterMap_cons_some read, puts state line item read, List.foldl_cons]

/-- What stands before and behind the last separator. -/
def cutLast (sep : α) : List α → Option (List α × List α)
  | [] => none
  | x :: rest =>
    match cutLast sep rest with
    | some (before, behind) => some (x :: before, behind)
    | none => if x = sep then some ([], rest) else none

section cutLast
variable {sep : α}

theorem cutLast_none {line : List α} : cutLast sep line = none ↔ sep ∉ line := by
  induction line with
  | nil => simp [cutLast]
  | cons x line ih =>
    cases tail : cutLast sep line with
    | none =>
      have clean := ih.mp tail
      by_cases here : x = sep
      · simp [cutLast, tail, here]
      · have other : sep ≠ x := fun same => here same.symm
        simp [cutLast, tail, here, clean, other]
    | some cut =>
      have found : sep ∈ line := by
        by_contra clean
        rw [ih.mpr clean] at tail
        exact absurd tail nofun
      simp [cutLast, tail, found]

theorem cutLast_append (before : List α) {behind : List α} (clean : sep ∉ behind) :
    cutLast sep (before ++ sep :: behind) = some (before, behind) := by
  induction before with
  | nil => rw [List.nil_append, cutLast, cutLast_none.mpr clean]; exact if_pos rfl
  | cons x before ih => rw [List.cons_append, cutLast, ih]

theorem eq_of_cutLast {line before behind : List α}
    (cut : cutLast sep line = some (before, behind)) :
    line = before ++ sep :: behind ∧ sep ∉ behind := by
  induction line generalizing before with
  | nil => exact absurd cut nofun
  | cons x line ih =>
    rw [cutLast] at cut
    cases tail : cutLast sep line with
    | none =>
      rw [tail] at cut
      by_cases here : x = sep
      · simp only [here, if_true, Option.some.injEq, Prod.mk.injEq] at cut
        obtain ⟨rfl, rfl⟩ := cut
        exact ⟨by rw [here]; rfl, cutLast_none.mp tail⟩
      · simp only [here, if_false] at cut
        exact absurd cut nofun
    | some found =>
      obtain ⟨front, back⟩ := found
      rw [tail] at cut
      simp only [Option.some.injEq, Prod.mk.injEq] at cut
      obtain ⟨rfl, rfl⟩ := cut
      obtain ⟨rfl, clean⟩ := ih tail
      exact ⟨rfl, clean⟩

end cutLast

/-- One read through a buffer for `n` symbols: up to and including the next separator, but
no more than fits. -/
def readLine (sep : α) : Nat → List α → List α × List α
  | 0, text => ([], text)
  | _ + 1, [] => ([], [])
  | n + 1, x :: text =>
    if x = sep then ([x], text)
    else
      let (line, rest) := readLine sep n text
      (x :: line, rest)

section readLine
variable {sep : α}

theorem readLine_append {n : Nat} {line : List α} (clean : sep ∉ line) (fits : line.length < n)
    (rest : List α) : readLine sep n (line ++ sep :: rest) = (line ++ [sep], rest) := by
  induction line generalizing n with
  | nil =>
    cases n with
    | zero => exact absurd fits (Nat.not_lt_zero _)
    | succ n => simp [readLine]
  | cons x line ih =>
    rw [List.mem_cons, not_or] at clean
    cases n with
    | zero => exact absurd fits (Nat.not_lt_zero _)
    | succ n =>
      have shorter : line.length < n := by
        rw [List.length_cons] at fits
        omega
      simp only [List.cons_append, readLine, if_neg (Ne.symm clean.1), ih clean.2 shorter]

theorem readLine_of_le {n : Nat} {line : List α} (clean : sep ∉ line) (long : n ≤ line.length)
    (rest : List α) : readLine sep n (line ++ rest) = (line.take n, line.drop n ++ rest) := by
  induction line generalizing n with
  | nil =>
    obtain rfl : n = 0 := Nat.le_zero.mp long
    rfl
  | cons x line ih =>
    rw [List.mem_cons, not_or] at clean
    cases n with
    | zero => rfl
    | succ n =>
      have longer : n ≤ line.length := Nat.le_of_succ_le_succ long
      simp only [List.cons_append, readLine, if_neg (Ne.symm clean.1), ih clean.2 longer,
        List.take_succ_cons, List.drop_succ_cons]

variable (sep) in
theorem readLine_fst (n : Nat) (text : List α) :
    ∃ line, sep ∉ line ∧
      ((readLine sep n text).1 = line ∨ (readLine sep n text).1 = line ++ [sep]) := by
  induction n generalizing text with
  | zero => exact ⟨[], List.not_mem_nil, .inl rfl⟩
  | succ n ih =>
    cases text with
    | nil => exact ⟨[], List.not_mem_nil, .inl rfl⟩
    | cons x text =>
      by_cases ends : x = sep
      · exact ⟨[], List.not_mem_nil, .inr (by simp [readLine, ends])⟩
      · obtain ⟨line, clean, read⟩ := ih text
        refine ⟨x :: line, ?_, ?_⟩
        · rw [List.mem_cons, not_or]
          exact ⟨Ne.symm ends, clean⟩
        · simp only [readLine, if_neg ends]
          refine read.imp ?_ ?_
          · intro whole
            rw [whole]
          · intro whole
            rw [whole, List.cons_append]

end readLine

/-- Bytes compare as unsigned numbers, and byte strings lexicographically. -/
instance linearOrderUInt8 : LinearOrder UInt8 where
  le_refl := UInt8.le_refl
  le_trans _ _ _ := UInt8.le_trans
  le_antisymm _ _ := UInt8.le_antisymm
  le_total := UInt8.le_total
  lt_iff_le_not_ge a b := by
    rw [UInt8.lt_iff_toNat_lt, UInt8.le_iff_toNat_le, UInt8.le_iff_toNat_le]
    omega
  toDecidableLE := inferInstance
  toDecidableLT := inferInstance
  toDecidableEq := inferInstance

-- Otherwise membership in a byte string would be decided by way of the order.
instance lawfulBEqUInt8 : LawfulBEq UInt8 := inferInstance

def isDigit (b : UInt8) : Bool := 48 ≤ b ∧ b ≤ 57

def numeral (digits : Bytes) : Nat := digits.foldl (fun n d => 10 * n + (d.toNat - 48)) 0

def decimal (n : Nat) : Bytes := (Nat.toDigits 10 n).map fun c => UInt8.ofNat c.toNat

section decimal

theorem isDigit_bounds {b : UInt8} (digit : isDigit b) : 48 ≤ b.toNat ∧ b.toNat ≤ 57 := by
  simp only [isDigit, decide_eq_true_eq, UInt8.le_iff_toNat_le] at digit
  exact digit

theorem isDigit_ne {b c : UInt8} (digit : isDigit b) (other : c.toNat < 48) : b ≠ c := by
  rintro rfl
  have bounds := isDigit_bounds digit
  omega

private theorem digit_toNat {c : Char} (digit : c.isDigit) :
    (UInt8.ofNat c.toNat).toNat = c.toNat ∧ 48 ≤ c.toNat ∧ c.toNat ≤ 57 := by
  have bounds : 48 ≤ c.toNat ∧ c.toNat ≤ 57 := by
    simpa [Char.isDigit, Char.le_def, UInt32.le_iff_toNat_le] using digit
  have small : c.toNat < 2 ^ 8 := by omega
  exact ⟨UInt8.toNat_ofNat_of_lt' small, bounds⟩

theorem isDigit_of_mem_decimal {n : Nat} {b : UInt8} (member : b ∈ decimal n) : isDigit b := by
  obtain ⟨c, inside, rfl⟩ := List.mem_map.mp member
  have digit := Nat.isDigit_of_mem_toDigits (by decide) (by decide) inside
  obtain ⟨value, low, high⟩ := digit_toNat digit
  simp only [isDigit, UInt8.le_iff_toNat_le, value, decide_eq_true_eq]
  exact ⟨low, high⟩

theorem not_mem_decimal {c : UInt8} (low : c.toNat < 48) (n : Nat) : c ∉ decimal n :=
  fun member => isDigit_ne (isDigit_of_mem_decimal member) low rfl

theorem decimal_ne_nil (n : Nat) : decimal n ≠ [] := by
  simp only [decimal, ne_eq, List.map_eq_nil_iff]
  exact Nat.toDigits_ne_nil

theorem numeral_decimal (n : Nat) : numeral (decimal n) = n := by
  have digits : ∀ c ∈ Nat.toDigits 10 n, c.isDigit := fun c member =>
    Nat.isDigit_of_mem_toDigits (by decide) (by decide) member
  have same : ∀ (l : List Char) (start : Nat), (∀ c ∈ l, c.isDigit) →
      (l.map fun c => UInt8.ofNat c.toNat).foldl (fun n d => 10 * n + (d.toNat - 48)) start =
        Nat.ofDigitChars 10 l start := by
    intro l
    induction l with
    | nil => intro start _; rfl
    | cons c l ih =>
      intro start all
      rw [List.map_cons, List.foldl_cons, Nat.ofDigitChars_cons,
        (digit_toNat (all c List.mem_cons_self)).1]
      exact ih _ fun other member => all other (List.mem_cons_of_mem c member)
  rw [numeral, decimal, same _ 0 digits, Nat.ofDigitChars_ten_toDigits]

end decimal

end TextLines

end DropPlatform
