import DropPlatform.TextLines
import Mathlib.Data.List.DropRight
import Mathlib.Tactic

/-! Python's texts, as the analyzers read them: `str.strip`, `str.splitlines` and the
conversion `int` of a decimal numeral, for Python 3.12 with the tables of Unicode 15. -/

namespace DropPlatform.PythonText

/-- `str.isspace` of one character. -/
def isSpace (c : Char) : Bool :=
  let n := c.toNat
  9 ≤ n ∧ n ≤ 13 ∨ 0x1C ≤ n ∧ n ≤ 0x20 ∨ n = 0x85 ∨ n = 0xA0 ∨ n = 0x1680 ∨
    0x2000 ≤ n ∧ n ≤ 0x200A ∨ n = 0x2028 ∨ n = 0x2029 ∨ n = 0x202F ∨ n = 0x205F ∨ n = 0x3000

def strip (text : Text) : Text := (text.dropWhile isSpace).rdropWhile isSpace

def isLineBreak (c : Char) : Bool :=
  let n := c.toNat
  10 ≤ n ∧ n ≤ 13 ∨ 0x1C ≤ n ∧ n ≤ 0x1E ∨ n = 0x85 ∨ n = 0x2028 ∨ n = 0x2029

/-- A break at the very end is not followed by an empty line. -/
def splitlines : Text → List Text
  | [] => []
  | '\r' :: '\n' :: rest => [] :: splitlines rest
  | c :: rest =>
    if isLineBreak c then [] :: splitlines rest
    else match splitlines rest with
      | [] => [[c]]
      | line :: more => (c :: line) :: more

/-- The zeros of the decimal digits; each is followed by the other nine. -/
def zeros : List Nat :=
  [0x30, 0x660, 0x6F0, 0x7C0, 0x966, 0x9E6, 0xA66, 0xAE6, 0xB66, 0xBE6, 0xC66, 0xCE6, 0xD66,
    0xDE6, 0xE50, 0xED0, 0xF20, 0x1040, 0x1090, 0x17E0, 0x1810, 0x1946, 0x19D0, 0x1A80, 0x1A90,
    0x1B50, 0x1BB0, 0x1C40, 0x1C50, 0xA620, 0xA8D0, 0xA900, 0xA9D0, 0xA9F0, 0xAA50, 0xABF0,
    0xFF10, 0x104A0, 0x10D30, 0x11066, 0x110F0, 0x11136, 0x111D0, 0x112F0, 0x11450, 0x114D0,
    0x11650, 0x116C0, 0x11730, 0x118E0, 0x11950, 0x11C50, 0x11D50, 0x11DA0, 0x11F50, 0x16A60,
    0x16AC0, 0x16B50, 0x1D7CE, 0x1D7D8, 0x1D7E2, 0x1D7EC, 0x1D7F6, 0x1E140, 0x1E2F0, 0x1E4F0,
    0x1E950, 0x1FBF0]

def decimal (c : Char) : Option Nat :=
  (zeros.find? fun first => first ≤ c.toNat ∧ c.toNat < first + 10).map (c.toNat - ·)

/-- The separators of files, groups, records and units are spaces for `strip` only. -/
def isIntSpace (c : Char) : Bool := isSpace c ∧ ¬ (0x1C ≤ c.toNat ∧ c.toNat ≤ 0x1F)

def isIntChar (c : Char) : Bool := c = '_' ∨ (decimal c).isSome

/-- Single underscores may stand between digits; `prev` says that no digit stands before. -/
def grouped : (prev : Bool) → Text → Bool
  | prev, [] => !prev
  | prev, c :: rest => if c = '_' then !prev && grouped true rest else grouped false rest

def intMaxStrDigits : Nat := 4300

/-- `int(text)`; `none` is a `ValueError`. -/
def int (text : Text) : Option Int :=
  let text := text.dropWhile isIntSpace
  let negative := text.head? = some '-'
  let text := if negative ∨ text.head? = some '+' then text.drop 1 else text
  let digits := text.takeWhile isIntChar
  let values := digits.filterMap decimal
  if grouped true digits ∧ values.length ≤ intMaxStrDigits ∧
      (text.dropWhile isIntChar).all isIntSpace then
    let n : Int := values.foldl (fun n d => 10 * n + d) 0
    some (if negative then -n else n)
  else none

/-- `items[:stop]`; a negative bound counts from the end. -/
def sliceTo {α : Type*} (items : List α) (stop : Int) : List α :=
  items.take (if 0 ≤ stop then stop else items.length + stop).toNat

section lines
variable {line : Text}

theorem isSpace_of_isLineBreak {c : Char} (breaks : isLineBreak c) : isSpace c := by
  have range := of_decide_eq_true breaks
  simp only [isSpace, decide_eq_true_eq]
  omega

theorem splitlines_cons {c : Char} (inside : isLineBreak c = false) (rest : Text) :
    splitlines (c :: rest) = match splitlines rest with
      | [] => [[c]]
      | line :: more => (c :: line) :: more := by
  have other : c ≠ '\r' := by
    rintro rfl
    exact absurd inside (by decide)
  rw [splitlines, if_neg (by simp [inside])]
  exact fun _ return_ _ => other return_

theorem splitlines_append (clean : ∀ c ∈ line, isLineBreak c = false) (rest : Text) :
    splitlines (line ++ '\n' :: rest) = line :: splitlines rest := by
  induction line with
  | nil => exact rfl
  | cons c line ih =>
    obtain ⟨first, others⟩ := List.forall_mem_cons.mp clean
    rw [List.cons_append, splitlines_cons first, ih others]

theorem splitlines_last (clean : ∀ c ∈ line, isLineBreak c = false) (filled : line ≠ []) :
    splitlines line = [line] := by
  induction line with
  | nil => exact absurd rfl filled
  | cons c line ih =>
    obtain ⟨first, others⟩ := List.forall_mem_cons.mp clean
    rw [splitlines_cons first]
    cases line with
    | nil => rfl
    | cons d line => rw [ih others (List.cons_ne_nil d line)]

theorem splitlines_intercalate {ls : List Text}
    (clean : ∀ line ∈ ls, line ≠ [] ∧ ∀ c ∈ line, isLineBreak c = false) :
    splitlines (['\n'].intercalate ls) = ls := by
  induction ls with
  | nil => rfl
  | cons line ls ih =>
    obtain ⟨⟨filled, inside⟩, others⟩ := List.forall_mem_cons.mp clean
    cases ls with
    | nil => rw [List.intercalate_singleton, splitlines_last inside filled]
    | cons next ls =>
      rw [List.intercalate_cons_cons, List.append_assoc, List.singleton_append,
        splitlines_append inside, ih others]

end lines

section numerals
variable {digits : Text}

theorem toNat_of_isDigit {c : Char} (digit : c.isDigit) : 48 ≤ c.toNat ∧ c.toNat ≤ 57 := by
  simpa [Char.isDigit, UInt32.le_iff_toNat_le] using digit

theorem decimal_of_isDigit {c : Char} (digit : c.isDigit) : decimal c = some (c.toNat - 48) := by
  have range := toNat_of_isDigit digit
  have ascii : 0x30 ≤ c.toNat ∧ c.toNat < 0x30 + 10 := by omega
  rw [decimal, zeros, List.find?_cons_of_pos (by simpa using ascii)]
  rfl

/-- The first and the last of the characters that are white space, range by range. -/
def spaceRanges : List (Nat × Nat) :=
  [(9, 13), (0x1C, 0x20), (0x85, 0x85), (0xA0, 0xA0), (0x1680, 0x1680), (0x2000, 0x200A),
    (0x2028, 0x2028), (0x2029, 0x2029), (0x202F, 0x202F), (0x205F, 0x205F), (0x3000, 0x3000)]

theorem exists_range_of_isSpace {c : Char} (space : isSpace c) :
    ∃ range ∈ spaceRanges, range.1 ≤ c.toNat ∧ c.toNat ≤ range.2 := by
  have range := of_decide_eq_true space
  simp only [spaceRanges, List.mem_cons, exists_eq_or_imp, List.not_mem_nil, or_false,
    exists_eq_left]
  omega

theorem decimal_of_isSpace {c : Char} (space : isSpace c) : decimal c = none := by
  have apart : (spaceRanges.all fun range => zeros.all fun first =>
      range.2 < first || first + 10 ≤ range.1) = true := by decide +kernel
  obtain ⟨range, member, low, high⟩ := exists_range_of_isSpace space
  have none := List.all_eq_true.mp apart range member
  simp only [List.all_eq_true, Bool.or_eq_true, decide_eq_true_eq] at none
  rw [decimal, Option.map_eq_none_iff, List.find?_eq_none]
  intro first listed
  have outside := none first listed
  simp only [decide_eq_true_eq]
  omega

theorem grouped_of_not_mem (none : '_' ∉ digits) (filled : digits ≠ []) (prev : Bool) :
    grouped prev digits := by
  induction digits generalizing prev with
  | nil => exact absurd rfl filled
  | cons c digits ih =>
    obtain ⟨first, others⟩ := List.ne_and_not_mem_of_not_mem_cons none
    rw [grouped, if_neg first.symm]
    cases digits with
    | nil => rfl
    | cons d digits => exact ih others (List.cons_ne_nil d digits) false

theorem foldl_values (all : ∀ c ∈ digits, c.isDigit) (start : Nat) :
    (digits.filterMap decimal).foldl (fun (n : Int) (d : Nat) => 10 * n + d) start =
      Nat.ofDigitChars 10 digits start := by
  induction digits generalizing start with
  | nil => simp
  | cons c digits ih =>
    obtain ⟨first, others⟩ := List.forall_mem_cons.mp all
    have next := ih others (10 * start + (c.toNat - 48))
    rw [List.filterMap_cons_some (decimal_of_isDigit first), List.foldl_cons, Nat.ofDigitChars_cons]
    push_cast at next
    exact next

theorem int_of_decimals (all : ∀ c ∈ digits, (decimal c).isSome) (filled : digits ≠ [])
    (short : digits.length ≤ intMaxStrDigits) :
    int digits =
      some ((digits.filterMap decimal).foldl (fun (n : Int) (d : Nat) => 10 * n + d) 0) := by
  have others {c : Char} (other : decimal c = none) : c ∉ digits := by
    intro member
    have some := all c member
    rw [other] at some
    cases some
  obtain ⟨first, rest, split⟩ := List.exists_cons_of_ne_nil filled
  have kept : digits.dropWhile isIntSpace = digits := by
    rw [split, List.dropWhile_cons_of_neg]
    intro space
    refine others (decimal_of_isSpace (of_decide_eq_true space).1) ?_
    exact split ▸ List.mem_cons_self
  have unsigned : ∀ sign, decimal sign = none → digits.head? ≠ some sign :=
    fun sign other same => others other (List.mem_of_head? same)
  have chars : ∀ c ∈ digits, isIntChar c := fun c member => decide_eq_true (.inr (all c member))
  have taken : digits.takeWhile isIntChar = digits := List.takeWhile_eq_self_iff.mpr chars
  have left : digits.dropWhile isIntChar = [] := List.dropWhile_eq_nil_iff.mpr chars
  have count : (digits.filterMap decimal).length ≤ intMaxStrDigits :=
    (List.length_filterMap_le _ _).trans short
  simp only [int, kept, unsigned '-' (by decide), unsigned '+' (by decide), or_self, if_false,
    taken, left, grouped_of_not_mem (others (by decide)) filled true, count, List.all_nil,
    and_self, if_true, bind_pure_comp, List.map_eq_map, List.foldl_map]

theorem int_of_isDigit (all : ∀ c ∈ digits, c.isDigit) (filled : digits ≠ [])
    (short : digits.length ≤ intMaxStrDigits) :
    int digits = some (Nat.ofDigitChars 10 digits 0 : Int) := by
  rw [int_of_decimals (fun c member => by rw [decimal_of_isDigit (all c member)]; rfl) filled short]
  exact congrArg some (foldl_values all 0)

end numerals

section stripping

theorem rdropWhile_append_of_pos {space : Char → Bool} {text tail : Text}
    (blank : ∀ c ∈ tail, space c) : (text ++ tail).rdropWhile space = text.rdropWhile space := by
  rw [List.rdropWhile, List.reverse_append, List.dropWhile_append_of_pos (by simpa using blank),
    List.rdropWhile]

def Blank (line : Text) : Prop := ∀ c ∈ line, isSpace c

theorem strip_of_blank {line : Text} (blank : Blank line) : strip line = [] := by
  rw [strip, List.dropWhile_eq_nil_iff.mpr blank]
  rfl

theorem strip_cons {c : Char} (space : isSpace c) (line : Text) :
    strip (c :: line) = strip line := by
  rw [strip, List.dropWhile_cons_of_pos space, strip]

theorem strip_append {pad : Text} (blank : Blank pad) (line : Text) :
    strip (line ++ pad) = strip line := by
  rw [strip, List.dropWhile_append, strip]
  split_ifs with empty
  · rw [List.dropWhile_eq_nil_iff.mpr blank, List.isEmpty_iff.mp empty]
  · exact rdropWhile_append_of_pos blank

def solidLines (ls : List Text) : List Text := (ls.map strip).filter (· ≠ [])

theorem solidLines_cons (line : Text) (ls : List Text) :
    solidLines (line :: ls) =
      if strip line = [] then solidLines ls else strip line :: solidLines ls := by
  rw [solidLines, List.map_cons, List.filter_cons]
  by_cases empty : strip line = []
  · simp [empty, solidLines]
  · simp [empty, solidLines]

theorem solidLines_of_blank {ls : List Text} (blank : ∀ line ∈ ls, Blank line) :
    solidLines ls = [] := by
  induction ls with
  | nil => rfl
  | cons line ls ih =>
    obtain ⟨first, others⟩ := List.forall_mem_cons.mp blank
    rw [solidLines_cons, if_pos (strip_of_blank first), ih others]

/-- The first half of a break of two characters. -/
def Half (c : Char) (text : Text) : Prop := c = '\r' ∧ ∃ rest, text = '\n' :: rest

theorem splitlines_half {c : Char} {text : Text} (half : Half c text) :
    splitlines (c :: text) = splitlines text := by
  obtain ⟨rfl, rest, rfl⟩ := half
  rfl

theorem splitlines_break {c : Char} {text : Text} (breaks : isLineBreak c) (whole : ¬ Half c text) :
    splitlines (c :: text) = [] :: splitlines text := by
  rw [splitlines, if_pos breaks]
  exact fun rest return_ feed => whole ⟨return_, rest, feed⟩

theorem solidLines_splitlines_cons {c : Char} (space : isSpace c) (text : Text) :
    solidLines (splitlines (c :: text)) = solidLines (splitlines text) := by
  cases breaks : isLineBreak c with
  | true =>
    by_cases half : Half c text
    · rw [splitlines_half half]
    · rw [splitlines_break breaks half, solidLines_cons]
      exact if_pos rfl
  | false =>
    rw [splitlines_cons breaks]
    cases splitlines text with
    | nil => exact solidLines_of_blank (by simpa [Blank] using space)
    | cons line ls => simp only [solidLines_cons, strip_cons space]

theorem blank_of_mem_splitlines {text line : Text} (blank : Blank text)
    (member : line ∈ splitlines text) : Blank line := by
  induction text generalizing line with
  | nil => exact absurd member List.not_mem_nil
  | cons c text ih =>
    obtain ⟨space, others⟩ := List.forall_mem_cons.mp blank
    have rest := fun {line} => @ih line others
    cases breaks : isLineBreak c with
    | true =>
      by_cases half : Half c text
      · exact rest (splitlines_half half ▸ member)
      · rw [splitlines_break breaks half] at member
        rcases List.mem_cons.mp member with rfl | later
        · exact fun c inside => absurd inside List.not_mem_nil
        · exact rest later
    | false =>
      rw [splitlines_cons breaks] at member
      cases tail : splitlines text with
      | nil =>
        rw [tail] at member
        rw [List.mem_singleton.mp member]
        exact List.forall_mem_singleton.mpr space
      | cons first ls =>
        rw [tail] at member rest
        rcases List.mem_cons.mp member with rfl | later
        · exact List.forall_mem_cons.mpr ⟨space, rest List.mem_cons_self⟩
        · exact rest (List.mem_cons_of_mem _ later)

inductive Padded : List Text → List Text → Prop
  | blank {ls : List Text} (all : ∀ line ∈ ls, Blank line) : Padded [] ls
  | last {line pad : Text} {ls : List Text} (padding : Blank pad) (all : ∀ line ∈ ls, Blank line) :
      Padded [line] ((line ++ pad) :: ls)
  | cons {ls ls' : List Text} (line : Text) (rest : Padded ls ls') :
      Padded (line :: ls) (line :: ls')

theorem Padded.solidLines_eq {ls ls' : List Text} (padded : Padded ls ls') :
    solidLines ls' = solidLines ls := by
  induction padded with
  | blank all => exact solidLines_of_blank all
  | last padding all =>
    simp only [solidLines_cons, strip_append padding, solidLines_of_blank all]
    rfl
  | cons line rest ih => rw [solidLines_cons, solidLines_cons, ih]

theorem padded_splitlines {pad : Text} (blank : Blank pad) (text : Text) :
    Padded (splitlines text) (splitlines (text ++ pad)) := by
  induction text with
  | nil => exact .blank fun line member => blank_of_mem_splitlines blank member
  | cons c text ih =>
    cases breaks : isLineBreak c with
    | true =>
      by_cases half : Half c text
      · have longer : Half c (text ++ pad) := by
          obtain ⟨return_, rest, rfl⟩ := half
          exact ⟨return_, rest ++ pad, rfl⟩
        rw [List.cons_append, splitlines_half half, splitlines_half longer]
        exact ih
      by_cases longer : Half c (text ++ pad)
      · obtain ⟨return_, rest, feed⟩ := longer
        have empty : text = [] := by
          cases text with
          | nil => rfl
          | cons d text => exact absurd ⟨return_, text, by rw [(List.cons.inj feed).1]⟩ half
        rw [empty, List.nil_append] at feed
        have blanks : ∀ line ∈ splitlines rest, Blank line := fun line member =>
          blank_of_mem_splitlines (List.forall_mem_cons.mp (feed ▸ blank)).2 member
        rw [splitlines_break breaks half, empty, List.cons_append, List.nil_append, return_, feed]
        exact .cons [] (.blank blanks)
      · rw [List.cons_append, splitlines_break breaks half, splitlines_break breaks longer]
        exact .cons [] ih
    | false =>
      rw [List.cons_append, splitlines_cons breaks, splitlines_cons breaks]
      generalize splitlines text = ls at ih
      generalize splitlines (text ++ pad) = ls' at ih
      cases ih with
      | blank all =>
        cases ls' with
        | nil => exact .cons [c] (.blank all)
        | cons line ls' =>
          obtain ⟨first, others⟩ := List.forall_mem_cons.mp all
          exact .last first others
      | last padding all => exact .last padding all
      | cons line rest => exact .cons (c :: line) rest

theorem exists_strip (text : Text) :
    ∃ front pad, Blank front ∧ Blank pad ∧ text = front ++ (strip text ++ pad) := by
  refine ⟨text.takeWhile isSpace, (text.dropWhile isSpace).rtakeWhile isSpace, ?_, ?_, ?_⟩
  · exact fun c member => List.mem_takeWhile_imp member
  · exact fun c member => List.mem_rtakeWhile_imp member
  · rw [strip, List.rdropWhile_append_rtakeWhile, List.takeWhile_append_dropWhile]

theorem solidLines_strip (text : Text) :
    solidLines (splitlines (strip text)) = solidLines (splitlines text) := by
  obtain ⟨front, pad, blankFront, blankPad, whole⟩ := exists_strip text
  have tail := (padded_splitlines blankPad (strip text)).solidLines_eq
  rw [← tail]
  conv_rhs => rw [whole]
  clear whole
  generalize strip text ++ pad = rest
  induction front with
  | nil => rfl
  | cons c front ih =>
    obtain ⟨space, others⟩ := List.forall_mem_cons.mp blankFront
    rw [List.cons_append, solidLines_splitlines_cons space, ih others]

end stripping

section files

/-- The lines of a file that is opened as text, without the breaks that end them. Only line
feeds and carriage returns are breaks there. -/
def fileLines : Text → List Text
  | [] => []
  | '\r' :: '\n' :: rest => [] :: fileLines rest
  | c :: rest =>
    if c = '\n' ∨ c = '\r' then [] :: fileLines rest
    else match fileLines rest with
      | [] => [[c]]
      | line :: more => (c :: line) :: more

/-- No line break but those of files. -/
def PlainBreaks (text : Text) : Prop := ∀ c ∈ text, isLineBreak c → c = '\n' ∨ c = '\r'

theorem PlainBreaks.tail {c : Char} {text : Text} (plain : PlainBreaks (c :: text)) :
    PlainBreaks text := fun d member => plain d (List.mem_cons_of_mem c member)

theorem not_fileBreak {c : Char} (inside : ¬ isLineBreak c) : ¬ (c = '\n' ∨ c = '\r') := by
  rintro (rfl | rfl)
  · exact inside (by decide)
  · exact inside (by decide)

theorem fileLines_eq_splitlines {text : Text} (plain : PlainBreaks text) :
    fileLines text = splitlines text := by
  fun_induction splitlines text with
  | case1 => rfl
  | case2 rest ih => rw [fileLines, ih plain.tail.tail]
  | case3 c rest whole breaks ih =>
    rw [fileLines, if_pos (plain c List.mem_cons_self breaks), ih plain.tail]
    exact whole
  | case4 c rest whole inside tail ih =>
    rw [fileLines, if_neg (not_fileBreak inside), ih plain.tail, tail]
    exact whole
  | case5 c rest whole inside line more tail ih =>
    rw [fileLines, if_neg (not_fileBreak inside), ih plain.tail, tail]
    exact whole

end files

end DropPlatform.PythonText
