import DropPlatform.TextLines
import Mathlib.Tactic

/-! JSON texts of flat objects, whose members are whole numbers and strings. A style is a way
of writing them: the gap behind the separators and the spelling of characters in strings.
Whatever the style, the reader gets back the object that was written. -/

namespace DropPlatform.JsonObjects

inductive Value
  | num (n : Int)
  | str (s : Text)
deriving DecidableEq, Repr

abbrev Object := List (Text × Value)

section reading

def isWs (c : Char) : Bool := c = ' ' ∨ c = '\t' ∨ c = '\n' ∨ c = '\r'

def skip (text : Text) : Text := text.dropWhile isWs

def hexDigit (c : Char) : Option Nat :=
  if '0' ≤ c ∧ c ≤ '9' then some (c.toNat - 48)
  else if 'a' ≤ c ∧ c ≤ 'f' then some (c.toNat - 87)
  else if 'A' ≤ c ∧ c ≤ 'F' then some (c.toNat - 55)
  else none

/-- The character with the given four hexadecimal digits; halves of a surrogate pair are
not read. -/
def hexChar (a b c d : Char) : Option Char := do
  let n := 4096 * (← hexDigit a) + 256 * (← hexDigit b) + 16 * (← hexDigit c) + (← hexDigit d)
  if 0xD800 ≤ n ∧ n < 0xE000 then none else some (Char.ofNat n)

def escaped : Char → Option Char
  | '"' => some '"'
  | '\\' => some '\\'
  | '/' => some '/'
  | 'b' => some '\x08'
  | 'f' => some '\x0c'
  | 'n' => some '\n'
  | 'r' => some '\r'
  | 't' => some '\t'
  | _ => none

def prepend (c : Char) (read : Option (Text × Text)) : Option (Text × Text) :=
  read.map fun r => (c :: r.1, r.2)

/-- The string behind an opening quote, and what follows its closing one. -/
def readString : Text → Option (Text × Text)
  | [] => none
  | '"' :: rest => some ([], rest)
  | '\\' :: 'u' :: a :: b :: c :: d :: rest => (hexChar a b c d).bind (prepend · (readString rest))
  | '\\' :: c :: rest => (escaped c).bind (prepend · (readString rest))
  | c :: rest => if c.toNat < 0x20 ∨ c = '\\' then none else prepend c (readString rest)

/-- A number with a fraction or an exponent is not read. -/
def readNumber (text : Text) : Option (Int × Text) :=
  let negative := text.head? = some '-'
  let body := if negative then text.drop 1 else text
  let digits := body.takeWhile Char.isDigit
  let rest := body.dropWhile Char.isDigit
  if digits = [] ∨ rest.head? ∈ [some '.', some 'e', some 'E'] then none
  else
    let value : Int := Nat.ofDigitChars 10 digits 0
    some (if negative then -value else value, rest)

def readValue : Text → Option (Value × Text)
  | '"' :: rest => (readString rest).map fun r => (.str r.1, r.2)
  | text => (readNumber text).map fun r => (.num r.1, r.2)

def readMember (text : Text) : Option ((Text × Value) × Text) :=
  match skip text with
  | '"' :: rest => (readString rest).bind fun key =>
    match skip key.2 with
    | ':' :: rest => (readValue (skip rest)).map fun value => ((key.1, value.1), skip value.2)
    | _ => none
  | _ => none

def readMembers : Nat → Text → Option Object
  | 0, _ => none
  | fuel + 1, text => (readMember text).bind fun member =>
    match member.2 with
    | ',' :: rest => (readMembers fuel rest).map (member.1 :: ·)
    | '\x7d' :: rest => if skip rest = [] then some [member.1] else none
    | _ => none

def readObject (text : Text) : Option Object :=
  match skip text with
  | '\x7b' :: rest =>
    match skip rest with
    | '\x7d' :: rest => if skip rest = [] then some [] else none
    | _ => readMembers rest.length rest
  | _ => none

end reading

section writing

structure Style where
  gap : Text
  escape : Char → Text
  blank : ∀ c ∈ gap, isWs c
  reads : ∀ c rest, readString (escape c ++ rest) = prepend c (readString rest)

def printInt : Int → Text
  | .ofNat n => Nat.toDigits 10 n
  | .negSucc n => '-' :: Nat.toDigits 10 (n + 1)

def Style.string (style : Style) (s : Text) : Text := '"' :: (s.flatMap style.escape ++ ['"'])

def Style.value (style : Style) : Value → Text
  | .num n => printInt n
  | .str s => style.string s

def Style.member (style : Style) (m : Text × Value) : Text :=
  style.string m.1 ++ ':' :: (style.gap ++ style.value m.2)

def Style.members (style : Style) : Object → Text
  | [] => []
  | [m] => style.member m
  | m :: rest => style.member m ++ ',' :: (style.gap ++ style.members rest)

def Style.object (style : Style) (o : Object) : Text := '\x7b' :: (style.members o ++ ['\x7d'])

end writing

section roundTrip
variable {style : Style}

theorem skip_append {gap : Text} (blank : ∀ c ∈ gap, isWs c) (text : Text) :
    skip (gap ++ text) = skip text := List.dropWhile_append_of_pos blank

theorem skip_cons {c : Char} (dark : isWs c = false) (text : Text) :
    skip (c :: text) = c :: text := List.dropWhile_cons_of_neg (by simp [dark])

theorem readString_flatMap (s rest : Text) :
    readString (s.flatMap style.escape ++ '"' :: rest) = some (s, rest) := by
  induction s with
  | nil => simp [readString]
  | cons c s ih => rw [List.flatMap_cons, List.append_assoc, style.reads, ih]; rfl

theorem takeWhile_digits {rest : Text} (stop : ∀ c ∈ rest.head?, c.isDigit = false) (n : Nat) :
    (Nat.toDigits 10 n ++ rest).takeWhile Char.isDigit = Nat.toDigits 10 n ∧
      (Nat.toDigits 10 n ++ rest).dropWhile Char.isDigit = rest := by
  have all : ∀ c ∈ Nat.toDigits 10 n, c.isDigit := fun c member =>
    Nat.isDigit_of_mem_toDigits (by decide) (by decide) member
  rw [List.takeWhile_append_of_pos all, List.dropWhile_append_of_pos all]
  cases rest with
  | nil => simp
  | cons c rest => simp [stop c rfl]

theorem exists_digit (n : Nat) : ∃ d more, Nat.toDigits 10 n = d :: more ∧ d.isDigit := by
  obtain ⟨d, more, digits⟩ := List.exists_cons_of_ne_nil (Nat.toDigits_ne_nil (b := 10) (n := n))
  refine ⟨d, more, digits, ?_⟩
  exact Nat.isDigit_of_mem_toDigits (by decide) (by decide) (digits ▸ List.mem_cons_self)

theorem head_digits (n : Nat) (rest : Text) (c : Char) (dark : c.isDigit = false) :
    (Nat.toDigits 10 n ++ rest).head? ≠ some c := by
  obtain ⟨d, more, digits, digit⟩ := exists_digit n
  intro same
  rw [digits] at same
  have equal : d = c := Option.some.inj same
  rw [equal, dark] at digit
  exact Bool.false_ne_true digit

theorem readNumber_printInt {rest : Text} (stop : ∀ c ∈ rest.head?, c.isDigit = false)
    (ends : rest.head? ∉ [some '.', some 'e', some 'E']) (n : Int) :
    readNumber (printInt n ++ rest) = some (n, rest) := by
  have filled : ∀ m, Nat.toDigits 10 m ≠ [] := fun m => Nat.toDigits_ne_nil
  cases n with
  | ofNat m =>
    simp only [printInt, readNumber, head_digits m rest '-' rfl, if_false, takeWhile_digits stop,
      filled, ends, or_self, Nat.ofDigitChars_ten_toDigits]
    rfl
  | negSucc m =>
    simp only [printInt, readNumber, List.cons_append, List.head?_cons, if_true,
      List.drop_succ_cons, List.drop_zero, takeWhile_digits stop, filled, ends, or_self, if_false,
      Nat.ofDigitChars_ten_toDigits]
    rfl

def ender (c : Char) : Bool := c = ',' ∨ c = '\x7d'

theorem readValue_value (v : Value) {c : Char} (last : ender c) (rest : Text) :
    readValue (style.value v ++ c :: rest) = some (v, c :: rest) := by
  cases v with
  | num n =>
    have number : readNumber (printInt n ++ c :: rest) = some (n, c :: rest) := by
      have cases : c = ',' ∨ c = '\x7d' := of_decide_eq_true last
      apply readNumber_printInt
      · intro d member
        rw [← Option.some.inj member]
        rcases cases with rfl | rfl <;> rfl
      · rw [List.head?_cons]
        rcases cases with rfl | rfl <;> decide
    have unquoted : ∀ more, printInt n ++ c :: rest ≠ '"' :: more := by
      intro more same
      cases n with
      | ofNat m =>
        exact head_digits m (c :: rest) '"' rfl (congrArg List.head? same)
      | negSucc m => exact absurd (List.cons.inj same).1 (by decide)
    simp only [Style.value]
    rw [readValue]
    · rw [number]
      rfl
    · exact unquoted
  | str s =>
    simp only [Style.value, Style.string, List.cons_append, List.append_assoc, List.nil_append,
      readValue, readString_flatMap]
    rfl

theorem isWs_digit {c : Char} (digit : c.isDigit) : isWs c = false := by
  by_contra white
  have cases : c = ' ' ∨ c = '\t' ∨ c = '\n' ∨ c = '\r' :=
    of_decide_eq_true ((Bool.not_eq_false _).mp white)
  rcases cases with rfl | rfl | rfl | rfl <;> exact Bool.false_ne_true digit

theorem skip_value (v : Value) (rest : Text) :
    skip (style.value v ++ rest) = style.value v ++ rest := by
  cases v with
  | num n =>
    cases n with
    | ofNat m =>
      obtain ⟨d, more, digits, digit⟩ := exists_digit m
      rw [Style.value, printInt, digits]
      exact skip_cons (isWs_digit digit) _
    | negSucc m => exact skip_cons rfl _
  | str s => exact skip_cons rfl _

theorem readMember_member (m : Text × Value) {gap : Text} (blank : ∀ c ∈ gap, isWs c) {c : Char}
    (last : ender c) (rest : Text) :
    readMember (gap ++ (style.member m ++ c :: rest)) = some (m, c :: rest) := by
  have dark : isWs c = false := by
    rcases (of_decide_eq_true last : c = ',' ∨ c = '\x7d') with rfl | rfl <;> rfl
  have text : style.member m ++ c :: rest = '"' :: (m.1.flatMap style.escape ++ '"' ::
      (':' :: (style.gap ++ (style.value m.2 ++ c :: rest)))) := by
    simp [Style.member, Style.string]
  rw [readMember, skip_append blank, text, skip_cons rfl]
  simp only [readString_flatMap, Option.bind_some, skip_cons (c := ':') rfl,
    skip_append style.blank, skip_value, readValue_value m.2 last, Option.map_some,
    skip_cons dark]

theorem readMembers_members {o : Object} (filled : o ≠ []) {gap : Text}
    (blank : ∀ c ∈ gap, isWs c) {fuel : Nat} (enough : o.length ≤ fuel) :
    readMembers fuel (gap ++ (style.members o ++ ['\x7d'])) = some o := by
  induction o generalizing gap fuel with
  | nil => exact absurd rfl filled
  | cons m rest ih =>
    obtain ⟨fuel, rfl⟩ : ∃ k, fuel = k + 1 := ⟨fuel - 1, by simp at enough; omega⟩
    cases rest with
    | nil =>
      rw [Style.members, readMembers, readMember_member m blank rfl]
      rfl
    | cons next more =>
      have later : readMembers fuel (style.gap ++ (style.members (next :: more) ++ ['\x7d'])) =
          some (next :: more) :=
        ih (List.cons_ne_nil next more) style.blank (by simpa using enough)
      rw [Style.members, List.append_assoc, List.cons_append, readMembers,
        readMember_member m blank rfl, Option.bind_some, List.append_assoc]
      simp only [later, Option.map_some]
      exact List.cons_ne_nil next more

theorem length_members (o : Object) : o.length ≤ (style.members o).length := by
  induction o with
  | nil => exact le_rfl
  | cons m rest ih =>
    have some : 0 < (style.member m).length := Nat.succ_pos _
    cases rest with
    | nil => exact some
    | cons next more =>
      simp only [Style.members, List.length_append, List.length_cons] at ih ⊢
      omega

theorem readObject_object (o : Object) : readObject (style.object o) = some o := by
  rw [Style.object, readObject, skip_cons rfl]
  cases o with
  | nil => rfl
  | cons m rest =>
    have enough : (m :: rest).length ≤ (style.members (m :: rest) ++ ['\x7d']).length := by
      rw [List.length_append]
      exact (length_members (m :: rest)).trans (Nat.le_add_right _ _)
    have read : readMembers _ (style.members (m :: rest) ++ ['\x7d']) = some (m :: rest) :=
      readMembers_members (List.cons_ne_nil m rest) (List.forall_mem_nil _) enough
    obtain ⟨tail, start⟩ : ∃ tail, style.members (m :: rest) ++ ['\x7d'] = '"' :: tail := by
      cases rest <;> exact ⟨_, rfl⟩
    rw [start] at read ⊢
    simp only [skip_cons (c := '"') rfl]
    exact read

end roundTrip

section escaping

def hexOf (k : Nat) : Char := Char.ofNat (if k < 10 then 48 + k else 87 + k)

def unicodeEscape (c : Char) : Text :=
  let n := c.toNat
  ['\\', 'u', hexOf (n / 4096), hexOf (n / 256 % 16), hexOf (n / 16 % 16), hexOf (n % 16)]

/-- The spelling of quotes, backslashes and control characters, and of the given special
characters by their numbers. -/
def escape (special : List Char) (c : Char) : Text :=
  if c = '"' ∨ c = '\\' then ['\\', c]
  else if c = '\x08' then ['\\', 'b']
  else if c = '\x0c' then ['\\', 'f']
  else if c = '\n' then ['\\', 'n']
  else if c = '\r' then ['\\', 'r']
  else if c = '\t' then ['\\', 't']
  else if c.toNat < 0x20 ∨ c ∈ special then unicodeEscape c
  else [c]

theorem hexDigit_hexOf {k : Nat} (bound : k < 16) : hexDigit (hexOf k) = some k := by
  interval_cases k <;> rfl

theorem readString_unicodeEscape {c : Char} (plane : c.toNat < 0x10000) (rest : Text) :
    readString (unicodeEscape c ++ rest) = prepend c (readString rest) := by
  have number : 4096 * (c.toNat / 4096) + 256 * (c.toNat / 256 % 16) +
      16 * (c.toNat / 16 % 16) + c.toNat % 16 = c.toNat := by omega
  have valid : ¬ (0xD800 ≤ c.toNat ∧ c.toNat < 0xE000) := by
    rcases c.valid with low | high
    · have below : c.toNat < 0xD800 := low
      omega
    · have above : 0xDFFF < c.toNat := high.1
      omega
  have char : hexChar (hexOf (c.toNat / 4096)) (hexOf (c.toNat / 256 % 16))
      (hexOf (c.toNat / 16 % 16)) (hexOf (c.toNat % 16)) = some c := by
    simp only [hexChar, hexDigit_hexOf (show c.toNat / 4096 < 16 by omega),
      hexDigit_hexOf (show c.toNat / 256 % 16 < 16 by omega),
      hexDigit_hexOf (show c.toNat / 16 % 16 < 16 by omega),
      hexDigit_hexOf (show c.toNat % 16 < 16 by omega), Option.bind_eq_bind, Option.bind_some,
      number, valid, if_false, Char.ofNat_toNat]
  simp only [unicodeEscape, List.cons_append, List.nil_append, readString, char, Option.bind_some]

theorem readString_escape {special : List Char} (planes : ∀ c ∈ special, c.toNat < 0x10000)
    (c : Char) (rest : Text) :
    readString (escape special c ++ rest) = prepend c (readString rest) := by
  unfold escape
  split_ifs with quoted back feed line carriage tab number
  · rcases quoted with rfl | rfl <;> rfl
  · rw [back]; rfl
  · rw [feed]; rfl
  · rw [line]; rfl
  · rw [carriage]; rfl
  · rw [tab]; rfl
  · apply readString_unicodeEscape
    rcases number with control | member
    · omega
    · exact planes c member
  · obtain ⟨notQuote, notSlash⟩ := not_or.mp quoted
    have plain : ¬ (c.toNat < 0x20 ∨ c = '\\') := by tauto
    rw [List.singleton_append, readString, if_neg plain]
    · exact notQuote
    · exact fun _ _ _ _ _ slash _ => notSlash slash
    · exact fun _ _ slash _ => notSlash slash

end escaping

end DropPlatform.JsonObjects
