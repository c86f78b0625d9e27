import Mathlib.Computability.Language
import Mathlib.Tactic

/-! Regular expressions with groups, matched by backtracking. A pattern tries its matches in
an order of preference: repetitions are greedy, and of two alternatives the first is preferred.
What can be matched at all is the pattern's language; which match is found, and with it what the
groups capture, is decided by the order. Only characters are repeated, and every group of a
pattern takes part in each of its matches. -/

namespace DropPlatform.Patterns

variable {α : Type*}

inductive Pattern (α : Type*)
  | many (accepts : α → Bool) (least : Nat) (most : Option Nat)
  | seq (first second : Pattern α)
  | alt (first second : Pattern α)
  | group (body : Pattern α)

namespace Pattern

def one (accepts : α → Bool) : Pattern α := .many accepts 1 (some 1)

def word : List (α → Bool) → Pattern α
  | [] => .many (fun _ => false) 0 none
  | accepts :: rest => .seq (one accepts) (word rest)

def literal [DecidableEq α] (text : List α) : Pattern α := word (text.map fun a b => a = b)

abbrev Match (α : Type*) := List (List α) × List α

/-- How many characters a repetition may take, the largest number first. -/
def lengths (accepts : α → Bool) (least : Nat) (most : Option Nat) (text : List α) : List Nat :=
  let longest := (text.takeWhile accepts).length
  (List.range (min longest (most.getD longest) + 1)).reverse.filter (least ≤ ·)

/-- The matches at the start of a text, in the order in which they are tried. -/
def attempts : Pattern α → List α → List (Match α)
  | .many accepts least most, text =>
    (lengths accepts least most text).map fun n => ([], text.drop n)
  | .seq first second, text =>
    (first.attempts text).flatMap fun m =>
      (second.attempts m.2).map fun m' => (m.1 ++ m'.1, m'.2)
  | .alt first second, text => first.attempts text ++ second.attempts text
  | .group body, text =>
    (body.attempts text).map fun m => (text.take (text.length - m.2.length) :: m.1, m.2)

/-- The groups of the first match at the leftmost place that has one. -/
def search (p : Pattern α) (text : List α) : Option (List (List α)) :=
  text.tails.findSome? fun tail => (p.attempts tail).head?.map Prod.fst

def bodies : Pattern α → List (Pattern α)
  | .many _ _ _ => []
  | .seq first second | .alt first second => first.bodies ++ second.bodies
  | .group body => body :: body.bodies

def plain : Pattern α → Bool
  | .many _ _ _ => true
  | .seq first second => first.plain && second.plain
  | .alt first second =>
    first.plain && second.plain && first.bodies.isEmpty && second.bodies.isEmpty
  | .group body => body.plain

/-- What can be matched, apart from the order. -/
def language : Pattern α → Language α
  | .many accepts least most =>
    {w | (∀ a ∈ w, accepts a) ∧ least ≤ w.length ∧ ∀ m ∈ most, w.length ≤ m}
  | .seq first second => first.language * second.language
  | .alt first second => first.language + second.language
  | .group body => body.language

section language
variable {accepts : α → Bool} {least n : Nat} {most : Option Nat} {text rest : List α}

theorem le_length_takeWhile :
    n ≤ (text.takeWhile accepts).length ↔ n ≤ text.length ∧ ∀ a ∈ text.take n, accepts a := by
  induction text generalizing n with
  | nil => simp
  | cons a text ih =>
    cases n with
    | zero => simp
    | succ n =>
      by_cases first : accepts a
      · simp [first, ih]
      · simp [first]

theorem mem_lengths : n ∈ lengths accepts least most text ↔
    least ≤ n ∧ (∀ m ∈ most, n ≤ m) ∧ n ≤ (text.takeWhile accepts).length := by
  simp only [lengths, List.mem_filter, List.mem_reverse, List.mem_range, Nat.lt_succ_iff,
    decide_eq_true_eq, le_min_iff]
  cases most with
  | none => simp [and_comm]
  | some m =>
    simp only [Option.getD_some, Option.mem_def, Option.some.injEq, forall_eq']
    tauto

theorem mem_language_many {w : List α} : w ∈ (many accepts least most).language ↔
    (∀ a ∈ w, accepts a) ∧ least ≤ w.length ∧ ∀ m ∈ most, w.length ≤ m := Iff.rfl

@[simp]
theorem mem_language_seq {first second : Pattern α} {w : List α} :
    w ∈ (seq first second).language ↔
      ∃ u ∈ first.language, ∃ v ∈ second.language, u ++ v = w := Language.mem_mul

@[simp]
theorem mem_language_alt {first second : Pattern α} {w : List α} :
    w ∈ (alt first second).language ↔ w ∈ first.language ∨ w ∈ second.language := Iff.rfl

@[simp]
theorem mem_language_group {body : Pattern α} {w : List α} :
    w ∈ (group body).language ↔ w ∈ body.language := Iff.rfl

theorem exists_attempt_iff (p : Pattern α) :
    (∃ captured, (captured, rest) ∈ p.attempts text) ↔ ∃ w ∈ p.language, text = w ++ rest := by
  induction p generalizing text rest with
  | many accepts least most =>
    simp only [attempts, List.mem_map, mem_lengths, le_length_takeWhile]
    constructor
    · rintro ⟨captured, n, ⟨enough, bound, inside, all⟩, same⟩
      have left := (Prod.mk.inj same).2
      refine ⟨text.take n, ⟨all, ?_, ?_⟩, ?_⟩
      · rwa [List.length_take, min_eq_left inside]
      · rwa [List.length_take, min_eq_left inside]
      · rw [← left, List.take_append_drop]
    · rintro ⟨w, ⟨all, enough, bound⟩, rfl⟩
      exact ⟨[], w.length, ⟨enough, bound, by simp, by simpa using all⟩, by simp⟩
  | seq first second ihFirst ihSecond =>
    simp only [attempts, List.mem_flatMap, List.mem_map, mem_language_seq]
    constructor
    · rintro ⟨captured, m, found, m', next, same⟩
      obtain ⟨rfl, rfl⟩ := Prod.mk.inj same
      obtain ⟨v, inFirst, split⟩ := ihFirst.mp ⟨m.1, found⟩
      obtain ⟨w, inSecond, more⟩ := ihSecond.mp ⟨m'.1, next⟩
      exact ⟨v ++ w, ⟨v, inFirst, w, inSecond, rfl⟩, by rw [split, more, List.append_assoc]⟩
    · rintro ⟨_, ⟨v, inFirst, w, inSecond, rfl⟩, split⟩
      rw [List.append_assoc] at split
      obtain ⟨captured, found⟩ := ihFirst.mpr ⟨v, inFirst, split⟩
      obtain ⟨captured', next⟩ := ihSecond.mpr ⟨w, inSecond, rfl⟩
      exact ⟨_, _, found, _, next, rfl⟩
  | alt first second ihFirst ihSecond =>
    simp only [attempts, List.mem_append, exists_or, ihFirst, ihSecond, mem_language_alt,
      or_and_right]
  | group body ih =>
    simp only [attempts, List.mem_map, mem_language_group, ← ih]
    constructor
    · rintro ⟨captured, m, found, same⟩
      obtain ⟨_, rfl⟩ := Prod.mk.inj same
      exact ⟨m.1, found⟩
    · rintro ⟨captured, found⟩
      exact ⟨_, _, found, rfl⟩

theorem attempts_eq_nil_iff (p : Pattern α) :
    p.attempts text = [] ↔ ∀ w ∈ p.language, ¬ w <+: text := by
  rw [List.eq_nil_iff_forall_not_mem]
  constructor
  · rintro none w inside ⟨rest, rfl⟩
    obtain ⟨captured, found⟩ := (exists_attempt_iff p).mpr ⟨w, inside, rfl⟩
    exact none _ found
  · rintro none ⟨captured, rest⟩ found
    obtain ⟨w, inside, rfl⟩ := (exists_attempt_iff p).mp ⟨captured, found⟩
    exact none w inside (List.prefix_append w rest)

theorem search_isSome_iff (p : Pattern α) :
    (p.search text).isSome ↔ ∃ w ∈ p.language, w <:+: text := by
  have here : ∀ tail : List α, ((p.attempts tail).head?.map Prod.fst).isSome ↔
      ∃ w ∈ p.language, w <+: tail := by
    intro tail
    rw [Option.isSome_map, List.isSome_head?, ne_eq, attempts_eq_nil_iff]
    push Not
    rfl
  simp only [search, List.findSome?_isSome_iff, here, List.mem_tails]
  constructor
  · rintro ⟨tail, suffix, w, inside, front⟩
    exact ⟨w, inside, List.infix_iff_prefix_suffix.mpr ⟨tail, front, suffix⟩⟩
  · rintro ⟨w, inside, within⟩
    obtain ⟨tail, front, suffix⟩ := List.infix_iff_prefix_suffix.mp within
    exact ⟨tail, suffix, w, inside, front⟩

theorem search_of_attempt {p : Pattern α} {m : Match α}
    (found : (p.attempts text).head? = some m) : p.search text = some m.1 := by
  cases text <;> simp [search, List.tails, found]

theorem search_cons {p : Pattern α} {a : α} (none : p.attempts (a :: text) = []) :
    p.search (a :: text) = p.search text := by
  simp [search, List.tails, none]

theorem search_congr {p : Pattern α} {find : List α → Option (List (List α))}
    (same : ∀ tail, (p.attempts tail).head?.map Prod.fst = find tail) :
    p.search text = text.tails.findSome? find := by
  simp only [search, same]

theorem captured_of_attempt {p : Pattern α} (plain : p.plain) {m : Match α}
    (found : m ∈ p.attempts text) :
    List.Forall₂ (fun w body => w ∈ body.language ∧ w <:+: text) m.1 p.bodies := by
  induction p generalizing text m with
  | many accepts least most =>
    obtain ⟨n, _, rfl⟩ := List.mem_map.mp found
    exact .nil
  | seq first second ihFirst ihSecond =>
    obtain ⟨plainFirst, plainSecond⟩ := Bool.and_eq_true_iff.mp plain
    obtain ⟨m₁, front, behind⟩ := List.mem_flatMap.mp found
    obtain ⟨m₂, back, rfl⟩ := List.mem_map.mp behind
    obtain ⟨w, _, split⟩ := (exists_attempt_iff first).mp ⟨m₁.1, front⟩
    refine List.rel_append (ihFirst plainFirst front) ?_
    refine (ihSecond plainSecond back).imp fun v body captured => ⟨captured.1, ?_⟩
    exact captured.2.trans (split ▸ (List.suffix_append w m₁.2).isInfix)
  | alt first second ihFirst ihSecond =>
    simp only [Pattern.plain, Bool.and_eq_true, List.isEmpty_iff] at plain
    obtain ⟨⟨⟨plainFirst, plainSecond⟩, noneFirst⟩, noneSecond⟩ := plain
    rw [bodies, noneFirst, noneSecond]
    rcases List.mem_append.mp found with front | back
    · have none := ihFirst plainFirst front
      rwa [noneFirst] at none
    · have none := ihSecond plainSecond back
      rwa [noneSecond] at none
  | group body ih =>
    obtain ⟨inner, within, rfl⟩ := List.mem_map.mp found
    obtain ⟨w, inside, split⟩ := (exists_attempt_iff body).mp ⟨inner.1, within⟩
    refine .cons ?_ (ih plain within)
    have captured : text.take (text.length - inner.2.length) = w := by
      rw [split]
      simp
    rw [captured]
    exact ⟨inside, split ▸ (List.prefix_append w inner.2).isInfix⟩

theorem captured_of_search {p : Pattern α} (plain : p.plain) {captured : List (List α)}
    (found : p.search text = some captured) :
    List.Forall₂ (fun w body => w ∈ body.language ∧ w <:+: text) captured p.bodies := by
  obtain ⟨tail, member, here⟩ := List.exists_of_findSome?_eq_some found
  obtain ⟨m, preferred, rfl⟩ := Option.map_eq_some_iff.mp here
  refine (captured_of_attempt plain (List.mem_of_mem_head? preferred)).imp fun w body matched => ?_
  exact ⟨matched.1, matched.2.trans ((List.mem_tails _ _).mp member).isInfix⟩

theorem mem_language_one {w : List α} : w ∈ (one accepts).language ↔ ∃ a, accepts a ∧ w = [a] := by
  rw [one, mem_language_many]
  constructor
  · rintro ⟨all, enough, bound⟩
    obtain ⟨a, rfl⟩ := List.length_eq_one_iff.mp (le_antisymm (bound 1 rfl) enough)
    exact ⟨a, all a List.mem_cons_self, rfl⟩
  · rintro ⟨a, accepted, rfl⟩
    simpa using accepted

theorem mem_language_word {w : List α} (letters : List (α → Bool)) :
    w ∈ (word letters).language ↔ List.Forall₂ (fun accepts a => accepts a = true) letters w := by
  induction letters generalizing w with
  | nil =>
    rw [word, mem_language_many, List.forall₂_nil_left_iff]
    simp [List.eq_nil_iff_forall_not_mem]
  | cons accepts letters ih =>
    rw [word, mem_language_seq, List.forall₂_cons_left_iff]
    constructor
    · rintro ⟨u, single, v, rest, rfl⟩
      obtain ⟨a, accepted, rfl⟩ := mem_language_one.mp single
      exact ⟨a, v, accepted, ih.mp rest, rfl⟩
    · rintro ⟨a, v, accepted, rest, rfl⟩
      exact ⟨[a], mem_language_one.mpr ⟨a, accepted, rfl⟩, v, ih.mpr rest, rfl⟩

theorem mem_language_literal [DecidableEq α] {w : List α} (text : List α) :
    w ∈ (literal text).language ↔ w = text := by
  rw [literal, mem_language_word, List.forall₂_map_left_iff]
  simp [List.forall₂_eq_eq_eq, eq_comm]

theorem isSome_search_surrounded {p : Pattern α} :
    ((seq (many accepts 0 none) (seq p (many accepts 0 none))).search text).isSome =
      (p.search text).isSome := by
  rw [Bool.eq_iff_iff, search_isSome_iff, search_isSome_iff]
  constructor
  · rintro ⟨_, matched, within⟩
    obtain ⟨u, _, _, ⟨w, inside, v, _, rfl⟩, rfl⟩ := by simpa only [mem_language_seq] using matched
    have front : w <:+: u ++ (w ++ v) := ⟨u, v, by simp⟩
    exact ⟨w, inside, front.trans within⟩
  · rintro ⟨w, inside, within⟩
    have empty : [] ∈ (many accepts 0 none).language := mem_language_many.mpr (by simp)
    refine ⟨w, ?_, within⟩
    simp only [mem_language_seq]
    exact ⟨[], empty, w, ⟨w, inside, [], empty, List.append_nil w⟩, rfl⟩

theorem isSome_search_alt {first second : Pattern α} :
    ((alt first second).search text).isSome =
      ((first.search text).isSome || (second.search text).isSome) := by
  rw [Bool.eq_iff_iff, Bool.or_eq_true]
  simp only [search_isSome_iff, mem_language_alt, or_and_right, exists_or]

end language

section greedy
variable {accepts : α → Bool} {least : Nat} {most : Option Nat} {second : Pattern α}
  {text : List α}

/-- Nothing that starts with an accepted character is matched. -/
def Refuses (p : Pattern α) (accepts : α → Bool) : Prop :=
  ∀ a tail, accepts a → p.attempts (a :: tail) = []

theorem drop_length_takeWhile (accepts : α → Bool) (text : List α) :
    text.drop (text.takeWhile accepts).length = text.dropWhile accepts := by
  have whole := text.takeWhile_append_dropWhile (p := accepts)
  calc text.drop (text.takeWhile accepts).length
    _ = (text.takeWhile accepts ++ text.dropWhile accepts).drop (text.takeWhile accepts).length := by
      rw [whole]
    _ = text.dropWhile accepts := List.drop_left

theorem exists_cons_drop {n : Nat} (inside : n < (text.takeWhile accepts).length) :
    ∃ a tail, accepts a = true ∧ text.drop n = a :: tail := by
  obtain ⟨bound, all⟩ := le_length_takeWhile.mp (Nat.succ_le_of_lt inside)
  refine ⟨text[n], text.drop (n + 1), all _ ?_, List.drop_eq_getElem_cons bound⟩
  rw [List.take_succ_eq_append_getElem bound]
  exact List.mem_append_right _ List.mem_cons_self

theorem flatMap_lengths {β : Type*} {found : Nat → List β}
    (none : ∀ n < (text.takeWhile accepts).length, found n = []) :
    (lengths accepts least most text).flatMap found =
      if least ≤ (text.takeWhile accepts).length ∧
          ∀ m ∈ most, (text.takeWhile accepts).length ≤ m then
        found (text.takeWhile accepts).length
      else [] := by
  set longest := (text.takeWhile accepts).length with longest_eq
  have shorter : ∀ bound ≤ longest,
      ((List.range bound).reverse.filter (least ≤ ·)).flatMap found = [] := by
    intro bound below
    rw [List.flatMap_eq_nil_iff]
    intro n member
    have smaller := List.mem_range.mp (List.mem_reverse.mp (List.mem_filter.mp member).1)
    exact none n (smaller.trans_le below)
  by_cases allowed : ∀ m ∈ most, longest ≤ m
  · have full : min longest (most.getD longest) = longest := by
      cases most with
      | none => simp
      | some m => simpa using allowed m rfl
    rw [lengths, ← longest_eq, full, List.range_succ, List.reverse_append, List.filter_append,
      List.flatMap_append, shorter longest le_rfl, List.append_nil]
    by_cases enough : least ≤ longest
    · rw [if_pos ⟨enough, allowed⟩]
      simp [enough]
    · simp [enough]
  · have cut : min longest (most.getD longest) + 1 ≤ longest := by
      cases most with
      | none => simp at allowed
      | some m =>
        simp only [Option.mem_def, Option.some.injEq, forall_eq'] at allowed
        simp only [Option.getD_some]
        omega
    rw [lengths, ← longest_eq, shorter _ cut, if_neg fun both => allowed both.2]

theorem attempts_seq_many (refuses : second.Refuses accepts) :
    (seq (many accepts least most) second).attempts text =
      if least ≤ (text.takeWhile accepts).length ∧
          ∀ m ∈ most, (text.takeWhile accepts).length ≤ m then
        second.attempts (text.dropWhile accepts)
      else [] := by
  rw [attempts, attempts, List.flatMap_map, flatMap_lengths]
  · simp [drop_length_takeWhile]
  · intro n inside
    obtain ⟨a, tail, accepted, split⟩ := exists_cons_drop inside
    simp [split, refuses a tail accepted]

theorem take_length_sub_dropWhile (accepts : α → Bool) (text : List α) :
    text.take (text.length - (text.dropWhile accepts).length) = text.takeWhile accepts := by
  have whole := text.takeWhile_append_dropWhile (p := accepts)
  have lengths := congrArg List.length whole
  rw [List.length_append] at lengths
  have count : text.length - (text.dropWhile accepts).length = (text.takeWhile accepts).length := by
    omega
  calc text.take (text.length - (text.dropWhile accepts).length)
    _ = (text.takeWhile accepts ++ text.dropWhile accepts).take (text.takeWhile accepts).length := by
      rw [count, whole]
    _ = text.takeWhile accepts := List.take_left

theorem attempts_seq_many_zero (none : text.takeWhile accepts = []) :
    (seq (many accepts 0 most) second).attempts text = second.attempts text := by
  simp [attempts, lengths, none]

theorem head_attempts_many (accepts : α → Bool) (least : Nat) (most : Option Nat) (text : List α) :
    ((many accepts least most).attempts text).head? =
    let taken := min (text.takeWhile accepts).length (most.getD (text.takeWhile accepts).length)
    if least ≤ taken then some ([], text.drop taken) else none := by
  set taken := min (text.takeWhile accepts).length (most.getD (text.takeWhile accepts).length)
    with taken_eq
  rw [attempts, List.head?_map, lengths, ← taken_eq]
  dsimp only
  split_ifs with enough
  · rw [List.range_succ, List.reverse_append, List.filter_append]
    simp [enough]
  · have nothing : (List.range (taken + 1)).reverse.filter (least ≤ ·) = [] := by
      rw [List.filter_eq_nil_iff]
      intro n member
      have below := List.mem_range.mp (List.mem_reverse.mp member)
      simp only [decide_eq_true_eq]
      omega
    rw [nothing, List.head?_nil, Option.map_none]

theorem head_attempts_group_many : ((group (many accepts least none)).attempts text).head? =
    if least ≤ (text.takeWhile accepts).length then
      some ([text.takeWhile accepts], text.dropWhile accepts)
    else none := by
  rw [attempts, List.head?_map, head_attempts_many accepts least none text]
  simp only [Option.getD_none, min_self]
  split_ifs
  · simp [drop_length_takeWhile, take_length_sub_dropWhile]
  · rfl

end greedy

section words
variable {accepts : α → Bool} {second : Pattern α} {text : List α}

def spells : List (α → Bool) → List α → Bool
  | [], _ => true
  | _ :: _, [] => false
  | accepts :: rest, a :: text => accepts a && spells rest text

theorem attempts_seq_one (a : α) : (seq (one accepts) second).attempts (a :: text) =
    if accepts a then second.attempts text else [] := by
  by_cases first : accepts a <;> simp [one, attempts, lengths, first, List.range_succ]

theorem attempts_word (letters : List (α → Bool)) : (word letters).attempts text =
    if spells letters text then [([], text.drop letters.length)] else [] := by
  induction letters generalizing text with
  | nil =>
    have none : text.takeWhile (fun _ => false) = [] := by cases text <;> rfl
    simp [word, attempts, lengths, spells, none]
  | cons accepts letters ih =>
    cases text with
    | nil => simp [word, one, attempts, lengths, spells]
    | cons a text =>
      rw [word, attempts_seq_one, ih, spells]
      by_cases first : accepts a <;> simp [first]

theorem attempts_seq_word (letters : List (α → Bool)) :
    (seq (word letters) second).attempts text =
      if spells letters text then second.attempts (text.drop letters.length) else [] := by
  rw [attempts, attempts_word]
  split_ifs <;> simp

theorem attempts_seq_alt (first second third : Pattern α) :
    (seq (alt first second) third).attempts text =
      (seq first third).attempts text ++ (seq second third).attempts text := by
  simp [attempts]

theorem refuses_group_many {digit : α → Bool} {least : Nat} {most : Option Nat}
    (apart : ∀ a, accepts a → digit a = false) :
    (group (many digit (least + 1) most)).Refuses accepts := by
  intro a tail accepted
  simp [attempts, lengths, apart a accepted]

/-- A word, separators behind it, and a run of digits as its group. -/
def labelled (letters : List (α → Bool)) (separator : α → Bool) (least : Nat)
    (digit : α → Bool) : Pattern α :=
  .seq (word letters) (.seq (.many separator least none) (.group (.many digit 1 none)))

/-- The same read from left to right, without going back. -/
def labelledAt (letters : List (α → Bool)) (separator : α → Bool) (least : Nat)
    (digit : α → Bool) (text : List α) : Option (List (List α)) :=
  let rest := text.drop letters.length
  let digits := (rest.dropWhile separator).takeWhile digit
  if spells letters text ∧ least ≤ (rest.takeWhile separator).length ∧ digits ≠ [] then some [digits]
  else none

theorem search_labelled {separator digit : α → Bool} (apart : ∀ a, separator a → digit a = false)
    (letters : List (α → Bool)) (least : Nat) :
    (labelled letters separator least digit).search text =
      text.tails.findSome? (labelledAt letters separator least digit) := by
  refine search_congr fun tail => ?_
  rw [labelled, attempts_seq_word, labelledAt]
  by_cases spelt : spells letters tail
  · rw [if_pos spelt, attempts_seq_many (refuses_group_many apart)]
    by_cases enough : least ≤ ((tail.drop letters.length).takeWhile separator).length
    · simp only [enough, Option.not_mem_none, IsEmpty.forall_iff, implies_true, and_self, if_true,
        head_attempts_group_many, spelt, true_and, zero_add,
        Nat.one_le_iff_ne_zero, ne_eq, List.length_eq_zero_iff]
      split_ifs <;> rfl
    · simp [enough]
  · simp [spelt]

theorem language_labelled_mono {separator separator' digit : α → Bool} {w : List α}
    {letters : List (α → Bool)} {least : Nat} (weaker : ∀ a, separator a → separator' a)
    (matched : w ∈ (labelled letters separator least digit).language) :
    w ∈ (labelled letters separator' least digit).language := by
  simp only [labelled, mem_language_seq, mem_language_many] at matched ⊢
  obtain ⟨u, spelt, _, ⟨v, ⟨separated, count⟩, digits, inside, rfl⟩, rfl⟩ := matched
  exact ⟨u, spelt, _, ⟨v, ⟨fun a member => weaker a (separated a member), count⟩, digits, inside, rfl⟩,
    rfl⟩

end words

end Pattern

end DropPlatform.Patterns
