import Mathlib.Data.List.Infix
import Mathlib.Tactic

/-! Texts classified by keywords: the first entry of a table decides that has a keyword which
occurs in the text. A keyword that contains one of an earlier entry never decides anything, and
one that contains another of its own entry makes no difference; a table without them classifies
every text as before. -/

namespace DropPlatform.KeywordTables

variable {α β : Type*} [DecidableEq α]

abbrev Table (α β : Type*) := List (List (List α) × β)

def occurs (text word : List α) : Bool := word <:+: text

def hit (words : List (List α)) (text : List α) : Bool := words.any (occurs text)

def classify (table : Table α β) (text : List α) : Option β :=
  (table.find? fun entry => hit entry.1 text).map Prod.snd

/-- The keywords of an entry that contain no other one of it. -/
def minimal (words : List (List α)) : List (List α) :=
  words.filter fun word => !words.any fun other => other ≠ word ∧ occurs word other

/-- Drops the keywords that contain one of `seen`, then those that contain another of their
entry. -/
def prune : (seen : List (List α)) → Table α β → Table α β
  | _, [] => []
  | seen, (words, value) :: rest =>
    (minimal (words.filter (!hit seen ·)), value) :: prune (seen ++ words) rest

section pruning
variable {words seen : List (List α)} {text : List α}

theorem hit_iff : hit words text ↔ ∃ word ∈ words, word <:+: text := by
  simp [hit, occurs]

theorem hit_cons (word : List α) (words : List (List α)) (text : List α) :
    hit (word :: words) text = (occurs text word || hit words text) := List.any_cons

theorem classify_of_hit {value : β} {rest : Table α β} (decides : hit words text) :
    classify ((words, value) :: rest) text = some value := by
  simp [classify, decides]

theorem classify_of_not_hit {value : β} {rest : Table α β} (misses : hit words text = false) :
    classify ((words, value) :: rest) text = classify rest text := by
  simp [classify, misses]

theorem classify_eq_none_iff {table : Table α β} :
    classify table text = none ↔ ∀ words ∈ table.map Prod.fst, hit words text = false := by
  simp [classify]

theorem classify_append {before table : Table α β}
    (misses : hit (before.flatMap Prod.fst) text = false) :
    classify (before ++ table) text = classify table text := by
  induction before with
  | nil => rfl
  | cons entry before ih =>
    simp only [hit, List.flatMap_cons, List.any_append, Bool.or_eq_false_iff] at misses ih
    rw [List.cons_append, classify_of_not_hit misses.1, ih misses.2]

theorem hit_minimal : hit (minimal words) text = hit words text := by
  rw [Bool.eq_iff_iff, hit_iff, hit_iff]
  constructor
  · rintro ⟨word, member, within⟩
    exact ⟨word, (List.mem_filter.mp member).1, within⟩
  · -- A shortest keyword that occurs contains no other one.
    rintro ⟨word, member, within⟩
    induction size : word.length using Nat.strong_induction_on generalizing word with
    | _ n ih =>
      by_cases least : word ∈ minimal words
      · exact ⟨word, least, within⟩
      · have other : ∃ v ∈ words, v ≠ word ∧ v <:+: word := by
          simpa [minimal, member, occurs] using least
        obtain ⟨v, listed, differs, inside⟩ := other
        have shorter : v.length < word.length :=
          lt_of_le_of_ne inside.length_le fun same => differs (inside.eq_of_length same)
        exact ih v.length (size ▸ shorter) v listed (inside.trans within) rfl

theorem hit_filter (unseen : hit seen text = false) :
    hit (words.filter (!hit seen ·)) text = hit words text := by
  rw [Bool.eq_iff_iff, hit_iff, hit_iff]
  constructor
  · rintro ⟨word, member, within⟩
    exact ⟨word, (List.mem_filter.mp member).1, within⟩
  · rintro ⟨word, member, within⟩
    refine ⟨word, List.mem_filter.mpr ⟨member, ?_⟩, within⟩
    by_contra shadowed
    obtain ⟨v, earlier, inside⟩ := hit_iff.mp (by simpa using shadowed)
    exact Bool.false_ne_true (unseen.symm.trans (hit_iff.mpr ⟨v, earlier, inside.trans within⟩))

theorem classify_prune_of_unseen (table : Table α β) (unseen : hit seen text = false) :
    classify (prune seen table) text = classify table text := by
  induction table generalizing seen with
  | nil => rfl
  | cons entry rest ih =>
    obtain ⟨words, value⟩ := entry
    have same : hit (minimal (words.filter (!hit seen ·))) text = hit words text :=
      hit_minimal.trans (hit_filter unseen)
    cases decided : hit words text with
    | true => rw [prune, classify_of_hit (same.trans decided), classify_of_hit decided]
    | false =>
      have later : hit (seen ++ words) text = false := by
        simp only [hit, List.any_append] at unseen decided ⊢
        rw [unseen, decided, Bool.or_self]
      rw [prune, classify_of_not_hit (same.trans decided), classify_of_not_hit decided, ih later]

theorem classify_prune (table : Table α β) : classify (prune [] table) text = classify table text :=
  classify_prune_of_unseen table rfl

theorem prune_eq_zip (seen : List (List α)) (table : Table α β) :
    prune seen table = ((prune seen table).map Prod.fst).zip (table.map Prod.snd) := by
  induction table generalizing seen with
  | nil => rfl
  | cons entry rest ih =>
    rw [prune, List.map_cons, List.map_cons, List.zip_cons_cons, ← ih]

theorem exists_entry_of_classify {table : Table α β} {value : β}
    (decided : classify table text = some value) :
    ∃ words, (words, value) ∈ table ∧ hit words text := by
  obtain ⟨⟨words, _⟩, found, rfl⟩ := Option.map_eq_some_iff.mp decided
  have hits := List.find?_some found
  exact ⟨words, List.mem_of_find?_eq_some found, hits⟩

end pruning

end DropPlatform.KeywordTables
