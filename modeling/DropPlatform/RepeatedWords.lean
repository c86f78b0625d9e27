import Mathlib.Data.List.Basic
import Mathlib.Tactic

/-! Two words that can be exchanged are repetitions of one word. -/

namespace DropPlatform.RepeatedWords

variable {α : Type*}

def repeated (n : Nat) (word : List α) : List α := (List.replicate n word).flatten

theorem repeated_add (m n : Nat) (word : List α) :
    repeated (m + n) word = repeated m word ++ repeated n word := by
  rw [repeated, List.replicate_add, List.flatten_append]
  rfl

theorem repeated_one (word : List α) : repeated 1 word = word := by simp [repeated]

theorem exists_repeated {u v : List α} (comm : u ++ v = v ++ u) :
    ∃ word m n, u = repeated m word ∧ v = repeated n word := by
  induction size : u.length + v.length using Nat.strong_induction_on generalizing u v with
  | _ n ih =>
    by_cases noU : u = []
    · exact ⟨v, 0, 1, noU, (repeated_one v).symm⟩
    by_cases noV : v = []
    · exact ⟨u, 1, 0, (repeated_one u).symm, noV⟩
    have filledU := List.length_pos_iff.mpr noU
    have filledV := List.length_pos_iff.mpr noV
    rcases List.append_eq_append_iff.mp comm with ⟨rest, rfl, same⟩ | ⟨rest, rfl, same⟩
    · -- `v` is `u` with something behind it
      have shorter : u ++ rest = rest ++ u := same
      have smaller : u.length + rest.length < n := by
        rw [List.length_append] at size
        omega
      obtain ⟨word, i, j, left, right⟩ := ih _ smaller shorter rfl
      refine ⟨word, i, i + j, left, ?_⟩
      rw [repeated_add, ← left, ← right]
    · have shorter : rest ++ v = v ++ rest := same.symm
      have smaller : rest.length + v.length < n := by
        rw [List.length_append] at size
        omega
      obtain ⟨word, i, j, left, right⟩ := ih _ smaller shorter rfl
      refine ⟨word, j + i, j, ?_, right⟩
      rw [repeated_add, ← left, ← right]

theorem append_comm_iff {u v : List α} :
    u ++ v = v ++ u ↔ ∃ word m n, u = repeated m word ∧ v = repeated n word := by
  constructor
  · exact exists_repeated
  · rintro ⟨word, m, n, rfl, rfl⟩
    rw [← repeated_add, ← repeated_add, Nat.add_comm]

end DropPlatform.RepeatedWords
