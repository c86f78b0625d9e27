import Mathlib.Algebra.Order.Floor.Div
import Mathlib.Tactic

/-! A list that is read page by page until a page is empty. If the pages are its sections
of one length, everything is read once and in order; if a page comes again before an empty
one, something is read twice. -/

namespace DropPlatform.ListPages

variable {α : Type*} {l read : List α} {page : Nat → List α} {size i j : Nat}

def pageOf (l : List α) (size i : Nat) : List α := (l.drop (i * size)).take size

theorem flatMap_pageOf (l : List α) (size m : Nat) :
    (List.range m).flatMap (pageOf l size) = l.take (m * size) := by
  induction m with
  | zero => rw [Nat.zero_mul, List.take_zero]; rfl
  | succ m ih =>
    have last : [m].flatMap (pageOf l size) = pageOf l size m := List.flatMap_singleton ..
    rw [List.range_succ, List.flatMap_append, ih, last, Nat.succ_mul, List.take_add, pageOf]

theorem pageOf_eq_nil_iff (pos : 0 < size) :
    pageOf l size i = [] ↔ l.length ⌈/⌉ size ≤ i := by
  rw [ceilDiv_le_iff_le_mul pos, Nat.mul_comm size, pageOf, List.take_eq_nil_iff,
    or_iff_right pos.ne', List.drop_eq_nil_iff]

/-- The pages are read from the first one up to an empty one. -/
def Reads (page : Nat → List α) (read : List α) : Prop :=
  ∃ m, page m = [] ∧ (∀ i < m, page i ≠ []) ∧ read = (List.range m).flatMap page

theorem reads_of_pageOf (pos : 0 < size)
    (regular : ∀ i ≤ l.length ⌈/⌉ size, page i = pageOf l size i) : Reads page l := by
  refine ⟨l.length ⌈/⌉ size, ?_, fun i before => ?_, ?_⟩
  · rw [regular _ le_rfl, pageOf_eq_nil_iff pos]
  · rw [regular i before.le, ne_eq, pageOf_eq_nil_iff pos]
    exact not_le.mpr before
  · have all : l.length ≤ l.length ⌈/⌉ size * size := by
      rw [Nat.mul_comm]
      exact le_smul_ceilDiv pos
    have same : (List.range (l.length ⌈/⌉ size)).flatMap page =
        (List.range (l.length ⌈/⌉ size)).flatMap (pageOf l size) :=
      List.flatMap_congr fun i member => regular i (List.mem_range.mp member).le
    rw [same, flatMap_pageOf, List.take_of_length_le all]

theorem Reads.eq_nil (reads : Reads page read) (first : page 0 = []) : read = [] := by
  obtain ⟨m, _, filled, rfl⟩ := reads
  cases m with
  | zero => rfl
  | succ m => exact absurd first (filled 0 m.succ_pos)

theorem Reads.not_nodup (reads : Reads page read) (filled : ∀ i ≤ j, page i ≠ []) (before : i < j)
    (again : page j = page i) : ¬ read.Nodup := by
  obtain ⟨m, ends, _, rfl⟩ := reads
  have further : j < m := not_le.mp fun short => filled m short ends
  obtain ⟨x, inside⟩ := List.exists_mem_of_ne_nil _ (filled i before.le)
  rw [List.nodup_flatMap]
  rintro ⟨_, apart⟩
  have disjoint := List.pairwise_iff_getElem.mp apart i j (by rw [List.length_range]; omega)
    (by rwa [List.length_range]) before
  rw [List.getElem_range, List.getElem_range] at disjoint
  exact disjoint inside (again ▸ inside)

end DropPlatform.ListPages
