import Mathlib.Data.List.Sort
import Mathlib.Algebra.Order.BigOperators.Group.List
import Mathlib.Tactic

/-! The highest ranked elements of a list, as many as there is room for. They are got by
sorting, with any order among equals, and cutting; their ranks do not depend on the sort. -/

namespace DropPlatform.RankedSelections

variable {α β : Type*} [LinearOrder β] {rank : α → β} {l l' all chosen chosen' : List α} {k : Nat}

def Ranked (rank : α → β) (l : List α) : Prop := l.Pairwise fun a b => rank b ≤ rank a

/-- As many as there is room for are chosen, and nothing that is omitted is ranked higher. -/
structure Selects (rank : α → β) (k : Nat) (all chosen : List α) : Prop where
  size : chosen.length = min k all.length
  ranked : Ranked rank chosen
  others : ∃ omitted, (chosen ++ omitted).Perm all ∧
    ∀ a ∈ chosen, ∀ b ∈ omitted, rank b ≤ rank a

section stable
variable {earlier : α → α → Prop}

def Before (rank : α → β) (earlier : α → α → Prop) (a b : α) : Prop :=
  rank b < rank a ∨ rank b = rank a ∧ earlier a b

theorem Before.le {a b : α} (before : Before rank earlier a b) : rank b ≤ rank a :=
  before.elim le_of_lt fun same => same.1.le

theorem pairwise_orderedInsert {a : α} (sorted : l.Pairwise (Before rank earlier))
    (first : ∀ b ∈ l, earlier a b) :
    (l.orderedInsert (fun a b => rank b ≤ rank a) a).Pairwise (Before rank earlier) := by
  induction l with
  | nil => exact List.pairwise_singleton _ _
  | cons b l ih =>
    obtain ⟨lower, others⟩ := List.pairwise_cons.mp sorted
    rw [List.orderedInsert_cons]
    split_ifs with le
    · refine List.pairwise_cons.mpr ⟨fun c member => ?_, sorted⟩
      have below : rank c ≤ rank a := by
        rcases List.mem_cons.mp member with rfl | later
        · exact le
        · exact (lower c later).le.trans le
      exact below.lt_or_eq.imp_right fun same => ⟨same, first c member⟩
    · have rest := ih others fun c member => first c (List.mem_cons_of_mem b member)
      refine List.pairwise_cons.mpr ⟨fun c member => ?_, rest⟩
      rcases (List.mem_orderedInsert _).mp member with rfl | old
      · exact .inl (not_le.mp le)
      · exact lower c old

theorem pairwise_insertionSort_stable (ordered : l.Pairwise earlier) :
    (l.insertionSort fun a b => rank b ≤ rank a).Pairwise (Before rank earlier) := by
  induction l with
  | nil => exact .nil
  | cons a l ih =>
    obtain ⟨first, others⟩ := List.pairwise_cons.mp ordered
    rw [List.insertionSort_cons]
    refine pairwise_orderedInsert (ih others) fun b member => ?_
    exact first b ((List.mem_insertionSort _).mp member)

end stable

theorem Ranked.selects_take (ranked : Ranked rank l) (same : l.Perm all) (k : Nat) :
    Selects rank k all (l.take k) := by
  have halves : Ranked rank (l.take k ++ l.drop k) := by rwa [List.take_append_drop]
  obtain ⟨front, _, between⟩ := List.pairwise_append.mp halves
  refine ⟨?_, front, l.drop k, ?_, between⟩
  · rw [List.length_take, same.length_eq]
  · rwa [List.take_append_drop]

theorem Ranked.ranks_eq (ranked : Ranked rank l) (ranked' : Ranked rank l') (same : l.Perm l') :
    l.map rank = l'.map rank := by
  refine List.Perm.eq_of_pairwise (fun a b _ _ le ge => le_antisymm ge le)
    (List.pairwise_map.mpr ranked) (List.pairwise_map.mpr ranked') (same.map rank)

theorem exists_ranked (rank : α → β) (l : List α) : ∃ l', l'.Perm l ∧ Ranked rank l' := by
  refine ⟨l.mergeSort fun a b => decide (rank b ≤ rank a), List.mergeSort_perm _ _, ?_⟩
  have sorted := @List.pairwise_mergeSort α (fun a b => decide (rank b ≤ rank a))
    (fun a b c ab bc => by simp only [decide_eq_true_eq] at *; exact bc.trans ab)
    (fun a b => by simpa using le_total (rank b) (rank a)) l
  simpa [Ranked] using sorted

theorem Selects.ranks_eq (selects : Selects rank k all chosen)
    (selects' : Selects rank k all chosen') : chosen.map rank = chosen'.map rank := by
  -- each selection begins a ranking of all elements
  have begins : ∀ {chosen}, Selects rank k all chosen →
      ∃ l, l.Perm all ∧ Ranked rank l ∧ chosen = l.take chosen.length := by
    rintro chosen ⟨_, ranked, omitted, same, lower⟩
    obtain ⟨rest, again, ranked'⟩ := exists_ranked rank omitted
    refine ⟨chosen ++ rest, (again.append_left chosen).trans same, ?_, by simp⟩
    exact List.pairwise_append.mpr ⟨ranked, ranked', fun a chosen b member =>
      lower a chosen b (again.subset member)⟩
  obtain ⟨l, same, ranked, front⟩ := begins selects
  obtain ⟨l', same', ranked', front'⟩ := begins selects'
  have equal := ranked.ranks_eq ranked' (same.trans same'.symm)
  rw [front, front', List.map_take, List.map_take, equal, selects.size, selects'.size]

theorem Ranked.takeWhile_eq_filter (ranked : Ranked rank l) (threshold : β) :
    l.takeWhile (fun a => threshold ≤ rank a) = l.filter fun a => threshold ≤ rank a := by
  induction l with
  | nil => rfl
  | cons a l ih =>
    obtain ⟨lower, others⟩ := List.pairwise_cons.mp ranked
    by_cases reaches : threshold ≤ rank a
    · rw [List.takeWhile_cons_of_pos (by simpa using reaches),
        List.filter_cons_of_pos (by simpa using reaches), ih others]
    · have none : l.filter (fun a => decide (threshold ≤ rank a)) = [] := by
        refine List.filter_eq_nil_iff.mpr fun b member => ?_
        have below := (lower b member).trans_lt (not_le.mp reaches)
        simpa using below
      rw [List.takeWhile_cons_of_neg (by simpa using reaches),
        List.filter_cons_of_neg (by simpa using reaches), none]

theorem Selects.perm (selects : Selects rank k all chosen) (room : all.length ≤ k) :
    chosen.Perm all := by
  obtain ⟨size, _, omitted, same, _⟩ := selects
  have none : omitted = [] := by
    have lengths := same.length_eq
    rw [List.length_append] at lengths
    exact List.eq_nil_of_length_eq_zero (by omega)
  rwa [none, List.append_nil] at same

section sums
variable {M : Type*} [AddCommMonoid M] [PartialOrder M] [IsOrderedAddMonoid M] {value : α → M}

theorem Selects.sum_le (selects : Selects rank k all chosen) (nonneg : ∀ a ∈ all, 0 ≤ value a) :
    (chosen.map value).sum ≤ (all.map value).sum := by
  obtain ⟨_, _, omitted, same, _⟩ := selects
  have rest : 0 ≤ (omitted.map value).sum := by
    apply List.sum_nonneg
    intro x member
    obtain ⟨a, inside, rfl⟩ := List.mem_map.mp member
    exact nonneg a (same.subset (List.mem_append_right chosen inside))
  rw [← (same.map value).sum_eq, List.map_append, List.sum_append]
  exact le_add_of_nonneg_right rest

end sums

end DropPlatform.RankedSelections
