import Mathlib.Algebra.BigOperators.Group.Finset.Basic

/-! Finite maps from keys to counts in which a key without an entry counts zero, and the
sum of all their entries. A write at one key changes the sum by what that key held before
and holds afterwards. -/

namespace DropPlatform.CountMaps

variable {κ M : Type*} [DecidableEq κ] [AddCommMonoid M]

structure CountMap (κ M : Type*) [Zero M] where
  keys : Finset κ
  value : κ → M
  absent : ∀ k ∉ keys, value k = 0

namespace CountMap

def empty : CountMap κ M where
  keys := ∅
  value _ := 0
  absent _ _ := rfl

def lookup (m : CountMap κ M) (k : κ) : Option M := if k ∈ m.keys then some (m.value k) else none

/-- The entry of a key is set, or made. -/
def put (m : CountMap κ M) (k : κ) (v : M) : CountMap κ M where
  keys := insert k m.keys
  value := Function.update m.value k v
  absent j outside := by
    have other : j ≠ k := fun same => outside (same ▸ Finset.mem_insert_self j m.keys)
    rw [Function.update_of_ne other]
    exact m.absent j fun inside => outside (Finset.mem_insert_of_mem inside)

def erase (m : CountMap κ M) (k : κ) : CountMap κ M where
  keys := m.keys.erase k
  value := Function.update m.value k 0
  absent j outside := by
    by_cases same : j = k
    · rw [same, Function.update_self]
    · rw [Function.update_of_ne same]
      exact m.absent j fun inside => outside (Finset.mem_erase.mpr ⟨same, inside⟩)

def total (m : CountMap κ M) : M := ∑ k ∈ m.keys, m.value k

variable (m : CountMap κ M) (k : κ) (v : M)

@[simp] theorem value_put_self : (m.put k v).value k = v := by
  simp only [put, Function.update_self]

@[simp] theorem value_erase_self : (m.erase k).value k = 0 := by
  simp only [erase, Function.update_self]

variable {k} in
theorem value_put_of_ne {j : κ} (other : j ≠ k) : (m.put k v).value j = m.value j := by
  simp only [put, Function.update_of_ne other]

variable {k} in
theorem value_erase_of_ne {j : κ} (other : j ≠ k) : (m.erase k).value j = m.value j := by
  simp only [erase, Function.update_of_ne other]

theorem total_eq : m.total = m.value k + ∑ j ∈ m.keys.erase k, m.value j := by
  by_cases inside : k ∈ m.keys
  · exact (Finset.add_sum_erase m.keys m.value inside).symm
  · rw [m.absent k inside, zero_add, Finset.erase_eq_of_notMem inside]
    rfl

theorem sum_others (m' : CountMap κ M) (keys : m'.keys.erase k = m.keys.erase k)
    (same : ∀ j, j ≠ k → m'.value j = m.value j) :
    ∑ j ∈ m'.keys.erase k, m'.value j = ∑ j ∈ m.keys.erase k, m.value j := by
  rw [keys]
  apply Finset.sum_congr rfl
  intro j member
  exact same j (Finset.ne_of_mem_erase member)

theorem total_put : (m.put k v).total + m.value k = m.total + v := by
  have others := sum_others m k (m.put k v) (Finset.erase_insert_eq_erase m.keys k)
    fun j other => value_put_of_ne m v other
  rw [total_eq (m.put k v) k, total_eq m k, others, value_put_self]
  ac_rfl

theorem total_erase : (m.erase k).total + m.value k = m.total := by
  have others := sum_others m k (m.erase k) Finset.erase_idem
    fun j other => value_erase_of_ne m other
  rw [total_eq (m.erase k) k, total_eq m k, others, value_erase_self, zero_add]
  ac_rfl

end CountMap

end DropPlatform.CountMaps
