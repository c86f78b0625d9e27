import Mathlib.Data.Multiset.AddSub
import Mathlib.Tactic

/-! Finite maps in which absent keys hold the default value, the queues kept in them,
and the multiset of everything they contain. A write at one key changes the contents
by exactly what that key held before and holds afterwards. -/

namespace DropPlatform.KeyedStores

variable {κ α β : Type*} [DecidableEq κ]

abbrev Keyed (κ α : Type*) := List (κ × α)

def get [Inhabited α] : Keyed κ α → κ → α
  | [], _ => default
  | (j, a) :: rest, k => if j = k then a else get rest k

def set : Keyed κ α → κ → α → Keyed κ α
  | [], k, v => [(k, v)]
  | (j, a) :: rest, k, v => if j = k then (j, v) :: rest else (j, a) :: set rest k v

theorem get_set [Inhabited α] (m : Keyed κ α) (k j : κ) (v : α) :
    get (set m k v) j = if k = j then v else get m j := by
  induction m with
  | nil => rfl
  | cons entry rest ih =>
    obtain ⟨i, a⟩ := entry
    by_cases here : i = k
    · rw [set, if_pos here, get, get, here]
      split_ifs <;> rfl
    · by_cases there : i = j
      · have other : k ≠ j := fun same => here (there.trans same.symm)
        simp only [set, get, if_neg here, if_pos there, if_neg other]
      · simp only [set, get, if_neg here, if_neg there, ih]

theorem get_eq_lookup [Inhabited α] (m : Keyed κ α) (k : κ) :
    get m k = (m.lookup k).getD default := by
  induction m with
  | nil => rfl
  | cons entry rest ih =>
    obtain ⟨j, a⟩ := entry
    by_cases here : j = k
    · rw [get, if_pos here, here, List.lookup_cons_self]
      rfl
    · have other : (k == j) = false := beq_eq_false_iff_ne.mpr fun same => here same.symm
      rw [get, if_neg here, ih, List.lookup_cons, other]

theorem lookup_eq [BEq κ] [LawfulBEq κ] [Inhabited α] (m : Keyed κ α) (k : κ) :
    m.lookup k = if k ∈ m.map Prod.fst then some (get m k) else none := by
  induction m with
  | nil => rfl
  | cons entry rest ih =>
    obtain ⟨j, a⟩ := entry
    by_cases here : j = k
    · rw [here, List.lookup_cons_self, List.map_cons, if_pos List.mem_cons_self, get, if_pos rfl]
    · have other : (k == j) = false := beq_eq_false_iff_ne.mpr fun same => here same.symm
      have later : k ∈ ((j, a) :: rest).map Prod.fst ↔ k ∈ rest.map Prod.fst := by
        rw [List.map_cons, List.mem_cons, or_iff_right (Ne.symm here)]
      simp only [List.lookup_cons, other, ih, get, if_neg here, later]

theorem mem_set {m : Keyed κ α} {k : κ} {v : α} {entry : κ × α}
    (member : entry ∈ set m k v) : entry ∈ m ∨ entry.1 = k := by
  induction m with
  | nil => exact .inr (by rw [List.mem_singleton.mp member])
  | cons first rest ih =>
    rw [set] at member
    split_ifs at member with here
    · rcases List.mem_cons.mp member with rfl | later
      · exact .inr here
      · exact .inl (List.mem_cons_of_mem first later)
    · rcases List.mem_cons.mp member with rfl | later
      · exact .inl List.mem_cons_self
      · exact (ih later).imp (List.mem_cons_of_mem first) id

theorem keys_set (m : Keyed κ α) (k : κ) (v : α) :
    (set m k v).map Prod.fst =
      if k ∈ m.map Prod.fst then m.map Prod.fst else m.map Prod.fst ++ [k] := by
  induction m with
  | nil => rfl
  | cons entry rest ih =>
    obtain ⟨j, a⟩ := entry
    by_cases here : j = k
    · simp [set, here]
    · have other : k ≠ j := fun same => here same.symm
      rw [set, if_neg here, List.map_cons, ih, List.map_cons]
      by_cases later : k ∈ rest.map Prod.fst
      · rw [if_pos later, if_pos (List.mem_cons_of_mem j later)]
      · rw [if_neg later, if_neg (List.not_mem_cons_of_ne_of_not_mem other later), List.cons_append]

section distinct
variable {m : Keyed κ α} {k j : κ} {v a : α}

theorem nodup_keys_set (distinct : (m.map Prod.fst).Nodup) (k : κ) (v : α) :
    ((set m k v).map Prod.fst).Nodup := by
  rw [keys_set]
  split_ifs with present
  · exact distinct
  · exact List.nodup_append.mpr ⟨distinct, List.nodup_singleton k, fun i member j single => by
      rw [List.mem_singleton.mp single]
      exact fun same => present (same ▸ member)⟩

theorem get_eq_of_mem [Inhabited α] (distinct : (m.map Prod.fst).Nodup) (member : (k, a) ∈ m) :
    get m k = a := by
  induction m with
  | nil => exact absurd member List.not_mem_nil
  | cons entry rest ih =>
    obtain ⟨first, others⟩ := List.nodup_cons.mp distinct
    rcases List.mem_cons.mp member with rfl | later
    · exact if_pos rfl
    · have other : entry.1 ≠ k := fun same => first (same ▸ List.mem_map_of_mem later)
      rw [get, if_neg other, ih others later]

theorem get_of_not_mem [Inhabited α] (absent : k ∉ m.map Prod.fst) : get m k = default := by
  induction m with
  | nil => rfl
  | cons entry rest ih =>
    rw [List.map_cons, List.mem_cons, not_or] at absent
    rw [get, if_neg (Ne.symm absent.1), ih absent.2]

theorem eq_map_keys [Inhabited α] (distinct : (m.map Prod.fst).Nodup) :
    m = (m.map Prod.fst).map fun k => (k, get m k) := by
  rw [List.map_map]
  refine (List.map_id m).symm.trans (List.map_congr_left fun entry member => ?_)
  rw [Function.comp_apply, get_eq_of_mem distinct member, id]

theorem mem_set_iff (distinct : (m.map Prod.fst).Nodup) :
    (j, a) ∈ set m k v ↔ j = k ∧ a = v ∨ j ≠ k ∧ (j, a) ∈ m := by
  induction m with
  | nil => simp [set]
  | cons entry rest ih =>
    obtain ⟨i, b⟩ := entry
    obtain ⟨first, others⟩ := List.nodup_cons.mp distinct
    have later : (j, a) ∈ rest → j ≠ i := fun member same =>
      first (List.mem_map.mpr ⟨(j, a), member, same⟩)
    by_cases here : i = k
    · subst here
      rw [set, if_pos rfl, List.mem_cons, List.mem_cons, Prod.mk.injEq, Prod.mk.injEq]
      constructor
      · rintro (new | old)
        · exact .inl new
        · exact .inr ⟨later old, .inr old⟩
      · rintro (new | ⟨other, first | old⟩)
        · exact .inl new
        · exact absurd first.1 other
        · exact .inr old
    · rw [set, if_neg here, List.mem_cons, List.mem_cons, ih others, Prod.mk.injEq]
      constructor
      · rintro (kept | new | ⟨other, old⟩)
        · exact .inr ⟨fun same => here (kept.1.symm.trans same), .inl kept⟩
        · exact .inl new
        · exact .inr ⟨other, .inr old⟩
      · rintro (new | ⟨other, kept | old⟩)
        · exact .inr (.inl new)
        · exact .inl kept
        · exact .inr (.inr ⟨other, old⟩)

end distinct

def All (P : α → Prop) (m : Keyed κ α) : Prop := ∀ entry ∈ m, P entry.2

section All
variable {P : α → Prop} {m : Keyed κ α}

theorem All.get [Inhabited α] (all : All P m) (absent : P default) (k : κ) : P (get m k) := by
  induction m with
  | nil => exact absent
  | cons entry rest ih =>
    simp only [KeyedStores.get]
    split_ifs
    · exact all entry List.mem_cons_self
    · exact ih fun other member => all other (List.mem_cons_of_mem _ member)

theorem All.set (all : All P m) {v : α} (new : P v) (k : κ) : All P (set m k v) := by
  induction m with
  | nil => simpa [All, KeyedStores.set] using new
  | cons entry rest ih =>
    have first := all entry List.mem_cons_self
    have others : All P rest := fun other member => all other (List.mem_cons_of_mem _ member)
    simp only [KeyedStores.set]
    split_ifs
    · exact List.forall_mem_cons.mpr ⟨new, others⟩
    · exact List.forall_mem_cons.mpr ⟨first, ih others⟩

end All

/-- What all keys together hold, each value seen as the list of its parts. -/
def contents (parts : α → List β) (m : Keyed κ α) : List β := m.flatMap fun entry => parts entry.2

section contents
variable [Inhabited α] {parts : α → List β}

theorem contents_set (empty : parts default = []) (m : Keyed κ α) (k : κ) (v : α) :
    (contents parts (set m k v) : Multiset β) + parts (get m k) = contents parts m + parts v := by
  induction m with
  | nil => simp [contents, set, get, empty]
  | cons entry rest ih =>
    by_cases same : entry.1 = k
    · simp only [contents, set, get, same, if_true, List.flatMap_cons, ← Multiset.coe_add]
      abel
    · simp only [contents, set, get, same, if_false, List.flatMap_cons, ← Multiset.coe_add] at ih ⊢
      rw [add_assoc, ih]
      abel

variable {m : Keyed κ α} {k : κ} {v : α} {x : β}

theorem contents_same (empty : parts default = [])
    (same : (parts v : Multiset β) = parts (get m k)) :
    (contents parts (set m k v) : Multiset β) = contents parts m := by
  have total := contents_set empty m k v
  rw [same] at total
  exact add_right_cancel total

theorem contents_put (empty : parts default = [])
    (more : (parts v : Multiset β) = x ::ₘ parts (get m k)) :
    (contents parts (set m k v) : Multiset β) = x ::ₘ contents parts m := by
  have total := contents_set empty m k v
  rw [more, Multiset.add_cons, ← Multiset.cons_add] at total
  exact add_right_cancel total

theorem contents_take (empty : parts default = [])
    (less : (parts (get m k) : Multiset β) = x ::ₘ parts v) :
    (contents parts m : Multiset β) = x ::ₘ contents parts (set m k v) := by
  have total := contents_set empty m k v
  rw [less, Multiset.add_cons, ← Multiset.cons_add] at total
  exact (add_right_cancel total).symm

omit [Inhabited α] in
theorem mem_contents_set (here : x ∈ parts v) : x ∈ contents parts (set m k v) := by
  induction m with
  | nil => simpa [contents, set] using here
  | cons entry rest ih =>
    simp only [contents, set] at ih ⊢
    split_ifs
    · exact List.mem_flatMap.mpr ⟨_, List.mem_cons_self, here⟩
    · rw [List.flatMap_cons]
      exact List.mem_append_right _ ih

theorem mem_contents_get (empty : parts default = []) (here : x ∈ parts (get m k)) :
    x ∈ contents parts m := by
  have all : All (fun v => ∀ y ∈ parts v, y ∈ contents parts m) m :=
    fun entry member y held => List.mem_flatMap.mpr ⟨entry, member, held⟩
  exact all.get (by simp [empty]) k x here

omit [DecidableEq κ] [Inhabited α] in
theorem contents_append (m more : Keyed κ α) :
    (contents parts (m ++ more) : Multiset β) = contents parts m + contents parts more := by
  simp [contents]

end contents

def total (weight : α → Nat) (m : Keyed κ α) : Nat := (m.map fun entry => weight entry.2).sum

section total
variable [Inhabited α] {m : Keyed κ α}

variable {weight : α → Nat}

end total

section queues
variable (m : Keyed κ (List α)) (k : κ)

def push (x : α) : Keyed κ (List α) := set m k (get m k ++ [x])

def pop : Option (α × Keyed κ (List α)) :=
  match get m k with
  | [] => none
  | x :: rest => some (x, set m k rest)

variable {m k}

theorem contents_push (x : α) :
    (contents id (push m k x) : Multiset α) = x ::ₘ contents id m := by
  apply contents_put rfl
  simp [← Multiset.coe_add, Multiset.add_comm]

theorem pop_some {x : α} {rest : Keyed κ (List α)} (popped : pop m k = some (x, rest)) :
    ∃ tail, get m k = x :: tail ∧ rest = set m k tail := by
  unfold pop at popped
  cases held : get m k with
  | nil => simp [held] at popped
  | cons y ys =>
    simp only [held, Option.some.injEq, Prod.mk.injEq] at popped
    exact ⟨ys, by rw [popped.1], popped.2.symm⟩

theorem contents_pop {x : α} {rest : Keyed κ (List α)} (popped : pop m k = some (x, rest)) :
    (contents id m : Multiset α) = x ::ₘ contents id rest := by
  obtain ⟨tail, held, rfl⟩ := pop_some popped
  apply contents_take rfl
  rw [held]
  rfl

end queues

end DropPlatform.KeyedStores
