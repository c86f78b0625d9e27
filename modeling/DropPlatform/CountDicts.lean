import DropPlatform.KeyedStores
import DropPlatform.Tallies

/-! Dictionaries that count. A new key gets its place behind the others, so the keys stand in
the order in which they appear first, and each holds the sum of its amounts. -/

namespace DropPlatform.CountDicts
open KeyedStores Tallies

variable {κ M : Type*} [DecidableEq κ] [AddCommMonoid M] [Inhabited M]

/-- `d[k] = d.get(k, 0) + v` -/
def add (d : Keyed κ M) (k : κ) (v : M) : Keyed κ M := set d k (get d k + v)

def addAll (events : List (κ × M)) : Keyed κ M := events.foldl (fun d e => add d e.1 e.2) []

theorem addAll_concat (events : List (κ × M)) (e : κ × M) :
    addAll (events ++ [e]) = add (addAll events) e.1 e.2 := List.foldl_concat _ _ _ _

theorem get_addAll (zero : (default : M) = 0) (events : List (κ × M)) (k : κ) :
    get (addAll events) k = weight (· = k) events := by
  induction events using List.reverseRecOn with
  | nil => exact zero
  | append_singleton events e ih =>
    rw [addAll_concat, add, get_set, weight_append, weight_cons, weight_nil, add_zero, ih]
    by_cases same : e.1 = k
    · subst same
      rw [if_pos rfl, if_pos rfl, ← ih]
    · rw [if_neg same, if_neg same, add_zero]

theorem keys_addAll_concat (events : List (κ × M)) (e : κ × M) :
    (addAll (events ++ [e])).map Prod.fst =
      if e.1 ∈ (addAll events).map Prod.fst then (addAll events).map Prod.fst
      else (addAll events).map Prod.fst ++ [e.1] := by
  rw [addAll_concat, add, keys_set]

theorem nodup_addAll (events : List (κ × M)) : ((addAll events).map Prod.fst).Nodup := by
  induction events using List.reverseRecOn with
  | nil => exact List.nodup_nil
  | append_singleton events e ih =>
    rw [addAll_concat]
    exact nodup_keys_set ih _ _

theorem mem_keys_addAll (events : List (κ × M)) (k : κ) :
    k ∈ (addAll events).map Prod.fst ↔ k ∈ keys events := by
  induction events using List.reverseRecOn with
  | nil => exact Iff.rfl
  | append_singleton events e ih =>
    rw [keys_addAll_concat, keys_append, List.mem_append, ← ih]
    have last : k ∈ keys [e] ↔ k = e.1 := List.mem_singleton
    rw [last]
    split_ifs with present
    · exact ⟨.inl, fun either => either.elim id fun same => same ▸ present⟩
    · rw [List.mem_append, List.mem_singleton]

theorem keys_addAll_ordered [BEq κ] [LawfulBEq κ] (events : List (κ × M)) :
    ((addAll events).map Prod.fst).Pairwise fun a b =>
      (keys events).idxOf a < (keys events).idxOf b := by
  induction events using List.reverseRecOn with
  | nil => exact .nil
  | append_singleton events e ih =>
    have before : ∀ k ∈ (addAll events).map Prod.fst,
        (keys (events ++ [e])).idxOf k = (keys events).idxOf k ∧
          (keys events).idxOf k < (keys events).length := by
      intro k member
      have known := (mem_keys_addAll events k).mp member
      rw [keys_append, List.idxOf_append_of_mem known]
      exact ⟨rfl, List.idxOf_lt_length_of_mem known⟩
    have kept : ((addAll events).map Prod.fst).Pairwise fun a b =>
        (keys (events ++ [e])).idxOf a < (keys (events ++ [e])).idxOf b := by
      refine ih.imp_of_mem fun {a b} first second less => ?_
      rw [(before a first).1, (before b second).1]
      exact less
    rw [keys_addAll_concat]
    split_ifs with present
    · exact kept
    · refine List.pairwise_append.mpr ⟨kept, List.pairwise_singleton _ _, fun a member b last => ?_⟩
      obtain ⟨same, inside⟩ := before a member
      have fresh : e.1 ∉ keys events := mt (mem_keys_addAll events e.1).mpr present
      rw [List.mem_singleton.mp last, same, keys_append, List.idxOf_append_of_notMem fresh]
      omega

theorem lookup_addAll [BEq κ] [LawfulBEq κ] (zero : (default : M) = 0)
    (events : List (κ × M)) (k : κ) :
    (addAll events).lookup k =
      if k ∈ keys events then some (weight (· = k) events) else none := by
  rw [lookup_eq, get_addAll zero]
  simp only [mem_keys_addAll]

theorem mem_addAll (zero : (default : M) = 0) (events : List (κ × M)) {k : κ} {v : M}
    (member : (k, v) ∈ addAll events) : v = weight (· = k) events := by
  rw [← get_addAll zero, get_eq_of_mem (nodup_addAll events) member]

end DropPlatform.CountDicts
