import Mathlib.Algebra.BigOperators.Group.List.Basic
import Mathlib.Data.List.Perm.Basic
import Mathlib.Order.Defs.LinearOrder
import Mathlib.Tactic

/-! Counting by key. A list of events (key, amount) has a weight for every set of keys;
a tally holds the keys in order, each with the sum of its amounts. Weights do not depend
on the order of the events nor on how often they have been tallied in between, and a tally
is determined by its keys and their weights. -/

namespace DropPlatform.Tallies

variable {κ M : Type*} [AddCommMonoid M]

/-- What the events with a key in `p` add up to. -/
def weight (p : κ → Prop) [DecidablePred p] (events : List (κ × M)) : M :=
  ((events.filter fun e => p e.1).map Prod.snd).sum

section weight
variable {p : κ → Prop} [DecidablePred p]

@[simp] theorem weight_nil : weight p ([] : List (κ × M)) = 0 := rfl

theorem weight_cons (e : κ × M) (events : List (κ × M)) :
    weight p (e :: events) = (if p e.1 then e.2 else 0) + weight p events := by
  by_cases here : p e.1
  · simp only [weight, List.filter_cons, here, decide_true, if_true, List.map_cons, List.sum_cons]
  · simp only [weight, List.filter_cons, here, decide_false, if_false, zero_add]
    rfl

theorem weight_append (before after : List (κ × M)) :
    weight p (before ++ after) = weight p before + weight p after := by
  simp only [weight, List.filter_append, List.map_append, List.sum_append]

theorem weight_perm {before after : List (κ × M)} (same : before.Perm after) :
    weight p before = weight p after :=
  ((same.filter _).map _).sum_eq

theorem weight_eq_zero {events : List (κ × M)} (none : ∀ e ∈ events, ¬ p e.1) :
    weight p events = 0 := by
  induction events with
  | nil => rfl
  | cons e events ih =>
    rw [weight_cons, if_neg (none e List.mem_cons_self), zero_add]
    exact ih fun other member => none other (List.mem_cons_of_mem _ member)

theorem weight_congr {q : κ → Prop} [DecidablePred q] {events : List (κ × M)}
    (same : ∀ e ∈ events, p e.1 ↔ q e.1) : weight p events = weight q events := by
  rw [weight, weight, List.filter_congr fun e member => decide_eq_decide.mpr (same e member)]

theorem weight_map {ι : Type*} (f : ι → κ) (events : List (ι × M)) :
    weight p (events.map fun e => (f e.1, e.2)) = weight (fun i => p (f i)) events := by
  induction events with
  | nil => rfl
  | cons e events ih => rw [List.map_cons, weight_cons, ih, weight_cons]

end weight

section order
variable [PartialOrder M] [IsOrderedCancelAddMonoid M] {p q : κ → Prop} [DecidablePred p]
  [DecidablePred q] {events : List (κ × M)}

omit [IsOrderedCancelAddMonoid M] in
theorem ite_le_ite {v : M} (nonneg : 0 ≤ v) {P Q : Prop} [Decidable P] [Decidable Q]
    (imp : P → Q) : (if P then v else 0) ≤ if Q then v else 0 := by
  split_ifs with here there there
  · exact le_rfl
  · exact absurd (imp here) there
  · exact nonneg
  · exact le_rfl

theorem weight_le (nonneg : ∀ e ∈ events, 0 ≤ e.2) (imp : ∀ k, p k → q k) :
    weight p events ≤ weight q events := by
  induction events with
  | nil => exact le_rfl
  | cons e events ih =>
    obtain ⟨first, others⟩ := List.forall_mem_cons.mp nonneg
    rw [weight_cons, weight_cons]
    exact add_le_add (ite_le_ite first (imp e.1)) (ih others)

theorem weight_eq_iff (nonneg : ∀ e ∈ events, 0 ≤ e.2) (imp : ∀ k, p k → q k) :
    weight p events = weight q events ↔ ∀ e ∈ events, 0 < e.2 → q e.1 → p e.1 := by
  induction events with
  | nil => simp
  | cons e events ih =>
    obtain ⟨first, others⟩ := List.forall_mem_cons.mp nonneg
    rw [weight_cons, weight_cons, List.forall_mem_cons, ← ih others,
      add_eq_add_iff_eq_and_eq (ite_le_ite first (imp e.1)) (weight_le others imp)]
    refine and_congr_left fun _ => ?_
    by_cases here : p e.1
    · simp [here, imp e.1 here]
    · by_cases there : q e.1
      · simp [here, there, first.lt_iff_ne]
      · simp [here, there]

omit [IsOrderedCancelAddMonoid M] in
theorem weight_filter_pos [DecidableLT M] (nonneg : ∀ e ∈ events, 0 ≤ e.2) :
    weight p (events.filter fun e => 0 < e.2) = weight p events := by
  induction events with
  | nil => rfl
  | cons e events ih =>
    obtain ⟨first, others⟩ := List.forall_mem_cons.mp nonneg
    rw [weight_cons, ← ih others]
    by_cases some : 0 < e.2
    · rw [List.filter_cons_of_pos (by simpa using some), weight_cons]
    · have zero : e.2 = 0 := (first.eq_or_lt.resolve_right some).symm
      rw [List.filter_cons_of_neg (by simpa using some), zero, ite_self, zero_add]

end order

def keys (events : List (κ × M)) : List κ := events.map Prod.fst

omit [AddCommMonoid M] in
theorem keys_append (before after : List (κ × M)) :
    keys (before ++ after) = keys before ++ keys after := List.map_append

section exact
variable [∀ k : κ, DecidablePred (· = k)] {p : κ → Prop} [DecidablePred p]

theorem sum_weight {ks : List κ} (distinct : ks.Nodup) {events : List (κ × M)}
    (covered : ∀ e ∈ events, e.1 ∈ ks) :
    (ks.map fun k => if p k then weight (· = k) events else 0).sum = weight p events := by
  classical
  induction events with
  | nil => simp
  | cons e events ih =>
    obtain ⟨here, others⟩ := List.forall_mem_cons.mp covered
    have single : (ks.map fun k => if e.1 = k then (if p k then e.2 else 0) else 0).sum =
        if p e.1 then e.2 else 0 := by
      rw [← List.sum_toFinset _ distinct, Finset.sum_ite_eq, if_pos (List.mem_toFinset.mpr here)]
    rw [weight_cons, ← ih others, ← single, ← List.sum_map_add]
    congr 1
    refine List.map_congr_left fun k _ => ?_
    rw [weight_cons]
    by_cases counts : p k
    · simp only [if_pos counts]
    · simp only [if_neg counts, ite_self, add_zero]

theorem weight_of_exact {held events : List (κ × M)} (distinct : (keys held).Nodup)
    (exact : ∀ e ∈ held, e.2 = weight (· = e.1) events)
    (covered : ∀ e ∈ events, e.1 ∈ keys held) : weight p held = weight p events := by
  have each : ∀ entries : List (κ × M), (∀ e ∈ entries, e.2 = weight (· = e.1) events) →
      weight p entries =
        ((keys entries).map fun k => if p k then weight (· = k) events else 0).sum := by
    intro entries exact
    induction entries with
    | nil => rfl
    | cons e entries ih =>
      obtain ⟨here, others⟩ := List.forall_mem_cons.mp exact
      rw [weight_cons, ih others, here]
      rfl
  rw [each held exact, sum_weight distinct covered]

end exact

variable [LinearOrder κ]

/-- `m[k] += v` on a map that is kept in the order of its keys. -/
def insertAdd : List (κ × M) → κ → M → List (κ × M)
  | [], k, v => [(k, v)]
  | (j, a) :: rest, k, v =>
    if k < j then (k, v) :: (j, a) :: rest
    else if j = k then (j, a + v) :: rest
    else (j, a) :: insertAdd rest k v

theorem weight_insertAdd {p : κ → Prop} [DecidablePred p] (m : List (κ × M)) (k : κ) (v : M) :
    weight p (insertAdd m k v) = weight p m + if p k then v else 0 := by
  induction m with
  | nil => simp only [insertAdd, weight_cons, weight_nil, add_comm]
  | cons entry rest ih =>
    obtain ⟨j, a⟩ := entry
    by_cases before : k < j
    · rw [insertAdd, if_pos before, weight_cons, add_comm]
    by_cases same : j = k
    · rw [insertAdd, if_neg before, if_pos same, weight_cons, weight_cons, ← same]
      by_cases here : p j
      · simp only [here, if_true]
        exact add_right_comm _ _ _
      · simp only [here, if_false, add_zero]
    · rw [insertAdd, if_neg before, if_neg same, weight_cons, weight_cons, ih, add_assoc]

theorem mem_keys_insertAdd (m : List (κ × M)) (k : κ) (v : M) (i : κ) :
    i ∈ keys (insertAdd m k v) ↔ i = k ∨ i ∈ keys m := by
  induction m with
  | nil => simp [insertAdd, keys]
  | cons entry rest ih =>
    obtain ⟨j, a⟩ := entry
    simp only [insertAdd]
    split_ifs with before same
    · simp [keys]
    · subst same
      simp [keys]
    · simp only [keys, List.map_cons, List.mem_cons] at ih ⊢
      rw [ih, or_left_comm]

def Ordered (m : List (κ × M)) : Prop := (keys m).Pairwise (· < ·)

theorem Ordered.insertAdd {m : List (κ × M)} (ordered : Ordered m) (k : κ) (v : M) :
    Ordered (insertAdd m k v) := by
  induction m with
  | nil => simp [Ordered, Tallies.insertAdd, keys]
  | cons entry rest ih =>
    obtain ⟨j, a⟩ := entry
    have first : ∀ i ∈ keys rest, j < i := (List.pairwise_cons.mp ordered).1
    have others : Ordered rest := (List.pairwise_cons.mp ordered).2
    simp only [Tallies.insertAdd]
    split_ifs with before same
    · refine List.pairwise_cons.mpr ⟨fun i member => ?_, ordered⟩
      rcases List.mem_cons.mp member with rfl | member
      · exact before
      · exact before.trans (first i member)
    · exact ordered
    · have after : j < k := lt_of_le_of_ne (not_lt.mp before) same
      refine List.pairwise_cons.mpr ⟨fun i member => ?_, ih others⟩
      rcases (mem_keys_insertAdd rest k v i).mp member with rfl | member
      · exact after
      · exact first i member

/-- A map from keys to amounts, iterated in the order of the keys. -/
structure Tally (κ M : Type*) [LinearOrder κ] where
  entries : List (κ × M)
  ordered : Ordered entries
deriving DecidableEq

namespace Tally

def empty : Tally κ M := ⟨[], List.Pairwise.nil⟩

def add (m : Tally κ M) (k : κ) (v : M) : Tally κ M :=
  ⟨insertAdd m.entries k v, m.ordered.insertAdd k v⟩

def addAll (m : Tally κ M) (events : List (κ × M)) : Tally κ M :=
  events.foldl (fun m e => m.add e.1 e.2) m

theorem addAll_append (m : Tally κ M) (before after : List (κ × M)) :
    m.addAll (before ++ after) = (m.addAll before).addAll after := List.foldl_append

theorem weight_addAll {p : κ → Prop} [DecidablePred p] (m : Tally κ M) (events : List (κ × M)) :
    weight p (m.addAll events).entries = weight p m.entries + weight p events := by
  induction events generalizing m with
  | nil => rw [weight_nil, add_zero]; rfl
  | cons e events ih =>
    have rest := ih (m.add e.1 e.2)
    rw [add, weight_insertAdd, add_assoc, ← weight_cons] at rest
    exact rest

theorem mem_keys_addAll (m : Tally κ M) (events : List (κ × M)) (k : κ) :
    k ∈ keys (m.addAll events).entries ↔ k ∈ keys m.entries ∨ k ∈ keys events := by
  induction events generalizing m with
  | nil => simp [addAll, keys]
  | cons e events ih =>
    have rest := ih (m.add e.1 e.2)
    rw [add, mem_keys_insertAdd] at rest
    rw [addAll, List.foldl_cons]
    refine rest.trans ?_
    rw [keys, keys, keys, List.map_cons, List.mem_cons, or_assoc, or_left_comm]

end Tally

omit [AddCommMonoid M] in
theorem Ordered.head_notMem {j : κ} {a : M} {rest : List (κ × M)}
    (ordered : Ordered ((j, a) :: rest)) : j ∉ keys rest := fun member =>
  lt_irrefl j ((List.pairwise_cons.mp ordered).1 j member)

theorem Ordered.weight_tail {j : κ} [DecidablePred (· = j)] {a : M} {rest : List (κ × M)}
    (ordered : Ordered ((j, a) :: rest)) : weight (· = j) rest = 0 :=
  weight_eq_zero fun _ member same => ordered.head_notMem (same ▸ List.mem_map_of_mem member)

theorem Ordered.weight_head {j : κ} [DecidablePred (· = j)] {a : M} {rest : List (κ × M)}
    (ordered : Ordered ((j, a) :: rest)) : weight (· = j) ((j, a) :: rest) = a := by
  rw [weight_cons, if_pos rfl, ordered.weight_tail, add_zero]

theorem Ordered.weight_of_mem {m : List (κ × M)} (ordered : Ordered m) {e : κ × M}
    [DecidablePred (· = e.1)] (member : e ∈ m) : weight (· = e.1) m = e.2 := by
  induction m with
  | nil => exact absurd member List.not_mem_nil
  | cons entry rest ih =>
    rcases List.mem_cons.mp member with rfl | later
    · exact ordered.weight_head
    · have before : entry.1 < e.1 := (List.pairwise_cons.mp ordered).1 _ (List.mem_map_of_mem later)
      rw [weight_cons, if_neg before.ne, zero_add]
      exact ih (List.pairwise_cons.mp ordered).2 later

theorem Ordered.ext {m n : List (κ × M)} (left : Ordered m) (right : Ordered n)
    (sameKeys : ∀ k, k ∈ keys m ↔ k ∈ keys n)
    (sameWeights : ∀ k, weight (· = k) m = weight (· = k) n) : m = n := by
  induction m generalizing n with
  | nil =>
    cases n with
    | nil => rfl
    | cons entry rest => exact absurd ((sameKeys entry.1).mpr List.mem_cons_self) List.not_mem_nil
  | cons entry rest ih =>
    obtain ⟨j, a⟩ := entry
    cases n with
    | nil => exact absurd ((sameKeys j).mp List.mem_cons_self) List.not_mem_nil
    | cons entry' rest' =>
      obtain ⟨j', a'⟩ := entry'
      have first : ∀ i ∈ keys rest, j < i := (List.pairwise_cons.mp left).1
      have first' : ∀ i ∈ keys rest', j' < i := (List.pairwise_cons.mp right).1
      -- each head is the least key of both maps
      have head : j = j' := by
        rcases List.mem_cons.mp ((sameKeys j).mp List.mem_cons_self) with same | member
        · exact same
        rcases List.mem_cons.mp ((sameKeys j').mpr List.mem_cons_self) with same | member'
        · exact same.symm
        exact absurd ((first j' member').trans (first' j member)) (lt_irrefl _)
      subst head
      have amount : a = a' := by
        have both := sameWeights j
        rwa [left.weight_head, right.weight_head] at both
      subst amount
      have tails : rest = rest' := by
        apply ih (List.pairwise_cons.mp left).2 (List.pairwise_cons.mp right).2
        · intro k
          by_cases here : k = j
          · subst here
            exact iff_of_false left.head_notMem right.head_notMem
          · simpa only [keys, List.map_cons, List.mem_cons, here, false_or] using sameKeys k
        · intro k
          by_cases here : j = k
          · subst here
            rw [left.weight_tail, right.weight_tail]
          · have both := sameWeights k
            rwa [weight_cons, weight_cons, if_neg here, zero_add, zero_add] at both
      rw [tails]

theorem Tally.ext_weight {m n : Tally κ M} (sameKeys : ∀ k, k ∈ keys m.entries ↔ k ∈ keys n.entries)
    (sameWeights : ∀ k, weight (· = k) m.entries = weight (· = k) n.entries) : m = n := by
  obtain ⟨entries, ordered⟩ := m
  obtain ⟨entries', ordered'⟩ := n
  have same : entries = entries' := ordered.ext ordered' sameKeys sameWeights
  subst same
  rfl

theorem Tally.addAll_entries (m : Tally κ M) : Tally.empty.addAll m.entries = m := by
  apply ext_weight
  · intro k
    rw [mem_keys_addAll]
    exact or_iff_right List.not_mem_nil
  · intro k
    rw [weight_addAll]
    exact zero_add _

theorem Tally.addAll_congr (m : Tally κ M) {before after : List (κ × M)}
    (sameKeys : ∀ k, k ∈ keys before ↔ k ∈ keys after)
    (sameWeights : ∀ (p : κ → Prop) [DecidablePred p], weight p before = weight p after) :
    m.addAll before = m.addAll after := by
  apply ext_weight
  · intro k
    rw [mem_keys_addAll, mem_keys_addAll, sameKeys]
  · intro k
    rw [weight_addAll, weight_addAll, sameWeights]

end DropPlatform.Tallies
