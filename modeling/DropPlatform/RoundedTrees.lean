import DropPlatform.PrefixTrees

/-! Trees that count events in an arithmetic of their own, which may round. As long as the
sum of all amounts stays within a bound up to which the arithmetic is exact, every value is
the image of the value that the tree has in the natural numbers. -/

namespace DropPlatform.RoundedTrees
open PrefixTrees

structure Arithmetic (N : Type*) where
  zero : N
  add : N → N → N

section counting
variable {κ N : Type*} [DecidableEq κ] (A : Arithmetic N)

/-- Changes the first child with this name, or else a new one behind the others. -/
def atChild (name : κ) (change : Node κ N → Node κ N) : List (Node κ N) → List (Node κ N)
  | [] => [change ⟨name, A.zero, []⟩]
  | c :: rest => if c.name = name then change c :: rest else c :: atChild name change rest

def insert : List κ → N → Node κ N → Node κ N
  | [], v, node => { node with value := A.add node.value v }
  | name :: path, v, node =>
    { node with children := atChild A name (insert path v) node.children }

def sum (values : List N) : N := values.foldl A.add A.zero

mutual

/-- Leaves keep their values. -/
def propagate : Node κ N → Node κ N
  | ⟨name, value, []⟩ => ⟨name, value, []⟩
  | ⟨name, value, c :: rest⟩ =>
    let children := propagateAll (c :: rest)
    ⟨name, A.add value (sum A (children.map Node.value)), children⟩

def propagateAll : List (Node κ N) → List (Node κ N)
  | [] => []
  | c :: rest => propagate c :: propagateAll rest

end

def count (name : κ) (events : List (List κ × N)) : Node κ N :=
  propagate A (events.foldl (fun node e => insert A e.1 e.2 node) ⟨name, A.zero, []⟩)

omit [DecidableEq κ] in
theorem propagateAll_eq (children : List (Node κ N)) :
    propagateAll A children = children.map (propagate A) := by
  induction children with
  | nil => rw [propagateAll, List.map_nil]
  | cons c rest ih => rw [propagateAll, ih, List.map_cons]

end counting

section monoids
variable {κ M : Type*} [DecidableEq κ] [AddCommMonoid M]

def exactly (M : Type*) [AddCommMonoid M] : Arithmetic M := ⟨0, (· + ·)⟩

theorem atChild_exactly (name : κ) (change : Node κ M → Node κ M) (children : List (Node κ M)) :
    atChild (exactly M) name change children = PrefixTrees.atChild name change children := by
  induction children with
  | nil => rfl
  | cons c rest ih => rw [atChild, PrefixTrees.atChild, ih]

theorem insert_exactly (path : List κ) (v : M) (node : Node κ M) :
    insert (exactly M) path v node = PrefixTrees.insert path v node := by
  induction path generalizing node with
  | nil => rfl
  | cons name path ih => rw [insert, PrefixTrees.insert, atChild_exactly, funext ih]

end monoids

section images
variable {κ M N : Type*}

mutual

def mapValue (f : M → N) : Node κ M → Node κ N
  | ⟨name, value, children⟩ => ⟨name, f value, mapValues f children⟩

def mapValues (f : M → N) : List (Node κ M) → List (Node κ N)
  | [] => []
  | c :: rest => mapValue f c :: mapValues f rest

end

theorem mapValues_eq (f : M → N) (children : List (Node κ M)) :
    mapValues f children = children.map (mapValue f) := by
  induction children with
  | nil => rw [mapValues, List.map_nil]
  | cons c rest ih => rw [mapValues, ih, List.map_cons]

theorem mapValue_eq (f : M → N) (node : Node κ M) :
    mapValue f node = ⟨node.name, f node.value, node.children.map (mapValue f)⟩ := by
  rw [← mapValues_eq]
  cases node
  rw [mapValue]

theorem node_induction {P : Node κ M → Prop}
    (step : ∀ name value children, (∀ c ∈ children, P c) → P ⟨name, value, children⟩)
    (node : Node κ M) : P node :=
  Node.rec step (List.forall_mem_nil P)
    (fun _ _ first rest => List.forall_mem_cons.mpr ⟨first, rest⟩) node

theorem at_mapValue {f : M → N} {node : Node κ M} {path : List κ} {m : Node κ N} :
    At (mapValue f node) path m ↔ ∃ n, At node path n ∧ m = mapValue f n := by
  induction path generalizing node with
  | nil => simp only [At, exists_eq_left]
  | cons k path ih =>
    rw [mapValue_eq]
    simp only [At, List.mem_map, exists_exists_and_eq_and, ih]
    constructor
    · rintro ⟨c, child, named, n, below, rfl⟩
      exact ⟨n, ⟨c, child, by rwa [mapValue_eq] at named, below⟩, rfl⟩
    · rintro ⟨n, ⟨c, child, named, below⟩, rfl⟩
      exact ⟨c, child, by rwa [mapValue_eq], n, below, rfl⟩

theorem mapValue_mapValue {L : Type*} (g : N → L) (f : M → N) (node : Node κ M) :
    mapValue g (mapValue f node) = mapValue (g ∘ f) node := by
  induction node using node_induction with
  | step name value children ih =>
    simp only [mapValue_eq, List.map_map, Function.comp_apply, Node.mk.injEq, true_and]
    exact List.map_congr_left ih

end images

theorem propagate_exactly {κ M : Type*} [AddCommMonoid M] (node : Node κ M) :
    propagate (exactly M) node = PrefixTrees.propagate node := by
  induction node using node_induction with
  | step name value children ih =>
    cases children with
    | nil => rw [propagate, PrefixTrees.propagate]
    | cons c rest =>
      rw [propagate, propagateAll_eq, List.map_congr_left ih, PrefixTrees.propagate,
        PrefixTrees.propagateAll_eq, List.sum_eq_foldl]
      rfl

section totals
variable {κ : Type*}

mutual

def total : Node κ Nat → Nat
  | ⟨_, value, children⟩ => value + totals children

def totals : List (Node κ Nat) → Nat
  | [] => 0
  | c :: rest => total c + totals rest

end

theorem totals_eq (children : List (Node κ Nat)) : totals children = (children.map total).sum := by
  induction children with
  | nil => rw [totals, List.map_nil, List.sum_nil]
  | cons c rest ih => rw [totals, ih, List.map_cons, List.sum_cons]

theorem total_eq (node : Node κ Nat) : total node = node.value + totals node.children := by
  cases node
  rw [total]

theorem total_le_totals {c : Node κ Nat} {children : List (Node κ Nat)} (child : c ∈ children) :
    total c ≤ totals children := by
  rw [totals_eq]
  exact List.le_sum_of_mem (List.mem_map_of_mem child)

theorem value_propagate (node : Node κ Nat) : (PrefixTrees.propagate node).value = total node := by
  induction node using node_induction with
  | step name value children ih => rw [propagate_eq, total_eq, totals_eq, List.map_congr_left ih]

variable [DecidableEq κ] {change : Node κ Nat → Node κ Nat} {v : Nat}

theorem totals_atChild (grows : ∀ c, total (change c) = total c + v) (name : κ)
    (children : List (Node κ Nat)) :
    totals (PrefixTrees.atChild name change children) = totals children + v := by
  induction children with
  | nil => simp [PrefixTrees.atChild, totals, grows, total]
  | cons c rest ih =>
    rw [PrefixTrees.atChild]
    split_ifs
    · simp only [totals, grows]
      omega
    · simp only [totals, ih]
      omega

theorem total_insert (path : List κ) (v : Nat) (node : Node κ Nat) :
    total (PrefixTrees.insert path v node) = total node + v := by
  induction path generalizing node with
  | nil =>
    simp only [PrefixTrees.insert, total_eq]
    omega
  | cons name path ih =>
    simp only [PrefixTrees.insert, total_eq, totals_atChild ih]
    omega

end totals

section exactness
variable {κ N : Type*} {A : Arithmetic N} {bound : Nat} {f : Nat → N}

/-- The numbers stand for natural numbers, and are added exactly up to the bound. -/
structure ExactUpTo (A : Arithmetic N) (bound : Nat) (f : Nat → N) : Prop where
  zero : f 0 = A.zero
  add : ∀ a b, a + b ≤ bound → f (a + b) = A.add (f a) (f b)

theorem ExactUpTo.foldl (exact : ExactUpTo A bound f) (values : List Nat) (start : Nat)
    (small : start + values.sum ≤ bound) :
    (values.map f).foldl A.add (f start) = f (start + values.sum) := by
  induction values generalizing start with
  | nil => simp
  | cons v values ih =>
    rw [List.sum_cons] at small ⊢
    rw [List.map_cons, List.foldl_cons, ← exact.add start v (by omega), ih _ (by omega), add_assoc]

theorem ExactUpTo.propagate (exact : ExactUpTo A bound f) (node : Node κ Nat)
    (small : total node ≤ bound) :
    propagate A (mapValue f node) = mapValue f (PrefixTrees.propagate node) := by
  induction node using node_induction with
  | step name value children ih =>
    cases children with
    | nil => simp [mapValue, mapValues, RoundedTrees.propagate, PrefixTrees.propagate]
    | cons c rest =>
      rw [total] at small
      have below : ((c :: rest).map (mapValue f)).map (RoundedTrees.propagate A) =
          (c :: rest).map (mapValue f ∘ PrefixTrees.propagate) := by
        rw [List.map_map]
        exact List.map_congr_left fun d child =>
          ih d child ((total_le_totals child).trans (by omega))
      have values : ((c :: rest).map (mapValue f ∘ PrefixTrees.propagate)).map Node.value =
          ((c :: rest).map total).map f := by
        rw [List.map_map, List.map_map]
        refine List.map_congr_left fun d _ => ?_
        simp only [Function.comp_apply, mapValue_eq, value_propagate]
      rw [mapValue, mapValues, RoundedTrees.propagate, ← mapValues, mapValues_eq, propagateAll_eq,
        below, values, sum, ← exact.zero]
      rw [totals_eq] at small
      rw [exact.foldl _ 0 (by omega), zero_add, ← exact.add _ _ small, propagate_eq, mapValue_eq,
        List.map_map]
      simp only [value_propagate]

variable [DecidableEq κ]

theorem ExactUpTo.atChild (exact : ExactUpTo A bound f) {change : Node κ N → Node κ N}
    {change' : Node κ Nat → Node κ Nat} {v : Nat}
    (same : ∀ c, total c + v ≤ bound → change (mapValue f c) = mapValue f (change' c)) (name : κ)
    (children : List (Node κ Nat)) (small : totals children + v ≤ bound) :
    atChild A name change (children.map (mapValue f)) =
      (PrefixTrees.atChild name change' children).map (mapValue f) := by
  induction children with
  | nil =>
    have fresh := same ⟨name, 0, []⟩ (by simpa [total] using small)
    rw [mapValue_eq, exact.zero] at fresh
    simpa [RoundedTrees.atChild, PrefixTrees.atChild] using fresh
  | cons c rest ih =>
    rw [totals] at small
    have named : (mapValue f c).name = c.name := by rw [mapValue_eq]
    rw [List.map_cons, RoundedTrees.atChild, PrefixTrees.atChild, named]
    split_ifs
    · rw [same c (by omega), List.map_cons]
    · rw [ih (by omega), List.map_cons]

theorem ExactUpTo.insert (exact : ExactUpTo A bound f) (path : List κ) (v : Nat)
    (node : Node κ Nat) (small : total node + v ≤ bound) :
    insert A path (f v) (mapValue f node) = mapValue f (PrefixTrees.insert path v node) := by
  induction path generalizing node with
  | nil =>
    rw [total_eq] at small
    simp only [RoundedTrees.insert, PrefixTrees.insert, mapValue_eq]
    rw [exact.add _ _ (by omega)]
  | cons name path ih =>
    rw [total_eq] at small
    simp only [RoundedTrees.insert, PrefixTrees.insert, mapValue_eq]
    rw [exact.atChild ih name node.children (by omega)]

theorem ExactUpTo.count (exact : ExactUpTo A bound f) (name : κ) (events : List (List κ × Nat))
    (small : (events.map Prod.snd).sum ≤ bound) :
    count A name (events.map fun e => (e.1, f e.2)) = mapValue f (PrefixTrees.propagate
      (events.foldl (fun node e => PrefixTrees.insert e.1 e.2 node) ⟨name, 0, []⟩)) := by
  have counted : ∀ node : Node κ Nat, total node + (events.map Prod.snd).sum ≤ bound →
      (events.map fun e => (e.1, f e.2)).foldl (fun node e => RoundedTrees.insert A e.1 e.2 node)
          (mapValue f node) =
        mapValue f (events.foldl (fun node e => PrefixTrees.insert e.1 e.2 node) node) ∧
      total (events.foldl (fun node e => PrefixTrees.insert e.1 e.2 node) node) =
        total node + (events.map Prod.snd).sum := by
    clear small
    induction events with
    | nil => simp
    | cons e events ih =>
      intro node small
      rw [List.map_cons, List.sum_cons] at small
      have next := ih (PrefixTrees.insert e.1 e.2 node) (by rw [total_insert]; omega)
      rw [total_insert] at next
      simp only [List.map_cons, List.foldl_cons, List.sum_cons, exact.insert e.1 e.2 node (by omega)]
      exact ⟨next.1, next.2.trans (by omega)⟩
  have empty : mapValue f (⟨name, 0, []⟩ : Node κ Nat) = ⟨name, A.zero, []⟩ := by
    rw [mapValue, mapValues, exact.zero]
  obtain ⟨same, size⟩ := counted ⟨name, 0, []⟩ (by simpa [total, totals] using small)
  rw [RoundedTrees.count, ← empty, same]
  exact exact.propagate _ (by rw [size]; simpa [total, totals] using small)

end exactness

end DropPlatform.RoundedTrees
