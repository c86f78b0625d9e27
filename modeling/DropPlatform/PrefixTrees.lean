import DropPlatform.Tallies
import Mathlib.Algebra.BigOperators.Group.List.Basic

/-! Trees with named nodes that count events along paths. An event is inserted by walking
from child to child and adding its amount at the end of its path; a pass over the tree then
adds to each value the values below it. After it the value of a node is the weight of the
events whose paths begin with the path of the node. -/

namespace DropPlatform.PrefixTrees
open Tallies

structure Node (κ M : Type*) where
  name : κ
  value : M
  children : List (Node κ M)

variable {κ M : Type*} [DecidableEq κ] [AddCommMonoid M]

/-- Changes the first child with this name, or else a new one behind the others. -/
def atChild (name : κ) (change : Node κ M → Node κ M) : List (Node κ M) → List (Node κ M)
  | [] => [change ⟨name, 0, []⟩]
  | c :: rest => if c.name = name then change c :: rest else c :: atChild name change rest

def insert : List κ → M → Node κ M → Node κ M
  | [], v, node => { node with value := node.value + v }
  | name :: path, v, node =>
    { node with children := atChild name (insert path v) node.children }

mutual

def propagate : Node κ M → Node κ M
  | ⟨name, value, []⟩ => ⟨name, value, []⟩
  | ⟨name, value, c :: rest⟩ =>
    let children := propagateAll (c :: rest)
    ⟨name, value + (children.map Node.value).sum, children⟩

def propagateAll : List (Node κ M) → List (Node κ M)
  | [] => []
  | c :: rest => propagate c :: propagateAll rest

end

/-- `At n path m`: the path leads from `n` to `m`. -/
def At : Node κ M → List κ → Node κ M → Prop
  | n, [], m => m = n
  | n, k :: path, m => ∃ c ∈ n.children, c.name = k ∧ At c path m

def after (k : κ) (events : List (List κ × M)) : List (List κ × M) :=
  events.filterMap fun e =>
    match e.1 with
    | [] => none
    | first :: path => if first = k then some (path, e.2) else none

section after
variable {k : κ} {events : List (List κ × M)}

omit [AddCommMonoid M] in
theorem mem_after {path : List κ} {v : M} :
    (path, v) ∈ after k events ↔ (k :: path, v) ∈ events := by
  simp only [after, List.mem_filterMap]
  constructor
  · rintro ⟨⟨whole, w⟩, member, rest⟩
    cases whole with
    | nil => exact absurd rest nofun
    | cons first tail =>
      simp only [Option.ite_none_right_eq_some, Option.some.injEq, Prod.mk.injEq] at rest
      obtain ⟨rfl, rfl, rfl⟩ := rest
      exact member
  · exact fun member => ⟨(k :: path, v), member, if_pos rfl⟩

omit [AddCommMonoid M] in
theorem after_append_nil (v : M) : after k (events ++ [([], v)]) = after k events := by
  simp [after]

omit [AddCommMonoid M] in
theorem after_append_self (path : List κ) (v : M) :
    after k (events ++ [(k :: path, v)]) = after k events ++ [(path, v)] := by
  simp [after]

omit [AddCommMonoid M] in
theorem after_append_of_ne {name : κ} (other : k ≠ name) (path : List κ) (v : M) :
    after k (events ++ [(name :: path, v)]) = after k events := by
  simp [after, Ne.symm other]

theorem weight_after (path : List κ) (events : List (List κ × M)) :
    weight (path <+: ·) (after k events) = weight (k :: path <+: ·) events := by
  induction events with
  | nil => rfl
  | cons e events ih =>
    obtain ⟨whole, v⟩ := e
    rw [weight_cons]
    cases whole with
    | nil =>
      have outside : ¬ k :: path <+: ([] : List κ) := by simp
      rw [if_neg outside, zero_add, ← ih]
      rfl
    | cons first tail =>
      by_cases same : first = k
      · have inside : after k ((first :: tail, v) :: events) = (tail, v) :: after k events := by
          simp [after, same]
        rw [inside, weight_cons, ih, same]
        simp only [List.cons_prefix_cons, true_and]
      · have outside : after k ((first :: tail, v) :: events) = after k events := by
          simp [after, same]
        rw [outside, ih]
        simp [List.cons_prefix_cons, Ne.symm same]

end after

/-- The tree, before the pass over it, has exactly the events inserted. -/
inductive Counts : Node κ M → List (List κ × M) → Prop
  | mk {node : Node κ M} {events : List (List κ × M)}
    (own : node.value = weight (· = []) events)
    (distinct : (node.children.map Node.name).Nodup)
    (known : ∀ e ∈ events, ∀ k path, e.1 = k :: path → k ∈ node.children.map Node.name)
    (used : ∀ c ∈ node.children, after c.name events ≠ [])
    (below : ∀ c ∈ node.children, Counts c (after c.name events)) : Counts node events

theorem Counts.empty (name : κ) : Counts (⟨name, 0, []⟩ : Node κ M) [] :=
  .mk rfl List.nodup_nil nofun nofun nofun

section insert
variable {node : Node κ M} {events : List (List κ × M)}

theorem name_insert (path : List κ) (v : M) (node : Node κ M) :
    (insert path v node).name = node.name := by
  cases path with
  | nil => rfl
  | cons name path => rfl

variable {change : Node κ M → Node κ M}

theorem names_atChild (keeps : ∀ c, (change c).name = c.name) (name : κ)
    (children : List (Node κ M)) :
    (atChild name change children).map Node.name =
      if name ∈ children.map Node.name then children.map Node.name
      else children.map Node.name ++ [name] := by
  induction children with
  | nil => simp [atChild, keeps]
  | cons c rest ih =>
    by_cases here : c.name = name
    · simp [atChild, here, keeps]
    · have other : name ≠ c.name := fun same => here same.symm
      simp only [atChild, here, if_false, List.map_cons, ih, List.mem_cons, other, false_or]
      split_ifs
      · rfl
      · rfl

theorem mem_atChild {name : κ} {children : List (Node κ M)} {c : Node κ M}
    (distinct : (children.map Node.name).Nodup) (member : c ∈ atChild name change children) :
    c ∈ children ∧ c.name ≠ name ∨ (∃ old ∈ children, old.name = name ∧ c = change old) ∨
      name ∉ children.map Node.name ∧ c = change ⟨name, 0, []⟩ := by
  induction children with
  | nil => exact .inr (.inr ⟨List.not_mem_nil, List.mem_singleton.mp member⟩)
  | cons first rest ih =>
    rw [List.map_cons, List.nodup_cons] at distinct
    by_cases here : first.name = name
    · rw [atChild, if_pos here] at member
      rcases List.mem_cons.mp member with rfl | member
      · exact .inr (.inl ⟨first, List.mem_cons_self, here, rfl⟩)
      · have other : c.name ≠ name := fun same =>
          distinct.1 (here.trans same.symm ▸ List.mem_map_of_mem member)
        exact .inl ⟨List.mem_cons_of_mem first member, other⟩
    · rw [atChild, if_neg here] at member
      rcases List.mem_cons.mp member with rfl | member
      · exact .inl ⟨List.mem_cons_self, here⟩
      · rcases ih distinct.2 member with ⟨old, other⟩ | ⟨old, present, same, rfl⟩ | ⟨absent, rfl⟩
        · exact .inl ⟨List.mem_cons_of_mem first old, other⟩
        · exact .inr (.inl ⟨old, List.mem_cons_of_mem first present, same, rfl⟩)
        · refine .inr (.inr ⟨?_, rfl⟩)
          rw [List.map_cons]
          exact List.not_mem_cons_of_ne_of_not_mem (Ne.symm here) absent

theorem Counts.after_eq_nil (counts : Counts node events) {name : κ}
    (absent : name ∉ node.children.map Node.name) : after name events = [] := by
  obtain ⟨own, distinct, known, used, below⟩ := counts
  refine List.eq_nil_iff_forall_not_mem.mpr fun e member => absent ?_
  exact known _ (mem_after.mp member) name e.1 rfl

theorem Counts.insert_nil (counts : Counts node events) (v : M) :
    Counts (insert [] v node) (events ++ [([], v)]) := by
  obtain ⟨own, distinct, known, used, below⟩ := counts
  refine .mk ?_ distinct (fun e member k path cut => ?_) (fun c child => ?_) (fun c child => ?_)
  · rw [weight_append, weight_cons, weight_nil, if_pos rfl, add_zero, ← own]
    rfl
  · rcases List.mem_append.mp member with old | new
    · exact known e old k path cut
    · rw [List.mem_singleton.mp new] at cut
      exact absurd cut nofun
  · rw [after_append_nil]
    exact used c child
  · rw [after_append_nil]
    exact below c child

theorem Counts.insert (counts : Counts node events) (path : List κ) (v : M) :
    Counts (insert path v node) (events ++ [(path, v)]) := by
  induction path generalizing node events with
  | nil => exact counts.insert_nil v
  | cons name path ih =>
    have fresh : name ∉ node.children.map Node.name → after name events = [] :=
      counts.after_eq_nil
    obtain ⟨own, distinct, known, used, below⟩ := counts
    have names := names_atChild (name_insert path v) name node.children
    -- a child of the new node is an old one elsewhere, the changed one, or a new one
    have cases : ∀ c ∈ atChild name (PrefixTrees.insert path v) node.children,
        after c.name (events ++ [(name :: path, v)]) ≠ [] ∧
          Counts c (after c.name (events ++ [(name :: path, v)])) := by
      intro c child
      rcases mem_atChild distinct child with
        ⟨old, other⟩ | ⟨old, present, same, rfl⟩ | ⟨absent, rfl⟩
      · rw [after_append_of_ne other]
        exact ⟨used c old, below c old⟩
      · rw [name_insert, same, after_append_self, ← same]
        exact ⟨List.append_ne_nil_of_right_ne_nil _ (List.cons_ne_nil _ _), ih (below old present)⟩
      · rw [name_insert, after_append_self, fresh absent]
        exact ⟨List.cons_ne_nil _ _, ih (.empty name)⟩
    refine .mk ?_ ?_ (fun e member k rest cut => ?_) (fun c child => (cases c child).1)
      (fun c child => (cases c child).2)
    · rw [weight_append, weight_cons, weight_nil, if_neg (List.cons_ne_nil name path), zero_add,
        add_zero, ← own]
      rfl
    · show ((atChild name _ node.children).map Node.name).Nodup
      rw [names]
      split_ifs with present
      · exact distinct
      · rw [← List.concat_eq_append]
        exact distinct.concat present
    · show k ∈ (atChild name _ node.children).map Node.name
      rw [names]
      rcases List.mem_append.mp member with old | new
      · have before := known e old k rest cut
        split_ifs
        · exact before
        · exact List.mem_append_left _ before
      · rw [List.mem_singleton.mp new] at cut
        rw [← (List.cons.inj cut).1]
        split_ifs with present
        · exact present
        · exact List.mem_append_right _ (List.mem_singleton_self name)

theorem Counts.foldl (counts : Counts node events) (more : List (List κ × M)) :
    Counts (more.foldl (fun node e => PrefixTrees.insert e.1 e.2 node) node) (events ++ more) := by
  induction more generalizing node events with
  | nil => rwa [List.append_nil]
  | cons e more ih =>
    rw [List.foldl_cons, List.append_cons]
    exact ih (counts.insert e.1 e.2)

end insert

section propagate

omit [DecidableEq κ] in
theorem propagateAll_eq (children : List (Node κ M)) :
    propagateAll children = children.map propagate := by
  induction children with
  | nil => rw [propagateAll, List.map_nil]
  | cons c rest ih => rw [propagateAll, ih, List.map_cons]

omit [DecidableEq κ] in
theorem propagate_eq (node : Node κ M) :
    propagate node = ⟨node.name,
      node.value + (node.children.map fun c => (propagate c).value).sum,
      node.children.map propagate⟩ := by
  obtain ⟨name, value, children⟩ := node
  cases children with
  | nil => simp [propagate]
  | cons c rest =>
    rw [propagate, propagateAll_eq]
    simp only [List.map_map, Function.comp_def]

omit [DecidableEq κ] in
theorem at_propagate {node m : Node κ M} {path : List κ} :
    At (propagate node) path m ↔ ∃ n, At node path n ∧ m = propagate n := by
  induction path generalizing node with
  | nil => simp only [At, exists_eq_left]
  | cons k path ih =>
    rw [propagate_eq]
    simp only [At, List.mem_map]
    constructor
    · rintro ⟨c, ⟨old, child, rfl⟩, name, rest⟩
      obtain ⟨n, there, same⟩ := ih.mp rest
      rw [propagate_eq] at name
      exact ⟨n, ⟨old, child, name, there⟩, same⟩
    · rintro ⟨n, ⟨old, child, name, there⟩, same⟩
      refine ⟨propagate old, ⟨old, child, rfl⟩, ?_, ih.mpr ⟨n, there, same⟩⟩
      rw [propagate_eq]
      exact name

theorem weight_split {names : List κ} (distinct : names.Nodup) {events : List (List κ × M)}
    (known : ∀ e ∈ events, ∀ k path, e.1 = k :: path → k ∈ names) :
    weight (· = []) events + (names.map fun k => weight ([k] <+: ·) events).sum =
      weight ([] <+: ·) events := by
  induction events with
  | nil => simp
  | cons e events ih =>
    have rest := ih fun other member => known other (List.mem_cons_of_mem e member)
    have first : (if e.1 = [] then e.2 else 0) +
        (names.map fun k => if [k] <+: e.1 then e.2 else 0).sum = e.2 := by
      obtain ⟨path, v⟩ := e
      cases path with
      | nil => simp
      | cons h path =>
        have member := known _ List.mem_cons_self h path rfl
        have one : (names.map fun k => if [k] <+: h :: path then v else 0).sum =
            names.count h • if [h] <+: h :: path then v else 0 :=
          List.sum_map_eq_nsmul_single h _ fun k other _ => by simp [List.cons_prefix_cons, other]
        rw [if_neg (List.cons_ne_nil h path), zero_add, one,
          List.count_eq_one_of_mem distinct member, one_nsmul, if_pos (by simp)]
    have whole : (if [] <+: e.1 then e.2 else 0) = e.2 := if_pos List.nil_prefix
    simp only [weight_cons, List.sum_map_add]
    rw [whole, add_add_add_comm, first, rest]

end propagate

section exact
variable {node m : Node κ M} {events : List (List κ × M)} {path : List κ}

theorem Counts.value_propagate (counts : Counts node events) :
    (propagate node).value = weight ([] <+: ·) events := by
  induction counts with
  | mk own distinct known used below ih =>
    rename_i node events
    have sums : node.children.map (fun c => (propagate c).value) =
        (node.children.map Node.name).map fun k => weight ([k] <+: ·) events := by
      rw [List.map_map]
      refine List.map_congr_left fun c child => ?_
      rw [ih c child, weight_after]
      rfl
    rw [propagate_eq, ← weight_split distinct known, ← sums, ← own]

theorem Counts.value_at (counts : Counts node events) (there : At node path m) :
    (propagate m).value = weight (path <+: ·) events := by
  induction path generalizing node events with
  | nil => rw [show m = node from there, counts.value_propagate]
  | cons k path ih =>
    obtain ⟨own, distinct, known, used, below⟩ := counts
    obtain ⟨c, child, rfl, rest⟩ := there
    rw [ih (below c child) rest, weight_after]

theorem Counts.distinct_at (counts : Counts node events) (there : At node path m) :
    (m.children.map Node.name).Nodup := by
  induction path generalizing node events with
  | nil =>
    obtain ⟨own, distinct, known, used, below⟩ := counts
    rw [show m = node from there]
    exact distinct
  | cons k path ih =>
    obtain ⟨own, distinct, known, used, below⟩ := counts
    obtain ⟨c, child, -, rest⟩ := there
    exact ih (below c child) rest

theorem Counts.exists_event (counts : Counts node events) (some : path ≠ [])
    (there : At node path m) : ∃ e ∈ events, path <+: e.1 := by
  induction path generalizing node events with
  | nil => exact absurd rfl some
  | cons k path ih =>
    obtain ⟨own, distinct, known, used, below⟩ := counts
    obtain ⟨c, child, rfl, rest⟩ := there
    have inner : ∃ e ∈ after c.name events, path <+: e.1 := by
      by_cases last : path = []
      · obtain ⟨e, member⟩ := List.exists_mem_of_ne_nil _ (used c child)
        exact ⟨e, member, last ▸ List.nil_prefix⟩
      · exact ih (below c child) last rest
    obtain ⟨e, member, starts⟩ := inner
    exact ⟨(c.name :: e.1, e.2), mem_after.mp member, List.cons_prefix_cons.mpr ⟨rfl, starts⟩⟩

theorem Counts.exists_at (counts : Counts node events) {e : List κ × M} (member : e ∈ events)
    (starts : path <+: e.1) : ∃ m, At node path m := by
  induction path generalizing node events e with
  | nil => exact ⟨node, rfl⟩
  | cons k path ih =>
    obtain ⟨own, distinct, known, used, below⟩ := counts
    obtain ⟨whole, v⟩ := e
    cases whole with
    | nil => exact absurd starts (by simp)
    | cons first tail =>
      obtain ⟨rfl, begins⟩ := List.cons_prefix_cons.mp starts
      obtain ⟨c, child, rfl⟩ := List.mem_map.mp (known _ member k tail rfl)
      obtain ⟨m, rest⟩ := ih (below c child) (mem_after.mpr member) begins
      exact ⟨m, c, child, rfl, rest⟩

/-- What a tree says about the events: siblings have distinct names, the paths below the
root are the beginnings of the events' paths, and a value is the weight of all events whose
paths begin like that. -/
structure Exact (tree : Node κ M) (events : List (List κ × M)) : Prop where
  distinct : ∀ path n, At tree path n → (n.children.map Node.name).Nodup
  paths : ∀ path, path ≠ [] → ((∃ n, At tree path n) ↔ ∃ e ∈ events, path <+: e.1)
  values : ∀ path n, At tree path n → n.value = weight (path <+: ·) events

theorem Counts.exact (counts : Counts node events) : Exact (propagate node) events where
  distinct path n there := by
    obtain ⟨m, before, rfl⟩ := at_propagate.mp there
    have same : (propagate m).children.map Node.name = m.children.map Node.name := by
      rw [propagate_eq, List.map_map]
      refine List.map_congr_left fun c _ => ?_
      rw [Function.comp_apply, propagate_eq]
    rw [same]
    exact counts.distinct_at before
  paths path some := by
    constructor
    · rintro ⟨n, there⟩
      obtain ⟨m, before, -⟩ := at_propagate.mp there
      exact counts.exists_event some before
    · rintro ⟨e, member, starts⟩
      obtain ⟨m, before⟩ := counts.exists_at member starts
      exact ⟨propagate m, at_propagate.mpr ⟨m, before, rfl⟩⟩
  values path n there := by
    obtain ⟨m, before, rfl⟩ := at_propagate.mp there
    exact counts.value_at before

end exact

section own
variable {κ M : Type*} [DecidableEq κ] [AddCommGroup M]

mutual

def nodes : Node κ M → List (Node κ M)
  | ⟨name, value, children⟩ => ⟨name, value, children⟩ :: nodesAll children

def nodesAll : List (Node κ M) → List (Node κ M)
  | [] => []
  | c :: rest => nodes c ++ nodesAll rest

end

def below (tree : Node κ M) : List (Node κ M) := nodesAll tree.children

def own (node : Node κ M) : M := node.value - (node.children.map Node.value).sum

omit [DecidableEq κ] [AddCommGroup M] in
theorem nodesAll_eq (children : List (Node κ M)) : nodesAll children = children.flatMap nodes := by
  induction children with
  | nil => rw [nodesAll, List.flatMap_nil]
  | cons c rest ih => rw [nodesAll, ih, List.flatMap_cons]

omit [DecidableEq κ] [AddCommGroup M] in
theorem nodes_eq (node : Node κ M) : nodes node = node :: below node := by
  obtain ⟨name, value, children⟩ := node
  rw [nodes, below]

omit [DecidableEq κ] in
theorem own_propagate (node : Node κ M) : own (propagate node) = node.value := by
  rw [own, propagate_eq]
  simp only [List.map_map, Function.comp_def, add_sub_cancel_right]

theorem sum_weight_after {names : List κ} (distinct : names.Nodup) {events : List (List κ × M)}
    (known : ∀ e ∈ events, ∀ k path, e.1 = k :: path → k ∈ names) {q : List κ → Prop}
    [DecidablePred q] :
    (names.map fun k => weight (fun path => q (k :: path)) (after k events)).sum =
      weight (fun path => path ≠ [] ∧ q path) events := by
  induction events with
  | nil => simp [after]
  | cons e events ih =>
    have rest := ih fun other member => known other (List.mem_cons_of_mem e member)
    obtain ⟨path, v⟩ := e
    cases path with
    | nil =>
      have same : ∀ k, after k (([], v) :: events) = after k events := fun _ => rfl
      simp only [same, rest, weight_cons, ne_eq, not_true, false_and, if_false, zero_add]
    | cons h path =>
      have member := known _ List.mem_cons_self h path rfl
      have split : ∀ k, weight (fun path => q (k :: path)) (after k ((h :: path, v) :: events)) =
          (if h = k then if q (k :: path) then v else 0 else 0) +
            weight (fun path => q (k :: path)) (after k events) := by
        intro k
        by_cases same : h = k
        · simp [after, same, weight_cons]
        · simp [after, same]
      have one : (names.map fun k => if h = k then if q (k :: path) then v else 0 else 0).sum =
          names.count h • if h = h then if q (h :: path) then v else 0 else 0 :=
        List.sum_map_eq_nsmul_single h _ fun k other _ => if_neg (Ne.symm other)
      simp only [split, List.sum_map_add, rest, one, List.count_eq_one_of_mem distinct member,
        one_nsmul, if_true, weight_cons, ne_eq, List.cons_ne_nil, not_false_eq_true, true_and]

theorem weight_getLast_cons (k name : κ) (events : List (List κ × M)) :
    (if k = name then weight (· = []) events else 0) + weight (·.getLast? = some name) events =
      weight (fun path => (k :: path).getLast? = some name) events := by
  induction events with
  | nil => simp
  | cons e events ih =>
    have first : (if k = name then if e.1 = [] then e.2 else 0 else 0) +
        (if e.1.getLast? = some name then e.2 else 0) =
        if (k :: e.1).getLast? = some name then e.2 else 0 := by
      obtain ⟨path, v⟩ := e
      cases path with
      | nil => simp
      | cons h path => simp [List.getLast?_cons_cons]
    simp only [weight_cons, ← ih, ← first]
    split_ifs <;> abel

def names (l : List (Node κ M)) : List (κ × M) := l.map fun node => (node.name, own node)

theorem weight_names_flatMap (name : κ) (children : List (Node κ M))
    (parts : Node κ M → List (Node κ M)) :
    weight (· = name) (names (children.flatMap parts)) =
      (children.map fun c => weight (· = name) (names (parts c))).sum := by
  induction children with
  | nil => rfl
  | cons c children ih =>
    rw [List.flatMap_cons, names, List.map_append, weight_append, List.map_cons, List.sum_cons,
      ← ih]
    rfl

theorem Counts.weight_own {node : Node κ M} {events : List (List κ × M)}
    (counts : Counts node events) (name : κ) :
    weight (· = name) (names (PrefixTrees.below (propagate node))) =
      weight (·.getLast? = some name) events := by
  induction counts with
  | mk here distinct known used children ih =>
    rename_i node events
    have parts : PrefixTrees.below (propagate node) =
        node.children.flatMap fun c => nodes (propagate c) := by
      rw [PrefixTrees.below, propagate_eq, nodesAll_eq, List.flatMap_map]
    have each : ∀ c ∈ node.children, weight (· = name) (names (nodes (propagate c))) =
        weight (fun path => (c.name :: path).getLast? = some name) (after c.name events) := by
      intro c child
      obtain ⟨value, _, _, _, _⟩ := children c child
      have named : (propagate c).name = c.name := by rw [propagate_eq]
      rw [nodes_eq, names, List.map_cons, weight_cons, named, own_propagate, value,
        ← weight_getLast_cons c.name, ← ih c child, names]
    rw [parts, weight_names_flatMap, List.map_congr_left each]
    have split := sum_weight_after distinct known (q := (·.getLast? = some name))
    rw [List.map_map] at split
    refine Eq.trans split (weight_congr fun e _ => ?_)
    constructor
    · exact fun both => both.2
    · intro ends
      refine ⟨fun empty => ?_, ends⟩
      rw [empty] at ends
      cases ends

end own

end DropPlatform.PrefixTrees
