import DropPlatform.KeyedStores

/-! Parties that hold items, each item at some stage of its processing. Holdings are
exclusive when no item is held twice and every item fits its stage. A party that exchanges
some of its items for others keeps them exclusive, if the new ones are its own old ones or
are held by nobody. -/

namespace DropPlatform.ExclusiveHoldings
open KeyedStores

variable {ι κ σ P : Type*}

structure Exclusive (held : P → List (κ × σ)) (fits : κ → σ → Prop) (m : Keyed ι P) : Prop where
  single : ((contents held m : Multiset (κ × σ)).map Prod.fst).Nodup
  fit : ∀ item ∈ contents held m, fits item.1 item.2

def Unheld (held : P → List (κ × σ)) (m : Keyed ι P) (k : κ) : Prop :=
  ∀ item ∈ contents held m, item.1 ≠ k

instance unheldDecidable [DecidableEq κ] (held : P → List (κ × σ)) (m : Keyed ι P) (k : κ) :
    Decidable (Unheld held m k) := inferInstanceAs (Decidable (∀ item ∈ _, _))

section exchange
variable [DecidableEq ι] [Inhabited P] {held : P → List (κ × σ)} {fits fits' : κ → σ → Prop}
  {m : Keyed ι P} {i : ι} {p : P}

omit [DecidableEq ι] [Inhabited P] in
theorem Exclusive.mono (ex : Exclusive held fits m) (weaker : ∀ k s, fits k s → fits' k s) :
    Exclusive held fits' m :=
  ⟨ex.single, fun item member => weaker _ _ (ex.fit item member)⟩

theorem contents_split (empty : held default = []) (m : Keyed ι P) (i : ι) :
    ∃ others : Multiset (κ × σ), (contents held m : Multiset (κ × σ)) = others + held (get m i) ∧
      ∀ p, (contents held (set m i p) : Multiset (κ × σ)) = others + held p := by
  have without := contents_set empty m i default
  rw [empty, Multiset.coe_nil, add_zero] at without
  refine ⟨_, without.symm, fun p => ?_⟩
  have total := contents_set empty m i p
  rw [← without, add_right_comm] at total
  exact add_right_cancel total

theorem Exclusive.exchange (ex : Exclusive held fits m) (empty : held default = [])
    (old new rest : Multiset (κ × σ)) (before : (held (get m i) : Multiset (κ × σ)) = old + rest)
    (after : (held p : Multiset (κ × σ)) = new + rest) (distinct : (new.map Prod.fst).Nodup)
    (own : ∀ item ∈ new, item.1 ∈ old.map Prod.fst ∨ Unheld held m item.1)
    (fit : ∀ item ∈ new, fits' item.1 item.2)
    (frame : ∀ k s, k ∉ old.map Prod.fst → k ∉ new.map Prod.fst → fits k s → fits' k s) :
    Exclusive held fits' (set m i p) := by
  obtain ⟨others, whole, changed⟩ := contents_split empty m i
  have single := ex.single
  rw [whole, before, add_left_comm, Multiset.map_add, Multiset.nodup_add] at single
  obtain ⟨_, kept, apart⟩ := single
  have all : ∀ item ∈ others + rest, item ∈ contents held m := by
    intro item member
    rw [← Multiset.mem_coe, whole, before, add_left_comm]
    exact Multiset.mem_add.mpr (.inr member)
  -- An item of the others is none of the old ones, and none that nobody holds.
  have fresh : ∀ item ∈ others + rest, item.1 ∉ new.map Prod.fst := by
    intro item member again
    obtain ⟨given, there, same⟩ := Multiset.mem_map.mp again
    rcases own given there with mine | free
    · rw [same] at mine
      exact Multiset.disjoint_left.mp apart mine (Multiset.mem_map_of_mem _ member)
    · exact free item (all item member) same.symm
  have total : (contents held (set m i p) : Multiset (κ × σ)) = new + (others + rest) := by
    rw [changed, after, add_left_comm]
  constructor
  · rw [total, Multiset.map_add, Multiset.nodup_add]
    refine ⟨distinct, kept, Multiset.disjoint_left.mpr fun given there => ?_⟩
    obtain ⟨item, member, rfl⟩ := Multiset.mem_map.mp there
    exact fresh item member given
  · intro item member
    rw [← Multiset.mem_coe, total] at member
    rcases Multiset.mem_add.mp member with given | stays
    · exact fit item given
    · have other : item.1 ∉ old.map Prod.fst := fun mine =>
        Multiset.disjoint_left.mp apart mine (Multiset.mem_map_of_mem _ stays)
      exact frame _ _ other (fresh item stays) (ex.fit item (all item stays))

theorem Exclusive.take (ex : Exclusive held fits m) (empty : held default = [])
    (idle : held (get m i) = []) (distinct : ((held p).map Prod.fst).Nodup)
    (free : ∀ item ∈ held p, Unheld held m item.1) (fit : ∀ item ∈ held p, fits item.1 item.2) :
    Exclusive held fits (set m i p) :=
  ex.exchange empty 0 (held p) 0 (by simp [idle]) (by simp) (by simpa using distinct)
    (fun item given => .inr (free item given)) fit fun _ _ _ _ fitting => fitting

theorem Exclusive.drop (ex : Exclusive held fits m) (empty : held default = [])
    (fewer : (held p : Multiset (κ × σ)) ≤ held (get m i)) : Exclusive held fits (set m i p) := by
  obtain ⟨lost, split⟩ := Multiset.le_iff_exists_add.mp fewer
  have before := split.trans (add_comm _ _)
  refine ex.exchange empty lost 0 (held p) before (zero_add _).symm ?_ ?_ ?_ ?_
  · exact Multiset.nodup_zero
  all_goals simp +contextual

theorem Exclusive.advance (ex : Exclusive held fits m) (empty : held default = []) {k : κ}
    {s s' : σ} {rest : List (κ × σ)} (before : held (get m i) = (k, s) :: rest)
    (after : held p = (k, s') :: rest) (fit : fits' k s')
    (frame : ∀ j t, j ≠ k → fits j t → fits' j t) : Exclusive held fits' (set m i p) := by
  refine ex.exchange empty {(k, s)} {(k, s')} rest ?_ ?_ ?_ ?_ ?_ ?_
  · rw [before]; rfl
  · rw [after]; rfl
  · simp
  · simp
  · simpa using fit
  · intro j t other _
    exact frame j t (by simpa using other)

theorem Exclusive.release (ex : Exclusive held fits m) (empty : held default = []) {k : κ}
    {s : σ} {rest : List (κ × σ)} (before : held (get m i) = (k, s) :: rest)
    (after : held p = rest) (frame : ∀ j t, j ≠ k → fits j t → fits' j t) :
    Exclusive held fits' (set m i p) := by
  refine ex.exchange empty {(k, s)} 0 rest ?_ ?_ ?_ ?_ ?_ ?_
  · rw [before]; rfl
  · rw [after, zero_add]
  · exact Multiset.nodup_zero
  · simp
  · simp
  · intro j t other _
    exact frame j t (by simpa using other)

end exchange

end DropPlatform.ExclusiveHoldings
