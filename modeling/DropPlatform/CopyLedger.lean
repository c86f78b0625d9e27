import Mathlib.Data.Multiset.Count
import Mathlib.Tactic

/-! Bookkeeping of the copies that a delivery system makes of its orders.
An order is waiting, taken or over; its copies are on their way to a worker (`waiting`)
or with a worker (`taken`). An order may be accepted again, as a new generation. The two
laws, that no order loses its last copy and that no order has a second one, depend on
different events and are kept apart. -/

namespace DropPlatform.CopyLedger

inductive Phase
  | absent | waiting | taken | over
deriving DecidableEq, Repr

def Phase.closed : Phase → Phase
  | .absent => .absent
  | _ => .over

def Phase.handed : Phase → Phase
  | .waiting => .taken
  | p => p

/-- What a worker's report makes of an order; a success needs a taken order. -/
def Phase.reported (success : Bool) : Phase → Phase
  | .absent => .absent
  | .waiting => if success then .waiting else .over
  | _ => .over

variable {κ C : Type*}

@[ext] structure Ledger (κ C : Type*) where
  phase : κ → Phase
  generation : κ → Nat
  waiting : Multiset C
  taken : Multiset C

inductive Event (κ C : Type*)
  | quiet
  | accept (c : C)
  /-- The order is closed and its waiting copy goes with it. -/
  | withdraw (c : C)
  /-- The order is closed, whatever copies there are. -/
  | cancel (k : κ)
  /-- A copy that had been withdrawn turns up again. -/
  | revive (c : C)
  | hand (c : C)
  | lose (c : C)
  /-- A worker drops a copy because it holds another one of the same order. -/
  | merge (c : C)
  | report (c : C) (success : Bool)

section
variable [DecidableEq κ] (key : C → κ) (tag : C → Nat)

def Ledger.Next (l l' : Ledger κ C) : Event κ C → Prop
  | .quiet => l' = l
  | .accept c => tag c = l.generation (key c) + 1 ∧
      l' = ⟨Function.update l.phase (key c) .waiting,
        Function.update l.generation (key c) (tag c), c ::ₘ l.waiting, l.taken⟩
  | .withdraw c => ∃ rest, l.waiting = c ::ₘ rest ∧
      l' = { l with phase := Function.update l.phase (key c) (l.phase (key c)).closed
                    waiting := rest }
  | .cancel k => l' = { l with phase := Function.update l.phase k (l.phase k).closed }
  | .revive c => l' = { l with waiting := c ::ₘ l.waiting }
  | .hand c => ∃ rest, l.waiting = c ::ₘ rest ∧
      l' = { l with phase := Function.update l.phase (key c) (l.phase (key c)).handed
                    waiting := rest, taken := c ::ₘ l.taken }
  | .lose c => ∃ rest, l.taken = c ::ₘ rest ∧ l' = { l with taken := rest }
  | .merge c => ∃ rest, l.taken = c ::ₘ rest ∧ (∃ d ∈ rest, key d = key c) ∧
      l' = { l with taken := rest }
  | .report c success => ∃ rest, l.taken = c ::ₘ rest ∧
      l' = { l with
        phase := Function.update l.phase (key c) ((l.phase (key c)).reported success)
        taken := rest }

def copies (m : Multiset C) (k : κ) : Nat := m.countP (key · = k)

/-- No order has lost its last copy. -/
def Ledger.Complete (l : Ledger κ C) : Prop :=
  ∀ k, (l.phase k = .waiting → 0 < copies key l.waiting k) ∧
    (l.phase k = .taken → 0 < copies key l.taken k)

/-- No order has a copy it should not have. -/
def Ledger.Single (l : Ledger κ C) : Prop :=
  ∀ k, copies key l.waiting k ≤ (if l.phase k = .waiting then 1 else 0) ∧
    copies key l.taken k ≤ (if l.phase k = .taken then 1 else 0)

/-- Every copy belongs to the current generation of its order; generations count from one. -/
structure Ledger.Current (l : Ledger κ C) : Prop where
  tagged : ∀ c ∈ l.waiting + l.taken, tag c = l.generation (key c)
  unborn : ∀ k, l.phase k = .absent → l.generation k = 0

variable {key tag} {l l' : Ledger κ C} {e : Event κ C}

theorem copies_cons (c : C) (m : Multiset C) (k : κ) :
    copies key (c ::ₘ m) k = copies key m k + if key c = k then 1 else 0 :=
  Multiset.countP_cons _ _ _

theorem copies_cons_self (c : C) (m : Multiset C) :
    copies key (c ::ₘ m) (key c) = copies key m (key c) + 1 := by
  rw [copies_cons, if_pos rfl]

theorem copies_cons_of_ne {c : C} {k : κ} (differs : key c ≠ k) (m : Multiset C) :
    copies key (c ::ₘ m) k = copies key m k := by
  rw [copies_cons, if_neg differs]
  rfl

theorem Ledger.Single.phase_waiting (single : l.Single key) {c : C} {rest : Multiset C}
    (held : l.waiting = c ::ₘ rest) : l.phase (key c) = .waiting ∧ copies key rest (key c) = 0 := by
  have bound := (single (key c)).1
  rw [held, copies_cons_self] at bound
  split_ifs at bound with here
  · exact ⟨here, by omega⟩
  · omega

theorem Ledger.Single.phase_taken (single : l.Single key) {c : C} {rest : Multiset C}
    (held : l.taken = c ::ₘ rest) : l.phase (key c) = .taken ∧ copies key rest (key c) = 0 := by
  have bound := (single (key c)).2
  rw [held, copies_cons_self] at bound
  split_ifs at bound with here
  · exact ⟨here, by omega⟩
  · omega

theorem Ledger.Next.drops {c : C} (step : l.Next key tag l' e)
    (dropped : e = .lose c ∨ e = .merge c) :
    ∃ rest, l.taken = c ::ₘ rest ∧ l' = { l with taken := rest } := by
  rcases dropped with rfl | rfl
  · exact step
  · obtain ⟨rest, held, _, same⟩ := step
    exact ⟨rest, held, same⟩

theorem closed_ne_waiting (p : Phase) : p.closed ≠ .waiting := by cases p <;> decide

theorem closed_ne_taken (p : Phase) : p.closed ≠ .taken := by cases p <;> decide

theorem handed_ne_waiting (p : Phase) : p.handed ≠ .waiting := by cases p <;> decide

theorem reported_ne_taken (success : Bool) (p : Phase) : p.reported success ≠ .taken := by
  cases p <;> cases success <;> decide

theorem waiting_of_reported {success : Bool} {p : Phase} (here : p.reported success = .waiting) :
    p = .waiting := by
  revert here
  cases p <;> cases success <;> decide

theorem Ledger.Complete.next (complete : l.Complete key) (step : l.Next key tag l' e)
    (kept : ∀ c, e ≠ .lose c) : l'.Complete key := by
  intro k
  have before := complete k
  cases e with
  | quiet =>
    rw [(step : l' = l)]
    exact before
  | accept c =>
    obtain ⟨_, rfl⟩ := step
    by_cases same : key c = k
    · subst same
      simp [copies_cons_self]
    · simpa [Function.update_of_ne (Ne.symm same), copies_cons_of_ne same] using before
  | withdraw c =>
    obtain ⟨rest, held, rfl⟩ := step
    by_cases same : key c = k
    · subst same
      simp [closed_ne_waiting, closed_ne_taken]
    · simpa [held, Function.update_of_ne (Ne.symm same), copies_cons_of_ne same] using before
  | cancel j =>
    rw [(step : l' = _)]
    by_cases same : j = k
    · subst same
      simp [closed_ne_waiting, closed_ne_taken]
    · simpa [Function.update_of_ne (Ne.symm same)] using before
  | revive c =>
    rw [(step : l' = _)]
    refine ⟨fun here => ?_, before.2⟩
    have := before.1 here
    simp only [copies_cons]
    omega
  | hand c =>
    obtain ⟨rest, held, rfl⟩ := step
    by_cases same : key c = k
    · subst same
      simp [handed_ne_waiting, copies_cons_self]
    · simpa [held, Function.update_of_ne (Ne.symm same), copies_cons_of_ne same] using before
  | lose c => exact absurd rfl (kept c)
  | merge c =>
    obtain ⟨rest, held, ⟨d, member, twin⟩, rfl⟩ := step
    refine ⟨before.1, fun here => ?_⟩
    by_cases same : key c = k
    · exact Multiset.countP_pos.mpr ⟨d, member, twin.trans same⟩
    · simpa [held, copies_cons_of_ne same] using before.2 here
  | report c success =>
    obtain ⟨rest, held, rfl⟩ := step
    by_cases same : key c = k
    · subst same
      simp only [Function.update_self]
      refine ⟨fun here => before.1 (waiting_of_reported here), fun here => ?_⟩
      exact absurd here (reported_ne_taken success _)
    · simpa [held, Function.update_of_ne (Ne.symm same), copies_cons_of_ne same] using before

theorem Ledger.Single.next (single : l.Single key) (step : l.Next key tag l' e)
    (known : ∀ k, e ≠ .cancel k) (settled : ∀ c, e ≠ .revive c)
    (free : ∀ c, e = .accept c → l.phase (key c) = .absent ∨ l.phase (key c) = .over) :
    l'.Single key := by
  intro k
  have before := single k
  cases e with
  | quiet =>
    rw [(step : l' = l)]
    exact before
  | accept c =>
    obtain ⟨_, rfl⟩ := step
    by_cases same : key c = k
    · subst same
      have unused : copies key l.waiting (key c) = 0 ∧ copies key l.taken (key c) = 0 := by
        rcases free c rfl with here | here <;> simpa [here] using before
      simp [copies_cons_self, unused.1, unused.2]
    · simpa [Function.update_of_ne (Ne.symm same), copies_cons_of_ne same] using before
  | withdraw c =>
    obtain ⟨rest, held, rfl⟩ := step
    by_cases same : key c = k
    · subst same
      have ⟨here, alone⟩ := single.phase_waiting held
      simpa [here, alone, Phase.closed] using before.2
    · simpa [held, Function.update_of_ne (Ne.symm same), copies_cons_of_ne same] using before
  | cancel j => exact absurd rfl (known j)
  | revive c => exact absurd rfl (settled c)
  | hand c =>
    obtain ⟨rest, held, rfl⟩ := step
    by_cases same : key c = k
    · subst same
      have ⟨here, alone⟩ := single.phase_waiting held
      have untaken : copies key l.taken (key c) = 0 := by simpa [here] using before.2
      simp [here, alone, untaken, Phase.handed, copies_cons_self]
    · simpa [held, Function.update_of_ne (Ne.symm same), copies_cons_of_ne same] using before
  | lose c | merge c =>
    obtain ⟨rest, held, same⟩ := step.drops (c := c) (by simp)
    have fewer : copies key l.taken k = copies key rest k + if key c = k then 1 else 0 :=
      held ▸ copies_cons c rest k
    rw [same]
    exact ⟨before.1, by dsimp only; omega⟩
  | report c success =>
    obtain ⟨rest, held, rfl⟩ := step
    by_cases same : key c = k
    · subst same
      have ⟨here, alone⟩ := single.phase_taken held
      simpa [here, alone, Phase.reported] using before.1
    · simpa [held, Function.update_of_ne (Ne.symm same), copies_cons_of_ne same] using before

theorem Ledger.Current.update (current : l.Current key tag) {k : κ} {p : Phase}
    (present : p = .absent → l.phase k = .absent) {waiting taken : Multiset C}
    (fewer : ∀ c ∈ waiting + taken, c ∈ l.waiting + l.taken) :
    Ledger.Current key tag ⟨Function.update l.phase k p, l.generation, waiting, taken⟩ := by
  refine ⟨fun c member => current.tagged c (fewer c member), fun j absent => ?_⟩
  apply current.unborn
  by_cases same : j = k
  · subst same
    simp only [Function.update_self] at absent
    exact present absent
  · simpa only [Function.update_of_ne same] using absent

theorem Ledger.Current.accept (current : l.Current key tag) {c : C}
    (others : ∀ d ∈ l.waiting + l.taken, key d ≠ key c) :
    Ledger.Current key tag ⟨Function.update l.phase (key c) .waiting,
      Function.update l.generation (key c) (tag c), c ::ₘ l.waiting, l.taken⟩ := by
  refine ⟨fun d member => ?_, fun k absent => ?_⟩
  · rw [Multiset.cons_add, Multiset.mem_cons] at member
    rcases member with rfl | old
    · simp
    · simpa [Function.update_of_ne (others d old)] using current.tagged d old
  · by_cases same : k = key c
    · subst same
      simp at absent
    · simp only [Function.update_of_ne same] at absent ⊢
      exact current.unborn k absent

theorem Ledger.Current.next (current : l.Current key tag) (positive : ∀ c, 0 < tag c)
    (step : l.Next key tag l' e)
    (clean : ∀ c, e = .accept c → l.phase (key c) ≠ .absent →
      ∀ d ∈ l.waiting + l.taken, key d ≠ key c)
    (fresh : ∀ c, e = .revive c → tag c = l.generation (key c)) : l'.Current key tag := by
  cases e with
  | quiet =>
    rw [(step : l' = l)]
    exact current
  | accept c =>
    obtain ⟨_, rfl⟩ := step
    apply current.accept
    by_cases absent : l.phase (key c) = .absent
    · intro d member same
      have old := current.tagged d member
      rw [same, current.unborn _ absent] at old
      exact absurd (positive d) (by omega)
    · exact clean c rfl absent
  | withdraw c =>
    obtain ⟨rest, held, rfl⟩ := step
    apply current.update
    · cases l.phase (key c) <;> simp [Phase.closed]
    · intro d member
      rw [held, Multiset.cons_add]
      exact Multiset.mem_cons_of_mem member
  | cancel k =>
    rw [(step : l' = _)]
    apply current.update
    · cases l.phase k <;> simp [Phase.closed]
    · exact fun d member => member
  | revive c =>
    rw [(step : l' = _)]
    refine ⟨fun d member => ?_, current.unborn⟩
    rw [Multiset.cons_add, Multiset.mem_cons] at member
    rcases member with rfl | old
    · exact fresh d rfl
    · exact current.tagged d old
  | hand c =>
    obtain ⟨rest, held, rfl⟩ := step
    apply current.update
    · cases l.phase (key c) <;> simp [Phase.handed]
    · intro d member
      rwa [held, Multiset.cons_add, ← Multiset.add_cons]
  | lose c | merge c =>
    obtain ⟨rest, held, same⟩ := step.drops (c := c) (by simp)
    rw [same]
    refine ⟨fun d member => current.tagged d ?_, current.unborn⟩
    rw [held, Multiset.add_cons]
    exact Multiset.mem_cons_of_mem member
  | report c success =>
    obtain ⟨rest, held, rfl⟩ := step
    apply current.update
    · cases l.phase (key c) <;> cases success <;> simp [Phase.reported]
    · intro d member
      rw [held, Multiset.add_cons]
      exact Multiset.mem_cons_of_mem member

end

end DropPlatform.CopyLedger
