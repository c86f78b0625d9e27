import Mathlib.Logic.Relation
import Mathlib.Tactic

/-! Runs of guarded step functions and the linked histories they write.
A step function may refuse an action; a guard selects the actions that a run is
allowed to take. Nothing here depends on what the states or actions are. -/

namespace DropPlatform.TransitionRuns

variable {S A : Type*} {step : S → A → Option S} {guard : S → A → Prop}

def Step (step : S → A → Option S) (guard : S → A → Prop) (s t : S) : Prop :=
  ∃ a, guard s a ∧ step s a = some t

abbrev Reaches (step : S → A → Option S) (guard : S → A → Prop) : S → S → Prop :=
  Relation.ReflTransGen (Step step guard)

/-- The guard that every action passes. -/
def free : S → A → Prop := fun _ _ => True

instance : ∀ (s : S) (a : A), Decidable (free s a) := fun _ _ => .isTrue trivial

theorem Reaches.invariant {s t : S} (inv : S → Prop)
    (keeps : ∀ s a t, inv s → guard s a → step s a = some t → inv t)
    (start : inv s) (run : Reaches step guard s t) : inv t := by
  induction run with
  | refl => exact start
  | tail _ last ih =>
    obtain ⟨a, ok, next⟩ := last
    exact keeps _ a _ ih ok next

theorem Reaches.related {s t : S} (inv : S → Prop) (rel : S → S → Prop)
    (keeps : ∀ s a t, inv s → guard s a → step s a = some t → inv t)
    (same : ∀ s, rel s s)
    (extend : ∀ s a t u, inv t → guard t a → step t a = some u → rel s t → rel s u)
    (start : inv s) (run : Reaches step guard s t) : rel s t := by
  have both : inv t ∧ rel s t := by
    induction run with
    | refl => exact ⟨start, same s⟩
    | tail _ last ih =>
      obtain ⟨a, ok, next⟩ := last
      exact ⟨keeps _ a _ ih.1 ok next, extend s a _ _ ih.1 ok next ih.2⟩
  exact both.2

theorem Reaches.weaken {s t : S} {guard' : S → A → Prop} (inv : S → Prop)
    (keeps : ∀ s a t, inv s → guard s a → step s a = some t → inv t)
    (weaker : ∀ s a, inv s → guard s a → guard' s a)
    (start : inv s) (run : Reaches step guard s t) : Reaches step guard' s t := by
  induction run with
  | refl => exact .refl
  | tail before last ih =>
    obtain ⟨a, ok, next⟩ := last
    have here := Reaches.invariant inv keeps start before
    exact .tail ih ⟨a, weaker _ a here ok, next⟩

/-- Executes a list of actions, stopping with `none` at the first action that
the guard or the step function refuses. -/
def execute (step : S → A → Option S) (guard : S → A → Prop)
    [∀ s a, Decidable (guard s a)] : S → List A → Option S
  | s, [] => some s
  | s, a :: rest => if guard s a then (step s a).bind (execute step guard · rest) else none

theorem reaches_of_execute [∀ s a, Decidable (guard s a)] {s t : S} (actions : List A)
    (done : execute step guard s actions = some t) : Reaches step guard s t := by
  induction actions generalizing s with
  | nil =>
    simp only [execute, Option.some.injEq] at done
    exact done ▸ .refl
  | cons a rest ih =>
    simp only [execute] at done
    split_ifs at done with ok
    obtain ⟨u, next, last⟩ := Option.bind_eq_some_iff.mp done
    exact .head ⟨a, ok, next⟩ (ih last)

section trace
variable {next : S → A → S}

/-- The steps of a run of a total step function: the state before, the action, the state after. -/
def trace (next : S → A → S) : S → List A → List (S × A × S)
  | _, [] => []
  | s, a :: rest => (s, a, next s a) :: trace next (next s a) rest

theorem trace_iff_ahead (strong : S → List A → Prop) (weak : S → Prop) (ok : S → A → Prop)
    (keeps : ∀ s a rest, strong s (a :: rest) → ok s a → strong (next s a) rest)
    (implies : ∀ s rest, strong s rest → weak s)
    (breaks : ∀ s a rest, strong s (a :: rest) → weak (next s a) → ok s a)
    {s : S} {actions : List A} (start : strong s actions) :
    (∀ t ∈ trace next s actions, weak t.2.2) ↔ ∀ t ∈ trace next s actions, ok t.1 t.2.1 := by
  induction actions generalizing s with
  | nil => simp [trace]
  | cons a rest ih =>
    simp only [trace, List.forall_mem_cons]
    constructor
    · rintro ⟨first, others⟩
      have met := breaks s a rest start first
      exact ⟨met, (ih (keeps s a rest start met)).mp others⟩
    · rintro ⟨met, others⟩
      have reached := keeps s a rest start met
      exact ⟨implies _ rest reached, (ih reached).mpr others⟩

theorem trace_iff {strong weak : S → Prop} {ok : S → A → Prop}
    (keeps : ∀ s a, strong s → ok s a → strong (next s a))
    (implies : ∀ s, strong s → weak s)
    (breaks : ∀ s a, strong s → weak (next s a) → ok s a)
    {s : S} (start : strong s) (actions : List A) :
    (∀ t ∈ trace next s actions, weak t.2.2) ↔ ∀ t ∈ trace next s actions, ok t.1 t.2.1 :=
  trace_iff_ahead (fun s _ => strong s) weak ok (fun s a _ => keeps s a) (fun s _ => implies s)
    (fun s a _ => breaks s a) start

end trace

/-- `Linked R a rows b`: the rows are pairs (old, new) that lead from `a` to `b`,
each starting where the previous one ended and each related by `R`. -/
def Linked {σ : Type*} (R : σ → σ → Prop) : σ → List (σ × σ) → σ → Prop
  | a, [], b => a = b
  | a, row :: rows, b => row.1 = a ∧ R row.1 row.2 ∧ Linked R row.2 rows b

section Linked
variable {σ : Type*} {R : σ → σ → Prop} {a b c : σ}

instance decidableLinked [DecidableEq σ] [∀ x y, Decidable (R x y)] :
    ∀ (a : σ) (rows : List (σ × σ)) (b : σ), Decidable (Linked R a rows b)
  | a, [], b => inferInstanceAs (Decidable (a = b))
  | a, row :: rows, b =>
    have : Decidable (Linked R row.2 rows b) := decidableLinked row.2 rows b
    inferInstanceAs (Decidable (row.1 = a ∧ R row.1 row.2 ∧ Linked R row.2 rows b))

theorem linked_append {rows more : List (σ × σ)} :
    Linked R a (rows ++ more) c ↔ ∃ b, Linked R a rows b ∧ Linked R b more c := by
  induction rows generalizing a with
  | nil => simp [Linked]
  | cons row rows ih => simp [Linked, ih, and_assoc]

theorem Linked.snoc {rows : List (σ × σ)} (path : Linked R a rows b) (next : R b c) :
    Linked R a (rows ++ [(b, c)]) c :=
  linked_append.mpr ⟨b, path, rfl, next, rfl⟩

theorem Linked.nothing_after {before after : List (σ × σ)} {row : σ × σ}
    (path : Linked R a (before ++ row :: after) b) (final : ∀ x, ¬ R row.2 x) :
    after = [] := by
  obtain ⟨_, _, _, _, rest⟩ := linked_append.mp path
  cases after with
  | nil => rfl
  | cons next after => exact absurd (rest.1 ▸ rest.2.1) (final next.2)

end Linked

end DropPlatform.TransitionRuns
