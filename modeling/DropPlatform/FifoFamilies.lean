import Mathlib.Logic.Function.Basic
import Mathlib.Tactic

/-! Families of first-in first-out queues, one for each key, and what an object that
answers calls like such a family shows to its callers. A history is the list of calls in
the order in which they took effect, each with its reply. -/

namespace DropPlatform.FifoFamilies

variable {κ α S : Type*} [DecidableEq κ]

inductive Call (κ α : Type*)
  | push (k : κ) (x : α)
  | pop (k : κ)
  | size (k : κ)
deriving DecidableEq, Repr

inductive Reply (α : Type*)
  | done
  | popped (x : Option α)
  | size (n : Nat)
deriving DecidableEq, Repr

def Call.key : Call κ α → κ
  | .push k _ => k
  | .pop k => k
  | .size k => k

abbrev Family (κ α : Type*) := κ → List α

def Family.answer (q : Family κ α) : Call κ α → Family κ α × Reply α
  | .push k x => (Function.update q k (q k ++ [x]), .done)
  | .pop k => (Function.update q k (q k).tail, .popped (q k).head?)
  | .size k => (q, .size (q k).length)

abbrev History (κ α : Type*) := List (Call κ α × Reply α)

def record (answer : S → Call κ α → S × Reply α) : S → List (Call κ α) → S × History κ α
  | s, [] => (s, [])
  | s, call :: calls =>
    let (next, reply) := answer s call
    let (last, history) := record answer next calls
    (last, (call, reply) :: history)

/-- What was pushed to a key, oldest first. -/
def pushed (k : κ) (history : History κ α) : List α :=
  history.filterMap fun event => match event.1 with
    | .push j x => if j = k then some x else none
    | _ => none

def popped (k : κ) (history : History κ α) : List α :=
  history.filterMap fun event => match event with
    | (.pop j, .popped x) => if j = k then x else none
    | _ => none

section one_call
variable (q : Family κ α) (call : Call κ α) (k : κ)

theorem answer_other {call : Call κ α} {k : κ} (other : call.key ≠ k) :
    (q.answer call).1 k = q k := by
  cases call with
  | push j x => exact Function.update_of_ne other.symm _ q
  | pop j => exact Function.update_of_ne other.symm _ q
  | size j => rfl

theorem popped_append_answer :
    popped k [(call, (q.answer call).2)] ++ (q.answer call).1 k =
      q k ++ pushed k [(call, (q.answer call).2)] := by
  by_cases here : call.key = k
  · subst here
    cases call with
    | push j x => simp [popped, pushed, Family.answer, Call.key]
    | pop j =>
      cases held : q j with
      | nil => simp [popped, pushed, Family.answer, Call.key, held]
      | cons x rest => simp [popped, pushed, Family.answer, Call.key, held]
    | size j => simp [popped, pushed, Family.answer, Call.key]
  · rw [answer_other q here]
    cases call with
    | push j x =>
      have other : j ≠ k := here
      simp [popped, pushed, Family.answer, other]
    | pop j =>
      have other : j ≠ k := here
      simp [popped, pushed, Family.answer, other]
    | size j => simp [popped, pushed, Family.answer]

end one_call

theorem pushed_cons (k : κ) (event : Call κ α × Reply α) (history : History κ α) :
    pushed k (event :: history) = pushed k [event] ++ pushed k history :=
  List.filterMap_append (l := [event])

theorem popped_cons (k : κ) (event : Call κ α × Reply α) (history : History κ α) :
    popped k (event :: history) = popped k [event] ++ popped k history :=
  List.filterMap_append (l := [event])

/-- An object whose calls are those of the family that it is viewed as. -/
structure Implements (answer : S → Call κ α → S × Reply α) (view : S → Family κ α) : Prop where
  next : ∀ s call, view (answer s call).1 = ((view s).answer call).1
  reply : ∀ s call, (answer s call).2 = ((view s).answer call).2

namespace Implements
variable {answer : S → Call κ α → S × Reply α} {view : S → Family κ α}

theorem record_eq (impl : Implements answer view) (s : S) (calls : List (Call κ α)) :
    view (record answer s calls).1 = (record Family.answer (view s) calls).1 ∧
      (record answer s calls).2 = (record Family.answer (view s) calls).2 := by
  induction calls generalizing s with
  | nil => exact ⟨rfl, rfl⟩
  | cons call calls ih =>
    obtain ⟨state, history⟩ := ih (answer s call).1
    simp only [record]
    rw [impl.next] at state history
    rw [impl.reply, state, history]
    exact ⟨rfl, rfl⟩

theorem popped_append_view (impl : Implements answer view) (s : S) (calls : List (Call κ α))
    (k : κ) : popped k (record answer s calls).2 ++ view (record answer s calls).1 k =
      view s k ++ pushed k (record answer s calls).2 := by
  induction calls generalizing s with
  | nil => simp [record, popped, pushed]
  | cons call calls ih =>
    have first := popped_append_answer (view s) call k
    have rest := ih (answer s call).1
    simp only [record]
    rw [popped_cons, pushed_cons, List.append_assoc, rest, impl.next, impl.reply,
      ← List.append_assoc, first, List.append_assoc]

end Implements

end DropPlatform.FifoFamilies
