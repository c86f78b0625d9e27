import Mathlib.Logic.Function.Basic
import Mathlib.Tactic

/-! Mutual exclusion by one mutex that is not recursive. A thread may be inside the critical
section more than once, since a signal handler runs on top of whatever its thread was doing;
`inside` counts these calls. The mutex is exclusive when its holder is inside once and nobody
else is. -/

namespace DropPlatform.Mutexes

variable {T : Type*} [DecidableEq T] {holder : Option T} {inside : T → Nat} {t u : T}

def Exclusive (holder : Option T) (inside : T → Nat) : Prop :=
  ∀ t, inside t = if holder = some t then 1 else 0

theorem Exclusive.holder_eq (ex : Exclusive holder inside) (enters : inside t ≠ 0) :
    holder = some t := by
  by_contra other
  exact enters ((ex t).trans (if_neg other))

theorem Exclusive.outside (ex : Exclusive holder inside) (other : holder ≠ some t) :
    inside t = 0 :=
  (ex t).trans (if_neg other)

theorem Exclusive.acquire (ex : Exclusive none inside) (t : T) :
    Exclusive (some t) (Function.update inside t (inside t + 1)) := by
  intro u
  have before : ∀ u, inside u = 0 := fun u => ex.outside (Option.some_ne_none u).symm
  by_cases same : u = t
  · rw [same, Function.update_self, before, if_pos rfl]
  · rw [Function.update_of_ne same, before, if_neg fun equal => same (Option.some.inj equal).symm]

theorem Exclusive.release (ex : Exclusive holder inside) (enters : inside t ≠ 0) :
    Exclusive none (Function.update inside t (inside t - 1)) := by
  intro u
  have holds := ex.holder_eq enters
  rw [if_neg (Option.some_ne_none u).symm]
  by_cases same : u = t
  · rw [same, Function.update_self, ex t, if_pos holds]
  · rw [Function.update_of_ne same]
    exact ex.outside fun equal => same (Option.some.inj (equal.symm.trans holds))

end DropPlatform.Mutexes
