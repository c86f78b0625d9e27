import Mathlib.Tactic

/-! Whole numbers in the binary format of 64 bits with 53 bits of precision: the nearest such
number, sums that are rounded to it, and that both are exact below two to the power of 53. -/

namespace DropPlatform.WholeFloats

/-- Every `float64` is below two to this power. -/
def maxExponent : Nat := 1024

/-- The `float64` nearest to a whole number, ties to even; `none` if no `float64` is so large. -/
def roundToFloat64 (n : Nat) : Option Nat :=
  let unit := 2 ^ (n.log2 - 52)
  let below := n / unit
  let rest := n % unit
  let mantissa := if 2 * rest > unit ∨ 2 * rest = unit ∧ below % 2 = 1 then below + 1 else below
  if mantissa * unit < 2 ^ maxExponent then some (mantissa * unit) else none

theorem roundToFloat64_of_lt {n : Nat} (small : n < 2 ^ 53) : roundToFloat64 n = some n := by
  have bits : n.log2 - 52 = 0 := by
    by_cases zero : n = 0
    · subst zero
      rfl
    · have below := (Nat.log2_lt zero).mpr small
      omega
  have bound : n < 2 ^ maxExponent := small.trans (Nat.pow_lt_pow_right (by decide) (by decide))
  have whole : ¬ (2 * (n % 1) > 1 ∨ 2 * (n % 1) = 1 ∧ n % 2 = 1) := by omega
  simp only [roundToFloat64, bits, pow_zero, Nat.div_one, Nat.mul_one, whole, if_false, bound,
    if_true]

theorem ne_zero_of_round {n x : Nat} (rounded : roundToFloat64 n = some x) (filled : n ≠ 0) :
    x ≠ 0 := by
  have reach : 2 ^ (n.log2 - 52) ≤ n :=
    (Nat.pow_le_pow_right (by decide) (Nat.sub_le _ _)).trans (Nat.log2_self_le filled)
  have unit : 0 < 2 ^ (n.log2 - 52) := Nat.two_pow_pos _
  have below : 0 < n / 2 ^ (n.log2 - 52) := Nat.div_pos reach unit
  simp only [roundToFloat64] at rounded
  split_ifs at rounded
  · rw [← Option.some.inj rounded]
    positivity
  · rw [← Option.some.inj rounded]
    positivity

/-- The rounded sum of two such numbers; `none` is infinity. -/
def add : Option Nat → Option Nat → Option Nat
  | some a, some b => roundToFloat64 (a + b)
  | _, _ => none

theorem add_of_lt {a b : Nat} (small : a + b < 2 ^ 53) : add (some a) (some b) = some (a + b) := by
  rw [add, roundToFloat64_of_lt small]

end DropPlatform.WholeFloats
