/-
# The nearest double

Every fraction has a nearest double.  Where two are equally near, the one with the even last
bit is taken, and what is too large for every finite double goes to infinity.

The magnitude bits of the doubles are in the order of their values, and adding one to them goes
to the next double, across the powers of two as well.  So it is enough to find the power of two
that separates neighbours around the fraction, and to round the fraction to a multiple of it.
-/
import Scriptlet.Binary64.Basic

namespace Scriptlet.Binary64

/-- The quotient of `a` by `b` rounded to the nearest whole number, a half to the even one. -/
def roundDiv (a b : Nat) : Nat :=
  if 2 * (a % b) < b ∨ 2 * (a % b) = b ∧ a / b % 2 = 0 then a / b else a / b + 1

/-- The magnitude bits of the double nearest to `num / den`.  Neighbouring doubles there are
`2 ^ t` units apart. -/
def nearestBits (num den : Nat) : Nat :=
  let t := (num * one / den).log2 - 52
  min (t * Nat.pow 2 52 + roundDiv (num * one) (den * Nat.pow 2 t)) infinity

/-- The double nearest to `num / den`. -/
def nearest (num den : Nat) : Binary64 := ⟨UInt64.ofNat (nearestBits num den)⟩

/-! ## Rounded quotients -/

/-- A rounded quotient is the quotient or the number after it. -/
theorem roundDiv_eq_or (a b : Nat) : roundDiv a b = a / b ∨ roundDiv a b = a / b + 1 := by
  unfold roundDiv
  split <;> simp

/-- An exact quotient is not changed by rounding. -/
theorem roundDiv_mul {b : Nat} (hb : 0 < b) (q : Nat) : roundDiv (q * b) b = q := by
  simp [roundDiv, hb]

/-- The rounded quotient is off by at most a half. -/
theorem roundDiv_close {a b : Nat} (hb : 0 < b) :
    2 * a ≤ (2 * roundDiv a b + 1) * b ∧ 2 * roundDiv a b * b ≤ 2 * a + b := by
  have hdiv : b * (a / b) + a % b = a := Nat.div_add_mod a b
  have hmod : a % b < b := Nat.mod_lt a hb
  have expand : ∀ k, 2 * k * b = 2 * (b * k) := fun k => by rw [Nat.mul_assoc, Nat.mul_comm k]
  unfold roundDiv
  split
  · rw [Nat.add_mul, Nat.one_mul, expand]
    omega
  · rw [Nat.add_mul, Nat.one_mul, expand, Nat.mul_add, Nat.mul_one]
    omega

end Scriptlet.Binary64
