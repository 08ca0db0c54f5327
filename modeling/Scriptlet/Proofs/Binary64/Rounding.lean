/-
# Rounding to the nearest double

What `nearest` gives for a whole number is what its name says: no finite double is nearer to the
number, and where another one is equally near, the last bit is clear (`isNearest_nearest`).  It is
finite exactly for the numbers below `2 ^ 1024 - 2 ^ 970`, the middle between the largest finite
double and the power of two behind it (`isFinite_nearest_iff`).

Around a number of at least `2 ^ (52 + t)` units the doubles are the multiples of `2 ^ t` units.  So
rounding is first studied for multiples.  A double that is no such multiple is smaller than
`2 ^ (52 + t)` units, and this power, which is a multiple, is nearer.
-/
import Scriptlet.Proofs.Binary64.Whole

namespace Scriptlet.Binary64

/-- The units of a finite number, with its sign. -/
def signedUnits (x : Binary64) : ℤ := if x.isNegative then -(x.units : ℤ) else x.units

/-- The value of a finite number. -/
def value (x : Binary64) : ℚ := x.signedUnits / one

/-- `x` is the double nearest to `r`, with ties to even. -/
structure IsNearest (x : Binary64) (r : ℚ) : Prop where
  /-- It is finite. -/
  finite : x.isFinite
  /-- No finite double is nearer. -/
  least : ∀ y : Binary64, y.isFinite → |x.value - r| ≤ |y.value - r|
  /-- Where another value is equally near, the last bit is clear. -/
  even : ∀ y : Binary64, y.isFinite → |y.value - r| = |x.value - r| → y.value ≠ x.value →
    x.bits.toNat % 2 = 0

/-! ## The nearest multiple -/

section Multiple

variable {a b : Nat} (hb : 0 < b)

include hb

/-- A rounded quotient is nearest, and at most half of the divisor away. -/
lemma roundDiv_apart {k : ℤ} (hk : k ≠ roundDiv a b) :
    2 * |(roundDiv a b * b : ℤ) - a| ≤ b ∧
      (b : ℤ) ≤ |(roundDiv a b * b : ℤ) - a| + |k * b - a| := by
  obtain ⟨hlo, hhi⟩ := roundDiv_close (a := a) hb
  generalize roundDiv a b = q at *
  zify at hlo hhi
  have hclose : 2 * |(q * b : ℤ) - a| ≤ b := by
    rw [← abs_two, ← abs_mul, abs_le]
    constructor <;> nlinarith
  refine ⟨hclose, ?_⟩
  -- Different multiples are at least the divisor apart.
  have hfar : (b : ℤ) ≤ |(q * b : ℤ) - k * b| := by
    rw [← sub_mul, abs_mul, Nat.abs_cast]
    exact le_mul_of_one_le_left (by omega) (Int.one_le_abs (sub_ne_zero.mpr hk.symm))
  calc
    (b : ℤ) ≤ |(q * b : ℤ) - k * b| := hfar
    _ ≤ |(q * b : ℤ) - a| + |a - k * b| := abs_sub_le _ _ _
    _ = |(q * b : ℤ) - a| + |k * b - a| := by rw [abs_sub_comm (a : ℤ)]

/-- **No multiple is nearer than the rounded one.** -/
lemma abs_roundDiv_sub_le (k : ℤ) : |(roundDiv a b * b : ℤ) - a| ≤ |k * b - a| := by
  by_cases hk : k = roundDiv a b
  · rw [hk]
  · obtain ⟨hclose, hfar⟩ := roundDiv_apart hb hk
    omega

/-- **Of two multiples that are equally near, the even one is taken.** -/
lemma roundDiv_even {k : ℤ} (hk : k ≠ roundDiv a b)
    (h : |k * b - a| = |(roundDiv a b * b : ℤ) - a|) : roundDiv a b % 2 = 0 := by
  obtain ⟨hclose, hfar⟩ := roundDiv_apart hb hk
  have hhalf : 2 * |(roundDiv a b * b : ℤ) - a| = b := by omega
  have hdiv : (b : ℤ) * (a / b) + a % b = a := by exact_mod_cast Nat.div_add_mod a b
  have hmod : a % b < b := Nat.mod_lt a hb
  unfold roundDiv at hhalf ⊢
  split at hhalf
  · next hdown =>
    rw [if_pos hdown]
    have hrest : ((a / b : Nat) * b : ℤ) - a = -(a % b : Nat) := by
      push_cast
      linarith
    rw [hrest, abs_neg, Nat.abs_cast] at hhalf
    omega
  · next hup =>
    rw [if_neg hup]
    have hrest : ((a / b + 1 : Nat) * b : ℤ) - a = b - (a % b : Nat) := by
      push_cast
      linarith
    rw [hrest, abs_of_nonneg (by omega)] at hhalf
    omega

/-- A quotient is rounded to less than an even number if it is below the middle before it. -/
lemma roundDiv_lt_iff {q : Nat} (heven : (q + 1) % 2 = 0) :
    roundDiv a b < q + 1 ↔ 2 * a < (2 * q + 1) * b := by
  obtain ⟨hlo, hhi⟩ := roundDiv_close (a := a) hb
  constructor
  · intro hlt
    have hmul : 2 * roundDiv a b * b ≤ 2 * q * b :=
      Nat.mul_le_mul_right b (Nat.mul_le_mul_left 2 (by omega))
    have hle : 2 * a ≤ (2 * q + 1) * b := by
      rw [Nat.add_mul, Nat.one_mul] at hlo ⊢
      omega
    -- In the middle the even number would have been taken.
    refine Nat.lt_of_le_of_ne hle fun htie => ?_
    have hround : roundDiv a b = q := by
      by_contra hne
      have hlt' : 2 * roundDiv a b + 1 < 2 * q + 1 := by omega
      have hmul' := Nat.mul_lt_mul_of_pos_right hlt' hb
      omega
    have heven' := roundDiv_even (k := q + 1) hb (by rw [hround]; omega) (by
      rw [hround]
      zify at htie
      have hmirror : ((q : ℤ) + 1) * b - a = -(q * b - a) := by linarith
      rw [hmirror, abs_neg])
    omega
  · intro hlt
    by_contra hge
    have hmul : (2 * (q + 1)) * b ≤ 2 * roundDiv a b * b :=
      Nat.mul_le_mul_right b (by omega)
    have hexpand : 2 * (q + 1) * b = (2 * q + 1) * b + b := by ring
    omega

end Multiple

/-! ## Overflow -/

/-- Where neighbours are `2 ^ t` units apart, a rounded number is not beyond the largest double
exactly if it is below the middle behind it. -/
lemma bits_lt_infinity_iff {a t m : Nat} (hm : m = 2045) (hne : a ≠ 0) (hlog : a.log2 = 52 + t) :
    t * 2 ^ 52 + roundDiv a (2 ^ t) < infinity ↔ 2 * a < (2 ^ 54 - 1) * 2 ^ m := by
  have hinfinity : infinity = (m + 2) * 2 ^ 52 := by rw [hm, infinity, Nat.pow_eq]
  obtain ⟨hlo, hhi⟩ := roundDiv_bounds hne hlog
  obtain ⟨hlow, hhigh⟩ := (Nat.log2_eq_iff hne).mp hlog
  rw [hinfinity]
  clear hm hinfinity
  rcases Nat.lt_trichotomy t m with hlt | rfl | hgt
  · have hpow : 2 ^ (52 + t + 1) ≤ 2 ^ 52 * 2 ^ m := by
      rw [← Nat.pow_add]
      exact Nat.pow_le_pow_right Nat.two_pos (by omega)
    constructor <;> intro <;> omega
  · have heven := roundDiv_lt_iff (a := a) (Nat.two_pow_pos t) (q := 2 ^ 53 - 1) (by omega)
    constructor
    · intro h
      exact heven.mp (by omega)
    · intro h
      have := heven.mpr h
      omega
  · have hpow : 2 ^ 53 * 2 ^ m ≤ 2 ^ (52 + t) := by
      rw [← Nat.pow_add]
      exact Nat.pow_le_pow_right Nat.two_pos (by omega)
    constructor <;> intro <;> omega

/-- The middle behind the largest double, as a whole number and in units. -/
lemma lt_threshold_iff {n i j m : Nat} (hm : m = i + j + 1) :
    n < 2 ^ (54 + i) - 2 ^ i ↔ 2 * (n * 2 ^ j) < (2 ^ 54 - 1) * 2 ^ m := by
  have hpos : 0 < 2 * 2 ^ j := Nat.mul_pos Nat.two_pos (Nat.two_pow_pos j)
  have hwhole : 2 ^ (54 + i) - 2 ^ i = (2 ^ 54 - 1) * 2 ^ i := by
    rw [Nat.pow_add, Nat.sub_mul, Nat.one_mul]
  have hunits : (2 ^ 54 - 1) * 2 ^ m = (2 ^ 54 - 1) * 2 ^ i * (2 * 2 ^ j) := by
    rw [hm, Nat.pow_succ, Nat.pow_add]
    ring
  have hleft : 2 * (n * 2 ^ j) = n * (2 * 2 ^ j) := by ring
  rw [hwhole, hunits, hleft, Nat.mul_lt_mul_right hpos]

lemma isFinite_nearest (n : Nat) : (nearest n 1).isFinite ↔ nearestBits n 1 < infinity := by
  rw [isFinite, magnitude_nearest, decide_eq_true_iff]

/-- **A whole number is rounded to a finite double exactly below `2 ^ 1024 - 2 ^ 970`.** -/
theorem isFinite_nearest_iff (n : Nat) : (nearest n 1).isFinite ↔ n < 2 ^ 1024 - 2 ^ 970 := by
  rw [isFinite_nearest]
  -- The exponents are named, so that no power is evaluated.
  obtain ⟨i, hi⟩ : ∃ i, 970 = i := ⟨_, rfl⟩
  obtain ⟨j, hj⟩ : ∃ j, 1074 = j := ⟨_, rfl⟩
  obtain ⟨m, hm⟩ : ∃ m, 2045 = m := ⟨_, rfl⟩
  have hthreshold : n < 2 ^ 1024 - 2 ^ 970 ↔ 2 * (n * one) < (2 ^ 54 - 1) * 2 ^ m := by
    have hexponent : 1024 = 54 + i := by omega
    rw [hexponent, hi, one_eq_two_pow hj]
    exact lt_threshold_iff (by omega)
  rw [hthreshold]
  rcases Nat.eq_zero_or_pos n with rfl | hpos
  · rw [nearestBits_zero, Nat.zero_mul, Nat.mul_zero]
    have hpow := Nat.two_pow_pos m
    exact iff_of_true (by decide) (by omega)
  · obtain ⟨t, hne, ht, hbits⟩ := exists_nearestBits hpos
    rw [← bits_lt_infinity_iff hm.symm hne ht, hbits]
    omega

/-! ## The nearest double -/

/-- A double whose neighbours are less than `2 ^ t` units away is smaller than the numbers around
which they are `2 ^ t` units apart. -/
lemma dvd_or_lt_unitsOf (w t : Nat) : 2 ^ t ∣ unitsOf w ∨ unitsOf w < 2 ^ 52 * 2 ^ t := by
  rcases bits_cases w with hsmall | ⟨t', q, hlo, hhi, rfl⟩
  · have hunits : unitsOf w = w := if_pos hsmall
    rw [hunits]
    have hpos := Nat.two_pow_pos t
    exact .inr (Nat.lt_of_lt_of_le hsmall (Nat.le_mul_of_pos_right _ hpos))
  · rw [unitsOf_add hlo (Nat.le_of_lt hhi)]
    rcases Nat.lt_or_ge t' t with hlt | hge
    · right
      calc
        q * 2 ^ t' < 2 ^ 53 * 2 ^ t' := Nat.mul_lt_mul_of_pos_right hhi (Nat.two_pow_pos t')
        _ = 2 ^ 52 * 2 ^ (t' + 1) := by ring
        _ ≤ 2 ^ 52 * 2 ^ t := Nat.mul_le_mul_left _ (Nat.pow_le_pow_right Nat.two_pos hlt)
    · exact .inl (Nat.dvd_mul_left_of_dvd (Nat.pow_dvd_pow 2 hge) q)

lemma dvd_or_lt_signedUnits (y : Binary64) (t : Nat) :
    (2 ^ t : ℤ) ∣ y.signedUnits ∨ y.signedUnits < 2 ^ 52 * 2 ^ t := by
  have hcases := dvd_or_lt_unitsOf y.magnitude t
  rw [← units] at hcases
  zify at hcases
  unfold signedUnits
  split
  · rcases hcases with hdvd | hlt
    · exact .inl (Int.dvd_neg.mpr hdvd)
    · right
      have hpos : (0 : ℤ) < 2 ^ 52 * 2 ^ t := by positivity
      omega
  · exact hcases

/-- The distances of doubles from a whole number compare as those of their units do. -/
lemma abs_value_sub (y : Binary64) (n : Nat) :
    |y.value - n| = (|y.signedUnits - (n * one : Nat)| : ℤ) / one := by
  have hone : (0 : ℚ) < one := by exact_mod_cast one_pos
  rw [value, div_sub' hone.ne', abs_div, abs_of_pos hone]
  push_cast
  rw [mul_comm]

lemma value_eq_iff {x y : Binary64} : y.value = x.value ↔ y.signedUnits = x.signedUnits := by
  have hone : (one : ℚ) ≠ 0 := by exact_mod_cast one_pos.ne'
  rw [value, value, div_left_inj' hone, Int.cast_inj]

/-- Around a number, the multiple of the power of two that it is rounded to is nearer than any other
double, or equally near and even. -/
lemma nearest_of_significand {a t : Nat} (hlow : 2 ^ 52 * 2 ^ t ≤ a) (y : Binary64) :
    |(roundDiv a (2 ^ t) * 2 ^ t : ℤ) - a| ≤ |y.signedUnits - a| ∧
      (|y.signedUnits - a| = |(roundDiv a (2 ^ t) * 2 ^ t : ℤ) - a| →
        y.signedUnits ≠ roundDiv a (2 ^ t) * 2 ^ t → roundDiv a (2 ^ t) % 2 = 0) := by
  have hpos : 0 < 2 ^ t := Nat.two_pow_pos t
  have hle := abs_roundDiv_sub_le (a := a) hpos
  push_cast at hle
  rcases dvd_or_lt_signedUnits y t with ⟨k, hk⟩ | hlt
  · rw [hk, mul_comm _ k]
    refine ⟨hle k, fun htie hne => roundDiv_even (k := k) hpos (fun heq => hne ?_) ?_⟩
    · rw [heq]
    · exact_mod_cast htie
  · -- The power of two is a multiple, and it is between the double and the number.
    have hpower := hle (2 ^ 52)
    zify at hlow
    have hnear : |(2 ^ 52 * 2 ^ t : ℤ) - a| < |y.signedUnits - a| := by
      rw [abs_of_nonpos (by omega), abs_of_neg (by omega)]
      omega
    have hlt' := hpower.trans_lt hnear
    exact ⟨hlt'.le, fun htie => absurd htie hlt'.ne'⟩

/-- **The double that a whole number is rounded to is the nearest one**, with ties to even. -/
theorem isNearest_nearest {n : Nat} (h : (nearest n 1).isFinite) : (nearest n 1).IsNearest n := by
  have hsigned : (nearest n 1).signedUnits = unitsOf (nearestBits n 1) := by
    rw [signedUnits, isNegative_nearest, units, magnitude_nearest]
    rfl
  have hone : (0 : ℚ) < one := by exact_mod_cast one_pos
  rcases Nat.eq_zero_or_pos n with rfl | hpos
  · have hzero : (nearest 0 1).value = 0 := by
      rw [value, hsigned, nearestBits_zero]
      exact zero_div _
    refine ⟨h, fun y _ => ?_, fun y _ htie hne => absurd ?_ hne⟩
    · simp [hzero]
    · simpa [hzero] using htie
  · obtain ⟨t, hlog, hbits, hunits⟩ := exists_significand hpos ((isFinite_nearest n).mp h)
    obtain ⟨hne, -⟩ := le_log2_mul_one hpos
    have hlow : 2 ^ 52 * 2 ^ t ≤ n * one := by
      rw [← Nat.pow_add]
      exact ((Nat.log2_eq_iff hne).mp hlog).1
    rw [hunits] at hsigned
    push_cast at hsigned
    refine ⟨h, fun y _ => ?_, fun y _ htie hvalue => ?_⟩
    · rw [abs_value_sub, abs_value_sub, hsigned]
      refine div_le_div_of_nonneg_right ?_ hone.le
      exact_mod_cast (nearest_of_significand hlow y).1
    · rw [abs_value_sub, abs_value_sub, hsigned, div_left_inj' hone.ne'] at htie
      rw [Ne, value_eq_iff, hsigned] at hvalue
      have heven := (nearest_of_significand hlow y).2 (by exact_mod_cast htie) hvalue
      rw [toNat_nearest, hbits]
      omega

/-! ## Whole numbers -/

/-- The value of a whole number is the natural number that its units make up. -/
lemma value_of_isWhole {x : Binary64} (hx : x.isWhole) : x.value = (x.units / one : Nat) := by
  obtain ⟨-, hsign, hmod⟩ := isWhole_iff.mp hx
  have hnegative : x.isNegative = false := decide_eq_false (by rw [Nat.pow_eq]; omega)
  have hone : (one : ℚ) ≠ 0 := by exact_mod_cast one_pos.ne'
  have hsigned : x.signedUnits = (x.units / one * one : Nat) := by
    rw [Nat.div_mul_cancel (Nat.dvd_of_mod_eq_zero hmod), signedUnits, hnegative]
    rfl
  rw [value, hsigned, div_eq_iff hone, Int.cast_natCast, Nat.cast_mul]

/-- The integer of a whole number is its value, up to `2 ^ 53`. -/
lemma toInt?_of_isWhole {x : Binary64} (hx : x.isWhole) :
    x.toInt? = if x.units / one ≤ 2 ^ 53 then some (x.units / one : Nat) else none := by
  obtain ⟨hfinite, hsign, hmod⟩ := isWhole_iff.mp hx
  have hnegative : x.isNegative = false := decide_eq_false (by rw [Nat.pow_eq]; omega)
  split
  · next hle =>
    refine (if_pos ⟨decide_eq_true hfinite, hmod, hle⟩).trans ?_
    rw [hnegative]
    rfl
  · next hlt => exact if_neg fun h => hlt h.2.2

/-- **Up to `2 ^ 53` every whole number is a double.** -/
lemma units_nearest_of_le {n : Nat} (h : n ≤ 2 ^ 53) : (nearest n 1).units = n * one := by
  rw [units, magnitude_nearest]
  rcases Nat.eq_zero_or_pos n with rfl | hpos
  · rw [nearestBits_zero, Nat.zero_mul]
    rfl
  have hthreshold : 2 ^ 53 < 2 ^ 1024 - 2 ^ 970 := by decide +kernel
  have hfinite := (isFinite_nearest_iff n).mpr (Nat.lt_of_le_of_lt h hthreshold)
  obtain ⟨t, hlog, -, hunits⟩ := exists_significand hpos ((isFinite_nearest n).mp hfinite)
  obtain ⟨hne, -⟩ := le_log2_mul_one hpos
  have hlow : 2 ^ 52 * 2 ^ t ≤ n * one := by
    rw [← Nat.pow_add]
    exact ((Nat.log2_eq_iff hne).mp hlog).1
  -- Neighbours are one apart or less, or two apart around `2 ^ 53` itself.
  have hdvd : 2 ^ t ∣ n * one := by
    obtain ⟨j, hj⟩ : ∃ j, 1074 = j := ⟨_, rfl⟩
    rw [one_eq_two_pow hj] at hlow ⊢
    rcases Nat.lt_or_ge j t with hlt | hge
    · have hpow : 2 ^ 53 * 2 ^ j ≤ 2 ^ 52 * 2 ^ t := by
        rw [← Nat.pow_add, ← Nat.pow_add]
        exact Nat.pow_le_pow_right Nat.two_pos (by omega)
      have hmul := Nat.mul_le_mul_right (2 ^ j) h
      have heq : n * 2 ^ j = 2 ^ 52 * 2 ^ t := by omega
      exact heq ▸ Nat.dvd_mul_left _ _
    · exact Nat.dvd_mul_left_of_dvd (Nat.pow_dvd_pow 2 hge) n
  obtain ⟨q, hq⟩ := hdvd
  rw [hunits, hq, Nat.mul_comm (2 ^ t) q, roundDiv_mul (Nat.two_pow_pos t)]

/-! ## Digits without superfluous zeros -/

lemma head?_toDigits_ne {n : Nat} (hn : 0 < n) : (Nat.toDigits 10 n).head? ≠ some '0' := by
  induction n using Nat.strongRecOn with
  | ind n ih =>
    rw [Nat.toDigits_eq_if (by omega)]
    split
    · next hlt => interval_cases n <;> decide
    · next hge =>
      have hdigits := ih (n / 10) (by omega) (by omega)
      obtain ⟨c, cs, hcs⟩ :=
        List.exists_cons_of_ne_nil (Nat.toDigits_ne_nil (n := n / 10) (b := 10))
      rw [hcs] at hdigits ⊢
      exact hdigits

/-- **A whole number is printed without a leading zero**, other than zero itself. -/
theorem text_eq_zero {x : Binary64} (hx : x.isWhole) (h : x.text.toList.head? = some '0') :
    x.text = "0" := by
  obtain ⟨hfinite, hsign, -⟩ := isWhole_iff.mp hx
  have hnan : x.isNaN = false := decide_eq_false (by omega)
  have hnegative : x.isNegative = false := decide_eq_false (by rw [Nat.pow_eq]; omega)
  by_cases hzero : x.magnitude = 0
  · rw [text, hnan, hnegative, hzero]
    rfl
  · -- The shortest decimal is read as the number, so it is not zero.
    obtain ⟨hexponent, hreads⟩ := shortest_whole hx
    have hden : x.shortest.den = 1 := by
      have htoNat : (-x.shortest.exponent).toNat = 0 := by omega
      rw [Decimal.den, htoNat, Nat.pow_eq, Nat.pow_zero]
    have hcoefficient : 0 < x.shortest.coefficient := by
      refine Nat.pos_of_ne_zero fun hcoefficient => hzero ?_
      have hbits : nearestBits x.shortest.num x.shortest.den = x.magnitude := beq_iff_eq.mp hreads
      rw [hden, Decimal.num, hcoefficient, Nat.zero_mul, nearestBits_zero] at hbits
      exact hbits.symm
    have htext : x.text.toList = Nat.toDigits 10 x.shortest.coefficient ++
        List.replicate x.shortest.exponent.toNat '0' := by
      rw [text, hnan, hnegative, if_neg (by omega : x.magnitude ≠ infinity), if_neg hzero]
      simp [Decimal.positional, hexponent]
    obtain ⟨c, cs, hcs⟩ :=
      List.exists_cons_of_ne_nil (Nat.toDigits_ne_nil (n := x.shortest.coefficient) (b := 10))
    have hhead := head?_toDigits_ne hcoefficient
    rw [htext, hcs] at h
    rw [hcs] at hhead
    exact absurd h hhead

end Scriptlet.Binary64
