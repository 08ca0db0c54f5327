/-
# Whole numbers

The numbers that a source can write are the doubles next to whole numbers, and these are themselves
whole (`isWhole_nearest`).  Conversely a finite whole double is printed as a string of digits that
is read as the same double (`exists_digits_text`).  Both rest on how a double splits into the power
of two that separates its neighbours and a multiple of it: the magnitude bits `t * 2 ^ 52 + q` stand
for `q * 2 ^ t` units, and rounding finds these `t` and `q` again.  So the units of a number
determine it up to its sign, and with them the integer that is its value (`same_of_toInt?`).
-/
import Mathlib
import Scriptlet.Binary64.Shortest

namespace Scriptlet.Binary64

/-- A finite whole number whose sign bit is clear. -/
def isWhole (x : Binary64) : Bool := x.isFinite && !x.isNegative && x.units % one == 0

/-! ## Significands -/

/-- The units of a double whose neighbours are `2 ^ t` units apart. -/
lemma unitsOf_add {t q : Nat} (hlo : 2 ^ 52 ≤ q) (hhi : q ≤ 2 ^ 53) :
    unitsOf (t * 2 ^ 52 + q) = q * 2 ^ t := by
  have hge : ¬ t * 2 ^ 52 + q < 2 ^ 52 := by omega
  simp only [unitsOf, Nat.pow_eq]
  rw [if_neg hge]
  rcases Nat.lt_or_eq_of_le hhi with hlt | rfl
  · have hdiv : (t * 2 ^ 52 + q) / 2 ^ 52 - 1 = t := by omega
    have hmod : 2 ^ 52 + (t * 2 ^ 52 + q) % 2 ^ 52 = q := by omega
    rw [hdiv, hmod]
  · -- The carry into the exponent: the fraction is zero and the neighbours are twice as far apart.
    have hdiv : (t * 2 ^ 52 + 2 ^ 53) / 2 ^ 52 - 1 = t + 1 := by omega
    have hmod : 2 ^ 52 + (t * 2 ^ 52 + 2 ^ 53) % 2 ^ 52 = 2 ^ 52 := by omega
    rw [hdiv, hmod, Nat.pow_succ]
    omega

/-- Magnitude bits are those of a small number, or those of a multiple of a power of two. -/
lemma bits_cases (w : Nat) :
    w < 2 ^ 52 ∨ ∃ t q, 2 ^ 52 ≤ q ∧ q < 2 ^ 53 ∧ w = t * 2 ^ 52 + q := by
  rcases Nat.lt_or_ge w (2 ^ 52) with hlt | hge
  · exact .inl hlt
  · refine .inr ⟨w / 2 ^ 52 - 1, 2 ^ 52 + w % 2 ^ 52, ?_, ?_, ?_⟩ <;> omega

lemma log2_mul_two_pow {q : Nat} (t : Nat) (hlo : 2 ^ 52 ≤ q) (hhi : q < 2 ^ 53) :
    (q * 2 ^ t).log2 = 52 + t := by
  have hpos : 0 < 2 ^ t := Nat.two_pow_pos t
  have hne : q * 2 ^ t ≠ 0 := Nat.mul_ne_zero (by omega) (by omega)
  rw [Nat.log2_eq_iff hne]
  constructor
  · rw [Nat.pow_add]
    exact Nat.mul_le_mul_right _ hlo
  · rw [Nat.add_right_comm, Nat.pow_add]
    exact Nat.mul_lt_mul_of_pos_right hhi hpos

/-! ## Rounding what needs no rounding -/

/-- **A double is its own nearest double.** -/
theorem nearestBits_of_units {num den w : Nat} (hden : 0 < den)
    (h : num * one = unitsOf w * den) (hw : w < infinity) : nearestBits num den = w := by
  have hdiv : num * one / den = unitsOf w := by
    rw [h]
    exact Nat.mul_div_cancel _ hden
  simp only [nearestBits, Nat.pow_eq]
  rw [hdiv, h]
  rcases bits_cases w with hsmall | ⟨t, q, hlo, hhi, rfl⟩
  · -- Where neighbours are one unit apart, the bits count the units.
    have hunits : unitsOf w = w := if_pos hsmall
    have hlog : w.log2 - 52 = 0 := by
      have hle : w.log2 ≤ 52 := by
        rcases Nat.eq_zero_or_pos w with rfl | hpos
        · rw [Nat.log2_zero]
          omega
        · exact Nat.le_of_lt ((Nat.log2_lt (by omega)).mpr hsmall)
      omega
    rw [hunits, hlog, Nat.pow_zero, Nat.mul_one, roundDiv_mul hden, Nat.zero_mul, Nat.zero_add]
    exact Nat.min_eq_left (Nat.le_of_lt hw)
  · rw [unitsOf_add hlo (Nat.le_of_lt hhi), log2_mul_two_pow t hlo hhi, Nat.add_sub_cancel_left]
    have hmul : q * 2 ^ t * den = q * (den * 2 ^ t) := by
      rw [Nat.mul_assoc, Nat.mul_comm (2 ^ t)]
    rw [hmul, roundDiv_mul (Nat.mul_pos hden (Nat.two_pow_pos t))]
    exact Nat.min_eq_left (Nat.le_of_lt hw)

/-! ## The doubles next to whole numbers -/

lemma nearestBits_le (num den : Nat) : nearestBits num den ≤ infinity := Nat.min_le_right _ _

lemma toNat_nearest (num den : Nat) : (nearest num den).bits.toNat = nearestBits num den := by
  have hle := nearestBits_le num den
  rw [nearest, UInt64.toNat_ofNat']
  refine Nat.mod_eq_of_lt ?_
  rw [infinity, Nat.pow_eq] at hle
  omega

lemma magnitude_nearest (num den : Nat) : (nearest num den).magnitude = nearestBits num den := by
  have hle := nearestBits_le num den
  rw [magnitude, Nat.pow_eq, toNat_nearest]
  refine Nat.mod_eq_of_lt ?_
  rw [infinity, Nat.pow_eq] at hle
  omega

lemma isNegative_nearest (num den : Nat) : (nearest num den).isNegative = false := by
  have hle := nearestBits_le num den
  rw [isNegative, Nat.pow_eq, toNat_nearest, decide_eq_false_iff_not]
  rw [infinity, Nat.pow_eq] at hle
  omega

/-- The units of one as a power of two whose exponent is not evaluated. -/
lemma one_eq_two_pow {n : Nat} (h : 1074 = n) : one = 2 ^ n := by
  unfold one
  rw [h, Nat.pow_eq]

lemma one_pos : 0 < one := by
  obtain ⟨n, hn⟩ : ∃ n, 1074 = n := ⟨_, rfl⟩
  rw [one_eq_two_pow hn]
  exact Nat.two_pow_pos n

/-- Rounding to a multiple of a power of two leaves a whole number whole: either the power is one
of whole numbers, or the whole number is a multiple of it already. -/
lemma roundDiv_mul_mod_one (v t : Nat) : roundDiv (v * one) (2 ^ t) * 2 ^ t % one = 0 := by
  rcases Nat.le_total 1074 t with hle | hle
  · generalize hn : 1074 = n at hle
    rw [one_eq_two_pow hn]
    exact Nat.mod_eq_zero_of_dvd (Nat.dvd_mul_left_of_dvd (Nat.pow_dvd_pow 2 hle) _)
  · obtain ⟨j, hj⟩ := Nat.exists_eq_add_of_le hle
    have hone : v * one = v * 2 ^ j * 2 ^ t := by
      rw [one_eq_two_pow hj, Nat.add_comm, Nat.pow_add, Nat.mul_assoc]
    rw [hone, roundDiv_mul (Nat.two_pow_pos t), ← hone]
    exact Nat.mul_mod_left _ _

/-- A number whose neighbours are `2 ^ t` units apart is rounded to a significand with its hidden
bit, or up to the next power of two. -/
lemma roundDiv_bounds {a t : Nat} (hne : a ≠ 0) (hlog : a.log2 = 52 + t) :
    2 ^ 52 ≤ roundDiv a (2 ^ t) ∧ roundDiv a (2 ^ t) ≤ 2 ^ 53 := by
  have hpos : 0 < 2 ^ t := Nat.two_pow_pos t
  obtain ⟨hlo, hhi⟩ := (Nat.log2_eq_iff hne).mp hlog
  have hdiv : 2 ^ 52 ≤ a / 2 ^ t := by
    rw [Nat.le_div_iff_mul_le hpos, ← Nat.pow_add]
    exact hlo
  have hdiv' : a / 2 ^ t < 2 ^ 53 := by
    rw [Nat.div_lt_iff_lt_mul hpos, ← Nat.pow_add, Nat.add_comm 53]
    rw [Nat.add_comm 52] at hhi
    exact hhi
  rcases roundDiv_eq_or a (2 ^ t) with h | h <;> omega

lemma le_log2_mul_one {v : Nat} (hv : 0 < v) : v * one ≠ 0 ∧ 1074 ≤ (v * one).log2 := by
  have hne : v * one ≠ 0 := Nat.mul_ne_zero (Nat.ne_of_gt hv) (Nat.ne_of_gt one_pos)
  refine ⟨hne, ?_⟩
  generalize hn : 1074 = n
  rw [Nat.le_log2 hne, ← one_eq_two_pow hn]
  exact Nat.le_mul_of_pos_left one hv

/-- The magnitude bits of the double next to a whole number: the power of two that separates
neighbours there, and the whole number rounded to a multiple of it. -/
lemma exists_nearestBits {v : Nat} (hv : 0 < v) :
    ∃ t, v * one ≠ 0 ∧ (v * one).log2 = 52 + t ∧
      nearestBits v 1 = min (t * 2 ^ 52 + roundDiv (v * one) (2 ^ t)) infinity := by
  obtain ⟨hne, hlog⟩ := le_log2_mul_one hv
  obtain ⟨t, ht⟩ : ∃ t, (v * one).log2 = 52 + t := ⟨(v * one).log2 - 52, by omega⟩
  refine ⟨t, hne, ht, ?_⟩
  simp only [nearestBits, Nat.pow_eq]
  rw [Nat.div_one, ht, Nat.add_sub_cancel_left, Nat.one_mul]

/-- The significand of the double next to a whole number, unless it is infinity. -/
lemma exists_significand {v : Nat} (hv : 0 < v) (hlt : nearestBits v 1 < infinity) :
    ∃ t, (v * one).log2 = 52 + t ∧
      nearestBits v 1 = t * 2 ^ 52 + roundDiv (v * one) (2 ^ t) ∧
      unitsOf (nearestBits v 1) = roundDiv (v * one) (2 ^ t) * 2 ^ t := by
  obtain ⟨t, hne, ht, hbits⟩ := exists_nearestBits hv
  have hbits' : nearestBits v 1 = t * 2 ^ 52 + roundDiv (v * one) (2 ^ t) := by
    rw [hbits] at hlt ⊢
    exact Nat.min_eq_left (by omega)
  obtain ⟨hlo, hhi⟩ := roundDiv_bounds hne ht
  exact ⟨t, ht, hbits', by rw [hbits', unitsOf_add hlo hhi]⟩

lemma nearestBits_zero : nearestBits 0 1 = 0 := by
  have hunits : 0 * one = unitsOf 0 * 1 := Nat.zero_mul one
  exact nearestBits_of_units Nat.one_pos hunits (by decide)

/-- The units of the double next to a whole number, unless it is infinity: the whole number,
rounded to a multiple of the power of two that separates neighbours there. -/
lemma exists_unitsOf_nearestBits (v : Nat) (hlt : nearestBits v 1 < infinity) :
    ∃ t, unitsOf (nearestBits v 1) = roundDiv (v * one) (2 ^ t) * 2 ^ t := by
  rcases Nat.eq_zero_or_pos v with rfl | hv
  · refine ⟨0, ?_⟩
    rw [nearestBits_zero, Nat.zero_mul]
    rfl
  · obtain ⟨t, -, -, hunits⟩ := exists_significand hv hlt
    exact ⟨t, hunits⟩

/-- **The double next to a whole number is whole**, unless it is infinity. -/
theorem isWhole_nearest {v : Nat} (h : (nearest v 1).isFinite) : (nearest v 1).isWhole := by
  have hlt : nearestBits v 1 < infinity := by
    rw [← magnitude_nearest]
    exact of_decide_eq_true h
  obtain ⟨t, ht⟩ := exists_unitsOf_nearestBits v hlt
  have hunits : (nearest v 1).units % one = 0 := by
    rw [units, magnitude_nearest, ht]
    exact roundDiv_mul_mod_one v t
  rw [isWhole, h, isNegative_nearest, hunits]
  rfl

/-! ## Digits -/

/-- A decimal without places behind the point is written as digits that denote it. -/
lemma digits_positional {d : Decimal} (h : 0 ≤ d.exponent) :
    d.positional ≠ [] ∧ (∀ c ∈ d.positional, c.isDigit) ∧ digitsValue d.positional = d.num := by
  have hpositional : d.positional =
      Nat.toDigits 10 d.coefficient ++ List.replicate d.exponent.toNat '0' := by
    unfold Decimal.positional
    exact if_neg (by omega)
  rw [hpositional]
  refine ⟨?_, ?_, ?_⟩
  · simp [Nat.toDigits_ne_nil]
  · intro c hc
    rcases List.mem_append.mp hc with hc | hc
    · exact Nat.isDigit_of_mem_toDigits (by omega) (by omega) hc
    · rw [List.eq_of_mem_replicate hc]
      rfl
  · have hvalue (cs : List Char) : digitsValue cs = Nat.ofDigitChars 10 cs 0 := rfl
    rw [hvalue, Nat.ofDigitChars_append, Nat.ofDigitChars_replicate_zero,
      Nat.ofDigitChars_toDigits (by omega) (by omega), Nat.mul_comm]
    rfl

/-! ## Whole numbers are printed as digits -/

lemma isWhole_iff {x : Binary64} :
    x.isWhole ↔ x.magnitude < infinity ∧ x.bits.toNat < 2 ^ 63 ∧ x.units % one = 0 := by
  simp [isWhole, isFinite, isNegative, and_assoc]

/-- A number whose sign bit is clear is given by its magnitude. -/
lemma eq_of_magnitude {x y : Binary64} (hx : x.bits.toNat < 2 ^ 63) (hy : y.bits.toNat < 2 ^ 63)
    (h : x.magnitude = y.magnitude) : x = y := by
  rw [magnitude, magnitude, Nat.pow_eq, Nat.mod_eq_of_lt hx, Nat.mod_eq_of_lt hy] at h
  cases x
  cases y
  exact congrArg Binary64.mk (UInt64.toNat.inj h)

lemma onGrid_eq_some {x : Binary64} {e : Int} {d : Decimal} (h : x.onGrid e = some d) :
    d.exponent = e ∧ x.readsAs d := by
  have hreads := List.find?_some h
  have hmem := List.mem_of_find?_eq_some h
  refine ⟨?_, hreads⟩
  split at hmem
  · rcases List.mem_cons.mp hmem with rfl | hmem
    · rfl
    · rw [List.mem_singleton.mp hmem]
  · rcases List.mem_cons.mp hmem with rfl | hmem
    · rfl
    · rw [List.mem_singleton.mp hmem]

section Whole

variable {x : Binary64} (hx : x.isWhole)

include hx

/-- Among the whole numbers there is one that is read as `x`: its value. -/
lemma onGrid_zero_ne_none : x.onGrid 0 ≠ none := by
  obtain ⟨hfinite, -, hmod⟩ := isWhole_iff.mp hx
  have hbelow : x.readsAs ⟨x.units / one, 0⟩ := by
    have hunits : x.units / one * 1 * one = unitsOf x.magnitude * 1 := by
      rw [Nat.mul_one, Nat.mul_one]
      exact Nat.div_mul_cancel (Nat.dvd_of_mod_eq_zero hmod)
    exact beq_iff_eq.mpr (nearestBits_of_units Nat.one_pos hunits hfinite)
  unfold onGrid
  dsimp only
  rw [Int.neg_zero, Int.toNat_zero, Nat.pow_eq, Nat.pow_zero, Nat.mul_one x.units, Nat.mul_one one, Ne,
    List.find?_eq_none]
  intro hnone
  generalize x.units / one = n at hbelow hnone
  have hmem : (⟨n, 0⟩ : Decimal) ∈ if 2 * (x.units % one) < one then [⟨n, 0⟩, ⟨n + 1, 0⟩]
      else [⟨n + 1, 0⟩, ⟨n, 0⟩] := by
    split
    · exact List.mem_cons_self
    · exact List.mem_cons_of_mem _ List.mem_cons_self
  exact hnone ⟨n, 0⟩ hmem hbelow

/-- The search for the shortest decimal ends no later than at the whole numbers. -/
lemma shortestBelow_whole {m : Nat} (hm : 1074 ≤ m + 1) :
    0 ≤ (x.shortestBelow (m + 1)).exponent ∧ x.readsAs (x.shortestBelow (m + 1)) := by
  induction m with
  | zero => exact absurd hm (by omega)
  | succ m ih =>
    rw [shortestBelow]
    cases hgrid : x.onGrid ((m + 1 : Nat) + 1 - 1074) with
    | some d =>
      obtain ⟨hexponent, hreads⟩ := onGrid_eq_some hgrid
      rw [Option.getD_some]
      exact ⟨by omega, hreads⟩
    | none =>
      -- The power of ten was not zero yet, since that grid has a decimal that is read as `x`.
      have hne : m + 1 + 1 ≠ 1074 := by
        intro heq
        have hzero : ((m + 1 : Nat) : Int) + 1 - 1074 = 0 := by omega
        rw [hzero] at hgrid
        exact onGrid_zero_ne_none hx hgrid
      rw [Option.getD_none]
      exact ih (by omega)

lemma shortest_whole : 0 ≤ x.shortest.exponent ∧ x.readsAs x.shortest := by
  have hk (n : Nat) : 1074 + n = 1073 + n + 1 := by omega
  rw [shortest, hk]
  exact shortestBelow_whole hx (by omega)

/-- **A finite whole number is printed as digits that are read as it.** -/
theorem exists_digits_text :
    ∃ ds : List Char, x.text = String.ofList ds ∧ ds ≠ [] ∧ (∀ c ∈ ds, c.isDigit) ∧
      nearest (digitsValue ds) 1 = x := by
  obtain ⟨hfinite, hsign, -⟩ := isWhole_iff.mp hx
  have hsign' (num den : Nat) : (nearest num den).bits.toNat < 2 ^ 63 := by
    have h := isNegative_nearest num den
    rw [isNegative, Nat.pow_eq, decide_eq_false_iff_not] at h
    omega
  have hnan : x.isNaN = false := decide_eq_false (by omega)
  have hnegative : x.isNegative = false := decide_eq_false (by rw [Nat.pow_eq]; omega)
  unfold text
  rw [hnan, hnegative, if_neg (by omega : x.magnitude ≠ infinity)]
  by_cases hzero : x.magnitude = 0
  · refine ⟨['0'], by simp [hzero], List.cons_ne_nil _ _, by simp, ?_⟩
    refine eq_of_magnitude (hsign' _ _) hsign ?_
    have hvalue : digitsValue ['0'] = 0 := rfl
    rw [magnitude_nearest, hzero, hvalue, nearestBits_zero]
  · obtain ⟨hexponent, hreads⟩ := shortest_whole hx
    obtain ⟨hne, hdigits, hvalue⟩ := digits_positional hexponent
    refine ⟨x.shortest.positional, by simp [hzero], hne, hdigits, ?_⟩
    refine eq_of_magnitude (hsign' _ _) hsign ?_
    have hden : x.shortest.den = 1 := by
      have htoNat : (-x.shortest.exponent).toNat = 0 := by omega
      rw [Decimal.den, htoNat, Nat.pow_eq, Nat.pow_zero]
    rw [magnitude_nearest, hvalue, ← hden]
    exact beq_iff_eq.mp hreads

end Whole

/-! ## Integers -/

/-- Different magnitudes are different numbers of units. -/
lemma unitsOf_injective {w w' : Nat} (hw : w < infinity) (hw' : w' < infinity)
    (h : unitsOf w = unitsOf w') : w = w' := by
  rw [← nearestBits_of_units one_pos rfl hw, ← nearestBits_of_units one_pos rfl hw', h]

/-- A number is given by its sign and its magnitude. -/
lemma eq_of_isNegative_of_magnitude {x y : Binary64} (hsign : x.isNegative = y.isNegative)
    (h : x.magnitude = y.magnitude) : x = y := by
  have hx := x.bits.toNat_lt
  have hy := y.bits.toNat_lt
  rw [isNegative, isNegative, decide_eq_decide, Nat.pow_eq] at hsign
  rw [magnitude, magnitude, Nat.pow_eq] at h
  have hbits : x.bits.toNat = y.bits.toNat := by omega
  cases x
  cases y
  exact congrArg Binary64.mk (UInt64.toNat.inj hbits)

/-- The integer of a finite number has its units and its sign, which the zeros do not have. -/
lemma toInt?_eq_some_iff {x : Binary64} {n : Int} :
    x.toInt? = some n ↔ x.isFinite ∧ x.units = n.natAbs * one ∧ n.natAbs ≤ 2 ^ 53 ∧
      (n ≠ 0 → (x.isNegative ↔ n < 0)) := by
  simp only [toInt?, Nat.pow_eq, Option.ite_none_right_eq_some, Option.some.injEq]
  constructor
  · rintro ⟨⟨hfinite, hmod, hle⟩, hn⟩
    have hsize (k : Nat) : (if x.isNegative then -(k : Int) else k).natAbs = k := by
      split <;> simp
    have habs : n.natAbs = x.units / one := by rw [← hn, hsize]
    have hunits : x.units = n.natAbs * one := by
      rw [habs, Nat.div_mul_cancel (Nat.dvd_of_mod_eq_zero hmod)]
    refine ⟨hfinite, hunits, by omega, fun hne => ?_⟩
    split at hn
    · next hneg => exact ⟨fun _ => by omega, fun _ => hneg⟩
    · next hneg => exact ⟨fun h => absurd h hneg, fun _ => by omega⟩
  · rintro ⟨hfinite, hunits, hle, hsign⟩
    have hdiv : x.units / one = n.natAbs := by rw [hunits, Nat.mul_div_cancel _ one_pos]
    refine ⟨⟨hfinite, ?_, by omega⟩, ?_⟩
    · rw [hunits, Nat.mul_mod_left]
    · rw [hdiv]
      by_cases hzero : n = 0
      · simp [hzero]
      · have hsign := hsign hzero
        split
        · next hneg =>
          have hlt := hsign.mp hneg
          omega
        · next hneg =>
          have hge : ¬n < 0 := fun h => hneg (hsign.mpr h)
          omega

lemma isNaN_of_isFinite {x : Binary64} (h : x.isFinite) : x.isNaN = false := by
  have hlt : x.magnitude < infinity := of_decide_eq_true h
  exact decide_eq_false (by omega)

lemma same_iff {x y : Binary64} (hx : x.isFinite) (hy : y.isFinite) :
    x.same y ↔ x = y ∨ x.magnitude = 0 ∧ y.magnitude = 0 := by
  simp [same, isNaN_of_isFinite hx, isNaN_of_isFinite hy]

lemma toInt?_of_magnitude_zero {x : Binary64} (h : x.magnitude = 0) : x.toInt? = some 0 := by
  refine toInt?_eq_some_iff.mpr ⟨decide_eq_true ?_, ?_, by simp, fun hne => absurd rfl hne⟩
  · rw [h]
    decide
  · rw [units, h, Int.natAbs_zero, Nat.zero_mul]
    rfl

/-- Numbers of the same value have the same integer, if any. -/
lemma toInt?_eq_of_same {x y : Binary64} (hx : x.isFinite) (hy : y.isFinite) (h : x.same y) :
    x.toInt? = y.toInt? := by
  rcases (same_iff hx hy).mp h with rfl | ⟨hzero, hzero'⟩
  · rfl
  · rw [toInt?_of_magnitude_zero hzero, toInt?_of_magnitude_zero hzero']

/-- **Numbers with the same integer have the same value.** -/
lemma same_of_toInt? {x y : Binary64} {n : Int} (hx : x.toInt? = some n)
    (hy : y.toInt? = some n) : x.same y := by
  obtain ⟨hfinite, hunits, -, hsign⟩ := toInt?_eq_some_iff.mp hx
  obtain ⟨hfinite', hunits', -, hsign'⟩ := toInt?_eq_some_iff.mp hy
  have hlt : x.magnitude < infinity := of_decide_eq_true hfinite
  have hlt' : y.magnitude < infinity := of_decide_eq_true hfinite'
  have hmagnitude : x.magnitude = y.magnitude :=
    unitsOf_injective hlt hlt' (hunits.trans hunits'.symm)
  rw [same_iff hfinite hfinite']
  by_cases hzero : n = 0
  · have hunitsZero : unitsOf x.magnitude = unitsOf 0 := by
      rw [hzero, Int.natAbs_zero, Nat.zero_mul] at hunits
      exact hunits
    have hmagnitudeZero := unitsOf_injective hlt (by decide) hunitsZero
    exact .inr ⟨hmagnitudeZero, hmagnitude ▸ hmagnitudeZero⟩
  · refine .inl (eq_of_isNegative_of_magnitude ?_ hmagnitude)
    rw [Bool.eq_iff_iff, hsign hzero, hsign' hzero]

end Scriptlet.Binary64
