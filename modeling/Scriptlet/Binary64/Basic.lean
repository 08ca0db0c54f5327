/-
# Double-precision numbers

A number of the language is a double-precision binary floating-point number, kept as the 64 bits
of its interchange form: a sign bit, eleven bits of exponent and fifty-two bits of fraction.

Every finite double is a whole multiple of the smallest positive one, `2 ^ -1074`.  Its magnitude
counted in these *units* is a natural number, so everything about the value of a double is
said and computed in exact integer arithmetic.  Powers are written with `Nat.pow`, which does not
depend on the instances in scope.
-/

namespace Scriptlet

/-- A double-precision number, as the bits of its interchange form.  Two of them are equal when
they agree bit for bit; `Binary64.same` compares the values. -/
structure Binary64 where
  /-- The sign bit, the exponent and the fraction, from the highest bit to the lowest. -/
  bits : UInt64
deriving DecidableEq, Repr

namespace Binary64

/-- The number of units in one. -/
def one : Nat := Nat.pow 2 1074

/-- The magnitude bits of infinity; those of a number that is not finite are not below it. -/
def infinity : Nat := 2047 * Nat.pow 2 52

/-- The units of the number with the magnitude bits `w`: the fraction alone while the exponent
is zero, and beyond that the fraction with its hidden bit, doubled with every exponent. -/
def unitsOf (w : Nat) : Nat :=
  if w < Nat.pow 2 52 then w
  else (Nat.pow 2 52 + w % Nat.pow 2 52) * Nat.pow 2 (w / Nat.pow 2 52 - 1)

/-- Whether the sign bit is set. -/
def isNegative (x : Binary64) : Bool := Nat.pow 2 63 ≤ x.bits.toNat

/-- The bits below the sign bit. -/
def magnitude (x : Binary64) : Nat := x.bits.toNat % Nat.pow 2 63

/-- The magnitude of a finite number, in units. -/
def units (x : Binary64) : Nat := unitsOf x.magnitude

/-- Whether the number is neither infinite nor not a number. -/
def isFinite (x : Binary64) : Bool := x.magnitude < infinity

/-- Whether it is not a number. -/
def isNaN (x : Binary64) : Bool := infinity < x.magnitude

/-- Whether two numbers have the same value: the two zeros have, and what is not a number has
the value of nothing, not even its own. -/
def same (x y : Binary64) : Bool :=
  !x.isNaN && !y.isNaN && (x == y || x.magnitude == 0 && y.magnitude == 0)

/-- The value of a whole number of magnitude at most `2 ^ 53`, up to which every integer is
a double.  The negative zero has the value zero. -/
def toInt? (x : Binary64) : Option Int :=
  let n := x.units / one
  if x.isFinite ∧ x.units % one = 0 ∧ n ≤ Nat.pow 2 53 then
    some (if x.isNegative then -n else n)
  else none

/-! ## Comparing values -/

theorem same_self {x : Binary64} : x.same x ↔ x.isNaN = false := by
  simp [same]

end Binary64

end Scriptlet
