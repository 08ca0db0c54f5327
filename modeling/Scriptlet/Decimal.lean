/-
# Decimal numbers

Digit strings and what they denote, and the decimal numbers `coefficient * 10 ^ exponent` with
their positional notation: every digit is written out, with no exponent, and a point only where
there are places behind it.
-/

namespace Scriptlet

/-- The number a string of decimal digits denotes. -/
def digitsValue (cs : List Char) : Nat := cs.foldl (fun n c => 10 * n + (c.toNat - 48)) 0

/-- A decimal number. -/
structure Decimal where
  /-- The digits, as a number. -/
  coefficient : Nat
  /-- The place of the last digit: the power of ten it counts. -/
  exponent : Int
deriving DecidableEq, Repr

namespace Decimal

/-- The numerator of the number as a fraction. -/
def num (d : Decimal) : Nat := d.coefficient * Nat.pow 10 d.exponent.toNat

/-- The denominator of the number as a fraction. -/
def den (d : Decimal) : Nat := Nat.pow 10 (-d.exponent).toNat

/-- The digits `ds` with a point before the last `n` of them, filled up by zeros so that at least
one digit stands before the point. -/
def withPlaces (n : Nat) (ds : List Char) : List Char :=
  let ds := ds.leftpad (n + 1) '0'
  ds.take (ds.length - n) ++ '.' :: ds.drop (ds.length - n)

/-- The positional notation of a number. -/
def positional (d : Decimal) : List Char :=
  let ds := Nat.toDigits 10 d.coefficient
  if d.exponent < 0 then withPlaces (-d.exponent).toNat ds
  else ds ++ List.replicate d.exponent.toNat '0'

end Decimal

end Scriptlet
