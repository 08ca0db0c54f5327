/-
# The shortest decimal of a double

A double is written with the fewest digits that read back as the same double, and of the
decimals with that many digits the one nearest to it.

For each power of ten, from one above the number downwards, only the two multiples next to the
number matter: if any multiple reads back as the number, one of these two does.  The first power
with such a multiple gives the fewest digits.  At `10 ^ -1074` the number itself is a multiple.
-/
import Scriptlet.Binary64.Nearest
import Scriptlet.Decimal

namespace Scriptlet.Binary64

/-- Whether a decimal is read as a number with the magnitude of `x`. -/
def readsAs (x : Binary64) (d : Decimal) : Bool := nearestBits d.num d.den == x.magnitude

/-- The multiple of `10 ^ e` that is nearest to the magnitude of `x` among those that are read as
it, if there is one.  Of two equally near ones it is the larger. -/
def onGrid (x : Binary64) (e : Int) : Option Decimal :=
  let num := x.units * Nat.pow 10 (-e).toNat
  let den := one * Nat.pow 10 e.toNat
  let below : Decimal := ⟨num / den, e⟩
  let above : Decimal := ⟨num / den + 1, e⟩
  let nearestFirst := if 2 * (num % den) < den then [below, above] else [above, below]
  nearestFirst.find? x.readsAs

/-- The shortest decimal of the magnitude of `x` among the multiples of `10 ^ (k - 1074)` and of
smaller powers of ten. -/
def shortestBelow (x : Binary64) : Nat → Decimal
  | 0 => ⟨x.units * Nat.pow 5 1074, -1074⟩
  | k + 1 => (x.onGrid (k + 1 - 1074)).getD (shortestBelow x k)

/-- The shortest decimal that is read as the magnitude of the finite number `x`. -/
def shortest (x : Binary64) : Decimal :=
  shortestBelow x (1074 + (Nat.toDigits 10 (x.units / one)).length)

/-- The text of a number: the shortest decimal in positional notation, after its sign. -/
def text (x : Binary64) : String :=
  if x.isNaN then "NaN"
  else
    let magnitude :=
      if x.magnitude = infinity then "inf"
      else if x.magnitude = 0 then "0"
      else String.ofList x.shortest.positional
    if x.isNegative then "-" ++ magnitude else magnitude

end Scriptlet.Binary64
