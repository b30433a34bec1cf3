/-!
# Doubles from decimals

A decimal `significand * 10 ^ exponent` becomes a double by one multiplication with, or one
division by, a power of ten; a very small exponent takes further divisions by `10 ^ 308`. Values
beyond the largest double are refused, values below the smallest become zero.

## Main definitions

* `Decimal.scaled?`: the double that a significand and an exponent give.
-/

namespace FlowEngine

namespace Decimal

/-- The greatest exponent of a power of ten that is a finite double. -/
def greatestPower : Nat := 308

/-- The power of ten as a double. -/
def power (n : Nat) : Float := Float.ofScientific 1 false n

/-- `x` divided by `10 ^ n`, in steps of `10 ^ 308`. -/
def dividedBy (x : Float) (n : Nat) : Float :=
  if n ≤ greatestPower then x / power n
  else if x == 0 then x
  else dividedBy (x / power greatestPower) (n - greatestPower)
termination_by n
decreasing_by simp [greatestPower] at *; omega

/-- The double for `significand * 10 ^ exponent`; none if that is beyond the largest double. -/
def scaled? (significand : Nat) (exponent : Int) : Option Float :=
  let x := Float.ofNat significand
  if exponent < 0 then some (dividedBy x exponent.natAbs)
  else if exponent.toNat ≤ greatestPower then
    let y := x * power exponent.toNat
    if y.isInf then none else some y
  else if x == 0 then some x
  else none

end Decimal

end FlowEngine
