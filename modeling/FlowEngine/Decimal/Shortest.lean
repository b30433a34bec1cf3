import FlowEngine.Decimal.Binary

/-!
# Shortest decimals

The shortest decimal that reads back as a given double, and of the shortest ones the nearest.

A finite double is `mantissa * 2 ^ exponent`. The reals that round to it form an interval around
it, which contains its ends exactly if the mantissa is even. For one digit, two digits and so on,
the only candidates are the two neighbours of the double on the grid of decimals with that many
digits: if any point of the grid lies in the interval, one of these does.

## Main definitions

* `Decimal`: a coefficient times a power of ten.
* `Decimal.shortest`: the shortest decimal of a magnitude.
* `Decimal.ofFloat?`: the same for a double, whatever its sign.
-/

namespace FlowEngine

/-- A decimal `coefficient * 10 ^ exponent`. -/
structure Decimal where
  coefficient : Nat
  exponent : Int
  deriving DecidableEq, Repr

namespace Decimal

/-- The same value without trailing zeros in the coefficient. -/
def trimmed (d : Decimal) : Decimal :=
  if h : 0 < d.coefficient ∧ d.coefficient % 10 = 0 then
    trimmed ⟨d.coefficient / 10, d.exponent + 1⟩
  else d
termination_by d.coefficient
decreasing_by exact Nat.div_lt_self h.1 (by decide)

/-- How many decimal digits a number has; zero has one. -/
def digitCount (n : Nat) : Nat := (Nat.toDigits 10 n).length

/-- `2 ^ (b.exponent - 2) / 10 ^ e` as a fraction: the quarter of a unit in the last place of `b`,
measured on the grid of multiples of `10 ^ e`. -/
def quarterUnit (b : Binary) (e : Int) : Nat × Nat :=
  let q := b.exponent - 2
  (Nat.pow 2 q.toNat * Nat.pow 10 (-e).toNat, Nat.pow 2 (-q).toNat * Nat.pow 10 e.toNat)

/-- The number of places that `numerator / denominator` must move to the left to reach one. -/
def leadingZeros (numerator denominator : Nat) : Nat → Nat
  | 0 => 0
  | fuel + 1 =>
    if denominator ≤ numerator then 0
    else leadingZeros (10 * numerator) denominator fuel + 1

/-- The exponent `k` with `10 ^ k ≤ b < 10 ^ (k + 1)`. -/
def leadingExponent (b : Binary) : Int :=
  let (unit, one) := quarterUnit b 0
  let value := 4 * b.mantissa * unit
  if one ≤ value then (digitCount (value / one) : Int) - 1
  else -(leadingZeros value one 400 : Int)

/-- The multiple of `10 ^ e` that reads back as `b` and is nearest to it, if there is one. Of two
that are equally near the even one is taken. -/
def onGrid? (b : Binary) (e : Int) : Option Decimal :=
  let (unit, one) := quarterUnit b e
  let value := 4 * b.mantissa * unit
  let low := (4 * b.mantissa - if b.narrow then 1 else 2) * unit
  let high := (4 * b.mantissa + 2) * unit
  let even := b.mantissa % 2 == 0
  let below := value / one
  let belowFits := if even then low ≤ below * one else low < below * one
  let aboveFits := if even then (below + 1) * one ≤ high else (below + 1) * one < high
  let middle := (2 * below + 1) * one
  let preferBelow := 2 * value < middle || 2 * value == middle && below % 2 == 0
  if belowFits && (preferBelow || !aboveFits) then some ⟨below, e⟩
  else if aboveFits then some ⟨below + 1, e⟩
  else none

/-- The shortest decimal that reads back as `b`, the nearest one if there are several. Seventeen
digits always suffice. -/
def shortest (b : Binary) : Decimal :=
  if b.mantissa = 0 then ⟨0, 0⟩
  else
    let k := leadingExponent b
    let found := (List.range 17).findSome? fun (n : Nat) => onGrid? b (k - n)
    (found.getD ⟨b.mantissa, b.exponent⟩).trimmed

/-- The shortest decimal of the magnitude of a finite double. -/
def ofFloat? (x : Float) : Option Decimal := (Binary.ofFloat? x).map shortest

end Decimal

end FlowEngine
