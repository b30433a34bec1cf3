import FlowEngine.Decimal.Shortest

/-!
# Decimal notation of doubles

A finite double is written by its shortest decimal: positionally, always with a fraction, if its
leading digit stands between `10 ^ -5` and `10 ^ 15`, and else with an exponent that has a sign.

## Main definitions

* `Decimal.text`: the notation of a decimal.
* `Decimal.textOfFloat?`: the notation of a double, if it is finite.
-/

namespace FlowEngine

namespace Decimal

/-- The exponent of the leading digit. -/
def leading (d : Decimal) : Int := d.exponent + digitCount d.coefficient - 1

/-- A leading digit at this place or above is written positionally. -/
def leastPositional : Int := -5

/-- A leading digit below this place is written positionally. -/
def leastScientific : Int := 16

/-- Digits before and after the point, at least one on each side. -/
def positional (d : Decimal) : List Char :=
  let digits := Nat.toDigits 10 d.coefficient
  if 0 ≤ d.exponent then digits ++ List.replicate d.exponent.toNat '0' ++ ['.', '0']
  else
    let places := (-d.exponent).toNat
    let padded := List.replicate (places + 1 - digits.length) '0' ++ digits
    padded.take (padded.length - places) ++ '.' :: padded.drop (padded.length - places)

/-- One digit before the point, no point if no digit follows, and an exponent with its sign. -/
def scientific (d : Decimal) : List Char :=
  let exponent := (if d.leading < 0 then '-' else '+') :: Nat.toDigits 10 d.leading.natAbs
  match Nat.toDigits 10 d.coefficient with
  | first :: second :: more => first :: '.' :: second :: more ++ 'e' :: exponent
  | digits => digits ++ 'e' :: exponent

/-- The notation of a decimal. -/
def text (d : Decimal) : List Char :=
  if leastPositional ≤ d.leading ∧ d.leading < leastScientific then d.positional else d.scientific

/-- The notation of a finite double. The sign of zero is kept. -/
def textOfFloat? (x : Float) : Option String :=
  (ofFloat? x).map fun d =>
    String.ofList (if Binary.isNegative x then '-' :: d.text else d.text)

end Decimal

end FlowEngine
