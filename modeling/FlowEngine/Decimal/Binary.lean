/-!
# Doubles as binary fractions

A finite double is `mantissa * 2 ^ exponent` with a sign.

## Main definitions

* `Binary.ofFloat?`: mantissa and exponent of the magnitude of a finite double.
* `Binary.int?`: the integer that a double is, if it is one.
-/

namespace FlowEngine

/-- A magnitude `mantissa * 2 ^ exponent`. -/
structure Binary where
  mantissa : Nat
  exponent : Int
  /-- Whether the next smaller double is only half as far away as the next larger one. -/
  narrow : Bool
  deriving DecidableEq, Repr

/-- The bit above the 52 bits of a mantissa that a double stores; it is set in every double that is
not very small. -/
def Binary.hidden : Nat := 4503599627370496

/-- The magnitude of a finite double; none for an infinity or a NaN. -/
def Binary.ofFloat? (x : Float) : Option Binary :=
  let bits : Nat := x.toBits.toNat
  let fraction : Nat := bits % hidden
  let field : Nat := bits / hidden % 2048
  if field = 2047 then none
  else if field = 0 then some ⟨fraction, -1074, false⟩
  else some ⟨hidden + fraction, (field : Int) - 1075, fraction == 0 && 1 < field⟩

namespace Binary

/-- The natural number that a magnitude is, if it is one. -/
def nat? (b : Binary) : Option Nat :=
  if 0 ≤ b.exponent then some (b.mantissa * Nat.pow 2 b.exponent.toNat)
  else
    let unit := Nat.pow 2 (-b.exponent).toNat
    if b.mantissa % unit = 0 then some (b.mantissa / unit) else none

/-- Whether a double has its sign bit set. -/
def isNegative (x : Float) : Bool := UInt64.size / 2 ≤ x.toBits.toNat

/-- The integer that a double is; none if it has a fraction or is not finite. -/
def int? (x : Float) : Option Int :=
  ((ofFloat? x).bind nat?).map fun n => if isNegative x then -(n : Int) else n

/-- Whether a double is neither an infinity nor a NaN. -/
def isFinite (x : Float) : Bool := (ofFloat? x).isSome

end Binary

end FlowEngine
