import FlowEngine.Text.Natural

/-!
# Durations and deadlines

Spans of time in nanoseconds, and instants counted from the start of a clock that never goes back.

## Main definitions

* `Duration`, `Instant`: spans and points of time.
* `Duration.text`: a span in the greatest unit of which it holds at least one.
* `Instant.deadline`: the instant after a span, or a far one if the clock cannot hold it.
-/

namespace FlowEngine

/-- A span of time. -/
structure Duration where
  nanos : Nat
  deriving DecidableEq, Repr, Ord

namespace Duration

instance : Inhabited Duration := ⟨⟨0⟩⟩

/-- A number of seconds. -/
def ofSeconds (n : Nat) : Duration := ⟨n * 1000000000⟩

/-- A number of milliseconds. -/
def ofMillis (n : Nat) : Duration := ⟨n * 1000000⟩

/-- A number of microseconds. -/
def ofMicros (n : Nat) : Duration := ⟨n * 1000⟩

/-- Whole seconds. -/
def seconds (d : Duration) : Nat := d.nanos / 1000000000

/-- Whole milliseconds. -/
def millis (d : Duration) : Nat := d.nanos / 1000000

/-- Whether the span is empty. -/
def isZero (d : Duration) : Bool := d.nanos == 0

/-- The longest span. -/
def longest : Duration := ⟨(UInt64.size - 1) * 1000000000 + 999999999⟩

/-- `nanos` in units of `10 ^ places` nanoseconds, with the digits of the fraction that matter. -/
def decimalText (nanos places : Nat) (unit : String) : String :=
  let fraction := (Text.padded places (nanos % Nat.pow 10 places)).toList
  let digits := (fraction.reverse.dropWhile (· == '0')).reverse
  toString (nanos / Nat.pow 10 places) ++
    (if digits.isEmpty then "" else "." ++ String.ofList digits) ++ unit

/-- A span in the greatest unit of which it holds at least one. -/
def text (d : Duration) : String :=
  if 1000000000 ≤ d.nanos then decimalText d.nanos 9 "s"
  else if 1000000 ≤ d.nanos then decimalText d.nanos 6 "ms"
  else if 1000 ≤ d.nanos then decimalText d.nanos 3 "µs"
  else toString d.nanos ++ "ns"

end Duration

/-- A point of time, counted from the start of the clock. -/
structure Instant where
  nanos : Nat
  deriving DecidableEq, Repr, Ord

namespace Instant

instance : Inhabited Instant := ⟨⟨0⟩⟩

instance : LT Instant := ⟨fun a b => a.nanos < b.nanos⟩

instance : LE Instant := ⟨fun a b => a.nanos ≤ b.nanos⟩

instance (a b : Instant) : Decidable (a < b) := inferInstanceAs (Decidable (a.nanos < b.nanos))

instance (a b : Instant) : Decidable (a ≤ b) := inferInstanceAs (Decidable (a.nanos ≤ b.nanos))

/-- The instant after a span. -/
def after (t : Instant) (d : Duration) : Instant := ⟨t.nanos + d.nanos⟩

/-- The span between two instants, empty if the first is not earlier. -/
def elapsed (s t : Instant) : Duration := ⟨t.nanos - s.nanos⟩

/-- The clock holds instants below this many seconds. -/
def horizonSeconds : Nat := UInt64.size / 2

/-- The span that replaces one that the clock cannot hold: thirty years. -/
def farFuture : Duration := .ofSeconds (30 * 365 * 24 * 60 * 60)

/-- The instant after a span, or thirty years later if the clock cannot hold it. -/
def deadline (t : Instant) (d : Duration) : Instant :=
  if t.nanos + d.nanos < horizonSeconds * 1000000000 then t.after d else t.after farFuture

protected theorem le_refl (t : Instant) : t ≤ t := Nat.le_refl _

protected theorem le_trans {a b c : Instant} (h : a ≤ b) (h' : b ≤ c) : a ≤ c := Nat.le_trans h h'

protected theorem not_le {a b : Instant} : ¬ a ≤ b ↔ b < a := Nat.not_le

protected theorem lt_of_le_of_lt {a b c : Instant} (h : a ≤ b) (h' : b < c) : a < c :=
  Nat.lt_of_le_of_lt h h'

theorem le_after (t : Instant) (d : Duration) : t ≤ t.after d := Nat.le_add_right _ _

end Instant

end FlowEngine
