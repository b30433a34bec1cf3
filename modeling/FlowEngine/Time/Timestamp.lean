import FlowEngine.Codec.Basic
import FlowEngine.Text.Blank
import FlowEngine.Time.Calendar

/-!
# Timestamps

Moments in universal time with nanoseconds. They are written in the format of RFC 3339 with as many
groups of three fraction digits as needed. Reading follows the format loosely: blanks may stand
between the parts, fields may lack their leading zeros, years may have a sign and any number of
digits, and any offset from universal time is taken into account.

## Main definitions

* `Timestamp`: a moment.
* `Timestamp.text`, `Timestamp.ofText`: its text.
* `Timestamp.Fault`: what can be wrong with such a text.
* `Codec.timestamp`: its representation.
-/

namespace FlowEngine

/-- A moment in universal time. During a leap second the nanoseconds run on beyond a second. -/
structure Timestamp where
  /-- Days since the first day of 1970. -/
  day : Int
  /-- Seconds of the day. -/
  second : Nat
  /-- Nanoseconds of the second. -/
  nano : Nat
  deriving DecidableEq, Repr

namespace Timestamp

instance : Inhabited Timestamp := ⟨⟨0, 0, 0⟩⟩

/-- The number of seconds of a day. -/
def secondsPerDay : Nat := 86400

/-- The number of nanoseconds of a second. -/
def nanosPerSecond : Nat := 1000000000

/-! ### Writing -/

/-- A year: four digits, and a sign if they are not enough or the year is before year zero. -/
def yearText (year : Int) : String :=
  if 0 ≤ year ∧ year ≤ 9999 then Text.padded 4 year.toNat
  else (if year < 0 then "-" else "+") ++ Text.padded 4 year.natAbs

/-- A fraction of a second, in as many groups of three digits as needed. -/
def fractionText (nano : Nat) : String :=
  if nano = 0 then ""
  else if nano % 1000000 = 0 then "." ++ Text.padded 3 (nano / 1000000)
  else if nano % 1000 = 0 then "." ++ Text.padded 6 (nano / 1000)
  else "." ++ Text.padded 9 nano

/-- The text of a moment, where `zone` stands for universal time. -/
def textWith (zone : String) (t : Timestamp) : String :=
  let date := Date.ofDay t.day
  let leap := t.nano / nanosPerSecond
  yearText date.year ++ "-" ++ Text.padded 2 date.month ++ "-" ++ Text.padded 2 date.day ++ "T" ++
    Text.padded 2 (t.second / 3600) ++ ":" ++ Text.padded 2 (t.second / 60 % 60) ++ ":" ++
    Text.padded 2 (t.second % 60 + leap) ++ fractionText (t.nano % nanosPerSecond) ++ zone

/-- The text of a moment. -/
def text (t : Timestamp) : String := t.textWith "Z"

/-! ### Reading -/

/-- What can be wrong with the text of a moment. -/
inductive Fault where
  | outOfRange
  | impossible
  | invalid
  | tooShort
  | tooLong
  deriving DecidableEq, Repr

/-- The message of a fault. -/
def Fault.message : Fault → String
  | .outOfRange => "input is out of range"
  | .impossible => "no possible date and time matching input"
  | .invalid => "input contains invalid characters"
  | .tooShort => "premature end of input"
  | .tooLong => "trailing input"

/-- The value of at most `most` digits in front, with their number and what follows them. -/
def digits (most : Nat) (value : Nat) : List Char → Nat × Nat × List Char
  | [] => (value, 0, [])
  | c :: cs =>
    match most, Text.digitValue? c with
    | most + 1, some d =>
      let (value, count, rest) := digits most (10 * value + d) cs
      (value, count + 1, rest)
    | _, _ => (value, 0, c :: cs)

/-- At least one digit, at most `most`, of a number that fits in 63 bits; with the number of
digits. -/
def number (most : Nat) (cs : List Char) : Except Fault (Nat × Nat × List Char) :=
  match cs with
  | [] => .error .tooShort
  | cs =>
    match digits most 0 cs with
    | (_, 0, _) => .error .invalid
    | (value, count, rest) =>
      if value < UInt64.size / 2 then .ok (value, count, rest) else .error .outOfRange

/-- A number of one or two digits between bounds, after blanks. -/
def field (least most : Nat) (cs : List Char) : Except Fault (Nat × List Char) := do
  let (value, _, rest) ← number 2 (Text.trimStart cs)
  if least ≤ value ∧ value ≤ most then return (value, rest) else throw .outOfRange

/-- A year: up to four digits, or a sign and any number of digits, after blanks. -/
def year (cs : List Char) : Except Fault (Int × List Char) := do
  let (value, rest) ← match Text.trimStart cs with
    | '-' :: cs => (number cs.length cs).map fun (value, _, rest) => (-(value : Int), rest)
    | '+' :: cs => (number cs.length cs).map fun (value, _, rest) => ((value : Int), rest)
    | cs => (number 4 cs).map fun (value, _, rest) => ((value : Int), rest)
  if Int32.minValue.toInt ≤ value ∧ value ≤ Int32.maxValue.toInt then return (value, rest)
  else throw .outOfRange

/-- What follows a separator, after blanks. -/
def separator (c : Char) (cs : List Char) : Except Fault (List Char) :=
  match Text.trimStart cs with
  | [] => .error .tooShort
  | d :: cs => if d = c then .ok cs else .error .invalid

/-- A fraction of a second in nanoseconds, if a point follows. Digits beyond the ninth are
ignored. -/
def fraction (cs : List Char) : Except Fault (Nat × List Char) :=
  match cs with
  | '.' :: cs => do
    let (value, count, rest) ← number 9 cs
    return (value * Nat.pow 10 (9 - count), rest.dropWhile fun c => (Text.digitValue? c).isSome)
  | cs => .ok (0, cs)

/-- Two digits of an offset. They need two bytes, which a single character can have. -/
def twoDigits (cs : List Char) : Except Fault (Nat × Nat × List Char) :=
  match cs with
  | [] => .error .tooShort
  | [c] => .error (if c.utf8Size < 2 then .tooShort else .invalid)
  | c :: d :: cs =>
    match Text.digitValue? c, Text.digitValue? d with
    | some c, some d => .ok (c, d, cs)
    | _, _ => .error .invalid

/-- Hours and minutes of an offset, in seconds. -/
def offsetSize (cs : List Char) : Except Fault (Nat × List Char) := do
  let (h, h', cs) ← twoDigits cs
  let (m, m', cs) ← twoDigits (cs.dropWhile fun c => c = ':' || Text.isBlank c)
  if 5 < m then throw .outOfRange
  else return ((10 * h + h') * 3600 + (10 * m + m') * 60, cs)

/-- The letters of universal time, in either case. -/
def startsUniversal : List Char → Bool
  | u :: t :: c :: _ => u.toUpper == 'U' && t.toUpper == 'T' && c.toUpper == 'C'
  | _ => false

/-- The offset from universal time in seconds. -/
def offset (cs : List Char) : Except Fault (Int × List Char) :=
  if startsUniversal cs then .ok (0, cs.drop 3)
  else match cs with
    | [] => .error .tooShort
    | 'z' :: cs | 'Z' :: cs => .ok (0, cs)
    | '+' :: cs => (offsetSize cs).map fun (size, rest) => ((size : Int), rest)
    | '-' :: cs | '\u2212' :: cs => (offsetSize cs).map fun (size, rest) => (-(size : Int), rest)
    | _ => .error .invalid

/-- The years that moments lie in. -/
def InRange (year : Int) : Prop := -262143 ≤ year ∧ year ≤ 262142

instance (year : Int) : Decidable (InRange year) := by unfold InRange; infer_instance

/-- The moment of a local date and time, given how far the clock is ahead of universal time. -/
def ofLocal (date : Date) (second nano : Nat) (ahead : Int) : Except Fault Timestamp :=
  if ¬ (InRange date.year ∧ date.Valid) then .error .outOfRange
  else if ¬ ahead.natAbs < secondsPerDay then .error .outOfRange
  else
    let total := date.toDay * secondsPerDay + second - ahead
    let day := total / secondsPerDay
    if InRange (Date.ofDay day).year then .ok ⟨day, (total % secondsPerDay).toNat, nano⟩
    else .error .impossible

/-- The moment of a text. -/
def ofText (s : String) : Except Fault Timestamp := do
  let (year, cs) ← year s.toList
  let cs ← separator '-' cs
  let (month, cs) ← field 1 12 cs
  let cs ← separator '-' cs
  let (day, cs) ← field 1 31 cs
  let cs ← match cs with
    | [] => throw .tooShort
    | 't' :: cs | 'T' :: cs | ' ' :: cs => pure cs
    | _ => throw .invalid
  let (hour, cs) ← field 0 23 cs
  let cs ← separator ':' cs
  let (minute, cs) ← field 0 59 cs
  let cs ← separator ':' cs
  let (second, cs) ← field 0 60 cs
  let (nano, cs) ← fraction cs
  let (ahead, cs) ← offset (Text.trimStart cs)
  if ¬ (Text.trimStart cs).isEmpty then throw .tooLong
  let leap := if second = 60 then nanosPerSecond else 0
  ofLocal ⟨year, month, day⟩ (hour * 3600 + minute * 60 + min second 59) (nano + leap) ahead

end Timestamp

/-- Moments as texts. -/
def Codec.timestamp : Codec Timestamp :=
  formatted "an RFC 3339 formatted date and time string"
    (fun s => (Timestamp.ofText s).mapError Timestamp.Fault.message) Timestamp.text

end FlowEngine
