import FlowEngine.Decimal.Scaled
import FlowEngine.Json.Fault
import FlowEngine.Json.Glyph

/-!
# Scanning JSON text

The pieces of JSON text: blanks, words, strings, numbers, and the punctuation of lists and objects.
Every scanner takes what is left of the document and returns a result with what is left after it,
or says what is wrong. Besides, `skipValue` passes over a value that nobody asks for; it is more
lenient, since it checks neither how deep the value nests nor what its numbers and strings denote.

## Main definitions

* `Json.readString`, `Json.readNumber`: the content of a string after its opening quote, a number.
* `Json.nextItem`, `Json.nextKey`, `Json.readColon`: what stands between items and members.
* `Json.closeList`, `Json.closeObject`: the end of a list or object that asks for no more.
* `Json.skipValue`: what follows a value.
-/

namespace FlowEngine

namespace Json

/-- What follows the blanks that JSON allows between tokens. -/
def skipBlanks : Glyphs → Glyphs
  | some ' ' :: s | some '\n' :: s | some '\t' :: s | some '\r' :: s => skipBlanks s
  | s => s

/-- What follows the rest of a word. -/
def expectWord : List Char → Glyphs → Except Fault Glyphs
  | [], s => .ok s
  | _ :: _, [] => .error (.text .endInValue)
  | c :: cs, g :: s => if g = some c then expectWord cs s else .error (.text .expectedWord)

/-! ### Strings -/

/-- The value of a hexadecimal digit. -/
def hexGlyph? (g : Glyph) : Option Nat := g.bind Text.hexValue?

/-- Four hexadecimal digits. -/
def readHex (s : Glyphs) : Except Fault (Nat × Glyphs) :=
  match s with
  | a :: b :: c :: d :: rest =>
    match hexGlyph? a, hexGlyph? b, hexGlyph? c, hexGlyph? d with
    | some a, some b, some c, some d => .ok (((a * 16 + b) * 16 + c) * 16 + d, rest)
    | _, _, _, _ => .error (.text .badEscape)
  | s => .error (.text (if 4 ≤ Glyphs.byteSize s then .badEscape else .endInString))

/-- The second half of a surrogate pair whose first half has been read. -/
def readLowSurrogate (high : Nat) (s : Glyphs) : Except Fault (Char × Glyphs) :=
  match s with
  | [] => .error (.text .endInString)
  | some '\\' :: [] => .error (.text .endInString)
  | some '\\' :: some 'u' :: rest => do
    let (low, rest) ← readHex rest
    if 0xDC00 ≤ low ∧ low ≤ 0xDFFF then
      return (Char.ofNat (0x10000 + (high - 0xD800) * 0x400 + (low - 0xDC00)), rest)
    else throw (.text .loneSurrogate)
  | _ => .error (.text .unfinishedSurrogate)

/-- The character that an escape denotes, after its backslash. -/
def readEscape (s : Glyphs) : Except Fault (Char × Glyphs) :=
  match s with
  | [] => .error (.text .endInString)
  | some '"' :: s => .ok ('"', s)
  | some '\\' :: s => .ok ('\\', s)
  | some '/' :: s => .ok ('/', s)
  | some 'b' :: s => .ok ('\x08', s)
  | some 'f' :: s => .ok ('\x0c', s)
  | some 'n' :: s => .ok ('\n', s)
  | some 'r' :: s => .ok ('\r', s)
  | some 't' :: s => .ok ('\t', s)
  | some 'u' :: s => do
    let (unit, s) ← readHex s
    if 0xDC00 ≤ unit ∧ unit ≤ 0xDFFF then throw (.text .loneSurrogate)
    else if 0xD800 ≤ unit ∧ unit ≤ 0xDBFF then readLowSurrogate unit s
    else return (Char.ofNat unit, s)
  | _ => .error (.text .badEscape)

/-- The rest of a string: `before` holds its characters so far, last one first, and `stray` says
whether a byte that is part of no character came along. Each step takes at least one glyph, so the
length of the document is fuel enough. -/
def readStringFrom : Nat → List Char → Bool → Glyphs → Except Fault (String × Glyphs)
  | 0, _, _, _ | _, _, _, [] => .error (.text .endInString)
  | fuel + 1, before, stray, g :: s =>
    match g with
    | none => readStringFrom fuel before true s
    | some '"' =>
      if stray then .error (.text .badCodePoint) else .ok (String.ofList before.reverse, s)
    | some '\\' => do
      let (c, s) ← readEscape s
      readStringFrom fuel (c :: before) stray s
    | some c =>
      if c.toNat < 32 then .error (.text .controlCharacter)
      else readStringFrom fuel (c :: before) stray s

/-- The content of a string, after its opening quote. -/
def readString (s : Glyphs) : Except Fault (String × Glyphs) := readStringFrom s.length [] false s

/-! ### Numbers -/

/-- The value of a decimal digit. -/
def digitGlyph? (g : Glyph) : Option Nat := g.bind Text.digitValue?

/-- The digits in front, and what follows them. -/
def spanDigits : Glyphs → List Nat × Glyphs
  | [] => ([], [])
  | g :: s =>
    match digitGlyph? g with
    | some d => ((spanDigits s).map (d :: ·) id)
    | none => ([], g :: s)

/-- A number as written: its sign, its digits before and after the point, and its exponent. -/
structure Numeral where
  negative : Bool
  whole : List Nat
  fraction : Option (List Nat)
  exponent : Option (Bool × List Nat)

/-- At least one digit. If the document ends instead, the fault is `atEnd`. -/
def readDigits (atEnd : TextFault) (s : Glyphs) : Except Fault (List Nat × Glyphs) :=
  match spanDigits s with
  | ([], []) => .error (.text atEnd)
  | ([], _) => .error (.text .badNumber)
  | (digits, s) => .ok (digits, s)

/-- The digits before the point, without needless zeros in front. -/
def readWhole (atEnd : TextFault) (s : Glyphs) : Except Fault (List Nat × Glyphs) := do
  let (digits, s) ← readDigits atEnd s
  match digits with
  | 0 :: _ :: _ => throw (.text .badNumber)
  | digits => return (digits, s)

/-- The point and the digits after it, if there is a point. -/
def readFraction (atEnd : TextFault) (s : Glyphs) : Except Fault (Option (List Nat) × Glyphs) :=
  match s with
  | some '.' :: s => (readDigits atEnd s).map fun (digits, s) => (some digits, s)
  | s => .ok (none, s)

/-- Whether an exponent is negative, and its digits, after the letter in front of it. -/
def readPower (atEnd : TextFault) (s : Glyphs) : Except Fault ((Bool × List Nat) × Glyphs) :=
  match s with
  | some '-' :: s => (readDigits atEnd s).map fun (digits, s) => ((true, digits), s)
  | some '+' :: s => (readDigits atEnd s).map fun (digits, s) => ((false, digits), s)
  | s => (readDigits atEnd s).map fun (digits, s) => ((false, digits), s)

/-- The exponent, if there is one. -/
def readExponent (atEnd : TextFault) (s : Glyphs) :
    Except Fault (Option (Bool × List Nat) × Glyphs) :=
  match s with
  | some 'e' :: s | some 'E' :: s => (readPower atEnd s).map fun (power, s) => (some power, s)
  | s => .ok (none, s)

/-- A number as written. -/
def readNumeral (atEnd : TextFault) (s : Glyphs) : Except Fault (Numeral × Glyphs) := do
  let (negative, s) := match s with
    | some '-' :: s => (true, s)
    | s => (false, s)
  let (whole, s) ← readWhole atEnd s
  let (fraction, s) ← readFraction atEnd s
  let (exponent, s) ← readExponent atEnd s
  return (⟨negative, whole, fraction, exponent⟩, s)

/-- Takes digits into a significand for as long as it fits in 64 bits, and returns the digits that
are left over. -/
def significand (value : Nat) : List Nat → Nat × List Nat
  | [] => (value, [])
  | d :: ds =>
    if 10 * value + d < UInt64.size then significand (10 * value + d) ds else (value, d :: ds)

/-- The number that a sequence of digits denotes. -/
def ofDigits (digits : List Nat) : Nat := digits.foldl (fun n d => 10 * n + d) 0

/-- The value of a numeral. Integers that fit in 64 bits stay integers, except negative zero; all
else becomes a double, unless it is too large for one. -/
def Numeral.value? (n : Numeral) : Option Number :=
  let (whole, excess) := significand 0 n.whole
  let integral := n.fraction.isNone && n.exponent.isNone && excess.isEmpty
  if integral && !n.negative then some (.whole whole)
  else if integral && 0 < whole && whole ≤ UInt64.size / 2 then some (.whole (-whole))
  else
    let fraction := n.fraction.getD []
    let (value, ignored) := significand whole fraction
    let places : Int := excess.length - (fraction.length - ignored.length : Nat)
    let power : Int := match n.exponent with
      | none => 0
      | some (true, digits) => -(ofDigits digits : Int)
      | some (false, digits) => ofDigits digits
    (Decimal.scaled? value (places + power)).map fun x => .real (if n.negative then -x else x)

/-- A number. -/
def readNumber (s : Glyphs) : Except Fault (Number × Glyphs) := do
  let (numeral, s) ← readNumeral .endInValue s
  match numeral.value? with
  | some n => return (n, s)
  | none => throw (.text .numberOutOfRange)

/-- Whether a number starts here. -/
def startsNumber (g : Glyph) : Bool := g = some '-' || (digitGlyph? g).isSome

/-! ### Lists and objects -/

/-- What a list or object has next. -/
inductive Next where
  /-- Another item or member starts here. -/
  | more (s : Glyphs)
  /-- The closing bracket stands here. -/
  | done (s : Glyphs)

/-- Looks for the next item of a list; `first` says that none came before. -/
def nextItem (first : Bool) (s : Glyphs) : Except Fault Next :=
  match skipBlanks s with
  | [] => .error (.text .endInList)
  | some ']' :: s => .ok (.done (some ']' :: s))
  | g :: s =>
    if first then .ok (.more (g :: s))
    else if g = some ',' then
      match skipBlanks s with
      | [] => .error (.text .endInValue)
      | some ']' :: _ => .error (.text .trailingComma)
      | s => .ok (.more s)
    else .error (.text .expectedListEnd)

/-- Looks for the next key of an object, past its opening quote; `first` says that none came
before. -/
def nextKey (first : Bool) (s : Glyphs) : Except Fault Next :=
  match skipBlanks s with
  | [] => .error (.text .endInObject)
  | some '\x7d' :: s => .ok (.done (some '\x7d' :: s))
  | g :: s =>
    if first then
      if g = some '"' then .ok (.more s) else .error (.text .keyNotString)
    else if g = some ',' then
      match skipBlanks s with
      | [] => .error (.text .endInValue)
      | some '"' :: s => .ok (.more s)
      | some '\x7d' :: _ => .error (.text .trailingComma)
      | _ => .error (.text .keyNotString)
    else .error (.text .expectedObjectEnd)

/-- What follows the colon after a key. -/
def readColon (s : Glyphs) : Except Fault Glyphs :=
  match skipBlanks s with
  | [] => .error (.text .endInObject)
  | some ':' :: s => .ok s
  | _ => .error (.text .expectedColon)

/-- The end of a list, where no further item is asked for. -/
def closeList (s : Glyphs) : Except Fault Glyphs :=
  match skipBlanks s with
  | [] => .error (.text .endInList)
  | some ']' :: s => .ok s
  | some ',' :: s =>
    match skipBlanks s with
    | some ']' :: _ => .error (.text .trailingComma)
    | _ => .error (.text .trailingCharacters)
  | _ => .error (.text .trailingCharacters)

/-- The end of an object, where no further member is asked for. -/
def closeObject (s : Glyphs) : Except Fault Glyphs :=
  match skipBlanks s with
  | [] => .error (.text .endInObject)
  | some '\x7d' :: s => .ok s
  | some ',' :: _ => .error (.text .trailingComma)
  | _ => .error (.text .trailingCharacters)

/-- The end of a document. -/
def closeDocument (s : Glyphs) : Except Fault Unit :=
  match skipBlanks s with
  | [] => .ok ()
  | _ => .error (.text .trailingCharacters)

/-- The items up to and without the closing bracket; each step takes at least one glyph. -/
def readItemsFrom {α : Type} (item : Glyphs → Except Fault (α × Glyphs)) :
    Nat → Bool → Glyphs → Except Fault (List α × Glyphs)
  | 0, _, _ => .error (.text .endInList)
  | fuel + 1, first, s => do
    match ← nextItem first s with
    | .done s => return ([], s)
    | .more s =>
      let (x, s) ← item s
      let (xs, s) ← readItemsFrom item fuel false s
      return (x :: xs, s)

/-- The items of a list, after its opening bracket and up to its closing one. -/
def readItems {α : Type} (item : Glyphs → Except Fault (α × Glyphs)) (s : Glyphs) :
    Except Fault (List α × Glyphs) :=
  readItemsFrom item (s.length + 1) true s

/-- The members up to and without the closing brace; each step takes at least one glyph. -/
def readMembersFrom {α : Type} (value : Glyphs → Except Fault (α × Glyphs)) :
    Nat → Bool → Glyphs → Except Fault (List (String × α) × Glyphs)
  | 0, _, _ => .error (.text .endInObject)
  | fuel + 1, first, s => do
    match ← nextKey first s with
    | .done s => return ([], s)
    | .more s =>
      let (key, s) ← readString s
      let s ← readColon s
      let (x, s) ← value s
      let (xs, s) ← readMembersFrom value fuel false s
      return ((key, x) :: xs, s)

/-- The members of an object, after its opening brace and up to its closing one. -/
def readMembers {α : Type} (value : Glyphs → Except Fault (α × Glyphs)) (s : Glyphs) :
    Except Fault (List (String × α) × Glyphs) :=
  readMembersFrom value (s.length + 1) true s

/-! ### Skipping -/

/-- What follows a string, after its opening quote. Its escapes are checked one by one, and what
its bytes denote is not. -/
def skipStringFrom : Nat → Glyphs → Except Fault Glyphs
  | 0, _ | _, [] => .error (.text .endInString)
  | fuel + 1, g :: s =>
    match g with
    | none => skipStringFrom fuel s
    | some '"' => .ok s
    | some '\\' =>
      match s with
      | [] => .error (.text .endInString)
      | some 'u' :: s => do
        let (_, s) ← readHex s
        skipStringFrom fuel s
      | some c :: s =>
        if c ∈ ['"', '\\', '/', 'b', 'f', 'n', 'r', 't'] then skipStringFrom fuel s
        else .error (.text .badEscape)
      | none :: _ => .error (.text .badEscape)
    | some c =>
      if c.toNat < 32 then .error (.text .controlCharacter) else skipStringFrom fuel s

/-- What follows a string, after its opening quote. -/
def skipString (s : Glyphs) : Except Fault Glyphs := skipStringFrom s.length s

/-- What is open around a value that is being skipped. -/
inductive Frame where
  | list
  | object
  deriving DecidableEq

/-- The glyph that closes a frame. -/
def Frame.closing : Frame → Char
  | .list => ']'
  | .object => '\x7d'

/-- The fault of a document that ends inside a frame. -/
def Frame.atEnd : Frame → Fault
  | .list => .text .endInList
  | .object => .text .endInObject

/-- The fault of a value in a frame that is followed by neither a comma nor the frame's end. -/
def Frame.unclosed : Frame → Fault
  | .list => .text .expectedListEnd
  | .object => .text .expectedObjectEnd

/-- Where the skipping of a value stands. -/
inductive Skip where
  /-- A value comes next. -/
  | value
  /-- A frame has just been opened. -/
  | opened
  /-- An item or a member of the innermost frame comes next. -/
  | member
  /-- A value has just ended. -/
  | ended

/-- Passes over a value with the given open frames, innermost first. Of four steps in a row at
least one takes a glyph. -/
def skipFrom : Nat → Skip → List Frame → Glyphs → Except Fault Glyphs
  | 0, _, _, _ => .error (.text .endInValue)
  | fuel + 1, .value, frames, s =>
    match skipBlanks s with
    | [] => .error (.text .endInValue)
    | some 'n' :: s => do skipFrom fuel .ended frames (← expectWord ['u', 'l', 'l'] s)
    | some 't' :: s => do skipFrom fuel .ended frames (← expectWord ['r', 'u', 'e'] s)
    | some 'f' :: s => do skipFrom fuel .ended frames (← expectWord ['a', 'l', 's', 'e'] s)
    | some '"' :: s => do skipFrom fuel .ended frames (← skipString s)
    | some '[' :: s => skipFrom fuel .opened (.list :: frames) s
    | some '\x7b' :: s => skipFrom fuel .opened (.object :: frames) s
    | g :: s =>
      if startsNumber g then do
        let (_, s) ← readNumeral .badNumber (g :: s)
        skipFrom fuel .ended frames s
      else .error (.text .expectedValue)
  | _ + 1, .ended, [], s => .ok s
  | fuel + 1, .ended, frame :: frames, s =>
    match skipBlanks s with
    | [] => .error frame.atEnd
    | some c :: s =>
      if c = ',' then skipFrom fuel .member (frame :: frames) s
      else if c = frame.closing then skipFrom fuel .ended frames s
      else .error frame.unclosed
    | none :: _ => .error frame.unclosed
  | _ + 1, .opened, [], s => .ok s
  | fuel + 1, .opened, frame :: frames, s =>
    match skipBlanks s with
    | [] => .error frame.atEnd
    | g :: s =>
      if g = some frame.closing then skipFrom fuel .ended frames s
      else skipFrom fuel .member (frame :: frames) (g :: s)
  | fuel + 1, .member, .object :: frames, s =>
    match skipBlanks s with
    | [] => .error (.text .endInObject)
    | some '"' :: s => do
      let s ← skipString s
      skipFrom fuel .value (.object :: frames) (← readColon s)
    | _ => .error (.text .keyNotString)
  | fuel + 1, .member, frames, s => skipFrom fuel .value frames s

/-- What follows a value that nobody asks for. -/
def skipValue (s : Glyphs) : Except Fault Glyphs := skipFrom (4 * s.length + 4) .value [] s

end Json

end FlowEngine
