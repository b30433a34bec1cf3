import FlowEngine.Codec.Basic

/-!
# Identifiers

Universally unique identifiers: 128 bits, written as five groups of hexadecimal digits. Reading
also accepts upper case, the digits without hyphens, braces around the groups, and the URN form.

## Main definitions

* `Uuid`: an identifier.
* `Uuid.text`, `Uuid.ofText`: its text.
* `Uuid.Fault`: what can be wrong with such a text.
* `Codec.uuid`: its representation.
-/

namespace FlowEngine

/-- A universally unique identifier. -/
structure Uuid where
  bits : BitVec 128
  deriving DecidableEq

namespace Uuid

instance : Inhabited Uuid := ⟨⟨0⟩⟩

/-- The identifier with this number. -/
def ofNat (n : Nat) : Uuid := ⟨BitVec.ofNat 128 n⟩

/-- The lengths of the groups of digits. -/
def groups : List Nat := [8, 4, 4, 4, 12]

/-- Cuts a sequence into parts of the given lengths and puts a hyphen between any two. -/
def hyphenate : List Nat → List Char → List Char
  | [], _ => []
  | [n], cs => cs.take n
  | n :: ns, cs => cs.take n ++ '-' :: hyphenate ns (cs.drop n)

/-- The text of an identifier, in lower case. -/
def text (id : Uuid) : String := String.ofList (hyphenate groups (Text.hexDigits 32 id.bits.toNat))

/-- What can be wrong with the text of an identifier. -/
inductive Fault where
  | badCharacter (c : Char) (position : Nat)
  | badLength (length : Nat)
  | badGroupCount (count : Nat)
  | badGroupLength (group expected length : Nat)

/-- The message of a fault. -/
def Fault.message : Fault → String
  | .badCharacter c position =>
    "invalid character: found `" ++ c.toString ++ "` at " ++ toString position
  | .badLength length => "invalid length: found " ++ toString length
  | .badGroupCount count => "invalid group count: expected 5, found " ++ toString count
  | .badGroupLength group expected length =>
    s!"invalid group length in group {group}: expected {expected}, found {length}"

/-- The prefix of the URN form, which is read in either case. -/
def urn : List Char := "urn:uuid:".toList

/-- What is left of a sequence after a given beginning, in either case. -/
def after? : List Char → List Char → Option (List Char)
  | [], cs => some cs
  | c :: cs, d :: ds => if c = d.toLower then after? cs ds else none
  | _ :: _, [] => none

/-- What is written around the groups of a text. -/
inductive Wrapper where
  | braces
  | urn
  deriving DecidableEq

/-- The number of characters that a wrapper puts in front. -/
def Wrapper.front : Wrapper → Nat
  | .braces => 1
  | .urn => Uuid.urn.length

/-- The number of characters of a wrapper. -/
def Wrapper.size : Wrapper → Nat
  | .braces => 2
  | .urn => Uuid.urn.length

/-- The text without its wrapper, and the wrapper if it has one. -/
def unwrap (cs : List Char) : List Char × Option Wrapper :=
  match cs, cs.getLast? with
  | '\x7b' :: rest, some '\x7d' => (rest.dropLast, some .braces)
  | _, _ =>
    match after? urn cs with
    | some rest => (rest, some .urn)
    | none => (cs, none)

/-- The number that hexadecimal digits denote. -/
def hexValue? (cs : List Char) : Option Nat :=
  cs.foldlM (fun n c => (Text.hexValue? c).map fun d => 16 * n + d) 0

/-- The number that groups of digits with hyphens between them denote. -/
def grouped? (cs : List Char) : Option Nat :=
  if cs.length = 36 ∧ [8, 13, 18, 23].all fun i => cs[i]? == some '-' then
    let digits := cs.filter (· ≠ '-')
    if digits.length = 32 then hexValue? digits else none
  else none

/-- The number of bytes of a text in UTF-8. -/
def byteCount (cs : List Char) : Nat := (String.ofList cs).utf8ByteSize

/-- The length of a text in groups without a wrapper: 32 digits and 4 hyphens. -/
def groupedLength : Nat := 36

/-- The first character that is neither a digit nor a hyphen, with its position in bytes. -/
def firstBad (position : Nat) : List Char → Option Fault
  | [] => none
  | c :: cs =>
    if c = '-' ∨ (Text.hexValue? c).isSome then firstBad (position + 1) cs
    else some (.badCharacter c position)

/-- The positions of the hyphens. -/
def hyphens (cs : List Char) : List Nat := cs.zipIdx.filterMap fun (c, i) =>
  if c = '-' then some i else none

/-- What is wrong with a text that is no identifier, and is taken as a whole. Positions are those
in the text, and its last group is taken to last up to its end. -/
def faultIn (whole : List Char) : Fault :=
  let (cs, wrapper) := unwrap whole
  match firstBad (wrapper.elim 0 Wrapper.front) cs with
  | some fault => fault
  | none =>
    let bounds := hyphens cs
    if bounds.isEmpty ∧ wrapper.isNone then .badLength whole.length
    else if bounds.length ≠ 4 then .badGroupCount (bounds.length + 1)
    else
      let starts := [0, 9, 14, 19]
      let misplaced := ((bounds.zip starts).zip groups).zipIdx.find? fun (((bound, start), n), _) =>
        bound ≠ start + n
      match misplaced with
      | some (((bound, start), n), group) => .badGroupLength group n (bound - start)
      | none => .badGroupLength 4 12 (whole.length - 24)

/-- What is wrong with a text that is no identifier. If the length of a wrapped text is right, what
is wrong concerns what is inside, and positions are those inside. -/
def faultOf (cs : List Char) : Fault :=
  match unwrap cs with
  | (inner, some wrapper) =>
    if byteCount cs = groupedLength + wrapper.size then faultIn inner else faultIn cs
  | _ => faultIn cs

/-- The identifier of a text. -/
def ofText (s : String) : Except Fault Uuid :=
  let cs := s.toList
  let (inner, wrapper) := unwrap cs
  let found := if cs.length = 32 ∧ wrapper.isNone then hexValue? cs else grouped? inner
  match found with
  | some n => .ok (ofNat n)
  | none => .error (faultOf cs)

end Uuid

/-- Identifiers as texts. -/
def Codec.uuid : Codec Uuid :=
  formatted "a formatted UUID string"
    (fun s => (Uuid.ofText s).mapError fun fault => "UUID parsing failed: " ++ fault.message)
    Uuid.text

end FlowEngine
