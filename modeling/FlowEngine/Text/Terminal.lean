/-!
# Text without control sequences

Messages that quote their input must not let it control the terminal. Control characters other than
blanks and the sequences that an escape character begins are left out of them.

## Main definitions

* `Text.Sequence`: what kind of control sequence a text is in.
* `Text.withoutControls`: a text without control sequences.
-/

namespace FlowEngine

namespace Text

/-- What kind of control sequence the next character belongs to. -/
inductive Sequence where
  /-- To none. -/
  | none
  /-- Whatever follows an escape character. -/
  | escape
  /-- A sequence of parameters, up to a letter. -/
  | parameters
  /-- A title or the like, which a bell ends. -/
  | title
  /-- Data, which only another escape character ends. -/
  | data
  deriving DecidableEq

/-- The escape character. -/
def escapeChar : Char := '\x1b'

/-- Whether a character is a control character that stands for a blank. -/
def isControlBlank (c : Char) : Bool := c == '\t' || c == '\n' || c == '\x0c' || c == '\r'

/-- Whether a character is a control character. -/
def isControl (c : Char) : Bool := c.toNat < 32 || c.toNat == 127

/-- What kind of sequence goes on after a character. -/
def Sequence.next (s : Sequence) (c : Char) : Sequence :=
  if c = escapeChar then .escape
  else if c = '\x18' ∨ c = '\x1a' then .none
  else match s with
    | .none => .none
    | .escape =>
      if isControl c || '\x20' ≤ c && c ≤ '\x2f' then .escape
      else if c = '[' then .parameters
      else if c = ']' then .title
      else if c ∈ ['P', 'X', '^', '_'] then .data
      else .none
    | .parameters => if '@' ≤ c && c ≤ '~' then .none else .parameters
    | .title => if c = '\x07' then .none else .title
    | .data => .data

/-- Whether a character is shown. Blanks are shown even in the midst of some sequences. -/
def Sequence.shows (s : Sequence) (c : Char) : Bool :=
  match s with
  | .none => !isControl c || isControlBlank c
  | .escape | .parameters => isControlBlank c
  | .title | .data => false

/-- The characters that are shown. -/
def shown : Sequence → List Char → List Char
  | _, [] => []
  | s, c :: cs => if s.shows c then c :: shown (s.next c) cs else shown (s.next c) cs

/-- A text without control sequences. -/
def withoutControls (s : String) : String := String.ofList (shown .none s.toList)

end Text

end FlowEngine
