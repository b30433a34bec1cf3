import FlowEngine.Text.Natural
import FlowEngine.Text.Printable

/-!
# Quoted text in messages

A text between double quotes, as error messages show it: quotes, backslashes and the common
controls have short escapes, and characters that cannot be shown on their own are given by their
code point.

## Main definitions

* `Text.quoted`: the quoted form.
-/

namespace FlowEngine

namespace Text

/-- One character inside a quoted text. -/
def quotedChar (c : Char) : List Char :=
  match c with
  | '"' => ['\\', '"']
  | '\\' => ['\\', '\\']
  | '\n' => ['\\', 'n']
  | '\r' => ['\\', 'r']
  | '\t' => ['\\', 't']
  | c =>
    if c.toNat = 0 then ['\\', '0']
    else if isHidden c then
      ['\\', 'u', '\x7b'] ++ Nat.toDigits 16 c.toNat ++ ['\x7d']
    else [c]

/-- A text between double quotes, with escapes where a character cannot be shown. -/
def quoted (text : String) : String :=
  String.ofList ('"' :: text.toList.flatMap quotedChar ++ ['"'])

end Text

end FlowEngine
