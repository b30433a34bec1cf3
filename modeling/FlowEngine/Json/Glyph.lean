/-!
# Document text

A document arrives as bytes that are meant to be UTF-8. A glyph is a character, or a stray byte
that is part of no character.

## Main definitions

* `Json.Glyph`, `Json.Glyphs`: characters and stray bytes.
* `Json.Glyphs.ofString`, `Json.Glyphs.ofBytes`: the glyphs of a text and of a byte sequence.
-/

namespace FlowEngine

namespace Json

/-- A character, or none for a byte that is part of no character. -/
abbrev Glyph := Option Char

/-- A document, or what is left of it. -/
abbrev Glyphs := List Glyph

/-- How many bytes a glyph takes. -/
def Glyph.byteSize : Glyph → Nat
  | some c => c.utf8Size
  | none => 1

namespace Glyphs

/-- The glyphs of a text are its characters. -/
def ofString (s : String) : Glyphs := s.toList.map some

/-- The glyphs of the bytes from a position on, at most `fuel` of them. -/
def ofBytesFrom (bytes : ByteArray) : Nat → Nat → Glyphs
  | 0, _ => []
  | fuel + 1, position =>
    if position < bytes.size then
      match bytes.utf8DecodeChar? position with
      | some c => some c :: ofBytesFrom bytes fuel (position + c.utf8Size)
      | none => none :: ofBytesFrom bytes fuel (position + 1)
    else []

/-- The glyphs of a byte sequence. -/
def ofBytes (bytes : ByteArray) : Glyphs := ofBytesFrom bytes bytes.size 0

/-- How many bytes are left. -/
def byteSize (s : Glyphs) : Nat := s.foldr (fun g n => g.byteSize + n) 0

@[simp] theorem ofString_append (s t : String) :
    ofString (s ++ t) = ofString s ++ ofString t := by simp [ofString]

@[simp] theorem ofString_ofList (cs : List Char) : ofString (String.ofList cs) = cs.map some := by
  simp [ofString]

end Glyphs

end Json

end FlowEngine
