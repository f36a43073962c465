import NullScript.Position

/-!
# NullScript — walking through a text

A cursor stands between two characters of a text and only moves forward. It knows the text that
is still ahead, the number of bytes behind it in the text's UTF-8 encoding, and its position.
-/

namespace NullScript

/-- The number of bytes of a text in UTF-8. -/
def byteLength : List Char → Nat
  | [] => 0
  | ch :: rest => ch.utf8Size + byteLength rest

/-- A place in a text together with what lies ahead. -/
structure Cursor where
  /-- The characters that have not been read. -/
  ahead : List Char
  /-- The number of bytes that the characters read so far take in UTF-8. -/
  byte : Nat
  /-- The place of the next character, or the end of the text. -/
  position : Position
deriving DecidableEq, Repr

namespace Cursor

/-- A cursor in front of the first character. -/
def ofText (text : String) : Cursor := ⟨text.toList, 0, .start⟩

/-- The character under the cursor. -/
def peek (c : Cursor) : Option Char := c.ahead.head?

/-- Reads the character under the cursor; at the end of the text nothing moves. -/
def advance (c : Cursor) : Option Char × Cursor :=
  match c.ahead with
  | [] => (none, c)
  | ch :: rest => (some ch, ⟨rest, c.byte + ch.utf8Size, c.position.next ch⟩)

/-- Reads characters as long as the byte offset is below the target. -/
def advanceWhileBelow (target : Nat) : List Char → Nat → Position → Cursor
  | [], byte, position => ⟨[], byte, position⟩
  | ch :: rest, byte, position =>
    if byte < target then
      advanceWhileBelow target rest (byte + ch.utf8Size) (position.next ch)
    else ⟨ch :: rest, byte, position⟩

/-- Moves to the first character boundary at or behind the byte offset, or to the end of the
text. A target that has been passed already moves nothing. -/
def advanceTo (c : Cursor) (target : Nat) : Cursor :=
  advanceWhileBelow target c.ahead c.byte c.position

end Cursor

end NullScript
