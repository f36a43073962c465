/-!
# NullScript — places in a source text

A place is given by its line and column, counted from 1, and by the number of characters before
it. Reading a character moves the place; `Position.after` reads several.

* `Position.after_append` — reading two stretches of text one after the other is reading them as
  one.
* `Position.offset_after` — the offset counts the characters read.
-/

namespace NullScript

/-- A place in a source text. -/
structure Position where
  /-- The line, counted from 1. -/
  line : Nat
  /-- The column within the line, counted from 1. -/
  column : Nat
  /-- The number of characters of the text before this place. -/
  offset : Nat
deriving DecidableEq, Repr

namespace Position

/-- The place of the first character of a text. -/
def start : Position := ⟨1, 1, 0⟩

/-- The place behind a character: a newline opens the next line, any other character moves one
column on. -/
def next (p : Position) (c : Char) : Position :=
  if c = '\n' then ⟨p.line + 1, 1, p.offset + 1⟩ else ⟨p.line, p.column + 1, p.offset + 1⟩

/-- The place behind a stretch of text. -/
def after (p : Position) (text : List Char) : Position := text.foldl next p

/-- Line and column, as people write them. -/
def display (p : Position) : String := s!"{p.line}:{p.column}"

@[simp] theorem after_nil (p : Position) : p.after [] = p := rfl

@[simp] theorem after_cons (p : Position) (c : Char) (text : List Char) :
    p.after (c :: text) = (p.next c).after text := rfl

/-- Reading two stretches of text one after the other is reading them as one. -/
theorem after_append (p : Position) (a b : List Char) : p.after (a ++ b) = (p.after a).after b :=
  List.foldl_append

@[simp] theorem offset_next (p : Position) (c : Char) : (p.next c).offset = p.offset + 1 := by
  unfold next; split <;> rfl

/-- The offset counts the characters read. -/
@[simp] theorem offset_after (p : Position) (text : List Char) :
    (p.after text).offset = p.offset + text.length := by
  induction text generalizing p with
  | nil => rfl
  | cons c text ih => simp [ih]; omega

end Position

end NullScript
