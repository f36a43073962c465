import NullScript.Cursor
import NullScript.Token.Piece

/-!
# NullScript — reading a text token by token

A lexer hands out one token after the other. It cuts pieces off the front of the text and counts
the bytes that they take; a cursor follows through the same text and tells the places. What is
wrong with a piece is noted with its byte offset, and reported in the order of the offsets once the
piece is complete, so the cursor only ever moves forward.

Asking for one more token gives a `Reading`: the errors met on the way, and the token with its
place. The last reading has no token and stands at the end of the text, and so do all that are
asked for after it.
-/

namespace NullScript

/-- What is met when one more token is asked for. -/
structure Reading where
  errors : List SourceError
  /-- The token, or nothing at the end of the text. -/
  token : Option Token
  position : Position
deriving DecidableEq

/-- The reading with errors before all others. -/
def Reading.precededBy (es : List SourceError) (r : Reading) : Reading :=
  { r with errors := es ++ r.errors }

/-- Brings faults into the order of their places. Those at the same place stay in their order. -/
def inOrder (faults : List (Nat × LexicalFault)) : List (Nat × LexicalFault) :=
  faults.mergeSort fun x y => x.1 ≤ y.1

/-- The faults of a piece with their byte offsets in the text, in which the piece has `byte` bytes
before it. -/
def Piece.problems (p : Piece) (byte : Nat) : List (Nat × LexicalFault) :=
  p.faults.map fun x => (byte + byteLength (p.text.take x.1), x.2)

/-- Moves to one byte offset after the other and reports what was noted there. -/
def Cursor.report (c : Cursor) : List (Nat × LexicalFault) → List SourceError × Cursor
  | [] => ([], c)
  | (byte, fault) :: problems =>
    let here := c.advanceTo byte
    let (errors, c) := here.report problems
    (⟨.lexical fault, here.position⟩ :: errors, c)

/-- A text in the course of being read. -/
structure Lexer where
  limits : Limits
  /-- The characters that have not been cut into pieces. -/
  ahead : List Char
  /-- The number of bytes before them. -/
  byte : Nat
  /-- It stands where the last place was told. -/
  cursor : Cursor

namespace Lexer

/-- A lexer in front of the first character. -/
def ofText (limits : Limits) (text : List Char) : Lexer :=
  ⟨limits, text, 0, .ofText (String.ofList text)⟩

/-- Cuts off the first piece of the text, given the first character and the rest: the errors in the
piece, and the lexer behind it. -/
def cut (l : Lexer) (c : Char) (cs : List Char) : List SourceError × Lexer :=
  let (piece, rest) := Piece.recognise l.limits c cs
  let (errors, cursor) := (l.cursor.advanceTo l.byte).report (inOrder (piece.problems l.byte))
  (errors, ⟨l.limits, rest, l.byte + byteLength piece.text, cursor⟩)

theorem length_cut_lt (l : Lexer) (c : Char) (cs : List Char) :
    (l.cut c cs).2.ahead.length < (c :: cs).length :=
  Piece.length_recognise_lt l.limits c cs

/-- Reads on to the next token, or to the end of the text. -/
def next (l : Lexer) : Reading × Lexer :=
  let here := l.cursor.advanceTo l.byte
  match _hahead : l.ahead with
  | [] => (⟨[], none, here.position⟩, { l with cursor := here })
  | c :: cs =>
    let cut := l.cut c cs
    match (Piece.recognise l.limits c cs).1.token with
    | some token => (⟨cut.1, some token, here.position⟩, cut.2)
    | none =>
      let more := cut.2.next
      (more.1.precededBy cut.1, more.2)
termination_by l.ahead.length
decreasing_by
  rw [_hahead]
  exact l.length_cut_lt c cs

/-- At the end of the text. -/
theorem next_of_ahead_nil {l : Lexer} (h : l.ahead = []) :
    l.next = (⟨[], none, (l.cursor.advanceTo l.byte).position⟩,
      { l with cursor := l.cursor.advanceTo l.byte }) := by
  rw [next]
  split
  · rfl
  · next c cs hahead => rw [h] at hahead; cases hahead

/-- At a piece: its token, or what is met behind it. -/
theorem next_of_ahead_cons {l : Lexer} {c : Char} {cs : List Char} (h : l.ahead = c :: cs) :
    l.next =
      match (Piece.recognise l.limits c cs).1.token with
      | some token => (⟨(l.cut c cs).1, some token, (l.cursor.advanceTo l.byte).position⟩,
          (l.cut c cs).2)
      | none => ((l.cut c cs).2.next.1.precededBy (l.cut c cs).1, (l.cut c cs).2.next.2) := by
  rw [next]
  split
  · next hahead => rw [h] at hahead; cases hahead
  · next c' cs' hahead =>
    rw [h] at hahead
    cases hahead
    rfl

/-- A token leaves less of the text. -/
theorem length_next_lt (l : Lexer) (h : l.next.1.token.isSome) :
    l.next.2.ahead.length < l.ahead.length := by
  induction hn : l.ahead.length using Nat.strongRecOn generalizing l with
  | ind n ih =>
    subst hn
    cases hahead : l.ahead with
    | nil =>
      rw [next_of_ahead_nil hahead] at h
      cases h
    | cons c cs =>
      have hcut := l.length_cut_lt c cs
      rw [next_of_ahead_cons hahead] at h ⊢
      cases htoken : (Piece.recognise l.limits c cs).1.token with
      | some token => exact hcut
      | none =>
        rw [htoken] at h
        rw [hahead] at ih
        exact Nat.lt_trans (ih _ hcut _ h rfl) hcut

/-- The readings up to and including the end of the text. -/
def readings (l : Lexer) : List Reading :=
  let n := l.next
  if _hmore : n.1.token.isSome then n.1 :: n.2.readings else [n.1]
termination_by l.ahead.length
decreasing_by exact l.length_next_lt _hmore

/-- As many readings as asked for. -/
def take (l : Lexer) : Nat → List Reading
  | 0 => []
  | count + 1 =>
    let n := l.next
    n.1 :: n.2.take count

end Lexer

/-- The readings of a text, up to and including the end of the text. -/
def readings (limits : Limits) (text : List Char) : List Reading :=
  (Lexer.ofText limits text).readings

/-- The first readings of a text, as many as asked for. -/
def firstReadings (limits : Limits) (text : List Char) (count : Nat) : List Reading :=
  (Lexer.ofText limits text).take count

end NullScript
