import Mathlib.Order.Bounds.Defs
import NullScript.Proofs.Cursor

/-!
# NullScript — how far a cursor got

A cursor is moved by reading characters and by being sent to byte offsets, whatever these are:
offsets behind it, in the middle of a character, or beyond the end. It always stands where the text
can be cut, and what it knows depends on nothing but this place: the part behind the cut is ahead of
it, and the part before the cut leads to its position.

* `Cursor.advanceTo_advanceTo` — being sent on is being sent to the farther of two offsets at once.
* `Cursor.exists_moves_eq` — any calls take a cursor as far as being sent once.
* `Cursor.exists_advanceTo_ofPos` — where a cursor ends that is sent to an offset.
* `cursor_follows_text` — what holds of a cursor behind any calls.
-/

namespace NullScript

namespace Cursor

-- ---------------------------------------------------------------------------
-- Calls
-- ---------------------------------------------------------------------------

/-- A call that may move a cursor. -/
inductive Move where
  /-- Read a character. -/
  | advance
  /-- Go to a byte offset. -/
  | advanceTo (target : Nat)
deriving DecidableEq, Repr

/-- The cursor behind a call. -/
def move (c : Cursor) : Move → Cursor
  | .advance => c.advance.2
  | .advanceTo target => c.advanceTo target

/-- The cursor behind calls that are made one after the other. -/
def moves (c : Cursor) (ms : List Move) : Cursor := ms.foldl move c

/-- At the end of the text nothing moves. -/
theorem advanceTo_of_ahead_nil {c : Cursor} (h : c.ahead = []) (target : Nat) :
    c.advanceTo target = c := by
  obtain ⟨ahead, byte, position⟩ := c
  cases h
  rfl

/-- A target ahead takes one more character. -/
theorem advanceTo_of_lt {c : Cursor} {target : Nat} (h : c.byte < target) :
    c.advanceTo target = c.advance.2.advanceTo target := by
  obtain ⟨ahead, byte, position⟩ := c
  cases ahead with
  | nil => rfl
  | cons ch rest => exact if_pos h

theorem advance_of_ahead_cons {c : Cursor} {ch : Char} {rest : List Char}
    (h : c.ahead = ch :: rest) :
    c.advance = (some ch, ⟨rest, c.byte + ch.utf8Size, c.position.next ch⟩) := by
  rw [advance, h]

theorem ahead_advance {c : Cursor} {ch : Char} {rest : List Char} (h : c.ahead = ch :: rest) :
    c.advance.2.ahead = rest := by
  rw [advance_of_ahead_cons h]

/-- Reading a character is going to the next place at which a character starts, or to the end. -/
theorem advance_eq (c : Cursor) : c.advance = (c.peek, c.advanceTo (c.byte + 1)) := by
  obtain ⟨ahead, byte, position⟩ := c
  cases ahead with
  | nil => rfl
  | cons ch rest =>
    have hle : byte + 1 ≤ byte + ch.utf8Size := Nat.add_le_add_left ch.utf8Size_pos byte
    rw [advanceTo_of_lt (Nat.lt_succ_self byte)]
    exact congrArg (some ch, ·) (advanceTo_of_le hle).symm

/-- Being sent somewhere moves no cursor backwards. -/
theorem byte_le_advanceTo (c : Cursor) (target : Nat) : c.byte ≤ (c.advanceTo target).byte := by
  -- induction on the characters ahead: the target takes the first one, or has been passed
  induction hahead : c.ahead generalizing c with
  | nil => exact Nat.le_of_eq (congrArg byte (advanceTo_of_ahead_nil hahead target).symm)
  | cons ch rest ih =>
    rcases Nat.lt_or_ge c.byte target with hlt | hge
    · rw [advanceTo_of_lt hlt]
      refine Nat.le_trans ?_ (ih _ (ahead_advance hahead))
      rw [advance_of_ahead_cons hahead]
      exact Nat.le_add_right _ _
    · exact Nat.le_of_eq (congrArg byte (advanceTo_of_le hge).symm)

/-- **Being sent on** is being sent to the farther of the two offsets at once. -/
theorem advanceTo_advanceTo (c : Cursor) (a b : Nat) :
    (c.advanceTo a).advanceTo b = c.advanceTo (max a b) := by
  -- induction on the characters ahead
  induction hahead : c.ahead generalizing c with
  | nil =>
    rw [advanceTo_of_ahead_nil hahead, advanceTo_of_ahead_nil hahead,
      advanceTo_of_ahead_nil hahead]
  | cons ch rest ih =>
    rcases Nat.lt_or_ge c.byte a with hlt | hge
    · have hmax : c.byte < max a b := Nat.lt_of_lt_of_le hlt (Nat.le_max_left a b)
      rw [advanceTo_of_lt hlt, advanceTo_of_lt hmax]
      exact ih _ (ahead_advance hahead)
    -- The first offset has been passed, so only the second one can be farther.
    · rw [advanceTo_of_le hge]
      rcases Nat.le_total a b with hab | hba
      · rw [Nat.max_eq_right hab]
      · rw [Nat.max_eq_left hba, advanceTo_of_le hge, advanceTo_of_le (Nat.le_trans hba hge)]

/-- Any call is being sent somewhere. -/
theorem exists_move_eq (c : Cursor) (m : Move) : ∃ target, c.move m = c.advanceTo target := by
  cases m with
  | advance => exact ⟨c.byte + 1, congrArg Prod.snd c.advance_eq⟩
  | advanceTo target => exact ⟨target, rfl⟩

/-- **Any calls** take a cursor as far as being sent once. -/
theorem exists_moves_eq (c : Cursor) (ms : List Move) :
    ∃ target, c.moves ms = c.advanceTo target := by
  -- induction on the calls, each of which is being sent somewhere
  induction ms generalizing c with
  | nil => exact ⟨c.byte, (advanceTo_of_le (Nat.le_refl _)).symm⟩
  | cons m ms ih =>
    obtain ⟨target, htarget⟩ := c.exists_move_eq m
    obtain ⟨farther, hfarther⟩ := ih (c.move m)
    exact ⟨max target farther, by
      rw [moves, List.foldl_cons, ← moves, hfarther, htarget, advanceTo_advanceTo]⟩

-- ---------------------------------------------------------------------------
-- Places in a text
-- ---------------------------------------------------------------------------

section

variable {text : String}

/-- The cursor that has got as far as a character boundary of a text. -/
def ofPos (p : text.Pos) : Cursor where
  ahead := (text.sliceFrom p).copy.toList
  byte := p.offset.byteIdx
  position := Position.start.after (text.sliceTo p).copy.toList

@[simp] theorem byte_ofPos (p : text.Pos) : (ofPos p).byte = p.offset.byteIdx := rfl

-- By `rfl` alone the two fields below would be compared through the decoding of the text.
@[simp] theorem ahead_ofPos (p : text.Pos) :
    (ofPos p).ahead = (text.sliceFrom p).copy.toList := by
  rw [ofPos]

@[simp] theorem position_ofPos (p : text.Pos) :
    (ofPos p).position = Position.start.after (text.sliceTo p).copy.toList := by
  rw [ofPos]

theorem peek_ofPos (p : text.Pos) : (ofPos p).peek = (text.sliceFrom p).front? := by
  rw [peek, ahead_ofPos, String.Slice.front?_eq]

/-- A new cursor stands at the start of the text. -/
theorem ofPos_startPos : ofPos text.startPos = ofText text := by
  have hsplits := String.splits_startPos text
  rw [ofPos, hsplits.copy_sliceTo_eq, hsplits.copy_sliceFrom_eq]
  rfl

theorem ahead_ofPos_endPos : (ofPos text.endPos).ahead = [] := by
  rw [ahead_ofPos, (String.splits_endPos text).copy_sliceFrom_eq]
  rfl

/-- Reading the character behind a boundary leads to the next boundary. -/
theorem advance_ofPos {p : text.Pos} (hp : p ≠ text.endPos) :
    (ofPos p).advance = (some (p.get hp), ofPos (p.next hp)) := by
  -- the three fields of the cursor: what is ahead, the bytes and the position
  have hahead : (ofPos p).ahead = p.get hp :: (ofPos (p.next hp)).ahead := by
    rw [ahead_ofPos, ahead_ofPos, (p.splits_next_right hp).copy_sliceFrom_eq, String.toList_append,
      String.toList_singleton, List.singleton_append]
  have hbyte : (ofPos p).byte + (p.get hp).utf8Size = (ofPos (p.next hp)).byte :=
    (p.byteIdx_offset_next hp).symm
  have hposition : (ofPos p).position.next (p.get hp) = (ofPos (p.next hp)).position := by
    rw [position_ofPos, position_ofPos, (p.splits_next hp).copy_sliceTo_eq, String.toList_append,
      Position.after_append, String.toList_singleton]
    rfl
  rw [advance_of_ahead_cons hahead, hbyte, hposition]

/-- **Where a cursor ends** that is sent to an offset: at the first boundary that is neither before
the offset nor before the cursor, or at the end of the text. -/
theorem exists_advanceTo_ofPos (p : text.Pos) (target : Nat) :
    ∃ q : text.Pos, (ofPos p).advanceTo target = ofPos q ∧ p ≤ q ∧
      (target ≤ q.offset.byteIdx ∨ q = text.endPos) ∧
      ∀ r : text.Pos, p ≤ r → target ≤ r.offset.byteIdx → q ≤ r := by
  -- induction from the end of the text back to `p`
  induction p using String.Pos.next_induction with
  | endPos =>
    exact ⟨text.endPos, advanceTo_of_ahead_nil ahead_ofPos_endPos target, String.Pos.le_refl _,
      .inr rfl, fun _ hle _ => hle⟩
  | next p hp ih =>
    rcases Nat.lt_or_ge p.offset.byteIdx target with hlt | hge
    · obtain ⟨q, hq, hle, hreach, hleast⟩ := ih
      refine ⟨q, ?_, String.Pos.le_trans (String.Pos.le_of_lt String.Pos.lt_next) hle, hreach, ?_⟩
      · have hbelow : (ofPos p).byte < target := hlt
        rw [advanceTo_of_lt hbelow, advance_ofPos hp]
        exact hq
      -- `p` has not reached the offset, so a boundary that has is behind `p`.
      · intro r _ htarget
        have hbehind : p < r :=
          String.Pos.lt_iff.mpr (String.Pos.Raw.lt_iff.mpr (Nat.lt_of_lt_of_le hlt htarget))
        exact hleast r (String.Pos.next_le_of_lt hbehind) htarget
    -- `p` is not before the offset, and it is the least boundary that is not before itself
    · exact ⟨p, advanceTo_of_le hge, String.Pos.le_refl p, .inl hge, fun _ hr _ => hr⟩

/-- **Any calls** leave a cursor at a character boundary. -/
theorem exists_moves_eq_ofPos (text : String) (ms : List Move) :
    ∃ p : text.Pos, (ofText text).moves ms = ofPos p := by
  obtain ⟨target, htarget⟩ := (ofText text).exists_moves_eq ms
  obtain ⟨p, hp, -⟩ := exists_advanceTo_ofPos text.startPos target
  exact ⟨p, by rw [htarget, ← ofPos_startPos, hp]⟩

end

end Cursor

-- ---------------------------------------------------------------------------
-- What holds behind any calls
-- ---------------------------------------------------------------------------

/-- The byte offsets at which a text can be cut: where a character starts, and the end. -/
def boundaries (text : String) : Set Nat := {n | ∃ p : text.Pos, p.offset.byteIdx = n}

/-- What holds of a cursor that has walked through a text. -/
structure Cursor.Follows (text : String) (c : Cursor) : Prop where
  /-- It stands where the text can be cut, and not beyond the end. The character under it is the
  first one behind the cut, and its position is where all characters before the cut lead to. -/
  stands : ∃ p : text.Pos, c.byte = p.offset.byteIdx ∧ c.byte ≤ text.utf8ByteSize ∧
    c.ahead = (text.sliceFrom p).copy.toList ∧ c.peek = (text.sliceFrom p).front? ∧
    c.position = Position.start.after (text.sliceTo p).copy.toList
  /-- It depends on nothing but how far it got. -/
  determined : ∀ ms, ((ofText text).moves ms).byte = c.byte → (ofText text).moves ms = c
  /-- No calls move it backwards. -/
  forward : ∀ ms, c.byte ≤ (c.moves ms).byte
  /-- Reading gives the character under it, and goes to the next boundary or stays at the end. -/
  reads : c.advance = (c.peek, c.advanceTo (c.byte + 1))
  /-- Sent to an offset, it goes to the first boundary that is neither before the offset nor before
  itself. -/
  reaches : ∀ target ≤ text.utf8ByteSize,
    IsLeast {n ∈ boundaries text | target ≤ n ∧ c.byte ≤ n} (c.advanceTo target).byte
  /-- Sent to the end or beyond, it goes to the end. -/
  ends : ∀ target ≥ text.utf8ByteSize, (c.advanceTo target).byte = text.utf8ByteSize
  /-- Sent to one offset and then to another, it goes to the farther one. -/
  joins : ∀ a b, (c.advanceTo a).advanceTo b = c.advanceTo (max a b)

namespace Cursor

section

variable {text : String}

/-- Sent to an offset, a cursor goes to the least boundary ahead that has reached it. -/
theorem isLeast_byte_advanceTo (p : text.Pos) {target : Nat}
    (htarget : target ≤ text.utf8ByteSize) :
    IsLeast {n ∈ boundaries text | target ≤ n ∧ p.offset.byteIdx ≤ n}
      ((ofPos p).advanceTo target).byte := by
  obtain ⟨q, hq, hle, hreach, hleast⟩ := exists_advanceTo_ofPos p target
  rw [hq]
  constructor
  · -- it stands at such a boundary, since the end of the text has reached the offset as well
    refine ⟨⟨q, rfl⟩, ?_, hle⟩
    rcases hreach with hreach | rfl
    · exact hreach
    · exact htarget
  · -- any other boundary that has reached the offset is not before it
    rintro _ ⟨⟨r, rfl⟩, hr, hpr⟩
    exact hleast r hpr hr

/-- Sent to the end or beyond, a cursor goes to the end. -/
theorem byte_advanceTo_of_ge (p : text.Pos) {target : Nat}
    (htarget : text.utf8ByteSize ≤ target) :
    ((ofPos p).advanceTo target).byte = text.utf8ByteSize := by
  obtain ⟨q, hq, -, hreach, -⟩ := exists_advanceTo_ofPos p target
  rw [hq]
  rcases hreach with hreach | rfl
  · exact Nat.le_antisymm q.isValid.le_utf8ByteSize (Nat.le_trans htarget hreach)
  · rfl

/-- At every boundary of a text the cursor that belongs to it follows the text. -/
theorem follows_ofPos (p : text.Pos) : (ofPos p).Follows text where
  stands := ⟨p, byte_ofPos p, p.isValid.le_utf8ByteSize, ahead_ofPos p, peek_ofPos p,
    position_ofPos p⟩
  determined := by
    intro ms hbyte
    obtain ⟨q, hq⟩ := exists_moves_eq_ofPos text ms
    rw [hq] at hbyte ⊢
    -- the boundary is determined by its bytes
    have hpos : q = p := String.Pos.ext (String.Pos.Raw.ext hbyte)
    rw [hpos]
  forward := by
    intro ms
    obtain ⟨target, htarget⟩ := (ofPos p).exists_moves_eq ms
    rw [htarget]
    exact byte_le_advanceTo _ target
  reads := advance_eq _
  reaches _ := isLeast_byte_advanceTo p
  ends _ := byte_advanceTo_of_ge p
  joins := advanceTo_advanceTo _

end

end Cursor

/-- **A cursor follows the text.** Whatever calls have moved it, it stands at a character boundary,
knows just what this boundary tells, and goes on from there. -/
theorem cursor_follows_text (text : String) (ms : List Cursor.Move) :
    ((Cursor.ofText text).moves ms).Follows text := by
  obtain ⟨p, hp⟩ := Cursor.exists_moves_eq_ofPos text ms
  rw [hp]
  exact Cursor.follows_ofPos p

-- The offset 2 is inside of the second character, which takes the bytes 1 and 2.
example : (Cursor.ofText "aé\nb").moves [.advanceTo 2, .advanceTo 0, .advance] =
    ⟨['b'], 4, ⟨2, 1, 3⟩⟩ := by decide

end NullScript
