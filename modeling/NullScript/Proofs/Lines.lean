import NullScript.Proofs.Boundary
import NullScript.Proofs.Readings

/-!
# NullScript — lines are read one by one

A newline ends every token, whatever state its recognition is in, so a text that is put together
from two with a newline in between is read like the two one after the other. The second one only
moves down by the lines of the first and back by its characters.

* `pieces_line` — the pieces of two texts with a newline in between.
* `lexing_is_line_local` — tokens and errors of two texts with a newline in between.
-/

namespace NullScript

-- ---------------------------------------------------------------------------
-- Moved places
-- ---------------------------------------------------------------------------

namespace Position

/-- The place that many lines further down and characters further back. The column stays. -/
def moved (lines chars : Nat) (p : Position) : Position :=
  ⟨p.line + lines, p.column, p.offset + chars⟩

/-- Reading a character and moving can be done in either order. -/
theorem moved_next (lines chars : Nat) (p : Position) (c : Char) :
    (p.moved lines chars).next c = (p.next c).moved lines chars := by
  unfold next moved
  split
  · -- a newline starts a line, and the column is 1 in either order
    rw [mk.injEq]
    exact ⟨Nat.add_right_comm _ _ _, rfl, Nat.add_right_comm _ _ _⟩
  · rw [mk.injEq]
    exact ⟨rfl, rfl, Nat.add_right_comm _ _ _⟩

/-- Reading a text and moving can be done in either order. -/
theorem moved_after (lines chars : Nat) (p : Position) (text : List Char) :
    (p.moved lines chars).after text = (p.after text).moved lines chars := by
  induction text generalizing p with
  | nil => rfl
  | cons c text ih => rw [after_cons, after_cons, moved_next, ih]

/-- Behind a text the line is further by the newlines in it. -/
theorem line_after (p : Position) (text : List Char) :
    (p.after text).line = p.line + text.count '\n' := by
  induction text generalizing p with
  | nil => rfl
  | cons c text ih =>
    rw [after_cons, ih]
    unfold next
    -- only a newline counts
    by_cases h : c = '\n'
    · rw [if_pos h, h, List.count_cons_self]
      show p.line + 1 + _ = _
      omega
    · rw [if_neg h, List.count_cons_of_ne h]

/-- Behind a newline a text starts as at the beginning, only further down and further back. -/
theorem after_line (a b : List Char) :
    start.after (a ++ '\n' :: b) =
      (start.after b).moved (a.count '\n' + 1) (a.length + 1) := by
  have hline : (start.after a).next '\n' = start.moved (a.count '\n' + 1) (a.length + 1) := by
    -- both counts start at the beginning of the text
    have hcount : (start.after a).line = 1 + a.count '\n' := line_after start a
    have hlength : (start.after a).offset = 0 + a.length := offset_after start a
    show Position.mk ((start.after a).line + 1) 1 ((start.after a).offset + 1) =
      ⟨1 + (a.count '\n' + 1), 1, 0 + (a.length + 1)⟩
    rw [hcount, hlength, mk.injEq]
    exact ⟨by omega, rfl, by omega⟩
  rw [after_append, after_cons, hline, moved_after]

end Position

/-- The error at the moved place. -/
def SourceError.moved (lines chars : Nat) (e : SourceError) : SourceError :=
  { e with position := e.position.moved lines chars }

-- ---------------------------------------------------------------------------
-- Pieces
-- ---------------------------------------------------------------------------

/-- The pieces of two texts with a newline in between. -/
theorem pieces_line (limits : Limits) (a b : List Char) :
    pieces limits (a ++ '\n' :: b) =
      pieces limits a ++ ⟨['\n'], none, []⟩ :: pieces limits b := by
  -- Each piece of the first text stays the same before a newline, and the newline is a piece too.
  have hblank : Piece.isBlank '\n' := by decide
  fun_induction pieces limits a with
  | case1 =>
    rw [List.nil_append, pieces]
    rfl
  | case2 c cs ih =>
    -- a newline cannot be part of the piece before
    rw [List.cons_append, pieces, Piece.recognise_boundary hblank (.inl rfl), ih]
    rfl

/-- Behind a line the pieces are the same, with the line before them. -/
theorem placed_line (a before : List Char) (ps : List Piece) :
    placed (a ++ '\n' :: before) ps =
      (placed before ps).map fun x => (a ++ '\n' :: x.1, x.2) := by
  induction ps generalizing before with
  | nil => rfl
  | cons p ps ih =>
    rw [placed, placed, List.map_cons, ← ih]
    simp

/-- The pieces of two texts with a newline in between, each with the text before it. -/
theorem placed_pieces_line (limits : Limits) (a b : List Char) :
    placed [] (pieces limits (a ++ '\n' :: b)) =
      placed [] (pieces limits a) ++ (a, ⟨['\n'], none, []⟩) ::
        (placed [] (pieces limits b)).map fun x => (a ++ '\n' :: x.1, x.2) := by
  rw [pieces_line, placed_append, flatMap_text_pieces, List.nil_append, placed, placed_line]

-- ---------------------------------------------------------------------------
-- Tokens and errors
-- ---------------------------------------------------------------------------

/-- A token behind a line stands at the moved place. -/
theorem tokenAt_line (a : List Char) (x : List Char × Piece) :
    tokenAt (a ++ '\n' :: x.1, x.2) =
      (tokenAt x).map fun t => (t.1, t.2.moved (a.count '\n' + 1) (a.length + 1)) := by
  unfold tokenAt
  rw [Option.map_map, Position.after_line]
  rfl

/-- The errors of a piece behind a line stand at the moved places. -/
theorem errorsAt_line (a : List Char) (x : List Char × Piece) :
    errorsAt (a ++ '\n' :: x.1, x.2) =
      (errorsAt x).map (SourceError.moved (a.count '\n' + 1) (a.length + 1)) := by
  unfold errorsAt Piece.errorsAt
  rw [List.map_map, Position.after_line]
  refine List.map_congr_left fun y _ => ?_
  rw [Position.moved_after]
  rfl

/-- **Lexing is line-local.** The tokens of two texts with a newline in between are those of the
first without its end, and then those of the second, end included, moved down by the lines and back
by the characters before them. The errors are those of the first and then those of the second,
moved in the same way. -/
theorem lexing_is_line_local (limits : Limits) (a b : List Char) :
    ∃ ofA : List (Option Token × Position),
      tokenized limits a = ofA ++ [(none, .after .start a)] ∧
      tokenized limits (a ++ '\n' :: b) = ofA ++ (tokenized limits b).map
        (fun t => (t.1, t.2.moved (a.count '\n' + 1) (a.length + 1))) ∧
      lexicalErrors limits (a ++ '\n' :: b) = lexicalErrors limits a ++
        (lexicalErrors limits b).map (SourceError.moved (a.count '\n' + 1) (a.length + 1)) := by
  refine ⟨_, tokenized_eq limits a, ?_, ?_⟩
  · -- the tokens of the second text, each with the first text and the newline before it
    have htokens : ((placed [] (pieces limits b)).map fun x => (a ++ '\n' :: x.1, x.2)).filterMap
        tokenAt = ((placed [] (pieces limits b)).filterMap tokenAt).map
          fun t => (t.1, t.2.moved (a.count '\n' + 1) (a.length + 1)) := by
      rw [List.filterMap_map, List.map_filterMap]
      exact congrArg (List.filterMap · _) (funext (tokenAt_line a))
    rw [tokenized_eq, tokenized_eq, placed_pieces_line, List.filterMap_append,
      List.filterMap_cons_none rfl, htokens, List.map_append, List.append_assoc,
      Position.after_line]
    rfl
  · -- the newline is a piece without faults, so it adds no error
    have herrors : ((placed [] (pieces limits b)).map fun x => (a ++ '\n' :: x.1, x.2)).flatMap
        errorsAt = ((placed [] (pieces limits b)).flatMap errorsAt).map
          (SourceError.moved (a.count '\n' + 1) (a.length + 1)) := by
      rw [List.flatMap_map, List.map_flatMap]
      exact congrArg (List.flatMap · _) (funext (errorsAt_line a))
    have hnewline : errorsAt (a, ⟨['\n'], none, []⟩) = [] := Piece.errorsAt_of_faults_nil rfl _
    rw [lexicalErrors_eq, lexicalErrors_eq, lexicalErrors_eq, placed_pieces_line,
      List.flatMap_append, List.flatMap_cons, herrors, hnewline, List.nil_append]

end NullScript
