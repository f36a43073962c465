import NullScript.Token.Piece

/-!
# NullScript — blank characters end tokens

A blank character ends a name, a number and a sign, and whatever follows it does not change how the
text before it is cut. A comment and an unclosed string run on over other blanks, but a newline
ends these as well.

* `Piece.recognise_boundary` — the first piece of a text that goes on behind a blank character.
-/

namespace NullScript

namespace Piece

variable {limits : Limits} {x c : Char} {cs rest : List Char}

-- ---------------------------------------------------------------------------
-- Blank characters belong to no token
-- ---------------------------------------------------------------------------

/-- The five blank characters. -/
theorem eq_of_isBlank (h : isBlank x) :
    x = ' ' ∨ x = '\t' ∨ x = '\r' ∨ x = '\n' ∨ x = '\x0c' := by
  unfold isBlank at h
  simpa [or_assoc] using h

theorem isNamePart_of_isBlank (h : isBlank x) : isNamePart x = false := by
  rcases eq_of_isBlank h with rfl | rfl | rfl | rfl | rfl
  all_goals decide

theorem isDigit_of_isBlank (h : isBlank x) : x.isDigit = false := by
  rcases eq_of_isBlank h with rfl | rfl | rfl | rfl | rfl
  all_goals decide

/-- No sign of two characters ends with a blank one. -/
theorem ofPair?_of_isBlank (h : isBlank x) : Token.ofPair? c x = none := by
  unfold Token.ofPair?
  rcases eq_of_isBlank h with rfl | rfl | rfl | rfl | rfl
  all_goals simp

/-- A run of characters ends at one that does not belong to it, whatever follows. -/
theorem takeWhile_boundary {p : Char → Bool} (hx : p x = false) :
    (cs ++ x :: rest).takeWhile p = cs.takeWhile p := by
  induction cs with
  | nil => simp [hx]
  | cons c cs ih =>
    rw [List.cons_append, List.takeWhile_cons, List.takeWhile_cons, ih]

/-- What is left behind a run goes on with that character. -/
theorem dropWhile_boundary {p : Char → Bool} (hx : p x = false) :
    (cs ++ x :: rest).dropWhile p = cs.dropWhile p ++ x :: rest := by
  induction cs with
  | nil => simp [hx]
  | cons c cs ih =>
    rw [List.cons_append, List.dropWhile_cons, List.dropWhile_cons, ih]
    split
    · rfl
    · rfl

-- ---------------------------------------------------------------------------
-- Strings
-- ---------------------------------------------------------------------------

/-- Items end at a newline, and a string that is closed does not go on. -/
theorem readItems_boundary (h : x = '\n' ∨ (readItems cs).2.head? = some '"') :
    readItems (cs ++ x :: rest) = ((readItems cs).1, (readItems cs).2 ++ x :: rest) := by
  -- Only where the text ends, perhaps behind a backslash, does `x` matter. A newline stops there,
  -- and a quote would have stopped before.
  fun_induction readItems cs with
  | case1 =>
    rcases h with rfl | h
    · exact readItems_of_stop (.inr rfl) rest
    · cases h
  | case2 c cs hc => exact readItems_of_stop hc _
  | case3 =>
    rcases h with rfl | h
    · exact readItems_backslash_newline rest
    · cases h
  | case4 => exact readItems_backslash_newline _
  | case5 d ds hd hstop ih =>
    have hrest := ih h
    rw [List.cons_append, List.cons_append, readItems_escape hd, hrest]
    rfl
  | case6 c cs hstop hplain ih =>
    have hrest := ih h
    rw [List.cons_append, readItems_plain hstop hplain, hrest]
    rfl

/-- The end of a string is the same if it is its quote or its line ends there. -/
theorem stringEnd_boundary (h : x = '\n' ∨ cs.head? = some '"') :
    stringEnd (cs ++ x :: rest) =
      ((stringEnd cs).1, (stringEnd cs).2.1, (stringEnd cs).2.2 ++ x :: rest) := by
  cases cs with
  | nil =>
    rcases h with rfl | h
    · rfl
    · cases h
  | cons c cs =>
    rw [List.cons_append]
    unfold stringEnd
    -- by the first character left: a quote, a backslash, anything else
    split
    · next heq => cases heq; rfl
    · next heq => cases heq; rfl
    · next hquote hbackslash =>
      split
      · next heq => cases heq; exact absurd rfl (hquote _)
      · next heq => cases heq; exact absurd rfl (hbackslash _)
      · rfl

/-- A string is cut alike if it is closed or its line ends there. -/
theorem string_boundary (h : x = '\n' ∨ (readItems cs).2.head? = some '"') :
    string limits (cs ++ x :: rest) =
      ((string limits cs).1, (string limits cs).2 ++ x :: rest) := by
  simp only [string, readItems_boundary h, stringEnd_boundary h]

-- ---------------------------------------------------------------------------
-- Numbers and signs
-- ---------------------------------------------------------------------------

/-- Digits end at a blank character. -/
theorem moreDigits_boundary (hx : isBlank x) :
    moreDigits c (cs ++ x :: rest) = ((moreDigits c cs).1, (moreDigits c cs).2 ++ x :: rest) := by
  have hdigit := isDigit_of_isBlank hx
  unfold moreDigits
  split
  · rfl
  · rw [takeWhile_boundary hdigit, dropWhile_boundary hdigit]

/-- A number ends at a blank character, which is no point either. -/
theorem number_boundary (hx : isBlank x) :
    number limits c (cs ++ x :: rest) =
      ((number limits c cs).1, (number limits c cs).2 ++ x :: rest) := by
  have hdigit := isDigit_of_isBlank hx
  have hpoint : x ≠ '.' := by
    rintro rfl
    exact absurd hx (by decide)
  unfold number
  rw [moreDigits_boundary hx]
  cases hmore : (moreDigits c cs).2 with
  -- the digits run up to the blank character, which is no point
  | nil =>
    rw [List.nil_append]
    split
    · next heq => cases heq; exact absurd rfl hpoint
    · rfl
  -- something else stands behind the digits, and decides as before
  | cons d ds =>
    rw [List.cons_append]
    split
    · next heq =>
      cases heq
      simp only [takeWhile_boundary hdigit, dropWhile_boundary hdigit]
    · next hother =>
      split
      · next heq => cases heq; exact absurd rfl (hother _)
      · rfl

/-- A sign ends at a blank character, with which it forms no pair. -/
theorem sign_boundary (hx : isBlank x) :
    sign c (cs ++ x :: rest) = ((sign c cs).1, (sign c cs).2 ++ x :: rest) := by
  cases cs with
  | nil =>
    rw [List.nil_append, sign, sign, ofPair?_of_isBlank hx]
    rfl
  | cons d ds =>
    rw [List.cons_append, sign, sign]
    split
    · rfl
    · rfl

-- ---------------------------------------------------------------------------
-- Any piece
-- ---------------------------------------------------------------------------

/-- The piece runs up to the end of its line: a comment, or a string without its closing quote. -/
def RunsOn (p : Piece) : Prop :=
  (∃ text, p.token = some (.comment text)) ∨ (0, .unclosedString) ∈ p.faults

/-- A string that does not run on stops at its closing quote. -/
theorem head?_of_not_runsOn (h : ¬(string limits cs).1.RunsOn) :
    (readItems cs).2.head? = some '"' := by
  have hfaults : (string limits cs).1.faults =
      (if !(stringEnd (readItems cs).2).2.1 then [(0, .unclosedString)] else []) ++
        StringItem.faults limits.stringLength 1 0 (readItems cs).1 := rfl
  -- an unclosed string would be a fault of the piece
  have hclosed : (stringEnd (readItems cs).2).2.1 = true := by
    cases hend : (stringEnd (readItems cs).2).2.1 with
    | true => rfl
    | false =>
      refine absurd (.inr ?_) h
      rw [hfaults, hend]
      exact List.mem_cons_self
  revert hclosed
  unfold stringEnd
  split
  · next heq => exact fun _ => by rw [heq]; rfl
  · exact fun h => nomatch h
  · exact fun h => nomatch h

/-- A comment ends at a newline. -/
theorem comment_boundary :
    comment limits (cs ++ '\n' :: rest) =
      ((comment limits cs).1, (comment limits cs).2 ++ '\n' :: rest) := by
  have hnewline : decide ('\n' ≠ '\n') = false := by decide
  unfold comment
  rw [takeWhile_boundary hnewline, dropWhile_boundary hnewline]

/-- The first piece of a text that goes on behind a blank character. -/
theorem recognise_boundary (hx : isBlank x)
    (h : x = '\n' ∨ ¬(recognise limits c cs).1.RunsOn) :
    recognise limits c (cs ++ x :: rest) =
      ((recognise limits c cs).1, (recognise limits c cs).2 ++ x :: rest) := by
  -- Strings and comments may contain blanks, so they come first. All other pieces end at any blank.
  by_cases hquote : c = '"'
  · subst hquote
    exact string_boundary (h.imp_right head?_of_not_runsOn)
  by_cases hcomment : c = '/' ∧ cs.head? = some '/'
  · obtain ⟨rfl, hhead⟩ := hcomment
    obtain ⟨cs, rfl⟩ := List.head?_eq_some_iff.mp hhead
    rcases h with rfl | h
    · exact comment_boundary
    · exact absurd (.inl ⟨_, rfl⟩) h
  -- a blank character does not make the sign before it the start of a comment
  have hcomment' : ¬(c = '/' ∧ (cs ++ x :: rest).head? = some '/') := by
    cases cs with
    | nil =>
      rintro ⟨-, hhead⟩
      cases hhead
      exact absurd hx (by decide)
    | cons d ds => exact hcomment
  have hname := isNamePart_of_isBlank hx
  unfold recognise
  rw [if_neg hquote, if_neg hquote, if_neg hcomment, if_neg hcomment']
  split
  -- blanks, names, numbers and signs in turn
  · rfl
  split
  · rw [takeWhile_boundary hname, dropWhile_boundary hname]
  split
  · exact number_boundary hx
  · exact sign_boundary hx

end Piece

end NullScript
