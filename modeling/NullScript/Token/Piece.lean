import NullScript.SourceError
import NullScript.Text.Letter
import NullScript.Token

/-!
# NullScript — cutting a text into pieces

A source text is a sequence of pieces: blank characters, tokens, and characters that belong to
neither. A token is as long as its kind allows, and limits on its length or value do not change
where it ends.

* `Piece.recognise_append` — a piece and what follows it make up the text.
* `Piece.text_recognise_ne_nil` — a piece has at least one character.
* `flatMap_text_pieces` — the pieces of a text make it up.
-/

namespace NullScript

/-- The limits that tokens have to keep. -/
structure Limits where
  /-- Characters of a name. -/
  identifierLength : Nat
  /-- The greatest integer, also for the whole part of a double. -/
  integerValue : Int64
  /-- Digits behind the point of a double. -/
  fractionDigits : Nat
  /-- Characters of a string, after decoding. -/
  stringLength : Nat
  /-- Characters of a comment. -/
  commentLength : Nat
deriving DecidableEq

/-- The usual limits. -/
def Limits.default : Limits where
  identifierLength := 255
  integerValue := Int64.maxValue
  fractionDigits := 6
  stringLength := 1000
  commentLength := 1000

/-- A stretch of source text. -/
structure Piece where
  /-- The characters. -/
  text : List Char
  /-- The token that they spell, if they do. -/
  token : Option Token
  /-- What is wrong with them, in the order in which it is noticed, each with the number of
  characters of the piece before its place. -/
  faults : List (Nat × LexicalFault)

-- ---------------------------------------------------------------------------
-- Strings
-- ---------------------------------------------------------------------------

/-- What the inside of a string consists of. -/
inductive StringItem where
  | plain (c : Char)
  /-- A backslash and the character behind it. -/
  | escape (c : Char)
deriving DecidableEq, Repr

namespace StringItem

/-- The characters of the source. -/
def text : StringItem → List Char
  | .plain c => [c]
  | .escape c => ['\\', c]

/-- The character that goes with a letter behind a backslash. -/
def unescape : Char → Option Char
  | 'n' => some '\n'
  | 't' => some '\t'
  | 'r' => some '\r'
  | 'b' => some '\x08'
  | '\\' => some '\\'
  | '"' => some '"'
  | _ => none

/-- The character that the item stands for, if any. -/
def decode : StringItem → Option Char
  | .plain c => some c
  | .escape c => unescape c

/-- The overrun of the limit on the length, if the next character decoded is the first one too many.
It belongs to the opening quote. -/
def overrun (max decoded : Nat) : List (Nat × LexicalFault) :=
  if decoded = max then [(0, .stringTooLong max)] else []

/-- What is noticed while the items are decoded, in that order and with the places. `behind`
characters stand before the first item, and `decoded` characters were decoded before it. -/
def faults (max : Nat) : (behind decoded : Nat) → List StringItem → List (Nat × LexicalFault)
  | _, _, [] => []
  | behind, decoded, .plain _ :: items =>
    overrun max decoded ++ faults max (behind + 1) (decoded + 1) items
  | behind, decoded, .escape c :: items =>
    match unescape c with
    | some _ => overrun max decoded ++ faults max (behind + 2) (decoded + 1) items
    | none => (behind + 1, .unknownEscape c) :: faults max (behind + 2) decoded items

end StringItem

/-- The items of a string up to a quote, a newline or the end of the text, and the text from there.
A backslash in front of a newline or of the end is no item. -/
def readItems : List Char → List StringItem × List Char
  | [] => ([], [])
  | c :: cs =>
    if c = '"' ∨ c = '\n' then ([], c :: cs)
    else if c = '\\' then
      match cs with
      | [] => ([], ['\\'])
      | d :: ds =>
        if d = '\n' then ([], '\\' :: d :: ds)
        else (readItems ds).map (.escape d :: ·) id
    else (readItems cs).map (.plain c :: ·) id

/-- How the inside of a string ends: the characters that still belong to the token, whether they
close it, and the text behind. -/
def stringEnd : List Char → List Char × Bool × List Char
  | '"' :: rest => (['"'], true, rest)
  | '\\' :: rest => (['\\'], false, rest)
  | rest => ([], false, rest)

namespace Piece

/-- The piece of a string, given the text behind its opening quote. -/
def string (limits : Limits) (cs : List Char) : Piece × List Char :=
  let items := (readItems cs).1
  let (ending, closed, rest) := stringEnd (readItems cs).2
  let decoded := items.filterMap StringItem.decode
  ({ text := '"' :: (items.flatMap StringItem.text ++ ending)
     token := some (.literal (.string (String.ofList (decoded.take limits.stringLength))))
     faults :=
      (if !closed then [(0, .unclosedString)] else []) ++
      StringItem.faults limits.stringLength 1 0 items },
    rest)

-- ---------------------------------------------------------------------------
-- Names and numbers
-- ---------------------------------------------------------------------------

/-- May the character start a name? -/
def isNameStart (c : Char) : Bool := c = '_' || isLetter c

/-- May the character stand in a name? -/
def isNamePart (c : Char) : Bool := c = '_' || isLetter c || isDecimalDigit c

/-- The piece of a word: a reserved one or a name. -/
def word (limits : Limits) (text : List Char) : Piece :=
  match Token.ofReserved? (String.ofList text) with
  | some token => ⟨text, some token, []⟩
  | none =>
    { text
      token := some (.identifier (String.ofList (text.take limits.identifierLength)))
      faults :=
        (if text.all (· = '_') then [(0, .onlyUnderscores (String.ofList text))] else []) ++
        (if limits.identifierLength < text.length then
          [(0, .identifierTooLong limits.identifierLength)] else []) }

/-- The fault of digits whose value goes beyond the limit. -/
def numberFaults (limits : Limits) (a : Integer.Accumulated) : List (Nat × LexicalFault) :=
  if a.overflowed then [(0, .numberTooLarge limits.integerValue)] else []

/-- The piece of an integer. -/
def integer (limits : Limits) (digits : List Char) : Piece :=
  let a := Integer.accumulate limits.integerValue digits
  ⟨digits, some (.literal (.int a.value)), numberFaults limits a⟩

/-- The double `0.digits`. -/
def fractionValue (digits : List Char) : Float :=
  if digits.isEmpty then 0.0
  else Double.ofDecimal ⟨Nat.ofDigitChars 10 digits 0, -digits.length⟩

/-- The double that is written with these digits before and behind the point. -/
def doubleValue (whole : Int64) (fraction : List Char) : Float :=
  Double.ofInt64 whole + fractionValue fraction

/-- The piece of a double. -/
def double (limits : Limits) (whole fraction : List Char) : Piece :=
  let a := Integer.accumulate limits.integerValue whole
  { text := whole ++ '.' :: fraction
    token := some (.literal (.double (doubleValue a.value fraction)))
    faults :=
      numberFaults limits a ++
      if limits.fractionDigits < fraction.length then
        [(0, .fractionTooLong limits.fractionDigits)] else [] }

/-- The digits of a whole number behind its first digit, and what follows them. A zero stands
alone. -/
def moreDigits (first : Char) (cs : List Char) : List Char × List Char :=
  if first = '0' then ([], cs) else (cs.takeWhile Char.isDigit, cs.dropWhile Char.isDigit)

/-- The piece of a number, given its first digit and the text behind. -/
def number (limits : Limits) (first : Char) (cs : List Char) : Piece × List Char :=
  let whole := first :: (moreDigits first cs).1
  match (moreDigits first cs).2 with
  | '.' :: rest =>
    (double limits whole (rest.takeWhile Char.isDigit), rest.dropWhile Char.isDigit)
  | rest => (integer limits whole, rest)

-- ---------------------------------------------------------------------------
-- Any piece
-- ---------------------------------------------------------------------------

/-- Does the character only separate tokens? -/
def isBlank (c : Char) : Bool :=
  c = ' ' || c = '\t' || c = '\r' || c = '\n' || c = '\x0c'

/-- The piece of a comment, given the text behind its two slashes. -/
def comment (limits : Limits) (cs : List Char) : Piece × List Char :=
  let text := cs.takeWhile (· ≠ '\n')
  ({ text := '/' :: '/' :: text
     token := some (.comment (String.ofList (text.take limits.commentLength)))
     faults :=
      if limits.commentLength < text.length then
        [(0, .commentTooLong limits.commentLength)] else [] },
    cs.dropWhile (· ≠ '\n'))

/-- The piece of one character that is neither blank nor the start of a longer token. -/
def single (c : Char) : Piece :=
  match Token.ofChar? c with
  | some token => ⟨[c], some token, []⟩
  | none => ⟨[c], none, [(0, .unexpectedCharacter c)]⟩

/-- The piece of a sign, of two characters if they spell one and else of one. -/
def sign (c : Char) : List Char → Piece × List Char
  | [] => (single c, [])
  | d :: ds =>
    match Token.ofPair? c d with
    | some token => (⟨[c, d], some token, []⟩, ds)
    | none => (single c, d :: ds)

/-- The first piece of a text, given the text's first character and the rest. -/
def recognise (limits : Limits) (c : Char) (cs : List Char) : Piece × List Char :=
  if isBlank c then (⟨[c], none, []⟩, cs)
  else if c = '"' then string limits cs
  else if isNameStart c then
    (word limits (c :: cs.takeWhile isNamePart), cs.dropWhile isNamePart)
  else if c.isDigit then number limits c cs
  else if c = '/' ∧ cs.head? = some '/' then comment limits cs.tail
  else sign c cs

end Piece

-- ---------------------------------------------------------------------------
-- The pieces make up the text
-- ---------------------------------------------------------------------------

theorem readItems_of_stop {c : Char} (h : c = '"' ∨ c = '\n') (cs : List Char) :
    readItems (c :: cs) = ([], c :: cs) := by
  rw [readItems.eq_def]
  exact if_pos h

theorem readItems_backslash_newline (cs : List Char) :
    readItems ('\\' :: '\n' :: cs) = ([], '\\' :: '\n' :: cs) := by
  simp [readItems.eq_def]

theorem readItems_escape {c : Char} (h : c ≠ '\n') (cs : List Char) :
    readItems ('\\' :: c :: cs) = (.escape c :: (readItems cs).1, (readItems cs).2) := by
  rw [readItems.eq_def]
  simp only [if_neg h]
  rfl

theorem readItems_plain {c : Char} (hstop : ¬(c = '"' ∨ c = '\n')) (hplain : c ≠ '\\')
    (cs : List Char) : readItems (c :: cs) = (.plain c :: (readItems cs).1, (readItems cs).2) := by
  rw [readItems.eq_def]
  simp only [if_neg hstop, if_neg hplain]
  rfl

/-- The items and what follows them make up the inside of a string. -/
theorem readItems_append (cs : List Char) :
    (readItems cs).1.flatMap StringItem.text ++ (readItems cs).2 = cs := by
  fun_induction readItems cs <;> simp_all [StringItem.text]

/-- The ending and what follows it make up the text behind the items. -/
theorem stringEnd_append (cs : List Char) : (stringEnd cs).1 ++ (stringEnd cs).2.2 = cs := by
  unfold stringEnd; split <;> simp

namespace Piece

@[simp] theorem text_word (limits : Limits) (text : List Char) :
    (word limits text).text = text := by
  unfold word; split <;> rfl

@[simp] theorem text_single (c : Char) : (single c).text = [c] := by
  unfold single; split <;> rfl

theorem string_append (limits : Limits) (cs : List Char) :
    (string limits cs).1.text ++ (string limits cs).2 = '"' :: cs := by
  have items := readItems_append cs
  have ending := stringEnd_append (readItems cs).2
  simp only [string, List.cons_append, List.append_assoc, ending, items]

theorem moreDigits_append (first : Char) (cs : List Char) :
    (moreDigits first cs).1 ++ (moreDigits first cs).2 = cs := by
  unfold moreDigits; split <;> simp

theorem number_append (limits : Limits) (first : Char) (cs : List Char) :
    (number limits first cs).1.text ++ (number limits first cs).2 = first :: cs := by
  have h := moreDigits_append first cs
  unfold number
  split
  · next rest hrest => rw [hrest] at h; simp [double, h]
  · simp [integer, h]

theorem comment_append (limits : Limits) (cs : List Char) :
    (comment limits cs).1.text ++ (comment limits cs).2 = '/' :: '/' :: cs := by
  simp [comment]

theorem sign_append (c : Char) (cs : List Char) :
    (sign c cs).1.text ++ (sign c cs).2 = c :: cs := by
  unfold sign
  split
  · simp
  · split <;> simp

/-- A piece and what follows it make up the text. -/
theorem recognise_append (limits : Limits) (c : Char) (cs : List Char) :
    (recognise limits c cs).1.text ++ (recognise limits c cs).2 = c :: cs := by
  unfold recognise
  split
  · rfl
  split
  · next h => rw [string_append, h]
  split
  · simp
  split
  · exact number_append limits c cs
  split
  · next h =>
    obtain ⟨rfl, hcs⟩ := h
    cases cs with
    | nil => cases hcs
    | cons d ds => cases hcs; exact comment_append limits ds
  · exact sign_append c cs

theorem text_number_ne_nil (limits : Limits) (first : Char) (cs : List Char) :
    (number limits first cs).1.text ≠ [] := by
  unfold number; split <;> simp [double, integer]

theorem text_sign_ne_nil (c : Char) (cs : List Char) : (sign c cs).1.text ≠ [] := by
  unfold sign
  split
  · simp
  · split <;> simp

/-- A piece has at least one character. -/
theorem text_recognise_ne_nil (limits : Limits) (c : Char) (cs : List Char) :
    (recognise limits c cs).1.text ≠ [] := by
  unfold recognise
  split
  · simp
  split
  · simp [string]
  split
  · simp
  split
  · exact text_number_ne_nil limits c cs
  split
  · simp [comment]
  · exact text_sign_ne_nil c cs

/-- What follows a piece is shorter than the text. -/
theorem length_recognise_lt (limits : Limits) (c : Char) (cs : List Char) :
    (recognise limits c cs).2.length < (c :: cs).length := by
  have h := congrArg List.length (recognise_append limits c cs)
  have := List.length_pos_iff.2 (text_recognise_ne_nil limits c cs)
  simp only [List.length_append] at h
  omega

end Piece

/-- The pieces of a text. -/
def pieces (limits : Limits) : List Char → List Piece
  | [] => []
  | c :: cs => (Piece.recognise limits c cs).1 :: pieces limits (Piece.recognise limits c cs).2
termination_by text => text.length
decreasing_by exact Piece.length_recognise_lt limits c cs

/-- The pieces of a text make it up. -/
theorem flatMap_text_pieces (limits : Limits) (text : List Char) :
    (pieces limits text).flatMap Piece.text = text := by
  fun_induction pieces limits text with
  | case1 => rfl
  | case2 c cs ih => rw [List.flatMap_cons, ih, Piece.recognise_append]

end NullScript
