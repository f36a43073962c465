import NullScript.Proofs.Digits
import NullScript.Proofs.Readings

/-!
# NullScript — numbers above the limit

A literal has the value that its digits denote, or it is reported as too large, once and at its
first character. One exception comes from the division by truncation: a number of one digit is
never reported, however small the limit is.

* `Piece.numeral_recognise` — every piece is an integer, a double, or reports no excess.
* `filter_isExcess_errorsAt` — the excess that is reported of one piece.
* `excess_reported_from_two_digits` — the excesses that are reported of a text, and the values of
  all other numbers.
-/

namespace NullScript

/-- Was a number too large? -/
def LexicalFault.isExcess : LexicalFault → Bool
  | .numberTooLarge _ => true
  | _ => false

/-- Was a number too large? -/
def SourceError.isExcess (e : SourceError) : Bool :=
  match e.fault with
  | .lexical fault => fault.isExcess
  | .grammar _ => false

/-- Is the token a number? -/
def Token.isNumber : Token → Bool
  | .literal (.int _) => true
  | .literal (.double _) => true
  | _ => false

namespace Piece

variable {limits : Limits}

/-- What the digits before the point denote, or all digits if there is none, in a piece that is a
number. -/
def wholePart? (p : Piece) : Option Nat :=
  if p.token.any Token.isNumber then some (Nat.ofDigitChars 10 (p.text.takeWhile Char.isDigit) 0)
  else none

-- ---------------------------------------------------------------------------
-- Which pieces are numbers
-- ---------------------------------------------------------------------------

/-- A piece is the one of an integer or of a double, or it is no number and reports no excess. -/
inductive Numeral (limits : Limits) : Piece → Prop
  | integer {digits : List Char} : digits.all Char.isDigit → Numeral limits (integer limits digits)
  | double {whole : List Char} (fraction : List Char) :
    whole.all Char.isDigit → Numeral limits (double limits whole fraction)
  | other {p : Piece} :
    p.token.any Token.isNumber = false → (∀ x ∈ p.faults, x.2.isExcess = false) → Numeral limits p

/-- A fault that is noted under a condition is no excess if it is none. -/
theorem isExcess_of_mem_ite {c : Prop} [Decidable c] {fault : LexicalFault}
    {x : Nat × LexicalFault} (h : x ∈ if c then [(0, fault)] else [])
    (hfault : fault.isExcess = false) : x.2.isExcess = false := by
  split at h
  · rw [List.mem_singleton.mp h]
    exact hfault
  · cases h

/-- No fault of a string is an excess. -/
theorem isExcess_of_mem_faults {max behind decoded : Nat} {items : List StringItem}
    {x : Nat × LexicalFault} (h : x ∈ StringItem.faults max behind decoded items) :
    x.2.isExcess = false := by
  -- on the items of the string, each of which adds its own faults in front
  induction items generalizing behind decoded with
  | nil => cases h
  | cons item items ih =>
    cases item with
    | plain c =>
      rw [StringItem.faults, List.mem_append] at h
      rcases h with h | h
      · exact isExcess_of_mem_ite h rfl
      · exact ih h
    | escape c =>
      rw [StringItem.faults] at h
      split at h
      · rcases List.mem_append.mp h with h | h
        · exact isExcess_of_mem_ite h rfl
        · exact ih h
      · rcases List.mem_cons.mp h with rfl | h
        · rfl
        · exact ih h

/-- A string is no number. -/
theorem numeral_string (limits : Limits) (cs : List Char) :
    (string limits cs).1.Numeral limits := by
  refine .other rfl fun x h => ?_
  rcases List.mem_append.mp h with h | h
  · exact isExcess_of_mem_ite h rfl
  · exact isExcess_of_mem_faults h

/-- No reserved word is a number. -/
theorem isNumber_of_ofReserved? {word : String} {t : Token} (h : Token.ofReserved? word = some t) :
    t.isNumber = false := by
  unfold Token.ofReserved? at h
  split at h
  · cases h
    rfl
  -- the words for data are `null` and the two truth values
  · unfold Datum.ofWord? at h
    split at h
    · cases h
      rfl
    split at h
    · cases h
      rfl
    split at h
    · cases h
      rfl
    · cases h

/-- A word is no number. -/
theorem numeral_word (limits : Limits) (text : List Char) : (word limits text).Numeral limits := by
  unfold word
  cases h : Token.ofReserved? (String.ofList text) with
  | some token => exact .other (isNumber_of_ofReserved? h) fun _ h => absurd h List.not_mem_nil
  | none =>
    refine .other rfl fun x h => ?_
    rcases List.mem_append.mp h with h | h
    · exact isExcess_of_mem_ite h rfl
    · exact isExcess_of_mem_ite h rfl

theorem numeral_comment (limits : Limits) (cs : List Char) :
    (comment limits cs).1.Numeral limits :=
  .other rfl fun _ h => isExcess_of_mem_ite h rfl

theorem isNumber_of_ofChar? {c : Char} {t : Token} (h : Token.ofChar? c = some t) :
    t.isNumber = false := by
  unfold Token.ofChar? at h
  split at h <;> cases h <;> rfl

theorem isNumber_of_ofPair? {c d : Char} {t : Token} (h : Token.ofPair? c d = some t) :
    t.isNumber = false := by
  unfold Token.ofPair? at h
  split at h <;> cases h <;> rfl

/-- A single sign is no number, and if it is unknown, that is no excess. -/
theorem numeral_single (limits : Limits) (c : Char) : (single c).Numeral limits := by
  unfold single
  cases h : Token.ofChar? c with
  | some token => exact .other (isNumber_of_ofChar? h) fun _ h => absurd h List.not_mem_nil
  | none =>
    refine .other rfl fun x h => ?_
    rw [List.mem_singleton.mp h]
    rfl

/-- A sign of one or two characters is no number. -/
theorem numeral_sign (limits : Limits) (c : Char) (cs : List Char) :
    (sign c cs).1.Numeral limits := by
  unfold sign
  split
  · exact numeral_single limits c
  · next d ds =>
    cases h : Token.ofPair? c d with
    | some token => exact .other (isNumber_of_ofPair? h) fun _ h => absurd h List.not_mem_nil
    | none => exact numeral_single limits c

/-- The digits of a number are digits, its first one included. -/
theorem all_isDigit_moreDigits {first : Char} (hfirst : first.isDigit) (cs : List Char) :
    (first :: (moreDigits first cs).1).all Char.isDigit := by
  rw [List.all_cons, hfirst, Bool.true_and]
  unfold moreDigits
  split
  · rfl
  · exact List.all_takeWhile

/-- What starts with a digit is an integer or a double. -/
theorem numeral_number (limits : Limits) {first : Char} (hfirst : first.isDigit)
    (cs : List Char) : (number limits first cs).1.Numeral limits := by
  have hdigits := all_isDigit_moreDigits hfirst cs
  unfold number
  split
  · exact .double _ hdigits
  · exact .integer hdigits

/-- **Every piece** is an integer, a double, or no number. -/
theorem numeral_recognise (limits : Limits) (c : Char) (cs : List Char) :
    (recognise limits c cs).1.Numeral limits := by
  unfold recognise
  split
  · exact .other rfl fun _ h => absurd h List.not_mem_nil
  split
  · exact numeral_string limits cs
  split
  · exact numeral_word limits _
  split
  · next hdigit => exact numeral_number limits hdigit cs
  split
  · exact numeral_comment limits _
  · exact numeral_sign limits c cs

end Piece

/-- Every piece of a text is an integer, a double, or no number. -/
theorem numeral_of_mem_pieces {limits : Limits} {text : List Char} {p : Piece}
    (h : p ∈ pieces limits text) : p.Numeral limits := by
  fun_induction pieces limits text with
  | case1 => cases h
  | case2 c cs ih =>
    rcases List.mem_cons.mp h with rfl | h
    · exact Piece.numeral_recognise limits c cs
    · exact ih h

-- ---------------------------------------------------------------------------
-- What is reported of a number, and its value
-- ---------------------------------------------------------------------------

/-- The excess that is reported of a piece, given the text before: that of the whole part, at the
first character. -/
def excessAt (limits : Limits) (x : List Char × Piece) : List SourceError :=
  match x.2.wholePart? with
  | some n =>
    if Integer.Noticeable limits.integerValue n then
      [⟨.lexical (.numberTooLarge limits.integerValue), .after .start x.1⟩]
    else []
  | none => []

namespace Piece

variable {limits : Limits}

/-- The whole part of an integer is all of it. -/
theorem wholePart?_integer {digits : List Char} (h : digits.all Char.isDigit) :
    (integer limits digits).wholePart? = some (Nat.ofDigitChars 10 digits 0) := by
  have htake : (digits ++ []).takeWhile Char.isDigit = digits ++ [] :=
    List.takeWhile_append_of_pos (List.all_eq_true.mp h)
  rw [List.append_nil] at htake
  show some (Nat.ofDigitChars 10 (digits.takeWhile Char.isDigit) 0) = _
  rw [htake]

/-- The digits before the point. -/
theorem takeWhile_text_double {whole : List Char} (h : whole.all Char.isDigit)
    (fraction : List Char) : (whole ++ '.' :: fraction).takeWhile Char.isDigit = whole := by
  rw [List.takeWhile_append_of_pos (List.all_eq_true.mp h)]
  exact List.append_nil whole

/-- What stands from the point on. -/
theorem dropWhile_text_double {whole : List Char} (h : whole.all Char.isDigit)
    (fraction : List Char) :
    (whole ++ '.' :: fraction).dropWhile Char.isDigit = '.' :: fraction := by
  rw [List.dropWhile_append_of_pos (List.all_eq_true.mp h)]
  rfl

/-- The whole part of a double stands before the point. -/
theorem wholePart?_double {whole : List Char} (h : whole.all Char.isDigit)
    (fraction : List Char) :
    (double limits whole fraction).wholePart? = some (Nat.ofDigitChars 10 whole 0) := by
  show some (Nat.ofDigitChars 10 ((whole ++ '.' :: fraction).takeWhile Char.isDigit) 0) = _
  rw [takeWhile_text_double h]

/-- A number is reported exactly if its excess is noticeable. -/
theorem numberFaults_exact (hmax : 0 ≤ limits.integerValue) {digits : List Char}
    (h : digits.all Char.isDigit) :
    numberFaults limits (Integer.accumulate limits.integerValue digits) =
      if Integer.Noticeable limits.integerValue (Nat.ofDigitChars 10 digits 0) then
        [(0, .numberTooLarge limits.integerValue)]
      else [] := by
  simp only [numberFaults, Integer.accumulate_exact hmax h, decide_eq_true_eq]

/-- Faults at the first character are in order. -/
theorem inOrder_of_zero {faults : List (Nat × LexicalFault)} (h : ∀ x ∈ faults, x.1 = 0) :
    inOrder faults = faults := by
  refine List.mergeSort_of_pairwise (List.pairwise_of_forall_mem_list ?_)
  intro x hx y hy
  rw [decide_eq_true_eq, h x hx]
  exact Nat.zero_le y.1

/-- The errors of a piece whose faults are all at its first character. -/
theorem errorsAt_of_zero {p : Piece} (h : ∀ x ∈ p.faults, x.1 = 0) (start : Position) :
    p.errorsAt start = p.faults.map fun x => ⟨.lexical x.2, start⟩ := by
  rw [errorsAt, inOrder_of_zero h]
  refine List.map_congr_left fun x hx => ?_
  rw [h x hx]
  rfl

/-- The fault of a number is at its first character. -/
theorem eq_zero_of_mem_numberFaults {a : Integer.Accumulated} {x : Nat × LexicalFault}
    (h : x ∈ numberFaults limits a) : x.1 = 0 := by
  unfold numberFaults at h
  split at h
  · rw [List.mem_singleton.mp h]
  · cases h

/-- Of the faults of a number, the excess is kept. -/
theorem filter_isExcess_numberFaults (hmax : 0 ≤ limits.integerValue) {digits : List Char}
    (h : digits.all Char.isDigit) (start : Position) :
    ((numberFaults limits (Integer.accumulate limits.integerValue digits)).map
        fun x => SourceError.mk (.lexical x.2) start).filter SourceError.isExcess =
      if Integer.Noticeable limits.integerValue (Nat.ofDigitChars 10 digits 0) then
        [⟨.lexical (.numberTooLarge limits.integerValue), start⟩]
      else [] := by
  rw [numberFaults_exact hmax h]
  split <;> rfl

end Piece

variable {limits : Limits}

/-- The excess of an integer. -/
theorem filter_isExcess_integer (hmax : 0 ≤ limits.integerValue) {digits : List Char}
    (h : digits.all Char.isDigit) (before : List Char) :
    (errorsAt (before, Piece.integer limits digits)).filter SourceError.isExcess =
      excessAt limits (before, Piece.integer limits digits) := by
  rw [errorsAt, Piece.errorsAt_of_zero fun _ => Piece.eq_zero_of_mem_numberFaults, excessAt,
    Piece.wholePart?_integer h]
  exact Piece.filter_isExcess_numberFaults hmax h _

/-- The excess of a double is that of its whole part. -/
theorem filter_isExcess_double (hmax : 0 ≤ limits.integerValue) {whole : List Char}
    (h : whole.all Char.isDigit) (fraction before : List Char) :
    (errorsAt (before, Piece.double limits whole fraction)).filter SourceError.isExcess =
      excessAt limits (before, Piece.double limits whole fraction) := by
  -- both faults that a double can have stand at its first character
  have hzero : ∀ x ∈ (Piece.double limits whole fraction).faults, x.1 = 0 := by
    intro x hx
    rcases List.mem_append.mp hx with hx | hx
    · exact Piece.eq_zero_of_mem_numberFaults hx
    · split at hx
      · rw [List.mem_singleton.mp hx]
      · cases hx
  rw [errorsAt, Piece.errorsAt_of_zero hzero, excessAt, Piece.wholePart?_double h]
  show List.filter _ (List.map _ (_ ++ _)) = _
  rw [List.map_append, List.filter_append, Piece.filter_isExcess_numberFaults hmax h]
  -- A fraction that is too long is no excess.
  have hfraction (start : Position) :
      ((if limits.fractionDigits < fraction.length then
          [(0, LexicalFault.fractionTooLong limits.fractionDigits)] else []).map
        fun x : Nat × LexicalFault => SourceError.mk (.lexical x.2) start).filter
          SourceError.isExcess = [] := by
    split <;> rfl
  rw [hfraction, List.append_nil]

/-- **The excess of one piece.** It is reported once and at the first character, or not at all. -/
theorem filter_isExcess_errorsAt (hmax : 0 ≤ limits.integerValue) {p : Piece}
    (hp : p.Numeral limits) (before : List Char) :
    (errorsAt (before, p)).filter SourceError.isExcess = excessAt limits (before, p) := by
  cases hp with
  | integer h => exact filter_isExcess_integer hmax h before
  | double fraction h => exact filter_isExcess_double hmax h fraction before
  | other htoken hfaults =>
    -- what is no number has no whole part
    have hnone : p.wholePart? = none := by
      unfold Piece.wholePart?
      rw [htoken]
      rfl
    rw [excessAt, hnone, List.filter_eq_nil_iff]
    intro e he
    obtain ⟨x, hx, rfl⟩ := List.mem_map.mp he
    exact Bool.not_eq_true _ ▸ hfaults x (mem_inOrder.mp hx)

/-- The token of a number whose whole part is an integer. The digits of a fraction stand behind
the point. -/
def Piece.HasValue (p : Piece) (whole : Int64) : Prop :=
  p.token = some (.literal (.int whole)) ∨
    p.token =
      some (.literal (.double (doubleValue whole (p.text.dropWhile Char.isDigit).tail)))

/-- A number whose whole part is not noticed has the value that its digits denote. -/
theorem exists_hasValue (hmax : 0 ≤ limits.integerValue) {p : Piece} (hp : p.Numeral limits)
    {n : Nat} (hwhole : p.wholePart? = some n)
    (hn : ¬Integer.Noticeable limits.integerValue n) :
    ∃ whole : Int64, whole.toInt = n ∧ p.HasValue whole := by
  cases hp with
  | integer h =>
    rw [Piece.wholePart?_integer h] at hwhole
    cases hwhole
    refine ⟨_, Integer.toInt_ofNat_of_not_noticeable hn, .inl ?_⟩
    rw [Piece.integer, Integer.accumulate_exact hmax h]
  | double fraction h =>
    rw [Piece.wholePart?_double h] at hwhole
    cases hwhole
    refine ⟨_, Integer.toInt_ofNat_of_not_noticeable hn, .inr ?_⟩
    rw [Piece.double, Integer.accumulate_exact hmax h, Piece.dropWhile_text_double h]
    rfl
  | other htoken _ =>
    unfold Piece.wholePart? at hwhole
    rw [htoken] at hwhole
    cases hwhole

/-- What a limit on integers does, for digits and for texts. -/
structure Limits.ReportsExcess (limits : Limits) : Prop where
  /-- An excess is noticed exactly for a number above the limit that has more than one digit. All
  other digits have the value that they denote. -/
  digits : ∀ digits : List Char, digits.all Char.isDigit →
    let n := Nat.ofDigitChars 10 digits 0
    let a := Integer.accumulate limits.integerValue digits
    (a.overflowed ↔ Integer.Noticeable limits.integerValue n) ∧
      (a.overflowed = false → a.value.toInt = n)
  /-- Of a text, one excess is reported for each number whose whole part is noticed, at the first
  character of the number, and no other. -/
  errors : ∀ text, (lexicalErrors limits text).filter SourceError.isExcess =
    (placed [] (pieces limits text)).flatMap (excessAt limits)
  /-- The other numbers of a text have the value that their digits denote. -/
  values : ∀ text, ∀ p ∈ pieces limits text, ∀ n, p.wholePart? = some n →
    ¬Integer.Noticeable limits.integerValue n →
      ∃ whole : Int64, whole.toInt = n ∧ p.HasValue whole

/-- **Excesses are reported from two digits on.** -/
theorem excess_reported_from_two_digits {limits : Limits} (hmax : 0 ≤ limits.integerValue) :
    limits.ReportsExcess where
  digits := by
    intro digits hdigits
    simp only [Integer.accumulate_exact hmax hdigits, decide_eq_true_eq, decide_eq_false_iff_not,
      true_and]
    exact Integer.toInt_ofNat_of_not_noticeable
  errors := by
    intro text
    rw [lexicalErrors_eq, List.filter_flatMap, List.flatMap_def, List.flatMap_def]
    refine congrArg List.flatten (List.map_congr_left fun x hx => ?_)
    -- each piece of the text reports its own excess
    exact filter_isExcess_errorsAt hmax (numeral_of_mem_pieces (exists_of_mem_placed hx).1) x.1
  values _ _ hp _ hwhole hn := exists_hasValue hmax (numeral_of_mem_pieces hp) hwhole hn

/-- Under the limit 5, an integer of one digit and the whole part of a double pass, and a number of
two digits is reported. -/
theorem excess_reported_under_five :
    0 ≤ Limits.integerValue { Limits.default with integerValue := 5 } ∧
      (lexicalErrors { Limits.default with integerValue := 5 } ['7', ' ', '8', '.', '5']).filter
        SourceError.isExcess = [] ∧
      (lexicalErrors { Limits.default with integerValue := 5 } ['1', '2']).filter
        SourceError.isExcess = [⟨.lexical (.numberTooLarge 5), .start⟩] := by
  have hmax : 0 ≤ Limits.integerValue { Limits.default with integerValue := 5 } := by decide
  have h := excess_reported_from_two_digits hmax
  refine ⟨hmax, ?_, ?_⟩
  · rw [h.errors]
    decide +kernel
  · rw [h.errors]
    decide +kernel

/-- A single digit above the limit is not noticed. -/
theorem single_digit_excess_missed :
    ¬∀ (max : Int64) (digits : List Char), 0 ≤ max → digits.all Char.isDigit →
      ((Integer.accumulate max digits).overflowed ↔ max.toInt < Nat.ofDigitChars 10 digits 0) :=
  -- the limit 5 and the single digit 7
  fun h => absurd ((h 5 ['7'] (by decide) (by decide)).mpr (by decide)) (by decide)

end NullScript
