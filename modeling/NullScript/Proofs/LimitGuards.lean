import Mathlib.Data.List.Forall2
import NullScript.Proofs.Accepted
import NullScript.Proofs.Digits

/-!
# NullScript — limits on tokens are guards

A limit does not decide where a token ends or what kind of token it is. A token that exceeds one is
reported; a token that exceeds none is the same under larger limits.

* `Integer.accumulate_eq_of_le` — digits within a limit.
* `StringItem.faults_eq_of_le` — the items of a string within a limit.
* `Piece.guarded_recognise` — a piece under limits and under larger ones.
* `guarded_readings` — the readings that a program consists of.
-/

namespace NullScript

/-- Each of the limits is at most the other one. -/
structure Limits.AtMost (limits limits' : Limits) : Prop where
  identifierLength : limits.identifierLength ≤ limits'.identifierLength
  integerValue : limits.integerValue ≤ limits'.integerValue
  fractionDigits : limits.fractionDigits ≤ limits'.fractionDigits
  stringLength : limits.stringLength ≤ limits'.stringLength
  commentLength : limits.commentLength ≤ limits'.commentLength

/-- Was a limit exceeded? -/
def LexicalFault.isLimit : LexicalFault → Bool
  | .commentTooLong _ => true
  | .fractionTooLong _ => true
  | .identifierTooLong _ => true
  | .onlyUnderscores _ => false
  | .unknownEscape _ => false
  | .numberTooLarge _ => true
  | .stringTooLong _ => true
  | .unclosedString => false
  | .unexpectedCharacter _ => false

/-- Was a limit exceeded? -/
def SourceError.isLimit (e : SourceError) : Bool :=
  match e.fault with
  | .lexical fault => fault.isLimit
  | .grammar _ => false

-- ---------------------------------------------------------------------------
-- Digits
-- ---------------------------------------------------------------------------

namespace Integer

variable {max max' : Int64}

/-- Subtraction that stops at the least integer keeps the order. -/
theorem saturatingSub_mono (h : max ≤ max') (digit : Nat) :
    (saturatingSub max digit).toInt ≤ (saturatingSub max' digit).toInt := by
  have h := Int64.le_iff_toInt_le.mp h
  rw [toInt_saturatingSub, toInt_saturatingSub]
  split <;> split <;> omega

/-- A larger limit leaves more room for the digits before the next one. -/
theorem room_mono (h : max ≤ max') (digit : Nat) :
    saturatingSub max digit / 10 ≤ saturatingSub max' digit / 10 := by
  have hten : (10 : Int64).toInt = 10 := by decide
  rw [Int64.le_iff_toInt_le, Int64.toInt_div_of_ne_right _ _ (by decide),
    Int64.toInt_div_of_ne_right _ _ (by decide), hten]
  exact Int.tdiv_le_tdiv (by decide) (saturatingSub_mono h digit)

/-- If a digit exceeds a limit, it exceeds a smaller one. -/
theorem push_overflowed_mono (h : max ≤ max') {acc acc' : Accumulated}
    (hvalue : acc'.value = acc.value) (hover : acc'.overflowed → acc.overflowed) (digit : Nat) :
    (acc'.push max' digit).overflowed → (acc.push max digit).overflowed := by
  simp only [Accumulated.push, Bool.or_eq_true, decide_eq_true_eq, hvalue]
  rintro (hold | hnew)
  · exact .inl (hover hold)
  · exact .inr (Int64.lt_of_le_of_lt (room_mono h digit) hnew)

/-- Digits one after the other have the same value under either limit, and exceed the smaller one at
least. -/
theorem foldl_push_mono (h : max ≤ max') (digits : List Nat) {acc acc' : Accumulated}
    (hvalue : acc'.value = acc.value) (hover : acc'.overflowed → acc.overflowed) :
    (digits.foldl (Accumulated.push max') acc').value =
        (digits.foldl (Accumulated.push max) acc).value ∧
      ((digits.foldl (Accumulated.push max') acc').overflowed →
        (digits.foldl (Accumulated.push max) acc).overflowed) := by
  induction digits generalizing acc acc' with
  | nil => exact ⟨hvalue, hover⟩
  | cons digit digits ih =>
    rw [List.foldl_cons, List.foldl_cons]
    -- the value grows in the same way, as it does not depend on the limit
    refine ih ?_ (push_overflowed_mono h hvalue hover digit)
    simp only [Accumulated.push, hvalue]

/-- What digits add up to does not depend on the limit. If they exceed a limit, then also a smaller
one. -/
theorem accumulate_mono (h : max ≤ max') (text : List Char) :
    (accumulate max' text).value = (accumulate max text).value ∧
      ((accumulate max' text).overflowed → (accumulate max text).overflowed) :=
  foldl_push_mono h _ rfl id

end Integer

-- ---------------------------------------------------------------------------
-- Strings
-- ---------------------------------------------------------------------------

namespace StringItem

/-- There is room for one more character if its lack was not reported. -/
theorem lt_of_overrun {max decoded : Nat} (hdecoded : decoded ≤ max)
    (hno : ∀ x ∈ overrun max decoded, ¬x.2.isLimit) : decoded < max := by
  refine Nat.lt_of_le_of_ne hdecoded fun heq => ?_
  rw [overrun, if_pos heq] at hno
  exact hno _ List.mem_cons_self rfl

theorem overrun_of_lt {max decoded : Nat} (h : decoded < max) : overrun max decoded = [] :=
  if_neg (Nat.ne_of_lt h)

/-- Items that do not exceed a limit have the same faults under a larger one. -/
theorem faults_eq_of_le {max max' : Nat} (h : max ≤ max') {decoded : Nat} (hdecoded : decoded ≤ max)
    {behind : Nat} {items : List StringItem}
    (hno : ∀ x ∈ faults max behind decoded items, ¬x.2.isLimit) :
    faults max' behind decoded items = faults max behind decoded items ∧
      decoded + (items.filterMap decode).length ≤ max := by
  -- on the items, with the number of characters decoded so far, which never exceeds the limit
  induction items generalizing behind decoded with
  | nil => exact ⟨rfl, hdecoded⟩
  | cons item items ih =>
    cases item with
    | plain c =>
      rw [faults, List.forall_mem_append] at hno
      have hlt := lt_of_overrun hdecoded hno.1
      obtain ⟨hsame, hlength⟩ := ih hlt hno.2
      rw [faults, faults, hsame, overrun_of_lt hlt, overrun_of_lt (Nat.lt_of_lt_of_le hlt h)]
      refine ⟨rfl, ?_⟩
      show decoded + ((items.filterMap decode).length + 1) ≤ max
      omega
    -- a known escape is one character, and an unknown one is reported and skipped
    | escape c =>
      rw [faults] at hno
      rw [faults, faults, List.filterMap_cons, decode]
      cases hc : unescape c with
      | some d =>
        rw [hc] at hno
        dsimp only at hno ⊢
        rw [List.forall_mem_append] at hno
        have hlt := lt_of_overrun hdecoded hno.1
        obtain ⟨hsame, hlength⟩ := ih hlt hno.2
        rw [hsame, overrun_of_lt hlt, overrun_of_lt (Nat.lt_of_lt_of_le hlt h)]
        refine ⟨rfl, ?_⟩
        rw [List.length_cons]
        omega
      | none =>
        rw [hc] at hno
        obtain ⟨hsame, hlength⟩ := ih hdecoded (List.forall_mem_cons.mp hno).2
        exact ⟨congrArg _ hsame, hlength⟩

end StringItem

-- ---------------------------------------------------------------------------
-- Pieces
-- ---------------------------------------------------------------------------

namespace Piece

/-- The second piece is the first one under larger limits: the same text, spelling the same kind of
token if it spells one, and the same in all if no limit is exceeded. -/
structure Guarded (p p' : Piece) : Prop where
  text : p'.text = p.text
  isCode : p'.token.map Token.isCode = p.token.map Token.isCode
  eq : (∀ x ∈ p.faults, ¬x.2.isLimit) → p' = p

theorem guarded_refl (p : Piece) : p.Guarded p := ⟨rfl, rfl, fun _ => rfl⟩

/-- A fault that is noted under a condition is not noted if it is none. -/
theorem not_of_ite {c : Prop} [Decidable c] {fault : LexicalFault} (hfault : fault.isLimit)
    (h : ∀ x ∈ if c then [(0, fault)] else ([] : List (Nat × LexicalFault)), ¬x.2.isLimit) :
    ¬c := by
  intro hc
  rw [if_pos hc] at h
  exact h _ List.mem_cons_self hfault

/-- A length whose excess is not noted is within the limit, and within a larger one. -/
theorem le_of_ite {length max max' : Nat} (h : max ≤ max') {fault : LexicalFault}
    (hfault : fault.isLimit)
    (hno : ∀ x ∈ if max < length then [(0, fault)] else ([] : List (Nat × LexicalFault)),
      ¬x.2.isLimit) : length ≤ max ∧ length ≤ max' := by
  have hle := Nat.le_of_not_lt (not_of_ite hfault hno)
  exact ⟨hle, Nat.le_trans hle h⟩

variable {limits limits' : Limits}

/-- A string under larger limits. -/
theorem guarded_string (h : limits.AtMost limits') (cs : List Char) :
    (string limits cs).1.Guarded (string limits' cs).1 := by
  refine ⟨rfl, rfl, fun hno => ?_⟩
  obtain ⟨hfaults, hlength⟩ := StringItem.faults_eq_of_le h.stringLength (Nat.zero_le _)
    (List.forall_mem_append.mp hno).2
  rw [Nat.zero_add] at hlength
  simp only [string, hfaults, List.take_of_length_le hlength,
    List.take_of_length_le (Nat.le_trans hlength h.stringLength)]

/-- A word under larger limits. -/
theorem guarded_word (h : limits.AtMost limits') (text : List Char) :
    (word limits text).Guarded (word limits' text) := by
  unfold word
  -- reserved words have no limit
  cases Token.ofReserved? (String.ofList text) with
  | some token => exact guarded_refl _
  | none =>
    refine ⟨rfl, rfl, fun hno => ?_⟩
    obtain ⟨hle, hle'⟩ := le_of_ite h.identifierLength rfl (List.forall_mem_append.mp hno).2
    simp only [List.take_of_length_le hle, List.take_of_length_le hle',
      if_neg (Nat.not_lt_of_le hle), if_neg (Nat.not_lt_of_le hle')]

/-- A number that exceeds no limit has no more faults under larger ones. -/
theorem numberFaults_eq (h : limits.AtMost limits') {text : List Char}
    (hno : ∀ x ∈ numberFaults limits (Integer.accumulate limits.integerValue text),
      ¬x.2.isLimit) :
    numberFaults limits' (Integer.accumulate limits'.integerValue text) =
      numberFaults limits (Integer.accumulate limits.integerValue text) := by
  have hover := not_of_ite rfl hno
  have hover' := fun h' => hover ((Integer.accumulate_mono h.integerValue text).2 h')
  rw [numberFaults, numberFaults, if_neg hover, if_neg hover']

/-- An integer under larger limits. -/
theorem guarded_integer (h : limits.AtMost limits') (digits : List Char) :
    (integer limits digits).Guarded (integer limits' digits) := by
  have hcode : ∀ limits, (integer limits digits).token.map Token.isCode = some true :=
    fun _ => rfl
  refine ⟨rfl, (hcode limits').trans (hcode limits).symm, fun hno => ?_⟩
  simp only [integer, numberFaults_eq h hno, (Integer.accumulate_mono h.integerValue digits).1]

/-- A double under larger limits. -/
theorem guarded_double (h : limits.AtMost limits') (whole fraction : List Char) :
    (double limits whole fraction).Guarded (double limits' whole fraction) := by
  have hcode : ∀ limits, (double limits whole fraction).token.map Token.isCode = some true :=
    fun _ => rfl
  refine ⟨rfl, (hcode limits').trans (hcode limits).symm, fun hno => ?_⟩
  obtain ⟨hwhole, hfraction⟩ := List.forall_mem_append.mp hno
  obtain ⟨hle, hle'⟩ := le_of_ite h.fractionDigits rfl hfraction
  simp only [double, numberFaults_eq h hwhole, (Integer.accumulate_mono h.integerValue whole).1,
    if_neg (Nat.not_lt_of_le hle), if_neg (Nat.not_lt_of_le hle')]

/-- A number under larger limits ends where it ended. -/
theorem guarded_number (h : limits.AtMost limits') (first : Char) (cs : List Char) :
    (number limits' first cs).2 = (number limits first cs).2 ∧
      (number limits first cs).1.Guarded (number limits' first cs).1 := by
  unfold number
  -- whether it is a double depends on the text only
  split
  · exact ⟨rfl, guarded_double h _ _⟩
  · exact ⟨rfl, guarded_integer h _⟩

/-- A comment under larger limits. -/
theorem guarded_comment (h : limits.AtMost limits') (cs : List Char) :
    (comment limits cs).1.Guarded (comment limits' cs).1 := by
  refine ⟨rfl, rfl, fun hno => ?_⟩
  obtain ⟨hle, hle'⟩ := le_of_ite h.commentLength rfl hno
  simp only [comment, List.take_of_length_le hle, List.take_of_length_le hle',
    if_neg (Nat.not_lt_of_le hle), if_neg (Nat.not_lt_of_le hle')]

/-- **A piece under larger limits** ends where it ended. -/
theorem guarded_recognise (h : limits.AtMost limits') (c : Char) (cs : List Char) :
    (recognise limits' c cs).2 = (recognise limits c cs).2 ∧
      (recognise limits c cs).1.Guarded (recognise limits' c cs).1 := by
  -- the kind of piece depends on the first characters, and where it ends on the text
  unfold recognise
  split
  · exact ⟨rfl, guarded_refl _⟩
  split
  · exact ⟨rfl, guarded_string h cs⟩
  split
  · exact ⟨rfl, guarded_word h _⟩
  split
  · exact guarded_number h c cs
  split
  · exact ⟨rfl, guarded_comment h _⟩
  · exact ⟨rfl, guarded_refl _⟩

end Piece

/-- The pieces of a text under limits and under larger ones, one by one. -/
theorem guarded_pieces {limits limits' : Limits} (h : limits.AtMost limits') (text : List Char) :
    List.Forall₂ Piece.Guarded (pieces limits text) (pieces limits' text) := by
  fun_induction pieces limits text with
  | case1 =>
    rw [pieces]
    exact .nil
  | case2 c cs ih =>
    obtain ⟨hrest, hguarded⟩ := Piece.guarded_recognise h c cs
    rw [pieces, hrest]
    exact .cons hguarded ih

-- ---------------------------------------------------------------------------
-- Readings
-- ---------------------------------------------------------------------------

/-- If no error of a piece is about a limit, no fault of it is. -/
theorem Piece.isLimit_of_errorsAt {p : Piece} {start : Position}
    (h : ∀ e ∈ p.errorsAt start, ¬e.isLimit) : ∀ x ∈ p.faults, ¬x.2.isLimit := by
  intro x hx
  exact h _ (List.mem_map_of_mem (mem_inOrder.mpr hx))

/-- The second reading is the first one under larger limits. -/
structure Reading.Guarded (r r' : Reading) : Prop where
  isCode : r'.token.map Token.isCode = r.token.map Token.isCode
  eq : (∀ e ∈ r.errors, ¬e.isLimit) → r' = r

/-- A reading with earlier errors under larger limits. -/
theorem guarded_precededBy {es es' : List SourceError} {r r' : Reading}
    (hes : (∀ e ∈ es, ¬e.isLimit) → es' = es) (h : r.Guarded r') :
    (r.precededBy es).Guarded (r'.precededBy es') := by
  refine ⟨h.isCode, fun hno => ?_⟩
  obtain ⟨hbefore, hbehind⟩ := List.forall_mem_append.mp hno
  rw [hes hbefore, h.eq hbehind]

/-- The readings of pieces under limits and under larger ones. -/
theorem guarded_readingsOf {ps ps' : List Piece} (h : List.Forall₂ Piece.Guarded ps ps')
    (start : Position) :
    List.Forall₂ Reading.Guarded (readingsOf start ps) (readingsOf start ps') := by
  induction h generalizing start with
  | nil => exact .cons ⟨rfl, fun _ => rfl⟩ .nil
  | @cons p p' ps ps' hp _ ih =>
    have hbehind := ih (start.after p.text)
    have herrors : (∀ e ∈ p.errorsAt start, ¬e.isLimit) → p' = p :=
      fun hno => hp.eq (Piece.isLimit_of_errorsAt hno)
    have hcode := hp.isCode
    rw [readingsOf, readingsOf, hp.text]
    -- the piece is a token under both limits, or under neither
    cases htoken : p.token with
    | some token =>
      rw [htoken] at hcode
      obtain ⟨token', htoken', hcode⟩ := Option.map_eq_some_iff.mp hcode
      rw [htoken']
      refine .cons ⟨by rw [Option.map_some, Option.map_some, hcode], fun hno => ?_⟩ hbehind
      have heq := herrors hno
      rw [heq, htoken] at htoken'
      rw [heq, Option.some.inj htoken']
    | none =>
      -- the faults of a piece that is no token are reported with the next reading
      rw [htoken] at hcode
      rw [Option.map_eq_none_iff.mp hcode]
      dsimp only
      generalize readingsOf (start.after p.text) ps = rs,
        readingsOf (start.after p.text) ps' = rs' at hbehind
      cases hbehind with
      | nil => exact .nil
      | cons hr hrs =>
        exact .cons (guarded_precededBy (fun hno => by rw [herrors hno]) hr) hrs

/-- The readings that are left without comments, under limits and under larger ones. -/
theorem guarded_significant {rs rs' : List Reading} (h : List.Forall₂ Reading.Guarded rs rs') :
    List.Forall₂ Reading.Guarded (significant rs) (significant rs') := by
  induction h with
  | nil => exact .nil
  | @cons r r' rs rs' hr _ ih =>
    rw [significant_cons, significant_cons, hr.isCode]
    split
    -- a comment is left out, and its errors are reported with the next reading
    · generalize significant rs = ss, significant rs' = ss' at ih
      cases ih with
      | nil => exact .cons hr .nil
      | cons hnext hothers =>
        exact .cons (guarded_precededBy (fun hno => by rw [hr.eq hno]) hnext) hothers
    · exact .cons hr ih

/-- **The readings that a program consists of** under limits and under larger ones. -/
theorem guarded_readings {limits limits' : Limits} (h : limits.AtMost limits')
    (text : List Char) :
    List.Forall₂ Reading.Guarded (significant (readings limits text))
      (significant (readings limits' text)) := by
  rw [readings_eq, readings_eq]
  exact guarded_significant (guarded_readingsOf (guarded_pieces h text) .start)

end NullScript
