import NullScript.Proofs.Conversion
import NullScript.Proofs.IntegerArithmetic
import NullScript.Proofs.RoundTrip

/-!
# NullScript — integers in decimal

Integers are displayed, converted from a text and read from a program text in decimal digits. A
program text has no negative literals: a minus sign is an operator, and what stands behind it must
be within 64 bits by itself. So all integers but the least one can be written.

* `Integer.parse?_display` — an integer is read from its display.
* `pieces_display` — the display of an integer as a program text.
* `Parsed.yields_wholeProgram_alone` — a program that is one expression.
* `decimal_integers_agree` — all that is done with decimal integers fits together.
-/

namespace NullScript

-- ---------------------------------------------------------------------------
-- Displays
-- ---------------------------------------------------------------------------

namespace Integer

variable {n : Int64}

/-- Every value of 64 bits is within 64 bits. -/
theorem ofInt?_toInt (n : Int64) : ofInt? n.toInt = some n := by
  have hle := n.le_toInt
  have hlt := n.toInt_lt
  have hmin : Int64.minValue.toInt = -2 ^ 63 := by decide
  have hmax : Int64.maxValue.toInt = 2 ^ 63 - 1 := by decide
  rw [ofInt?, if_pos ⟨by omega, by omega⟩, Int64.ofInt_toInt]

/-- The decimal digits of a number are read as this number. -/
theorem parseNat?_toDigits (k : Nat) : parseNat? (Nat.toDigits 10 k) = some k := by
  have hdigits : (Nat.toDigits 10 k).all Char.isDigit :=
    List.all_eq_true.mpr fun c hc => Nat.isDigit_of_mem_toDigits (by decide) (by decide) hc
  have hnonempty : (Nat.toDigits 10 k).isEmpty = false := by
    rw [List.isEmpty_eq_false_iff]
    exact Nat.toDigits_ne_nil
  rw [parseNat?, hnonempty, hdigits, Nat.ofDigitChars_ten_toDigits]
  rfl

/-- Digits have no sign. -/
theorem parse?_toDigits (k : Nat) : parse? (Nat.toDigits 10 k) = ofInt? k := by
  have hnat := parseNat?_toDigits k
  have hdigit : ∀ c ∈ Nat.toDigits 10 k, c.isDigit := fun c hc =>
    Nat.isDigit_of_mem_toDigits (by decide) (by decide) hc
  unfold parse?
  split
  -- a sign would be a digit
  · next hcons => exact absurd (hdigit '-' (hcons ▸ List.mem_cons_self)) (by decide)
  · next hcons => exact absurd (hdigit '+' (hcons ▸ List.mem_cons_self)) (by decide)
  · rw [hnat]
    rfl

/-- A negative integer is displayed as a minus sign and the digits of its amount. -/
theorem toList_display_of_neg (h : n < 0) :
    (display n).toList = '-' :: Nat.toDigits 10 (-n.toInt).toNat := by
  have hneg : n.toInt < 0 := Int64.lt_iff_toInt_lt.mp h
  rw [display, Int.repr_eq_if, if_neg (Int.not_le.mpr hneg), String.toList_append, Nat.toList_repr]
  rfl

/-- **An integer is read from its display.** -/
theorem parse?_display (n : Int64) : parse? (display n).toList = some n := by
  -- the sign is the only difference between the two displays
  by_cases hn : 0 ≤ n
  · have hint : 0 ≤ n.toInt := Int64.le_iff_toInt_le.mp hn
    rw [toList_display hn, parse?_toDigits, Int.toNat_of_nonneg hint, ofInt?_toInt]
  · have hneg : n < 0 := Int64.not_le.mp hn
    have hint : n.toInt < 0 := Int64.lt_iff_toInt_lt.mp hneg
    have hamount : -((-n.toInt).toNat : Int) = n.toInt := by omega
    rw [toList_display_of_neg hneg, parse?, parseNat?_toDigits, Option.bind_some, hamount,
      ofInt?_toInt]

/-- The negative of every integer but the least is exact. -/
theorem toInt_neg (h : n ≠ Int64.minValue) : (-n).toInt = -n.toInt := by
  have hle := n.le_toInt
  have hlt := n.toInt_lt
  have hne : n.toInt ≠ -2 ^ 63 := fun heq => h (Int64.toInt_inj.mp heq)
  rw [Int64.toInt_neg, Int.bmod_eq_of_le (by omega) (by omega)]

end Integer

-- ---------------------------------------------------------------------------
-- Displays as program texts
-- ---------------------------------------------------------------------------

/-- The tokens that an integer is displayed as. -/
def integerTokens (n : Int64) : List Token :=
  if n < 0 then [.unary .minus, .literal (.int (-n))] else [.literal (.int n)]

/-- The expression that they make up. -/
def integerExpr (n : Int64) : Expr :=
  if n < 0 then .unary .minus (.literal (.int (-n))) else .literal (.int n)

section

variable {limits : Limits} {n : Int64}

/-- A text that spells a token is one piece. -/
theorem pieces_of_spells {text : List Char} {t : Token} (h : Spells limits text t) :
    pieces limits text = [⟨text, some t, []⟩] := by
  obtain ⟨c, cs, rfl, hpiece⟩ := Piece.recognise_of_spells h
  rw [pieces, hpiece, pieces]

/-- A minus sign in front of a digit is a piece of its own. -/
theorem recognise_minus {c : Char} (hc : c.isDigit) (cs : List Char) :
    Piece.recognise limits '-' (c :: cs) =
      (⟨['-'], some (.unary .minus), []⟩, c :: cs) := by
  have hsign : Piece.recognise limits '-' (c :: cs) = Piece.sign '-' (c :: cs) :=
    Piece.recognise_sign (by decide) (by decide) (by decide) (by decide) nofun
  have hpair : Token.ofPair? '-' c = none := by
    unfold Token.ofPair?
    split
    all_goals first | rfl | exact absurd hc (by decide)
  rw [hsign, Piece.sign, hpair]
  rfl

/-- **The display of an integer as a program text**, unless the integer is the least one. -/
theorem pieces_display (hn : n ≠ Int64.minValue) (hmax : n ≤ limits.integerValue)
    (hmin : -n ≤ limits.integerValue) :
    (pieces limits (Integer.display n).toList).filterMap Piece.token = integerTokens n ∧
      ∀ p ∈ pieces limits (Integer.display n).toList, p.faults = [] := by
  unfold integerTokens
  by_cases hneg : n < 0
  · have hint : n.toInt < 0 := Int64.lt_iff_toInt_lt.mp hneg
    have hamount : 0 ≤ -n := by
      rw [Int64.le_iff_toInt_le, Integer.toInt_neg hn]
      show 0 ≤ _
      omega
    -- the amount is within 64 bits, because the integer is not the least one
    obtain ⟨hwhole, hvalue⟩ := isWhole_display hamount hmin
    rw [Integer.toList_display hamount, Integer.toInt_neg hn] at hwhole hvalue
    obtain ⟨c, cs, hdigits⟩ := List.exists_cons_of_ne_nil hwhole.nonempty
    have hc : c.isDigit :=
      List.all_eq_true.mp hwhole.digits c (hdigits ▸ List.mem_cons_self)
    have hpieces := pieces_of_spells (.int hwhole)
    rw [if_pos hneg, Integer.toList_display_of_neg hneg, pieces]
    rw [hdigits] at hpieces hvalue ⊢
    rw [recognise_minus hc, hpieces, hvalue]
    exact ⟨rfl, by simp⟩
  · obtain ⟨hwhole, hvalue⟩ := isWhole_display (Int64.not_lt.mp hneg) hmax
    rw [if_neg hneg, pieces_of_spells (.int hwhole), hvalue]
    exact ⟨rfl, by simp⟩

end

-- ---------------------------------------------------------------------------
-- A text that is one expression
-- ---------------------------------------------------------------------------

/-- Tokens are those of pieces, wherever these stand. -/
theorem filterMap_fst_placed (before : List Char) (ps : List Piece) :
    ((placed before ps).filterMap tokenAt).filterMap Prod.fst = ps.filterMap Piece.token := by
  -- induction on the pieces, each of which is placed behind the ones before it
  induction ps generalizing before with
  | nil => rfl
  | cons p ps ih =>
    rw [placed, List.filterMap_cons, List.filterMap_cons, tokenAt]
    cases p.token with
    | none => exact ih _
    | some t => exact congrArg (t :: ·) (ih _)

/-- The tokens of a text are those of its pieces, without comments. -/
theorem codeTokens_eq (limits : Limits) (text : List Char) :
    codeTokens limits text = ((pieces limits text).filterMap Piece.token).filter Token.isCode := by
  rw [codeTokens, tokenized_eq, List.filterMap_append, filterMap_fst_placed]
  exact congrArg _ (List.append_nil _)

/-- Pieces without faults lead to readings without errors. -/
theorem errors_readings_of_pieces {limits : Limits} {text : List Char}
    (h : ∀ p ∈ pieces limits text, p.faults = []) : ∀ r ∈ readings limits text, r.errors = [] := by
  have hall : lexicalErrors limits text = [] := by
    rw [lexicalErrors_eq, List.flatMap_eq_nil_iff]
    intro x hx
    exact Piece.errorsAt_of_faults_nil (h _ (exists_of_mem_placed hx).1) _
  exact List.flatMap_eq_nil_iff.mp hall

/-- Pieces without faults, whose tokens are a program, are parsed as this program, and nothing is
reported. -/
theorem parseSource_of_pieces {limits : Limits} {source : String} {ts : List Token} {p : Program}
    (htokens : (pieces limits source.toList).filterMap Piece.token = ts)
    (hfaults : ∀ x ∈ pieces limits source.toList, x.faults = []) (hcode : ∀ t ∈ ts, t.isCode)
    (hprogram : Parsed.Yields (Parsed.wholeProgram ts) p []) :
    parseSource limits source = ⟨p, []⟩ := by
  have hsource : codeTokens limits source.toList = ts := by
    rw [codeTokens_eq, htokens, List.filter_eq_self.mpr hcode]
  rw [parseSource_eq, hsource]
  dsimp only
  rw [hprogram.value, hprogram.faults,
    interleave_eq_nil (errors_significant (errors_readings_of_pieces hfaults))]

namespace Parsed

section

variable {e : Expr} {t : Token} {ts : List Token} (he : ReadBack e) (htokens : e.tokens = t :: ts)
  (ht : ∀ k, t ≠ .keyword k)

include he htokens ht

/-- The expression is read as a statement up to the end of the tokens. -/
theorem yields_statement_alone : Yields (statement (t :: ts)) (.parsed (.perform e)) [] := by
  have hbehind : Behind .disjunction [] := ⟨anew_nil.ends _, nofun, nofun⟩
  have hread : Yields (expression (t :: ts)) (some e) [] :=
    he _ _ (by rw [htokens, List.append_nil]) hbehind
  have hexpression : Yields (expressionStatement (t :: ts)) (.parsed (.perform e)) [] :=
    hread.andThen fun _ => .give
  -- the first token is no reserved word, so an expression is tried
  rw [statement]
  cases t with
  | keyword k => exact absurd rfl (ht k)
  | _ => exact hexpression

/-- **A program that is one expression**, which starts with no reserved word. -/
theorem yields_wholeProgram_alone :
    Yields (wholeProgram e.tokens) ⟨[.perform e], []⟩ [] := by
  have hhead : (t :: ts).head? ≠ some (.keyword .fun_) := by
    rintro ⟨⟩
    exact ht _ rfl
  -- behind the expression there is neither a function nor a statement
  have hnone : Yields (program [] []) ⟨[], []⟩ [] := by
    have hnil : ([] : List Token).head? ≠ some (.keyword .fun_) := nofun
    rw [program]
    refine (yields_function_none hnil).andThen fun _ => ?_
    exact yields_statement_nil.andThen fun _ => .give
  -- the expression is no function, but a statement
  have hprogram : Yields (program [] (t :: ts)) ⟨[.perform e], []⟩ [] := by
    rw [program]
    refine (yields_function_none hhead).andThen fun _ => ?_
    refine (yields_statement_alone he htokens ht).andThen fun _ => ?_
    exact hnone.andThen fun _ => .give
  rw [htokens]
  unfold wholeProgram
  dsimp only
  rw [if_pos (by rw [hprogram.rest]; rfl)]
  exact hprogram

end

end Parsed

-- ---------------------------------------------------------------------------
-- All that is done with decimal integers
-- ---------------------------------------------------------------------------

section

variable {limits : Limits} {n : Int64}

/-- **The display of an integer is parsed as one expression**, without any error. -/
theorem parseSource_display (hn : n ≠ Int64.minValue) (hmax : n ≤ limits.integerValue)
    (hmin : -n ≤ limits.integerValue) :
    parseSource limits (Integer.display n) = ⟨⟨[.perform (integerExpr n)], []⟩, []⟩ := by
  obtain ⟨htokens, hfaults⟩ := pieces_display hn hmax hmin
  by_cases hneg : n < 0
  · -- a negation of the amount
    rw [integerTokens, if_pos hneg] at htokens
    rw [integerExpr, if_pos hneg]
    refine parseSource_of_pieces htokens hfaults (by simp [Token.isCode]) ?_
    exact Parsed.yields_wholeProgram_alone
      (Parsed.readBack_unary (Parsed.operandReadBack_literal _)) rfl nofun
  · -- a literal
    rw [integerTokens, if_neg hneg] at htokens
    rw [integerExpr, if_neg hneg]
    refine parseSource_of_pieces htokens hfaults (by simp [Token.isCode]) ?_
    exact Parsed.yields_wholeProgram_alone
      ((Parsed.operandReadBack_literal _).readBack rfl) rfl nofun

/-- The expression has the integer as its value, wherever it is evaluated. -/
theorem evaluates_integerExpr (setting : Setting) (n : Int64) (s : State) :
    Evaluates setting (integerExpr n) s (.done (.int n) s) := by
  unfold integerExpr
  split
  · have hminus : Evaluates setting _ s _ := evaluates_minus (evaluates_literal (.int (-n)) s)
    rwa [Int64.ofInt_neg, Int64.ofInt_toInt, Int64.neg_neg] at hminus
  · exact evaluates_literal (.int n) s

end

namespace Value

theorem cast_int_string (n : Int64) :
    (int n).cast .string = .ok (string (Integer.display n)) := rfl

/-- A text is converted to the integer that is read from it. -/
theorem cast_string_int_eq_ok_iff {text : String} {w : Value} :
    (string text).cast .int = .ok w ↔ ∃ n, Integer.parse? text.toList = some n ∧ w = int n := by
  have hconvert : (string text).datum.convert? Ty.int.base =
      (Integer.parse? text.toList).map .int := rfl
  rw [cast_eq_ok_iff, hconvert]
  constructor
  · rintro ⟨-, hdatum, htype⟩
    obtain ⟨n, hn, hint⟩ := Option.map_eq_some_iff.mp hdatum
    obtain ⟨d, t⟩ := w
    cases hint
    cases htype
    exact ⟨n, hn, rfl⟩
  · rintro ⟨n, hn, rfl⟩
    exact ⟨nofun, by rw [hn]; rfl, rfl⟩

theorem cast_display (n : Int64) : (string (Integer.display n)).cast .int = .ok (int n) :=
  cast_string_int_eq_ok_iff.mpr ⟨n, Integer.parse?_display n, rfl⟩

end Value

/-- What becomes of an integer's decimal digits. -/
structure WrittenInDecimal (n : Int64) : Prop where
  /-- As a program text they are one expression, with this value wherever it is evaluated. -/
  source : ∃ e, parseSource .default (Integer.display n) = ⟨⟨[.perform e], []⟩, []⟩ ∧
    ∀ setting s, Evaluates setting e s (.done (.int n) s)
  /-- They are what the integer is converted to. -/
  toText : (Value.int n).cast .string = .ok (.string (Integer.display n))
  /-- They are converted to the integer. -/
  ofText : (Value.string (Integer.display n)).cast .int = .ok (.int n)
  isNumber : ∀ s, Builtin.isNumber.run [.string (Integer.display n)] s = (.ok (.bool true), s)

/-- What becomes of a text where an integer is expected. -/
structure ReadAsInteger (text : String) : Prop where
  /-- `isNumber` tells which texts are converted. -/
  isNumber : ∀ s, ∃ b, Builtin.isNumber.run [.string text] s = (.ok (.bool b), s) ∧
    (b = true ↔ ∃ v, (Value.string text).cast .int = .ok v)
  /-- The integer that a text is converted to survives being converted to a text and back. -/
  stable : ∀ v, (Value.string text).cast .int = .ok v →
    ∃ n, v = .int n ∧ ∃ w, v.cast .string = .ok w ∧ w.cast .int = .ok v

/-- What becomes of a text depends on whether an integer is read from it. -/
theorem readAsInteger (text : String) : ReadAsInteger text where
  isNumber s := by
    refine ⟨(Integer.parse? text.toList).isSome, rfl, ?_⟩
    rw [Option.isSome_iff_exists]
    constructor
    · rintro ⟨n, hn⟩
      exact ⟨.int n, Value.cast_string_int_eq_ok_iff.mpr ⟨n, hn, rfl⟩⟩
    · rintro ⟨v, hv⟩
      obtain ⟨n, hn, -⟩ := Value.cast_string_int_eq_ok_iff.mp hv
      exact ⟨n, hn⟩
  stable v hv := by
    obtain ⟨n, -, rfl⟩ := Value.cast_string_int_eq_ok_iff.mp hv
    exact ⟨n, rfl, _, Value.cast_int_string n, Value.cast_display n⟩

/-- **Decimal integers are one format.** Every integer but the least one is displayed, converted and
written in a program text in the same digits, under the usual limits. And the texts that are
converted to integers, the least one included, are those that `isNumber` accepts. -/
theorem decimal_integers_agree {n : Int64} (hn : n ≠ Int64.minValue) :
    WrittenInDecimal n ∧ ∀ text, ReadAsInteger text := by
  have hmax : ∀ m : Int64, m ≤ Limits.default.integerValue := fun m => Int64.le_maxValue m
  refine ⟨⟨⟨integerExpr n, parseSource_display hn (hmax n) (hmax (-n)), ?_⟩,
    Value.cast_int_string n, Value.cast_display n, fun s => ?_⟩, readAsInteger⟩
  · exact fun setting s => evaluates_integerExpr setting n s
  · -- `isNumber` reads an integer from the display, too
    change (Except.ok (Value.bool (Integer.parse? (Integer.display n).toList).isSome), s) = _
    rw [Integer.parse?_display]
    rfl

/-- The least integer but one, whose amount is the greatest literal. -/
theorem decimal_integers_agree_lowest :
    -Int64.maxValue ≠ Int64.minValue ∧ WrittenInDecimal (-Int64.maxValue) ∧
      ReadAsInteger "+0042" :=
  have hn : -Int64.maxValue ≠ Int64.minValue := by decide
  ⟨hn, (decimal_integers_agree hn).1, (decimal_integers_agree hn).2 _⟩

end NullScript
