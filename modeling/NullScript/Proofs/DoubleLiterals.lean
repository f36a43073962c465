import NullScript.Proofs.Conversion
import NullScript.Proofs.LimitGuards
import NullScript.Proofs.NumberLimit
import NullScript.Proofs.RoundedOperations
import NullScript.Proofs.Spelling

/-!
# NullScript — literals of doubles

The value of a literal is put together from two doubles, the one of the digits before the point and
the one of the digits behind it, so it is rounded three times. Conversion of the same text to a
double rounds once. What the two give is said exactly here, and for which decimals it is the same.

* `Double.summed_eq_iff` — when rounding three times does no harm.
* `Piece.denotes_doubleValue`, `Double.denotes_ofDecimal` — the double of a literal, and the one
  that its text is converted to.
* `double_literals_summed` — what they stand for, and when they are the same.
-/

namespace NullScript

namespace Double

-- ---------------------------------------------------------------------------
-- Three roundings instead of one
-- ---------------------------------------------------------------------------

/-- What is left of a natural number and a fraction that are rounded, added and rounded again. -/
def summed (w : ℕ) (φ : ℚ) : ℚ := rounded (rounded w + rounded φ)

/-- How this misses what is nearest to the sum. -/
inductive Slips (w : ℕ) (φ : ℚ) : Prop
  /-- The number and the fraction, each of them rounded, add up to a number that is halfway, and it
  is rounded away from their sum. -/
  | sum : IsHalfway (rounded w + rounded φ) →
    (summed w φ - (rounded w + rounded φ)) * (w + φ - (rounded w + rounded φ)) < 0 → Slips w φ
  /-- The number is halfway and rounded down, although there is a fraction. -/
  | whole : IsHalfway w → rounded w < w → 0 < φ → Slips w φ

section

variable {w : ℕ} {φ : ℚ}

theorem rounded_le_one (hφ : 0 ≤ φ) (hφ' : φ < 1) : rounded φ ≤ 1 := by
  have hone : rounded 1 = 1 := by exact_mod_cast rounded_natCast (m := 1) (by decide)
  exact (rounded_mono hφ hφ'.le).trans_eq hone

/-- A natural number is between two powers of two, and so is the next one but for the end. -/
theorem log2_bounds (hw : w ≠ 0) :
    (2 : ℚ) ^ (w.log2 : ℤ) ≤ w ∧ (w : ℚ) + 1 ≤ 2 ^ ((w.log2 : ℤ) + 1) := by
  have hlow := Nat.log2_self_le hw
  have hhigh : w + 1 ≤ 2 ^ (w.log2 + 1) := Nat.lt_log2_self
  exact ⟨by exact_mod_cast hlow, by exact_mod_cast hhigh⟩

/-- A slip keeps the three roundings from the one. -/
theorem Slips.summed_ne (h : Slips w φ) (hφ : 0 ≤ φ) (hφ' : φ < 1) :
    summed w φ ≠ rounded (w + φ) := by
  cases h with
  | sum hhalf hside =>
    -- what is halfway is rounded away from the sum, so the sum is rounded the other way
    exact (rounded_ne_of_halfway (add_nonneg (rounded_nonneg _) (rounded_nonneg _))
      (by positivity) hhalf hside).symm
  | whole hhalf hdown hpos =>
    have hside : (rounded w - w) * (w + φ - w) < 0 := by
      rw [add_sub_cancel_left]
      exact mul_neg_of_neg_of_pos (sub_neg.mpr hdown) hpos
    have hne := rounded_ne_of_halfway (Nat.cast_nonneg w) (by positivity) hhalf hside
    have hle : rounded w ≤ rounded (w + φ) := rounded_mono (Nat.cast_nonneg w) (by linarith)
    -- What is kept of the number is less by one at least.
    have hstep : rounded w + 1 ≤ w := by
      rw [← nearestNat_eq_rounded] at hdown ⊢
      have hlt : nearestNat w < w := by exact_mod_cast hdown
      exact_mod_cast Nat.succ_le_of_lt hlt
    have hsum : summed w φ ≤ rounded w := by
      refine rounded_mono (add_nonneg (rounded_nonneg _) (rounded_nonneg _)) ?_
      have := rounded_le_one hφ hφ'
      linarith
    exact (hsum.trans_lt (lt_of_le_of_ne hle hne.symm)).ne

/-- What is halfway between two doubles is an exact distance away from the natural number before
it. -/
theorem isExact_halfway_sub {j k : ℕ} (hk : k ≤ 53) (h : (w : ℚ) ≤ (2 * j + 1) * 2 ^ (-k : ℤ))
    (h' : (2 * j + 1) * 2 ^ (-k : ℤ) ≤ (w : ℚ) + 1) :
    IsExact ((2 * j + 1) * 2 ^ (-k : ℤ) - w) := by
  have hpos := two_zpow_pos (-k)
  have hone : ((2 ^ k : ℕ) : ℚ) * 2 ^ (-k : ℤ) = 1 := by
    rw [Nat.cast_pow, Nat.cast_ofNat, two_pow_mul_two_zpow, neg_add_cancel, zpow_zero]
  have hscaled : ((w * 2 ^ k : ℕ) : ℚ) * 2 ^ (-k : ℤ) = w := by
    rw [Nat.cast_mul, mul_assoc, hone, mul_one]
  have hsum : ((w * 2 ^ k + 2 ^ k : ℕ) : ℚ) * 2 ^ (-k : ℤ) = w + 1 := by
    rw [Nat.cast_add, add_mul, hscaled, hone]
  have hle : w * 2 ^ k ≤ 2 * j + 1 := by
    exact_mod_cast le_of_mul_le_mul_right (hscaled.trans_le h) hpos
  have hle' : 2 * j + 1 ≤ w * 2 ^ k + 2 ^ k := by
    exact_mod_cast le_of_mul_le_mul_right (h'.trans_eq hsum.symm) hpos
  have hfew : 2 ^ k ≤ 2 ^ 53 := Nat.pow_le_pow_right (by decide) hk
  refine ⟨2 * j + 1 - w * 2 ^ k, -k, by omega, by omega, ?_⟩
  rw [Nat.cast_sub hle, sub_mul, hscaled]
  push_cast
  rfl

/-- A number with at most 53 bits in front of the point. -/
theorem summed_eq_or_slips_of_lt (hw : 0 < w) (hlt : w < 2 ^ 53) (hφ : 0 ≤ φ) (hφ' : φ < 1) :
    summed w φ = rounded (w + φ) ∨ Slips w φ := by
  have hlog : w.log2 < 53 := (Nat.log2_lt hw.ne').mpr hlt
  obtain ⟨hlow, hhigh⟩ := log2_bounds hw.ne'
  obtain ⟨k, hk⟩ := Nat.exists_eq_add_of_le hlog.le
  have hexponent : (w.log2 : ℤ) - 53 = -k := by omega
  have hone := rounded_le_one hφ hφ'
  have hnonneg := rounded_nonneg φ
  have hkept : rounded w = w := rounded_natCast hlt.le
  -- The distance of the number to what is halfway is exact, so no fraction is rounded past it.
  have hsides := rounded_eq_or_halfway (q := w + rounded φ) (v := w + φ) (e := w.log2) (by omega)
    (by linarith) (by linarith) (by linarith) (by linarith) (fun j hj => ?_) (fun j hj => ?_)
  -- no halfway point is passed, unless the sum of the parts is at one itself
  · refine hsides.imp (fun heq => ?_) fun ⟨hhalf, hside⟩ => ?_
    · rw [summed, hkept, heq]
    · refine .sum ?_ ?_
      · rw [hkept]
        exact hhalf
      · rw [summed, hkept]
        exact hside
  · -- a halfway point below the decimal is below the sum of the rounded parts as well
    rw [hexponent] at hj ⊢
    rcases le_or_gt ((2 * j + 1) * 2 ^ (-k : ℤ) : ℚ) (w + 1) with hle | hgt
    · have hexact := isExact_halfway_sub (by omega) (by linarith) hle
      have hmono := rounded_mono hφ (le_sub_iff_add_le'.mpr hj)
      rw [rounded_of_isExact hexact] at hmono
      linarith
    · linarith
  · -- and one above the decimal is above that sum
    rw [hexponent] at hj ⊢
    rcases le_or_gt (w : ℚ) ((2 * j + 1) * 2 ^ (-k : ℤ)) with hle | hgt
    · have hexact := isExact_halfway_sub (by omega) hle (by linarith)
      have hmono := rounded_mono (sub_nonneg.mpr hle) (sub_le_iff_le_add'.mpr hj)
      rw [rounded_of_isExact hexact] at hmono
      linarith
    · linarith

/-- From `2 ^ 53` on, what is halfway is a natural number, so a fraction takes no number to it or
past it. -/
theorem rounded_eq_or_whole (hge : 2 ^ 53 ≤ w) (hφ : 0 ≤ φ) (hφ' : φ < 1) :
    rounded (w + φ) = rounded w ∨ Slips w φ := by
  have hw : w ≠ 0 := by omega
  have hlog : 53 ≤ w.log2 := (Nat.le_log2 hw).mpr hge
  obtain ⟨hlow, hhigh⟩ := log2_bounds hw
  obtain ⟨k, hk⟩ := Nat.exists_eq_add_of_le hlog
  have hexponent : (w.log2 : ℤ) - 53 = k := by omega
  -- from the number to the decimal nothing is passed but the number itself
  have hsides := rounded_eq_or_halfway (q := w) (v := w + φ) (e := w.log2) (by omega)
    hlow (by linarith) (by linarith) (by linarith) (fun j hj => by linarith) (fun j hj => ?_)
  · refine hsides.imp Eq.symm fun ⟨hhalf, hside⟩ => ?_
    rw [add_sub_cancel_left] at hside
    have hpos : 0 < φ := lt_of_le_of_ne hφ fun h => by simp [← h] at hside
    exact .whole hhalf (sub_neg.mp (neg_of_mul_neg_left hside hφ)) hpos
  · -- a halfway point before the decimal is a natural number, which is not beyond `w`
    rw [hexponent, zpow_natCast] at hj ⊢
    have hlt : (((2 * j + 1) * 2 ^ k : ℕ) : ℚ) < (w + 1 : ℕ) := by
      push_cast
      linarith
    exact_mod_cast Nat.le_of_lt_succ (Nat.cast_lt.mp hlt)

/-- To a double from `2 ^ 53` on, a fraction that was rounded adds nothing, or it takes the double
halfway to the next one. -/
theorem rounded_add_eq_or_halfway {n : ℕ} (hge : 2 ^ 53 ≤ n) (hn : IsExact n) {a : ℚ} (ha : 0 ≤ a)
    (ha' : a ≤ 1) :
    rounded (n + a) = n ∨ IsHalfway (n + a) ∧ (n : ℚ) + a < rounded (n + a) := by
  have hne : n ≠ 0 := by omega
  have hlog : 53 ≤ n.log2 := (Nat.le_log2 hne).mpr hge
  obtain ⟨hlow, hhigh⟩ := log2_bounds hne
  obtain ⟨k, hk⟩ := Nat.exists_eq_add_of_le hlog
  have hexponent : (n.log2 : ℤ) - 53 = k := by omega
  have hplace : ((k + 1 : ℕ) : ℤ) ≤ place n := by
    rw [place_eq hlow ((lt_add_one _).trans_le hhigh) (by omega)]
    omega
  -- the double is even at the place of its halfway points, so it is none of them
  obtain ⟨m, hm⟩ := hn.exists_eq_mul hplace
  have hm : n = 2 * m * 2 ^ k := by
    rw [zpow_natCast] at hm
    have hm : n = m * 2 ^ (k + 1) := by exact_mod_cast hm
    rw [hm, Nat.pow_succ']
    ring
  have hsides := rounded_eq_or_halfway (q := n + a) (v := n) (e := n.log2) (by omega)
    (by linarith) (by linarith) hlow (by linarith) (fun j hj => ?_) (fun j hj => by linarith)
  · rw [rounded_of_isExact hn] at hsides
    refine hsides.imp_right fun ⟨hhalf, hside⟩ => ⟨hhalf, ?_⟩
    rw [sub_add_cancel_left] at hside
    exact sub_pos.mp (pos_of_mul_neg_left hside (neg_nonpos.mpr ha))
  · -- a halfway point from the double on is the next natural number at least
    rw [hexponent, zpow_natCast] at hj ⊢
    have hle : n ≤ (2 * j + 1) * 2 ^ k := by exact_mod_cast hj
    have hodd : n ≠ (2 * j + 1) * 2 ^ k := by
      rw [hm]
      intro heq
      have := Nat.eq_of_mul_eq_mul_right (Nat.pow_pos (by decide)) heq
      omega
    have hlt : (n + 1 : ℕ) ≤ (((2 * j + 1) * 2 ^ k : ℕ) : ℚ) :=
      Nat.cast_le.mpr (lt_of_le_of_ne hle hodd)
    push_cast at hlt
    linarith

/-- A number with more bits in front of the point. -/
theorem summed_eq_or_slips_of_ge (hge : 2 ^ 53 ≤ w) (hφ : 0 ≤ φ) (hφ' : φ < 1) :
    summed w φ = rounded (w + φ) ∨ Slips w φ := by
  rcases rounded_eq_or_whole hge hφ hφ' with hwhole | hslips
  · have hkept : 2 ^ 53 ≤ nearestNat w :=
      (nearestNat_of_le le_rfl).ge.trans (nearestNat_mono hge)
    have hexact : IsExact (nearestNat w) := by
      rw [nearestNat_eq_rounded]
      exact isExact_rounded (Nat.cast_nonneg w)
    have hsum := rounded_add_eq_or_halfway hkept hexact (rounded_nonneg φ) (rounded_le_one hφ hφ')
    rw [nearestNat_eq_rounded] at hsum
    refine hsum.imp (fun heq => ?_) fun ⟨hhalf, hup⟩ => ?_
    · -- nothing was added, and one rounding adds nothing either
      exact heq.trans hwhole.symm
    · -- The decimal is below, as otherwise it would be rounded up as well.
      have hbelow : (w : ℚ) + φ < rounded w + rounded φ := by
        by_contra hnot
        have hmono := rounded_mono (add_nonneg (rounded_nonneg _) (rounded_nonneg _))
          (not_lt.mp hnot)
        have := rounded_nonneg φ
        linarith
      exact .sum hhalf (mul_neg_of_pos_of_neg (sub_pos.mpr hup) (sub_neg.mpr hbelow))
  · exact .inr hslips

/-- **Rounding three times** does no harm unless one of the two slips happens. -/
theorem summed_eq_iff (hφ : 0 ≤ φ) (hφ' : φ < 1) :
    summed w φ = rounded (w + φ) ↔ ¬Slips w φ := by
  refine ⟨fun heq hslips => hslips.summed_ne hφ hφ' heq, fun hno => ?_⟩
  -- without digits before the point there is only one number to round
  rcases Nat.eq_zero_or_pos w with rfl | hw
  · rw [summed, Nat.cast_zero, rounded_zero, zero_add, zero_add,
      rounded_of_isExact (isExact_rounded hφ)]
  · rcases Nat.lt_or_ge w (2 ^ 53) with hlt | hge
    · exact (summed_eq_or_slips_of_lt hw hlt hφ hφ').resolve_right hno
    · exact (summed_eq_or_slips_of_ge hge hφ hφ').resolve_right hno

end

-- ---------------------------------------------------------------------------
-- Decimals
-- ---------------------------------------------------------------------------

/-- What digits behind a point stand for. -/
def fractionPart (digits : List Char) : ℚ := Nat.ofDigitChars 10 digits 0 / 10 ^ digits.length

/-- What digits before and behind a point stand for. -/
def decimal (whole fraction : List Char) : ℚ :=
  Nat.ofDigitChars 10 whole 0 + fractionPart fraction

/-- Digits denote less than the power of ten with as many zeros. -/
theorem ofDigitChars_lt {digits : List Char} (h : digits.all Char.isDigit) :
    Nat.ofDigitChars 10 digits 0 < 10 ^ digits.length := by
  induction digits with
  | nil => decide
  | cons c digits ih =>
    rw [List.all_cons, Bool.and_eq_true] at h
    have hfirst : c.toNat - '0'.toNat ≤ 9 := Integer.digitValue_le h.1
    have hmore := ih h.2
    have hle := Nat.mul_le_mul_left (10 ^ digits.length) hfirst
    rw [Nat.ofDigitChars_cons, Nat.ofDigitChars_eq_ofDigitChars_zero, Nat.mul_zero, Nat.zero_add,
      List.length_cons, Nat.pow_succ]
    omega

theorem fractionPart_nonneg (digits : List Char) : 0 ≤ fractionPart digits := by
  unfold fractionPart
  positivity

/-- The digits behind a point stand for less than one. -/
theorem fractionPart_lt_one {digits : List Char} (h : digits.all Char.isDigit) :
    fractionPart digits < 1 := by
  rw [fractionPart, div_lt_one (by positivity)]
  exact_mod_cast ofDigitChars_lt h

/-- Without the point, the digits stand for as many times the number as there are places. -/
theorem ofDigitChars_div (whole fraction : List Char) :
    (Nat.ofDigitChars 10 (whole ++ fraction) 0 : ℚ) / 10 ^ fraction.length =
      decimal whole fraction := by
  rw [Nat.ofDigitChars_append, Nat.ofDigitChars_eq_ofDigitChars_zero, decimal, fractionPart,
    Nat.cast_add, Nat.cast_mul, Nat.cast_pow, Nat.cast_ofNat, add_div,
    mul_div_cancel_left₀ _ (by positivity)]

/-- Below `2 ^ 64` no double is out of range. -/
theorem place_lt_of_le {q : ℚ} (h : q ≤ 2 ^ 64) : place q < 971 :=
  ((place_lt_iff (k := 13) (by decide)).mpr (h.trans_lt (by norm_num))).trans (by decide)

/-- **A decimal** below `2 ^ 64` as a double. -/
theorem denotes_ofDecimal {n k : ℕ} (h : (n : ℚ) / 10 ^ k < 2 ^ 64) :
    Denotes (ofDecimal ⟨n, -k⟩) (rounded (n / 10 ^ k)) := by
  rcases Nat.eq_zero_or_pos k with rfl | hk
  · rw [pow_zero, div_one] at h ⊢
    exact denotes_ofNat (by exact_mod_cast h)
  · have hneg : decide (-(k : ℤ) < 0) = true := decide_eq_true (by omega)
    rw [ofDecimal, hneg, Int.natAbs_neg, Int.natAbs_natCast]
    exact denotes_ofScientific hk (place_lt_of_le h.le)

/-- An integer of 64 bits as a double. -/
theorem denotes_ofInt64 {a : Int64} {w : ℕ} (h : a.toInt = w) :
    Denotes (ofInt64 a) (rounded w) := by
  have hlt := a.toInt_lt
  rw [ofInt64, h]
  exact denotes_ofNat (by omega)

section

variable {whole fraction : List Char}

/-- Digits with a point between them are one decimal, without an exponent. -/
theorem parseDecimal?_double (hne : whole ≠ []) (hwhole : whole.all Char.isDigit)
    (hfraction : fraction.all Char.isDigit) :
    parseDecimal? (whole ++ '.' :: fraction) =
      some ⟨Nat.ofDigitChars 10 (whole ++ fraction) 0, -fraction.length⟩ := by
  have htake : fraction.takeWhile Char.isDigit = fraction :=
    List.takeWhile_eq_self_iff.mpr (List.all_eq_true.mp hfraction)
  have hdrop : fraction.dropWhile Char.isDigit = [] :=
    List.dropWhile_eq_nil_iff.mpr (List.all_eq_true.mp hfraction)
  unfold parseDecimal?
  rw [Piece.takeWhile_text_double hwhole, Piece.dropWhile_text_double hwhole]
  simp [htake, hdrop, parseExponent?, hne]

/-- The words that are read as doubles have no point. -/
theorem parseMagnitude?_of_mem {text : List Char} (h : '.' ∈ text) :
    parseMagnitude? text = (parseDecimal? text).map ofDecimal := by
  have hpoint : '.' ∈ text.map Char.toLower := List.mem_map.mpr ⟨'.', h, by decide⟩
  have hnan : text.map Char.toLower ≠ ['n', 'a', 'n'] := fun hword =>
    absurd (hword ▸ hpoint) (by decide)
  unfold parseMagnitude?
  rw [if_neg hnan, if_neg]
  rintro (hword | hword)
  · exact absurd (hword ▸ hpoint) (by decide)
  · exact absurd (hword ▸ hpoint) (by decide)

/-- Digits with a point between them are read as one decimal. -/
theorem parse?_double (hne : whole ≠ []) (hwhole : whole.all Char.isDigit)
    (hfraction : fraction.all Char.isDigit) :
    parse? (whole ++ '.' :: fraction) =
      some (ofDecimal ⟨Nat.ofDigitChars 10 (whole ++ fraction) 0, -fraction.length⟩) := by
  have hpoint : '.' ∈ whole ++ '.' :: fraction :=
    List.mem_append_right whole List.mem_cons_self
  have hmagnitude := parseMagnitude?_of_mem hpoint
  rw [parseDecimal?_double hne hwhole hfraction, Option.map_some] at hmagnitude
  obtain ⟨c, more, rfl⟩ := List.exists_cons_of_ne_nil hne
  have hc : c.isDigit := List.all_eq_true.mp hwhole c List.mem_cons_self
  -- no sign stands in front of the first digit
  unfold parse?
  split
  · next h => exact absurd hc (by rw [(List.cons.inj h).1]; decide)
  · next h => exact absurd hc (by rw [(List.cons.inj h).1]; decide)
  · exact hmagnitude

end

end Double

namespace Piece

open Double

/-- The digits behind a point are read as the double nearest to them. -/
theorem denotes_fractionValue {digits : List Char} (h : digits.all Char.isDigit) :
    Denotes (fractionValue digits) (rounded (fractionPart digits)) := by
  unfold fractionValue
  split
  · next hempty =>
    obtain rfl := List.isEmpty_iff.mp hempty
    have hzero : fractionPart [] = 0 := by norm_num [fractionPart]
    rw [hzero, rounded_zero]
    exact .zero
  · exact denotes_ofDecimal ((fractionPart_lt_one h).trans (by norm_num))

/-- **The double that is put together** from digits before and behind a point. -/
theorem denotes_doubleValue {a : Int64} {w : ℕ} (ha : a.toInt = w) {digits : List Char}
    (h : digits.all Char.isDigit) :
    Denotes (doubleValue a digits) (summed w (fractionPart digits)) := by
  -- both parts are small enough for a double, and so is their sum
  have hw : (w : ℚ) ≤ 2 ^ 63 := by
    have := a.toInt_lt
    exact_mod_cast (by omega : w ≤ 2 ^ 63)
  have hmost : rounded (2 ^ 63) = 2 ^ 63 :=
    rounded_of_isExact ⟨1, 63, by decide, by decide, by norm_num⟩
  have hwhole : rounded w ≤ 2 ^ 63 := (rounded_mono (Nat.cast_nonneg w) hw).trans_eq hmost
  have hfraction := rounded_le_one (fractionPart_nonneg digits) (fractionPart_lt_one h)
  exact (denotes_ofInt64 ha).add (denotes_fractionValue h) (place_lt_of_le (by linarith))

-- ---------------------------------------------------------------------------
-- Which pieces are doubles
-- ---------------------------------------------------------------------------

variable {limits : Limits}

/-- Numbers start with a digit. -/
theorem isNumber_recognise {c : Char} (hc : c.isDigit = false) (cs : List Char) :
    (recognise limits c cs).1.token.any Token.isNumber = false := by
  have hsingle (c : Char) : (single c).token.any Token.isNumber = false := by
    unfold single
    cases h : Token.ofChar? c with
    | some token => exact isNumber_of_ofChar? h
    | none => rfl
  -- the character decides: blank, quote, name, digit, comment or sign
  unfold recognise
  split
  · rfl
  split
  · rfl
  split
  · unfold word
    cases h : Token.ofReserved? (String.ofList (c :: cs.takeWhile isNamePart)) with
    | some token => exact isNumber_of_ofReserved? h
    | none => rfl
  split
  · next hdigit => exact absurd hdigit (Bool.eq_false_iff.mp hc)
  split
  · rfl
  · unfold sign
    split
    · exact hsingle c
    · next d _ _ =>
      cases h : Token.ofPair? c d with
      | some token => exact isNumber_of_ofPair? h
      | none => exact hsingle c

/-- A piece that is a double starts with a digit and has a point behind its digits. -/
theorem exists_eq_double_of_recognise {c : Char} {cs : List Char} {x : Float}
    (h : (recognise limits c cs).1.token = some (.literal (.double x))) :
    ∃ whole fraction, whole ≠ [] ∧ whole.all Char.isDigit ∧ fraction.all Char.isDigit ∧
      (recognise limits c cs).1 = double limits whole fraction := by
  cases hc : c.isDigit with
  | false =>
    have hnumber : (recognise limits c cs).1.token.any Token.isNumber = false :=
      isNumber_recognise hc cs
    rw [h] at hnumber
    cases hnumber
  | true =>
    rw [recognise_number hc] at h ⊢
    unfold number at h ⊢
    split at h
    · -- the point makes it a double
      exact ⟨_, _, List.cons_ne_nil _ _, all_isDigit_moreDigits hc cs, List.all_takeWhile, rfl⟩
    · cases h

/-- **The pieces that are doubles** are digits with a point between them. -/
theorem exists_eq_double_of_mem {text : List Char} {p : Piece} (hp : p ∈ pieces limits text)
    {x : Float} (h : p.token = some (.literal (.double x))) :
    ∃ whole fraction, whole ≠ [] ∧ whole.all Char.isDigit ∧ fraction.all Char.isDigit ∧
      p = double limits whole fraction := by
  -- induction on the pieces
  fun_induction pieces limits text with
  | case1 => cases hp
  | case2 c cs ih =>
    rcases List.mem_cons.mp hp with rfl | hp
    · exact exists_eq_double_of_recognise h
    · exact ih hp

end Piece

/-- Digits that are not noticed have the value that they denote, whatever the limit is. -/
theorem Integer.toInt_accumulate {max : Int64} {digits : List Char}
    (hdigits : digits.all Char.isDigit) (h : (accumulate max digits).overflowed = false) :
    (accumulate max digits).value.toInt = Nat.ofDigitChars 10 digits 0 := by
  by_cases hmax : 0 ≤ max
  · -- the limit is not negative
    rw [accumulate_exact hmax hdigits] at h ⊢
    exact toInt_ofNat_of_not_noticeable (of_decide_eq_false h)
  · -- a negative limit notices no less than zero does, so the digits pass under zero as well
    obtain ⟨hvalue, hover⟩ := accumulate_mono (Int64.le_of_lt (Int64.not_le.mp hmax)) digits
    have hzero : (accumulate 0 digits).overflowed = false :=
      Bool.eq_false_iff.mpr fun hnoticed => Bool.eq_false_iff.mp h (hover hnoticed)
    rw [accumulate_exact (Int64.le_refl 0) hdigits] at hzero hvalue
    rw [← hvalue]
    exact toInt_ofNat_of_not_noticeable (of_decide_eq_false hzero)

open Double

/-- A text is converted to the double that is read from it. -/
theorem Value.cast_string_double {text : String} {y : Float} (h : parse? text.toList = some y) :
    (string text).cast .double = .ok (double y) := by
  have hconvert : (string text).datum.convert? Ty.double.base =
      (parse? text.toList).map .double := rfl
  exact cast_eq_ok_iff.mpr ⟨nofun, by rw [hconvert, h]; rfl, rfl⟩

/-- What digits with a point between them are as a literal, and what they are converted to. -/
structure WrittenWithPoint (whole fraction : List Char) (x : Float) : Prop where
  /-- The literal stands for the sum of the two parts, each of them rounded, and rounded again. -/
  literal : Denotes x (summed (Nat.ofDigitChars 10 whole 0) (fractionPart fraction))
  /-- The text is converted to the number that it stands for, rounded once. This is the literal,
  unless a slip happens. -/
  converted : ∃ y,
    (Value.string (String.ofList (whole ++ '.' :: fraction))).cast .double = .ok (.double y) ∧
      Denotes y (rounded (decimal whole fraction)) ∧
      (x = y ↔ ¬Slips (Nat.ofDigitChars 10 whole 0) (fractionPart fraction))
  /-- No double is nearer to the number than the one that the text is converted to. -/
  nearest : ∀ z a, Denotes z a →
    |rounded (decimal whole fraction) - decimal whole fraction| ≤ |a - decimal whole fraction|

/-- The double that is put together, and the one that the text is converted to. -/
theorem writtenWithPoint {whole fraction : List Char} (hne : whole ≠ [])
    (hwhole : whole.all Char.isDigit) (hfraction : fraction.all Char.isDigit) {a : Int64}
    (ha : a.toInt = Nat.ofDigitChars 10 whole 0) :
    WrittenWithPoint whole fraction (Piece.doubleValue a fraction) := by
  have hnonneg := fractionPart_nonneg fraction
  have hlt := fractionPart_lt_one hfraction
  have hliteral := Piece.denotes_doubleValue ha hfraction
  -- both parts are in range, so the decimal is
  have hsmall : decimal whole fraction < 2 ^ 64 := by
    have hmost : Nat.ofDigitChars 10 whole 0 < 2 ^ 63 := by
      have := a.toInt_lt
      omega
    have hmost : (Nat.ofDigitChars 10 whole 0 : ℚ) < 2 ^ 63 := by exact_mod_cast hmost
    unfold decimal
    linarith
  rw [← ofDigitChars_div] at hsmall
  have hconverted := denotes_ofDecimal hsmall
  rw [ofDigitChars_div] at hconverted
  have hparse := parse?_double hne hwhole hfraction
  rw [← String.toList_ofList (l := whole ++ '.' :: fraction)] at hparse
  -- the two doubles are the same if the numbers that they denote are
  have hsame : Piece.doubleValue a fraction =
      ofDecimal ⟨Nat.ofDigitChars 10 (whole ++ fraction) 0, -fraction.length⟩ ↔
        summed (Nat.ofDigitChars 10 whole 0) (fractionPart fraction) =
          rounded (decimal whole fraction) := by
    constructor
    · intro heq
      rw [heq] at hliteral
      exact hliteral.number_unique hconverted
    · intro heq
      rw [heq] at hliteral
      exact hliteral.unique hconverted
  exact {
    literal := hliteral
    converted := ⟨_, Value.cast_string_double hparse, hconverted,
      hsame.trans (summed_eq_iff hnonneg hlt)⟩
    nearest := fun z b hz =>
      rounded_nearest (add_nonneg (Nat.cast_nonneg _) hnonneg) (IsDouble.isExact hz) }

/-- **A literal of a double** that is read without a fault is digits with a point between them,
whatever the limits are. It is rounded three times, and its text is converted with one rounding. -/
theorem double_literals_summed {limits : Limits} {text : List Char} {p : Piece}
    (hp : p ∈ pieces limits text) {x : Float} (htoken : p.token = some (.literal (.double x)))
    (hfaults : p.faults = []) :
    ∃ whole fraction, whole.all Char.isDigit ∧ fraction.all Char.isDigit ∧
      p.text = whole ++ '.' :: fraction ∧ WrittenWithPoint whole fraction x := by
  obtain ⟨whole, fraction, hne, hwhole, hfraction, rfl⟩ := Piece.exists_eq_double_of_mem hp htoken
  -- without a fault nothing was noticed while the digits were added up
  have hover : (Integer.accumulate limits.integerValue whole).overflowed = false := by
    refine Bool.eq_false_iff.mpr fun hover => ?_
    have hnumber := (List.append_eq_nil_iff.mp hfaults).1
    rw [Piece.numberFaults, if_pos hover] at hnumber
    cases hnumber
  have hwritten := writtenWithPoint hne hwhole hfraction (Integer.toInt_accumulate hwhole hover)
  rw [Datum.double.inj (Token.literal.inj (Option.some.inj htoken))] at hwritten
  exact ⟨whole, fraction, hwhole, hfraction, rfl, hwritten⟩

/-- The literal `2.5`. -/
theorem double_literals_summed_two_and_a_half :
    Piece.double .default ['2'] ['5'] ∈ pieces .default ['2', '.', '5'] ∧
      ∃ whole fraction, whole.all Char.isDigit ∧ fraction.all Char.isDigit ∧
        ['2', '.', '5'] = whole ++ '.' :: fraction ∧
        WrittenWithPoint whole fraction (Piece.doubleValue 2 ['5']) := by
  have hmem : Piece.double .default ['2'] ['5'] ∈ pieces .default ['2', '.', '5'] := by
    rw [pieces]
    exact List.mem_cons_self
  exact ⟨hmem, double_literals_summed hmem rfl rfl⟩

/-- The literal `1.14` is not the double that its text is converted to. -/
theorem literal_apart_from_conversion :
    ¬∀ (limits : Limits) (text : List Char), ∀ p ∈ pieces limits text, ∀ x,
      p.token = some (.literal (.double x)) → p.faults = [] →
        (Value.string (String.ofList p.text)).cast .double = .ok (.double x) := by
  intro h
  have hmem : Piece.double .default ['1'] ['1', '4'] ∈ pieces .default ['1', '.', '1', '4'] := by
    rw [pieces]
    exact List.mem_cons_self
  have hparse : parse? (String.ofList ['1', '.', '1', '4']).toList = some (ofDecimal ⟨114, -2⟩) :=
    rfl
  have hcast := (Value.cast_string_double hparse).symm.trans (h _ _ _ hmem _ rfl rfl)
  -- the two doubles differ in their last bit
  have hsame := Datum.double.inj (congrArg Value.datum (Except.ok.inj hcast))
  exact absurd (congrArg Float.toModel hsame) (by decide +kernel)

end NullScript
