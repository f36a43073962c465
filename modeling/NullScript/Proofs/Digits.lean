import NullScript.Integer

/-!
# NullScript — digits and the limit

Digits are taken one by one into 64 bits, and for each one the limit is looked at before the value
grows. What is left of the limit is divided by truncation, so a first digit above the limit leaves
no negative rest and passes. From the second digit on, an excess is noticed.

* `Accumulated.push_exact` — one more digit.
* `accumulate_exact` — all digits of a text: the value is the number that they denote, and it is
  noticed exactly if this number is `Noticeable`.
* `toList_display`, `eq_zero_of_head?_toDigits` — the digits that display an integer.
-/

namespace NullScript.Integer

variable {max : Int64}

/-- What is left of the limit stops at the least integer. -/
theorem toInt_saturatingSub (a : Int64) (b : Nat) :
    (saturatingSub a b).toInt =
      if a.toInt - b < Int64.minValue.toInt then Int64.minValue.toInt else a.toInt - b := by
  have hmax := a.toInt_lt
  have hmin : Int64.minValue.toInt = -2 ^ 63 := by decide
  unfold saturatingSub
  split
  · rfl
  · exact Int64.toInt_ofInt_of_le (by omega) (by omega)

/-- A number above the limit that has more than one digit. -/
def Noticeable (max : Int64) (n : Nat) : Prop := max.toInt < n ∧ 9 < n

instance (n : Nat) : Decidable (Noticeable max n) := inferInstanceAs (Decidable (_ ∧ _))

/-- A number that is not noticeable fits into 64 bits. -/
theorem toInt_ofNat_of_not_noticeable {n : Nat} (h : ¬Noticeable max n) :
    (Int64.ofNat n).toInt = n := by
  have hmax := max.toInt_lt
  unfold Noticeable at h
  exact Int64.toInt_ofNat_of_lt (by omega)

/-- Truncation takes the quotient of a number between `-10` and `0` to zero. -/
theorem tdiv_ten_lt_iff {a : Int} (h : -10 < a) (n : Nat) :
    a.tdiv 10 < n ↔ a < 10 * n ∧ (a < 0 → 0 < n) := by
  -- between `-10` and `0` truncation gives zero; above, it is division without remainder
  rcases Int.lt_or_le a 0 with hneg | hpos
  · have hquotient : (-a).tdiv 10 = 0 := Int.tdiv_eq_zero_of_lt (by omega) (by omega)
    rw [Int.neg_tdiv] at hquotient
    omega
  · rw [Int.tdiv_eq_ediv_of_nonneg hpos]
    omega

/-- The value with one more digit. -/
theorem ofNat_mul_ten_add (n digit : Nat) :
    Int64.ofNat n * 10 + Int64.ofNat digit = Int64.ofNat (10 * n + digit) := by
  rw [Int64.ofNat_add, Nat.mul_comm, Int64.ofNat_mul]
  rfl

/-- The test before a digit is taken, for a limit that is not negative. -/
theorem room_lt_iff (hmax : 0 ≤ max) {n digit : Nat} (hdigit : digit ≤ 9)
    (hn : ¬Noticeable max n) :
    saturatingSub max digit / 10 < Int64.ofNat n ↔ Noticeable max (10 * n + digit) := by
  have hmax : 0 ≤ max.toInt := Int64.le_iff_toInt_le.mp hmax
  have hten : (10 : Int64).toInt = 10 := by decide
  -- with a limit that is not negative, subtracting a digit does not saturate
  have hleft : (saturatingSub max digit).toInt = max.toInt - digit := by
    have hmin : Int64.minValue.toInt = -2 ^ 63 := by decide
    rw [toInt_saturatingSub, if_neg (by omega)]
  rw [Int64.lt_iff_toInt_lt, Int64.toInt_div_of_ne_right _ _ (by decide), hleft, hten,
    toInt_ofNat_of_not_noticeable hn, tdiv_ten_lt_iff (by omega)]
  unfold Noticeable at hn ⊢
  omega

/-- **One more digit.** As long as nothing is noticed, the value is the number so far. -/
theorem Accumulated.push_exact (hmax : 0 ≤ max) {n digit : Nat} (hdigit : digit ≤ 9)
    (hn : ¬Noticeable max n) :
    push max ⟨Int64.ofNat n, false⟩ digit =
      ⟨Int64.ofNat (10 * n + digit), decide (Noticeable max (10 * n + digit))⟩ := by
  rw [push, ofNat_mul_ten_add, Bool.false_or, decide_eq_decide.mpr (room_lt_iff hmax hdigit hn)]

/-- Once an excess is noticed, it stays noticed, and the value goes on wrapping around. -/
theorem foldl_push_of_overflowed (digits : List Char) (n : Nat) :
    (digits.map digitValue).foldl (Accumulated.push max) ⟨Int64.ofNat n, true⟩ =
      ⟨Int64.ofNat (Nat.ofDigitChars 10 digits n), true⟩ := by
  induction digits generalizing n with
  | nil => rfl
  | cons c digits ih =>
    rw [List.map_cons, List.foldl_cons, Accumulated.push, ofNat_mul_ten_add, Nat.ofDigitChars_cons]
    exact ih _

/-- More digits do not make a number smaller. -/
theorem le_ofDigitChars (digits : List Char) (n : Nat) : n ≤ Nat.ofDigitChars 10 digits n := by
  rw [Nat.ofDigitChars_eq_ofDigitChars_zero]
  exact Nat.le_add_right_of_le (Nat.le_mul_of_pos_left _ (Nat.pow_pos (by decide)))

/-- The value of a digit is at most nine. -/
theorem digitValue_le {c : Char} (hc : c.isDigit) : digitValue c ≤ 9 := by
  have hzero : '0'.toNat = 48 := rfl
  have hnine : '9'.toNat = 57 := rfl
  have h := Char.isDigit_iff_toNat.mp hc
  unfold digitValue
  omega

/-- As long as nothing is noticed, the digits add up to the number that they denote. -/
theorem foldl_push_exact (hmax : 0 ≤ max) {digits : List Char} (hdigits : digits.all Char.isDigit)
    {n : Nat} (hn : ¬Noticeable max n) :
    (digits.map digitValue).foldl (Accumulated.push max) ⟨Int64.ofNat n, false⟩ =
      ⟨Int64.ofNat (Nat.ofDigitChars 10 digits n),
        decide (Noticeable max (Nat.ofDigitChars 10 digits n))⟩ := by
  -- induction on the digits, with the number so far
  induction digits generalizing n with
  | nil =>
    rw [Nat.ofDigitChars_nil, decide_eq_false hn]
    rfl
  | cons c digits ih =>
    rw [List.all_cons, Bool.and_eq_true] at hdigits
    rw [List.map_cons, List.foldl_cons, Nat.ofDigitChars_cons,
      Accumulated.push_exact hmax (digitValue_le hdigits.1) hn]
    by_cases hhere : Noticeable max (10 * n + digitValue c)
    · -- the excess is noticed at this digit, and further digits make no number smaller
      have hle := le_ofDigitChars digits (10 * n + digitValue c)
      have hlater : Noticeable max (Nat.ofDigitChars 10 digits (10 * n + digitValue c)) :=
        ⟨by have := hhere.1; omega, Nat.lt_of_lt_of_le hhere.2 hle⟩
      rw [decide_eq_true hhere, foldl_push_of_overflowed]
      exact congrArg _ (decide_eq_true hlater).symm
    · -- nothing is noticed yet
      rw [decide_eq_false hhere]
      exact ih hdigits.2 hhere

/-- **What digits add up to**, for a limit that is not negative. -/
theorem accumulate_exact (hmax : 0 ≤ max) {digits : List Char}
    (hdigits : digits.all Char.isDigit) :
    accumulate max digits =
      ⟨Int64.ofNat (Nat.ofDigitChars 10 digits 0),
        decide (Noticeable max (Nat.ofDigitChars 10 digits 0))⟩ := by
  have hfilter : digits.filter Char.isDigit = digits :=
    List.filter_eq_self.mpr (List.all_eq_true.mp hdigits)
  rw [accumulate, hfilter]
  exact foldl_push_exact hmax hdigits fun h => absurd h.2 (by decide)

/-- Digits that denote a number within the limit are taken as this number. -/
theorem accumulate_of_le {digits : List Char} (hdigits : digits.all Char.isDigit)
    (h : Nat.ofDigitChars 10 digits 0 ≤ max.toInt) :
    accumulate max digits = ⟨Int64.ofNat (Nat.ofDigitChars 10 digits 0), false⟩ := by
  have hmax : 0 ≤ max := Int64.le_iff_toInt_le.mpr (Int.le_trans (Int.natCast_nonneg _) h)
  rw [accumulate_exact hmax hdigits, decide_eq_false fun hover => Int.not_lt.mpr h hover.1]

/-- An integer that is not negative is displayed as the digits of its value. -/
theorem toList_display {n : Int64} (h : 0 ≤ n) :
    (display n).toList = Nat.toDigits 10 n.toInt.toNat := by
  have hn : 0 ≤ n.toInt := Int64.le_iff_toInt_le.mp h
  obtain ⟨k, hk⟩ := Int.eq_ofNat_of_zero_le hn
  rw [display, hk]
  exact Nat.toList_repr

/-- The digits of a number other than zero do not start with a zero. -/
theorem eq_zero_of_head?_toDigits {n : Nat} (h : (Nat.toDigits 10 n).head? = some '0') : n = 0 := by
  -- induction on the number: the first digit is that of its tenth part
  induction n using Nat.strongRecOn with
  | ind n ih =>
    rcases Nat.lt_or_ge n 10 with hlt | hge
    · rw [Nat.toDigits_of_lt_base hlt] at h
      exact Nat.digitChar_eq_zero.mp (Option.some.inj h)
    · have hne : Nat.toDigits 10 (n / 10) ≠ [] := Nat.toDigits_ne_nil
      obtain ⟨c, cs, hcons⟩ := List.exists_cons_of_ne_nil hne
      rw [Nat.toDigits_of_base_le (by decide) hge, hcons] at h
      have hzero : n / 10 = 0 := ih (n / 10) (by omega) (by rw [hcons]; exact h)
      omega

end NullScript.Integer
