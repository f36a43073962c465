import NullScript.Double.Binary
import NullScript.Proofs.Packing

/-!
# NullScript — integers as doubles

A double has room for 53 bits. An integer with more of them is taken to the nearest multiple of a
power of two, and of two nearest ones to the even one.

* `Double.nearest` — the integer that a double keeps of an integer.
* `nearest_mono`, `nearest_eq_self` — the order of integers is kept, up to joining neighbours, and
  integers of at most `2 ^ 53` in magnitude are kept.
* `Approximates.roundedMantissa` — what is shifted out bit by bit is rounded as a quotient is.
* `order_ofInt64` — two integers taken to doubles are in the order of what is kept of them.
-/

namespace NullScript.Double

-- ---------------------------------------------------------------------------
-- Quotients to the nearest integer
-- ---------------------------------------------------------------------------

/-- The quotient of two numbers to the nearest integer, and of two nearest ones to the even one. -/
def roundEven (n d : Nat) : Nat :=
  if 2 * (n % d) < d then n / d
  else if d < 2 * (n % d) then n / d + 1
  else n / d + n / d % 2

/-- A quotient is at most half a unit off. -/
theorem roundEven_near (n : Nat) {d : Nat} (hd : 0 < d) :
    2 * (roundEven n d * d) ≤ 2 * n + d ∧ 2 * n ≤ 2 * (roundEven n d * d) + d := by
  have hdiv := Nat.div_add_mod n d
  rw [Nat.mul_comm] at hdiv
  have hlt := Nat.mod_lt n hd
  unfold roundEven
  -- the three cases of the definition; of two nearest integers the parity decides
  split
  · omega
  split
  · rw [Nat.add_one_mul (n / d) d]
    omega
  · have hparity : n / d % 2 = 0 ∨ n / d % 2 = 1 := by omega
    rcases hparity with h | h
    · rw [h, Nat.add_zero]
      omega
    · rw [h, Nat.add_one_mul (n / d) d]
      omega

/-- A greater number is not rounded to a smaller quotient. -/
theorem roundEven_mono {a b : Nat} (h : a ≤ b) {d : Nat} (hd : 0 < d) :
    roundEven a d ≤ roundEven b d := by
  -- A step down would take both half a unit off, so both are the same number.
  by_contra hlt
  have hstep : (roundEven b d + 1) * d ≤ roundEven a d * d := Nat.mul_le_mul_right d (by omega)
  rw [Nat.add_one_mul] at hstep
  have ha := (roundEven_near a hd).1
  have hb := (roundEven_near b hd).2
  have heq : a = b := by omega
  exact hlt (heq ▸ Nat.le_refl _)

theorem roundEven_mul (k : Nat) {d : Nat} (hd : 0 < d) : roundEven (k * d) d = k := by
  rw [roundEven, Nat.mul_mod_left, Nat.mul_div_cancel k hd, if_pos hd]

/-- A quotient is not rounded past an integer. -/
theorem le_roundEven {k n d : Nat} (hd : 0 < d) (h : k * d ≤ n) : k ≤ roundEven n d := by
  rw [← roundEven_mul k hd]
  exact roundEven_mono h hd

theorem roundEven_le {k n d : Nat} (hd : 0 < d) (h : n ≤ k * d) : roundEven n d ≤ k := by
  rw [← roundEven_mul k hd]
  exact roundEven_mono h hd

/-- A common factor makes no difference to the rounded quotient. -/
theorem roundEven_mul_mul (n d : Nat) {c : Nat} (hc : 0 < c) :
    roundEven (n * c) (d * c) = roundEven n d := by
  have hless (x y : Nat) : x * c < y * c ↔ x < y := Nat.mul_lt_mul_right hc
  unfold roundEven
  rw [Nat.mul_mod_mul_right, Nat.mul_div_mul_right n d hc, ← Nat.mul_assoc]
  simp only [hless]

-- ---------------------------------------------------------------------------
-- What a double keeps
-- ---------------------------------------------------------------------------

/-- The distance of the doubles around a number, for numbers of 53 bits or more. -/
def unit (n : Nat) : Nat := 2 ^ (n.log2 - 52)

/-- The multiple of the unit that is nearest. -/
def nearestNat (n : Nat) : Nat := roundEven n (unit n) * unit n

/-- The integer that a double keeps of an integer. -/
def nearest (n : Int) : Int :=
  if 0 ≤ n then nearestNat n.natAbs else -nearestNat n.natAbs

theorem unit_pos (n : Nat) : 0 < unit n := Nat.pow_pos (by decide)

/-- At most half a unit is lost. -/
theorem nearestNat_near (n : Nat) :
    2 * nearestNat n ≤ 2 * n + unit n ∧ 2 * n ≤ 2 * nearestNat n + unit n :=
  roundEven_near n (unit_pos n)

/-- Multiples of the unit are kept. -/
theorem nearestNat_of_dvd {n : Nat} (h : unit n ∣ n) : nearestNat n = n := by
  obtain ⟨k, hk⟩ := h
  rw [Nat.mul_comm] at hk
  have hround := roundEven_mul k (unit_pos n)
  rw [← hk] at hround
  rw [nearestNat, hround, ← hk]

/-- A number of at most 53 bits is kept, and so is `2 ^ 53`. -/
theorem nearestNat_of_le {n : Nat} (h : n ≤ 2 ^ 53) : nearestNat n = n := by
  refine nearestNat_of_dvd ?_
  rcases Nat.lt_or_ge n (2 ^ 53) with hlt | hge
  -- below `2 ^ 53` the unit is one
  · have hlog : n.log2 - 52 = 0 := by
      rcases Nat.eq_zero_or_pos n with rfl | hpos
      · decide
      · have := (Nat.log2_lt (Nat.ne_of_gt hpos)).mpr hlt
        omega
    rw [unit, hlog]
    exact Nat.one_dvd n
  · have heq : n = 2 ^ 53 := Nat.le_antisymm h hge
    subst heq
    decide

theorem unit_dvd_two_pow {n k : Nat} (h : n.log2 ≤ k) : unit n ∣ 2 ^ k :=
  Nat.pow_dvd_pow 2 (by omega)

/-- What is kept of a number has no bits before its first one. -/
theorem le_nearestNat {n : Nat} (hn : n ≠ 0) : 2 ^ n.log2 ≤ nearestNat n := by
  obtain ⟨k, hk⟩ := unit_dvd_two_pow (Nat.le_refl n.log2)
  rw [Nat.mul_comm] at hk
  have hle : k * unit n ≤ n := hk ▸ Nat.log2_self_le hn
  rw [nearestNat, hk]
  exact Nat.mul_le_mul_right _ (le_roundEven (unit_pos n) hle)

/-- At most, all its bits are carried. -/
theorem nearestNat_le (n : Nat) : nearestNat n ≤ 2 ^ (n.log2 + 1) := by
  obtain ⟨k, hk⟩ := unit_dvd_two_pow (Nat.le_succ n.log2)
  rw [Nat.mul_comm] at hk
  have hle : n ≤ k * unit n := hk ▸ Nat.le_of_lt Nat.lt_log2_self
  rw [nearestNat, hk]
  exact Nat.mul_le_mul_right _ (roundEven_le (unit_pos n) hle)

/-- A greater natural number does not have a smaller nearest double. -/
theorem nearestNat_mono {a b : Nat} (h : a ≤ b) : nearestNat a ≤ nearestNat b := by
  rcases Nat.eq_zero_or_pos a with rfl | ha
  · exact Nat.zero_le _
  have hb : b ≠ 0 := by omega
  -- numbers of different lengths are separated by a power of two, which is kept
  rcases Nat.lt_trichotomy a.log2 b.log2 with hlog | hlog | hlog
  · exact (nearestNat_le a).trans
      ((Nat.pow_le_pow_right (by decide) hlog).trans (le_nearestNat hb))
  · have hunit : unit a = unit b := by rw [unit, unit, hlog]
    rw [nearestNat, nearestNat, hunit]
    exact Nat.mul_le_mul_right _ (roundEven_mono h (unit_pos b))
  · have hlt : b < 2 ^ a.log2 := (Nat.log2_lt hb).mp hlog
    have := Nat.log2_self_le (Nat.ne_of_gt ha)
    omega

/-- **The order is kept**, up to joining neighbours. -/
theorem nearest_mono {a b : Int} (h : a ≤ b) : nearest a ≤ nearest b := by
  unfold nearest
  -- the signs decide, or both magnitudes are rounded
  split
  · rw [if_pos (by omega)]
    exact Int.ofNat_le.mpr (nearestNat_mono (by omega))
  · split
    · omega
    · exact Int.neg_le_neg (Int.ofNat_le.mpr (nearestNat_mono (by omega)))

/-- **Integers of at most `2 ^ 53`** in magnitude are kept. -/
theorem nearest_eq_self {n : Int} (h : n.natAbs ≤ 2 ^ 53) : nearest n = n := by
  unfold nearest
  rw [nearestNat_of_le h]
  split <;> omega

-- ---------------------------------------------------------------------------
-- Shifting and rounding
-- ---------------------------------------------------------------------------

open Float.Model Float.Model.UnpackedFloat

/-- A mantissa with its two residual bits stands for the quotient `n / d`: the bits tell whether
there is a rest, and how it compares with a half. -/
def Approximates (m : ExtendedMantissa) (n d : Nat) : Prop :=
  match m.roundBit, m.stickyBit with
  | false, false => n = m.mantissa * d
  | false, true => m.mantissa * d < n ∧ 2 * n < 2 * (m.mantissa * d) + d
  | true, false => 2 * n = 2 * (m.mantissa * d) + d
  | true, true => 2 * (m.mantissa * d) + d < 2 * n ∧ n < m.mantissa * d + d

/-- Shifting by one place stands for half the quotient. -/
theorem Approximates.shiftRightOne {m : ExtendedMantissa} {n d : Nat} (h : Approximates m n d)
    (hd : 0 < d) : Approximates m.shiftRightOne n (2 * d) := by
  obtain ⟨m, round, sticky⟩ := m
  have hsplit : m * d = m / 2 * (2 * d) + m % 2 * d := by
    calc m * d = (2 * (m / 2) + m % 2) * d := by rw [Nat.div_add_mod]
      _ = m / 2 * (2 * d) + m % 2 * d := by ring
  have hparity : m % 2 = 0 ∨ m % 2 = 1 := by omega
  -- The last bit becomes the round bit, and the two bits before become the sticky one.
  rcases hparity with hbit | hbit <;> cases round <;> cases sticky
  all_goals
    simp only [Approximates, ExtendedMantissa.shiftRightOne, hbit, hsplit] at h ⊢
    simp
    omega

/-- Shifting by some places divides by a power of two. -/
theorem approximates_shiftRight (n shift : Nat) :
    Approximates (ExtendedMantissa.mk n false false >>> shift) n (2 ^ shift) := by
  show Approximates (shift.repeat ExtendedMantissa.shiftRightOne _) n _
  induction shift with
  | zero => exact (Nat.mul_one n).symm
  | succ shift ih =>
    rw [Nat.pow_succ', Nat.repeat]
    exact ih.shiftRightOne (Nat.pow_pos (by decide))

/-- **Rounding** what stands for a quotient gives the rounded quotient. -/
theorem Approximates.roundedMantissa {m : ExtendedMantissa} {n d : Nat} (h : Approximates m n d)
    (hd : 0 < d) : m.roundedMantissa = roundEven n d := by
  obtain ⟨m, round, sticky⟩ := m
  have hdiv := Nat.div_add_mod n d
  rw [Nat.mul_comm] at hdiv
  have hlt := Nat.mod_lt n hd
  -- the quotient without the rest is the mantissa
  have hrest : m * d ≤ n ∧ n < m * d + d := by
    cases round <;> cases sticky
    all_goals
      simp only [Approximates] at h
      omega
  have hquotient : n / d = m := by
    refine Nat.div_eq_of_lt_le hrest.1 ?_
    rw [Nat.add_one_mul]
    exact hrest.2
  rw [hquotient] at hdiv
  -- The two bits tell in which of the cases of `roundEven` the rest is.
  cases round <;> cases sticky
  all_goals
    simp only [Approximates] at h
    simp only [roundEven, hquotient, ExtendedMantissa.roundedMantissa, ExtendedMantissa.accuracy,
      Accuracy.roundToNearestEven]
    grind

/-- Mantissas are shifted until they have 53 bits. -/
theorem shiftToTargetExponent_eq (shift : Nat) {m : Nat} {e : Int} (hlog : m.log2 = 52 + shift)
    (he : -1000 ≤ e) :
    shiftToTargetExponent .binary64 m e .exact =
      (ExtendedMantissa.mk m false false >>> shift, e + shift) := by
  have htarget : (Format.binary64.targetExponent (totalExponent m e) - e).toNat = shift := by
    simp only [Format.targetExponent, totalExponent, Format.mantissaBits, Format.minExponent, hlog]
    omega
  rw [shiftToTargetExponent, shiftToExponent, htarget]
  rfl

/-- **Rounding to 53 bits.** The mantissa is rounded as a quotient is, and shifted once more if that
carries over into another bit. -/
theorem roundWithAccuracy_eq (s : Sign) {m shift : Nat} {e : Int} (hlog : m.log2 = 52 + shift)
    (he : -1000 ≤ e) :
    ∃ (m' carry : Nat) (hpos : 0 < m'), 2 ^ 52 ≤ m' ∧ m' < 2 ^ 53 ∧ carry ≤ 1 ∧
      m' * 2 ^ carry = roundEven m (2 ^ shift) ∧
      roundWithAccuracy .binary64 s m e .exact = .finite s m' (e + shift + carry) hpos := by
  have hunit : 0 < 2 ^ shift := Nat.pow_pos (by decide)
  have hround := (approximates_shiftRight m shift).roundedMantissa hunit
  have hm : m ≠ 0 := by
    intro h
    rw [h, Nat.log2_zero] at hlog
    omega
  have hlow : 2 ^ 52 ≤ roundEven m (2 ^ shift) := by
    refine le_roundEven hunit ?_
    rw [← Nat.pow_add, ← hlog]
    exact Nat.log2_self_le hm
  -- rounding may carry over to `2 ^ 53`, but not beyond
  have hhigh : roundEven m (2 ^ shift) ≤ 2 ^ 53 := by
    refine roundEven_le hunit ?_
    rw [← Nat.pow_add, show 53 + shift = m.log2 + 1 by omega]
    exact Nat.le_of_lt Nat.lt_log2_self
  rcases Nat.lt_or_ge (roundEven m (2 ^ shift)) (2 ^ 53) with hlt | hge
  · -- the rounded mantissa has 53 bits already, and is not shifted again
    have hbits : (roundEven m (2 ^ shift)).log2 = 52 :=
      (Nat.log2_eq_iff (by omega)).mpr ⟨hlow, hlt⟩
    have hagain := shiftToTargetExponent_eq 0 (e := e + shift) hbits (by omega)
    refine ⟨roundEven m (2 ^ shift), 0, by omega, hlow, hlt, by omega, Nat.mul_one _, ?_⟩
    unfold roundWithAccuracy
    simp only [shiftToTargetExponent_eq shift hlog he, hround, hagain]
    exact dif_neg (show roundEven m (2 ^ shift) ≠ 0 by omega)
  · -- the carry has made it `2 ^ 53`, which is shifted by one place
    have heq : roundEven m (2 ^ shift) = 2 ^ 53 := Nat.le_antisymm hhigh hge
    have hagain := shiftToTargetExponent_eq 1 (m := 2 ^ 53) (e := e + shift)
      Nat.log2_two_pow (by omega)
    refine ⟨2 ^ 52, 1, by decide, Nat.le_refl _, by decide, by omega, heq.symm, ?_⟩
    unfold roundWithAccuracy
    simp only [shiftToTargetExponent_eq shift hlog he, hround, heq, hagain]
    exact dif_neg (by decide)

-- ---------------------------------------------------------------------------
-- Integers among the doubles
-- ---------------------------------------------------------------------------

/-- A double is the integer `n`, with a mantissa of 53 bits if it is not zero. -/
inductive IsInteger : UnpackedFloat → Int → Prop
  | zero (s : Sign) : IsInteger (.zero s) 0
  | finite (s : Sign) {m shift n : Nat} (hpos : 0 < m) : 2 ^ 52 ≤ m → m < 2 ^ 53 → shift ≤ 1000 →
    n * 2 ^ 52 = m * 2 ^ shift → IsInteger (.finite s m ((shift : Int) - 52) hpos) (s.apply n)

/-- More places behind a number do not change how it is rounded. -/
theorem roundEven_scaled {n places shift : Nat} (h : n.log2 + places = 52 + shift) :
    roundEven (n * 2 ^ places) (2 ^ shift) * 2 ^ n.log2 = nearestNat n * 2 ^ 52 := by
  rcases Nat.lt_or_ge n.log2 52 with hlt | hge
  · -- the number fits into 53 bits, so nothing is rounded off
    have hplaces : n * 2 ^ places = n * 2 ^ (52 - n.log2) * 2 ^ shift := by
      rw [Nat.mul_assoc, ← Nat.pow_add]
      congr 2
      omega
    have hle : n ≤ 2 ^ 53 :=
      Nat.le_of_lt (Nat.lt_log2_self.trans_le (Nat.pow_le_pow_right (by decide) (by omega)))
    rw [hplaces, roundEven_mul _ (Nat.pow_pos (by decide)), nearestNat_of_le hle, Nat.mul_assoc,
      ← Nat.pow_add, Nat.sub_add_cancel (Nat.le_of_lt hlt)]
  · -- as many places are rounded off as the unit has
    have hshift : 2 ^ shift = unit n * 2 ^ places := by
      rw [unit, ← Nat.pow_add]
      congr 1
      omega
    have hlog : 2 ^ n.log2 = unit n * 2 ^ 52 := by
      rw [unit, ← Nat.pow_add, Nat.sub_add_cancel hge]
    rw [hshift, roundEven_mul_mul _ _ (Nat.pow_pos (by decide)), hlog, ← Nat.mul_assoc]
    rfl

/-- **Rounding an integer** that stands before some places. -/
theorem isInteger_roundWithAccuracy (s : Sign) (places : Nat) {n : Nat} (hn : 0 < n)
    (hlog : n.log2 < 64) (hmore : 52 ≤ n.log2 + places) (hfew : places ≤ 200) :
    IsInteger (roundWithAccuracy .binary64 s (n * 2 ^ places) (-places) .exact)
      (s.apply (nearestNat n)) := by
  obtain ⟨shift, hshift⟩ := Nat.exists_eq_add_of_le hmore
  have hbits : (n * 2 ^ places).log2 = 52 + shift := by
    rw [← hshift, Nat.log2_eq_iff (Nat.ne_of_gt (Nat.mul_pos hn (Nat.pow_pos (by decide))))]
    rw [Nat.add_right_comm, Nat.pow_add, Nat.pow_add]
    exact ⟨Nat.mul_le_mul_right _ (Nat.log2_self_le (Nat.ne_of_gt hn)),
      Nat.mul_lt_mul_of_pos_right Nat.lt_log2_self (Nat.pow_pos (by decide))⟩
  obtain ⟨m, carry, hpos, hlow, hhigh, hcarry, hm, hround⟩ :=
    roundWithAccuracy_eq s hbits (e := -places) (by omega)
  -- the exponent depends on the bits of the number, and on whether rounding carries over
  have hexponent : -(places : Int) + shift + carry = ((n.log2 + carry : Nat) : Int) - 52 := by
    omega
  rw [hround]
  simp only [hexponent]
  refine .finite s hpos hlow hhigh (by omega) ?_
  rw [Nat.pow_add, Nat.mul_comm (2 ^ n.log2), ← Nat.mul_assoc, hm, roundEven_scaled hshift]

/-- Of two mantissas of 53 bits, the one that stands higher makes the greater number. -/
theorem lt_of_shift_lt {m m' shift shift' n n' : Nat} (hhigh : m < 2 ^ 53) (hlow : 2 ^ 52 ≤ m')
    (hn : n * 2 ^ 52 = m * 2 ^ shift) (hn' : n' * 2 ^ 52 = m' * 2 ^ shift') (h : shift < shift') :
    n < n' := by
  refine Nat.lt_of_mul_lt_mul_right (a := 2 ^ 52) ?_
  calc n * 2 ^ 52 = m * 2 ^ shift := hn
    _ < 2 ^ 53 * 2 ^ shift := Nat.mul_lt_mul_of_pos_right hhigh (Nat.pow_pos (by decide))
    _ = 2 ^ 52 * 2 ^ (shift + 1) := by ring
    _ ≤ 2 ^ 52 * 2 ^ shift' := Nat.mul_le_mul_left _ (Nat.pow_le_pow_right (by decide) h)
    _ ≤ m' * 2 ^ shift' := Nat.mul_le_mul_right _ hlow
    _ = n' * 2 ^ 52 := hn'.symm

/-- Two comparisons agree if they agree on what lies before what. -/
theorem compare_congr {α β : Type} [LinearOrder α] [LinearOrder β] {a a' : α} {b b' : β}
    (hlt : a < a' ↔ b < b') (hgt : a' < a ↔ b' < b) : compare a a' = compare b b' := by
  rcases lt_trichotomy a a' with h | h | h
  · rw [compare_lt_iff_lt.mpr h, compare_lt_iff_lt.mpr (hlt.mp h)]
  · have heq : b = b' :=
      le_antisymm (not_lt.mp fun hb => (hgt.mpr hb).ne h.symm)
        (not_lt.mp fun hb => (hlt.mpr hb).ne h)
    rw [compare_eq_iff_eq.mpr h, compare_eq_iff_eq.mpr heq]
  · rw [compare_gt_iff_gt.mpr h, compare_gt_iff_gt.mpr (hgt.mp h)]

/-- Exponents decide first, then mantissas. -/
theorem compare_mantissas {m m' shift shift' n n' : Nat} (hlow : 2 ^ 52 ≤ m) (hhigh : m < 2 ^ 53)
    (hlow' : 2 ^ 52 ≤ m') (hhigh' : m' < 2 ^ 53) (hn : n * 2 ^ 52 = m * 2 ^ shift)
    (hn' : n' * 2 ^ 52 = m' * 2 ^ shift') :
    (compare ((shift : Int) - 52) ((shift' : Int) - 52)).then (compare m m') = compare n n' := by
  -- the numbers have different exponents, or the same one
  rcases Nat.lt_trichotomy shift shift' with h | h | h
  · rw [compare_lt_iff_lt.mpr (by omega : (shift : Int) - 52 < shift' - 52),
      compare_lt_iff_lt.mpr (lt_of_shift_lt hhigh hlow' hn hn' h)]
    rfl
  · subst h
    have hpow : 0 < 2 ^ shift := Nat.pow_pos (by decide)
    rw [compare_eq_iff_eq.mpr rfl]
    refine compare_congr ?_ ?_
    · rw [← Nat.mul_lt_mul_right hpow, ← hn, ← hn', Nat.mul_lt_mul_right (by decide)]
    · rw [← Nat.mul_lt_mul_right hpow, ← hn, ← hn', Nat.mul_lt_mul_right (by decide)]
  · rw [compare_gt_iff_gt.mpr (by omega : (shift' : Int) - 52 < shift - 52),
      compare_gt_iff_gt.mpr (lt_of_shift_lt hhigh' hlow hn' hn h)]
    rfl

/-- A double with a mantissa is not zero. -/
theorem pos_of_mantissa {m shift n : Nat} (hpos : 0 < m) (hn : n * 2 ^ 52 = m * 2 ^ shift) :
    0 < n := by
  refine Nat.pos_of_ne_zero fun h => ?_
  rw [h, Nat.zero_mul] at hn
  exact Nat.ne_of_gt (Nat.mul_pos hpos (Nat.pow_pos (by decide))) hn.symm

/-- **The order** of doubles that are integers is that of the integers. -/
theorem IsInteger.compare {x y : UnpackedFloat} {a b : Int} (hx : IsInteger x a)
    (hy : IsInteger y b) : x.compare y = some (compare a b) := by
  -- by the kinds of the two numbers, and if both are finite by their signs
  cases hx with
  | zero s =>
    cases hy with
    | zero t => cases s <;> cases t <;> rfl
    | finite t hpos _ _ _ hn =>
      have := pos_of_mantissa hpos hn
      cases t
      · exact congrArg some (compare_gt_iff_gt.mpr (by simp only [Sign.apply]; omega)).symm
      · exact congrArg some (compare_lt_iff_lt.mpr (by simp only [Sign.apply]; omega)).symm
  | finite s hpos hlow hhigh _ hn =>
    have hnpos := pos_of_mantissa hpos hn
    cases hy with
    | zero t =>
      cases s
      · exact congrArg some (compare_lt_iff_lt.mpr (by simp only [Sign.apply]; omega)).symm
      · exact congrArg some (compare_gt_iff_gt.mpr (by simp only [Sign.apply]; omega)).symm
    | finite t hpos' hlow' hhigh' _ hn' =>
      have hnpos' := pos_of_mantissa hpos' hn'
      have hsame := compare_mantissas hlow hhigh hlow' hhigh' hn hn'
      cases s <;> cases t
      · refine congrArg some ((congrArg Ordering.swap hsame).trans ?_)
        -- of two negative numbers the one with the greater magnitude is the smaller one
        rw [Std.OrientedOrd.eq_swap]
        simp only [Ordering.swap_swap]
        exact compare_congr (by simp only [Sign.apply]; omega) (by simp only [Sign.apply]; omega)
      · exact congrArg some (compare_lt_iff_lt.mpr (by simp only [Sign.apply]; omega)).symm
      · exact congrArg some (compare_gt_iff_gt.mpr (by simp only [Sign.apply]; omega)).symm
      · refine congrArg some (hsame.trans ?_)
        exact compare_congr (by simp only [Sign.apply]; omega) (by simp only [Sign.apply]; omega)

-- ---------------------------------------------------------------------------
-- Packed doubles
-- ---------------------------------------------------------------------------

/-- **Packing** loses nothing of a double that is an integer. -/
theorem IsInteger.unpack_pack {x : UnpackedFloat} {n : Int} (h : IsInteger x n) :
    (pack x).unpack = x := by
  cases h with
  | zero s => cases s <;> rfl
  | finite s hpos hlow hhigh hshift _ =>
    exact unpack_pack_normal s hpos hlow hhigh (by omega) (by omega)

/-- A double holds the integer `n`. -/
def Holds (x : Float) (n : Int) : Prop := IsInteger x.toModel.unpack n

/-- A packed integer is held by the double. -/
theorem IsInteger.holds {x : UnpackedFloat} {n : Int} (h : IsInteger x n) :
    Holds (.ofModel (pack x)) n := by
  unfold Holds
  rw [h.unpack_pack]
  exact h

/-- The negative of an integer. -/
theorem IsInteger.neg {x : UnpackedFloat} {n : Int} (h : IsInteger x n) : IsInteger x.neg (-n) := by
  cases h with
  | zero s => exact .zero (-s)
  | finite s hpos hlow hhigh hshift hn =>
    have hneg (k : Int) : -s.apply k = (-s).apply k := by
      cases s
      · exact Int.neg_neg k
      · rfl
    rw [hneg]
    exact .finite (-s) hpos hlow hhigh hshift hn

theorem Holds.neg {x : Float} {n : Int} (h : Holds x n) : Holds x.neg (-n) :=
  (IsInteger.neg h).holds

/-- The double that powers of ten start from. -/
theorem unpack_one :
    (Float.ofBits 0x3FF0000000000000).toModel.unpack =
      .finite .positive (2 ^ 52) (-52) (by decide) := by
  rfl

/-- A number below `2 ^ 53` is shifted until its first bit is in its place. -/
theorem round_of_lt {n : Nat} (hlog : n.log2 < 53) :
    UnpackedFloat.round .binary64 .positive n 0 =
      roundWithAccuracy .binary64 .positive (n * 2 ^ (52 - n.log2)) (-(52 - n.log2 : Nat))
        .exact := by
  have htarget : (0 - Format.binary64.targetExponent (totalExponent n 0)).toNat = 52 - n.log2 := by
    simp only [Format.targetExponent, totalExponent, Format.mantissaBits, Format.minExponent]
    omega
  unfold UnpackedFloat.round decreaseExponent
  simp only [htarget]
  rw [Nat.shiftLeft_eq, Int.zero_sub]

/-- A natural number below `2 ^ 53` is its own double. -/
theorem isInteger_ofNat {n : Nat} (h : n < 2 ^ 53) :
    IsInteger (UnpackedFloat.ofNat .binary64 n) n := by
  rcases Nat.eq_zero_or_pos n with rfl | hn
  · exact .zero .positive
  have hlog := (Nat.log2_lt (Nat.ne_of_gt hn)).mpr h
  have hround := isInteger_roundWithAccuracy .positive (52 - n.log2) hn (by omega) (by omega)
    (by omega)
  rw [nearestNat_of_le (Nat.le_of_lt h), ← round_of_lt hlog] at hround
  unfold UnpackedFloat.ofNat UnpackedFloat.ofInt UnpackedFloat.normalize
  rw [compare_gt_iff_gt.mpr (by omega : (n : Int) > 0)]
  exact hround

/-- **Multiplying by one** changes no integer below `2 ^ 53`. -/
theorem IsInteger.mul_one {x : UnpackedFloat} {n : Int} (hx : IsInteger x n)
    (h : n.natAbs < 2 ^ 53) :
    IsInteger (UnpackedFloat.mul .binary64 x (.finite .positive (2 ^ 52) (-52) (by decide))) n := by
  cases hx with
  | zero s => exact .zero (s * .positive)
  | @finite s m shift n hpos hlow hhigh hshift hn =>
    have hk : (s.apply n).natAbs = n := by
      cases s
      · exact Int.natAbs_neg n
      · rfl
    rw [hk] at h
    have hsign : s * Sign.positive = s := by cases s <;> rfl
    -- as the number is small, so is the exponent
    have hfew : shift < 53 := by
      refine (Nat.pow_lt_pow_iff_right (by decide : 1 < 2)).mp (Nat.lt_of_le_of_lt ?_ h)
      refine Nat.le_of_mul_le_mul_right ?_ (by decide : 0 < 2 ^ 52)
      rw [hn, Nat.mul_comm]
      exact Nat.mul_le_mul_right _ hlow
    -- the mantissa of the product is the number before some places
    have hplaces : m * 2 ^ 52 = n * 2 ^ (104 - shift) := by
      refine Nat.eq_of_mul_eq_mul_right (Nat.pow_pos (by decide) : 0 < 2 ^ shift) ?_
      rw [Nat.mul_assoc n, ← Nat.pow_add, Nat.sub_add_cancel (by omega), Nat.mul_right_comm, ← hn,
        Nat.mul_assoc, ← Nat.pow_add]
    have hexponent : (shift : Int) - 52 + -52 = -((104 - shift : Nat) : Int) := by omega
    have hnpos := pos_of_mantissa hpos hn
    have hlog := (Nat.log2_lt (Nat.ne_of_gt hnpos)).mpr h
    have hround := isInteger_roundWithAccuracy s (104 - shift) hnpos (by omega) (by omega)
      (by omega)
    rw [nearestNat_of_le (Nat.le_of_lt h)] at hround
    show IsInteger (roundWithAccuracy .binary64 (s * .positive) (m * 2 ^ 52) _ .exact) _
    rw [hsign, hplaces, hexponent]
    exact hround

/-- Multiplying a double by one changes no integer below `2 ^ 53` that it holds. -/
theorem Holds.mul_one {x : Float} {n : Int} (hx : Holds x n) (h : n.natAbs < 2 ^ 53) :
    Holds (x * .ofBits 0x3FF0000000000000) n := by
  have hone := IsInteger.mul_one hx h
  rw [← unpack_one] at hone
  exact hone.holds

/-- A machine number below `2 ^ 53` is held exactly. -/
theorem holds_toFloat {n : UInt64} (h : n.toNat < 2 ^ 53) : Holds n.toFloat n.toNat :=
  (isInteger_ofNat h).holds

/-- A greater number stands before 53 places. -/
theorem ofScientific_zero {n : Nat} (hn : 0 < n) :
    UnpackedFloat.ofScientific .binary64 n 0 =
      roundWithAccuracy .binary64 .positive (n * 2 ^ 53) (-(53 : Nat)) .exact := by
  have hrange : (2 : Int) ^ Format.binary64.exponentBits = 2048 := rfl
  unfold UnpackedFloat.ofScientific
  rw [dif_neg (Nat.ne_of_gt hn), if_neg (by decide), if_neg (by omega), if_pos (Int.le_refl 0)]
  simp only [UnpackedFloat.mul, Format.mantissaBits, Nat.shiftLeft_eq, Int.toNat_zero, Nat.pow_zero,
    Nat.mul_one, Int.add_zero]
  rfl

/-- A natural number without a power of ten is rounded to what a double keeps of it. -/
theorem isInteger_ofScientific {n : Nat} (hn : 0 < n) (h : n < 2 ^ 64) :
    IsInteger (UnpackedFloat.ofScientific .binary64 n 0) (nearestNat n) := by
  have hlog := (Nat.log2_lt (Nat.ne_of_gt hn)).mpr h
  rw [ofScientific_zero hn]
  exact isInteger_roundWithAccuracy .positive 53 hn hlog (by omega) (by omega)

/-- **A natural number** as a double. -/
theorem holds_ofNat {n : Nat} (h : n < 2 ^ 64) : Holds (.ofNat n) (nearestNat n) := by
  show Holds (Float.ofScientific n false 0) _
  unfold Float.ofScientific
  split
  · next hsmall =>
    -- small numbers are converted and multiplied by the power of ten, which is one
    have hn : n.toUInt64.toNat = n := Nat.mod_eq_of_lt h
    have hfloat := holds_toFloat (n := n.toUInt64) (by omega)
    rw [hn] at hfloat
    rw [nearestNat_of_le (Nat.le_of_lt hsmall.1)]
    exact hfloat.mul_one hsmall.1
  · next hlarge => exact (isInteger_ofScientific (by omega) h).holds

/-- **An integer** as a double. -/
theorem holds_ofInt64 (n : Int64) : Holds (ofInt64 n) (nearest n.toInt) := by
  have hlow := n.le_toInt
  have hhigh := n.toInt_lt
  unfold ofInt64 nearest
  cases hn : n.toInt with
  | ofNat k =>
    rw [hn, Int.ofNat_eq_natCast] at hhigh
    exact holds_ofNat (by omega)
  | negSucc k =>
    rw [hn] at hlow
    exact (holds_ofNat (n := k + 1) (by omega)).neg

theorem IsInteger.not_isNaN {x : UnpackedFloat} {n : Int} (h : IsInteger x n) :
    x.isNaN = false := by
  cases h <;> rfl

/-- One double that holds an integer is less than another one if the integer is. -/
theorem Holds.lt_iff {x y : Float} {a b : Int} (hx : Holds x a) (hy : Holds y b) :
    x < y ↔ a < b := by
  show decide (x.toModel < y.toModel) = true ↔ _
  rw [decide_eq_true_iff]
  show (x.toModel.unpack.compare y.toModel.unpack == some .lt) = true ↔ _
  rw [IsInteger.compare hx hy, beq_iff_eq, Option.some.injEq]
  exact compare_lt_iff_lt

/-- **The order** of doubles that hold integers. -/
theorem Holds.order {x y : Float} {a b : Int} (hx : Holds x a) (hy : Holds y b) :
    order x y = compare a b := by
  have hnan : x.isNaN = false := IsInteger.not_isNaN hx
  have hnan' : y.isNaN = false := IsInteger.not_isNaN hy
  simp only [Double.order, hnan, hnan', Bool.false_eq_true, if_false, hx.lt_iff hy, hy.lt_iff hx]
  rcases Int.lt_trichotomy a b with h | h | h
  · rw [if_pos h, compare_lt_iff_lt.mpr h]
  · rw [if_neg (by omega), if_neg (by omega), compare_eq_iff_eq.mpr h]
  · rw [if_neg (by omega), if_pos h, compare_gt_iff_gt.mpr h]

/-- **The order of two integers** as doubles is that of what is kept of them. -/
theorem order_ofInt64 (a b : Int64) :
    order (ofInt64 a) (ofInt64 b) = compare (nearest a.toInt) (nearest b.toInt) :=
  (holds_ofInt64 a).order (holds_ofInt64 b)

end NullScript.Double
