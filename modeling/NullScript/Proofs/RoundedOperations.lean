import NullScript.Proofs.Rounding

/-!
# NullScript — arithmetic of doubles, exact and then rounded

Sums and quotients of doubles, natural numbers taken to doubles and decimals read as doubles are
what the exact numbers are rounded to. This is about numbers that are not negative and well below
the greatest double.

* `IsDouble`, `Denotes` — the number that a double stands for.
* `IsDouble.unique`, `IsDouble.number_unique` — no other double stands for it, and the double for no
  other number.
* `isDouble_roundWithAccuracy` — the last step of all operations is `rounded`.
* `Denotes.add`, `denotes_ofNat`, `denotes_ofScientific` — the operations.
-/

namespace NullScript.Double

open Float.Model Float.Model.UnpackedFloat

-- ---------------------------------------------------------------------------
-- The number that a double stands for
-- ---------------------------------------------------------------------------

/-- The parts of a double that stands for a number: `53` bits, or the least exponent. -/
inductive IsDouble : UnpackedFloat → ℚ → Prop
  | zero : IsDouble (.zero .positive) 0
  | finite {m : ℕ} {e : ℤ} (hpos : 0 < m) : m < 2 ^ 53 → -1074 ≤ e → e ≤ 971 →
    (2 ^ 52 ≤ m ∨ e = -1074) → IsDouble (.finite .positive m e hpos) (m * 2 ^ e)

/-- The double stands for the number. -/
def Denotes (x : Float) (q : ℚ) : Prop := IsDouble x.toModel.unpack q

section

variable {x y : UnpackedFloat} {a b q : ℚ}

/-- There is room for the number that a double stands for. -/
theorem IsDouble.isExact (h : IsDouble x a) : IsExact a := by
  cases h with
  | zero => exact_mod_cast isExact_natCast (Nat.zero_le _)
  | finite hpos hhigh hleast hgreatest hfull => exact ⟨_, _, hhigh.le, hleast, rfl⟩

/-- The last place of a double is that of its exponent. -/
theorem place_of_full {m : ℕ} {e : ℤ} (hhigh : m < 2 ^ 53) (hleast : -1074 ≤ e)
    (hfull : 2 ^ 52 ≤ m ∨ e = -1074) : place (m * 2 ^ e) = e := by
  have hlt : place (m * 2 ^ e) < e + 1 := by
    rw [place_lt_iff (by omega)]
    calc (m : ℚ) * 2 ^ e < 2 ^ 53 * 2 ^ e :=
          mul_lt_mul_of_pos_right (by exact_mod_cast hhigh) (two_zpow_pos e)
      _ = 2 ^ (e + 1 + 52) := by
          rw [two_pow_mul_two_zpow]
          exact congrArg _ (by push_cast; ring)
  have hle : e ≤ place (m * 2 ^ e) := by
    rcases hleast.eq_or_lt with rfl | hgt
    · exact le_place _
    · rw [le_place_iff hgt, zpow_add₀ (by norm_num), mul_comm]
      have hlow : 2 ^ 52 ≤ m := hfull.resolve_right (ne_of_gt hgt)
      exact mul_le_mul_of_nonneg_right (by exact_mod_cast hlow) (two_zpow_pos e).le
  omega

theorem mantissa_mul_pos {m : ℕ} (hpos : 0 < m) (e : ℤ) : (0 : ℚ) < m * 2 ^ e :=
  mul_pos (Nat.cast_pos.mpr hpos) (two_zpow_pos e)

/-- **The parts are determined** by the number. -/
theorem IsDouble.unique (hx : IsDouble x a) (hy : IsDouble y b) (h : a = b) : x = y := by
  cases hx with
  | zero =>
    cases hy with
    | zero => rfl
    | @finite _ e hpos => exact absurd h (mantissa_mul_pos hpos e).ne
  | @finite m e hpos hhigh hleast _ hfull =>
    cases hy with
    | zero => exact absurd h (mantissa_mul_pos hpos e).ne'
    | @finite m' e' _ hhigh' hleast' _ hfull' =>
      -- equal numbers have the same last place, so the mantissas are equal as well
      have hplace := congrArg place h
      rw [place_of_full hhigh hleast hfull, place_of_full hhigh' hleast' hfull'] at hplace
      subst hplace
      have hm : m = m' := by exact_mod_cast mul_right_cancel₀ (two_zpow_pos e).ne' h
      subst hm
      rfl

/-- A double stands for one number. -/
theorem IsDouble.number_unique (h : IsDouble x a) (h' : IsDouble x b) : a = b := by
  cases h <;> cases h' <;> rfl

/-- The parts of a double with less than 53 bits survive packing. -/
theorem unpack_pack_subnormal {m : ℕ} (hpos : 0 < m) (hm : m < 2 ^ 52) :
    UnpackedFloat.unpack .binary64
        (UnpackedFloat.pack .binary64 (.finite .positive m (-1074) hpos)) =
      .finite .positive m (-1074) hpos := by
  have hnat : (BitVec.ofNat 52 m).toNat = m := by
    rw [BitVec.toNat_ofNat, Nat.mod_eq_of_lt hm]
  have hne : BitVec.ofNat 52 m ≠ 0#52 := fun h => by
    rw [h] at hnat
    exact hpos.ne hnat
  have hpack := pack_subnormal (e := -1074) .positive (m := BitVec.ofNat 52 m) (by omega) rfl
  simp only [hnat] at hpack
  rw [hpack]
  unfold UnpackedFloat.unpack
  simp only [unpackMantissa_packComponents, unpackExponent_packComponents,
    unpackSign_packComponents, Sign.ofBitVec_toBitVec]
  -- the exponent bits are zero, and the mantissa bits are not
  rw [if_neg (by decide), if_pos trivial, dif_neg hne]
  simp only [hnat]
  rfl

/-- **Packing** loses nothing. -/
theorem IsDouble.unpack_pack (h : IsDouble x a) : (pack x).unpack = x := by
  cases h with
  | zero => rfl
  | @finite m e hpos hhigh hleast hgreatest hfull =>
    -- with 53 bits the first one is left out, and without it the exponent is the least
    rcases Nat.lt_or_ge m (2 ^ 52) with hlt | hge
    · obtain rfl : e = -1074 := hfull.resolve_left (Nat.not_le.mpr hlt)
      exact unpack_pack_subnormal hpos hlt
    · exact unpack_pack_normal .positive hpos hge hhigh hleast hgreatest

/-- Parts of a double, once packed, stand for the same number. -/
theorem IsDouble.denotes (h : IsDouble x a) : Denotes (.ofModel (pack x)) a := by
  unfold Denotes
  rw [h.unpack_pack]
  exact h

end

/-- A number has one double at most. -/
theorem Denotes.unique {x y : Float} {q : ℚ} (hx : Denotes x q) (hy : Denotes y q) : x = y :=
  unpack_inj (IsDouble.unique hx hy rfl)

-- ---------------------------------------------------------------------------
-- The last step of all operations
-- ---------------------------------------------------------------------------

section

variable {m n d : ℕ} {e : ℤ} {q : ℚ}

/-- Small numbers end at the least place. -/
theorem place_of_lt (h : q < 2 ^ (-1021 : ℤ)) : place q = -1074 := by
  have hleast := le_place q
  have hlt : place q < -1073 := (place_lt_iff (by decide)).mpr h
  omega

/-- A mantissa is shifted to the last place of the number that it stands for up to a rest. -/
theorem targetExponent_eq (hlow : m * 2 ^ e ≤ q) (hhigh : q < (m + 1) * 2 ^ e)
    (he : m = 0 → e ≤ place q) :
    Format.binary64.targetExponent (totalExponent m e) = place q := by
  simp only [Format.targetExponent, totalExponent, Format.mantissaBits, Format.minExponent]
  rcases Nat.eq_zero_or_pos m with rfl | hm
  · -- What is less than one of its places is less than the least number with 53 bits.
    rw [Nat.cast_zero, zero_add, one_mul] at hhigh
    have he := he rfl
    have hle : (2 : ℚ) ^ e ≤ 2 ^ (place q + 52) := zpow_le_zpow_right₀ (by norm_num) (by omega)
    have hleast : ¬-1074 < place q := fun hgt =>
      lt_irrefl _ ((place_lt_iff hgt).mpr (hhigh.trans_le hle))
    have := le_place q
    rw [Nat.log2_zero]
    omega
  -- the number lies between two powers of two that its bits say, which fixes its place
  · have hpow := two_zpow_pos e
    have hfrom : (2 : ℚ) ^ (m.log2 + e) ≤ q := by
      rw [zpow_add₀ (by norm_num), zpow_natCast]
      refine le_trans (mul_le_mul_of_nonneg_right ?_ hpow.le) hlow
      exact_mod_cast Nat.log2_self_le hm.ne'
    have hto : q < 2 ^ (m.log2 + e + 1) := by
      rw [add_right_comm, zpow_add₀ (by norm_num)]
      refine hhigh.trans_le (mul_le_mul_of_nonneg_right ?_ hpow.le)
      exact_mod_cast Nat.succ_le_of_lt (Nat.lt_log2_self (n := m))
    rcases le_or_gt (-1022) (m.log2 + e) with hnormal | hsubnormal
    · rw [place_eq hfrom hto hnormal]
      omega
    · rw [place_of_lt (hto.trans_le (zpow_le_zpow_right₀ (by norm_num) (by omega)))]
      omega

/-- A mantissa shifted to the right stands for the quotient by a greater divisor. -/
theorem Approximates.shiftRight {m : ExtendedMantissa} (h : Approximates m n d) (hd : 0 < d)
    (shift : ℕ) : Approximates (m >>> shift) n (2 ^ shift * d) := by
  show Approximates (shift.repeat ExtendedMantissa.shiftRightOne m) n _
  -- on the number of places, each of which doubles the divisor
  induction shift with
  | zero =>
    rw [Nat.pow_zero, Nat.one_mul]
    exact h
  | succ shift ih =>
    rw [Nat.pow_succ', Nat.mul_assoc, Nat.repeat]
    exact ih.shiftRightOne (Nat.mul_pos (Nat.pow_pos (by decide)) hd)

/-- A mantissa stands for a quotient up to a rest. -/
theorem Approximates.bounds {x : ExtendedMantissa} (h : Approximates x n d) :
    x.mantissa * d ≤ n ∧ (0 < d → n < x.mantissa * d + d) := by
  obtain ⟨m, round, sticky⟩ := x
  cases round <;> cases sticky
  all_goals
    simp only [Approximates] at h ⊢
    omega

/-- Mantissas of at most 53 bits are shifted no further. -/
theorem shiftToTargetExponent_of_lt (hm : m < 2 ^ 53) (he : -1074 ≤ e) :
    shiftToTargetExponent .binary64 m e .exact = (ExtendedMantissa.mk m false false, e) := by
  have hlog : m.log2 ≤ 52 := by
    rcases Nat.eq_zero_or_pos m with rfl | hpos
    · decide
    · have := (Nat.log2_lt hpos.ne').mpr hm
      omega
  have hshift : (Format.binary64.targetExponent (totalExponent m e) - e).toNat = 0 := by
    simp only [Format.targetExponent, totalExponent, Format.mantissaBits, Format.minExponent]
    omega
  rw [shiftToTargetExponent, shiftToExponent, hshift]
  exact congrArg _ (add_zero e)

/-- Where a bit has been carried, one more place is given up. -/
theorem shiftToTargetExponent_carry (he : -1074 ≤ e) :
    shiftToTargetExponent .binary64 (2 ^ 53) e .exact =
      (ExtendedMantissa.mk (2 ^ 52) false false, e + 1) := by
  have hshift : (Format.binary64.targetExponent (totalExponent (2 ^ 53) e) - e).toNat = 1 := by
    simp only [Format.targetExponent, totalExponent, Format.mantissaBits, Format.minExponent,
      Nat.log2_two_pow]
    omega
  rw [shiftToTargetExponent, shiftToExponent, hshift]
  rfl

/-- A mantissa that was rounded is shifted once more if a bit was carried over. -/
theorem isDouble_of_shiftToTargetExponent {accuracy : Accuracy} {x : ExtendedMantissa} {r : ℕ}
    {k : ℤ} (hshift : shiftToTargetExponent .binary64 m e accuracy = (x, k))
    (hround : x.roundedMantissa = r) (hr : r ≤ 2 ^ 53) (hleast : -1074 ≤ k) (hgreatest : k < 971)
    (hfull : 2 ^ 52 ≤ r ∨ k = -1074) :
    IsDouble (roundWithAccuracy .binary64 .positive m e accuracy) (r * 2 ^ k) := by
  unfold roundWithAccuracy
  simp only [hshift, hround]
  -- a carry fills the mantissa beyond its bits, and the second shift takes it back
  rcases hr.eq_or_lt with rfl | hlt
  · have hvalue : ((2 ^ 53 : ℕ) : ℚ) * 2 ^ k = (2 ^ 52 : ℕ) * 2 ^ (k + 1) := by
      rw [zpow_add_one₀ (by norm_num)]
      push_cast
      ring
    simp only [shiftToTargetExponent_carry hleast]
    rw [dif_neg (by decide), hvalue]
    exact .finite _ (by decide) (by omega) (by omega) (.inl le_rfl)
  · simp only [shiftToTargetExponent_of_lt hlt hleast]
    split
    · next hzero =>
      rw [hzero, Nat.cast_zero, zero_mul]
      exact .zero
    · exact .finite _ hlt hleast (by omega) hfull

/-- The bits of a quotient are where its mantissa says. -/
theorem Approximates.targetExponent_eq {accuracy : Accuracy} (hd : 0 < d)
    (h : Approximates (.ofMantissaAndAccuracy m accuracy) n d) (hq : q = n / d * 2 ^ e)
    (he : e ≤ place q) : Format.binary64.targetExponent (totalExponent m e) = place q := by
  have hdpos : (0 : ℚ) < d := Nat.cast_pos.mpr hd
  have hpow := two_zpow_pos e
  obtain ⟨hlow, hhigh⟩ := h.bounds
  -- the bits that were cut off say nothing about the mantissa
  have hm : (ExtendedMantissa.ofMantissaAndAccuracy m accuracy).mantissa = m := by
    cases accuracy with
    | exact => rfl
    | inexact o => cases o <;> rfl
  rw [hm] at hlow hhigh
  have hlow : (m : ℚ) * d ≤ n := by exact_mod_cast hlow
  have hhigh : (n : ℚ) < m * d + d := by exact_mod_cast hhigh hd
  refine Double.targetExponent_eq ?_ ?_ fun _ => he
  · rw [hq]
    exact mul_le_mul_of_nonneg_right ((le_div_iff₀ hdpos).mpr hlow) hpow.le
  · rw [hq]
    refine mul_lt_mul_of_pos_right ((div_lt_iff₀ hdpos).mpr ?_) hpow
    rwa [add_one_mul]

/-- A quotient that is shifted to its last place is rounded there. -/
theorem Approximates.roundedMantissa_eq {x : ExtendedMantissa} (hd : 0 < d)
    (h : Approximates x n d) (hq : q = n / d * 2 ^ e) {shift : ℕ} (hshift : place q - e = shift) :
    (x >>> shift).roundedMantissa = toEven (q / quantum q) := by
  have hpos : 0 < 2 ^ shift * d := Nat.mul_pos (Nat.pow_pos (by decide)) hd
  have hquantum : quantum q = 2 ^ shift * 2 ^ e := by
    rw [quantum, two_pow_mul_two_zpow, ← hshift, add_sub_cancel]
  have hquotient : q / quantum q = n / (2 ^ shift * d : ℕ) := by
    rw [hquantum]
    nth_rewrite 1 [hq]
    rw [mul_div_mul_right _ _ (two_zpow_pos e).ne', div_div, mul_comm (d : ℚ)]
    push_cast
    rfl
  rw [(h.shiftRight hd shift).roundedMantissa hpos, hquotient, toEven_div n hpos]

/-- **The last step** of all operations: what the mantissa stands for is rounded. -/
theorem isDouble_roundWithAccuracy {accuracy : Accuracy} (hd : 0 < d)
    (h : Approximates (.ofMantissaAndAccuracy m accuracy) n d) (hq : q = n / d * 2 ^ e)
    (he : e ≤ place q) (hgreatest : place q < 971) :
    IsDouble (roundWithAccuracy .binary64 .positive m e accuracy) (rounded q) := by
  have hnonneg : 0 ≤ q := by
    rw [hq]
    exact mul_nonneg (by positivity) (two_zpow_pos e).le
  -- the mantissa is shifted once, to the last place of the number, and rounded there
  obtain ⟨shift, hshift⟩ := Int.eq_ofNat_of_zero_le (sub_nonneg.mpr he)
  have hfirst : shiftToTargetExponent .binary64 m e accuracy =
      (ExtendedMantissa.ofMantissaAndAccuracy m accuracy >>> shift, place q) := by
    rw [shiftToTargetExponent, shiftToExponent, h.targetExponent_eq hd hq he, hshift,
      Int.toNat_natCast, ← hshift, add_sub_cancel]
  exact isDouble_of_shiftToTargetExponent hfirst (h.roundedMantissa_eq hd hq hshift)
    (toEven_div_quantum_le hnonneg) (le_place q) hgreatest
    ((le_place q).eq_or_lt.symm.imp le_toEven_div_quantum Eq.symm)

/-- A mantissa may be shifted to a lower place. -/
theorem mul_two_zpow_sub (m k : ℕ) (e : ℤ) :
    ((m <<< k : ℕ) : ℚ) * 2 ^ (e - k) = m * 2 ^ e := by
  rw [Nat.shiftLeft_eq, Nat.cast_mul, Nat.cast_pow, Nat.cast_ofNat, mul_assoc,
    two_pow_mul_two_zpow, sub_add_cancel]

/-- A number that is known exactly. -/
theorem isDouble_round (hm : 0 < m) (hq : q = m * 2 ^ e) (hgreatest : place q < 971) :
    IsDouble (UnpackedFloat.round .binary64 .positive m e) (rounded q) := by
  have hpow := two_zpow_pos e
  have htarget : Format.binary64.targetExponent (totalExponent m e) = place q := by
    refine targetExponent_eq hq.ge ?_ fun h => absurd h hm.ne'
    rw [hq]
    exact mul_lt_mul_of_pos_right (lt_add_one _) hpow
  unfold UnpackedFloat.round decreaseExponent
  simp only [htarget]
  -- shifting to the left loses nothing, so there is nothing to approximate
  have hexact : Approximates (.ofMantissaAndAccuracy (m <<< (e - place q).toNat) .exact)
      (m <<< (e - place q).toNat) 1 := (Nat.mul_one _).symm
  refine isDouble_roundWithAccuracy Nat.one_pos hexact ?_ (by omega) hgreatest
  rw [Nat.cast_one, div_one, mul_two_zpow_sub, hq]

/-- A sum is rounded like any number that is known exactly, with zero apart. -/
theorem isDouble_normalize (hq : q = m * 2 ^ e) (hgreatest : place q < 971) :
    IsDouble (UnpackedFloat.normalize .binary64 m e .positive) (rounded q) := by
  unfold UnpackedFloat.normalize
  rcases Nat.eq_zero_or_pos m with rfl | hm
  · have hzero : q = 0 := by simpa using hq
    rw [hzero, rounded_zero]
    exact .zero
  · rw [compare_gt_iff_gt.mpr (by omega : (m : ℤ) > 0)]
    exact isDouble_round hm hq hgreatest

end

section

variable {x y : UnpackedFloat} {a b q : ℚ}

theorem decreaseExponent_eq (m : ℕ) {e k : ℤ} (h : k ≤ e) :
    decreaseExponent m e k = (m <<< (e - k).toNat, k) :=
  congrArg (Prod.mk _) (by omega)

/-- **The sum** of two doubles. -/
theorem isDouble_add (hx : IsDouble x a) (hy : IsDouble y b) (hgreatest : place (a + b) < 971) :
    IsDouble (UnpackedFloat.add .binary64 x y) (rounded (a + b)) := by
  -- a zero on either side leaves the other double, which is exact already
  cases hx with
  | zero =>
    have hadd : UnpackedFloat.add .binary64 (.zero .positive) y = y := by cases hy <;> rfl
    rw [zero_add, hadd, rounded_of_isExact hy.isExact]
    exact hy
  | @finite m e hpos hhigh hleast hle hfull =>
    have hx := IsDouble.finite hpos hhigh hleast hle hfull
    cases hy with
    | zero =>
      rw [add_zero, rounded_of_isExact hx.isExact]
      exact hx
    | @finite m' e' =>
      -- Both numbers are shifted to the lower of their places.
      generalize hk : min e e' = k
      have hke : k ≤ e := hk ▸ min_le_left e e'
      have hke' : k ≤ e' := hk ▸ min_le_right e e'
      have hscaled (m : ℕ) {e : ℤ} (he : k ≤ e) :
          (m : ℚ) * 2 ^ e = (m <<< (e - k).toNat : ℕ) * 2 ^ k := by
        rw [← mul_two_zpow_sub m (e - k).toNat e]
        congr 2
        omega
      unfold UnpackedFloat.add
      simp only [hk, decreaseExponent_eq _ hke, decreaseExponent_eq _ hke', Sign.apply,
        ← Nat.cast_add]
      refine isDouble_normalize ?_ hgreatest
      rw [hscaled m hke, hscaled m' hke', Nat.cast_add, add_mul]

/-- The quotient of two numbers has as many bits as they say, or one less. -/
theorem targetExponent_le_place {m m' : ℕ} {e e' : ℤ} (hm : 0 < m) (hm' : 0 < m')
    (hq : q = m * 2 ^ e / (m' * 2 ^ e')) :
    Format.binary64.targetExponent (totalExponent m e - totalExponent m' e') ≤ place q := by
  have hlow : (2 : ℚ) ^ (m.log2 + e) ≤ m * 2 ^ e := by
    rw [zpow_add₀ (by norm_num), zpow_natCast]
    exact mul_le_mul_of_nonneg_right (by exact_mod_cast Nat.log2_self_le hm.ne') (two_zpow_pos e).le
  have hhigh : m' * 2 ^ e' ≤ (2 : ℚ) ^ (m'.log2 + 1 + e') := by
    rw [zpow_add₀ (by norm_num)]
    refine mul_le_mul_of_nonneg_right ?_ (two_zpow_pos e').le
    exact_mod_cast (Nat.lt_log2_self (n := m')).le
  -- at least `2 ^ a` divided by less than `2 ^ b` is at least `2 ^ (a - b)`
  have hquotient : (2 : ℚ) ^ (m.log2 + e - (m'.log2 + 1 + e')) ≤ q := by
    rw [zpow_sub₀ (by norm_num), hq]
    exact div_le_div₀ (mantissa_mul_pos hm e).le hlow (mantissa_mul_pos hm' e') hhigh
  simp only [Format.targetExponent, totalExponent, Format.mantissaBits, Format.minExponent]
  refine max_le (le_place_of_le (le_trans ?_ hquotient)) (le_place q)
  exact zpow_le_zpow_right₀ (by norm_num) (by omega)

/-- The rest of a division tells on which side of a half it is. -/
theorem approximates_div (n : ℕ) {d : ℕ} (hd : 0 < d) :
    Approximates (.ofMantissaAndAccuracy (n / d) (accuracyOfFraction (n % d) d)) n d := by
  have hdiv := Nat.div_add_mod n d
  rw [Nat.mul_comm] at hdiv
  have hlt := Nat.mod_lt n hd
  -- nothing is left, or the rest is compared with half of the divisor
  unfold accuracyOfFraction
  split
  · show n = n / d * d
    omega
  · rcases Nat.lt_trichotomy (2 * (n % d)) d with h | h | h
    · rw [compare_lt_iff_lt.mpr h]
      show n / d * d < n ∧ 2 * n < 2 * (n / d * d) + d
      omega
    · rw [compare_eq_iff_eq.mpr h]
      show 2 * n = 2 * (n / d * d) + d
      omega
    · rw [compare_gt_iff_gt.mpr h]
      show 2 * (n / d * d) + d < 2 * n ∧ n < n / d * d + d
      omega

/-- **The quotient** of two doubles that are not zero. -/
theorem isDouble_div {m m' : ℕ} {e e' : ℤ} (hm : 0 < m) (hm' : 0 < m')
    (hq : q = m * 2 ^ e / (m' * 2 ^ e')) (hgreatest : place q < 971) :
    IsDouble (UnpackedFloat.div .binary64 (.finite .positive m e hm) (.finite .positive m' e' hm'))
      (rounded q) := by
  -- the dividend is shifted far enough for the quotient to have all its bits
  have htarget := targetExponent_le_place hm hm' hq
  set k := min (e - e') (Format.binary64.targetExponent (totalExponent m e - totalExponent m' e'))
    with hk
  have hle : k ≤ e - e' := min_le_left _ _
  have hcore : divCore .binary64 m e m' e' = (m <<< (e - e' - k).toNat / m', k,
      accuracyOfFraction (m <<< (e - e' - k).toNat % m') m') := rfl
  unfold UnpackedFloat.div
  simp only [hcore]
  refine isDouble_roundWithAccuracy hm' (approximates_div _ hm') ?_
    ((min_le_right _ _).trans htarget) hgreatest
  have hshift := mul_two_zpow_sub m (e - e' - k).toNat (e - e')
  rw [Int.toNat_of_nonneg (by omega), sub_sub_cancel] at hshift
  rw [hq, div_mul_eq_mul_div, hshift, zpow_sub₀ (by norm_num), mul_div_mul_comm]
  ring

end

-- ---------------------------------------------------------------------------
-- Doubles
-- ---------------------------------------------------------------------------

section

variable {x y : Float} {a b : ℚ}

/-- **Adding** gives the sum, rounded. -/
theorem Denotes.add (hx : Denotes x a) (hy : Denotes y b) (hgreatest : place (a + b) < 971) :
    Denotes (x + y) (rounded (a + b)) :=
  (isDouble_add hx hy hgreatest).denotes

/-- **Dividing** by a positive number gives the quotient, rounded. -/
theorem Denotes.div (hx : Denotes x a) (hy : Denotes y b) (hb : 0 < b)
    (hgreatest : place (a / b) < 971) : Denotes (x / y) (rounded (a / b)) := by
  have hdiv : IsDouble (UnpackedFloat.div .binary64 x.toModel.unpack y.toModel.unpack)
      (rounded (a / b)) := by
    -- the divisor is not zero, and a dividend of zero gives zero
    unfold Denotes at hx hy
    generalize y.toModel.unpack = y' at hy ⊢
    cases hy with
    | zero => exact absurd hb (lt_irrefl 0)
    | finite hpos' =>
      generalize x.toModel.unpack = x' at hx ⊢
      cases hx with
      | zero =>
        rw [zero_div, rounded_zero]
        exact .zero
      | finite hpos => exact isDouble_div hpos hpos' rfl hgreatest
  exact hdiv.denotes

end

/-- A positive integer among the doubles. -/
theorem IsInteger.isDouble {x : UnpackedFloat} {n : ℕ} (h : IsInteger x n) (hn : 0 < n) :
    IsDouble x n := by
  generalize hk : (n : ℤ) = k at h
  cases h with
  | zero => omega
  | @finite s m shift i hpos hlow hhigh hshift hvalue =>
    cases s with
    | negative =>
      rw [Sign.apply] at hk
      omega
    | positive =>
      obtain rfl : n = i := Int.ofNat.inj hk
      -- the scaled value of an integer, in terms of an exponent
      have hscaled : (n : ℚ) * 2 ^ 52 = m * 2 ^ shift := by exact_mod_cast hvalue
      have hq : (n : ℚ) = m * 2 ^ ((shift : ℤ) - 52) := by
        rw [zpow_sub₀ (by norm_num), zpow_natCast, ← mul_div_assoc, eq_div_iff (by norm_num)]
        exact hscaled
      rw [hq]
      exact .finite hpos hhigh (by omega) (by omega) (.inl hlow)

/-- For natural numbers `rounded` is `nearestNat`. -/
theorem nearestNat_eq_rounded (n : ℕ) : (nearestNat n : ℚ) = rounded n := by
  -- up to 53 bits nothing is lost, and beyond them both round at the same place
  rcases le_or_gt n (2 ^ 53) with hle | hgt
  · rw [nearestNat_of_le hle, rounded_natCast hle]
  · have hn : n ≠ 0 := by omega
    have hlog : 52 ≤ n.log2 := (Nat.le_log2 hn).mpr (by omega)
    have hunit : (2 : ℚ) ^ ((n.log2 : ℤ) - 52) = unit n := by
      rw [unit, Nat.cast_pow, Nat.cast_ofNat, ← zpow_natCast, Nat.cast_sub hlog]
      rfl
    have hlow : (2 : ℚ) ^ (n.log2 : ℤ) ≤ n := by exact_mod_cast Nat.log2_self_le hn
    have hhigh : (n : ℚ) ≤ 2 ^ ((n.log2 : ℤ) + 1) := by exact_mod_cast Nat.lt_log2_self.le
    rw [rounded_eq hlow hhigh (by omega), hunit, toEven_div n (unit_pos n), nearestNat,
      Nat.cast_mul]

/-- **A natural number** as a double. -/
theorem denotes_ofNat {n : ℕ} (h : n < 2 ^ 64) : Denotes (.ofNat n) (rounded n) := by
  rcases Nat.eq_zero_or_pos n with rfl | hn
  · rw [Nat.cast_zero, rounded_zero]
    exact .zero
  · rw [← nearestNat_eq_rounded]
    have hpos : 0 < nearestNat n := (Nat.pow_pos (by decide)).trans_le (le_nearestNat hn.ne')
    exact (holds_ofNat h).isDouble hpos

/-- A natural number of at most 53 bits is converted to the double for it. -/
theorem denotes_toFloat {n : UInt64} (h : n.toNat < 2 ^ 53) : Denotes n.toFloat n.toNat := by
  rcases Nat.eq_zero_or_pos n.toNat with hzero | hpos
  · obtain rfl : n = 0 := UInt64.toNat_inj.mp hzero
    exact .zero
  · exact (holds_toFloat h).isDouble hpos

/-- Up to the 22nd power of ten there are at most 53 bits in front of the zeros. -/
theorem toModel_powersOfTen : ∀ k : Fin 23,
    (Float.exactlyRepresentablePowersOfTen[k]).toModel =
      .pack (.finite .positive (5 ^ k.val * 2 ^ (52 - (5 ^ k.val).log2))
        (k.val - (52 - (5 ^ k.val).log2 : ℕ)) (by positivity)) := by
  decide +kernel

/-- **The table of powers of ten** holds the doubles for them. -/
theorem denotes_powersOfTen (k : Fin 23) :
    Denotes Float.exactlyRepresentablePowersOfTen[k] (10 ^ k.val) := by
  have hne : 5 ^ k.val ≠ 0 := (Nat.pow_pos (by decide)).ne'
  have hlog : (5 ^ k.val).log2 ≤ 52 := by
    have hlt := (Nat.log2_lt (k := 53) hne).mpr
      ((Nat.pow_le_pow_right (by decide) (by omega : k.val ≤ 22)).trans_lt (by decide))
    omega
  -- the mantissa is a power of five, shifted until it has 53 bits
  have hsplit (j : ℕ) :
      2 ^ ((5 ^ k.val).log2 + j) * 2 ^ (52 - (5 ^ k.val).log2) = 2 ^ (52 + j) := by
    rw [← Nat.pow_add]
    congr 1
    omega
  have hlow : 2 ^ 52 ≤ 5 ^ k.val * 2 ^ (52 - (5 ^ k.val).log2) :=
    (hsplit 0).ge.trans (Nat.mul_le_mul_right _ (Nat.log2_self_le hne))
  have hhigh : 5 ^ k.val * 2 ^ (52 - (5 ^ k.val).log2) < 2 ^ 53 :=
    (Nat.mul_lt_mul_of_pos_right Nat.lt_log2_self (Nat.pow_pos (by decide))).trans_eq (hsplit 1)
  have hvalue : (10 : ℚ) ^ k.val = (5 ^ k.val * 2 ^ (52 - (5 ^ k.val).log2) : ℕ) *
      2 ^ ((k.val : ℤ) - (52 - (5 ^ k.val).log2 : ℕ)) := by
    rw [zpow_sub₀ (by norm_num), zpow_natCast, zpow_natCast, Nat.cast_mul, Nat.cast_pow,
      Nat.cast_pow, mul_assoc, Nat.cast_ofNat, Nat.cast_ofNat, mul_div_cancel₀ _ (by positivity),
      ← mul_pow]
    norm_num
  unfold Denotes
  rw [toModel_powersOfTen k, hvalue]
  exact (IsDouble.finite _ hhigh (by omega) (by omega) (.inl hlow)).denotes

/-- Less than half of the least place is rounded to zero. -/
theorem rounded_of_lt {q : ℚ} (hq : 0 ≤ q) (h : q < 2 ^ (-1075 : ℤ)) : rounded q = 0 := by
  have hquantum : quantum q = 2 * 2 ^ (-1075 : ℤ) := by
    rw [quantum, place_of_lt (h.trans (zpow_lt_zpow_right₀ (by norm_num) (by decide))),
      ← zpow_one_add₀ (by norm_num)]
    rfl
  have hnear := (abs_le.mp (toEven_near (div_quantum_nonneg hq))).2
  have hhalf : q / quantum q < 1 / 2 := by
    rw [div_lt_iff₀ (quantum_pos q), hquantum]
    linarith
  have hlt : (toEven (q / quantum q) : ℚ) < 1 := by linarith
  have hzero : toEven (q / quantum q) = 0 := Nat.lt_one_iff.mp (by exact_mod_cast hlt)
  rw [rounded, hzero, Nat.cast_zero, zero_mul]

/-- A decimal that is far too small is zero, and any other one is divided in one step. -/
theorem isDouble_ofScientific {n k : ℕ} (hk : 0 < k) (hgreatest : place (n / 10 ^ k) < 971) :
    IsDouble (UnpackedFloat.ofScientific .binary64 n (-k)) (rounded (n / 10 ^ k)) := by
  unfold UnpackedFloat.ofScientific
  split
  · next hzero =>
    rw [hzero, Nat.cast_zero, zero_div, rounded_zero]
    exact .zero
  next hn =>
  have hbits : (2 : ℤ) ^ Format.binary64.exponentBits = 2048 := rfl
  rw [if_neg (by omega), hbits]
  split
  · -- A decimal with more places than all doubles have.
    next htiny =>
    have hlt : (n : ℚ) / 10 ^ k < 2 ^ (-1075 : ℤ) := by
      calc (n : ℚ) / 10 ^ k ≤ 2 ^ (n.log2 + 1) / 2 ^ k :=
            div_le_div₀ (by positivity) (by exact_mod_cast Nat.lt_log2_self.le) (by positivity)
              (pow_le_pow_left₀ (by norm_num) (by norm_num) k)
        _ = 2 ^ ((n.log2 + 1 : ℕ) - k : ℤ) := by
            rw [zpow_sub₀ (by norm_num), zpow_natCast, zpow_natCast]
        _ < 2 ^ (-1075 : ℤ) := zpow_lt_zpow_right₀ (by norm_num) (by omega)
    rw [rounded_of_lt (by positivity) hlt]
    exact .zero
  · rw [if_neg (by omega)]
    refine isDouble_div (Nat.pos_of_ne_zero hn) _ ?_ hgreatest
    rw [zpow_zero, mul_one, mul_one, neg_neg, Int.toNat_natCast, Nat.cast_pow, Nat.cast_ofNat]

/-- **A decimal** with a fraction, as a double. -/
theorem denotes_ofScientific {n k : ℕ} (hk : 0 < k) (hgreatest : place (n / 10 ^ k) < 971) :
    Denotes (Float.ofScientific n true k) (rounded (n / 10 ^ k)) := by
  unfold Float.ofScientific
  split
  -- few digits and places: a quotient of two doubles that are exact
  · next h =>
    have hn : n.toUInt64.toNat = n := Nat.mod_eq_of_lt (by omega)
    have hfloat := denotes_toFloat (n := n.toUInt64) (by omega)
    rw [hn] at hfloat
    exact hfloat.div (denotes_powersOfTen ⟨k, by omega⟩) (by positivity) hgreatest
  · -- the general way: the exact quotient is rounded once
    obtain ⟨k, rfl⟩ := Nat.exists_eq_add_of_lt hk
    exact (isDouble_ofScientific hk hgreatest).denotes

end NullScript.Double
