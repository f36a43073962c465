import Mathlib

/-!
# NullScript — the parts of a double

A double is a sign, an exponent and a mantissa, packed into 64 bits. The mantissa of a normal number
has 53 bits, and its leading bit is not stored. Nothing is lost between the parts and the bits, in
either direction.

* `pack_normal`, `pack_subnormal` — the bits of a finite number.
* `unpack_pack_normal` — the parts of a normal number are found again.
* `pack_unpack`, `unpack_inj` — a double is determined by its parts.
-/

namespace NullScript.Double

open Float.Model UnpackedFloat

-- ---------------------------------------------------------------------------
-- The leading bit
-- ---------------------------------------------------------------------------

/-- A leading bit in front of a mantissa counts for `2 ^ 52`. -/
theorem toNat_one_append (m : BitVec 52) : (1#1 ++ m).toNat = 2 ^ 52 + m.toNat := by
  rw [BitVec.toNat_append, ← Nat.shiftLeft_add_eq_or_of_lt m.isLt, Nat.shiftLeft_eq]
  rfl

/-- A mantissa without its first bit, and with it again. -/
theorem toNat_mantissa {m : Nat} (hlow : 2 ^ 52 ≤ m) (hhigh : m < 2 ^ 53) :
    (1#1 ++ BitVec.ofNat 52 m).toNat = m := by
  rw [toNat_one_append, BitVec.toNat_ofNat]
  omega

/-- A mantissa with a first bit, and without it again. -/
theorem ofNat_one_append (m : BitVec 52) : BitVec.ofNat 52 (1#1 ++ m).toNat = m := by
  refine BitVec.eq_of_toNat_eq ?_
  rw [BitVec.toNat_ofNat, toNat_one_append]
  have := m.isLt
  omega

-- ---------------------------------------------------------------------------
-- From the parts to the bits and back
-- ---------------------------------------------------------------------------

section

variable {m x : Nat} {e : Int}

/-- A normal number is stored without the leading bit, and with a biased exponent. -/
theorem pack_normal (s : Sign) (hpos : 0 < m) (hlow : 2 ^ 52 ≤ m) (hhigh : m < 2 ^ 53)
    (hx : x < 2047) (he : e = x - 1075) :
    UnpackedFloat.pack .binary64 (.finite s m e hpos) =
      packComponents .binary64 s (BitVec.ofNat 11 x) (BitVec.ofNat 52 m) := by
  -- the leading bit is where that of a normal number is
  have hbits : m.log2 = 52 := (Nat.log2_eq_iff (Nat.ne_of_gt hpos)).mpr ⟨hlow, hhigh⟩
  have hbiased : (e + Format.binary64.exponentBias + (52 : Nat)).toNat = x := by
    simp only [Format.exponentBias]
    omega
  unfold UnpackedFloat.pack
  simp only [hbiased, hbits]
  rw [if_neg (by omega)]
  exact if_pos rfl

/-- Without the leading bit the mantissa is stored with the exponent of zero. -/
theorem pack_subnormal (s : Sign) {m : BitVec 52} (hpos : 0 < m.toNat) (he : e = -1074) :
    UnpackedFloat.pack .binary64 (.finite s m.toNat e hpos) =
      packComponents .binary64 s 0#11 m := by
  -- there is no leading bit
  have hbits : m.toNat.log2 + 1 ≠ Format.binary64.mantissaBits := by
    have := (Nat.log2_lt (Nat.ne_of_gt hpos)).mpr m.isLt
    show _ ≠ 53
    omega
  have hbiased : (e + Format.binary64.exponentBias + (52 : Nat)).toNat = 1 := by
    simp only [Format.exponentBias]
    omega
  unfold UnpackedFloat.pack
  simp only [hbiased]
  rw [if_neg (by decide), if_neg hbits, BitVec.ofNat_toNat, BitVec.setWidth_eq]

/-- An exponent that is neither that of zero nor that of infinity. -/
theorem unpack_normal (s : Sign) (hpos : 0 < m) (hlow : 2 ^ 52 ≤ m) (hhigh : m < 2 ^ 53)
    (hzero : x ≠ 0) (hx : x < 2047) (he : e = x - 1075) :
    UnpackedFloat.unpack .binary64
        (packComponents .binary64 s (BitVec.ofNat 11 x) (BitVec.ofNat 52 m)) =
      .finite s m e hpos := by
  have hexponent : (BitVec.ofNat 11 x).toNat = x := by
    rw [BitVec.toNat_ofNat, Nat.mod_eq_of_lt (by omega)]
  -- infinity has all bits of the exponent, and zero none of them
  have hfinite : BitVec.ofNat 11 x ≠ -1#11 := fun h => by
    have hmax : (-1#11).toNat = 2047 := by decide
    rw [h] at hexponent
    omega
  have hnormal : BitVec.ofNat 11 x ≠ 0#11 := fun h => by
    rw [h] at hexponent
    exact hzero hexponent.symm
  have hbiased : (x : Int) - (Format.binary64.exponentBias + (52 : Nat)) = e := by
    simp only [Format.exponentBias]
    omega
  unfold UnpackedFloat.unpack
  simp only [unpackMantissa_packComponents, unpackExponent_packComponents,
    unpackSign_packComponents, Sign.ofBitVec_toBitVec, hexponent, hbiased,
    toNat_mantissa hlow hhigh]
  rw [if_neg hfinite, if_neg hnormal]

/-- **The parts of a normal number** are found again. -/
theorem unpack_pack_normal (s : Sign) (hpos : 0 < m) (hlow : 2 ^ 52 ≤ m) (hhigh : m < 2 ^ 53)
    (hleast : -1074 ≤ e) (hgreatest : e ≤ 971) :
    UnpackedFloat.unpack .binary64 (UnpackedFloat.pack .binary64 (.finite s m e hpos)) =
      .finite s m e hpos := by
  have hx : (e + 1075).toNat < 2047 := by omega
  have he : e = (e + 1075).toNat - 1075 := by omega
  rw [pack_normal s hpos hlow hhigh hx he,
    unpack_normal s hpos hlow hhigh (by omega) hx he]

end

-- ---------------------------------------------------------------------------
-- From the bits to the parts and back
-- ---------------------------------------------------------------------------

/-- Bits are those of the sign, the exponent and the mantissa that stand in them. -/
theorem packComponents_unpack (b : BitVec Format.binary64.numBits) :
    packComponents .binary64 (.ofBitVec (unpackSign b)) (unpackExponent b) (unpackMantissa b) =
      b := by
  -- a sign is one bit, which is either of two
  have hsign : (Sign.ofBitVec (unpackSign b)).toBitVec = unpackSign b := by
    rcases BitVec.eq_zero_or_eq_one (unpackSign b) with h | h <;> rw [h] <;> rfl
  -- sign and exponent stand next to each other, with the mantissa behind them
  have hhigh : BitVec.extractLsb' 63 1 b ++ BitVec.extractLsb' 52 11 b =
      BitVec.extractLsb' 52 12 b :=
    BitVec.extractLsb'_append_extractLsb'_eq_extractLsb' rfl
  have hall : BitVec.extractLsb' 52 12 b ++ BitVec.extractLsb' 0 52 b = b :=
    BitVec.extractLsb'_append_extractLsb'
  rw [packComponents, hsign]
  exact (congrArg (· ++ BitVec.extractLsb' 0 52 b) hhigh).trans hall

/-- With a leading bit in front, a mantissa is that of a normal number. -/
theorem pack_leading (s : Sign) {x : BitVec 11} (hx : x ≠ -1#11) (m : BitVec 52) {e : Int}
    (he : e = x.toNat - 1075) (hpos : 0 < (1#1 ++ m).toNat) :
    UnpackedFloat.pack .binary64 (.finite s (1#1 ++ m).toNat e hpos) =
      packComponents .binary64 s x m := by
  have hmax : x.toNat ≠ 2047 := fun h => hx (BitVec.eq_of_toNat_eq h)
  have hlow := toNat_one_append m
  have hm := m.isLt
  have hlt := x.isLt
  rw [pack_normal s hpos (by omega) (by omega) (by omega) he, ofNat_one_append,
    BitVec.ofNat_toNat, BitVec.setWidth_eq]

/-- **A double is put together again** from its parts. -/
theorem pack_unpack {b : BitVec Format.binary64.numBits} (hvalid : Format.binary64.Valid b) :
    UnpackedFloat.pack .binary64 (UnpackedFloat.unpack .binary64 b) = b := by
  have hb := packComponents_unpack b
  unfold UnpackedFloat.unpack
  simp only
  -- the exponent of infinity, that of zero, and any other one
  split
  · next hinfinite =>
    split
    -- an infinity, and what is left is the one bit pattern for not a number
    · next hm => rwa [hinfinite, hm] at hb
    · next hm => exact (hvalid.eq_packedNaN hinfinite hm).symm
  · next hfinite =>
    split
    · next hzero =>
      split
      -- a zero, and what is left are the numbers without a leading bit
      · next hm => rwa [hzero, hm] at hb
      · next hm =>
        rw [pack_subnormal _ _ (by rw [hzero]; rfl), ← hzero]
        exact hb
    · next hnormal => exact (pack_leading _ hfinite _ rfl _).trans hb

/-- Two doubles with the same parts are the same. -/
theorem unpack_inj {x y : Float} (h : x.toModel.unpack = y.toModel.unpack) : x = y := by
  obtain ⟨⟨b, hb⟩⟩ := x
  obtain ⟨⟨c, hc⟩⟩ := y
  -- both are put together again from the same parts
  have heq : b.toBitVec = c.toBitVec :=
    (pack_unpack hb).symm.trans ((congrArg (UnpackedFloat.pack .binary64) h).trans (pack_unpack hc))
  obtain rfl : b = c := UInt64.toBitVec_inj.mp heq
  rfl

end NullScript.Double
