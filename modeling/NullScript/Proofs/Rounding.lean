import NullScript.Proofs.NearestDouble

/-!
# NullScript — rounding to 53 bits

A double has room for 53 bits and for no place below `2 ^ -1074`. How the numbers between are
rounded is said here for rational numbers that are not negative, without regard to the greatest
double.

* `IsExact` — numbers for which there is room.
* `rounded` — the number that is kept of another one.
* `rounded_of_isExact`, `rounded_mono` — what there is room for is kept, and the order as well.
* `rounded_nearest` — nothing that there is room for is nearer.
* `rounded_eq_or_halfway`, `rounded_ne_of_halfway` — when two numbers are rounded to the same one.
-/

namespace NullScript.Double

-- ---------------------------------------------------------------------------
-- To the nearest natural number
-- ---------------------------------------------------------------------------

/-- The natural number that is nearest, and of two nearest ones the even one. -/
def toEven (q : ℚ) : ℕ := roundEven q.num.natAbs q.den

/-- A quotient may be rounded without being reduced. -/
theorem toEven_div (n : ℕ) {d : ℕ} (hd : 0 < d) : toEven (n / d) = roundEven n d := by
  have hnonneg : 0 ≤ ((n : ℚ) / d).num := Rat.num_nonneg.mpr (by positivity)
  -- reduced or not, the two quotients agree crosswise
  have hcross : ((n : ℚ) / d).num.natAbs * d = n * ((n : ℚ) / d).den := by
    have hq := Rat.num_div_den ((n : ℚ) / d)
    rw [div_eq_div_iff (Nat.cast_ne_zero.mpr (Rat.den_nz _)) (Nat.cast_ne_zero.mpr hd.ne')] at hq
    have hint : ((n : ℚ) / d).num * d = n * ((n : ℚ) / d).den := by exact_mod_cast hq
    rw [← Int.natAbs_of_nonneg hnonneg] at hint
    exact_mod_cast hint
  rw [toEven, ← roundEven_mul_mul _ _ hd, hcross, Nat.mul_comm (Rat.den _),
    roundEven_mul_mul _ _ (Rat.den_pos _)]

/-- A natural number is nearest to itself. -/
theorem toEven_natCast (k : ℕ) : toEven k = k := by
  have h := toEven_div k Nat.one_pos
  have hround := roundEven_mul k Nat.one_pos
  rw [Nat.mul_one] at hround
  rwa [Nat.cast_one, div_one, hround] at h

theorem exists_eq_div {q : ℚ} (hq : 0 ≤ q) : ∃ n d : ℕ, 0 < d ∧ q = n / d := by
  refine ⟨q.num.natAbs, q.den, q.den_pos, ?_⟩
  rw [Nat.cast_natAbs, abs_of_nonneg (Rat.num_nonneg.mpr hq), Rat.num_div_den]

/-- At most a half is lost. -/
theorem toEven_near {q : ℚ} (hq : 0 ≤ q) : |(toEven q : ℚ) - q| ≤ 1 / 2 := by
  obtain ⟨n, d, hd, rfl⟩ := exists_eq_div hq
  have hpos : (0 : ℚ) < d := Nat.cast_pos.mpr hd
  obtain ⟨hhigh, hlow⟩ := roundEven_near n hd
  have hhigh : 2 * ((roundEven n d : ℚ) * d) ≤ 2 * n + d := by exact_mod_cast hhigh
  have hlow : 2 * (n : ℚ) ≤ 2 * ((roundEven n d : ℚ) * d) + d := by exact_mod_cast hlow
  have hle : (n : ℚ) / d ≤ roundEven n d + 1 / 2 := by
    rw [div_le_iff₀ hpos]
    linarith
  have hge : (roundEven n d : ℚ) - 1 / 2 ≤ n / d := by
    rw [le_div_iff₀ hpos]
    linarith
  rw [toEven_div n hd, abs_le]
  constructor <;> linarith

/-- The order is kept, up to joining. -/
theorem toEven_mono {a b : ℚ} (ha : 0 ≤ a) (h : a ≤ b) : toEven a ≤ toEven b := by
  obtain ⟨n, d, hd, rfl⟩ := exists_eq_div ha
  obtain ⟨n', d', hd', rfl⟩ := exists_eq_div (ha.trans h)
  -- The order is kept by quotients with the same divisor.
  have hle : n * d' ≤ n' * d := by
    rw [div_le_div_iff₀ (Nat.cast_pos.mpr hd) (Nat.cast_pos.mpr hd')] at h
    exact_mod_cast h
  rw [toEven_div n hd, toEven_div n' hd', ← roundEven_mul_mul n d hd', ← roundEven_mul_mul n' d' hd,
    Nat.mul_comm d' d]
  exact roundEven_mono hle (Nat.mul_pos hd hd')

/-- A number is not rounded past a natural one. -/
theorem le_toEven {k : ℕ} {q : ℚ} (h : k ≤ q) : k ≤ toEven q := by
  rw [← toEven_natCast k]
  exact toEven_mono (Nat.cast_nonneg k) h

theorem toEven_le {k : ℕ} {q : ℚ} (hq : 0 ≤ q) (h : q ≤ k) : toEven q ≤ k := by
  rw [← toEven_natCast k]
  exact toEven_mono hq h

-- ---------------------------------------------------------------------------
-- Places
-- ---------------------------------------------------------------------------

/-- The last place that there is room for in a number: the 53rd one from the first, and none below
`-1074`. -/
def place (q : ℚ) : ℤ := Int.log 2 (max q (2 ^ (-1022 : ℤ))) - 52

/-- What the last place counts for. -/
def quantum (q : ℚ) : ℚ := 2 ^ place q

/-- There is room for the number: it has at most 53 bits, and none below the place `-1074`. -/
def IsExact (a : ℚ) : Prop := ∃ (m : ℕ) (e : ℤ), m ≤ 2 ^ 53 ∧ -1074 ≤ e ∧ a = m * 2 ^ e

/-- The number that is kept: the multiple of what the last place counts for that is nearest. -/
def rounded (q : ℚ) : ℚ := toEven (q / quantum q) * quantum q

section

variable {a b q : ℚ}

theorem two_zpow_pos (k : ℤ) : (0 : ℚ) < 2 ^ k := zpow_pos (by norm_num) k

theorem two_pow_mul_two_zpow (n : ℕ) (k : ℤ) : (2 : ℚ) ^ n * 2 ^ k = 2 ^ (k + n) := by
  rw [← zpow_natCast, ← zpow_add₀ (by norm_num), add_comm]

theorem quantum_pos (q : ℚ) : 0 < quantum q := two_zpow_pos _

/-- Numbers have the places that their first one leaves room for. -/
theorem le_place_iff {k : ℤ} (hk : -1074 < k) : k ≤ place q ↔ 2 ^ (k + 52) ≤ q := by
  have hpos : (0 : ℚ) < max q (2 ^ (-1022 : ℤ)) := lt_max_of_lt_right (two_zpow_pos _)
  have hlog := Int.zpow_le_iff_le_log (b := 2) (x := k + 52) (by decide) hpos
  have hleast : ¬(2 : ℚ) ^ (k + 52) ≤ 2 ^ (-1022 : ℤ) := by
    rw [zpow_le_zpow_iff_right₀ (by norm_num)]
    omega
  rw [Nat.cast_ofNat, le_max_iff, or_iff_left hleast] at hlog
  rw [hlog, place]
  omega

theorem place_lt_iff {k : ℤ} (hk : -1074 < k) : place q < k ↔ q < 2 ^ (k + 52) := by
  rw [← not_le, le_place_iff hk, not_le]

/-- No place is below the least one. -/
theorem le_place (q : ℚ) : -1074 ≤ place q := by
  have hlog : Int.log 2 ((2 : ℚ) ^ (-1022 : ℤ)) = -1022 := Int.log_zpow (by decide) _
  have hmono := Int.log_mono_right (b := 2) (two_zpow_pos (-1022))
    (le_max_right q (2 ^ (-1022 : ℤ)))
  unfold place
  omega

/-- A number of 53 bits before a place has its last place there or above. -/
theorem le_place_of_le {k : ℤ} (h : 2 ^ (k + 52) ≤ q) : k ≤ place q := by
  rcases le_or_gt k (-1074) with hle | hgt
  · exact hle.trans (le_place q)
  · exact (le_place_iff hgt).mpr h

/-- Greater numbers end at the same place or above. -/
theorem place_mono (h : a ≤ b) : place a ≤ place b := by
  -- at the least place there is nothing to show
  rcases (le_place a).eq_or_lt with heq | hlt
  · rw [← heq]
    exact le_place b
  · exact (le_place_iff hlt).mpr (((le_place_iff hlt).mp le_rfl).trans h)

theorem two_pow_mul_quantum (n : ℕ) (q : ℚ) : 2 ^ n * quantum q = 2 ^ (place q + n) :=
  two_pow_mul_two_zpow n (place q)

/-- Above the least place there are 53 bits. -/
theorem le_of_place (h : -1074 < place q) : 2 ^ 52 * quantum q ≤ q := by
  rw [two_pow_mul_quantum]
  exact (le_place_iff h).mp le_rfl

/-- No number has more than 53 bits in front of its last place. -/
theorem lt_of_place (q : ℚ) : q < 2 ^ 53 * quantum q := by
  have hplace := le_place q
  have hlt := (place_lt_iff (by omega)).mp (lt_add_one (place q))
  rw [two_pow_mul_quantum]
  exact hlt.trans_eq (congrArg _ (by push_cast; ring))

/-- Between two powers of two that follow each other, all numbers have the same last place. -/
theorem place_eq {e : ℤ} (hlow : 2 ^ e ≤ q) (hhigh : q < 2 ^ (e + 1)) (he : -1022 ≤ e) :
    place q = e - 52 := by
  have hle : e - 52 ≤ place q := le_place_of_le (by rwa [sub_add_cancel])
  have hlt : place q < e - 51 :=
    (place_lt_iff (by omega)).mpr (hhigh.trans_eq (congrArg _ (by ring)))
  omega

-- ---------------------------------------------------------------------------
-- What is kept
-- ---------------------------------------------------------------------------

theorem div_quantum_nonneg (hq : 0 ≤ q) : 0 ≤ q / quantum q := div_nonneg hq (quantum_pos q).le

/-- A multiple of its last place is kept. -/
theorem rounded_of_eq_mul {k : ℕ} (h : q = k * quantum q) : rounded q = q := by
  have hquotient : q / quantum q = k := by
    rw [div_eq_iff (quantum_pos q).ne']
    exact h
  rw [rounded, hquotient, toEven_natCast]
  exact h.symm

/-- A number that there is room for is a multiple of its last place, and of every one before. -/
theorem IsExact.exists_eq_mul (h : IsExact a) {k : ℤ} (hk : k ≤ place a) :
    ∃ n : ℕ, a = n * 2 ^ k := by
  obtain ⟨m, e, hm, he, rfl⟩ := h
  rcases le_or_gt k e with hle | hlt
  · refine ⟨m * 2 ^ (e - k).toNat, ?_⟩
    rw [Nat.cast_mul, Nat.cast_pow, Nat.cast_ofNat, mul_assoc, two_pow_mul_two_zpow,
      Int.toNat_of_nonneg (by omega), add_sub_cancel]
  · -- One place further, there is room for the greatest mantissa alone.
    have hlow := (le_place_iff (by omega)).mp hk
    have hhigh : (m : ℚ) * 2 ^ e ≤ 2 ^ (e + 53) := by
      rw [zpow_add₀ (by norm_num), mul_comm]
      exact mul_le_mul_of_nonneg_left (by exact_mod_cast hm) (two_zpow_pos e).le
    obtain rfl : k = e + 1 := by
      have := (zpow_le_zpow_iff_right₀ (by norm_num : (1 : ℚ) < 2)).mp (hlow.trans hhigh)
      omega
    refine ⟨2 ^ 52, le_antisymm (hhigh.trans_eq ?_) (hlow.trans_eq' ?_)⟩
    · rw [Nat.cast_pow, Nat.cast_ofNat, two_pow_mul_two_zpow]
      exact congrArg _ (by push_cast; ring)
    · rw [Nat.cast_pow, Nat.cast_ofNat, two_pow_mul_two_zpow]
      rfl

theorem isExact_natCast {m : ℕ} (h : m ≤ 2 ^ 53) : IsExact m :=
  ⟨m, 0, h, by decide, by rw [zpow_zero, mul_one]⟩

/-- **What there is room for** is kept. -/
theorem rounded_of_isExact (h : IsExact a) : rounded a = a := by
  obtain ⟨n, hn⟩ := h.exists_eq_mul le_rfl
  exact rounded_of_eq_mul hn

theorem rounded_natCast {m : ℕ} (h : m ≤ 2 ^ 53) : rounded m = m :=
  rounded_of_isExact (isExact_natCast h)

theorem rounded_zero : rounded 0 = 0 := by exact_mod_cast rounded_natCast (Nat.zero_le _)

theorem rounded_nonneg (q : ℚ) : 0 ≤ rounded q :=
  mul_nonneg (Nat.cast_nonneg _) (quantum_pos q).le

/-- At most, all bits are carried. -/
theorem toEven_div_quantum_le (hq : 0 ≤ q) : toEven (q / quantum q) ≤ 2 ^ 53 := by
  refine toEven_le (div_quantum_nonneg hq) ?_
  rw [div_le_iff₀ (quantum_pos q), Nat.cast_pow, Nat.cast_ofNat]
  exact (lt_of_place q).le

/-- Above the least place the first bit stays. -/
theorem le_toEven_div_quantum (h : -1074 < place q) : 2 ^ 52 ≤ toEven (q / quantum q) := by
  refine le_toEven ?_
  rw [le_div_iff₀ (quantum_pos q), Nat.cast_pow, Nat.cast_ofNat]
  exact le_of_place h

/-- There is room for what is kept. -/
theorem isExact_rounded (hq : 0 ≤ q) : IsExact (rounded q) :=
  ⟨_, place q, toEven_div_quantum_le hq, le_place q, rfl⟩

/-- At most half of the last place is lost. -/
theorem rounded_near (hq : 0 ≤ q) : |rounded q - q| ≤ quantum q / 2 := by
  have hnear := toEven_near (div_quantum_nonneg hq)
  have hpos := quantum_pos q
  have hsplit : rounded q - q = (toEven (q / quantum q) - q / quantum q) * quantum q := by
    rw [sub_mul, div_mul_cancel₀ _ hpos.ne', rounded]
  rw [hsplit, abs_mul, abs_of_pos hpos]
  calc _ ≤ 1 / 2 * quantum q := mul_le_mul_of_nonneg_right hnear hpos.le
    _ = quantum q / 2 := by ring

/-- **The order is kept**, up to joining neighbours. -/
theorem rounded_mono (ha : 0 ≤ a) (h : a ≤ b) : rounded a ≤ rounded b := by
  -- with one last place it is the order of the quotients
  rcases (place_mono h).eq_or_lt with heq | hlt
  · have hquantum : quantum a = quantum b := by rw [quantum, quantum, heq]
    have hpos := quantum_pos b
    have hround : toEven (a / quantum b) ≤ toEven (b / quantum b) :=
      toEven_mono (div_nonneg ha hpos.le) (div_le_div_of_nonneg_right h hpos.le)
    rw [rounded, rounded, hquantum]
    exact mul_le_mul_of_nonneg_right (Nat.cast_le.mpr hround) hpos.le
  · -- The power of two that the greater number starts with lies between.
    have hlow := le_toEven_div_quantum ((le_place a).trans_lt hlt)
    calc rounded a ≤ 2 ^ 53 * quantum a := by
          refine mul_le_mul_of_nonneg_right ?_ (quantum_pos a).le
          exact_mod_cast toEven_div_quantum_le ha
      _ ≤ 2 ^ 52 * quantum b := by
          rw [two_pow_mul_quantum, two_pow_mul_quantum]
          exact zpow_le_zpow_right₀ (by norm_num) (by push_cast; omega)
      _ ≤ rounded b := by
          refine mul_le_mul_of_nonneg_right ?_ (quantum_pos b).le
          exact_mod_cast hlow

/-- Two multiples of what a place counts for are that far apart, unless they are equal. -/
theorem add_le_of_lt {m n : ℕ} {u : ℚ} (hu : 0 < u) (h : m * u < n * u) : m * u + u ≤ n * u := by
  have hlt : m < n := by exact_mod_cast lt_of_mul_lt_mul_right h hu.le
  calc m * u + u = (m + 1 : ℕ) * u := by push_cast; ring
    _ ≤ n * u := mul_le_mul_of_nonneg_right (Nat.cast_le.mpr hlt) hu.le

theorem IsExact.nonneg (h : IsExact a) : 0 ≤ a := by
  obtain ⟨m, e, -, -, rfl⟩ := h
  exact mul_nonneg (Nat.cast_nonneg m) (two_zpow_pos e).le

/-- Between a number that there is room for and a greater one there is a multiple of the last place
of the greater one. -/
theorem IsExact.exists_mul_le (ha : IsExact a) (h : a ≤ q) :
    ∃ n : ℕ, a ≤ n * quantum q ∧ n * quantum q ≤ q := by
  -- at a lower place the number is itself such a multiple
  rcases le_or_gt (place q) (place a) with hle | hlt
  · obtain ⟨n, hn⟩ := ha.exists_eq_mul hle
    exact ⟨n, hn.le, hn.ge.trans h⟩
  · have hlow := le_of_place ((le_place a).trans_lt hlt)
    refine ⟨2 ^ 52, ?_, by exact_mod_cast hlow⟩
    calc a ≤ 2 ^ 53 * quantum a := (lt_of_place a).le
      _ ≤ (2 ^ 52 : ℕ) * quantum q := by
          rw [Nat.cast_pow, Nat.cast_ofNat, two_pow_mul_quantum, two_pow_mul_quantum]
          exact zpow_le_zpow_right₀ (by norm_num) (by push_cast; omega)

/-- **Nothing is nearer** that there is room for. -/
theorem rounded_nearest (hq : 0 ≤ q) (ha : IsExact a) : |rounded q - q| ≤ |a - q| := by
  have hpos := quantum_pos q
  obtain ⟨hlow, hhigh⟩ := abs_le.mp (rounded_near hq)
  -- On the side where what is kept lies, nothing else comes between. On the other side the next
  -- multiple of the last place is half of it away at least.
  rcases le_or_gt a q with hle | hlt
  · rw [abs_sub_comm a, abs_of_nonneg (sub_nonneg.mpr hle), abs_le]
    have hmono := rounded_mono ha.nonneg hle
    rw [rounded_of_isExact ha] at hmono
    refine ⟨by linarith, ?_⟩
    rcases le_or_gt (rounded q) q with hdown | hup
    · linarith
    · obtain ⟨n, han, hn⟩ := ha.exists_mul_le hle
      have hgap := add_le_of_lt hpos (hn.trans_lt hup)
      change _ ≤ rounded q at hgap
      linarith
  · rw [abs_of_pos (sub_pos.mpr hlt), abs_le]
    have hmono := rounded_mono hq hlt.le
    rw [rounded_of_isExact ha] at hmono
    refine ⟨?_, by linarith⟩
    rcases le_or_gt q (rounded q) with hup | hdown
    · linarith
    · obtain ⟨n, hn⟩ := ha.exists_eq_mul (place_mono hlt.le)
      have hgap := add_le_of_lt hpos ((hdown.trans hlt).trans_eq hn)
      change rounded q + _ ≤ _ at hgap
      rw [quantum, ← hn] at hgap
      rw [quantum] at hlow
      linarith

/-- Between two powers of two that follow each other, and at both of them, numbers are rounded to
the same place. -/
theorem rounded_eq {e : ℤ} (hlow : 2 ^ e ≤ q) (hhigh : q ≤ 2 ^ (e + 1)) (he : -1022 ≤ e) :
    rounded q = toEven (q / 2 ^ (e - 52)) * 2 ^ (e - 52) := by
  -- at the upper power of two the place is one higher, but the number is exact
  rcases hhigh.eq_or_lt with rfl | hlt
  · have hquotient : (2 : ℚ) ^ (e + 1) = (2 ^ 53 : ℕ) * 2 ^ (e - 52) := by
      rw [Nat.cast_pow, Nat.cast_ofNat, two_pow_mul_two_zpow]
      exact congrArg _ (by push_cast; ring)
    rw [rounded_of_isExact ⟨2 ^ 53, e - 52, le_rfl, by omega, hquotient⟩]
    nth_rewrite 2 [hquotient]
    rw [mul_div_cancel_right₀ _ (two_zpow_pos _).ne', toEven_natCast, hquotient]
  · rw [rounded, quantum, place_eq hlow hlt he]

-- ---------------------------------------------------------------------------
-- Halfway between two neighbours
-- ---------------------------------------------------------------------------

/-- The number is as far as can be from the one that is kept of it. -/
def IsHalfway (q : ℚ) : Prop := 2 * |rounded q - q| = quantum q

/-- The number that would be as near is the other neighbour. -/
theorem IsHalfway.isExact_other (h : IsHalfway q) (hq : 0 ≤ q) : IsExact (2 * q - rounded q) := by
  have hpos := quantum_pos q
  have hle := toEven_div_quantum_le hq
  unfold IsHalfway at h
  -- the neighbour is one unit lower if the number was rounded up, and one higher if down
  rcases le_or_gt q (rounded q) with hup | hdown
  · rw [abs_of_nonneg (sub_nonneg.mpr hup)] at h
    obtain ⟨k, hk⟩ : ∃ k, toEven (q / quantum q) = k + 1 := by
      refine Nat.exists_eq_succ_of_ne_zero fun hzero => ?_
      rw [rounded, hzero, Nat.cast_zero, zero_mul] at h
      linarith
    refine ⟨k, place q, by omega, le_place q, ?_⟩
    have hr : rounded q = (k + 1 : ℕ) * quantum q := by rw [rounded, hk]
    rw [Nat.cast_succ, add_one_mul] at hr
    change _ = k * quantum q
    linarith
  · rw [abs_of_neg (sub_neg.mpr hdown)] at h
    have hlt : toEven (q / quantum q) < 2 ^ 53 := by
      have hlt := lt_of_mul_lt_mul_right (hdown.trans (lt_of_place q)) hpos.le
      exact_mod_cast hlt
    refine ⟨toEven (q / quantum q) + 1, place q, hlt, le_place q, ?_⟩
    have hr : rounded q = toEven (q / quantum q) * quantum q := rfl
    rw [Nat.cast_succ, add_one_mul]
    change _ = _ * quantum q + quantum q
    linarith

/-- On the other side of a number that is halfway, something else is nearer. -/
theorem rounded_ne_of_halfway {v : ℚ} (hq : 0 ≤ q) (hv : 0 ≤ v) (h : IsHalfway q)
    (hside : (rounded q - q) * (v - q) < 0) : rounded v ≠ rounded q := by
  intro heq
  -- otherwise the other neighbour of `q` would be nearer to `v` than what is kept of it
  have hnear := sq_le_sq.mpr (rounded_nearest hv (h.isExact_other hq))
  rw [heq] at hnear
  have hfactors : (2 * q - rounded q - v) ^ 2 - (rounded q - v) ^ 2 =
      4 * ((rounded q - q) * (v - q)) := by ring
  linarith

/-- A number that is nearer than a half is what a number is rounded to. -/
theorem toEven_eq {k : ℕ} (hq : 0 ≤ q) (h : |(k : ℚ) - q| < 1 / 2) : toEven q = k := by
  have hnear := abs_le.mp (toEven_near hq)
  rw [abs_lt] at h
  have hlow : (k : ℚ) < toEven q + 1 := by linarith
  have hhigh : (toEven q : ℚ) < k + 1 := by linarith
  have hlow : k < toEven q + 1 := by exact_mod_cast hlow
  have hhigh : toEven q < k + 1 := by exact_mod_cast hhigh
  omega

/-- If nothing that is halfway between two natural numbers separates `q` and `v`, then they are
rounded to the same one, unless `q` is halfway itself and rounded away from `v`. -/
theorem toEven_eq_or_halfway {v : ℚ} (hq : 0 ≤ q) (hv : 0 ≤ v)
    (hbelow : ∀ j : ℕ, v ≤ j + 1 / 2 → q ≤ j + 1 / 2)
    (habove : ∀ j : ℕ, j + 1 / 2 ≤ v → j + 1 / 2 ≤ q) :
    toEven q = toEven v ∨
      |(toEven q : ℚ) - q| = 1 / 2 ∧ ((toEven q : ℚ) - q) * (v - q) < 0 := by
  obtain ⟨hlow, hhigh⟩ := abs_le.mp (toEven_near hq)
  rcases lt_or_ge (|(toEven q : ℚ) - v|) (1 / 2) with hlt | hge
  · exact .inl (toEven_eq hv hlt).symm
  rcases eq_or_ne v q with rfl | hne
  · exact .inl rfl
  refine .inr ?_
  rcases le_abs.mp hge with hdown | hup
  · -- `v` is below the number that `q` is rounded to.
    have hle : q ≤ toEven q - 1 / 2 := by
      cases hk : toEven q with
      | zero =>
        rw [hk, Nat.cast_zero] at hdown
        linarith
      | succ j =>
        have := hbelow j (by rw [hk, Nat.cast_succ] at hdown; linarith)
        rw [Nat.cast_succ]
        linarith
    have heq : (toEven q : ℚ) - q = 1 / 2 := by linarith
    have hlt : v < q := lt_of_le_of_ne (by linarith) hne
    rw [heq]
    exact ⟨abs_of_pos (by norm_num), by linarith⟩
  · have hle : toEven q + 1 / 2 ≤ q := habove _ (by linarith)
    have heq : (toEven q : ℚ) - q = -(1 / 2) := by linarith
    have hlt : q < v := lt_of_le_of_ne (by linarith) hne.symm
    rw [heq]
    exact ⟨by rw [abs_neg]; exact abs_of_pos (by norm_num), by linarith⟩

/-- If nothing that is halfway separates `q` and `v`, which lie between the same powers of two, then
the same is kept of both, unless `q` is halfway itself and rounded away from `v`. -/
theorem rounded_eq_or_halfway {v : ℚ} {e : ℤ} (he : -1022 ≤ e) (hq : 2 ^ e ≤ q)
    (hq' : q ≤ 2 ^ (e + 1)) (hv : 2 ^ e ≤ v) (hv' : v ≤ 2 ^ (e + 1))
    (hbelow : ∀ j : ℕ, v ≤ (2 * j + 1) * 2 ^ (e - 53) → q ≤ (2 * j + 1) * 2 ^ (e - 53))
    (habove : ∀ j : ℕ, (2 * j + 1) * 2 ^ (e - 53) ≤ v → (2 * j + 1) * 2 ^ (e - 53) ≤ q) :
    rounded q = rounded v ∨ IsHalfway q ∧ (rounded q - q) * (v - q) < 0 := by
  have hpos := two_zpow_pos (e - 52)
  have hunit : (2 : ℚ) ^ (e - 52) = 2 * 2 ^ (e - 53) := by
    rw [← zpow_one_add₀ (by norm_num)]
    exact congrArg _ (by ring)
  have hscaled (j : ℕ) : ((j : ℚ) + 1 / 2) * 2 ^ (e - 52) = (2 * j + 1) * 2 ^ (e - 53) := by
    rw [hunit]
    ring
  -- the same question for natural numbers, after dividing by the unit of this binade
  have hquotients := toEven_eq_or_halfway (q := q / 2 ^ (e - 52)) (v := v / 2 ^ (e - 52))
    (div_nonneg ((two_zpow_pos e).le.trans hq) hpos.le)
    (div_nonneg ((two_zpow_pos e).le.trans hv) hpos.le)
    (fun j => by simpa only [div_le_iff₀ hpos, hscaled] using hbelow j)
    (fun j => by simpa only [le_div_iff₀ hpos, hscaled] using habove j)
  have hroundq := rounded_eq hq hq' he
  refine hquotients.imp (fun hsame => ?_) fun ⟨hhalf, hside⟩ => ?_
  · rw [hroundq, rounded_eq hv hv' he, hsame]
  · have hlost : rounded q - q =
        (toEven (q / 2 ^ (e - 52)) - q / 2 ^ (e - 52)) * 2 ^ (e - 52) := by
      rw [sub_mul, div_mul_cancel₀ _ hpos.ne', hroundq]
    have hdistance : v - q = (v / 2 ^ (e - 52) - q / 2 ^ (e - 52)) * 2 ^ (e - 52) := by
      rw [sub_mul, div_mul_cancel₀ _ hpos.ne', div_mul_cancel₀ _ hpos.ne']
    have hmost : 2 * |rounded q - q| = 2 ^ (e - 52) := by
      rw [hlost, abs_mul, hhalf, abs_of_pos hpos]
      ring
    refine ⟨?_, ?_⟩
    · rcases hq'.eq_or_lt with heq | hlt
      · -- The greater power of two is kept, so it is not halfway.
        rw [rounded_of_isExact ⟨1, e + 1, by decide, by omega, by rw [heq, Nat.cast_one, one_mul]⟩,
          sub_self, abs_zero, mul_zero] at hmost
        exact absurd hmost hpos.ne
      · rw [IsHalfway, hmost, quantum, place_eq hq hlt he]
    · rw [hlost, hdistance, mul_mul_mul_comm]
      exact mul_neg_of_neg_of_pos hside (mul_pos hpos hpos)

end

end NullScript.Double
