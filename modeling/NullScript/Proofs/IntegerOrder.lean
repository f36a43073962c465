import NullScript.Proofs.NearestDouble
import NullScript.Value.Compare

/-!
# NullScript — the order of integers

Equality compares integers bit by bit, and the order operators compare the nearest doubles. Both
agree unless two different integers have the same nearest double. Of such two, neither is less than
the other, and they are not equal.

* `distinguished_of_small`, `distinguished_of_apart` — integers that doubles tell apart.
* `integers_compared_as_doubles` — what comparisons of integers answer.
-/

namespace NullScript

/-- Two integers are the same or have different nearest doubles. -/
def Distinguished (a b : Int64) : Prop :=
  Double.nearest a.toInt = Double.nearest b.toInt → a = b

namespace Double

/-- An integer from `2 ^ 53` on has a nearest double from there on, too. -/
theorem le_natAbs_nearest {n : Int} (h : 2 ^ 53 ≤ n.natAbs) : 2 ^ 53 ≤ (nearest n).natAbs := by
  have hle := nearestNat_mono h
  rw [nearestNat_of_le (Nat.le_refl _)] at hle
  unfold nearest
  split <;> omega

/-- Doubles tell an integer below `2 ^ 53` from all others. -/
theorem eq_of_nearest_eq {a b : Int} (ha : a.natAbs < 2 ^ 53) (h : nearest a = nearest b) :
    a = b := by
  rw [nearest_eq_self (Nat.le_of_lt ha)] at h
  -- otherwise the nearest double of `b` would be `2 ^ 53` at least, and it is `a`
  have hb : b.natAbs < 2 ^ 53 := by
    refine Nat.lt_of_not_le fun hle => ?_
    have := le_natAbs_nearest hle
    rw [← h] at this
    omega
  rw [h, nearest_eq_self (Nat.le_of_lt hb)]

/-- Doubles of 64 bits are at most 2048 apart. -/
theorem unit_le {n : Nat} (h : n < 2 ^ 64) : unit n ≤ 2048 := by
  rcases Nat.eq_zero_or_pos n with rfl | hn
  · decide
  -- with at most 64 bits, 11 of them do not fit into a double
  have hlog := (Nat.log2_lt (Nat.ne_of_gt hn)).mpr h
  exact Nat.pow_le_pow_right (by decide) (by omega : n.log2 - 52 ≤ 11)

/-- At most half of the greatest unit is lost of 64 bits. -/
theorem nearest_near (n : Int64) :
    nearest n.toInt ≤ n.toInt + 1024 ∧ n.toInt ≤ nearest n.toInt + 1024 := by
  have hlow := n.le_toInt
  have hhigh := n.toInt_lt
  have hnear := nearestNat_near n.toInt.natAbs
  have hunit := unit_le (n := n.toInt.natAbs) (by omega)
  unfold nearest
  split <;> omega

end Double

/-- Doubles tell two integers apart if one of them is below `2 ^ 53`. -/
theorem distinguished_of_small {a b : Int64}
    (h : a.toInt.natAbs < 2 ^ 53 ∨ b.toInt.natAbs < 2 ^ 53) : Distinguished a b := by
  intro heq
  rcases h with h | h
  · exact Int64.toInt_inj.mp (Double.eq_of_nearest_eq h heq)
  · exact (Int64.toInt_inj.mp (Double.eq_of_nearest_eq h heq.symm)).symm

/-- Doubles tell two integers apart if they are more than 2048 apart. -/
theorem distinguished_of_apart {a b : Int64} (h : 2048 < (a.toInt - b.toInt).natAbs) :
    Distinguished a b := by
  intro heq
  -- two integers with the same nearest double are within 1024 of it, on either side
  have ha := Double.nearest_near a
  have hb := Double.nearest_near b
  omega

/-- What comparisons of two integers answer. -/
structure ComparedAsDoubles (a b : Int64) : Prop where
  equal : (Value.int a).compare .equal (.int b) = .ok (a == b)
  notEqual : (Value.int a).compare .notEqual (.int b) = .ok (a != b)
  /-- The other operators answer by the nearest doubles. -/
  order : ∀ op, op ≠ .equal → op ≠ .notEqual → (Value.int a).compare op (.int b) =
    .ok (op.holds (compare (Double.nearest a.toInt) (Double.nearest b.toInt)))
  /-- If doubles tell the integers apart, every answer is that of the integers. -/
  distinguished : Distinguished a b →
    ∀ op, (Value.int a).compare op (.int b) = .ok (op.holds (compare a.toInt b.toInt))
  /-- Then exactly one of them is less than the other, or they are equal. -/
  trichotomy : Distinguished a b → ∃ less equal greater : Bool,
    (Value.int a).compare .less (.int b) = .ok less ∧
    (Value.int a).compare .equal (.int b) = .ok equal ∧
    (Value.int a).compare .greater (.int b) = .ok greater ∧
    (Value.int a).compare .lessOrEqual (.int b) = .ok (less || equal) ∧
    (Value.int a).compare .greaterOrEqual (.int b) = .ok (greater || equal) ∧
    [less, equal, greater].count true = 1
  /-- If doubles do not, none is less than the other, and they are not equal. -/
  joined : ¬Distinguished a b → ∀ op, (Value.int a).compare op (.int b) =
    .ok (op = .notEqual ∨ op = .lessOrEqual ∨ op = .greaterOrEqual)
  /-- Integers that doubles do not tell apart are large neighbours. -/
  neighbours : ¬Distinguished a b → 2 ^ 53 ≤ a.toInt.natAbs ∧ 2 ^ 53 ≤ b.toInt.natAbs ∧
    (a.toInt - b.toInt).natAbs ≤ 2048

section

variable {a b : Int64}

/-- The order operators compare integers by their nearest doubles. -/
theorem compare_order_int (a b : Int64) {op : ComparisonOp} (h : op ≠ .equal)
    (h' : op ≠ .notEqual) : (Value.int a).compare op (.int b) =
      .ok (op.holds (compare (Double.nearest a.toInt) (Double.nearest b.toInt))) := by
  rw [← Double.order_ofInt64]
  cases op with
  | equal => exact absurd rfl h
  | notEqual => exact absurd rfl h'
  | less | lessOrEqual | greater | greaterOrEqual => rfl

/-- Two integers are equal bit by bit if and only if they are equal as exact integers. -/
theorem isEq_compare_toInt (a b : Int64) : (compare a.toInt b.toInt).isEq = (a == b) := by
  rw [Bool.eq_iff_iff, Ordering.isEq_iff_eq_eq, compare_eq_iff_eq, Int64.toInt_inj, beq_iff_eq]

/-- Integers that doubles tell apart are in the order of their doubles. -/
theorem Distinguished.compare_nearest (h : Distinguished a b) :
    compare (Double.nearest a.toInt) (Double.nearest b.toInt) = compare a.toInt b.toInt := by
  -- different integers have different doubles, and rounding keeps the order
  have hne (hlt : a.toInt ≠ b.toInt) : Double.nearest a.toInt ≠ Double.nearest b.toInt :=
    fun heq => hlt (congrArg _ (h heq))
  rcases Int.lt_trichotomy a.toInt b.toInt with hlt | heq | hgt
  · have := Double.nearest_mono (Int.le_of_lt hlt)
    have := hne (Int.ne_of_lt hlt)
    rw [compare_lt_iff_lt.mpr hlt, compare_lt_iff_lt.mpr (by omega)]
  · rw [heq, compare_eq_iff_eq.mpr rfl, compare_eq_iff_eq.mpr rfl]
  · have := Double.nearest_mono (Int.le_of_lt hgt)
    have := hne (Int.ne_of_gt hgt)
    rw [compare_gt_iff_gt.mpr hgt, compare_gt_iff_gt.mpr (by omega)]

/-- If doubles tell two integers apart, each operator answers for the integers. -/
theorem Distinguished.compare_int (h : Distinguished a b) (op : ComparisonOp) :
    (Value.int a).compare op (.int b) = .ok (op.holds (compare a.toInt b.toInt)) := by
  cases op with
  | equal => exact congrArg _ (isEq_compare_toInt a b).symm
  | notEqual =>
    refine congrArg Except.ok ?_
    -- `!=` is the negated `==`
    show (!(a == b)) = (compare a.toInt b.toInt).isNe
    rw [← isEq_compare_toInt]
    cases compare a.toInt b.toInt <;> rfl
  | less | lessOrEqual | greater | greaterOrEqual =>
    rw [compare_order_int a b (by decide) (by decide), h.compare_nearest]

/-- If doubles do not tell two different integers apart, the operators that allow for equality hold,
and so does `!=`. -/
theorem compare_int_of_joined (h : ¬Distinguished a b) (op : ComparisonOp) :
    (Value.int a).compare op (.int b) =
      .ok (op = .notEqual ∨ op = .lessOrEqual ∨ op = .greaterOrEqual) := by
  -- the integers differ, and their nearest doubles do not
  obtain ⟨hnearest, hne⟩ := Classical.not_imp.mp h
  have hdiffer : (a == b) = false := beq_eq_false_iff_ne.mpr hne
  cases op with
  | equal => exact congrArg Except.ok hdiffer
  | notEqual => exact congrArg (fun same => Except.ok (!same)) hdiffer
  | less | lessOrEqual | greater | greaterOrEqual =>
    rw [compare_order_int a b (by decide) (by decide), hnearest, compare_eq_iff_eq.mpr rfl]
    rfl

end

/-- **Integers are compared as doubles**, which is as integers unless they are large neighbours. -/
theorem integers_compared_as_doubles (a b : Int64) : ComparedAsDoubles a b where
  equal := rfl
  notEqual := rfl
  order _ := compare_order_int a b
  distinguished := Distinguished.compare_int
  trichotomy h := by
    refine ⟨_, _, _, h.compare_int .less, h.compare_int .equal, h.compare_int .greater, ?_⟩
    rw [h.compare_int, h.compare_int]
    -- each of the three ways they can stand makes one of the three operators true
    cases compare a.toInt b.toInt <;> decide
  joined := compare_int_of_joined
  neighbours h :=
    ⟨Nat.le_of_not_lt fun hlt => h (distinguished_of_small (.inl hlt)),
      Nat.le_of_not_lt fun hlt => h (distinguished_of_small (.inr hlt)),
      Nat.le_of_not_lt fun hlt => h (distinguished_of_apart hlt)⟩

/-- The order is lost between `2 ^ 53` and its successor. -/
theorem order_of_neighbours_lost :
    ¬∀ a b : Int64, (Value.int a).compare .greater (.int b) = .ok (decide (b < a)) := by
  intro h
  have hfalse : (Value.int 9007199254740993).compare .greater (.int 9007199254740992) =
      .ok false := by
    -- both integers round to `2 ^ 53`
    rw [compare_order_int _ _ (by decide) (by decide)]
    decide +kernel
  have htrue := h 9007199254740993 9007199254740992
  rw [hfalse] at htrue
  exact absurd (Except.ok.inj htrue) (by decide)

end NullScript
