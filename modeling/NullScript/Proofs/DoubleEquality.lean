import NullScript.Proofs.Packing

/-!
# NullScript — equality of doubles

Equality compares doubles as numbers. It is the sameness of doubles with two exceptions: what is no
number differs from itself, and the two zeros are equal.

* `Double.compare_eq_some_eq` — where a comparison of parts finds no difference.
* `Double.beq_iff_equals` — when equality holds.
-/

namespace NullScript.Double

open Float.Model UnpackedFloat

/-- Is a double one of the two zeros? -/
def IsZero (x : Float) : Prop := x = 0.0 ∨ x = -0.0

/-- Equal doubles: the same number, or two zeros. -/
def Equals (x y : Float) : Prop := x = y ∧ x.isNaN = false ∨ IsZero x ∧ IsZero y

/-- The two zeros are those that unpack to a zero. -/
theorem isZero_iff {x : Float} : IsZero x ↔ ∃ s, x.toModel.unpack = .zero s := by
  constructor
  · rintro (rfl | rfl)
    · exact ⟨.positive, rfl⟩
    · exact ⟨.negative, rfl⟩
  · rintro ⟨s, h⟩
    cases s with
    | positive => exact .inl (unpack_inj h)
    | negative => exact .inr (unpack_inj h)

/-- What is a number is no different from itself. -/
theorem compare_self {u : UnpackedFloat} (h : u.isNaN = false) : u.compare u = some .eq := by
  cases u with
  | notANumber => cases h
  | infinity s => cases s <;> rfl
  | zero s => rfl
  | finite s m e hpos =>
    cases s <;>
      simp only [UnpackedFloat.compare, Int.compare_eq_eq.mpr, Nat.compare_eq_eq.mpr,
        Ordering.then_eq, Ordering.swap_eq]

/-- Finite numbers without a difference have the same sign, exponent and mantissa. -/
theorem finite_eq_of_compare {s t : Sign} {m m' : Nat} {e e' : Int} {hpos : 0 < m}
    {hpos' : 0 < m'}
    (h : (UnpackedFloat.finite s m e hpos).compare (.finite t m' e' hpos') = some .eq) :
    UnpackedFloat.finite s m e hpos = .finite t m' e' hpos' := by
  -- exponents are compared first, then mantissas
  have hfields (hthen : (compare e e').then (compare m m') = .eq) : e = e' ∧ m = m' := by
    rw [Ordering.then_eq_eq] at hthen
    exact ⟨Int.compare_eq_eq.mp hthen.1, Nat.compare_eq_eq.mp hthen.2⟩
  -- numbers of different signs differ
  cases s <;> cases t
  · obtain ⟨rfl, rfl⟩ := hfields (Ordering.swap_inj.mp (Option.some.inj h))
    rfl
  · cases h
  · cases h
  · obtain ⟨rfl, rfl⟩ := hfields (Option.some.inj h)
    rfl

/-- A comparison finds no difference between a number and itself, between two zeros, and nowhere
else. -/
theorem compare_eq_some_eq {u v : UnpackedFloat} :
    u.compare v = some .eq ↔
      u = v ∧ u.isNaN = false ∨ (∃ s, u = .zero s) ∧ ∃ s, v = .zero s := by
  constructor
  · intro h
    -- two infinities of one sign, two zeros, or two equal finite numbers; anything else differs
    cases u with
    | notANumber => cases h
    | infinity s =>
      cases v with
      | infinity t =>
        cases s <;> cases t
        case negative.negative => exact .inl ⟨rfl, rfl⟩
        case positive.positive => exact .inl ⟨rfl, rfl⟩
        all_goals cases h
      | _ => cases s <;> cases h
    | zero s =>
      cases v with
      | zero t => exact .inr ⟨⟨s, rfl⟩, t, rfl⟩
      | notANumber => cases h
      | infinity t => cases t <;> cases h
      | finite t => cases t <;> cases h
    | finite s m e hpos =>
      cases v with
      | finite t m' e' hpos' => exact .inl ⟨finite_eq_of_compare h, rfl⟩
      | notANumber => cases h
      | infinity t => cases t <;> cases s <;> cases h
      | zero t => cases s <;> cases h
  · rintro (⟨rfl, h⟩ | ⟨⟨s, rfl⟩, t, rfl⟩)
    · exact compare_self h
    · rfl

/-- **When equality of doubles holds.** -/
theorem beq_iff_equals {x y : Float} : (x == y) = true ↔ Equals x y := by
  have hbeq : (x == y) = (x.toModel.unpack.compare y.toModel.unpack == some .eq) := rfl
  have hsame : x.toModel.unpack = y.toModel.unpack ↔ x = y :=
    ⟨unpack_inj, congrArg fun z : Float => z.toModel.unpack⟩
  rw [hbeq, beq_iff_eq, compare_eq_some_eq, hsame, Equals, isZero_iff, isZero_iff]
  rfl

/-- A double equals itself if and only if it is a number. -/
theorem equals_self_iff {x : Float} : Equals x x ↔ x.isNaN = false := by
  constructor
  · rintro (⟨-, h⟩ | ⟨rfl | rfl, -⟩)
    · exact h
    · rfl
    · rfl
  · exact fun h => .inl ⟨rfl, h⟩

theorem Equals.symm {x y : Float} : Equals x y → Equals y x
  | .inl ⟨h, hnan⟩ => .inl ⟨h.symm, h ▸ hnan⟩
  | .inr ⟨hx, hy⟩ => .inr ⟨hy, hx⟩

/-- Equality of doubles is transitive. -/
theorem Equals.trans {x y z : Float} : Equals x y → Equals y z → Equals x z
  | .inl ⟨h, hnan⟩, .inl ⟨h', _⟩ => .inl ⟨h.trans h', hnan⟩
  | .inl ⟨h, _⟩, .inr ⟨hy, hz⟩ => .inr ⟨h ▸ hy, hz⟩
  | .inr ⟨hx, hy⟩, .inl ⟨h, _⟩ => .inr ⟨hx, h ▸ hy⟩
  | .inr ⟨hx, _⟩, .inr ⟨_, hz⟩ => .inr ⟨hx, hz⟩

end NullScript.Double
