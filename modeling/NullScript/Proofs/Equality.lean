import NullScript.Proofs.Consistent
import NullScript.Proofs.DoubleEquality

/-!
# NullScript — equality of values

Equality looks at `null` first and then asks whether the type of one side fits a slot of the
other's, in either direction. On consistent values the two questions come to one: values are
incomparable if both are there and their base types differ, and otherwise they are equal if their
data are. The marks of nullability play no part in it, so equality is symmetric and transitive, and
it is reflexive but for what is no number.

* `Datum.Equals` — equal data.
* `Value.equal_of_incomparable`, `Value.equal_of_comparable` — what equality answers.
* `Value.equal_self_iff` — what is equal to itself.
* `equality_of_consistent` — the laws of equality.
-/

namespace NullScript

/-! ## Data -/

/-- Equal data: doubles that are equal as numbers, and else the same datum. -/
inductive Datum.Equals : Datum → Datum → Prop
  | double {x y : Float} (h : Double.Equals x y) : Equals (.double x) (.double y)
  | other {d : Datum} (h : d.ty ≠ .double) : Equals d d

namespace Datum

variable {d d' d'' : Datum}

/-- Sameness of data is decided. -/
theorem same_iff_equals : d.same d' = true ↔ d.Equals d' := by
  constructor
  · intro h
    -- one case for each kind of datum, then those of different kinds
    unfold same at h
    split at h
    case h_1 => exact .other nofun
    case h_2 => exact beq_iff_eq.mp h ▸ .other nofun
    case h_3 => exact .double (Double.beq_iff_equals.mp h)
    case h_4 => exact beq_iff_eq.mp h ▸ .other nofun
    case h_5 => exact beq_iff_eq.mp h ▸ .other nofun
    case h_6 => cases h
  · rintro (h | h)
    · exact Double.beq_iff_equals.mpr h
    · cases d with
      | null => rfl
      | double x => exact (h rfl).elim
      | int | string | bool => exact beq_self_eq_true _

/-- What is no number is the one datum that differs from itself. -/
theorem equals_self_iff : d.Equals d ↔ ∀ x, d = .double x → x.isNaN = false := by
  constructor
  · rintro h x rfl
    cases h with
    | double h => exact Double.equals_self_iff.mp h
    | other h => exact (h rfl).elim
  · intro h
    cases d with
    | double x => exact .double (Double.equals_self_iff.mpr (h x rfl))
    | _ => exact .other nofun

theorem Equals.symm : d.Equals d' → d'.Equals d
  | .double h => .double h.symm
  | .other h => .other h

/-- Equality of data is transitive. -/
theorem Equals.trans (h : d.Equals d') (h' : d'.Equals d'') : d.Equals d'' := by
  cases h with
  | other => exact h'
  | double hxy =>
    cases h' with
    | double hyz => exact .double (hxy.trans hyz)
    | other => exact .double hxy

/-- The order of the two data does not matter. -/
theorem same_comm (d d' : Datum) : d.same d' = d'.same d := by
  rw [Bool.eq_iff_iff, same_iff_equals, same_iff_equals]
  exact ⟨.symm, .symm⟩

/-- `null` is the same datum as `null` alone. -/
theorem same_of_null (h : d.isNull = true ∨ d'.isNull = true) :
    d.same d' = (d.isNull && d'.isNull) := by
  rcases h with h | h
  · cases d with
    | null => cases d' <;> rfl
    | _ => cases h
  · cases d' with
    | null => cases d <;> rfl
    | _ => cases h

theorem Equals.ty_eq (h : d.Equals d') : d.ty = d'.ty := by
  cases h <;> rfl

end Datum

/-! ## Values -/

namespace Value

variable {a b c : Value}

/-- Values that equality does not compare. -/
def Incomparable (a b : Value) : Prop :=
  a.isNull = false ∧ b.isNull = false ∧ a.ty.base ≠ b.ty.base

theorem Incomparable.symm (h : Incomparable a b) : Incomparable b a :=
  ⟨h.2.1, h.1, h.2.2.symm⟩

/-- Only nulls are of base type `void`. -/
theorem Consistent.base_ne_void (ha : a.Consistent) (hnull : a.isNull = false) :
    a.ty.base ≠ .void := by
  rw [← ha.base_eq hnull]
  obtain ⟨d, t⟩ := a
  cases d with
  | null => cases hnull
  | _ => exact nofun

/-- A value that is there fits one of the two slots by its base type alone: of two types of one
base, the one that is not nullable fits the other. -/
theorem Consistent.comparable_iff (ha : a.Consistent) (hb : b.Consistent)
    (hanull : a.isNull = false) (hbnull : b.isNull = false) :
    a.comparable b = true ↔ a.ty.base = b.ty.base := by
  have hvoid := ha.base_ne_void hanull
  have hvoid' := hb.base_ne_void hbnull
  simp only [comparable, fits, Ty.fits, hvoid, hvoid', decide_false, Bool.and_false, Bool.or_false,
    Bool.or_eq_true, Bool.and_eq_true, decide_eq_true_eq]
  constructor
  · rintro (h | h)
    · exact h.1
    · exact h.1.symm
  · intro h
    -- of two nullable or not nullable types of one base, one fits the other
    cases hnullable : a.ty.nullable with
    | false => exact .inl ⟨h, .inl rfl⟩
    | true => exact .inr ⟨h.symm, .inr rfl⟩

/-- Null is equal to null, whatever the types, and to nothing else. -/
theorem equal_of_null (h : a.isNull = true ∨ b.isNull = true) :
    a.equal b = .ok (a.isNull && b.isNull) := by
  rw [equal, if_pos (Bool.or_eq_true_iff.mpr h)]
  rcases h with h | h
  · rw [h, Bool.true_beq, Bool.true_and]
  · rw [h, beq_true, Bool.and_true]

/-- Equality fails on values that are incomparable. -/
theorem equal_of_incomparable (ha : a.Consistent) (hb : b.Consistent) (h : Incomparable a b) :
    a.equal b = .error (.mismatch (.slot a.ty) b) := by
  obtain ⟨hanull, hbnull, hbase⟩ := h
  rw [equal, hanull, hbnull, if_neg (by decide),
    if_neg (mt (ha.comparable_iff hb hanull hbnull).mp hbase)]

/-- **Equality is that of data.** -/
theorem equal_of_comparable (ha : a.Consistent) (hb : b.Consistent) (h : ¬Incomparable a b) :
    a.equal b = .ok (a.datum.same b.datum) := by
  -- null on either side, or two values that are there
  by_cases hnull : a.isNull = true ∨ b.isNull = true
  · rw [equal_of_null hnull, Datum.same_of_null hnull]
    rfl
  · obtain ⟨hanull, hbnull⟩ : a.isNull = false ∧ b.isNull = false := by
      simpa only [not_or, Bool.not_eq_true] using hnull
    -- values that are there and not incomparable have one base type
    have hbase : a.ty.base = b.ty.base :=
      Decidable.byContradiction fun hne => h ⟨hanull, hbnull, hne⟩
    rw [equal, hanull, hbnull, if_neg (by decide),
      if_pos ((ha.comparable_iff hb hanull hbnull).mpr hbase)]

/-- Values that are incomparable have no equal data. -/
theorem Incomparable.not_equals (ha : a.Consistent) (hb : b.Consistent) (h : Incomparable a b) :
    ¬a.datum.Equals b.datum := fun heq =>
  h.2.2 (by rw [← ha.base_eq h.1, ← hb.base_eq h.2.1, heq.ty_eq])

/-- Values are equal if their data are. -/
theorem equal_eq_true_iff (ha : a.Consistent) (hb : b.Consistent) :
    a.equal b = .ok true ↔ a.datum.Equals b.datum := by
  by_cases h : Incomparable a b
  · rw [equal_of_incomparable ha hb h]
    exact ⟨nofun, fun heq => (h.not_equals ha hb heq).elim⟩
  · rw [equal_of_comparable ha hb h, Except.ok.injEq, Datum.same_iff_equals]

/-- **A value equals itself** unless it is no number. -/
theorem equal_self_iff (ha : a.Consistent) :
    a.equal a = .ok true ↔ ∀ x, a.datum = .double x → x.isNaN = false := by
  rw [equal_eq_true_iff ha ha, Datum.equals_self_iff]

/-- **Equality fails** on incomparable values only, with the type on the left. -/
theorem equal_eq_error_iff (ha : a.Consistent) (hb : b.Consistent) {f : Failure} :
    a.equal b = .error f ↔ Incomparable a b ∧ f = .mismatch (.slot a.ty) b := by
  by_cases h : Incomparable a b
  · rw [equal_of_incomparable ha hb h, Except.error.injEq]
    exact ⟨fun heq => ⟨h, heq.symm⟩, fun heq => heq.2.symm⟩
  · rw [equal_of_comparable ha hb h]
    exact ⟨nofun, fun heq => (h heq.1).elim⟩

/-- The order of the operands does not matter where they can be compared. -/
theorem equal_comm_of_comparable (ha : a.Consistent) (hb : b.Consistent)
    (h : ¬Incomparable a b) : b.equal a = a.equal b := by
  rw [equal_of_comparable ha hb h, equal_of_comparable hb ha (mt Incomparable.symm h),
    Datum.same_comm]

/-- Inequality fails where equality fails, with the same failure. -/
theorem notEqual_eq_error_iff {f : Failure} :
    a.compare .notEqual b = .error f ↔ a.compare .equal b = .error f := by
  show (a.equal b).map (!·) = .error f ↔ a.equal b = .error f
  cases a.equal b with
  | error e => rfl
  | ok x => exact ⟨nofun, nofun⟩

end Value

/-- The laws of equality. -/
structure EqualityLaws (a b c : Value) : Prop where
  /-- Equality fails on values that are both there and of different base types, and nowhere
  else. -/
  fails : ∀ f, a.compare .equal b = .error f ↔
    Value.Incomparable a b ∧ f = .mismatch (.slot a.ty) b
  /-- Inequality fails where equality does. -/
  fails_alike : ∀ f, a.compare .notEqual b = .error f ↔ a.compare .equal b = .error f
  /-- Elsewhere there is an answer. Inequality gives the other one, and the order of the operands
  does not matter. -/
  answers : ¬Value.Incomparable a b → ∃ x, a.compare .equal b = .ok x ∧
    a.compare .notEqual b = .ok (!x) ∧ b.compare .equal a = .ok x
  /-- `null` equals `null` of any type, and nothing else. -/
  null : a.isNull = true ∨ b.isNull = true →
    a.compare .equal b = .ok (a.isNull && b.isNull)
  /-- Values that are there are equal if their data are. -/
  present : a.isNull = false → b.isNull = false →
    (a.compare .equal b = .ok true ↔ a.datum.Equals b.datum)
  /-- What is equal to the same value can be compared, and is equal. -/
  transitive : a.compare .equal b = .ok true → b.compare .equal c = .ok true →
    a.compare .equal c = .ok true

/-- **Equality is well behaved** on consistent values. -/
theorem equality_of_consistent {a b c : Value} (ha : a.Consistent) (hb : b.Consistent)
    (hc : c.Consistent) : EqualityLaws a b c where
  fails _ := Value.equal_eq_error_iff ha hb
  fails_alike _ := Value.notEqual_eq_error_iff
  answers h := by
    have hequal := Value.equal_of_comparable ha hb h
    exact ⟨_, hequal, congrArg (·.map (!·)) hequal,
      (Value.equal_comm_of_comparable ha hb h).trans hequal⟩
  null := Value.equal_of_null
  present _ _ := Value.equal_eq_true_iff ha hb
  transitive h h' :=
    (Value.equal_eq_true_iff ha hc).mpr
      (((Value.equal_eq_true_iff ha hb).mp h).trans ((Value.equal_eq_true_iff hb hc).mp h'))

/-- `3` as an `int?`, as an `int` and again as an `int?`; and `null` of three types. -/
theorem equality_of_consistent_nullable :
    EqualityLaws ⟨.int 3, Ty.int.orNull⟩ (.int 3) ⟨.int 3, Ty.int.orNull⟩ ∧
      EqualityLaws (.nullOf .int) .void (.nullOf .string) :=
  ⟨equality_of_consistent rfl rfl rfl, equality_of_consistent rfl rfl rfl⟩

end NullScript
