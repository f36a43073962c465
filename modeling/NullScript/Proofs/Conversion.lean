import NullScript.Proofs.Consistent

/-!
# NullScript — conversions

A conversion looks at the datum and at the target type, and not at the type under which the datum
is known. What it gives carries just the target type, and is what the same conversion makes of it
again.

* `Datum.convert?_idem` — a datum that was converted stays as it is.
* `Value.cast_eq_ok_iff`, `Value.cast_eq_error_iff` — when a conversion gives a value, and which
  one, and when it fails.
* `conversion_is_exact` — the laws of conversions.
-/

namespace NullScript

-- ---------------------------------------------------------------------------
-- Data
-- ---------------------------------------------------------------------------

namespace Datum

variable {d d' : Datum} {base : Base}

/-- Null is converted to null, whatever the target. -/
theorem convert?_null (hnull : d.isNull = true) : d.convert? base = some d := by
  cases d with
  | null => rfl
  | _ => cases hnull

/-- A datum is converted to itself in its own base type. -/
theorem convert?_self (hnull : d.isNull = false) : d.convert? d.ty.base = some d := by
  cases d with
  | null => cases hnull
  | _ => rfl

/-- **What was converted** is converted to itself. -/
theorem convert?_idem (h : d.convert? base = some d') : d'.convert? base = some d' := by
  obtain ⟨hnull, hbase⟩ := convert?_eq_some h
  -- null stays null; anything else has come into the base type of the target
  cases hd : d.isNull with
  | true => exact convert?_null (hnull.trans hd)
  | false =>
    have hself := convert?_self (hnull.trans hd)
    rwa [hbase hd] at hself

/-- Anything but `null` has a text, which is the one that is printed. -/
theorem convert?_string (hnull : d.isNull = false) :
    d.convert? .string = some (.string d.display) := by
  cases d with
  | null => cases hnull
  | _ => rfl

/-- The text of a truth value is read as this truth value. -/
theorem readsTrue_display (b : Bool) : readsTrue (bool b).display = b := by
  cases b <;> decide

end Datum

-- ---------------------------------------------------------------------------
-- Values
-- ---------------------------------------------------------------------------

namespace Value

variable {v w : Value} {t : Ty} {f : Failure}

/-- A target that takes `null`, or takes this value because it is not `null`. -/
theorem excluded_eq_false_iff :
    (v.isNull && !t.nullable) = false ↔ (v.isNull = true → t.nullable = true) := by
  cases v.isNull <;> cases t.nullable <;> decide

/-- **A conversion gives** the datum that was converted, under the target type. -/
theorem cast_eq_ok_iff : v.cast t = .ok w ↔
    (v.isNull = true → t.nullable = true) ∧ v.datum.convert? t.base = some w.datum ∧ w.ty = t := by
  rw [← excluded_eq_false_iff, cast]
  -- a null that the target excludes, or a datum with a counterpart or without one
  cases v.isNull && !t.nullable with
  | true => exact ⟨nofun, nofun⟩
  | false =>
    rw [if_neg Bool.false_ne_true]
    cases v.datum.convert? t.base with
    | none => exact ⟨nofun, nofun⟩
    | some d =>
      constructor
      · rintro ⟨⟩
        exact ⟨rfl, rfl, rfl⟩
      · rintro ⟨-, ⟨⟩, rfl⟩
        rfl

/-- **A conversion fails** on a `null` that the target excludes, and on a datum that has no
counterpart there. -/
theorem cast_eq_error_iff : v.cast t = .error f ↔
    f = .badCast t v.datum ∧
      (v.isNull = true ∧ t.nullable = false ∨ v.datum.convert? t.base = none) := by
  -- a null fails if the target excludes it; anything else fails if it has no counterpart
  cases hnull : v.isNull with
  | true =>
    rw [cast, hnull, Bool.true_and, Datum.convert?_null hnull]
    cases t.nullable with
    | true => exact ⟨nofun, nofun⟩
    | false =>
      constructor
      · rintro ⟨⟩
        exact ⟨rfl, .inl ⟨rfl, rfl⟩⟩
      · rintro ⟨rfl, -⟩
        rfl
  | false =>
    rw [cast, hnull, Bool.false_and, if_neg Bool.false_ne_true]
    cases v.datum.convert? t.base with
    | some d => exact ⟨nofun, nofun⟩
    | none =>
      constructor
      · rintro ⟨⟩
        exact ⟨rfl, .inr rfl⟩
      · rintro ⟨rfl, -⟩
        rfl

end Value

/-- The laws of conversions. -/
structure ConversionLaws (v : Value) (t : Ty) : Prop where
  /-- There is one way to fail, which tells the target type and the datum. -/
  fails : ∀ f, v.cast t = .error f → f = .badCast t v.datum
  /-- What a conversion gives has just the target type. It is `null` if the value was, and then the
  target takes `null`; and else it is of the base type of the target. -/
  gives : ∀ w, v.cast t = .ok w → w.ty = t ∧ (w.isNull = true ↔ v.isNull = true) ∧
    (w.isNull = true → t.nullable = true) ∧ (w.isNull = false → w.datum.ty.base = t.base)
  idempotent : ∀ w, v.cast t = .ok w → w.cast t = .ok w
  /-- A target that takes `null` as well makes no difference to what was converted. -/
  nullable : ∀ w, v.cast t = .ok w → w.cast t.orNull = .ok ⟨w.datum, t.orNull⟩
  null : v.isNull = true → ((∃ f, v.cast t = .error f) ↔ t.nullable = false)
  /-- A truth value is read from its text, whichever types take `null`. -/
  bool : ∀ b nullable nullable', v.datum = .bool b → ∃ w,
    v.cast ⟨.string, nullable⟩ = .ok w ∧ w.cast ⟨.bool, nullable'⟩ = .ok ⟨.bool b, .bool, nullable'⟩
  /-- Anything but `null` has a text, the one that is printed. -/
  string : ∀ nullable, v.isNull = false →
    v.cast ⟨.string, nullable⟩ = .ok ⟨.string v.display, .string, nullable⟩

section

variable {v w : Value} {t : Ty}

theorem isNull_of_cast (h : v.cast t = .ok w) : w.isNull = v.isNull :=
  (Datum.convert?_eq_some (Value.cast_eq_ok_iff.mp h).2.1).1

/-- Anything but null has a text, which is the one that is printed. -/
theorem cast_string (nullable : Bool) (hnull : v.isNull = false) :
    v.cast ⟨.string, nullable⟩ = .ok ⟨.string v.display, .string, nullable⟩ :=
  Value.cast_eq_ok_iff.mpr
    ⟨fun h => absurd (hnull.symm.trans h) Bool.false_ne_true, Datum.convert?_string hnull, rfl⟩

end

/-- **A conversion is exact and idempotent.** -/
theorem conversion_is_exact (v : Value) (t : Ty) : ConversionLaws v t where
  fails _ h := (Value.cast_eq_error_iff.mp h).1
  gives w h := by
    obtain ⟨htakes, hconvert, hty⟩ := Value.cast_eq_ok_iff.mp h
    obtain ⟨-, hbase⟩ := Datum.convert?_eq_some hconvert
    rw [isNull_of_cast h]
    exact ⟨hty, Iff.rfl, htakes, hbase⟩
  idempotent w h := by
    obtain ⟨htakes, hconvert, hty⟩ := Value.cast_eq_ok_iff.mp h
    rw [← isNull_of_cast h] at htakes
    exact Value.cast_eq_ok_iff.mpr ⟨htakes, Datum.convert?_idem hconvert, hty⟩
  nullable w h := by
    obtain ⟨-, hconvert, -⟩ := Value.cast_eq_ok_iff.mp h
    exact Value.cast_eq_ok_iff.mpr ⟨fun _ => rfl, Datum.convert?_idem hconvert, rfl⟩
  null hnull := by
    simp only [Value.cast_eq_error_iff, Datum.convert?_null hnull, hnull, exists_eq_left, true_and,
      reduceCtorEq, or_false]
  bool b nullable nullable' h := by
    have hnull : v.isNull = false := by rw [Value.isNull, h]; rfl
    refine ⟨_, cast_string nullable hnull,
      Value.cast_eq_ok_iff.mpr ⟨fun h => absurd h Bool.false_ne_true, ?_, rfl⟩⟩
    -- the text is the display of the truth value, which is read back
    rw [Value.display, h]
    exact congrArg (some ∘ Datum.bool) (Datum.readsTrue_display b)
  string nullable hnull := cast_string nullable hnull

end NullScript
