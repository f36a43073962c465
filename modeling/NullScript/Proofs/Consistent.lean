import NullScript.Proofs.Invariant

/-!
# NullScript — consistent values

The type of a value should agree with its datum: `Value.Consistent` says so. Every operation of
the language gives a consistent value, whatever its operands are
(`Value.closedUnderOperations_consistent`), and a consistent value that fits a type without `null`
is a datum of that type (`Value.Consistent.of_fits`).
-/

namespace NullScript

namespace Value

/-- A null has a nullable type, and any other datum is of its own base type. -/
def Consistent (v : Value) : Prop :=
  match v.datum with
  | .null => v.ty.nullable = true
  | .int _ => v.ty.base = .int
  | .double _ => v.ty.base = .double
  | .string _ => v.ty.base = .string
  | .bool _ => v.ty.base = .bool

variable {u v w : Value}

/-- A literal is consistent with its own type. -/
theorem consistent_ofDatum (d : Datum) : (ofDatum d).Consistent := by
  cases d <;> rfl

/-- A consistent null is of a nullable type. -/
theorem Consistent.nullable (h : v.Consistent) (hnull : v.isNull = true) :
    v.ty.nullable = true := by
  obtain ⟨d, t⟩ := v
  cases d with
  | null => exact h
  | _ => cases hnull

/-- Any other consistent value is a datum of its base type. -/
theorem Consistent.base_eq (h : v.Consistent) (hnull : v.isNull = false) :
    v.datum.ty.base = v.ty.base := by
  obtain ⟨d, t⟩ := v
  cases d with
  | null => cases hnull
  | _ => exact h.symm

/-- A null of a nullable type is consistent. -/
theorem consistent_of_nullable (hnull : v.isNull = true) (h : v.ty.nullable = true) :
    v.Consistent := by
  obtain ⟨d, t⟩ := v
  cases d with
  | null => exact h
  | _ => cases hnull

/-- A datum of its base type is consistent, nullable or not. -/
theorem consistent_of_base_eq (hnull : v.isNull = false) (h : v.datum.ty.base = v.ty.base) :
    v.Consistent := by
  obtain ⟨d, t⟩ := v
  cases d with
  | null => cases hnull
  | _ => exact h.symm

/-- A value that is there may be given the type without null. -/
theorem Consistent.present (h : v.Consistent) (hnull : v.isNull = false) :
    v.present.Consistent :=
  consistent_of_base_eq hnull (h.base_eq hnull)

/-- A consistent value that fits a type without `null` is a datum of its base type. -/
theorem Consistent.of_fits (h : v.Consistent) {t : Ty} (hfits : v.fits t = true)
    (ht : t.nullable = false) : v.isNull = false ∧ v.datum.ty.base = t.base := by
  simp only [fits, Ty.fits, ht, Bool.false_and, Bool.or_false, Bool.and_eq_true,
    decide_eq_true_eq, Bool.not_eq_true'] at hfits
  obtain ⟨hbase, hpresent⟩ := hfits
  -- the type of the value is not nullable, so the value is not null
  have hnull : v.isNull = false := by
    cases hv : v.isNull with
    | false => rfl
    | true => rw [h.nullable hv] at hpresent; cases hpresent
  exact ⟨hnull, (h.base_eq hnull).trans hbase⟩

theorem consistent_void : void.Consistent := rfl

theorem consistent_int (n : Int64) : (int n).Consistent := rfl

theorem consistent_double (x : Float) : (double x).Consistent := rfl

theorem consistent_string (s : String) : (string s).Consistent := rfl

theorem consistent_bool (b : Bool) : (bool b).Consistent := rfl

/-- A result is consistent if it is made by a function with consistent values only. -/
theorem consistent_of_map {α : Type} {r : Except Failure α} {g : α → Value}
    (h : r.map g = .ok u) (hg : ∀ a, (g a).Consistent) : u.Consistent := by
  cases r with
  | error e => cases h
  | ok a =>
    cases h
    exact hg a

/-- Sums and differences are consistent, whatever the operands are. -/
theorem consistent_of_additive {op : AdditiveOp} (h : v.additive op w = .ok u) :
    u.Consistent := by
  unfold additive at h
  split at h
  · cases h
  · split at h
    -- integers and doubles, each added and subtracted; strings only added
    · exact consistent_of_map h fun _ => consistent_int _
    · exact consistent_of_map h fun _ => consistent_int _
    · exact consistent_of_map h fun _ => consistent_double _
    · exact consistent_of_map h fun _ => consistent_double _
    · exact consistent_of_map h fun _ => consistent_string _
    · cases h
    · cases h

/-- Products, quotients and remainders are consistent, whatever the operands are. -/
theorem consistent_of_multiplicative {op : MultiplicativeOp}
    (h : v.multiplicative op w = .ok u) : u.Consistent := by
  unfold multiplicative at h
  split at h
  · cases h
  · split at h
    · exact consistent_of_map h fun _ => consistent_int _
    · exact consistent_of_map h fun _ => consistent_double _
    · cases h

/-- Negations are consistent, whatever the operand is. -/
theorem consistent_of_unary {op : UnaryOp} (h : v.unary op = .ok u) : u.Consistent := by
  cases op with
  | not => exact consistent_of_map h fun _ => consistent_bool _
  | minus =>
    change v.negate = .ok u at h
    unfold negate at h
    split at h
    · cases h
    · split at h
      · cases h
        exact consistent_int _
      · cases h
        exact consistent_double _
      · cases h

end Value

/-- Only `null` is converted to `null`; anything else becomes a datum of the base type. -/
theorem Datum.convert?_eq_some {d d' : Datum} {base : Base} (h : d.convert? base = some d') :
    d'.isNull = d.isNull ∧ (d.isNull = false → d'.ty.base = base) := by
  unfold convert? at h
  split at h
  -- null stays null, nothing becomes `void`, and anything has a text
  · cases h
    exact ⟨rfl, fun hnull => by cases hnull⟩
  · cases h
  · rename_i hnull
    cases h
    refine ⟨?_, fun _ => rfl⟩
    cases d with
    | null => exact (hnull rfl).elim
    | _ => rfl
  -- numbers and truth values have a counterpart or none; a text is read as one if it can be
  all_goals first
    | cases h; done
    | cases h; exact ⟨rfl, fun _ => rfl⟩
    | obtain ⟨n, -, rfl⟩ := Option.map_eq_some_iff.mp h
      exact ⟨rfl, fun _ => rfl⟩

namespace Value

variable {u v w : Value}

/-- Conversions are consistent, whatever the operand is. -/
theorem consistent_of_cast {target : Ty} (h : v.cast target = .ok u) : u.Consistent := by
  unfold cast at h
  split at h
  · cases h
  · rename_i hnullable
    split at h
    · rename_i d hd
      cases h
      obtain ⟨hnull, hbase⟩ := Datum.convert?_eq_some hd
      -- null stays null, which the target allows; anything else becomes a datum of the target
      cases hv : v.datum.isNull with
      | true =>
        refine consistent_of_nullable (hnull.trans hv) ?_
        simpa [isNull, hv] using hnullable
      | false => exact consistent_of_base_eq (hnull.trans hv) (hbase hv)
    · cases h

/-- The results of the built-in functions are consistent, whatever the arguments are. -/
theorem consistent_of_run (b : Builtin) {vs : List Value} {s : Streams}
    (h : (b.run vs s).1 = .ok u) : u.Consistent := by
  cases b with
  | print =>
    simp only [Builtin.run, Builtin.runPrint] at h
    split at h
    · split at h
      · cases h
        rfl
      · cases h
    · cases h
  | readInput =>
    simp only [Builtin.run, Builtin.runReadInput] at h
    split at h
    · cases h
      rfl
    · cases h
      rfl
    · cases h
  | isNumber =>
    simp only [Builtin.run, Builtin.runIsNumber] at h
    split at h
    · cases h
      rfl
    · cases h
  | typeName =>
    simp only [Builtin.run, Builtin.runTypeName] at h
    split at h
    · cases h
      rfl
    · cases h

/-- **Every operation of the language gives consistent values.** -/
theorem closedUnderOperations_consistent : ClosedUnderOperations Consistent where
  literal := consistent_ofDatum
  present _ hv hnull := hv.present hnull
  additive _ _ _ _ _ _ h := consistent_of_additive h
  multiplicative _ _ _ _ _ _ h := consistent_of_multiplicative h
  cast _ _ _ _ h := consistent_of_cast h
  unary _ _ _ _ h := consistent_of_unary h
  builtin b _ _ _ _ h := consistent_of_run b h

end Value

end NullScript
