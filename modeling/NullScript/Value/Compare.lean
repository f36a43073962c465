import NullScript.Failure

/-!
# NullScript — comparison

Two values can be compared if the type of one fits into a slot of the other's. Equality compares
the data, and a null side by presence alone, whatever the types. The order is that of numbers:
integers are compared as doubles, and what is no number comes last and equals itself.
-/

namespace NullScript

/-- What an order decides about each operator. -/
def ComparisonOp.holds : ComparisonOp → Ordering → Bool
  | .equal, o => o.isEq
  | .notEqual, o => o.isNe
  | .less, o => o.isLT
  | .lessOrEqual, o => o.isLE
  | .greater, o => o.isGT
  | .greaterOrEqual, o => o.isGE

namespace Value

/-- The number by which a value is ordered. -/
def asOrdered (v : Value) : Except Failure Float :=
  if v.ty.nullable then .error (.mismatch .number v)
  else
    match v.datum with
    | .int n => .ok (Double.ofInt64 n)
    | .double x => .ok x
    | _ => .error (.mismatch .number v)

/-- Is the type of one side good for the other's slots? -/
def comparable (left right : Value) : Bool := left.fits right.ty || right.fits left.ty

/-- Equality: of presence if a side is null, of data if the types allow a comparison. -/
def equal (left right : Value) : Except Failure Bool :=
  if left.isNull || right.isNull then .ok (left.isNull == right.isNull)
  else if left.comparable right then .ok (left.datum.same right.datum)
  else .error (.mismatch (.slot left.ty) right)

/-- The order of two numbers. -/
def order (left right : Value) : Except Failure Ordering :=
  if left.comparable right then
    left.asOrdered.bind fun x => right.asOrdered.map fun y => Double.order x y
  else .error (.mismatch (.slot left.ty) right)

/-- What a comparison operator answers. -/
def compare (left : Value) (op : ComparisonOp) (right : Value) : Except Failure Bool :=
  match op with
  | .equal => left.equal right
  | .notEqual => (left.equal right).map (!·)
  | op => (left.order right).map op.holds

end Value

end NullScript
