import NullScript.Value.Operand

/-!
# NullScript — arithmetic

The left operand decides what an operator means and must be tagged as present; the right operand
must be of the same base type. Integers wrap around, division truncates towards zero, and dividing
by zero fails for doubles as for integers.
-/

namespace NullScript.Value

/-- Sum, difference and concatenation. -/
def additive (left : Value) (op : AdditiveOp) (right : Value) : Except Failure Value :=
  if left.ty.nullable then .error (.mismatch .numberOrText left)
  else
    match left.datum, op with
    | .int a, .plus => right.asInt.map fun b => .int (a + b)
    | .int a, .minus => right.asInt.map fun b => .int (a - b)
    | .double a, .plus => right.asDouble.map fun b => .double (a + b)
    | .double a, .minus => right.asDouble.map fun b => .double (a - b)
    | .string a, .plus => right.asString.map fun b => .string (a ++ b)
    | .string _, .minus => .error (.unsupported (.additive .minus left.ty))
    | _, _ => .error (.mismatch .numberOrText left)

/-- Product, quotient and remainder of integers. -/
def multiplyInt (a : Int64) (op : MultiplicativeOp) (b : Int64) : Except Failure Int64 :=
  match op with
  | .times => .ok (a * b)
  | .divide => if b = 0 then .error .divisionByZero else .ok (a / b)
  | .remainder => if b = 0 then .error .divisionByZero else .ok (a % b)

/-- Product, quotient and remainder of doubles. -/
def multiplyDouble (a : Float) (op : MultiplicativeOp) (b : Float) : Except Failure Float :=
  match op with
  | .times => .ok (a * b)
  | .divide => if b == 0.0 then .error .divisionByZero else .ok (a / b)
  | .remainder => if b == 0.0 then .error .divisionByZero else .ok (Double.remainder a b)

/-- Product, quotient and remainder. -/
def multiplicative (left : Value) (op : MultiplicativeOp) (right : Value) :
    Except Failure Value :=
  if left.ty.nullable then .error (.mismatch .number left)
  else
    match left.datum with
    | .int a => (right.asInt.bind (multiplyInt a op)).map .int
    | .double a => (right.asDouble.bind (multiplyDouble a op)).map .double
    | _ => .error (.mismatch .number left)

/-- The number with the opposite sign. -/
def negate (v : Value) : Except Failure Value :=
  if v.ty.nullable then .error (.mismatch .number v)
  else
    match v.datum with
    | .int n => .ok (.int (-n))
    | .double x => .ok (.double (-x))
    | _ => .error (.mismatch .number v)

/-- The operators that stand before their operand. -/
def unary (op : UnaryOp) (v : Value) : Except Failure Value :=
  match op with
  | .not => v.asBool.map fun b => .bool (!b)
  | .minus => v.negate

end NullScript.Value
