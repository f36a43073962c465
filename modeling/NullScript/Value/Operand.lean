import NullScript.Failure

/-!
# NullScript — operands

An operation takes an operand of one base type that is known to be present: the datum has to be of
that type, and the tag has to fit into a slot of it.
-/

namespace NullScript.Value

/-- The integer of an `int` operand. -/
def asInt (v : Value) : Except Failure Int64 :=
  match v.datum with
  | .int n => if v.fits .int then .ok n else .error (.mismatch (.slot .int) v)
  | _ => .error (.mismatch (.slot .int) v)

/-- The number of a `double` operand. -/
def asDouble (v : Value) : Except Failure Float :=
  match v.datum with
  | .double x => if v.fits .double then .ok x else .error (.mismatch (.slot .double) v)
  | _ => .error (.mismatch (.slot .double) v)

/-- The text of a `string` operand. -/
def asString (v : Value) : Except Failure String :=
  match v.datum with
  | .string s => if v.fits .string then .ok s else .error (.mismatch (.slot .string) v)
  | _ => .error (.mismatch (.slot .string) v)

/-- The truth value of a `bool` operand: of a condition, or of a side of a logical operator. -/
def asBool (v : Value) : Except Failure Bool :=
  match v.datum with
  | .bool b => if v.fits .bool then .ok b else .error (.mismatch (.slot .bool) v)
  | _ => .error (.mismatch (.slot .bool) v)

end NullScript.Value
