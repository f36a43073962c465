import NullScript.Failure

/-!
# NullScript — conversion

`cast v t` is the value of `v as t`. Everything has a text; numbers convert into each other; a text
is read as a number, or as a truth value, where only `true` in any case is true. `null` stays
`null` and needs a nullable target. The result carries exactly the target type.
-/

namespace NullScript

/-- Is the text the word `true`, in upper or lower case? -/
def readsTrue (s : String) : Bool := s.toList.map Char.toLower = ['t', 'r', 'u', 'e']

/-- The datum in a base type, if it has a counterpart there. `null` has one in each; nothing else
has one in `void`. -/
def Datum.convert? : Datum → Base → Option Datum
  | .null, _ => some .null
  | _, .void => none
  | d, .string => some (.string d.display)
  | .int n, .int => some (.int n)
  | .double x, .int => some (.int (Double.toInt64 x))
  | .string s, .int => (Integer.parse? s.toList).map .int
  | .int n, .double => some (.double (Double.ofInt64 n))
  | .double x, .double => some (.double x)
  | .string s, .double => (Double.parse? s.toList).map .double
  | .bool b, .bool => some (.bool b)
  | .string s, .bool => some (.bool (readsTrue s))
  | _, _ => none

/-- The value converted to the type. -/
def Value.cast (v : Value) (target : Ty) : Except Failure Value :=
  if v.isNull && !target.nullable then .error (.badCast target v.datum)
  else
    match v.datum.convert? target.base with
    | some d => .ok ⟨d, target⟩
    | none => .error (.badCast target v.datum)

end NullScript
