import NullScript.Ty
import NullScript.Double.Text

/-!
# NullScript — values

A value is a datum tagged with a type. The tag may say more than the datum (`3` as an `int?`) and
decides what may be done with the value; a value whose tag agrees with its datum is *consistent*.
-/

namespace NullScript

/-- What a literal denotes and what a value holds. -/
inductive Datum where
  | null
  | int (n : Int64)
  | double (x : Float)
  | string (s : String)
  | bool (b : Bool)
deriving DecidableEq

namespace Datum

/-- The datum as it is printed. -/
def display : Datum → String
  | .null => "null"
  | .int n => Integer.display n
  | .double x => Double.display x
  | .string s => s
  | .bool b => if b then "true" else "false"

def isNull : Datum → Bool
  | .null => true
  | _ => false

/-- The type of a literal with this datum. -/
def ty : Datum → Ty
  | .null => .void
  | .int _ => .int
  | .double _ => .double
  | .string _ => .string
  | .bool _ => .bool

/-- Equality as the language has it. Doubles are compared as numbers: what is no number differs
from itself, and the two zeros are equal. -/
def same : Datum → Datum → Bool
  | .null, .null => true
  | .int m, .int n => m == n
  | .double x, .double y => x == y
  | .string s, .string t => s == t
  | .bool a, .bool b => a == b
  | _, _ => false

end Datum

/-- A datum and the type under which it is known. -/
structure Value where
  datum : Datum
  ty : Ty
deriving DecidableEq

namespace Value

def int (n : Int64) : Value := ⟨.int n, .int⟩
def double (x : Float) : Value := ⟨.double x, .double⟩
def string (s : String) : Value := ⟨.string s, .string⟩
def bool (b : Bool) : Value := ⟨.bool b, .bool⟩

/-- The literal `null`. -/
def void : Value := ⟨.null, .void⟩

/-- A null that belongs to the nullable form of a type. -/
def nullOf (t : Ty) : Value := ⟨.null, t.orNull⟩

/-- The value of a literal. -/
def ofDatum (d : Datum) : Value := ⟨d, d.ty⟩

def isNull (v : Value) : Bool := v.datum.isNull

/-- May the value be stored in a slot of the type? Only its tag counts. -/
def fits (v : Value) (slot : Ty) : Bool := v.ty.fits slot

/-- The same datum, tagged as present. -/
def present (v : Value) : Value := { v with ty := v.ty.present }

/-- The value as it is printed. -/
def display (v : Value) : String := v.datum.display

/-- The name of the value's base type, as a running program sees it. -/
def typeName (v : Value) : String :=
  match v.ty.base with
  | .int => "INT"
  | .double => "DOUBLE"
  | .string => "STRING"
  | .bool => "BOOL"
  | .void => "VOID"

end Value

end NullScript
