/-!
# NullScript — types

A type is a base type with a mark that says whether `null` belongs to it. `int` and `int?` are
different types: what may be null never flows into a slot that may not.
-/

namespace NullScript

/-- The base types. `void` is the type of `null` and of functions that return nothing. -/
inductive Base where
  | int | double | string | bool | void
deriving DecidableEq, Repr

/-- The word that names the base type. -/
def Base.keyword : Base → String
  | .int => "int"
  | .double => "double"
  | .string => "string"
  | .bool => "bool"
  | .void => "void"

/-- A base type and its nullability. -/
structure Ty where
  base : Base
  nullable : Bool
deriving DecidableEq, Repr

namespace Ty

def int : Ty := ⟨.int, false⟩
def double : Ty := ⟨.double, false⟩
def string : Ty := ⟨.string, false⟩
def bool : Ty := ⟨.bool, false⟩

/-- The type of the literal `null`, and what a function returns that declares nothing. -/
def void : Ty := ⟨.void, true⟩

/-- The same base type, `null` included. -/
def orNull (t : Ty) : Ty := { t with nullable := true }

/-- The same base type, `null` excluded. -/
def present (t : Ty) : Ty := { t with nullable := false }

def isVoid (t : Ty) : Bool := t.base = .void

/-- May a value of type `t` be stored in a slot of type `slot`? The base types agree, or the value
is of type `void` and the slot nullable; and a nullable type needs a nullable slot. -/
def fits (t slot : Ty) : Bool :=
  (t.base = slot.base || (slot.nullable && t.base = .void)) && (!t.nullable || slot.nullable)

/-- The type as messages show it: `?` marks a nullable type, and `void` never carries it. -/
def display (t : Ty) : String :=
  if t.nullable && !t.isVoid then t.base.keyword ++ "?" else t.base.keyword

end Ty

end NullScript
