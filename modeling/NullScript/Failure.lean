import NullScript.Operator
import NullScript.Value

/-!
# NullScript — failures of a running program

Each way in which a running program can fail is a constructor that holds what was involved;
`Failure.message` is the only place that puts it into words.
-/

namespace NullScript

/-- What an operation would have accepted. -/
inductive Accepted where
  /-- Values that fit into a slot of the type. -/
  | slot (t : Ty)
  /-- Any value. -/
  | any
  /-- An `int` or a `double`. -/
  | number
  /-- An `int`, a `double` or a `string`. -/
  | numberOrText
deriving DecidableEq, Repr

def Accepted.display : Accepted → String
  | .slot t => t.display
  | .any => "any"
  | .number => "int or double"
  | .numberOrText => "int, double or string"

/-- What goes wrong between a program and the world outside. -/
inductive StreamFault where
  /-- A line of the input is not UTF-8. -/
  | notText
  /-- The input broke off. -/
  | inputBroken
  /-- The output takes no more. -/
  | outputFull
  /-- The output could not be handed on. -/
  | flushFailed
deriving DecidableEq, Repr

def StreamFault.display : StreamFault → String
  | .notText => "stream did not contain valid UTF-8"
  | .inputBroken => "input broken"
  | .outputFull => "sink full"
  | .flushFailed => "flush failed"

/-- An operation that has no meaning for its operand, whatever the other operand is. -/
inductive Unsupported where
  /-- An additive operator applied to a left operand of the type. -/
  | additive (op : AdditiveOp) (left : Ty)
  /-- An assignment to something that is no variable. -/
  | assignment
deriving DecidableEq, Repr

/-- The symbol of the operation. -/
def Unsupported.operation : Unsupported → String
  | .additive op _ => op.symbol
  | .assignment => "="

/-- What stands to its left. -/
def Unsupported.left : Unsupported → String
  | .additive _ left => left.display
  | .assignment => "expression"

/-- Why a program stopped. -/
inductive Failure where
  /-- A value of the wrong type; the type is missing if there was no value at all. -/
  | typeMismatch (expected : Accepted) (found : Option Ty)
  | unknownVariable (name : String)
  | unknownFunction (name : String)
  | argumentCount (expected found : Nat)
  /-- A datum that has no counterpart in the type. -/
  | badCast (target : Ty) (datum : Datum)
  | divisionByZero
  | constantAssigned (name : String)
  /-- A function with a result type ended without `return`. -/
  | missingReturn (function : String)
  /-- A function took the name of a built-in one. -/
  | builtinRedefined (function : String)
  | unsupported (operation : Unsupported)
  | duplicateVariable (name : String)
  /-- A call went beyond the limit on nested calls. -/
  | callTooDeep (function : String) (limit : Nat)
  | stream (fault : StreamFault)
deriving DecidableEq

namespace Failure

/-- The type of a value that was found, or that there was none. -/
def displayFound : Option Ty → String
  | some t => t.display
  | none => "nothing"

/-- The failure in words. -/
def message : Failure → String
  | .typeMismatch expected found =>
    s!"Invalid type: expected {expected.display}, found {displayFound found}."
  | .unknownVariable name => "Variable '" ++ name ++ "' not found."
  | .unknownFunction name => "Function '" ++ name ++ "' not found."
  | .argumentCount expected found =>
    s!"Invalid number of arguments: expected {expected}, found {found}."
  | .badCast target datum => "Cannot cast '" ++ datum.display ++ "' to " ++ target.display ++ "."
  | .divisionByZero => "Division by zero."
  | .constantAssigned name => "Cannot assign to immutable variable '" ++ name ++ "'."
  | .missingReturn function =>
    "Function '" ++ function ++ "' finished without returning a value."
  | .builtinRedefined function =>
    "Cannot override standard library function '" ++ function ++ "'."
  | .unsupported operation =>
    "Operation '" ++ operation.operation ++ "' is not supported for " ++ operation.left ++ "."
  | .duplicateVariable name =>
    "Variable '" ++ name ++ "' is already declared in this scope."
  | .callTooDeep function limit =>
    "Call to '" ++ function ++ s!"' exceeds the maximum call depth of {limit}."
  | .stream fault => s!"I/O failure: {fault.display}."

/-- An operand of the wrong type. -/
def mismatch (expected : Accepted) (v : Value) : Failure := .typeMismatch expected (some v.ty)

end Failure

end NullScript
