import NullScript.Program
import NullScript.Streams

/-!
# NullScript — calling conventions and built-in functions

A parameter takes values that fit into a slot of its type, or any value. Arguments are checked in
number first and then one by one. Four functions are built in; two of them use the streams.
-/

namespace NullScript

/-- What a parameter takes. -/
inductive ParameterKind where
  | slot (t : Ty)
  | any
deriving DecidableEq, Repr

namespace ParameterKind

/-- Does the parameter take the value? -/
def takes : ParameterKind → Value → Bool
  | .slot t, v => v.fits t
  | .any, _ => true

/-- What is said that the parameter accepts. -/
def accepted : ParameterKind → Accepted
  | .slot t => .slot t
  | .any => .any

def display (p : ParameterKind) : String := p.accepted.display

end ParameterKind

/-- Checks values against as many parameters: the first one that its parameter does not take is of
the wrong type. -/
def checkEach : List ParameterKind → List Value → Except Failure Unit
  | p :: ps, v :: vs => if p.takes v then checkEach ps vs else .error (.mismatch p.accepted v)
  | _, _ => .ok ()

/-- Checks the number of arguments, then each argument. -/
def checkArguments (ps : List ParameterKind) (vs : List Value) : Except Failure Unit :=
  if ps.length ≠ vs.length then .error (.argumentCount ps.length vs.length) else checkEach ps vs

/-- The parameters of a declared function. -/
def Function.parameterKinds (f : Function) : List ParameterKind :=
  f.parameters.map fun p => .slot p.type

/-- The functions that every program can call. -/
inductive Builtin where
  /-- Writes a text on a line of its own. -/
  | print
  /-- Reads a line; at the end of the input there is none. -/
  | readInput
  /-- Does the text denote an integer? -/
  | isNumber
  /-- The name of the argument's base type. -/
  | typeName
deriving DecidableEq, Repr

namespace Builtin

/-- All built-in functions. -/
def all : List Builtin := [.print, .readInput, .isNumber, .typeName]

def name : Builtin → String
  | .print => "print"
  | .readInput => "readInput"
  | .isNumber => "isNumber"
  | .typeName => "type"

def parameterKinds : Builtin → List ParameterKind
  | .print => [.slot Ty.string.orNull]
  | .readInput => []
  | .isNumber => [.slot .string]
  | .typeName => [.any]

def returns : Builtin → Ty
  | .print => .void
  | .readInput => Ty.string.orNull
  | .isNumber => .bool
  | .typeName => .string

/-- The built-in function of the name. -/
def find? (name : String) : Option Builtin := all.find? fun b => b.name = name

/-- The failure of arguments that are none of what the function expects. -/
def argumentMismatch (expected : Ty) (arguments : List Value) : Failure :=
  .typeMismatch (.slot expected) (arguments.head?.map Value.ty)

/-- Writes the argument on a line. -/
def runPrint (arguments : List Value) (s : Streams) : Except Failure Value × Streams :=
  match arguments with
  | [v] =>
    match s.output.writeLine v.display with
    | (.ok (), output) => (.ok .void, { s with output })
    | (.error e, output) => (.error (.stream e), { s with output })
  | _ => (.error (argumentMismatch Ty.string.orNull arguments), s)

/-- Reads a line. -/
def runReadInput (s : Streams) : Except Failure Value × Streams :=
  match s.input.readLine with
  | (.ok (some line), input) => (.ok ⟨.string line, Ty.string.orNull⟩, { s with input })
  | (.ok none, input) => (.ok (.nullOf .string), { s with input })
  | (.error e, input) => (.error (.stream e), { s with input })

/-- Does the argument denote an integer? -/
def runIsNumber (arguments : List Value) : Except Failure Value :=
  match arguments with
  | [⟨.string text, _⟩] => .ok (.bool (Integer.parse? text.toList).isSome)
  | _ => .error (argumentMismatch .string arguments)

/-- The name of the first argument's type. -/
def runTypeName (arguments : List Value) : Except Failure Value :=
  match arguments with
  | v :: _ => .ok (.string v.typeName)
  | [] => .error (.argumentCount 1 0)

/-- Runs the function. The arguments need not have been checked. -/
def run (b : Builtin) (arguments : List Value) (s : Streams) : Except Failure Value × Streams :=
  match b with
  | .print => runPrint arguments s
  | .readInput => runReadInput s
  | .isNumber => (runIsNumber arguments, s)
  | .typeName => (runTypeName arguments, s)

end Builtin

end NullScript
