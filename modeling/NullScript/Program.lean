import NullScript.Operator
import NullScript.Value

/-!
# NullScript — programs

A program is a list of statements and a table of functions. Operators of one level are kept flat:
a chain has a first operand and the others in the order of the source.
-/

namespace NullScript

/-- An expression. -/
inductive Expr where
  /-- `a || b || …` -/
  | disjunction (first : Expr) (others : List Expr)
  /-- `a && b && …` -/
  | conjunction (first : Expr) (others : List Expr)
  | comparison (left : Expr) (op : ComparisonOp) (right : Expr)
  /-- `a ?: b`, which is `b` if `a` is null. -/
  | orElse (left right : Expr)
  /-- `a + b - …` -/
  | additive (first : Expr) (others : List (AdditiveOp × Expr))
  /-- `a * b / …` -/
  | multiplicative (first : Expr) (others : List (MultiplicativeOp × Expr))
  /-- `a as T` -/
  | cast (operand : Expr) (target : Ty)
  | unary (op : UnaryOp) (operand : Expr)
  | literal (datum : Datum)
  | identifier (name : String)
  | call (function : String) (arguments : List Expr)

/-- A statement. A block is a list of statements. -/
inductive Statement where
  | branch (condition : Expr) (body : List Statement) (otherwise : Option (List Statement))
  | loop (condition : Expr) (body : List Statement)
  /-- `return`, with or without a value. -/
  | giveBack (value : Option Expr)
  /-- An expression that is evaluated for its effect. -/
  | perform (expression : Expr)
  /-- `target = value`. Only a variable can be a target; a program text has no other. -/
  | assign (target : Expr) (value : Expr)
  /-- `var T name = value` or `const T name = value`. -/
  | declare (isConst : Bool) (name : String) (type : Ty) (value : Option Expr)

/-- A parameter of a function. -/
structure Parameter where
  name : String
  type : Ty
deriving DecidableEq, Repr

/-- A function that a program declares. -/
structure Function where
  name : String
  parameters : List Parameter
  returns : Ty
  body : List Statement

/-- A table of functions, without order: no two have the same name. -/
abbrev FunctionTable := List Function

namespace FunctionTable

/-- The function of the name. -/
def find? (table : FunctionTable) (name : String) : Option Function :=
  List.find? (fun f => f.name = name) table

/-- Is there a function of the name? -/
def declares (table : FunctionTable) (name : String) : Bool := (table.find? name).isSome

/-- The table with a function put in, in place of the one that had its name. -/
def put (table : FunctionTable) (f : Function) : FunctionTable :=
  f :: table.filter fun g => g.name ≠ f.name

/-- The functions in the order of their names. Names are ordered by their characters' code points,
which is also the order of their bytes in UTF-8. -/
def byName (table : FunctionTable) : List Function :=
  table.mergeSort fun f g => f.name ≤ g.name

end FunctionTable

/-- A program. -/
structure Program where
  statements : List Statement
  functions : FunctionTable

end NullScript
