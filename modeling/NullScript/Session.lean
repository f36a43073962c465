import NullScript.Eval.Statement

/-!
# NullScript — sessions

A session keeps the declared functions and the state of a running program, so that one program
can be run after the other.
-/

namespace NullScript

/-- What is kept between programs. -/
structure Session where
  functions : FunctionTable
  state : State

/-- How running a program ended. -/
structure Interpretation where
  /-- The functions that were left out because a built-in one has their name. -/
  redefined : List Failure
  /-- The failure that stopped the program, if one did. -/
  failure : Option Failure
  session : Session

namespace Session

/-- A session in which nothing has been declared. -/
def new (streams : Streams) : Session := ⟨[], ⟨.empty, 0, streams⟩⟩

/-- What the session's expressions and statements are run with. -/
def setting (s : Session) (maxDepth : Nat) : Setting := ⟨s.functions, maxDepth⟩

/-- Declares functions in the order of a list. One with the name of a built-in function is left
out; any other takes the place of an earlier one of its name. -/
def register : FunctionTable → List Function → List Failure × FunctionTable
  | table, [] => ([], table)
  | table, f :: fs =>
    match Builtin.find? f.name with
    | some _ => (register table fs).map (.builtinRedefined f.name :: ·) id
    | none => register (table.put f) fs

/-- Evaluates an expression. -/
def evaluate (s : Session) (maxDepth steps : Nat) (e : Expr) : Answer Value :=
  NullScript.evaluate (s.setting maxDepth) steps e s.state

/-- Executes a statement outside of any function. -/
def execute (s : Session) (maxDepth steps : Nat) (statement : Statement) : Answer Flow :=
  NullScript.execute (s.setting maxDepth) steps statement s.state

/-- Executes statements in a scope of their own. -/
def executeBlock (s : Session) (maxDepth steps : Nat) (body : List Statement) : Answer Flow :=
  NullScript.executeBlock (NullScript.execute (s.setting maxDepth) steps) body s.state

/-- Runs a program: declares its functions in the order of their names, then executes its
statements up to the first one that returns or fails. There is no result if the bound on the
number of steps is reached. -/
def interpret (s : Session) (maxDepth steps : Nat) (p : Program) : Option Interpretation :=
  let (redefined, functions) := register s.functions p.functions.byName
  match executeAll (NullScript.execute ⟨functions, maxDepth⟩ steps) p.statements s.state with
  | .unfinished => none
  | .failed e state => some ⟨redefined, some e, ⟨functions, state⟩⟩
  | .done _ state => some ⟨redefined, none, ⟨functions, state⟩⟩

end Session

end NullScript
