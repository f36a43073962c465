import NullScript.Failure

/-!
# NullScript — scopes

Variables live in scopes. The global scope is always there; blocks and calls open further ones.
What is visible are the scopes of the blocks up to the nearest call, that call's scope, and the
global scope: a function sees its own variables and the global ones, and none of its caller's.

Within a scope a name occurs once.
-/

namespace NullScript

/-- A variable. -/
structure Variable where
  name : String
  /-- The declared type. Whatever is stored fits into a slot of it. -/
  type : Ty
  isConst : Bool
  value : Value
deriving DecidableEq

/-- The variables of one scope. -/
abbrev Variables := List Variable

namespace Variables

/-- The variable of the name. -/
def get? (vs : Variables) (name : String) : Option Variable :=
  List.find? (fun v => v.name = name) vs

/-- The variables with the value of one replaced. -/
def set (name : String) (value : Value) : Variables → Variables
  | [] => []
  | v :: vs => if v.name = name then { v with value } :: vs else v :: set name value vs

/-- The variables of a list in which a later one takes the place of an earlier one of its name. -/
def ofList : List Variable → Variables
  | [] => []
  | v :: vs => if vs.any fun w => w.name = v.name then ofList vs else v :: ofList vs

end Variables

/-- What a scope was opened for. -/
inductive ScopeKind where
  | block | call
deriving DecidableEq, Repr

/-- A scope other than the global one. -/
structure Scope where
  kind : ScopeKind
  bindings : Variables
deriving DecidableEq

/-- All open scopes. -/
structure Scopes where
  /-- The scopes other than the global one, the innermost first. -/
  inner : List Scope
  /-- The variables of the global scope. -/
  globals : Variables
deriving DecidableEq

namespace Scopes

/-- The global scope alone, without variables. -/
def empty : Scopes := ⟨[], []⟩

/-- The number of open scopes. -/
def depth (s : Scopes) : Nat := s.inner.length + 1

/-- Opens the scope of a block. -/
def pushBlock (s : Scopes) : Scopes := { s with inner := ⟨.block, []⟩ :: s.inner }

/-- Opens the scope of a call, which holds the parameters. -/
def pushCall (s : Scopes) (parameters : List Variable) : Scopes :=
  { s with inner := ⟨.call, Variables.ofList parameters⟩ :: s.inner }

/-- Closes the innermost scope. The global scope stays open. -/
def pop (s : Scopes) : Scopes := { s with inner := s.inner.tail }

/-- Does the innermost scope hold the name? -/
def declares (s : Scopes) (name : String) : Bool :=
  match s.inner with
  | [] => (s.globals.get? name).isSome
  | scope :: _ => (scope.bindings.get? name).isSome

/-- Puts a variable into the innermost scope, which must not hold its name yet. -/
def declare (s : Scopes) (v : Variable) : Except Failure Scopes :=
  if s.declares v.name then .error (.duplicateVariable v.name)
  else
    match s.inner with
    | [] => .ok { s with globals := v :: s.globals }
    | scope :: outer =>
      .ok { s with inner := { scope with bindings := v :: scope.bindings } :: outer }

/-- Looks through the scopes from the inside, up to and including the first one of a call. -/
def getInner? (name : String) : List Scope → Option Variable
  | [] => none
  | scope :: outer =>
    match scope.bindings.get? name, scope.kind with
    | some v, _ => some v
    | none, .block => getInner? name outer
    | none, .call => none

/-- The variable that the name stands for. -/
def get? (s : Scopes) (name : String) : Option Variable :=
  (getInner? name s.inner).or (s.globals.get? name)

/-- Replaces the value in the first scope that `getInner?` finds the name in. -/
def setInner (name : String) (value : Value) : List Scope → List Scope
  | [] => []
  | scope :: outer =>
    match scope.bindings.get? name, scope.kind with
    | some _, _ => { scope with bindings := scope.bindings.set name value } :: outer
    | none, .block => scope :: setInner name value outer
    | none, .call => scope :: outer

/-- Replaces the value of the variable that the name stands for. -/
def set (s : Scopes) (name : String) (value : Value) : Scopes :=
  match getInner? name s.inner with
  | some _ => { s with inner := setInner name value s.inner }
  | none => { s with globals := s.globals.set name value }

end Scopes

end NullScript
