import NullScript.Builtin
import NullScript.Eval.Action
import NullScript.Value.Arithmetic
import NullScript.Value.Cast
import NullScript.Value.Compare

/-!
# NullScript — one step of evaluation

What an expression means in terms of what its parts mean: `evaluateWith` takes the evaluation of
subexpressions and the execution of statements as arguments, and so do the functions for chains,
argument lists and calls.
-/

namespace NullScript

/-- What a program is run with. -/
structure Setting where
  /-- The declared functions. -/
  functions : FunctionTable
  /-- How many calls of declared functions may be in progress at once. -/
  maxDepth : Nat

/-- How a statement ends that does not fail. -/
inductive Flow where
  /-- The next statement follows. -/
  | next
  /-- A `return` was reached. -/
  | returned (value : Value)
deriving DecidableEq

section

variable (setting : Setting) (eval : Expr → Action Value) (exec : Statement → Action Flow)

/-- Evaluates operands in order until one of them is `decisive`, and gives whether there was one
as the truth value `decisive` or its opposite. Operands behind that one are not evaluated. -/
def evaluateLogical (decisive : Bool) : List Expr → Action Value
  | [] => pure (.bool !decisive)
  | e :: es => do
    let v ← eval e
    let b ← .lift v.asBool
    if b = decisive then pure (.bool decisive) else evaluateLogical decisive es

/-- Applies the operators of a chain from left to right, each to the value so far and to the next
operand, which is evaluated just before. -/
def evaluateChain {Op : Type} (apply : Value → Op → Value → Except Failure Value) (v : Value) :
    List (Op × Expr) → Action Value
  | [] => pure v
  | (op, e) :: rest => do
    let w ← eval e
    let v ← .lift (apply v op w)
    evaluateChain apply v rest

/-- Evaluates expressions in order. -/
def evaluateAll : List Expr → Action (List Value)
  | [] => pure []
  | e :: es => do
    let v ← eval e
    let vs ← evaluateAll es
    pure (v :: vs)

/-- Executes statements in order, up to the first one that returns. -/
def executeAll : List Statement → Action Flow
  | [] => pure .next
  | s :: rest => do
    match ← exec s with
    | .next => executeAll rest
    | .returned v => pure (.returned v)

/-- Executes statements in a scope of their own. -/
def executeBlock (body : List Statement) : Action Flow := .inBlock (executeAll exec body)

/-- The variables that hold the arguments of a call. -/
def Function.bind (f : Function) (arguments : List Value) : List Variable :=
  List.zipWith (fun p v => ⟨p.name, p.type, false, v⟩) f.parameters arguments

/-- What a call gives whose body ended in this way. A function without a result may return `null`
or nothing; the result of any other must fit its type. -/
def Function.result (f : Function) : Flow → Except Failure Value
  | .next => if f.returns.isVoid then .ok .void else .error (.missingReturn f.name)
  | .returned v =>
    if f.returns.isVoid && v.isNull then .ok .void
    else if v.fits f.returns then .ok v
    else .error (.mismatch (.slot f.returns) v)

/-- Runs a declared function on arguments that have been checked. -/
def callFunction (f : Function) (arguments : List Value) : Action Value := do
  if setting.maxDepth ≤ (← .depth) then .fail (.callTooDeep f.name setting.maxDepth)
  else
    let flow ← .inCall (f.bind arguments) (executeBlock exec f.body)
    .lift (f.result flow)

/-- Calls the function of a name: a built-in one, or else a declared one. The name is looked up
first, then the arguments are evaluated and checked. -/
def call (name : String) (arguments : List Expr) : Action Value :=
  match Builtin.find? name with
  | some b => do
    let vs ← evaluateAll eval arguments
    .lift (checkArguments b.parameterKinds vs)
    .onStreams (b.run vs)
  | none =>
    match setting.functions.find? name with
    | some f => do
      let vs ← evaluateAll eval arguments
      .lift (checkArguments f.parameterKinds vs)
      callFunction setting exec f vs
    | none => .fail (.unknownFunction name)

section

variable {name : String} (arguments : List Expr)

theorem call_builtin {b : Builtin} (hb : Builtin.find? name = some b) :
    call setting eval exec name arguments = (do
      let vs ← evaluateAll eval arguments
      .lift (checkArguments b.parameterKinds vs)
      .onStreams (b.run vs)) := by
  unfold call
  rw [hb]

theorem call_declared {f : Function} (hb : Builtin.find? name = none)
    (hf : setting.functions.find? name = some f) :
    call setting eval exec name arguments = (do
      let vs ← evaluateAll eval arguments
      .lift (checkArguments f.parameterKinds vs)
      callFunction setting exec f vs) := by
  unfold call
  rw [hb]
  dsimp only
  rw [hf]

theorem call_unknown (hb : Builtin.find? name = none)
    (hf : setting.functions.find? name = none) :
    call setting eval exec name arguments = .fail (.unknownFunction name) := by
  unfold call
  rw [hb]
  dsimp only
  rw [hf]

end

/-- Evaluates an expression. -/
def evaluateWith : Expr → Action Value
  | .disjunction first others => evaluateLogical eval true (first :: others)
  | .conjunction first others => evaluateLogical eval false (first :: others)
  | .comparison left op right => do
    let v ← eval left
    let w ← eval right
    .lift ((v.compare op w).map .bool)
  | .orElse left right => do
    let v ← eval left
    if v.isNull then eval right else pure v.present
  | .additive first others => do evaluateChain eval Value.additive (← eval first) others
  | .multiplicative first others => do
    evaluateChain eval Value.multiplicative (← eval first) others
  | .cast operand target => do
    let v ← eval operand
    .lift (v.cast target)
  | .unary op operand => do
    let v ← eval operand
    .lift (v.unary op)
  | .literal d => pure (.ofDatum d)
  | .identifier name => do
    match (← .scopes).get? name with
    | some x => pure x.value
    | none => .fail (.unknownVariable name)
  | .call name arguments => call setting eval exec name arguments

theorem evaluateWith_call (name : String) (arguments : List Expr) :
    evaluateWith setting eval exec (.call name arguments) =
      call setting eval exec name arguments := rfl

theorem evaluateWith_identifier (name : String) (s : State) :
    evaluateWith setting eval exec (.identifier name) s =
      match s.scopes.get? name with
      | some x => .done x.value s
      | none => .failed (.unknownVariable name) s := by
  simp only [evaluateWith, Action.bind_apply, Action.scopes]
  cases s.scopes.get? name <;> rfl

theorem callFunction_apply (f : Function) (vs : List Value) (s : State) :
    callFunction setting exec f vs s =
      if setting.maxDepth ≤ s.depth then .failed (.callTooDeep f.name setting.maxDepth) s
      else
        (Action.inCall (f.bind vs) (executeBlock exec f.body) >>= fun flow =>
          .lift (f.result flow)) s := by
  simp only [callFunction, Action.bind_apply, Action.depth]
  split <;> rfl

end

end NullScript
