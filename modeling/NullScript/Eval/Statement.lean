import NullScript.Eval.Expression

/-!
# NullScript — one step of execution, and the two tied together

`executeWith` says what a statement means in terms of its parts. `evaluate` and `execute` tie
`evaluateWith` and `executeWith` together: each takes a bound on the number of steps, and an
expression or statement is worked on with one step less for its parts. A loop makes at most as
many rounds as there are steps.
-/

namespace NullScript

/-- Evaluates an expression that has to be true or false. -/
def evaluateCondition (eval : Expr → Action Value) (e : Expr) : Action Bool := do
  let v ← eval e
  .lift v.asBool

/-- Repeats a body as long as a condition holds, and for at most the given number of rounds. -/
def repeatWhile (condition : Action Bool) (body : Action Flow) : Nat → Action Flow
  | 0 => .unfinished
  | rounds + 1 => do
    if ← condition then
      match ← body with
      | .next => repeatWhile condition body rounds
      | .returned v => pure (.returned v)
    else pure .next

/-- Puts a variable into the innermost scope. Its value must fit its type. -/
def declareVariable (x : Variable) : Action Flow := do
  if x.value.fits x.type then
    let scopes ← .lift ((← .scopes).declare x)
    .setScopes scopes
    pure .next
  else .fail (.mismatch (.slot x.type) x.value)

/-- Stores a value in the variable of a name. It must fit the variable's type. -/
def storeValue (name : String) (v : Value) : Action Flow := do
  let scopes ← .scopes
  match scopes.get? name with
  | none => .fail (.unknownVariable name)
  | some x =>
    if v.fits x.type then
      .setScopes (scopes.set name v)
      pure .next
    else .fail (.mismatch (.slot x.type) v)

theorem declareVariable_apply (x : Variable) (s : State) :
    declareVariable x s =
      if x.value.fits x.type then
        match s.scopes.declare x with
        | .ok scopes => .done .next { s with scopes }
        | .error e => .failed e s
      else .failed (.mismatch (.slot x.type) x.value) s := by
  unfold declareVariable
  split
  · simp only [Action.bind_apply, Action.scopes, Action.lift]
    cases s.scopes.declare x <;> rfl
  · rfl

theorem storeValue_apply (name : String) (v : Value) (s : State) :
    storeValue name v s =
      match s.scopes.get? name with
      | none => .failed (.unknownVariable name) s
      | some x =>
        if v.fits x.type then .done .next { s with scopes := s.scopes.set name v }
        else .failed (.mismatch (.slot x.type) v) s := by
  simp only [storeValue, Action.bind_apply, Action.scopes]
  cases s.scopes.get? name with
  | none => rfl
  | some x =>
    dsimp only
    split <;> rfl

section

variable (eval : Expr → Action Value) (exec : Statement → Action Flow)

/-- Declares a variable in the innermost scope. Without an initial value it is `null`. -/
def executeDeclare (isConst : Bool) (name : String) (type : Ty) (value : Option Expr) :
    Action Flow := do
  let v ← match value with
    | some e => eval e
    | none => pure .void
  declareVariable ⟨name, type, isConst, v⟩

/-- Assigns to a variable. It must exist and must not be constant before the value is evaluated;
the value must fit its type. -/
def executeAssign (target value : Expr) : Action Flow :=
  match target with
  | .identifier name => do
    match (← .scopes).get? name with
    | none => .fail (.unknownVariable name)
    | some x =>
      if x.isConst then .fail (.constantAssigned name)
      else
        let v ← eval value
        storeValue name v
  | _ => .fail (.unsupported .assignment)

theorem executeAssign_identifier (name : String) (value : Expr) (s : State) :
    executeAssign eval (.identifier name) value s =
      match s.scopes.get? name with
      | none => .failed (.unknownVariable name) s
      | some x =>
        if x.isConst then .failed (.constantAssigned name) s
        else (eval value >>= storeValue name) s := by
  simp only [executeAssign, Action.bind_apply, Action.scopes]
  cases s.scopes.get? name with
  | none => rfl
  | some x =>
    dsimp only
    split <;> rfl

/-- Executes a statement, a loop for at most the given number of rounds. -/
def executeWith (rounds : Nat) : Statement → Action Flow
  | .branch condition body otherwise => do
    if ← evaluateCondition eval condition then executeBlock exec body
    else
      match otherwise with
      | some other => executeBlock exec other
      | none => pure .next
  | .loop condition body =>
    repeatWhile (evaluateCondition eval condition) (executeBlock exec body) rounds
  | .giveBack value => do
    match value with
    | some e => pure (.returned (← eval e))
    | none => pure (.returned .void)
  | .perform e => do
    let _ ← eval e
    pure .next
  | .assign target value => executeAssign eval target value
  | .declare isConst name type value => executeDeclare eval isConst name type value

end

mutual

/-- Evaluates an expression within a number of steps. -/
def evaluate (setting : Setting) : Nat → Expr → Action Value
  | 0, _ => .unfinished
  | steps + 1, e => evaluateWith setting (evaluate setting steps) (execute setting steps) e

/-- Executes a statement within a number of steps. -/
def execute (setting : Setting) : Nat → Statement → Action Flow
  | 0, _ => .unfinished
  | steps + 1, s => executeWith (evaluate setting steps) (execute setting steps) steps s

end

variable (setting : Setting) (steps : Nat)

theorem evaluate_succ (e : Expr) :
    evaluate setting (steps + 1) e =
      evaluateWith setting (evaluate setting steps) (execute setting steps) e := rfl

theorem execute_succ (s : Statement) :
    execute setting (steps + 1) s =
      executeWith (evaluate setting steps) (execute setting steps) steps s := rfl

end NullScript
