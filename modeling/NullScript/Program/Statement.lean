import NullScript.Program.Expression

/-!
# NullScript — reading statements and functions

```text
statement  := "if" condition block [ "else" block ]
            | "while" condition block
            | "return" [ expression ]
            | ( "var" | "const" ) type name [ "=" expression ]
            | expression [ "=" expression ]
condition  := "(" expression ")"
block      := "{" { statement } "}"
function   := "fun" name "(" [ type name { "," type name } ] ")" [ "->" type ] block
```

Reading goes on behind a missing bracket, name or condition, which is reported. An attempt is
*absent* if nothing was found that could start a statement or function, and *malformed* if one was
recognised but cannot be kept.
-/

namespace NullScript

/-- What became of reading a statement or function. -/
inductive Attempt (α : Type) where
  /-- Nothing starts here. -/
  | absent
  /-- Something was recognised, reported and dropped. -/
  | malformed
  | parsed (value : α)

/-- What was recognised costs at least one token. -/
instance {α : Type} : Cost (Attempt α) where
  cost
    | .absent => 0
    | .malformed => 1
    | .parsed _ => 1

/-- The attempt at something that may have come out malformed. -/
def Attempt.ofOption {α : Type} : Option α → Attempt α
  | some a => .parsed a
  | none => .malformed

theorem Attempt.cost_ofOption {α : Type} (o : Option α) : cost (Attempt.ofOption o) = 1 := by
  cases o <;> rfl

namespace Parsed

/-- Consumes a piece of punctuation, or reports that it is missing. -/
def expect (p : Punctuation) (cause : GrammarFault) (ts : List Token) : Parsed ts Bool :=
  (eat (.punctuation p) ts).orReport cause

/-- Reads the condition of an `if` or `while`. -/
def condition (ts : List Token) : Parsed ts (Option Expr) :=
  (expect .leftParenthesis .invalidCondition ts).andThen fun _ us hu =>
    ((expression us).orReport .invalidCondition).andThen fun e vs hv =>
      (expect .rightParenthesis .invalidCondition vs).andThen fun _ ws hw =>
        give e ws (by omega)

section

variable {base : List Token} (inner : Below base (Attempt Statement))

/-- Reads statements as long as there are any. -/
def statements : (ts : List Token) → ts.length < base.length → Parsed ts (List Statement) :=
  fun ts h =>
    (inner ts h).andThen fun s us hu =>
      match s with
      | .absent => give [] us hu
      | .malformed =>
        have hu : us.length < ts.length := hu
        (statements us (by omega)).andThen fun ss vs hv =>
          give ss vs (by show vs.length ≤ ts.length; omega)
      | .parsed s =>
        have hu : us.length < ts.length := hu
        (statements us (by omega)).andThen fun ss vs hv =>
          give (s :: ss) vs (by show vs.length ≤ ts.length; omega)
termination_by ts => ts.length

/-- Reads statements in braces. -/
def block (cause : GrammarFault) : Below base (List Statement) := fun ts h =>
  (expect .leftBrace cause ts).andThen fun _ us hu =>
    (statements inner us (by omega)).andThen fun body vs hv =>
      (expect .rightBrace cause vs).andThen fun _ ws hw =>
        give body ws (by show ws.length ≤ ts.length; omega)

/-- Reads the block behind `else`, if there is one. -/
def elseBlock : (ts : List Token) → ts.length < base.length →
    Parsed ts (Option (List Statement)) := fun ts h =>
  (eat (.keyword .else_) ts).andThen fun found us hu =>
    match found with
    | false => give none us hu
    | true =>
      have hu : us.length < ts.length := hu
      (block inner .blockExpected us (by omega)).andThen fun body vs hv =>
        give (some body) vs (by show vs.length + 1 ≤ ts.length; omega)

/-- Reads what follows `if`. -/
def branch (ts : List Token) (h : ts.length < base.length) : Parsed ts (Option Statement) :=
  (condition ts).andThen fun c us hu =>
    (block inner .blockExpected us (by omega)).andThen fun body vs hv =>
      (elseBlock inner vs (by omega)).andThen fun otherwise ws hw =>
        give (c.map fun c => .branch c body otherwise) ws (by rw [cost_map]; omega)

/-- Reads what follows `while`. -/
def loop (ts : List Token) (h : ts.length < base.length) : Parsed ts (Option Statement) :=
  (condition ts).andThen fun c us hu =>
    (block inner .blockExpected us (by omega)).andThen fun body vs hv =>
      give (c.map fun c => .loop c body) vs (by rw [cost_map]; omega)

end

/-- Reads the initial value of a variable: `=` and an expression, if they are there. -/
def initialValue (ts : List Token) : Parsed ts (Attempt Expr) :=
  (eat (.punctuation .assign) ts).andThen fun found us hu =>
    match found with
    | false => give .absent us hu
    | true =>
      have hu : us.length < ts.length := hu
      ((expression us).orReport .missingExpression).andThen fun e vs hv =>
        give (.ofOption e) vs (by rw [Attempt.cost_ofOption]; omega)

/-- The declaration with an initial value, if that is not malformed. -/
def declared (isConst : Bool) (name : String) (type : Ty) : Attempt Expr → Option Statement
  | .absent => some (.declare isConst name type none)
  | .malformed => none
  | .parsed e => some (.declare isConst name type (some e))

/-- Reads what follows `var` or `const`. -/
def declaration (isConst : Bool) (ts : List Token) : Parsed ts (Option Statement) :=
  ((type ts).orReport .typeExpected).andThen fun t us hu =>
    match t with
    | none => give none us hu
    | some t =>
      have hu : us.length < ts.length := hu
      ((name us).orReport .invalidVariable).andThen fun n vs hv =>
        match n with
        | none => give none vs (by show vs.length ≤ ts.length; omega)
        | some n =>
          have hv : vs.length < us.length := hv
          (initialValue vs).andThen fun e ws hw =>
            give (declared isConst n t e) ws
              (by have := cost_le_one (declared isConst n t e); omega)

/-- Reads the value that is assigned to a target, behind `=`. Only a variable can be a target. -/
def assignment (target : Expr) (ts : List Token) : Parsed ts (Option Statement) :=
  let value := (expression ts).orReport .missingExpression
  match target with
  | .identifier _ => value.andThen fun e us hu => give (e.map (.assign target)) us
      (by rw [cost_map]; exact hu)
  | _ => noting .invalidExpression ts (value.andThen fun _ us hu => give none us
      (Nat.le_of_add_right_le hu))

/-- Reads an expression, or an assignment if `=` follows. -/
def expressionStatement (ts : List Token) : Parsed ts (Attempt Statement) :=
  (expression ts).andThen fun e us hu =>
    match e with
    | none => give .absent us hu
    | some e =>
      match us with
      | .punctuation .assign :: vs =>
        have hu : vs.length + 1 < ts.length := hu
        (assignment e vs).andThen fun s ws hw =>
          give (.ofOption s) ws (by rw [Attempt.cost_ofOption]; omega)
      | us => give (.parsed (.perform e)) us hu

/-- What was recognised by its first token. -/
def introduced {α : Type} {t : Token} {ts : List Token} (r : Parsed ts (Option α)) :
    Parsed (t :: ts) (Attempt α) :=
  r.andThen fun a us hu => give (.ofOption a) us (by
    rw [Attempt.cost_ofOption]
    exact Nat.succ_le_succ (Nat.le_of_add_right_le hu))

/-- Reads a statement, given how to read statements from fewer tokens. -/
def statementWith {base : List Token} (inner : Below base (Attempt Statement)) :
    Within base (Attempt Statement)
  | .keyword .if_ :: ts, h => introduced (branch inner ts h)
  | .keyword .while_ :: ts, h => introduced (loop inner ts h)
  | .keyword .return_ :: ts, _ =>
    (expression ts).andThen fun e us hu =>
      give (.parsed (.giveBack e)) us (Nat.succ_le_succ (Nat.le_of_add_right_le hu))
  | .keyword .var :: ts, _ => introduced (declaration false ts)
  | .keyword .const :: ts, _ => introduced (declaration true ts)
  | ts, _ => expressionStatement ts

/-- Reads a statement. -/
def statement (ts : List Token) : Parsed ts (Attempt Statement) :=
  @statementWith ts (fun us _ => statement us) ts (Nat.le_refl _)
termination_by ts.length

-- ---------------------------------------------------------------------------
-- Functions
-- ---------------------------------------------------------------------------

/-- The parameter of a type and a name, if both were found. -/
def parameterOf : Option Ty → Option String → Option Parameter
  | some t, some n => some ⟨n, t⟩
  | _, _ => none

/-- Reads parameters, each but the first behind a comma. One that lacks its type or name is
reported and left out. -/
def someParameters (ts : List Token) : Parsed ts (List Parameter) :=
  ((type ts).orReport .typeExpected).andThen fun t us hu =>
    ((name us).orReport .invalidParameter).andThen fun n vs hv =>
      match vs with
      | .punctuation .comma :: ws =>
        have hv : ws.length + 1 ≤ us.length := Nat.le_of_add_right_le hv
        (someParameters ws).andThen fun others xs hx =>
          give ((parameterOf t n).toList ++ others) xs (by show xs.length ≤ ts.length; omega)
      | vs => give (parameterOf t n).toList vs (by show vs.length ≤ ts.length; omega)
termination_by ts.length
decreasing_by omega

/-- Reads the parameters between the parentheses. -/
def parameters (ts : List Token) : Parsed ts (List Parameter) :=
  if ts.head? = some (.punctuation .rightParenthesis) then give [] ts (Nat.le_refl _)
  else someParameters ts

/-- Reads the result type: an arrow and a type, if they are there. -/
def resultType (ts : List Token) : Parsed ts (Attempt Ty) :=
  (eat .arrow ts).andThen fun found us hu =>
    match found with
    | false => give .absent us hu
    | true =>
      have hu : us.length < ts.length := hu
      ((type us).orReport .typeExpected).andThen fun t vs hv =>
        give (.ofOption t) vs (by rw [Attempt.cost_ofOption]; omega)

/-- The function of these parts, if its name and its result type are there. -/
def functionOf (name : Option String) (parameters : List Parameter) (returns : Attempt Ty)
    (body : List Statement) : Option Function :=
  match name, returns with
  | some name, .absent => some ⟨name, parameters, .void, body⟩
  | some name, .parsed t => some ⟨name, parameters, t, body⟩
  | _, _ => none

theorem cost_functionOf_le (name : Option String) (parameters : List Parameter)
    (returns : Attempt Ty) (body : List Statement) :
    cost (functionOf name parameters returns body) ≤ cost name := by
  cases name with
  | none => exact Nat.le_refl 0
  | some name => exact cost_le_one _

/-- Reads the body of a function. -/
def functionBody (ts : List Token) : Parsed ts (List Statement) :=
  @block (.punctuation .leftBrace :: ts) (fun us _ => statement us) .invalidFunction ts
    (Nat.lt_succ_self _)

/-- Reads what follows `fun`. -/
def functionRest (ts : List Token) : Parsed ts (Option Function) :=
  ((name ts).orReport .invalidFunction).andThen fun n us hu =>
  (expect .leftParenthesis .invalidFunction us).andThen fun _ vs hv =>
  (parameters vs).andThen fun ps ws hw =>
  (expect .rightParenthesis .invalidFunction ws).andThen fun _ xs hx =>
  (resultType xs).andThen fun t ys hy =>
  (functionBody ys).andThen fun body zs hz =>
    give (functionOf n ps t body) zs (by have := cost_functionOf_le n ps t body; omega)

/-- Reads a function. -/
def function : (ts : List Token) → Parsed ts (Attempt Function)
  | .keyword .fun_ :: ts => introduced (functionRest ts)
  | ts => give .absent ts (Nat.le_refl _)

end Parsed

end NullScript
