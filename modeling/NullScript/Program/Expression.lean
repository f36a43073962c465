import NullScript.Program
import NullScript.Program.Parsed

/-!
# NullScript — reading expressions

The levels of binding, from the weakest to the strongest:

```text
disjunction    := conjunction { "||" conjunction }
conjunction    := comparison { "&&" comparison }
comparison     := alternative [ comparisonOp alternative ]
alternative    := sum [ "?:" disjunction ]
sum            := product { ( "+" | "-" ) product }
product        := conversion { ( "*" | "/" | "%" ) conversion }
conversion     := signed [ "as" type ]
signed         := [ "!" | "-" ] simple
simple         := literal | name | name "(" arguments ")" | "(" disjunction ")"
arguments      := [ disjunction { "," disjunction } ]
```

Each level is a function of the tokens that is given, as an argument, how to read expressions from
fewer tokens than a given list; `expression` ties the levels together. A level gives nothing if it
finds no operand, and then has usually consumed nothing either; if the operand behind an operator
or the end of a parenthesis is missing, it reports that.
-/

namespace NullScript.Parsed

/-- The chain made of a first operand and others: a lone operand is itself. -/
def chainOf {α : Type} (make : Expr → List α → Expr) (first : Expr) (others : List α) : Expr :=
  if others.isEmpty then first else make first others

/-- The operator that joins the operands of a sum. -/
def additiveOp : Token → Option AdditiveOp
  | .plus => some .plus
  | .unary .minus => some .minus
  | _ => none

/-- The operator that joins the operands of a product. -/
def multiplicativeOp : Token → Option MultiplicativeOp
  | .multiplicative op => some op
  | _ => none

/-- Recognises one token that carries no information. -/
def only (t u : Token) : Option Unit := if u = t then some () else none

section

/-- A way to read something from any tokens that are fewer than the given ones. -/
abbrev Below (base : List Token) (α : Type) [Cost α] : Type :=
  (ts : List Token) → ts.length < base.length → Parsed ts α

/-- A way to read something from any tokens that are not more than the given ones. -/
abbrev Within (base : List Token) (α : Type) [Cost α] : Type :=
  (ts : List Token) → ts.length ≤ base.length → Parsed ts α

variable {base : List Token}

/-- Further operands, each behind an operator. An operator without an operand ends the chain and
is reported. -/
def operands {Op : Type} (op? : Token → Option Op) (operand : Within base (Option Expr)) :
    Within base (List (Op × Expr))
  | [], _ => give [] [] (Nat.le_refl _)
  | t :: ts, h =>
    match op? t with
    | none => give [] (t :: ts) (Nat.le_refl _)
    | some op =>
      ((operand ts (Nat.le_of_succ_le h)).orReport .missingExpression).andThen fun e us hu =>
        match e with
        | none => give [] us (Nat.le_succ_of_le hu)
        | some e =>
          have hu : us.length < ts.length := hu
          (operands op? operand us (Nat.le_of_lt (Nat.lt_trans hu h))).andThen fun rest vs hv =>
            give ((op, e) :: rest) vs (by show vs.length ≤ ts.length + 1; omega)
termination_by ts => ts.length
decreasing_by exact Nat.lt_succ_of_lt hu

/-- A first operand and further ones. -/
def chain {Op : Type} (op? : Token → Option Op) (make : Expr → List (Op × Expr) → Expr)
    (operand : Within base (Option Expr)) : Within base (Option Expr) := fun ts h =>
  (operand ts h).andThen fun first us hu =>
    match first with
    | none => give none us hu
    | some first =>
      have hu : us.length < ts.length := hu
      (operands op? operand us (by omega)).andThen fun others vs hv =>
        give (some (chainOf make first others)) vs (by show vs.length + 1 ≤ ts.length; omega)

/-- An operand and at most one more, behind an operator. -/
def pair {Op : Type} (op? : Token → Option Op) (make : Expr → Op → Expr → Expr)
    (left right : Within base (Option Expr)) : Within base (Option Expr) := fun ts h =>
  (left ts h).andThen fun first us hu =>
    match first with
    | none => give none us hu
    | some first =>
      match us with
      | [] => give (some first) [] hu
      | t :: vs =>
        match op? t with
        | none => give (some first) (t :: vs) hu
        | some op =>
          have hu : vs.length + 1 < ts.length := hu
          ((right vs (by omega)).orReport .missingExpression).andThen fun second ws hw =>
            give (second.map (make first op)) ws (by rw [cost_map]; omega)

variable (inner : Below base (Option Expr))

/-- Further arguments of a call, each behind a comma. A missing one is reported and left out. -/
def moreArguments : (ts : List Token) → ts.length < base.length → Parsed ts (List Expr)
  | [], _ => give [] [] (Nat.le_refl _)
  | t :: ts, h =>
    if t = .punctuation .comma then
      ((inner ts (Nat.lt_of_succ_lt h)).orReport .missingExpression).andThen fun e us hu =>
        have hu : us.length ≤ ts.length := Nat.le_of_add_right_le hu
        (moreArguments us (Nat.lt_of_le_of_lt hu (Nat.lt_of_succ_lt h))).andThen fun es vs hv =>
          give (e.toList ++ es) vs (by show vs.length ≤ ts.length + 1; omega)
    else give [] (t :: ts) (Nat.le_refl _)
termination_by ts => ts.length
decreasing_by exact Nat.lt_succ_of_le hu

/-- The arguments of a call. -/
def arguments : Below base (List Expr) := fun ts h =>
  (inner ts h).andThen fun first us hu =>
    match first with
    | none => give [] us hu
    | some first =>
      have hu : us.length < ts.length := hu
      (moreArguments inner us (by omega)).andThen fun others vs hv =>
        give (first :: others) vs (by show vs.length ≤ ts.length; omega)

/-- Consumes a closing parenthesis, or reports that it is missing. -/
def closing (ts : List Token) : Parsed ts Bool :=
  (eat (.punctuation .rightParenthesis) ts).orReport .unmatchedParenthesis

/-- A call's arguments and closing parenthesis. -/
def callRest (name : String) : Below base (Option Expr) := fun ts h =>
  (arguments inner ts h).andThen fun es us hu =>
    (closing us).andThen fun closed vs hv =>
      give (if closed then some (.call name es) else none) vs
        (by have := cost_ite_le closed (some (Expr.call name es)); omega)

/-- The expression in parentheses and the closing one. -/
def parenthesised : Below base (Option Expr) := fun ts h =>
  ((inner ts h).orReport .missingExpression).andThen fun e us hu =>
    (closing us).andThen fun closed vs hv =>
      give (if closed then e else none) vs (by have := cost_ite_le closed e; omega)

/-- A reading of fewer tokens, after some were consumed. -/
def widen {α : Type} [Cost α] {ts us : List Token} (r : Parsed us α) (h : us.length ≤ ts.length) :
    Parsed ts α :=
  { r with bounded := Nat.le_trans r.bounded h }

/-- A literal, a name, a call or an expression in parentheses. -/
def simple : Within base (Option Expr)
  | .literal d :: ts, _ => give (some (.literal d)) ts (Nat.le_refl _)
  | .identifier name :: .punctuation .leftParenthesis :: ts, h =>
    (callRest inner name ts (Nat.lt_of_succ_lt h)).widen (Nat.le_add_right _ 2)
  | .identifier name :: ts, _ => give (some (.identifier name)) ts (Nat.le_refl _)
  | .punctuation .leftParenthesis :: ts, h => (parenthesised inner ts h).widen (Nat.le_succ _)
  | ts, _ => give none ts (Nat.le_refl _)

/-- An optional operator in front. -/
def signed : Within base (Option Expr)
  | .unary op :: ts, h =>
    ((simple inner ts (Nat.le_of_succ_le h)).orReport .missingExpression).andThen fun e us hu =>
      give (e.map (.unary op)) us (by rw [cost_map]; exact Nat.le_succ_of_le hu)
  | ts, h => simple inner ts h

/-- An optional conversion behind. -/
def conversion : Within base (Option Expr) := fun ts h =>
  (signed inner ts h).andThen fun e us hu =>
    match e with
    | none => give none us hu
    | some e =>
      match us with
      | .keyword .as_ :: vs =>
        have hu : vs.length + 1 < ts.length := hu
        ((type vs).orReport .typeExpected).andThen fun t ws hw =>
          give (t.map (.cast e)) ws (by rw [cost_map]; omega)
      | us => give (some e) us hu

def product : Within base (Option Expr) :=
  chain multiplicativeOp .multiplicative (conversion inner)

def sum : Within base (Option Expr) := chain additiveOp .additive (product inner)

/-- The right side of `?:` is a whole expression. -/
def alternative : Within base (Option Expr) := fun ts h =>
  (sum inner ts h).andThen fun left us hu =>
    match left with
    | none => give none us hu
    | some left =>
      match us with
      | .orElse :: vs =>
        have hu : vs.length + 1 < ts.length := hu
        ((inner vs (Nat.lt_of_lt_of_le (Nat.lt_of_succ_lt hu) h)).orReport
            .missingExpression).andThen fun right ws hw =>
          give (right.map (.orElse left)) ws (by rw [cost_map]; omega)
      | us => give (some left) us hu

/-- The operator of a comparison. -/
def comparisonOp : Token → Option ComparisonOp
  | .comparison op => some op
  | _ => none

/-- Comparisons do not chain. -/
def comparison : Within base (Option Expr) :=
  pair comparisonOp .comparison (alternative inner) (alternative inner)

def conjunction : Within base (Option Expr) :=
  chain (only .conjunction) (fun e es => .conjunction e (es.map Prod.snd)) (comparison inner)

def disjunction : Within base (Option Expr) :=
  chain (only .disjunction) (fun e es => .disjunction e (es.map Prod.snd)) (conjunction inner)

end

/-- Reads an expression. -/
def expression (ts : List Token) : Parsed ts (Option Expr) :=
  @disjunction ts (fun us _ => expression us) ts (Nat.le_refl _)
termination_by ts.length

end NullScript.Parsed
