import NullScript.Program
import NullScript.Token

/-!
# NullScript — the grammar

Which sequences of tokens are programs, and what they stand for. The rules say how a construct is
put together from others. They leave open how to read it: between statements there is no separator,
and the right side of `?:` may take up what could also stand behind it, so some sequences can be
derived in more than one way.

```text
program        := { function | statement }
function       := "fun" name "(" [ type name { "," type name } ] ")" [ "->" type ] block
block          := "{" { statement } "}"
statement      := "if" "(" disjunction ")" block [ "else" block ]
                | "while" "(" disjunction ")" block
                | "return" [ disjunction ]
                | ( "var" | "const" ) type name [ "=" disjunction ]
                | disjunction [ "=" disjunction ]
disjunction    := conjunction { "||" conjunction }
conjunction    := comparison { "&&" comparison }
comparison     := alternative [ comparisonOp alternative ]
alternative    := sum [ "?:" disjunction ]
sum            := product { ( "+" | "-" ) product }
product        := conversion { ( "*" | "/" | "%" ) conversion }
conversion     := signed [ "as" type ]
signed         := [ "!" | "-" ] simple
simple         := literal | name | name "(" [ disjunction { "," disjunction } ] ")"
                | "(" disjunction ")"
type           := ( "int" | "double" | "string" | "bool" ) [ "?" ]
```
-/

namespace NullScript

/-- The reserved word for a base type. There is none for `void`. -/
def Base.word? : Base → Option Keyword
  | .int => some .int
  | .double => some .double
  | .string => some .string
  | .bool => some .bool
  | .void => none

/-- The token between the operands of a sum. -/
def AdditiveOp.token : AdditiveOp → Token
  | .plus => .plus
  | .minus => .unary .minus

/-- The word that a declaration starts with. -/
def declarationWord (isConst : Bool) : Keyword := if isConst then .const else .var

/-- The levels of binding, from the weakest to the strongest. -/
inductive Level where
  | disjunction | conjunction | comparison | alternative | sum | product | conversion | signed
  | simple

/-- The level that binds next more strongly. -/
def Level.next? : Level → Option Level
  | .disjunction => some .conjunction
  | .conjunction => some .comparison
  | .comparison => some .alternative
  | .alternative => some .sum
  | .sum => some .product
  | .product => some .conversion
  | .conversion => some .signed
  | .signed => some .simple
  | .simple => none

/-- The tokens are a type. -/
inductive IsType : List Token → Ty → Prop
  | plain {b : Base} {k : Keyword} : b.word? = some k → IsType [.keyword k] ⟨b, false⟩
  | nullable {b : Base} {k : Keyword} :
    b.word? = some k → IsType [.keyword k, .punctuation .question] ⟨b, true⟩

mutual

/-- The tokens are an expression of the level, and this is its tree. -/
inductive IsExpr : Level → List Token → Expr → Prop
  | stronger {level next : Level} {ts : List Token} {e : Expr} :
    level.next? = some next → IsExpr next ts e → IsExpr level ts e
  | disjunction {ts us : List Token} {e : Expr} {es : List (Unit × Expr)} :
    IsExpr .conjunction ts e → AreOperands (fun _ => .disjunction) .conjunction us es → es ≠ [] →
    IsExpr .disjunction (ts ++ us) (.disjunction e (es.map Prod.snd))
  | conjunction {ts us : List Token} {e : Expr} {es : List (Unit × Expr)} :
    IsExpr .comparison ts e → AreOperands (fun _ => .conjunction) .comparison us es → es ≠ [] →
    IsExpr .conjunction (ts ++ us) (.conjunction e (es.map Prod.snd))
  | comparison {ts us : List Token} {e f : Expr} {op : ComparisonOp} :
    IsExpr .alternative ts e → IsExpr .alternative us f →
    IsExpr .comparison (ts ++ .comparison op :: us) (.comparison e op f)
  | orElse {ts us : List Token} {e f : Expr} :
    IsExpr .sum ts e → IsExpr .disjunction us f →
    IsExpr .alternative (ts ++ .orElse :: us) (.orElse e f)
  | sum {ts us : List Token} {e : Expr} {es : List (AdditiveOp × Expr)} :
    IsExpr .product ts e → AreOperands AdditiveOp.token .product us es → es ≠ [] →
    IsExpr .sum (ts ++ us) (.additive e es)
  | product {ts us : List Token} {e : Expr} {es : List (MultiplicativeOp × Expr)} :
    IsExpr .conversion ts e → AreOperands Token.multiplicative .conversion us es → es ≠ [] →
    IsExpr .product (ts ++ us) (.multiplicative e es)
  | conversion {ts us : List Token} {e : Expr} {t : Ty} :
    IsExpr .signed ts e → IsType us t →
    IsExpr .conversion (ts ++ .keyword .as_ :: us) (.cast e t)
  | signed {op : UnaryOp} {ts : List Token} {e : Expr} :
    IsExpr .simple ts e → IsExpr .signed (.unary op :: ts) (.unary op e)
  | literal {d : Datum} : IsExpr .simple [.literal d] (.literal d)
  | name {x : String} : IsExpr .simple [.identifier x] (.identifier x)
  | emptyCall {f : String} :
    IsExpr .simple
      [.identifier f, .punctuation .leftParenthesis, .punctuation .rightParenthesis] (.call f [])
  | call {f : String} {ts us : List Token} {e : Expr} {es : List (Unit × Expr)} :
    IsExpr .disjunction ts e →
    AreOperands (fun _ => .punctuation .comma) .disjunction us es →
    IsExpr .simple
      (.identifier f :: .punctuation .leftParenthesis ::
        (ts ++ us ++ [.punctuation .rightParenthesis]))
      (.call f (e :: es.map Prod.snd))
  | parenthesised {ts : List Token} {e : Expr} :
    IsExpr .disjunction ts e →
    IsExpr .simple (.punctuation .leftParenthesis :: (ts ++ [.punctuation .rightParenthesis])) e

/-- The tokens are any number of operands of the level, each behind the token of its operator. -/
inductive AreOperands : {Op : Type} → (Op → Token) → Level → List Token → List (Op × Expr) → Prop
  | nil {Op : Type} {token : Op → Token} {level : Level} : AreOperands token level [] []
  | cons {Op : Type} {token : Op → Token} {level : Level} {op : Op} {ts us : List Token} {e : Expr}
      {es : List (Op × Expr)} :
    IsExpr level ts e → AreOperands token level us es →
    AreOperands token level (token op :: (ts ++ us)) ((op, e) :: es)

end

mutual

/-- The tokens are a statement. -/
inductive IsStatement : List Token → Statement → Prop
  | branch {cs bs : List Token} {c : Expr} {body : List Statement} :
    IsExpr .disjunction cs c → IsBlock bs body →
    IsStatement
      (.keyword .if_ :: .punctuation .leftParenthesis ::
        (cs ++ .punctuation .rightParenthesis :: bs))
      (.branch c body none)
  | branchElse {cs bs os : List Token} {c : Expr} {body other : List Statement} :
    IsExpr .disjunction cs c → IsBlock bs body → IsBlock os other →
    IsStatement
      (.keyword .if_ :: .punctuation .leftParenthesis ::
        (cs ++ .punctuation .rightParenthesis :: (bs ++ .keyword .else_ :: os)))
      (.branch c body (some other))
  | loop {cs bs : List Token} {c : Expr} {body : List Statement} :
    IsExpr .disjunction cs c → IsBlock bs body →
    IsStatement
      (.keyword .while_ :: .punctuation .leftParenthesis ::
        (cs ++ .punctuation .rightParenthesis :: bs))
      (.loop c body)
  | giveBack : IsStatement [.keyword .return_] (.giveBack none)
  | giveBackValue {ts : List Token} {e : Expr} :
    IsExpr .disjunction ts e → IsStatement (.keyword .return_ :: ts) (.giveBack (some e))
  | declare {isConst : Bool} {ts : List Token} {t : Ty} {x : String} :
    IsType ts t →
    IsStatement (.keyword (declarationWord isConst) :: (ts ++ [.identifier x]))
      (.declare isConst x t none)
  | declareWith {isConst : Bool} {ts us : List Token} {t : Ty} {x : String} {e : Expr} :
    IsType ts t → IsExpr .disjunction us e →
    IsStatement
      (.keyword (declarationWord isConst) :: (ts ++ .identifier x :: .punctuation .assign :: us))
      (.declare isConst x t (some e))
  | perform {ts : List Token} {e : Expr} : IsExpr .disjunction ts e → IsStatement ts (.perform e)
  /-- The target is a name, perhaps in parentheses. -/
  | assign {ts us : List Token} {x : String} {e : Expr} :
    IsExpr .disjunction ts (.identifier x) → IsExpr .disjunction us e →
    IsStatement (ts ++ .punctuation .assign :: us) (.assign (.identifier x) e)

/-- The tokens are a block: statements in braces. -/
inductive IsBlock : List Token → List Statement → Prop
  | braces {ts : List Token} {body : List Statement} :
    AreStatements ts body →
    IsBlock (.punctuation .leftBrace :: (ts ++ [.punctuation .rightBrace])) body

/-- The tokens are statements, one directly behind the other. -/
inductive AreStatements : List Token → List Statement → Prop
  | nil : AreStatements [] []
  | cons {ts us : List Token} {st : Statement} {body : List Statement} :
    IsStatement ts st → AreStatements us body → AreStatements (ts ++ us) (st :: body)

end

/-- The tokens are parameters, at least one. -/
inductive AreParameters : List Token → List Parameter → Prop
  | last {ts : List Token} {t : Ty} {x : String} :
    IsType ts t → AreParameters (ts ++ [.identifier x]) [⟨x, t⟩]
  | cons {ts us : List Token} {t : Ty} {x : String} {ps : List Parameter} :
    IsType ts t → AreParameters us ps →
    AreParameters (ts ++ .identifier x :: .punctuation .comma :: us) (⟨x, t⟩ :: ps)

/-- The tokens are what stands between the parentheses of a declaration. -/
def IsParameterList (ts : List Token) (ps : List Parameter) : Prop :=
  (ts = [] ∧ ps = []) ∨ AreParameters ts ps

/-- The tokens are what says of which type the result is. -/
inductive IsResult : List Token → Ty → Prop
  | nothing : IsResult [] .void
  | arrow {ts : List Token} {t : Ty} : IsType ts t → IsResult (.arrow :: ts) t

/-- The tokens are the declaration of a function. -/
inductive IsFunction : List Token → Function → Prop
  | declared {f : String} {ps rs bs : List Token} {parameters : List Parameter} {returns : Ty}
      {body : List Statement} :
    IsParameterList ps parameters → IsResult rs returns → IsBlock bs body →
    IsFunction
      (.keyword .fun_ :: .identifier f :: .punctuation .leftParenthesis ::
        (ps ++ .punctuation .rightParenthesis :: (rs ++ bs)))
      ⟨f, parameters, returns, body⟩

/-- The tokens are a program: functions and statements in any order. -/
inductive IsProgram : List Token → Program → Prop
  | empty : IsProgram [] ⟨[], []⟩
  | statement {ts us : List Token} {st : Statement} {p : Program} :
    IsStatement ts st → IsProgram us p →
    IsProgram (ts ++ us) ⟨st :: p.statements, p.functions⟩
  | function {ts us : List Token} {f : Function} {p : Program} :
    IsFunction ts f → IsProgram us p →
    IsProgram (ts ++ us) ⟨p.statements, f :: p.functions⟩

end NullScript
