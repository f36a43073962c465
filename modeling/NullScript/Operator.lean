/-!
# NullScript — operators

The operators of the language, by level of binding.
-/

namespace NullScript

/-- Comparisons. -/
inductive ComparisonOp where
  | equal | notEqual | less | lessOrEqual | greater | greaterOrEqual
deriving DecidableEq, Repr

/-- Sum and difference. -/
inductive AdditiveOp where
  | plus | minus
deriving DecidableEq, Repr

/-- Product, quotient and remainder. -/
inductive MultiplicativeOp where
  | times | divide | remainder
deriving DecidableEq, Repr

/-- Operators written before their operand. -/
inductive UnaryOp where
  | not | minus
deriving DecidableEq, Repr

def ComparisonOp.symbol : ComparisonOp → String
  | .equal => "=="
  | .notEqual => "!="
  | .less => "<"
  | .lessOrEqual => "<="
  | .greater => ">"
  | .greaterOrEqual => ">="

def AdditiveOp.symbol : AdditiveOp → String
  | .plus => "+"
  | .minus => "-"

def MultiplicativeOp.symbol : MultiplicativeOp → String
  | .times => "*"
  | .divide => "/"
  | .remainder => "%"

def UnaryOp.symbol : UnaryOp → String
  | .not => "!"
  | .minus => "-"

end NullScript
