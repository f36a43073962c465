import NullScript.Operator
import NullScript.Value

/-!
# NullScript — tokens

The words and signs that a source text consists of, with their spellings. A minus sign is one kind
of token, whether it stands before its operand or between two.
-/

namespace NullScript

/-- Reserved words. `true`, `false` and `null` are literals and not among them. -/
inductive Keyword where
  | return_ | if_ | else_ | while_ | bool | int | double | string | var | const | fun_ | as_
deriving DecidableEq, Repr

namespace Keyword

def all : List Keyword :=
  [.return_, .if_, .else_, .while_, .bool, .int, .double, .string, .var, .const, .fun_, .as_]

def spelling : Keyword → String
  | .return_ => "return"
  | .if_ => "if"
  | .else_ => "else"
  | .while_ => "while"
  | .bool => "bool"
  | .int => "int"
  | .double => "double"
  | .string => "string"
  | .var => "var"
  | .const => "const"
  | .fun_ => "fun"
  | .as_ => "as"

end Keyword

/-- Brackets, separators and the sign of assignment. -/
inductive Punctuation where
  | leftParenthesis | rightParenthesis | leftBrace | rightBrace
  | comma
  /-- The mark of a nullable type. -/
  | question
  | assign
deriving DecidableEq, Repr

/-- A token. -/
inductive Token where
  /-- A comment, without the two slashes that start it. -/
  | comment (text : String)
  | literal (datum : Datum)
  | keyword (k : Keyword)
  | identifier (name : String)
  | plus
  | multiplicative (op : MultiplicativeOp)
  | comparison (op : ComparisonOp)
  /-- `!`, and `-` wherever it stands. -/
  | unary (op : UnaryOp)
  | punctuation (p : Punctuation)
  /-- `?:` -/
  | orElse
  /-- `&&` -/
  | conjunction
  /-- `||` -/
  | disjunction
  /-- `->` -/
  | arrow
deriving DecidableEq

/-- The token that is spelled with this one character. -/
def Token.ofChar? : Char → Option Token
  | '+' => some .plus
  | '*' => some (.multiplicative .times)
  | '/' => some (.multiplicative .divide)
  | '%' => some (.multiplicative .remainder)
  | '<' => some (.comparison .less)
  | '>' => some (.comparison .greater)
  | '!' => some (.unary .not)
  | '-' => some (.unary .minus)
  | '(' => some (.punctuation .leftParenthesis)
  | ')' => some (.punctuation .rightParenthesis)
  | '\x7b' => some (.punctuation .leftBrace)
  | '\x7d' => some (.punctuation .rightBrace)
  | ',' => some (.punctuation .comma)
  | '?' => some (.punctuation .question)
  | '=' => some (.punctuation .assign)
  | _ => none

/-- The token that is spelled with these two characters. -/
def Token.ofPair? : Char → Char → Option Token
  | '=', '=' => some (.comparison .equal)
  | '!', '=' => some (.comparison .notEqual)
  | '<', '=' => some (.comparison .lessOrEqual)
  | '>', '=' => some (.comparison .greaterOrEqual)
  | '?', ':' => some .orElse
  | '&', '&' => some .conjunction
  | '|', '|' => some .disjunction
  | '-', '>' => some .arrow
  | _, _ => none

/-- The literal that is spelled as a word. -/
def Datum.ofWord? (word : String) : Option Datum :=
  if word = "true" then some (.bool true)
  else if word = "false" then some (.bool false)
  else if word = "null" then some .null
  else none

/-- The token that a word stands for if it is no name. -/
def Token.ofReserved? (word : String) : Option Token :=
  match Keyword.all.find? fun k => k.spelling = word with
  | some k => some (.keyword k)
  | none => (Datum.ofWord? word).map .literal

end NullScript
