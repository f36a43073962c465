import NullScript.Position
import NullScript.Text.Escape

/-!
# NullScript — errors in a source text

What can be wrong with the characters of a source text (lexical faults) and with the order of its
tokens (grammar faults), where it is wrong, and the wording of both.
-/

namespace NullScript

/-- What can be wrong with a token. A limit that was exceeded comes with its value. -/
inductive LexicalFault where
  | commentTooLong (max : Nat)
  /-- A double with too many digits behind the point. -/
  | fractionTooLong (max : Nat)
  | identifierTooLong (max : Nat)
  /-- A name of underscores alone. -/
  | onlyUnderscores (name : String)
  /-- A backslash in a string before a character that it does not go with. -/
  | unknownEscape (c : Char)
  /-- An integer, or the whole part of a double, above the limit. -/
  | numberTooLarge (max : Int64)
  | stringTooLong (max : Nat)
  /-- A string without its closing quote on the same line. -/
  | unclosedString
  /-- A character that starts no token. -/
  | unexpectedCharacter (c : Char)
deriving DecidableEq

/-- What can be wrong with the order of the tokens. -/
inductive GrammarFault where
  /-- A second function of the same name. -/
  | duplicateFunction (name : String)
  | invalidCondition
  | invalidExpression
  | invalidFunction
  | invalidParameter
  | typeExpected
  | invalidVariable
  | missingExpression
  | unmatchedParenthesis
  | blockExpected
deriving DecidableEq

/-- A fault of either kind. -/
inductive SourceFault where
  | lexical (fault : LexicalFault)
  | grammar (fault : GrammarFault)
deriving DecidableEq

/-- A fault and its place. -/
structure SourceError where
  fault : SourceFault
  position : Position
deriving DecidableEq

/-- A character as a message shows it. -/
def showChar (c : Char) : String := String.ofList (escapeChar c)

def LexicalFault.message : LexicalFault → String
  | .commentTooLong max => s!"Comment exceeds the maximum length of {max} characters."
  | .fractionTooLong max => s!"Double literal exceeds the maximum precision of {max} digits."
  | .identifierTooLong max => s!"Identifier exceeds the maximum length of {max} characters."
  | .onlyUnderscores name =>
    "Invalid identifier '" ++ name ++ "': identifiers cannot consist only of underscores."
  | .unknownEscape c => "Invalid escape sequence '\\" ++ showChar c ++ "' in string."
  | .numberTooLarge max => s!"Number literal exceeds the maximum value of {max.toInt}."
  | .stringTooLong max => s!"String exceeds the maximum length of {max} characters."
  | .unclosedString => "String literal is missing its closing quote."
  | .unexpectedCharacter c => "Unexpected character '" ++ showChar c ++ "'."

def GrammarFault.message : GrammarFault → String
  | .duplicateFunction name => "Function '" ++ name ++ "' is already declared."
  | .invalidCondition => "Invalid condition."
  | .invalidExpression => "Invalid expression."
  | .invalidFunction => "Invalid function declaration."
  | .invalidParameter => "Invalid function parameter declaration."
  | .typeExpected => "Expected a type."
  | .invalidVariable => "Invalid variable declaration."
  | .missingExpression => "Missing expression."
  | .unmatchedParenthesis => "Unmatched parenthesis."
  | .blockExpected => "Expected a block enclosed in '\x7b' and '\x7d'."

def SourceFault.message : SourceFault → String
  | .lexical fault => fault.message
  | .grammar fault => fault.message

/-- The error in words, its place first. -/
def SourceError.message (e : SourceError) : String :=
  s!"Error at line: {e.position.line}, column: {e.position.column}: {e.fault.message}"

end NullScript
