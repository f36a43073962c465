import NullScript.Main
import NullScript.Proofs.Attempts
import NullScript.Proofs.CallDepth
import NullScript.Proofs.Console
import NullScript.Proofs.Conversion
import NullScript.Proofs.Coverage
import NullScript.Proofs.CursorMoves
import NullScript.Proofs.DecimalIntegers
import NullScript.Proofs.DoubleLiterals
import NullScript.Proofs.Equality
import NullScript.Proofs.FirstDeclaration
import NullScript.Proofs.InputLines
import NullScript.Proofs.IntegerArithmetic
import NullScript.Proofs.IntegerOrder
import NullScript.Proofs.Isolation
import NullScript.Proofs.LargerLimits
import NullScript.Proofs.Lexemes
import NullScript.Proofs.LexicalScopes
import NullScript.Proofs.Lines
import NullScript.Proofs.LocalNames
import NullScript.Proofs.NumberLimit
import NullScript.Proofs.Parameters
import NullScript.Proofs.Rejections
import NullScript.Proofs.RoundTrip
import NullScript.Proofs.ScopeDiscipline
import NullScript.Proofs.StringLiterals
import NullScript.Proofs.Termination
import NullScript.Proofs.TypeSoundness
