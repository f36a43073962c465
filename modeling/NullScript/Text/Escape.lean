import NullScript.Text.Printable

/-!
# NullScript — characters inside messages

A message that quotes a character shows it on one line and unambiguously: quotes, the backslash
and the common controls have short escapes, printable characters stand for themselves, and all
others are given by their code point.
-/

namespace NullScript

/-- The code point in lower-case hexadecimal digits, between `\u{` and `}`. -/
def codePointEscape (c : Char) : List Char :=
  ['\\', 'u', '\x7b'] ++ Nat.toDigits 16 c.toNat ++ ['\x7d']

/-- How a message shows the character. -/
def escapeChar (c : Char) : List Char :=
  if c = '\x00' then ['\\', '0']
  else if c = '\t' then ['\\', 't']
  else if c = '\r' then ['\\', 'r']
  else if c = '\n' then ['\\', 'n']
  else if c = '\\' ∨ c = '"' ∨ c = '\'' then ['\\', c]
  else if isPrintable c then [c]
  else codePointEscape c

end NullScript
