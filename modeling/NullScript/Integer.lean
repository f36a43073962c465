/-!
# NullScript — integers

Integers have 64 bits and wrap around. This module reads and writes them in decimal digits.

* `Integer.accumulate` takes the digits of a literal one by one and notices the first one that
  takes the value beyond a limit.
* `Integer.parse?` reads a text that holds an integer and nothing else.
-/

namespace NullScript.Integer

/-- The integer in decimal digits, with a minus sign when it is negative. -/
def display (n : Int64) : String := n.toInt.repr

/-- The value of a decimal digit. -/
def digitValue (c : Char) : Nat := c.toNat - '0'.toNat

/-- What a run of digits adds up to. -/
structure Accumulated where
  /-- The value, wrapped around to 64 bits. -/
  value : Int64
  /-- Did the value go beyond the limit on the way? -/
  overflowed : Bool
deriving DecidableEq, Repr

/-- The difference `a - b`, held at the least integer when it lies below. -/
def saturatingSub (a : Int64) (b : Nat) : Int64 :=
  if a.toInt - b < Int64.minValue.toInt then Int64.minValue else Int64.ofInt (a.toInt - b)

/-- One more digit. The new value exceeds `max` exactly if the old one exceeds
`(max - digit) / 10`. -/
def Accumulated.push (max : Int64) (acc : Accumulated) (digit : Nat) : Accumulated where
  value := acc.value * 10 + Int64.ofNat digit
  overflowed := acc.overflowed || decide (saturatingSub max digit / 10 < acc.value)

/-- Takes the decimal digits of a text in order; characters that are no digits are passed over. -/
def accumulate (max : Int64) (text : List Char) : Accumulated :=
  ((text.filter Char.isDigit).map digitValue).foldl (Accumulated.push max) ⟨0, false⟩

/-- The integer as 64 bits, if it fits into them. -/
def ofInt? (n : Int) : Option Int64 :=
  if Int64.minValue.toInt ≤ n ∧ n ≤ Int64.maxValue.toInt then some (Int64.ofInt n) else none

/-- The natural number that a non-empty run of digits denotes. -/
def parseNat? (text : List Char) : Option Nat :=
  if !text.isEmpty && text.all Char.isDigit then some (Nat.ofDigitChars 10 text 0) else none

/-- The integer that a text denotes: an optional sign, then digits, and within 64 bits. -/
def parse? : List Char → Option Int64
  | '-' :: digits => (parseNat? digits).bind fun n => ofInt? (-n)
  | '+' :: digits => (parseNat? digits).bind fun n => ofInt? n
  | digits => (parseNat? digits).bind fun n => ofInt? n

end NullScript.Integer
