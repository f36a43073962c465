/-!
# NullScript — doubles as binary fractions

A finite double is a signed multiple of a power of two. `decode` gives that view, `ofDyadic` goes
back, and the operations that are not primitive are defined through the two: the remainder of a
division, truncation to an integer and the total order that comparisons use.
-/

namespace NullScript.Double

/-- What a double stands for. -/
inductive Decoded where
  | nan
  | infinite (negative : Bool)
  /-- The number `mantissa * 2 ^ exponent`, with its sign. -/
  | finite (negative : Bool) (mantissa : Nat) (exponent : Int)
deriving DecidableEq, Repr

/-- The bit above those of the fraction. -/
def leadingBit : Nat := Nat.pow 2 52

/-- The bit that makes a double negative. -/
def signBit : Nat := Nat.pow 2 63

/-- The exponent of the least positive double. -/
def minExponent : Int := -1074

/-- Reads sign, exponent and fraction from the bits. -/
def decode (x : Float) : Decoded :=
  let bits := x.toBits.toNat
  let negative := decide (signBit ≤ bits)
  let biased := bits / leadingBit % 2048
  let fraction := bits % leadingBit
  if biased = 2047 then
    if fraction = 0 then .infinite negative else .nan
  else if biased = 0 then .finite negative fraction minExponent
  else .finite negative (leadingBit + fraction) ((biased : Int) - 1075)

/-- The double `mantissa * 2 ^ exponent` with a sign, for a mantissa below `2 ^ 53` and an
exponent of at least `minExponent`. -/
def ofDyadic (negative : Bool) (mantissa : Nat) (exponent : Int) : Float :=
  let shift := min (52 - mantissa.log2) (exponent - minExponent).toNat
  let scaled := mantissa <<< shift
  let magnitude :=
    if scaled < leadingBit then scaled
    else scaled - leadingBit + (exponent - shift + 1075).toNat * leadingBit
  Float.ofBits (UInt64.ofNat (magnitude + if negative then signBit else 0))

/-- The double that is no number. -/
def nan : Float := 0.0 / 0.0

def infinity : Float := 1.0 / 0.0

/-- The remainder of the division truncated towards zero. It is exact and has the sign of the
dividend. -/
def remainder (x y : Float) : Float :=
  match decode x, decode y with
  | .nan, _ | .infinite _, _ | _, .nan | _, .finite _ 0 _ => nan
  | .finite .., .infinite _ => x
  | .finite negative m e, .finite _ m' e' =>
    let low := min e e'
    ofDyadic negative ((m <<< (e - low).toNat) % (m' <<< (e' - low).toNat)) low

/-- The nearest double, the one with the even mantissa if there are two. -/
def ofInt64 (n : Int64) : Float := Float.ofInt n.toInt

/-- The nearest integer to one that may lie outside of 64 bits. -/
def clampToInt64 (n : Int) : Int64 :=
  if n < Int64.minValue.toInt then Int64.minValue
  else if Int64.maxValue.toInt < n then Int64.maxValue
  else Int64.ofInt n

/-- The whole part; what lies outside of 64 bits gives the nearest integer within, and what is no
number gives zero. -/
def toInt64 (x : Float) : Int64 :=
  match decode x with
  | .nan => 0
  | .infinite negative => if negative then Int64.minValue else Int64.maxValue
  | .finite negative m e =>
    let magnitude : Int := if 0 ≤ e then m <<< e.toNat else m >>> (-e).toNat
    clampToInt64 (if negative then -magnitude else magnitude)

/-- The order of doubles in which what is no number equals itself and is the greatest. -/
def order (x y : Float) : Ordering :=
  if x.isNaN then (if y.isNaN then .eq else .gt)
  else if y.isNaN then .lt
  else if x < y then .lt
  else if y < x then .gt
  else .eq

end NullScript.Double
