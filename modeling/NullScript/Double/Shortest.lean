import NullScript.Double.Binary

/-!
# NullScript — the shortest decimal of a double

Among the decimals that read back as a given double, the one with the fewest digits is its text;
of several with that number of digits it is the nearest, and of two equally near the greater.

The decimals `digits * 10 ^ exponent` with a fixed exponent form a grid. If a point of the grid
reads back, then so does one of the two that enclose the double, so each grid needs two tests, and
going from coarse grids to fine ones finds the fewest digits first. All comparisons are made in
natural numbers.
-/

namespace NullScript.Double

/-- The decimal `digits * 10 ^ exponent`. -/
structure Decimal where
  digits : Nat
  exponent : Int
deriving DecidableEq, Repr

/-- A double `mantissa * 2 ^ exponent` and the reals around it that round to it, all in units of
a quarter of its last place. -/
structure Neighbourhood where
  /-- The double itself, in quarters of its last place. -/
  centre : Nat
  /-- The distance down to the edge: shorter at a power of two. -/
  below : Nat
  /-- The binary exponent of the unit. -/
  exponent : Int
  /-- Do the edges belong to it? They do if the mantissa is even. -/
  closed : Bool

/-- The reals that round to `mantissa * 2 ^ exponent`. -/
def neighbourhood (mantissa : Nat) (exponent : Int) : Neighbourhood where
  centre := 4 * mantissa
  below := if mantissa = leadingBit ∧ minExponent < exponent then 1 else 2
  exponent := exponent - 2
  closed := mantissa % 2 = 0

/-- Tests the two points of the grid `10 ^ k` that enclose the centre, and takes the nearer one of
those that lie in the neighbourhood. -/
def Neighbourhood.onGrid (n : Neighbourhood) (k : Int) : Option Nat :=
  let scale := Nat.pow 10 (-k).toNat <<< n.exponent.toNat
  let step := Nat.pow 10 k.toNat <<< (-n.exponent).toNat
  let centre := n.centre * scale
  let lower := centre / step
  let low := (n.centre - n.below) * scale
  let high := (n.centre + 2) * scale
  let lowerFits := low < lower * step || (n.closed && low = lower * step)
  let upperFits := (lower + 1) * step < high || (n.closed && (lower + 1) * step = high)
  match lowerFits, upperFits with
  | true, true =>
    some (if centre - lower * step < (lower + 1) * step - centre then lower else lower + 1)
  | true, false => some lower
  | false, true => some (lower + 1)
  | false, false => none

/-- The first hit on the grids `10 ^ k`, `10 ^ (k - 1)`, … -/
def Neighbourhood.search (n : Neighbourhood) : Nat → Int → Decimal
  | 0, k => ⟨n.centre, k⟩
  | tries + 1, k =>
    match n.onGrid k with
    | some digits => ⟨digits, k⟩
    | none => n.search tries (k - 1)

/-- A power of ten that is at least the leading decimal place of `mantissa * 2 ^ exponent`, and at
most ten times as large. -/
def leadingPlace (mantissa : Nat) (exponent : Int) : Int :=
  ((mantissa.log2 + exponent) * 1233).fdiv 4096 + 1

/-- The shortest decimal that reads back as `mantissa * 2 ^ exponent`. Seventeen digits always
suffice. -/
def shortest (mantissa : Nat) (exponent : Int) : Decimal :=
  (neighbourhood mantissa exponent).search 20 (leadingPlace mantissa exponent)

end NullScript.Double
