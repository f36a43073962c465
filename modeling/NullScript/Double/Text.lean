import NullScript.Integer
import NullScript.Double.Shortest

/-!
# NullScript — doubles as text

A double is written in its shortest decimal, always with a fraction or an exponent, so that it
never looks like an integer. It is read from a decimal with an optional sign, point and exponent,
or from one of the words for infinity and for what is no number.
-/

namespace NullScript.Double

-- ---------------------------------------------------------------------------
-- Writing
-- ---------------------------------------------------------------------------

/-- Numbers whose leading place is at least `10 ^ plainFrom` and below `10 ^ plainBelow` are
written without an exponent. -/
def plainFrom : Int := -4

@[inherit_doc plainFrom]
def plainBelow : Int := 16

/-- The decimal `0.digits * 10 ^ point` without an exponent and with at least one digit on each
side of the point. -/
def plain (digits : List Char) (point : Int) : List Char :=
  if point ≤ 0 then ['0', '.'] ++ List.replicate (-point).toNat '0' ++ digits
  else
    let whole := digits.take point.toNat
    let fraction := digits.drop point.toNat
    whole ++ List.replicate (point.toNat - digits.length) '0' ++ ['.'] ++
      if fraction.isEmpty then ['0'] else fraction

/-- The decimal `0.digits * 10 ^ point` with one digit before the point and an exponent. -/
def scientific (digits : List Char) (point : Int) : List Char :=
  let fraction := digits.drop 1
  digits.take 1 ++ (if fraction.isEmpty then [] else '.' :: fraction) ++
    ['e'] ++ (point - 1).repr.toList

/-- The text of a decimal. -/
def Decimal.display (d : Decimal) : List Char :=
  let written := Nat.toDigits 10 d.digits
  let point := d.exponent + written.length
  let digits := (written.reverse.dropWhile (· = '0')).reverse
  if plainFrom < point ∧ point ≤ plainBelow then plain digits point else scientific digits point

/-- The text of a double. -/
def display (x : Float) : String :=
  match decode x with
  | .nan => "NaN"
  | .infinite negative => if negative then "-inf" else "inf"
  | .finite negative m e =>
    let magnitude := if m = 0 then ['0', '.', '0'] else (shortest m e).display
    String.ofList (if negative then '-' :: magnitude else magnitude)

-- ---------------------------------------------------------------------------
-- Reading
-- ---------------------------------------------------------------------------

/-- The double nearest to `digits * 10 ^ exponent`. -/
def ofDecimal (d : Decimal) : Float :=
  Float.ofScientific d.digits (d.exponent < 0) d.exponent.natAbs

/-- The exponent behind a decimal: nothing, or `e`, an optional sign and digits. -/
def parseExponent? : List Char → Option Int
  | [] => some 0
  | e :: text =>
    if e = 'e' ∨ e = 'E' then
      match text with
      | '-' :: digits => (Integer.parseNat? digits).map fun n => -n
      | '+' :: digits => (Integer.parseNat? digits).map fun n => n
      | digits => (Integer.parseNat? digits).map fun n => n
    else none

/-- A decimal without a sign: digits with an optional point among or beside them, then an optional
exponent. -/
def parseDecimal? (text : List Char) : Option Decimal :=
  let whole := text.takeWhile Char.isDigit
  let (fraction, rest) :=
    match text.dropWhile Char.isDigit with
    | '.' :: rest => (rest.takeWhile Char.isDigit, rest.dropWhile Char.isDigit)
    | rest => ([], rest)
  if whole.isEmpty && fraction.isEmpty then none
  else (parseExponent? rest).map fun exponent =>
    ⟨Nat.ofDigitChars 10 (whole ++ fraction) 0, exponent - fraction.length⟩

/-- A double without a sign. The words are read in any case. -/
def parseMagnitude? (text : List Char) : Option Float :=
  let word := text.map Char.toLower
  if word = ['n', 'a', 'n'] then some nan
  else if word = ['i', 'n', 'f'] ∨ word = ['i', 'n', 'f', 'i', 'n', 'i', 't', 'y'] then
    some infinity
  else (parseDecimal? text).map ofDecimal

/-- The double that a text denotes. -/
def parse? : List Char → Option Float
  | '-' :: text => (parseMagnitude? text).map Float.neg
  | '+' :: text => parseMagnitude? text
  | text => parseMagnitude? text

end NullScript.Double
