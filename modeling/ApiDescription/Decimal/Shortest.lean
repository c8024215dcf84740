import ApiDescription.Decimal.Double
import ApiDescription.Text.Alphanumeric

/-!
# Numbers in text

The text of a double has the fewest digits that still read back as the same double, and among those
the nearest to it.  The digits are found on the grids of one, two, … seventeen digits by exact
arithmetic; their layout (positional from `0.0001` up to below `10 ^ 16`, scientific elsewhere) is
kept apart.

A whole number that someone wrote by hand may have blanks around it, a sign, digits of any script
and single underscores between digits.
-/

namespace ApiDescription.Decimal

/-- The reals that round to a double, as quotients with one common denominator. -/
structure Interval where
  lower : Nat
  value : Nat
  upper : Nat
  denominator : Nat
  /-- Whether the ends themselves round to the double. -/
  closed : Bool

def Interval.of (number : Magnitude) : Interval :=
  let gap := if number.mantissa = Nat.pow 2 52 ∧ -1074 < number.exponent then 1 else 2
  let scale : Nat := Nat.pow 2 (number.exponent - 2).toNat
  { lower := (4 * number.mantissa - gap) * scale
    value := 4 * number.mantissa * scale
    upper := (4 * number.mantissa + 2) * scale
    denominator := Nat.pow 2 (2 - number.exponent).toNat
    closed := number.mantissa % 2 == 0 }

def Interval.admits (interval : Interval) (candidate : Nat) (exponent : Int) : Bool :=
  let point := candidate * Nat.pow 10 exponent.toNat * interval.denominator
  let scale := Nat.pow 10 (-exponent).toNat
  if interval.closed then interval.lower * scale ≤ point && point ≤ interval.upper * scale
  else interval.lower * scale < point && point < interval.upper * scale

/-- The point of the grid `10 ^ exponent` that stands for the interval, if there is one: the nearer
of the value's two neighbours, the even one when both are equally near. -/
def Interval.onGrid? (interval : Interval) (exponent : Int) : Option Nat :=
  let scale := Nat.pow 10 (-exponent).toNat
  let unit := Nat.pow 10 exponent.toNat * interval.denominator
  let below := interval.value * scale / unit
  let above := below + 1
  match interval.admits below exponent, interval.admits above exponent with
  | true, false => some below
  | false, true => some above
  | false, false => none
  | true, true =>
    let toBelow := interval.value * scale - below * unit
    let toAbove := above * unit - interval.value * scale
    if toBelow < toAbove then some below
    else if toAbove < toBelow then some above
    else if below % 2 = 0 then some below
    else some above

/-- Number of decimal digits of the whole part of a quotient, or minus the number of zeros that
follow the point. -/
def decimalPlace (numerator denominator : Nat) : Int :=
  if denominator ≤ numerator then (Nat.toDigits 10 (numerator / denominator)).length
  else
    let inverse := denominator / numerator
    let length := (Nat.toDigits 10 inverse).length
    if denominator ≤ numerator * Nat.pow 10 (length - 1) then 1 - (length - 1 : Nat)
    else 1 - (length : Nat)

/-- Digits and the power of ten they are multiplied with. -/
structure Scientific where
  digits : Nat
  exponent : Int
  deriving DecidableEq, Repr

def Scientific.strip (number : Scientific) : Nat → Scientific
  | 0 => number
  | fuel + 1 =>
    if number.digits ≠ 0 ∧ number.digits % 10 = 0 then
      Scientific.strip ⟨number.digits / 10, number.exponent + 1⟩ fuel
    else number

/-- Search the grids from `count` digits on; with seventeen digits a grid always has a point. -/
def shortestFrom (interval : Interval) (place : Int) (count : Nat) : Nat → Scientific
  | 0 => ⟨interval.value / interval.denominator, 0⟩
  | fuel + 1 =>
    match interval.onGrid? (place - count) with
    | some digits => Scientific.strip ⟨digits, place - count⟩ 18
    | none => shortestFrom interval place (count + 1) fuel

/-- The shortest decimal of a positive finite double. -/
def shortest (number : Magnitude) : Scientific :=
  let interval := Interval.of number
  shortestFrom interval (decimalPlace interval.value interval.denominator) 1 17

def natText (value : Nat) : String :=
  String.ofList (Nat.toDigits 10 value)

def intText (value : Int) : String :=
  if value < 0 then "-" ++ natText value.natAbs else natText value.natAbs

/-- Lay out a positive decimal: positional while the leading digit stands between the fourth place
after the point and the sixteenth before it, scientific with a signed exponent of at least two
digits elsewhere.  `whole` is what a whole number ends with. -/
def Scientific.layout (number : Scientific) (whole : String) : String :=
  let digits := Nat.toDigits 10 number.digits
  let leading : Int := digits.length + number.exponent - 1
  if -4 ≤ leading ∧ leading < 16 then
    if 0 ≤ number.exponent then
      String.ofList (digits ++ List.replicate number.exponent.toNat '0') ++ whole
    else if 0 ≤ leading then
      String.ofList (digits.take (leading.toNat + 1)) ++ "." ++
        String.ofList (digits.drop (leading.toNat + 1))
    else
      "0." ++ String.ofList (List.replicate (-leading - 1).toNat '0' ++ digits)
  else
    let fraction := digits.drop 1
    let point := if fraction.isEmpty then "" else "." ++ String.ofList fraction
    let exponentDigits := natText leading.natAbs
    let padded := if leading.natAbs < 10 then "0" ++ exponentDigits else exponentDigits
    String.ofList (digits.take 1) ++ point ++ "e" ++ (if leading < 0 then "-" else "+") ++ padded

def magnitudeText (number : Magnitude) (whole : String) : String :=
  if number.mantissa = 0 then "0" ++ whole else (shortest number).layout whole

/-- Text of a double: the shortest digits that read back, `inf` and `nan`. -/
def floatText (value : Float) : String :=
  if value.isNaN then "nan"
  else
    let sign := if isNegative value then "-" else ""
    if value.isInf then sign ++ "inf" else sign ++ magnitudeText (magnitude value) ".0"

/-- The blanks that may stand around a number. -/
def isBlank (character : Char) : Bool :=
  let code := character.toNat
  (0x09 ≤ code && code ≤ 0x0d) || code == 0x20 || code == 0x85 || code == 0xa0 || code == 0x1680 ||
    (0x2000 ≤ code && code ≤ 0x200a) || code == 0x2028 || code == 0x2029 || code == 0x202f ||
    code == 0x205f || code == 0x3000

/-- Digits with single underscores between them, read after `value`; `opened` tells that a digit has
to come next. -/
def readDigits (value : Nat) (opened : Bool) : List Char → Option Nat
  | [] => if opened then none else some value
  | '_' :: rest => if opened then none else readDigits value true rest
  | character :: rest =>
    match Text.decimalValue? character with
    | some digit => readDigits (10 * value + digit) false rest
    | none => none

def digitLimit : Nat := 4300

def readSigned (characters : List Char) : Option Int :=
  let magnitude (digits : List Char) : Option Nat :=
    if (digits.filter (· != '_')).length > digitLimit then none else readDigits 0 true digits
  match characters with
  | '-' :: digits => (magnitude digits).map fun value => -(value : Int)
  | '+' :: digits => (magnitude digits).map fun value => (value : Int)
  | digits => (magnitude digits).map fun value => (value : Int)

def readInt (text : String) : Option Int :=
  let trimmed := (text.toList.dropWhile isBlank).reverse.dropWhile isBlank
  readSigned trimmed.reverse

end ApiDescription.Decimal
