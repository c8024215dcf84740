import ApiDescription.Decimal.Shortest

/-!
# Numbers of the expression language

A number is an integer of any size, a double, or a complex number whose parts are doubles.  Numbers
of different kinds are equal when they have the same value.
-/

namespace ApiDescription

/-- A number literal or the number a computation yields. -/
inductive Number where
  | int (value : Int)
  | float (value : Float)
  | complex (real imaginary : Float)
  deriving DecidableEq, Repr

namespace Number

def negate : Number → Number
  | int value => int (-value)
  | float value => float (-value)
  | complex real imaginary => complex (-real) (-imaginary)

/-- Text of one part of a complex number: no decimal point on whole numbers. -/
def partText (value : Float) : String :=
  if value.isNaN then "nan"
  else
    let sign := if Decimal.isNegative value then "-" else ""
    if value.isInf then sign ++ "inf"
    else sign ++ Decimal.magnitudeText (Decimal.magnitude value) ""

def literal : Number → String
  | int value => Decimal.intText value
  | float value => Decimal.floatText value
  | complex real imaginary =>
    if real == 0.0 && !Decimal.isNegative real then partText imaginary ++ "j"
    else
      let sign := if Decimal.isNegative imaginary && !imaginary.isNaN then "" else "+"
      "(" ++ partText real ++ sign ++ partText imaginary ++ "j)"

/-- The most digits an integer literal may have. -/
def maxDigits : Nat := 4300

/-- Whether the literal of a number may be written: integers have a limit, other numbers have
not. -/
def hasLiteral : Number → Bool
  | int value => (Nat.toDigits 10 value.natAbs).length ≤ maxDigits
  | _ => true

def sameIntFloat (left : Int) (right : Float) : Bool :=
  !right.isNaN && Decimal.compareInt left right == .eq

def same : Number → Number → Bool
  | int left, int right => left == right
  | int left, float right => sameIntFloat left right
  | float left, int right => sameIntFloat right left
  | float left, float right => left == right
  | complex real imaginary, int right => imaginary == 0.0 && sameIntFloat right real
  | int left, complex real imaginary => imaginary == 0.0 && sameIntFloat left real
  | complex real imaginary, float right => imaginary == 0.0 && real == right
  | float left, complex real imaginary => imaginary == 0.0 && left == real
  | complex real imaginary, complex real' imaginary' => real == real' && imaginary == imaginary'

def isTruthy : Number → Bool
  | int value => value != 0
  | float value => !(value == 0.0)
  | complex real imaginary => !(real == 0.0 && imaginary == 0.0)

end Number

end ApiDescription
