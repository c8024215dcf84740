/-!
# Doubles as exact quotients

A finite double is an integer times a power of two.  This module takes a double apart into that form
and rounds an arbitrary quotient of naturals to the nearest double, so that decimal text, integer
division and remainders can be computed exactly.
-/

namespace ApiDescription.Decimal

structure Magnitude where
  mantissa : Nat
  exponent : Int
  deriving DecidableEq, Repr

/-- Sign of a double, also of zeros and of values that are no numbers. -/
def isNegative (value : Float) : Bool :=
  value.toBits.toNat / Nat.pow 2 63 == 1

def magnitude (value : Float) : Magnitude :=
  let bits : Nat := value.toBits.toNat
  let fraction : Nat := bits % Nat.pow 2 52
  let biased : Nat := bits / Nat.pow 2 52 % Nat.pow 2 11
  if biased = 0 then ⟨fraction, -1074⟩ else ⟨fraction + Nat.pow 2 52, (biased : Int) - 1075⟩

def Magnitude.numerator (number : Magnitude) : Nat :=
  number.mantissa * Nat.pow 2 number.exponent.toNat

def Magnitude.denominator (number : Magnitude) : Nat :=
  Nat.pow 2 (-number.exponent).toNat

/-- A quotient rounded to the nearest natural, halves to the even neighbour. -/
def roundQuotient (numerator denominator : Nat) : Nat :=
  let quotient := numerator / denominator
  let twice := 2 * (numerator % denominator)
  if twice < denominator then quotient
  else if denominator < twice then quotient + 1
  else if quotient % 2 = 0 then quotient
  else quotient + 1

/-- Place of the leading binary digit of a positive quotient. -/
def leadingPlace (numerator denominator : Nat) : Int :=
  let place : Int := (Nat.log2 numerator : Int) - (Nat.log2 denominator : Int)
  if numerator * Nat.pow 2 (-place).toNat < denominator * Nat.pow 2 place.toNat then place - 1
  else place

/-- The double nearest to a quotient, halves to the even mantissa; infinite beyond the range. -/
def ofQuotient (negative : Bool) (numerator denominator : Nat) : Float :=
  let sign : Nat := if negative then Nat.pow 2 63 else 0
  let magnitudeBits : Nat :=
    if numerator = 0 then 0
    else
      let exponent : Int := max (leadingPlace numerator denominator - 52) (-1074)
      let mantissa :=
        roundQuotient (numerator * Nat.pow 2 (-exponent).toNat)
          (denominator * Nat.pow 2 exponent.toNat)
      if 971 < exponent ∨ (exponent = 971 ∧ Nat.pow 2 53 ≤ mantissa) then 0x7ff * Nat.pow 2 52
      else ((exponent + 1074).toNat * Nat.pow 2 52 + mantissa)
  Float.ofBits (UInt64.ofNat (sign + magnitudeBits))

def ofInt (value : Int) : Float :=
  ofQuotient (value < 0) value.natAbs 1

/-- The double nearest to `digits * 10 ^ exponent`.  An exponent far out of the range of doubles
decides the result by itself. -/
def ofScientific (digits : Nat) (exponent : Int) : Float :=
  if digits = 0 ∨ exponent + Nat.log2 digits < -400 then ofQuotient false 0 1
  else if 400 < exponent then ofQuotient false (Nat.pow 10 400) 1
  else ofQuotient false (digits * Nat.pow 10 exponent.toNat) (Nat.pow 10 (-exponent).toNat)

/-- Order of an integer relative to a double that is a number. -/
def compareInt (left : Int) (right : Float) : Ordering :=
  if right.isInf then if isNegative right then .gt else .lt
  else
    let parts := magnitude right
    let numerator : Int :=
      if isNegative right then -(parts.numerator : Int) else (parts.numerator : Int)
    compare (left * parts.denominator) numerator

/-- The integer part of a finite double, towards zero. -/
def truncate (value : Float) : Int :=
  let parts := magnitude value
  let whole : Int := parts.numerator / parts.denominator
  if isNegative value then -whole else whole

/-- Remainder of the magnitudes of two finite doubles, with the sign of the first; exact. -/
def truncatedRemainder (left right : Float) : Float :=
  let a := magnitude left
  let b := magnitude right
  ofQuotient (isNegative left)
    (a.numerator * b.denominator % (b.numerator * a.denominator))
    (a.denominator * b.denominator)

end ApiDescription.Decimal
