import ApiDescription.Expression.Value

/-!
# Arithmetic of predicates

Sums, products, quotients, remainders and powers of numbers, and the joining and repeating of
sequences.  Integers are exact; an integer meets a double as the nearest double.
-/

namespace ApiDescription

namespace Number

/-- A number as a double; integers beyond the range have none. -/
def toFloat (value : Number) : Except Fault Float :=
  match value with
  | int integer =>
    let double := Decimal.ofInt integer
    if double.isInf then .error .overflow else .ok double
  | float double => .ok double
  | complex _ _ => .error .wrongKind

def toComplex : Number → Except Fault (Float × Float)
  | complex real imaginary => .ok (real, imaginary)
  | value => do return (← value.toFloat, 0.0)

/-- Apply an operation in the smallest kind of number that holds both operands. -/
def combine (onInts : Int → Int → Except Fault Number)
    (onFloats : Float → Float → Except Fault Number)
    (onComplex : Float × Float → Float × Float → Except Fault Number) (left right : Number) :
    Except Fault Number := do
  match left, right with
  | int a, int b => onInts a b
  | complex _ _, _ | _, complex _ _ => onComplex (← left.toComplex) (← right.toComplex)
  | _, _ => onFloats (← left.toFloat) (← right.toFloat)

def add : Number → Number → Except Fault Number :=
  combine (fun a b => .ok (int (a + b))) (fun a b => .ok (float (a + b)))
    (fun a b => .ok (complex (a.1 + b.1) (a.2 + b.2)))

def subtract : Number → Number → Except Fault Number :=
  combine (fun a b => .ok (int (a - b))) (fun a b => .ok (float (a - b)))
    (fun a b => .ok (complex (a.1 - b.1) (a.2 - b.2)))

def multiplyComplex (a b : Float × Float) : Float × Float :=
  (a.1 * b.1 - a.2 * b.2, a.1 * b.2 + a.2 * b.1)

def multiply : Number → Number → Except Fault Number :=
  combine (fun a b => .ok (int (a * b))) (fun a b => .ok (float (a * b)))
    (fun a b => let product := multiplyComplex a b; .ok (complex product.1 product.2))

/-- Quotient of integers, rounded to the nearest double; it has a sign even when it is zero. -/
def divideInts (a b : Int) : Except Fault Number :=
  if b = 0 then .error .divisionByZero
  else
    let quotient := Decimal.ofQuotient (decide (a < 0) != decide (b < 0)) a.natAbs b.natAbs
    if quotient.isInf then .error .overflow else .ok (float quotient)

/-- Quotient of complex numbers, scaled by the larger part of the divisor. -/
def divideComplex (a b : Float × Float) : Except Fault (Float × Float) :=
  if b.1 == 0.0 && b.2 == 0.0 then .error .divisionByZero
  else if b.2.abs ≤ b.1.abs then
    let ratio := b.2 / b.1
    let scale := b.1 + b.2 * ratio
    .ok ((a.1 + a.2 * ratio) / scale, (a.2 - a.1 * ratio) / scale)
  else
    let ratio := b.1 / b.2
    let scale := b.1 * ratio + b.2
    .ok ((a.1 * ratio + a.2) / scale, (a.2 * ratio - a.1) / scale)

def divide : Number → Number → Except Fault Number :=
  combine divideInts
    (fun a b => if b == 0.0 then .error .divisionByZero else .ok (float (a / b)))
    (fun a b => do let quotient ← divideComplex a b; return complex quotient.1 quotient.2)

def moduloFloats (a b : Float) : Except Fault Number :=
  if b == 0.0 then .error .divisionByZero
  else if a.isNaN || b.isNaN || a.isInf then .ok (float (0.0 / 0.0))
  else
    let remainder := if b.isInf then a else Decimal.truncatedRemainder a b
    if remainder == 0.0 then .ok (float (if Decimal.isNegative b then -0.0 else 0.0))
    else if Decimal.isNegative b != Decimal.isNegative remainder then .ok (float (remainder + b))
    else .ok (float remainder)

def modulo : Number → Number → Except Fault Number :=
  combine (fun a b => if b = 0 then .error .divisionByZero else .ok (int (Int.fmod a b)))
    moduloFloats (fun _ _ => .error .wrongKind)

def isOdd (value : Float) : Bool :=
  !value.isInf && !value.isNaN && value == value.floor &&
    (Decimal.truncate value) % 2 != 0

/-- Power of a complex number by repeated squaring: `square` is multiplied to `product` for each
binary digit one of the exponent, lowest first. -/
def squarings (product square : Float × Float) (exponent : Nat) : Float × Float :=
  if exponent = 0 then product
  else
    squarings (if exponent % 2 = 1 then multiplyComplex product square else product)
      (multiplyComplex square square) (exponent / 2)
  termination_by exponent

def powerWhole (base : Float × Float) (exponent : Int) : Except Fault (Float × Float) :=
  let power := squarings (1.0, 0.0) base exponent.natAbs
  if 0 < exponent then .ok power else divideComplex (1.0, 0.0) power

/-- Power of complex numbers by modulus and angle.  An angle that is not finite has no direction. -/
def powerPolar (a b : Float × Float) : Except Fault (Float × Float) :=
  if a.1 == 0.0 && a.2 == 0.0 then
    if b.2 == 0.0 && 0.0 < b.1 then .ok (0.0, 0.0) else .error .divisionByZero
  else
    let modulus := (a.1 * a.1 + a.2 * a.2).sqrt
    let angle := Float.atan2 a.2 a.1
    let size := Float.pow modulus b.1 * (if b.2 == 0.0 then 1.0 else Float.exp (-angle * b.2))
    let phase := angle * b.1 + (if b.2 == 0.0 then 0.0 else b.2 * Float.log modulus)
    if phase.isInf then .error .divisionByZero
    else .ok (size * Float.cos phase, size * Float.sin phase)

/-- Power of complex numbers; small whole exponents are multiplied out. -/
def powerComplex (a b : Float × Float) : Except Fault Number := do
  let power ←
    if b.2 == 0.0 && b.1 == b.1.floor && b.1.abs ≤ 100.0 then powerWhole a (Decimal.truncate b.1)
    else powerPolar a b
  if power.1.isInf || power.2.isInf then .error .overflow
  else return complex power.1 power.2

/-- Power of doubles.  A negative base with a fractional exponent has a complex power. -/
def powerFloats (a b : Float) : Except Fault Number :=
  if b == 0.0 then .ok (float 1.0)
  else if a.isNaN then .ok (float a)
  else if b.isNaN then .ok (float (if a == 1.0 then 1.0 else b))
  else if b.isInf then
    let size := a.abs
    if size == 1.0 then .ok (float 1.0)
    else if decide (0.0 < b) == decide (1.0 < size) then .ok (float (1.0 / 0.0))
    else .ok (float 0.0)
  else if a.isInf then
    if 0.0 < b then .ok (float (if isOdd b then a else a.abs))
    else .ok (float (if isOdd b && Decimal.isNegative a then -0.0 else 0.0))
  else if a == 0.0 then
    if b < 0.0 then .error .divisionByZero else .ok (float (if isOdd b then a else 0.0))
  else if a < 0.0 && !(b == b.floor) then powerComplex (a, 0.0) (b, 0.0)
  else
    let size := if a.abs == 1.0 then 1.0 else Float.pow a.abs b
    if size.isInf then .error .overflow
    else .ok (float (if a < 0.0 && isOdd b then -size else size))

/-- A whole power of an integer; for zero and the units only the parity of the exponent counts. -/
def integerPower (base : Int) (exponent : Nat) : Int :=
  if base.natAbs ≤ 1 ∧ exponent ≠ 0 then Int.pow base (2 - exponent % 2) else Int.pow base exponent

def power : Number → Number → Except Fault Number :=
  combine
    (fun a b => do
      if 0 ≤ b then return int (integerPower a b.toNat)
      else powerFloats (← toFloat (int a)) (← toFloat (int b)))
    powerFloats powerComplex

end Number

namespace Value

def onNumbers (operation : Number → Number → Except Fault Number) (left right : Value) :
    Except Fault Value :=
  match left.asNumber?, right.asNumber? with
  | some a, some b => do return number (← operation a b)
  | _, _ => .error .wrongKind

/-- Sum of numbers; texts, lists and tuples are joined. -/
def add (left right : Value) : Except Fault Value :=
  match left, right with
  | text a, text b => .ok (text (a ++ b))
  | list a, list b => .ok (list (a ++ b))
  | tuple a, tuple b => .ok (tuple (a ++ b))
  | _, _ => onNumbers Number.add left right

/-- The count of a repetition: negative counts as none, and no count exceeds a machine word.  An
empty sequence stays empty, and one that would be too long to be held is not made. -/
def repeatCount (length : Nat) (count : Int) : Except Fault Nat :=
  if count.natAbs < Nat.pow 2 63 then
    if length = 0 then .ok 0
    else if length * count.toNat < Nat.pow 2 32 then .ok count.toNat
    else .error .overflow
  else .error .overflow

def repeated (sequence : Value) (count : Int) : Except Fault Value := do
  match sequence with
  | text value => return text (Text.repeated value (← repeatCount value.length count))
  | list items => return list (List.replicate (← repeatCount items.length count) items).flatten
  | tuple items => return tuple (List.replicate (← repeatCount items.length count) items).flatten
  | _ => .error .wrongKind

def isSequence : Value → Bool
  | text _ | list _ | tuple _ => true
  | _ => false

def multiply (left right : Value) : Except Fault Value :=
  match left.isSequence, right.asInt?, right.isSequence, left.asInt? with
  | true, some count, _, _ => repeated left count
  | _, _, true, some count => repeated right count
  | _, _, _, _ => onNumbers Number.multiply left right

def textMethods : List String :=
  ["capitalize", "casefold", "center", "count", "encode", "endswith", "expandtabs", "find",
    "format",
   "format_map", "index", "isalnum", "isalpha", "isascii", "isdecimal", "isdigit", "isidentifier",
   "islower", "isnumeric", "isprintable", "isspace", "istitle", "isupper", "join", "ljust", "lower",
   "lstrip", "maketrans", "partition", "removeprefix", "removesuffix", "replace", "rfind", "rindex",
   "rjust", "rpartition", "rsplit", "rstrip", "split", "splitlines", "startswith", "strip",
   "swapcase", "title", "translate", "upper", "zfill"]

def listMethods : List String :=
  ["append", "clear", "copy", "count", "extend", "index", "insert", "pop", "remove", "reverse",
   "sort"]

def dictMethods : List String :=
  ["clear", "copy", "fromkeys", "get", "items", "keys", "pop", "popitem", "setdefault", "update",
   "values"]

def intMethods : List String :=
  ["as_integer_ratio", "bit_count", "bit_length", "conjugate", "from_bytes", "to_bytes"]

def floatMethods : List String :=
  ["as_integer_ratio", "conjugate", "fromhex", "hex", "is_integer"]

def method (methods : List String) (label : String) : Except Fault Value :=
  if methods.contains label then .ok (object "builtin_function_or_method") else .error .noAttribute

def numberAttribute (value : Number) (label : String) : Except Fault Value :=
  match value, label with
  | .int _, "real" | .int _, "numerator" => .ok (number value)
  | .int _, "imag" => .ok (number (.int 0))
  | .int _, "denominator" => .ok (number (.int 1))
  | .int _, _ => method intMethods label
  | .float _, "real" => .ok (number value)
  | .float _, "imag" => .ok (number (.float 0.0))
  | .float _, _ => method floatMethods label
  | .complex real _, "real" => .ok (number (.float real))
  | .complex _ imaginary, "imag" => .ok (number (.float imaginary))
  | .complex _ _, _ => method ["conjugate"] label

def getAttribute (value : Value) (label : String) : Except Fault Value :=
  if label = "__class__" then .ok (object "type")
  else
    match value with
    | number amount => numberAttribute amount label
    | bool truth => numberAttribute (.int (if truth then 1 else 0)) label
    | text _ => method textMethods label
    | list _ => method listMethods label
    | tuple _ => method ["count", "index"] label
    | dict _ _ => method dictMethods label
    | none | object _ => .error .noAttribute

end Value

end ApiDescription
