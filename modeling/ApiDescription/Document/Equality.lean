import ApiDescription.Document.Basic
import ApiDescription.Decimal.Double

/-!
# Equality of documents

Two documents are the same when they denote the same value: numbers are compared by value, whether
they are written as integers, decimals or truth values, and the fields of an object in any order.
There is one value that is not a number; it differs from itself, yet a list that holds it is the
same list, and it is among the values of that list.
-/

namespace ApiDescription.Doc

/-- The integer that a truth value or an integer stands for. -/
def asInt? : Doc → Option Int
  | bool value => some (if value then 1 else 0)
  | int value => some value
  | _ => none

def sameIntFloat (left : Int) (right : Float) : Bool :=
  !right.isNaN && Decimal.compareInt left right == .eq

def bothNaN : Doc → Doc → Bool
  | float left, float right => left.isNaN && right.isNaN
  | _, _ => false

mutual

def same : Doc → Doc → Bool
  | null, null => true
  | text left, text right => left == right
  | list left, list right => sameItems left right
  | object left, object right => left.length == right.length && sameFields left right
  | bool left, right =>
    match right with
    | bool value => left == value
    | int value => (if left then 1 else 0) == value
    | float value => sameIntFloat (if left then 1 else 0) value
    | _ => false
  | int left, right =>
    match right with
    | bool value => left == (if value then 1 else 0)
    | int value => left == value
    | float value => sameIntFloat left value
    | _ => false
  | float left, right =>
    match right with
    | bool value => sameIntFloat (if value then 1 else 0) left
    | int value => sameIntFloat value left
    | float value => left == value
    | _ => false
  | _, _ => false

def sameItems : List Doc → List Doc → Bool
  | [], [] => true
  | left :: lefts, right :: rights =>
    (bothNaN left right || same left right) && sameItems lefts rights
  | _, _ => false

/-- Whether every field on the left is the same on the right. -/
def sameFields : List (String × Doc) → List (String × Doc) → Bool
  | [], _ => true
  | (key, value) :: rest, fields =>
    (match fields.lookup key with
      | some other => bothNaN value other || same value other
      | none => false) && sameFields rest fields

end

def isAmong (value : Doc) (values : List Doc) : Bool :=
  values.any fun other => bothNaN other value || same other value

end ApiDescription.Doc
