import ApiDescription.Expression.Number
import ApiDescription.Fault

/-!
# Values of predicates

What an expression evaluates to, and the operations that predicates use on values.  Truth values
count as the integers zero and one.
-/

namespace ApiDescription

inductive Value where
  | none
  | bool (value : Bool)
  | number (value : Number)
  | text (value : String)
  | list (items : List Value)
  | tuple (items : List Value)
  /-- A dictionary.  Its keys are the key expressions themselves, so two dictionaries share a key
  only if both spread others; `entries` counts the entries. -/
  | dict (entries : Nat) (spreads : Bool)
  /-- A value of another kind, such as a method of a text. -/
  | object (kind : String)
  deriving Inhabited, Repr

namespace Value

def asNumber? : Value → Option Number
  | number value => some value
  | bool value => some (.int (if value then 1 else 0))
  | _ => Option.none

def asInt? (value : Value) : Option Int :=
  match value.asNumber? with
  | some (.int integer) => some integer
  | _ => Option.none

def isTruthy : Value → Bool
  | none => false
  | bool value => value
  | number value => value.isTruthy
  | text value => !value.isEmpty
  | list items | tuple items => !items.isEmpty
  | dict entries _ => entries != 0
  | object _ => true

mutual

/-- Equality of values: numbers by value, sequences item by item, other values only within their
kind. -/
def same : Value → Value → Bool
  | none, none => true
  | text left, text right => left == right
  | list left, list right => sameAll left right
  | tuple left, tuple right => sameAll left right
  | dict left _, dict right _ => left == 0 && right == 0
  | number left, number right => left.same right
  | number left, bool right => left.same (.int (if right then 1 else 0))
  | bool left, number right => (Number.int (if left then 1 else 0)).same right
  | bool left, bool right => left == right
  | _, _ => false

def sameAll : List Value → List Value → Bool
  | [], [] => true
  | left :: lefts, right :: rights => same left right && sameAll lefts rights
  | _, _ => false

end

inductive Order where
  | less | lessEqual | greater | greaterEqual
  deriving DecidableEq, Repr

def Order.holds : Order → Ordering → Bool
  | .less, outcome => outcome == .lt
  | .lessEqual, outcome => outcome != .gt
  | .greater, outcome => outcome == .gt
  | .greaterEqual, outcome => outcome != .lt

def orderNumbers (left right : Number) : Except Fault (Option Ordering) :=
  match left, right with
  | .int left, .int right => .ok (some (compare left right))
  | .int left, .float right =>
    .ok (if right.isNaN then Option.none else some (Decimal.compareInt left right))
  | .float left, .int right =>
    .ok (if left.isNaN then Option.none else some (Decimal.compareInt right left).swap)
  | .float left, .float right =>
    .ok (if left < right then some .lt else if left == right then some .eq
      else if right < left then some .gt else Option.none)
  | _, _ => .error .wrongKind

/-- Lexicographic order of characters by code point. -/
def orderChars : List Char → List Char → Ordering
  | [], [] => .eq
  | [], _ :: _ => .lt
  | _ :: _, [] => .gt
  | left :: lefts, right :: rights =>
    match compare left.toNat right.toNat with
    | .eq => orderChars lefts rights
    | outcome => outcome

mutual

/-- Whether an order relation holds.  Sequences are ordered by their first items that differ, then
by length; values of different kinds have no order. -/
def ordered (order : Order) : Value → Value → Except Fault Bool
  | text left, text right => .ok (order.holds (orderChars left.toList right.toList))
  | list left, list right => orderedAll order left right
  | tuple left, tuple right => orderedAll order left right
  | number left, number right => do
    return (← orderNumbers left right).elim false order.holds
  | number left, bool right => do
    return (← orderNumbers left (.int (if right then 1 else 0))).elim false order.holds
  | bool left, number right => do
    return (← orderNumbers (.int (if left then 1 else 0)) right).elim false order.holds
  | bool left, bool right => do
    return (← orderNumbers (.int (if left then 1 else 0)) (.int (if right then 1 else 0))).elim
      false order.holds
  | _, _ => .error .wrongKind

def orderedAll (order : Order) : List Value → List Value → Except Fault Bool
  | [], [] => .ok (order.holds .eq)
  | [], _ :: _ => .ok (order.holds .lt)
  | _ :: _, [] => .ok (order.holds .gt)
  | left :: lefts, right :: rights =>
    if same left right then orderedAll order lefts rights else ordered order left right

end

mutual

/-- Whether a value can be looked up among the keys of a dictionary. -/
def isKey : Value → Bool
  | list _ | dict _ _ => false
  | tuple items => areKeys items
  | _ => true

def areKeys : List Value → Bool
  | [] => true
  | first :: rest => isKey first && areKeys rest

end

/-- Membership: an item of a sequence, a part of a text, or a key of a dictionary. -/
def isMember (item container : Value) : Except Fault Bool :=
  match container with
  | list items | tuple items => .ok (items.any fun other => same other item)
  | text whole =>
    match item with
    | text part => .ok (Text.contains whole part)
    | _ => .error .wrongKind
  | dict _ spreads =>
    if isKey item then
      match item with
      | none => .ok spreads
      | _ => .ok false
    else .error .wrongKind
  | _ => .error .wrongKind

/-- Identity, which is certain only for the absent value and truth values. -/
def isIdentical : Value → Value → Bool
  | none, none => true
  | bool left, bool right => left == right
  | _, _ => false

def size : Value → Except Fault Nat
  | text value => .ok value.length
  | list items | tuple items => .ok items.length
  | dict entries _ => .ok entries
  | _ => .error .wrongKind

end Value

end ApiDescription
