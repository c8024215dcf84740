import ApiDescription.Expression.Arithmetic
import ApiDescription.Expression.Parser

/-!
# Evaluating predicates

The value of a closed predicate.  Of the names only `True` has a value; every other one, like every
form without a meaning of its own, is absent.  A comparison looks at its first link only, a
quantifier evaluates its body once for each item without binding the item, and an and/or chain
starts over as long as its value is absent.
-/

namespace ApiDescription

def Comparison.apply (operator : Comparison) (left right : Value) : Except Fault Value :=
  match operator with
  | .less => return .bool (← Value.ordered .less left right)
  | .lessEqual => return .bool (← Value.ordered .lessEqual left right)
  | .greater => return .bool (← Value.ordered .greater left right)
  | .greaterEqual => return .bool (← Value.ordered .greaterEqual left right)
  | .equal => .ok (.bool (Value.same left right))
  | .unequal => .ok (.bool (!Value.same left right))
  | .member => return .bool (← Value.isMember left right)
  | .nonMember | .distinct => return .bool (!(← Value.isMember left right))
  | .identical => .ok (.bool (Value.isIdentical left right))

def BinaryOperator.apply (operator : BinaryOperator) (left right : Value) : Except Fault Value :=
  match operator with
  | .add => Value.add left right
  | .subtract => Value.onNumbers Number.subtract left right
  | .multiply => Value.multiply left right
  | .divide => Value.onNumbers Number.divide left right
  | .modulo => Value.onNumbers Number.modulo left right
  | .power => Value.onNumbers Number.power left right
  | _ => .ok .none

namespace Expr

/-- Whether a key of a dictionary display spreads another dictionary. -/
def isSpread : Expr → Bool
  | spread => true
  | _ => false

/-- The dictionary of a display: each written key is an entry of its own, and all spreads together
are one. -/
def dictValue (keys : List Expr) : Value :=
  let written := (keys.filter fun key => !key.isSpread).length
  let spreads := keys.any isSpread
  .dict (written + if spreads then 1 else 0) spreads

mutual

def evaluate : Expr → Except Fault Value
  | name id _ => .ok (if id = "True" then .bool true else .none)
  | number value => .ok (.number value)
  | text value => .ok (.text value)
  | list items _ => return .list (← evaluateAll items)
  | tuple items _ => return .tuple (← evaluateAll items)
  | dict keys _ => .ok (dictValue keys)
  | spread => .ok .none
  | access value label _ => do (← evaluate value).getAttribute label
  | call function arguments _ =>
    match function with
    | name id _ =>
      if id = "len" then
        match arguments with
        | first :: _ => do return .number (.int (← (← evaluate first).size))
        | [] => .error .outOfBounds
      else if id = "forall" ∨ id = "exists" then
        match arguments with
        | _ :: items :: bodies => do
          if (← (← evaluate items).size) = 0 then return .bool (id = "forall")
          else
            match bodies with
            | body :: _ => return .bool (← evaluate body).isTruthy
            | [] => .error .outOfBounds
        | _ => .error .outOfBounds
      else if id = "implies" then
        match arguments with
        | [] => .error .outOfBounds
        | left :: rest => do
          let left ← evaluate left
          match rest with
          | [] => .error .outOfBounds
          | right :: _ => return .bool (left.isTruthy && (← evaluate right).isTruthy)
      else .ok .none
    | _ => .error .noAttribute
  | compare first operators operands =>
    match operators, operands with
    | operator :: _, operand :: _ => do operator.apply (← evaluate first) (← evaluate operand)
    | _, _ => .error .outOfBounds
  | connect connective operands => evaluateOperands connective .none operands
  | binary operator left right => do operator.apply (← evaluate left) (← evaluate right)
  | unary operator operand => do
    let value ← evaluate operand
    return if operator = .negation then .bool !value.isTruthy else .none
  | other _ children => do
    let _ ← evaluateAll children
    return .none

def evaluateAll : List Expr → Except Fault (List Value)
  | [] => .ok []
  | first :: rest => do
    let value ← evaluate first
    return value :: (← evaluateAll rest)

/-- The value of an and/or chain whose earlier operands gave `result`.  An absent result is replaced
by the next operand's value; otherwise a later operand counts only if the result does not decide. -/
def evaluateOperands (connective : Connective) (result : Value) : List Expr → Except Fault Value
  | [] => .ok result
  | operand :: rest => do
    match result with
    | .none => evaluateOperands connective (← evaluate operand) rest
    | _ =>
      if result.isTruthy = decide (connective = .conjunction) then
        evaluateOperands connective (← evaluate operand) rest
      else evaluateOperands connective result rest

end

def evaluateText (source : String) : Except Fault Value := do
  (← parse source).evaluate

end Expr

end ApiDescription
