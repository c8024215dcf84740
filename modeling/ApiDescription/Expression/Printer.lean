import ApiDescription.Expression.Basic
import ApiDescription.Fault
import ApiDescription.Text.Printable

/-!
# From trees to text

The text of an expression tree.  No parentheses are written, so the text reads back as the same tree
only where the tree needs none.  A form without a text of its own has none, and a form that would
contain such a part cannot be written at all, nor can an integer with too many digits.
-/

namespace ApiDescription

def Comparison.symbol : Comparison → String
  | .less => "<"
  | .lessEqual => "<="
  | .greater => ">"
  | .greaterEqual => ">="
  | .equal => "=="
  | .unequal => "!="
  | .member => "in"
  | .nonMember => "not in"
  | .identical => "is"
  | .distinct => "is not"

def Connective.symbol : Connective → String
  | .conjunction => "and"
  | .disjunction => "or"

def BinaryOperator.symbol? : BinaryOperator → Option String
  | .add => some "+"
  | .subtract => some "-"
  | .multiply => some "*"
  | .divide => some "/"
  | .modulo => some "%"
  | _ => none

def UnaryOperator.symbol? : UnaryOperator → Option String
  | .negation => some "not"
  | _ => none

namespace Expr

def needed : Option String → Except Fault String
  | some written => .ok written
  | none => .error .wrongKind

def lastIs (written : String) (character : Char) : Bool :=
  written.toList.getLast? == some character

/-- Append items after an opening bracket.  A comma comes before an item unless the text so far ends
with the bracket. -/
def appendItems (opening : Char) (sofar : String) : List String → String
  | [] => sofar
  | item :: rest =>
    let separated := if lastIs sofar opening then sofar else sofar ++ ", "
    appendItems opening (separated ++ item) rest

def chainText (sofar : String) : List Comparison → List String → String
  | operator :: operators, operand :: operands =>
    chainText (sofar ++ " " ++ operator.symbol ++ " " ++ operand) operators operands
  | _, _ => sofar

mutual

def render? : Expr → Except Fault (Option String)
  | name id _ => .ok (some id)
  | number value => if value.hasLiteral then .ok (some value.literal) else .error .badValue
  | text value => .ok (some (Text.quoted value))
  | list items _ => do
    return some (appendItems '[' "[" (← renderAll items) ++ "]")
  | tuple items _ => do
    return some (appendItems '(' "(" (← renderAll items) ++ ")")
  | dict keys values => do
    visitAll keys
    visitAll values
    return none
  | spread => .ok none
  | access value label _ => do
    return some ((← needed (← render? value)) ++ "." ++ label)
  | call function arguments _ => do
    let start := (← needed (← render? function)) ++ "("
    return some (appendItems '(' start (← renderAll arguments) ++ ")")
  | compare first operators operands => do
    let start ← needed (← render? first)
    return some (chainText start operators (← renderAll operands))
  | connect connective operands => do
    return some ((" " ++ connective.symbol ++ " ").intercalate (← renderAll operands))
  | binary operator left right => do
    let left ← needed (← render? left)
    let operator ← needed operator.symbol?
    let right ← needed (← render? right)
    return some (left ++ " " ++ operator ++ " " ++ right)
  | unary operator operand => do
    let operator ← needed operator.symbol?
    let operand ← needed (← render? operand)
    return some (operator ++ " " ++ operand)
  | other _ children => do
    visitAll children
    return none

def renderAll : List Expr → Except Fault (List String)
  | [] => .ok []
  | first :: rest => do
    let written ← needed (← render? first)
    return written :: (← renderAll rest)

/-- Go through parts whose texts are not needed; a part that cannot be written still fails. -/
def visitAll : List Expr → Except Fault Unit
  | [] => .ok ()
  | first :: rest => do
    let _ ← render? first
    visitAll rest

end

end Expr

end ApiDescription
