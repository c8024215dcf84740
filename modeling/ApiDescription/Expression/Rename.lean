import ApiDescription.Expression.Parser
import ApiDescription.Expression.Printer

/-!
# Changing the subject of a predicate

A constraint of a data type speaks about `self`.  Seen from an operation the same constraint speaks
about an access path, so every occurrence of one name is replaced by another text.
-/

namespace ApiDescription.Expr

mutual

/-- Replace a name wherever it is used as one.  Attribute labels and argument names are no uses. -/
def rename (old new : String) : Expr → Expr
  | name id use => if id = old then name new .load else name id use
  | number value => number value
  | text value => text value
  | list items use => list (renameAll old new items) use
  | tuple items use => tuple (renameAll old new items) use
  | dict keys values => dict (renameAll old new keys) (renameAll old new values)
  | spread => spread
  | access value label use => access (rename old new value) label use
  | call function arguments keywords =>
    call (rename old new function) (renameAll old new arguments) (renameAll old new keywords)
  | compare first operators operands =>
    compare (rename old new first) operators (renameAll old new operands)
  | connect connective operands => connect connective (renameAll old new operands)
  | binary operator left right => binary operator (rename old new left) (rename old new right)
  | unary operator operand => unary operator (rename old new operand)
  | other form children => other form (renameAll old new children)

/-- Replace a name in every tree of a list. -/
def renameAll (old new : String) : List Expr → List Expr
  | [] => []
  | first :: rest => rename old new first :: renameAll old new rest

end

def reprint (source : String) : Except Fault (Option String) := do
  (← parse source).render?

/-- A predicate with one name replaced by another text. -/
def changeSubject (source old new : String) : Except Fault (Option String) := do
  ((← parse source).rename old new).render?

end ApiDescription.Expr
