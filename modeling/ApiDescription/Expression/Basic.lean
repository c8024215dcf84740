import ApiDescription.Expression.Number

/-!
# Expression trees

Predicates on the data of an operation are expressions.  The tree distinguishes the forms that
predicates are made of; every other form of the expression grammar is kept as an `other` node with
its children in order, since predicates give it no meaning but its parts still count.
-/

namespace ApiDescription

/-- Whether a name, attribute or display is read or assigned to. -/
inductive Use where
  | load | store
  deriving DecidableEq, Repr

inductive Comparison where
  | less | lessEqual | greater | greaterEqual | equal | unequal
  | member | nonMember | identical | distinct
  deriving DecidableEq, Repr

inductive Connective where
  | conjunction | disjunction
  deriving DecidableEq, Repr

/-- The operators between two operands. -/
inductive BinaryOperator where
  | add | subtract | multiply | divide | modulo | power | floorDivide | matrixMultiply
  | shiftLeft | shiftRight | bitOr | bitXor | bitAnd
  deriving DecidableEq, Repr

inductive UnaryOperator where
  | negation | minus | plus | invert
  deriving DecidableEq, Repr

/-- Forms of the grammar that predicates give no meaning. -/
inductive Form where
  | constant
  | set
  | subscript (use : Use)
  | slice
  | starred (use : Use)
  | keyword
  | conditional
  | function
  | parameters
  | parameter
  | listComprehension
  | setComprehension
  | dictComprehension
  | generator
  | clause
  | assignment
  | await
  | yield
  | yieldFrom
  | template
  | embedded
  deriving DecidableEq, Repr

inductive Expr where
  | name (id : String) (use : Use)
  | number (value : Number)
  | text (value : String)
  | list (items : List Expr) (use : Use)
  | tuple (items : List Expr) (use : Use)
  | dict (keys values : List Expr)
  /-- The key that stands for an entry spread from another dictionary. -/
  | spread
  | access (value : Expr) (label : String) (use : Use)
  | call (function : Expr) (arguments keywords : List Expr)
  | compare (first : Expr) (operators : List Comparison) (operands : List Expr)
  | connect (connective : Connective) (operands : List Expr)
  | binary (operator : BinaryOperator) (left right : Expr)
  | unary (operator : UnaryOperator) (operand : Expr)
  | other (form : Form) (children : List Expr)
  deriving Inhabited, Repr

namespace Expr

mutual

/-- Fold a minus that stands directly before a number literal into the literal.  Only one minus is
folded: the literal under it must not have one itself. -/
def foldSigns : Expr → Expr
  | unary .minus (number value) => number value.negate
  | name id use => name id use
  | number value => number value
  | text value => text value
  | list items use => list (foldSignsAll items) use
  | tuple items use => tuple (foldSignsAll items) use
  | dict keys values => dict (foldSignsAll keys) (foldSignsAll values)
  | spread => spread
  | access value label use => access (foldSigns value) label use
  | call function arguments keywords =>
    call (foldSigns function) (foldSignsAll arguments) (foldSignsAll keywords)
  | compare first operators operands => compare (foldSigns first) operators (foldSignsAll operands)
  | connect connective operands => connect connective (foldSignsAll operands)
  | binary operator left right => binary operator (foldSigns left) (foldSigns right)
  | unary operator operand => unary operator (foldSigns operand)
  | other form children => other form (foldSignsAll children)

def foldSignsAll : List Expr → List Expr
  | [] => []
  | first :: rest => foldSigns first :: foldSignsAll rest

end

end Expr

end ApiDescription
