import ApiDescription.Expression.Basic

/-!
# Nodes of a tree

For measuring how alike two predicates are, a tree is the collection of its nodes.  Operators and
the marks for reading or assigning are nodes too.  Two nodes are alike when they are of one class;
numbers and texts must also have the same value and calls the same function.
-/

namespace ApiDescription

inductive Node where
  | whole
  | name
  | number (value : Number)
  | text (value : String)
  | list
  | tuple
  | dict
  | access
  /-- A call; the function's name, when it is a plain name. -/
  | call (function : Option String)
  | compare
  | connect
  | binary
  | unary
  | other (form : Form)
  | use (use : Use)
  | comparison (operator : Comparison)
  | connective (connective : Connective)
  | binaryOperator (operator : BinaryOperator)
  | unaryOperator (operator : UnaryOperator)
  deriving DecidableEq, Repr

/-- The class of a form: reading and assigning do not matter. -/
def Form.class : Form → Form
  | .subscript _ => .subscript .load
  | .starred _ => .starred .load
  | form => form

/-- The marks for reading or assigning that a form carries. -/
def Form.uses : Form → List Node
  | .subscript use | .starred use => [.use use]
  | _ => []

namespace Expr

def plainName? : Expr → Option String
  | name id _ => some id
  | _ => none

mutual

/-- The nodes of a tree, parts before the whole. -/
def nodes : Expr → List Node
  | name _ use => [.use use, .name]
  | number value => [.number value]
  | text value => [.text value]
  | list items use => nodesOfAll items ++ [.use use, .list]
  | tuple items use => nodesOfAll items ++ [.use use, .tuple]
  | dict keys values => nodesOfAll keys ++ nodesOfAll values ++ [.dict]
  | spread => []
  | access value _ use => nodes value ++ [.use use, .access]
  | call function arguments keywords =>
    nodes function ++ nodesOfAll arguments ++ nodesOfAll keywords ++ [.call function.plainName?]
  | compare first operators operands =>
    nodes first ++ operators.map .comparison ++ nodesOfAll operands ++ [.compare]
  | connect connective operands => .connective connective :: nodesOfAll operands ++ [.connect]
  | binary operator left right => nodes left ++ .binaryOperator operator :: nodes right ++ [.binary]
  | unary operator operand => .unaryOperator operator :: nodes operand ++ [.unary]
  | other form children => nodesOfAll children ++ form.uses ++ [.other form.class]

def nodesOfAll : List Expr → List Node
  | [] => []
  | first :: rest => nodes first ++ nodesOfAll rest

end

def predicateNodes (tree : Expr) : List Node :=
  tree.nodes ++ [.whole]

end Expr

end ApiDescription
