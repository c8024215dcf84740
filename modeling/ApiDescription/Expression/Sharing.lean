import ApiDescription.Expression.Basic

/-!
# Trees with shared parts

A sheet numbers the nodes of a tree.  Nodes refer to their parts by number, so that one part can
occur in several places and a change to it is seen in all of them.
-/

namespace ApiDescription

/-- A node without its parts. -/
inductive Shape where
  | name (id : String) (use : Use)
  | number (value : Number)
  | text (value : String)
  | list (use : Use)
  | tuple (use : Use)
  /-- A dictionary display; its parts are this many keys and then the values. -/
  | dict (keys : Nat)
  | spread
  | access (label : String) (use : Use)
  /-- A call; its parts are the function, this many arguments, and the arguments by name. -/
  | call (arguments : Nat)
  | compare (operators : List Comparison)
  | connect (connective : Connective)
  | binary (operator : BinaryOperator)
  | unary (operator : UnaryOperator)
  | other (form : Form)
  deriving Inhabited, Repr

/-- A node and the numbers of its parts in order. -/
structure Cell where
  shape : Shape
  parts : List Nat
  deriving Inhabited, Repr

abbrev Sheet := Array Cell

namespace Sheet

/-- Add a node; it gets the next number. -/
def add (sheet : Sheet) (cell : Cell) : Nat × Sheet :=
  (sheet.size, sheet.push cell)

mutual

/-- Lay out a tree on a sheet; the result is the number of its root. -/
def place (sheet : Sheet) : Expr → Nat × Sheet
  | .name id use => sheet.add ⟨.name id use, []⟩
  | .number value => sheet.add ⟨.number value, []⟩
  | .text value => sheet.add ⟨.text value, []⟩
  | .list items use =>
    let (parts, sheet) := placeAll sheet items
    sheet.add ⟨.list use, parts⟩
  | .tuple items use =>
    let (parts, sheet) := placeAll sheet items
    sheet.add ⟨.tuple use, parts⟩
  | .dict keys values =>
    let (keyParts, sheet) := placeAll sheet keys
    let (valueParts, sheet) := placeAll sheet values
    sheet.add ⟨.dict keyParts.length, keyParts ++ valueParts⟩
  | .spread => sheet.add ⟨.spread, []⟩
  | .access value label use =>
    let (part, sheet) := place sheet value
    sheet.add ⟨.access label use, [part]⟩
  | .call function arguments keywords =>
    let (functionPart, sheet) := place sheet function
    let (argumentParts, sheet) := placeAll sheet arguments
    let (keywordParts, sheet) := placeAll sheet keywords
    sheet.add ⟨.call argumentParts.length, functionPart :: argumentParts ++ keywordParts⟩
  | .compare first operators operands =>
    let (firstPart, sheet) := place sheet first
    let (operandParts, sheet) := placeAll sheet operands
    sheet.add ⟨.compare operators, firstPart :: operandParts⟩
  | .connect connective operands =>
    let (parts, sheet) := placeAll sheet operands
    sheet.add ⟨.connect connective, parts⟩
  | .binary operator left right =>
    let (leftPart, sheet) := place sheet left
    let (rightPart, sheet) := place sheet right
    sheet.add ⟨.binary operator, [leftPart, rightPart]⟩
  | .unary operator operand =>
    let (part, sheet) := place sheet operand
    sheet.add ⟨.unary operator, [part]⟩
  | .other form children =>
    let (parts, sheet) := placeAll sheet children
    sheet.add ⟨.other form, parts⟩

/-- Lay out several trees. -/
def placeAll (sheet : Sheet) : List Expr → List Nat × Sheet
  | [] => ([], sheet)
  | first :: rest =>
    let (part, sheet) := place sheet first
    let (parts, sheet) := placeAll sheet rest
    (part :: parts, sheet)

end

/-- Put a node over trees of its parts. -/
def assemble (shape : Shape) (parts : List Expr) : Expr :=
  match shape, parts with
  | .name id use, _ => .name id use
  | .number value, _ => .number value
  | .text value, _ => .text value
  | .list use, items => .list items use
  | .tuple use, items => .tuple items use
  | .dict keys, parts => .dict (parts.take keys) (parts.drop keys)
  | .spread, _ => .spread
  | .access label use, [value] => .access value label use
  | .call arguments, function :: rest =>
    .call function (rest.take arguments) (rest.drop arguments)
  | .compare operators, first :: operands => .compare first operators operands
  | .connect connective, operands => .connect connective operands
  | .binary operator, [left, right] => .binary operator left right
  | .unary operator, [operand] => .unary operator operand
  | .other form, children => .other form children
  | _, _ => .spread

/-- The tree under a number, nested at most as deep as the fuel. -/
def tree (sheet : Sheet) : Nat → Nat → Expr
  | 0, _ => .spread
  | fuel + 1, number =>
    match sheet[number]? with
    | some cell => assemble cell.shape (cell.parts.map (tree sheet fuel))
    | none => .spread

end Sheet

end ApiDescription
