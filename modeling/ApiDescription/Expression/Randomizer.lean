import ApiDescription.Expression.Arithmetic
import ApiDescription.Expression.Parser
import ApiDescription.Expression.Printer
import ApiDescription.Expression.Sharing

/-!
# Random variants of predicates

A variant of a predicate has other numbers and texts, and operators exchanged for related ones; a
tuple may lose or repeat items.  Random numbers come from a script, so that a run can be repeated.
Most nodes are changed where they stand: an item that a tuple takes up twice is one node, and the
second visit changes both occurrences.
-/

namespace ApiDescription

/-- A source of random numbers: the numbers of the script in turn, over and over. -/
structure Script where
  numbers : List Nat
  used : Nat := 0
  deriving Repr, DecidableEq

def Script.next (script : Script) : Nat × Script :=
  let position := script.used % script.numbers.length
  ((script.numbers[position]?).getD 0, { script with used := script.used + 1 })

/-- The sheet being changed and the source of random numbers. -/
structure Desk where
  sheet : Sheet
  script : Script

/-- A step that draws random numbers and changes nodes. -/
abbrev Shuffle := StateT Desk (Except Fault)

namespace Shuffle

def draw (low high : Nat) : Shuffle Nat := do
  let desk ← get
  let (number, script) := desk.script.next
  set { desk with script }
  return low + number % (high - low + 1)

def coin : Shuffle Bool := do
  return (← draw 0 1) == 1

def fraction : Shuffle Float := do
  return Float.ofNat (← draw 0 15) / 16.0

def letters : List Char :=
  "ABCDEFGHIJKLMNOPQRSTUVWXYZabcdefghijklmnopqrstuvwxyz0123456789".toList

def randomChars : Nat → Shuffle (List Char)
  | 0 => return []
  | count + 1 => do
    let position ← draw 0 (letters.length - 1)
    return (letters[position]?).getD 'A' :: (← randomChars count)

def create (cell : Cell) : Shuffle Nat := do
  let desk ← get
  let (number, sheet) := desk.sheet.add cell
  set { desk with sheet }
  return number

def change (number : Nat) (cell : Cell) : Shuffle Unit :=
  modify fun desk => { desk with sheet := desk.sheet.setIfInBounds number cell }

/-- A comparison exchanged for a related one: an equation for its negation, membership likewise, an
order comparison for any of the four. -/
def comparison (operator : Comparison) : Shuffle Comparison := do
  match operator with
  | .equal => return if ← coin then .unequal else operator
  | .unequal => return if ← coin then .equal else operator
  | .member => return if ← coin then .nonMember else operator
  | .nonMember => return if ← coin then .member else operator
  | .less | .lessEqual | .greater | .greaterEqual =>
    if ← coin then
      match ← draw 1 4 with
      | 1 => return .less
      | 2 => return .lessEqual
      | 3 => return .greater
      | _ => return .greaterEqual
    else return operator
  | .identical | .distinct => return operator

def keepSome (visit : Nat → Shuffle Nat) : List Nat → Shuffle (List Nat)
  | [] => return []
  | item :: rest => do
    if ← coin then
      let kept ← visit item
      return kept :: (← keepSome visit rest)
    else keepSome visit rest

/-- A variant of the node with a number, and the number of the result.  Names, numbers, texts,
tuples and and/or chains are replaced by new nodes or left alone with all their parts; other nodes
are changed where they stand. -/
def visit : Nat → Nat → Shuffle Nat
  | 0, _ => throw .tooDeep
  | fuel + 1, number => do
    let cell := ((← get).sheet[number]?).getD default
    match cell.shape with
    | .number value =>
      if ← coin then
        let factor ← fraction
        create ⟨.number (← (Number.float factor).multiply value), []⟩
      else return number
    | .text value =>
      if ← coin then create ⟨.text (String.ofList (← randomChars value.length)), []⟩
      else return number
    | .name id _ =>
      if ← coin then
        if id = "forall" then create ⟨.name "exists" .load, []⟩
        else if id = "exists" then create ⟨.name "forall" .load, []⟩
        else return number
      else return number
    | .tuple _ =>
      if ← coin then
        match cell.parts with
        | [] => throw .outOfBounds
        | first :: rest =>
          let head ← visit fuel first
          let kept ← keepSome (visit fuel) rest
          let again ← if ← coin then keepSome (visit fuel) cell.parts else pure []
          create ⟨.tuple .load, head :: kept ++ again⟩
      else return number
    | .connect _ =>
      if ← coin then
        let connective : Connective := if ← coin then .conjunction else .disjunction
        let parts ← cell.parts.mapM (visit fuel)
        create ⟨.connect connective, parts⟩
      else return number
    | .compare operators =>
      let first ← (cell.parts.take 1).mapM (visit fuel)
      let operators ← operators.mapM comparison
      let operands ← (cell.parts.drop 1).mapM (visit fuel)
      change number ⟨.compare operators, first ++ operands⟩
      return number
    | shape =>
      let parts ← cell.parts.mapM (visit fuel)
      change number ⟨shape, parts⟩
      return number

end Shuffle

namespace Expr

def randomize (tree : Expr) (script : Script) : Except Fault (Expr × Script) := do
  let (root, sheet) := Sheet.place #[] tree
  let fuel := sheet.size + 1
  let (result, desk) ← (Shuffle.visit fuel root).run { sheet, script }
  return (desk.sheet.tree fuel result, desk.script)

def randomizeText (source : String) (script : Script) :
    Except Fault (Option String × Script) := do
  let (variant, script) ← (← parse source).randomize script
  return (← variant.render?, script)

end Expr

end ApiDescription
