import ApiDescription.Expression.Parser

/-!
# Comparing predicates

Two predicates match when one can be read as the other: operands of a binary operator may be
swapped, an order comparison may be turned around, and the operands of an and/or chain may come in
another order.  The comparison walks the left tree and keeps the part of the right tree it is
compared with; every mismatch is reported in a line of its own.
-/

namespace ApiDescription

/-- What the left tree is compared with. -/
inductive Counterpart where
  | whole (body : Expr)
  | part (tree : Expr)
  deriving Inhabited

/-- What a step of the comparison comes to: its outcome, what is looked at after it, and the
mismatches it reports, in order. -/
structure Finding (α : Type) where
  outcome : Except Fault α
  right : Counterpart
  reports : List String := []

/-- A step of the comparison, taken while looking at a part of the right tree.  The reports outlive
a failure. -/
def Matching (α : Type) : Type :=
  Counterpart → Finding α

namespace Matching

variable {α : Type}

instance : Monad Matching where
  pure value := fun right => { outcome := .ok value, right }
  bind step next := fun right =>
    match step right with
    | ⟨.ok value, right, reports⟩ =>
      let found := next value right
      { found with reports := reports ++ found.reports }
    | ⟨.error fault, right, reports⟩ => ⟨.error fault, right, reports⟩

def stop (fault : Fault) : Matching α :=
  fun right => { outcome := .error fault, right }

/-- Take a step looking at another part of the right tree. -/
def facing (tree : Expr) (step : Matching α) : Matching α :=
  fun _ => step (.part tree)

/-- The part of the right tree being looked at; a whole predicate is no part. -/
def view : Matching (Option Expr) := fun right =>
  match right with
  | .part tree => { outcome := .ok (some tree), right }
  | .whole _ => { outcome := .ok none, right }

def mismatch (line : String) : Matching (Option Bool) :=
  fun right => { outcome := .ok (some false), right, reports := [line] }

/-- Whether an outcome counts as a match; a form that is not compared yields no outcome. -/
def holds (outcome : Option Bool) : Bool :=
  outcome == some true

/-- Go on as the outcome of a comparison says. -/
def choose (attempt : Matching (Option Bool)) (accepted rejected : Matching α) : Matching α := do
  if holds (← attempt) then accepted else rejected

/-- Compare with candidates in turn until one matches. -/
def anyOf (attempt : Matching (Option Bool)) : List Expr → Matching Bool
  | [] => return false
  | candidate :: rest => choose (facing candidate attempt) (return true) (anyOf attempt rest)

/-- The comparison that says the same with its sides exchanged, for the four order comparisons. -/
def opposite : Comparison → Option Comparison
  | .less => some .greater
  | .greater => some .less
  | .lessEqual => some .greaterEqual
  | .greaterEqual => some .lessEqual
  | _ => none

/-- How the sides of two comparisons correspond. -/
inductive Sides where
  | straight | crossed | none

/-- Equations always correspond crosswise, order comparisons when one is the other's opposite, and
equal operators otherwise straight. -/
def sides (left right : Comparison) : Sides :=
  if left = right then
    if left = .equal ∨ left = .unequal then .crossed else .straight
  else if opposite left = some right then .crossed
  else .none

mutual

/-- Compare a tree with the part of the right tree being looked at. -/
def visit : Expr → Matching (Option Bool)
  | .binary operator left right => do
    match ← view with
    | some (.binary operator' left' right') =>
      if operator = operator' then
        choose (facing left' (visit left)) (facing right' (visit right)) <|
          choose (facing right' (visit left)) (facing left' (visit right)) <|
            mismatch "binop left arg mismatch"
      else mismatch "binop op mismatch"
    | _ => return some false
  | .connect connective operands => do
    match ← view with
    | some (.connect connective' operands') =>
      if connective = connective' then
        if operands.length = operands'.length then
          if (← countMatched operands' operands) = operands.length then return some true
          else mismatch "one or more boolop values did not match"
        else mismatch "boolop value count mismatch"
      else mismatch "boolop op mismatch"
    | _ => mismatch "boolop mismatch"
  | .compare first (operator :: _) (operand :: _) => do
    match ← view with
    | some (.compare first' (operator' :: _) (operand' :: _)) =>
      match sides operator operator' with
      | .none => return some false
      | .crossed =>
        choose (facing first' (visit operand)) (facing operand' (visit first)) <|
          mismatch "comparison arg mismatch"
      | .straight =>
        choose (facing first' (visit first)) (facing operand' (visit operand)) <|
          mismatch "comparison left arg mismatch"
    | some (.compare _ _ _) => stop .outOfBounds
    | _ => mismatch "comparison mismatch"
  | .compare _ _ _ => do
    match ← view with
    | some (.compare _ _ _) => stop .outOfBounds
    | _ => mismatch "comparison mismatch"
  | .call function arguments _ => do
    match ← view with
    | some (.call function' arguments' _) =>
      choose (facing function' (visit function))
        (if arguments.length = arguments'.length then
          visitPairs "function arg mismatch" arguments arguments'
        else mismatch "function arg count mismatch")
        (mismatch "function name mismatch")
    | _ => mismatch "function call mismatch"
  | .name id _ => do
    match ← view with
    | some (.name id' _) => if id = id' then return some true else mismatch "name id mismatch"
    | _ => mismatch "name mismatch"
  | .number value => do
    match ← view with
    | some (.number value') =>
      if value.same value' then return some true else mismatch "number value mismatch"
    | _ => mismatch "number mismatch"
  | .access value label _ => do
    match ← view with
    | some (.access value' label' _) =>
      if label = label' then facing value' (visit value) else mismatch "attr value mismatch"
    | _ => mismatch "attribute mismatch"
  | .text value => do
    match ← view with
    | some (.text value') =>
      if value = value' then return some true else mismatch "string value mismatch"
    | _ => mismatch "string mismatch"
  | .list items _ => do
    match ← view with
    | some (.list items' _) =>
      if items.length = items'.length then visitPairs "list member mismatch" items items'
      else mismatch "list length mismatch"
    | _ => mismatch "list mismatch"
  | .tuple items _ => do
    match ← view with
    | some (.tuple items' _) =>
      if items.length = items'.length then visitPairs "tuple member mismatch" items items'
      else mismatch "tuple length mismatch"
    | _ => mismatch "tuple mismatch"
  | .dict keys values => do
    match ← view with
    | some (.dict keys' values') =>
      if keys.length = keys'.length then
        choose (visitPairs "dict key mismatch" keys keys')
          (visitPairs "dict value mismatch" values values') (return some false)
      else mismatch "dict length mismatch"
    | _ => mismatch "dict mismatch"
  | .spread => stop .noAttribute
  | .unary _ operand => do
    let _ ← visit operand
    return none
  | .other _ children => do
    visitAll children
    return none

/-- Compare items one by one with their counterparts. -/
def visitPairs (line : String) : List Expr → List Expr → Matching (Option Bool)
  | left :: lefts, right :: rights =>
    choose (facing right (visit left)) (visitPairs line lefts rights) (mismatch line)
  | _, _ => return some true

/-- How many operands match some operand on the right. -/
def countMatched (candidates : List Expr) : List Expr → Matching Nat
  | [] => return 0
  | operand :: rest => do
    let matched ← anyOf (visit operand) candidates
    return (if matched then 1 else 0) + (← countMatched candidates rest)

/-- Go through the parts of a form that is not compared. -/
def visitAll : List Expr → Matching Unit
  | [] => return ()
  | first :: rest => do
    let _ ← visit first
    visitAll rest

end

/-- The outcome of a comparison and the mismatches in order. -/
structure Verdict where
  outcome : Except Fault (Option Bool)
  reports : List String

def against (step : Matching (Option Bool)) (right : Counterpart) : Verdict :=
  let found := step right
  { outcome := found.outcome, reports := found.reports }

def compare (left right : Counterpart) : Verdict :=
  match left with
  | .part tree => against (visit tree) right
  | .whole body =>
    match right with
    | .whole other => against (visit body) (.part other)
    | .part _ => { outcome := .ok (some false), reports := ["expression mismatch"] }

end Matching

end ApiDescription
