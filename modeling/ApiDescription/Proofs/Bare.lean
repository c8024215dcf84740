import ApiDescription.Expression.Parser
import ApiDescription.Expression.Printer
import ApiDescription.Proofs.TreeParts

/-!
# Trees that need no parentheses

The text of a tree has no parentheses but those of tuples and calls.  A tree needs no others when
every operand binds tight enough for its place.  How tight a form binds is its strength, from
conditions that hold in one of several cases up to names, which bind tightest.  What names and
numbers may occur is left to a lexicon.
-/

namespace ApiDescription

/-! ## Strength -/

namespace Expr

/-- The strength of a condition that holds when one of several does. -/
abbrev orStrength : Nat := 1

/-- The strength of a condition that holds when all of several do. -/
abbrev andStrength : Nat := 2

abbrev notStrength : Nat := 3

abbrev compareStrength : Nat := 4

abbrev operandStrength : Nat := 5

abbrev sumStrength : Nat := 9

abbrev termStrength : Nat := 10

abbrev signStrength : Nat := 11

/-- The strength of a tree that arguments or a label can follow. -/
abbrev primaryStrength : Nat := 13

end Expr

def Connective.strength : Connective → Nat
  | .disjunction => Expr.orStrength
  | .conjunction => Expr.andStrength

/-- How tight an operator that can be written binds. -/
def BinaryOperator.strength : BinaryOperator → Nat
  | .add | .subtract => Expr.sumStrength
  | _ => Expr.termStrength

def Number.isSigned (value : Number) : Bool :=
  value.literal.toList.head? == some '-'

namespace Expr

/-- How tight a tree binds. -/
def strength : Expr → Nat
  | connect connective _ => connective.strength
  | unary _ _ => notStrength
  | compare _ _ _ => compareStrength
  | binary operator _ _ => operator.strength
  | number value => if value.isSigned then signStrength else primaryStrength
  | _ => primaryStrength

/-- Whether a point after the tree begins a label.  After the digits of an integer it does not. -/
def isDotted : Expr → Bool
  | number (.int _) => false
  | tree => tree.strength == primaryStrength

theorem strength_of_isDotted {tree : Expr} (dotted : tree.isDotted) :
    tree.strength = primaryStrength := by
  unfold isDotted at dotted
  split at dotted
  · cases dotted
  · simpa using dotted

end Expr

/-! ## Trees without parentheses -/

/-- The names, labels and numbers that may occur in a tree. -/
structure Lexicon where
  name : String → Prop
  label : String → Prop
  number : Number → Prop

namespace Expr

variable (lexicon : Lexicon)

mutual

/-- A tree that is written without parentheses and can be read again: what follows a label or the
arguments of a call is a primary, operands bind tight enough, and a tuple does not have one item. -/
def Bare : Expr → Prop
  | name id use => use = .load ∧ lexicon.name id
  | number value => lexicon.number value
  | text _ => True
  | list items use => use = .load ∧ BareAll items
  | tuple items use => use = .load ∧ items.length ≠ 1 ∧ BareAll items
  | access value label use =>
    use = .load ∧ lexicon.label label ∧ value.Bare ∧ value.isDotted
  | call function arguments keywords =>
    keywords = [] ∧ function.Bare ∧ function.strength = primaryStrength ∧ BareAll arguments
  | compare first operators operands =>
    operators ≠ [] ∧ operators.length = operands.length ∧
      (first.Bare ∧ operandStrength ≤ first.strength) ∧
      BareAll operands ∧ ∀ operand ∈ operands, operandStrength ≤ operand.strength
  | connect connective operands =>
    2 ≤ operands.length ∧ BareAll operands ∧
      ∀ operand ∈ operands, connective.strength < operand.strength
  | binary operator left right =>
    operator.symbol?.isSome ∧ (left.Bare ∧ operator.strength ≤ left.strength) ∧
      (right.Bare ∧ operator.strength < right.strength)
  | unary operator operand =>
    operator = .negation ∧ operand.Bare ∧ notStrength ≤ operand.strength
  | dict _ _ | spread | other _ _ => False

/-- Trees that are written without parentheses. -/
def BareAll : List Expr → Prop
  | [] => True
  | first :: rest => first.Bare ∧ BareAll rest

end

section

variable [DecidablePred lexicon.name] [DecidablePred lexicon.label] [DecidablePred lexicon.number]

mutual

/-- Whether a tree needs no parentheses can be computed. -/
def decidableBare : (tree : Expr) → Decidable (tree.Bare lexicon)
  | name id use => inferInstanceAs (Decidable (use = .load ∧ lexicon.name id))
  | number value => inferInstanceAs (Decidable (lexicon.number value))
  | text _ => inferInstanceAs (Decidable True)
  | list items use =>
    let _ := decidableBareAll items
    inferInstanceAs (Decidable (use = .load ∧ BareAll lexicon items))
  | tuple items use =>
    let _ := decidableBareAll items
    inferInstanceAs (Decidable (use = .load ∧ items.length ≠ 1 ∧ BareAll lexicon items))
  | access value label use =>
    let _ := decidableBare value
    inferInstanceAs
      (Decidable (use = .load ∧ lexicon.label label ∧ value.Bare lexicon ∧ value.isDotted))
  | call function arguments [] =>
    let _ := decidableBare function
    let _ := decidableBareAll arguments
    decidable_of_iff
      (function.Bare lexicon ∧ function.strength = primaryStrength ∧ BareAll lexicon arguments)
      ⟨fun bare => ⟨rfl, bare⟩, fun bare => bare.2⟩
  | call _ _ (_ :: _) => .isFalse fun bare => nomatch bare.1
  | compare first operators operands =>
    let _ := decidableBare first
    let _ := decidableBareAll operands
    inferInstanceAs (Decidable (operators ≠ [] ∧ operators.length = operands.length ∧
      (first.Bare lexicon ∧ operandStrength ≤ first.strength) ∧
      BareAll lexicon operands ∧ ∀ operand ∈ operands, operandStrength ≤ operand.strength))
  | connect connective operands =>
    let _ := decidableBareAll operands
    inferInstanceAs (Decidable (2 ≤ operands.length ∧ BareAll lexicon operands ∧
      ∀ operand ∈ operands, connective.strength < operand.strength))
  | binary operator left right =>
    let _ := decidableBare left
    let _ := decidableBare right
    inferInstanceAs (Decidable (operator.symbol?.isSome ∧
      (left.Bare lexicon ∧ operator.strength ≤ left.strength) ∧
      (right.Bare lexicon ∧ operator.strength < right.strength)))
  | unary operator operand =>
    let _ := decidableBare operand
    inferInstanceAs
      (Decidable (operator = .negation ∧ operand.Bare lexicon ∧ notStrength ≤ operand.strength))
  | dict _ _ | spread | other _ _ => inferInstanceAs (Decidable False)

/-- Whether trees need no parentheses can be computed. -/
def decidableBareAll : (trees : List Expr) → Decidable (BareAll lexicon trees)
  | [] => inferInstanceAs (Decidable True)
  | first :: rest =>
    let _ := decidableBare first
    let _ := decidableBareAll rest
    inferInstanceAs (Decidable (first.Bare lexicon ∧ BareAll lexicon rest))

end

instance : DecidablePred (Bare lexicon) := decidableBare lexicon

end

theorem bareAll_iff {lexicon : Lexicon} {trees : List Expr} :
    BareAll lexicon trees ↔ ∀ tree ∈ trees, tree.Bare lexicon := by
  induction trees with
  | nil => simp [BareAll]
  | cons first rest ih => rw [BareAll, ih, List.forall_mem_cons]

theorem Bare.mono {smaller larger : Lexicon} (name : ∀ id, smaller.name id → larger.name id)
    (label : ∀ id, smaller.label id → larger.label id)
    (number : ∀ value, smaller.number value → larger.number value) (tree : Expr)
    (bare : tree.Bare smaller) : tree.Bare larger := by
  induction tree using induction_on_children with
  | step tree ih => cases tree <;> simp_all [Bare, bareAll_iff, children]

mutual

/-- How deep the brackets of a tree are nested. -/
def nesting : Expr → Nat
  | list items _ | tuple items _ => nestingAll items + 1
  | access value _ _ => value.nesting
  | call function arguments _ => max function.nesting (nestingAll arguments + 1)
  | compare first _ operands => max first.nesting (nestingAll operands)
  | connect _ operands => nestingAll operands
  | binary _ left right => max left.nesting right.nesting
  | unary _ operand => operand.nesting
  | name _ _ | number _ | text _ | dict _ _ | spread | other _ _ => 0

/-- How deep the brackets of any of several trees are nested. -/
def nestingAll : List Expr → Nat
  | [] => 0
  | first :: rest => max first.nesting (nestingAll rest)

end

theorem nestingAll_map {change : Expr → Expr} {trees : List Expr}
    (same : ∀ tree ∈ trees, (change tree).nesting = tree.nesting) :
    nestingAll (trees.map change) = nestingAll trees := by
  induction trees with
  | nil => rfl
  | cons first rest ih =>
    rw [List.forall_mem_cons] at same
    rw [List.map_cons, nestingAll, nestingAll, same.1, ih same.2]

end Expr

/-! ## Tokens of a tree -/

def Comparison.tokens : Comparison → List Token
  | .less => [.mark "<"]
  | .lessEqual => [.mark "<="]
  | .greater => [.mark ">"]
  | .greaterEqual => [.mark ">="]
  | .equal => [.mark "=="]
  | .unequal => [.mark "!="]
  | .member => [.mark "in"]
  | .nonMember => [.mark "not", .mark "in"]
  | .identical => [.mark "is"]
  | .distinct => [.mark "is", .mark "not"]

def BinaryOperator.mark (operator : BinaryOperator) : String :=
  operator.symbol?.getD ""

def Number.tokens (value : Number) : List Token :=
  if value.isSigned then [.mark "-", .number value.negate] else [.number value]

namespace Expr

def nameToken (id : String) : Token :=
  if id = "True" ∨ id = "False" ∨ id = "None" then .mark id else .word id

mutual

def tokens : Expr → List Token
  | name id _ => [nameToken id]
  | number value => value.tokens
  | text value => [.text value]
  | list items _ => .mark "[" :: (sequenceTokens (.mark ",") items ++ [.mark "]"])
  | tuple items _ => .mark "(" :: (sequenceTokens (.mark ",") items ++ [.mark ")"])
  | access value label _ => value.tokens ++ [.mark ".", .word label]
  | call function arguments _ =>
    function.tokens ++ .mark "(" :: (sequenceTokens (.mark ",") arguments ++ [.mark ")"])
  | compare first operators operands => first.tokens ++ chainTokens operators operands
  | connect connective operands => sequenceTokens (.mark connective.symbol) operands
  | binary operator left right => left.tokens ++ .mark operator.mark :: right.tokens
  | unary _ operand => .mark "not" :: operand.tokens
  | dict _ _ | spread | other _ _ => []

/-- The tokens of trees with a token between neighbours. -/
def sequenceTokens (separator : Token) : List Expr → List Token
  | [] => []
  | first :: rest => first.tokens ++ tailTokens separator rest

def tailTokens (separator : Token) : List Expr → List Token
  | [] => []
  | first :: rest => separator :: (first.tokens ++ tailTokens separator rest)

/-- The tokens of a chain of comparisons after its first operand. -/
def chainTokens : List Comparison → List Expr → List Token
  | operator :: operators, operand :: operands =>
    operator.tokens ++ (operand.tokens ++ chainTokens operators operands)
  | _, _ => []

end

mutual

/-- A tree as it is read, before signs are folded into numbers. -/
def unfolded : Expr → Expr
  | number value => if value.isSigned then unary .minus (number value.negate) else number value
  | list items use => list (unfoldedAll items) use
  | tuple items use => tuple (unfoldedAll items) use
  | access value label use => access value.unfolded label use
  | call function arguments keywords => call function.unfolded (unfoldedAll arguments) keywords
  | compare first operators operands => compare first.unfolded operators (unfoldedAll operands)
  | connect connective operands => connect connective (unfoldedAll operands)
  | binary operator left right => binary operator left.unfolded right.unfolded
  | unary operator operand => unary operator operand.unfolded
  | name id use => name id use
  | text value => text value
  | dict keys values => dict keys values
  | spread => spread
  | other form children => other form children

/-- Trees as they are read, before signs are folded into numbers. -/
def unfoldedAll : List Expr → List Expr
  | [] => []
  | first :: rest => first.unfolded :: unfoldedAll rest

end

theorem unfoldedAll_eq_map (trees : List Expr) : unfoldedAll trees = trees.map unfolded := by
  induction trees with
  | nil => rfl
  | cons first rest ih => rw [unfoldedAll, ih, List.map_cons]

end Expr

end ApiDescription
