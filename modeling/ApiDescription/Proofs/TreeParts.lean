import ApiDescription.Expression.Sharing
import Mathlib.Data.List.Basic

/-!
# Trees as nodes with parts

Every tree is a node over its parts: `Expr.shape` and `Expr.children` take it apart, and
`Sheet.assemble` puts it together again.  What is proved of a tree from its parts holds of all
trees, so most facts about trees need no case for every form of node.
-/

namespace ApiDescription

namespace Expr

def shape : Expr → Shape
  | name id use => .name id use
  | number value => .number value
  | text value => .text value
  | list _ use => .list use
  | tuple _ use => .tuple use
  | dict keys _ => .dict keys.length
  | spread => .spread
  | access _ label use => .access label use
  | call _ arguments _ => .call arguments.length
  | compare _ operators _ => .compare operators
  | connect connective _ => .connect connective
  | binary operator _ _ => .binary operator
  | unary operator _ => .unary operator
  | other form _ => .other form

/-- The parts directly under the root of a tree. -/
def children : Expr → List Expr
  | list items _ | tuple items _ | connect _ items | other _ items => items
  | dict keys values => keys ++ values
  | access value _ _ => [value]
  | call function arguments keywords => function :: arguments ++ keywords
  | compare first _ operands => first :: operands
  | binary _ left right => [left, right]
  | unary _ operand => [operand]
  | name _ _ | number _ | text _ | spread => []

theorem sizeOf_lt_of_mem_children {tree child : Expr} (member : child ∈ tree.children) :
    sizeOf child < sizeOf tree := by
  cases tree <;>
    simp only [children, List.mem_cons, List.mem_append, List.cons_append,
      List.not_mem_nil] at member
  all_goals
    simp
    grind [→ List.sizeOf_lt_of_mem]

@[elab_as_elim]
theorem induction_on_children {motive : Expr → Prop}
    (step : ∀ tree : Expr, (∀ child ∈ tree.children, motive child) → motive tree) (tree : Expr) :
    motive tree :=
  step tree fun child _isChild => induction_on_children step child
termination_by sizeOf tree
decreasing_by exact sizeOf_lt_of_mem_children _isChild

/-- Every part of a tree, the tree itself too. -/
inductive Contains (part : Expr) : Expr → Prop
  | self : Contains part part
  | under {tree child : Expr} : child ∈ tree.children → Contains part child → Contains part tree

def Everywhere (good : Expr → Prop) (tree : Expr) : Prop :=
  ∀ part, Contains part tree → good part

theorem everywhere_iff {good : Expr → Prop} (tree : Expr) :
    tree.Everywhere good ↔ good tree ∧ ∀ child ∈ tree.children, child.Everywhere good := by
  constructor
  · exact fun holds => ⟨holds tree .self, fun child isChild part inside =>
      holds part (.under isChild inside)⟩
  · rintro ⟨own, below⟩ part (_ | ⟨isChild, inside⟩)
    · exact own
    · exact below _ isChild part inside

end Expr

def Shape.Accepts : Shape → Nat → Prop
  | .name _ _, count | .number _, count | .text _, count | .spread, count => count = 0
  | .access _ _, count | .unary _, count => count = 1
  | .binary _, count => count = 2
  | .compare _, count => 1 ≤ count
  | .dict keys, count => keys ≤ count
  | .call arguments, count => arguments + 1 ≤ count
  | .list _, _ | .tuple _, _ | .connect _, _ | .other _, _ => True

theorem Expr.accepts_children (tree : Expr) : tree.shape.Accepts tree.children.length := by
  cases tree <;> simp [shape, children, Shape.Accepts]

theorem Shape.Accepts.assemble {shape : Shape} {parts : List Expr}
    (accepts : shape.Accepts parts.length) :
    (Sheet.assemble shape parts).shape = shape ∧ (Sheet.assemble shape parts).children = parts := by
  cases shape with
  | list | tuple | connect | other => exact ⟨rfl, rfl⟩
  | dict keys =>
    simp only [Accepts] at accepts
    simp [Sheet.assemble, Expr.shape, Expr.children, accepts]
  | call arguments =>
    obtain ⟨function, rest, rfl⟩ := List.exists_cons_of_length_pos (Nat.zero_lt_of_lt accepts)
    simp_all [Sheet.assemble, Expr.shape, Expr.children, Accepts]
  | compare operators =>
    obtain ⟨first, rest, rfl⟩ := List.exists_cons_of_length_pos accepts
    exact ⟨rfl, rfl⟩
  | access | unary =>
    obtain ⟨value, rfl⟩ := List.length_eq_one_iff.mp accepts
    exact ⟨rfl, rfl⟩
  | binary operator =>
    obtain ⟨left, right, rfl⟩ := List.length_eq_two.mp accepts
    exact ⟨rfl, rfl⟩
  | name | number | text | spread =>
    rw [List.length_eq_zero_iff.mp accepts]
    exact ⟨rfl, rfl⟩

namespace Expr

theorem foldSignsAll_eq_map (trees : List Expr) : foldSignsAll trees = trees.map foldSigns := by
  induction trees with
  | nil => rfl
  | cons first rest ih => rw [foldSignsAll, ih, List.map_cons]

/-- Folding signs changes only negated numbers; all other nodes stay over their parts. -/
theorem foldSigns_eq {tree : Expr} (noSign : ∀ value, tree ≠ .unary .minus (.number value)) :
    tree.foldSigns.shape = tree.shape ∧ tree.foldSigns.children = tree.children.map foldSigns := by
  cases tree with
  | unary operator operand =>
    rw [foldSigns]
    · exact ⟨rfl, rfl⟩
    · rintro value rfl rfl
      exact noSign value rfl
  | _ => simp [foldSigns, foldSignsAll_eq_map, shape, children]

end Expr

namespace Sheet

theorem length_placeAll (sheet : Sheet) (trees : List Expr) :
    (placeAll sheet trees).1.length = trees.length := by
  induction trees generalizing sheet with
  | nil => simp [placeAll]
  | cons first rest ih => simp [placeAll, ih]

theorem placeAll_append (sheet : Sheet) (left right : List Expr) :
    placeAll sheet (left ++ right) =
      ((placeAll sheet left).1 ++ (placeAll (placeAll sheet left).2 right).1,
        (placeAll (placeAll sheet left).2 right).2) := by
  induction left generalizing sheet with
  | nil => simp [placeAll]
  | cons first rest ih => simp [placeAll, ih]

/-- A tree is laid out part by part, and then its root. -/
theorem place_eq (sheet : Sheet) (tree : Expr) :
    place sheet tree =
      (placeAll sheet tree.children).2.add ⟨tree.shape, (placeAll sheet tree.children).1⟩ := by
  cases tree <;>
    simp [place, placeAll, placeAll_append, length_placeAll, Expr.children, Expr.shape]

end Sheet

end ApiDescription
