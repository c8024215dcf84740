import ApiDescription.Expression.Node
import ApiDescription.Expression.Parser

/-!
# Similarity of predicates

Twice the number of shared nodes over the number of all nodes.  Sets of predicates are matched one
by one, each left predicate with the most similar one left on the right, and measured in the same
way.
-/

namespace ApiDescription

/-- A quotient of naturals in the range from zero to one. -/
structure Share where
  numerator : Nat
  denominator : Nat
  deriving DecidableEq, Repr

namespace Share

def toFloat (share : Share) : Float :=
  Decimal.ofQuotient false share.numerator share.denominator

def atLeast (share : Share) (percent : Nat) : Bool :=
  percent * share.denominator ≤ 100 * share.numerator

def exceeds (share other : Share) : Bool :=
  other.numerator * share.denominator < share.numerator * other.denominator

/-- Whether a share makes a better partner than the best so far.  Only a partner of at least ninety
hundredths counts. -/
def improves (share : Share) (best : Option (Nat × Share)) : Bool :=
  share.atLeast 90 && match best with
    | some (_, previous) => share.exceeds previous
    | none => true

end Share

namespace Node

/-- Whether two nodes are alike.  Calls can be compared only if both call a plain name. -/
def alike (left right : Node) : Except Fault Bool :=
  match left, right with
  | .number a, .number b => .ok (a.same b)
  | .call (some a), .call (some b) => .ok (a == b)
  | .call _, .call _ => .error .noAttribute
  | _, _ => .ok (decide (left = right))

/-- Take the last node that is like `node` out of a list, if there is one. -/
def extract (node : Node) : List Node → Except Fault (Option (List Node))
  | [] => .ok none
  | candidate :: rest => do
    let found ← node.alike candidate
    match ← extract node rest with
    | some remaining => return some (candidate :: remaining)
    | none => return if found then some rest else none

end Node

/-- How the nodes of two trees correspond: the number of shared ones, of those only on the left, and
of those only on the right. -/
structure Overlap where
  shared : Nat
  onlyLeft : Nat
  onlyRight : Nat
  deriving DecidableEq, Repr

def Overlap.of : List Node → List Node → Except Fault Overlap
  | [], right => .ok ⟨0, 0, right.length⟩
  | node :: left, right => do
    match ← node.extract right with
    | some remaining =>
      let overlap ← Overlap.of left remaining
      return { overlap with shared := overlap.shared + 1 }
    | none =>
      let overlap ← Overlap.of left right
      return { overlap with onlyLeft := overlap.onlyLeft + 1 }

def Overlap.share (overlap : Overlap) : Share :=
  ⟨2 * overlap.shared, 2 * overlap.shared + overlap.onlyLeft + overlap.onlyRight⟩

/-- Two trees that were matched: their places in their lists, and their similarity. -/
structure Partnership where
  left : Nat
  right : Nat
  share : Share
  deriving DecidableEq, Repr

namespace Expr

def similarity (left right : Expr) : Except Fault Share := do
  return (← Overlap.of left.predicateNodes right.predicateNodes).share

def similarityOfTexts (left right : String) : Except Fault Share := do
  (← parse left).similarity (← parse right)

def parts : Expr → List Expr
  | connect _ operands => operands
  | tree => [tree]

/-- The best partner of a tree among the given ones: its place and similarity; of equal ones the
first. -/
def bestPartner (tree : Expr) (best : Option (Nat × Share)) :
    List (Expr × Nat) → Except Fault (Option (Nat × Share))
  | [] => .ok best
  | (candidate, place) :: rest => do
    let share ← tree.similarity candidate
    tree.bestPartner (if share.improves best then some (place, share) else best) rest

/-- The trees on the left with the partners that they find, one after the other; each partner is
taken once.  Trees are known by their places, since a list may hold one tree several times. -/
def partners : List (Expr × Nat) → List (Expr × Nat) → Except Fault (List Partnership)
  | [], _ => .ok []
  | (tree, place) :: rest, candidates => do
    match ← tree.bestPartner none candidates with
    | some (partner, share) =>
      let others ← partners rest (candidates.eraseP fun candidate => candidate.2 == partner)
      return ⟨place, partner, share⟩ :: others
    | none => partners rest candidates

/-- Similarity of two lists of trees; two empty lists have none. -/
def similarityOfTrees (left right : List Expr) : Except Fault (Option Share) := do
  let shared := (← partners left.zipIdx right.zipIdx).length
  let overlap : Overlap := ⟨shared, left.length - shared, right.length - shared⟩
  return if overlap.shared + overlap.onlyLeft + overlap.onlyRight = 0 then none
    else some overlap.share

/-- Similarity of two lists of predicate trees: and/or chains count as several predicates. -/
def similarityOfSets (left right : List Expr) : Except Fault (Option Share) :=
  similarityOfTrees (left.flatMap parts) (right.flatMap parts)

def similarityOfTextSets (left right : List String) : Except Fault (Option Share) := do
  similarityOfSets (← left.mapM parse) (← right.mapM parse)

end Expr

end ApiDescription
