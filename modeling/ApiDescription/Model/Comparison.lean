import ApiDescription.Expression.Similarity
import ApiDescription.Model.Conditions

/-!
# Comparison of operations

Two operations are interchangeable when their methods are compatible and what they require and
ensure is similar enough.
-/

namespace ApiDescription

/-- Two labels in order; a text and a list of texts have none. -/
def Label.sorted : Label → Label → Except Fault (Label × Label)
  | .text left, .text right =>
    .ok (if right < left then (.text right, .text left) else (.text left, .text right))
  | .texts left, .texts right =>
    .ok (if right < left then (.texts right, .texts left) else (.texts left, .texts right))
  | _, _ => .error .wrongKind

/-- Whether two methods may stand for each other: equal ones, and those that both may create. -/
def methodsAgree (left right : Label) : Except Fault Bool := do
  let (first, second) ← Label.sorted left right
  return first == second || (first == .text "GET" && second == .text "POST") ||
    (first == .text "POST" && second == .text "PUT")

/-- Similarity of two lists of conditions; two empty lists have none. -/
def similarityOfConditions (left right : List Condition) : Except Fault (Option Share) := do
  Expr.similarityOfSets (← left.mapM Condition.parse) (← right.mapM Condition.parse)

/-- How alike two operations are in what they require and ensure. -/
structure Likeness where
  before : Option Share
  after : Option Share

def Likeness.report (likeness : Likeness) : String :=
  wording likeness.before ++ " " ++ wording likeness.after
where
  wording : Option Share → String
    | some share => Decimal.floatText share.toFloat
    | none => "-1"

/-- Whether a likeness is close enough: each side that has something to compare reaches eighty-five
hundredths, and at least one side has. -/
def Likeness.isClose (likeness : Likeness) : Bool :=
  match likeness.before, likeness.after with
  | some before, some after => before.atLeast 85 && after.atLeast 85
  | some before, none => before.atLeast 85
  | none, some after => after.atLeast 85
  | none, none => false

/-- Compare two operations; methods that do not agree leave nothing to compare. -/
def Operation.likeness (leftApi : Api) (left : Operation) (rightApi : Api) (right : Operation) :
    Except Fault (Option Likeness) := do
  if ← methodsAgree left.method right.method then
    let before ←
      similarityOfConditions (← left.preConditions leftApi) (← right.preConditions rightApi)
    let after ←
      similarityOfConditions (← left.postConditions leftApi) (← right.postConditions rightApi)
    return some { before, after }
  else return none

def Operation.isLike (leftApi : Api) (left : Operation) (rightApi : Api) (right : Operation) :
    Except Fault Bool := do
  match ← left.likeness leftApi rightApi right with
  | some likeness => return likeness.isClose
  | none => return false

end ApiDescription
