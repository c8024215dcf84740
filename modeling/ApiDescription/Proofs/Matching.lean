import ApiDescription.Expression.Matching
import ApiDescription.Proofs.Similarity

/-!
# What a comparison of predicates finds

The comparison walks the left tree with a part of the right tree in view and tries operands in
turn.  Every attempt starts by looking at the part it is about, so that its outcome depends on two
trees only.

`Expr.Fits` says what one step asks of the parts of two trees: a comparison that ends without a
fault accepts exactly what fits.  There is no fault where every tree on the way has a rule.
-/

namespace ApiDescription

open Matching List

namespace Expr

/-- One predicate is accepted for another. -/
def Matches (left right : Expr) : Prop :=
  (Matching.compare (.whole left) (.whole right)).outcome = .ok (some true)

def Ends (left right : Expr) : Prop :=
  ∃ answer, (Matching.compare (.whole left) (.whole right)).outcome = .ok (some answer)

/-- Items that stand in the same place of two lists match. -/
def Along (matching : Expr → Expr → Prop) (lefts rights : List Expr) : Prop :=
  ∀ (index : Nat) (left right : Expr), lefts[index]? = some left → rights[index]? = some right →
    matching left right

/-- The sides of two comparisons match as they correspond. -/
def SidesFit (matching : Expr → Expr → Prop) (sides : Sides) (first second first' second' : Expr) :
    Prop :=
  match sides with
  | .straight => matching first first' ∧ matching second second'
  | .crossed => matching second first' ∧ matching first second'
  | .none => False

/-- What one step of the comparison asks of the parts of two trees. -/
def Fits (matching : Expr → Expr → Prop) : Expr → Expr → Prop
  | name id _, name id' _ => id = id'
  | number value, number value' => value.same value' = true
  | text value, text value' => value = value'
  | list items _, list items' _ | tuple items _, tuple items' _ =>
    items.length = items'.length ∧ Along matching items items'
  | dict keys values, dict keys' values' =>
    keys.length = keys'.length ∧ Along matching keys keys' ∧ Along matching values values'
  | access value label _, access value' label' _ => label = label' ∧ matching value value'
  | call function arguments _, call function' arguments' _ =>
    matching function function' ∧ arguments.length = arguments'.length ∧
    Along matching arguments arguments'
  | compare first (operator :: _) (operand :: _), compare first' (operator' :: _) (operand' :: _) =>
    SidesFit matching (sides operator operator') first operand first' operand'
  | connect connective operands, connect connective' operands' =>
    connective = connective' ∧ operands.length = operands'.length ∧
      ∀ operand ∈ operands, ∃ partner ∈ operands', matching operand partner
  | binary operator left right, binary operator' left' right' =>
    operator = operator' ∧ (matching left left' ∧ matching right right' ∨
      ¬matching left left' ∧ matching left right' ∧ matching right left')
  | _, _ => False

/-- The parts that a comparison goes into: of a chain of comparisons only the first two operands,
and of a call all but the arguments passed by name. -/
def compared : Expr → List Expr
  | list items _ | tuple items _ | connect _ items => items
  | dict keys values => keys ++ values
  | access value _ _ => [value]
  | call function arguments _ => function :: arguments
  | compare first _ operands => first :: operands.take 1
  | binary _ left right => [left, right]
  | _ => []

/-- A tree that the comparison has a rule for, built as the grammar builds trees. -/
def HasRule : Expr → Prop
  | number value => value.HasValue
  | dict keys values => keys.length = values.length
  | compare _ operators operands => operators ≠ [] ∧ operands ≠ []
  | spread | unary _ _ | other _ _ => False
  | _ => True

theorem along_cons {matching : Expr → Expr → Prop} {left right : Expr} {lefts rights : List Expr} :
    Along matching (left :: lefts) (right :: rights) ↔
      matching left right ∧ Along matching lefts rights := by
  rw [Along, ← Nat.and_forall_add_one]
  simp [Along]

end Expr

/-! ## Steps -/

namespace Matching

variable {α β : Type} {safe : Prop}

theorem outcome_bind (step : Matching α) (next : α → Matching β) (right : Counterpart) :
    ((step >>= next) right).outcome =
      (step right).outcome >>= fun value => (next value (step right).right).outcome := by
  simp only [bind]
  rcases step right with ⟨_ | value, after, reports⟩ <;> rfl

theorem outcome_view_bind (next : Option Expr → Matching β) (tree : Expr) :
    ((view >>= next) (.part tree)).outcome = (next (some tree) (.part tree)).outcome :=
  rfl

/-- Whatever a step looks at, its value is good if it has one, and it has one if that is safe to
say. -/
def Finds (safe : Prop) (good : α → Prop) (step : Matching α) : Prop :=
  ∀ right, (∀ value, (step right).outcome = .ok value → good value) ∧
    (safe → ∃ value, (step right).outcome = .ok value)

abbrev Tells (safe condition : Prop) (step : Matching (Option Bool)) : Prop :=
  Finds safe (fun found => (found = some true ↔ condition) ∧ (safe → found ≠ none)) step

section Steps

variable {left right : Expr} {lefts rights : List Expr} {line : String}

variable {good : α → Prop} {condition further : Prop} {attempt : Matching (Option Bool)}

theorem finds_pure {value : α} (isGood : good value) : Finds safe good (pure value) := by
  intro right
  refine ⟨?_, fun _ => ⟨value, rfl⟩⟩
  rintro value ⟨⟩
  exact isGood

theorem Finds.bind {middle : α → Prop} {good : β → Prop} {step : Matching α} {next : α → Matching β}
    (finds : Finds safe middle step)
    (findsNext : ∀ value, middle value → Finds safe good (next value)) :
    Finds safe good (step >>= next) := by
  intro right
  rw [outcome_bind]
  constructor
  · intro result ended
    obtain ⟨value, stepped, ended⟩ := Outcome.bind_eq_ok.mp ended
    exact (findsNext value ((finds right).1 value stepped) _).1 result ended
  · intro isSafe
    obtain ⟨value, stepped⟩ := (finds right).2 isSafe
    rw [stepped]
    exact (findsNext value ((finds right).1 value stepped) _).2 isSafe

theorem tells_visit (ends : safe → left.Ends right) :
    Tells safe (left.Matches right) (facing right (visit left)) := by
  intro view
  refine ⟨fun found ended => ⟨?_, fun isSafe => ?_⟩, fun isSafe => (ends isSafe).imp' some fun _ =>
    id⟩
  · change _ ↔ (visit left (.part right)).outcome = .ok (some true)
    rw [show (visit left (.part right)).outcome = .ok found from ended, Except.ok.injEq]
  · obtain ⟨answer, answered⟩ := ends isSafe
    cases ended.symm.trans answered
    exact Option.some_ne_none answer

theorem tells_mismatch : Tells safe False (mismatch line) :=
  fun _ => ⟨by rintro found ⟨⟩; simp, fun _ => ⟨_, rfl⟩⟩

theorem tells_stop {fault : Fault} (faulty : ¬safe) : Tells safe condition (stop fault) :=
  fun _ => ⟨by rintro _ ⟨⟩, fun isSafe => (faulty isSafe).elim⟩

theorem tells_false : Tells safe False (pure (some false)) :=
  finds_pure (by simp)

theorem Tells.only [Decidable condition] {step : Matching (Option Bool)}
    (tells : Tells safe further step) :
    Tells safe (condition ∧ further) (if condition then step else mismatch line) := by
  split
  next isTrue => simpa [isTrue] using tells
  next isFalse => simpa [isFalse] using tells_mismatch

theorem tells_exactly [Decidable condition] :
    Tells safe condition (if condition then pure (some true) else mismatch line) := by
  split
  next isTrue => exact finds_pure (by simp [isTrue])
  next isFalse => simpa [isFalse] using tells_mismatch

theorem Tells.choose {accepted rejected : Matching α} (tells : Tells safe condition attempt)
    (findsAccepted : condition → Finds safe good accepted)
    (findsRejected : ¬condition → Finds safe good rejected) :
    Finds safe good (choose attempt accepted rejected) := by
  refine Finds.bind tells fun found told => ?_
  split
  next isTrue => exact findsAccepted (told.1.mp (by simpa [holds] using isTrue))
  next isFalse => exact findsRejected (told.1.not.mp (by simpa [holds] using isFalse))

theorem Tells.both {accepted rejected : Matching (Option Bool)}
    (tells : Tells safe condition attempt) (tellsAccepted : Tells safe further accepted)
    (tellsRejected : Tells safe False rejected) :
    Tells safe (condition ∧ further) (Matching.choose attempt accepted rejected) := by
  refine tells.choose (fun holds => ?_) fun fails => ?_
  · simpa only [holds, true_and] using tellsAccepted
  · simpa only [fails, false_and] using tellsRejected

theorem tells_visitPairs (line : String) (lefts rights : List Expr)
    (ends : safe → ∀ left ∈ lefts, ∀ right ∈ rights, left.Ends right) :
    Tells safe (Expr.Along Expr.Matches lefts rights) (visitPairs line lefts rights) := by
  match lefts, rights with
  | left :: lefts, right :: rights =>
    rw [visitPairs, Expr.along_cons]
    refine (tells_visit fun isSafe => ?_).both (tells_visitPairs line lefts rights ?_)
      tells_mismatch
    · exact ends isSafe left mem_cons_self right mem_cons_self
    · exact fun isSafe left member right memberRight =>
        ends isSafe left (mem_cons_of_mem _ member) right (mem_cons_of_mem _ memberRight)
  | [], _ | _ :: _, [] =>
    rw [visitPairs]
    · exact finds_pure (by simp [Expr.Along])
    · simp

theorem finds_anyOf (ends : safe → ∀ right ∈ rights, left.Ends right) :
    Finds safe (fun matched => matched = true ↔ ∃ right ∈ rights, left.Matches right)
      (anyOf (visit left) rights) := by
  induction rights with
  | nil => exact finds_pure (by simp)
  | cons right rights ih =>
    refine (tells_visit fun isSafe => ends isSafe right mem_cons_self).choose ?_ ?_ <;> intro found
    · exact finds_pure (by simp [found])
    · simp only [exists_mem_cons_iff, found, false_or]
      exact ih fun isSafe other member => ends isSafe other (mem_cons_of_mem _ member)

theorem finds_countMatched (ends : safe → ∀ left ∈ lefts, ∀ right ∈ rights, left.Ends right) :
    Finds safe (fun count => count ≤ lefts.length ∧
      (count = lefts.length ↔ ∀ left ∈ lefts, ∃ right ∈ rights, left.Matches right))
      (countMatched rights lefts) := by
  induction lefts with
  | nil => exact finds_pure (by simp)
  | cons left lefts ih =>
    simp only [forall_mem_cons] at ends
    refine (finds_anyOf fun isSafe => (ends isSafe).1).bind fun matched found => ?_
    refine (ih fun isSafe => (ends isSafe).2).bind fun count counted => finds_pure ?_
    obtain ⟨atMost, complete⟩ := counted
    rw [forall_mem_cons, ← found, ← complete, length_cons]
    cases matched <;> simp <;> omega

end Steps

end Matching

/-! ## Trees -/

namespace Expr

variable {left right : Expr}

/-- Both trees have a rule, and comparing their parts gives no fault. -/
def Safe (left right : Expr) : Prop :=
  left.HasRule ∧ right.HasRule ∧ ∀ part ∈ left.compared, ∀ other ∈ right.compared, part.Ends other

theorem tells_fits (left right : Expr) :
    Tells (Safe left right) (Fits Matches left right) (facing right (visit left)) := by
  intro view
  change (∀ found, (visit left (.part right)).outcome = .ok found → _) ∧
    (_ → ∃ found, (visit left (.part right)).outcome = .ok found)
  have ends {part other : Expr} (member : part ∈ left.compared)
    (memberRight : other ∈ right.compared)
      (isSafe : Safe left right) : part.Ends other := isSafe.2.2 part member other memberRight
  cases left with
  | name id use =>
    rw [visit]
    cases right with
    | name id' use' =>
      rw [Fits]
      exact tells_exactly _
    | _ => exact tells_mismatch _
  | number value =>
    rw [visit]
    cases right with
    | number value' =>
      rw [Fits]
      exact tells_exactly _
    | _ => exact tells_mismatch _
  | text value =>
    rw [visit]
    cases right with
    | text value' =>
      rw [Fits]
      exact tells_exactly _
    | _ => exact tells_mismatch _
  | list items use =>
    rw [visit]
    cases right with
    | list items' use' =>
      rw [Fits]
      exact (tells_visitPairs _ items items' fun isSafe => isSafe.2.2).only _
    | _ => exact tells_mismatch _
  | tuple items use =>
    rw [visit]
    cases right with
    | tuple items' use' =>
      rw [Fits]
      exact (tells_visitPairs _ items items' fun isSafe => isSafe.2.2).only _
    | _ => exact tells_mismatch _
  | dict keys values =>
    rw [visit]
    cases right with
    | dict keys' values' =>
      rw [Fits]
      refine Tells.only (Tells.both (tells_visitPairs _ keys keys' ?_)
        (tells_visitPairs _ values values' ?_) tells_false) _
      · exact fun isSafe left member right memberRight =>
          ends (mem_append_left _ member) (mem_append_left _ memberRight) isSafe
      · exact fun isSafe left member right memberRight =>
          ends (mem_append_right _ member) (mem_append_right _ memberRight) isSafe
    | _ => exact tells_mismatch _
  | access value label use =>
    rw [visit]
    cases right with
    | access value' label' use' =>
      rw [Fits]
      exact (tells_visit (ends (by simp [compared]) (by simp [compared]))).only _
    | _ => exact tells_mismatch _
  | call function arguments named =>
    rw [visit]
    cases right with
    | call function' arguments' named' =>
      rw [Fits]
      refine Tells.both (tells_visit (ends (by simp [compared]) (by simp [compared])))
        (tells_visitPairs _ arguments arguments' ?_).only tells_mismatch _
      exact fun isSafe left member right memberRight =>
        ends (mem_cons_of_mem _ member) (mem_cons_of_mem _ memberRight) isSafe
    | _ => exact tells_mismatch _
  | compare first operators operands =>
    match operators, operands with
    | operator :: operators, operand :: operands =>
      rw [visit]
      cases right with
      | compare first' operators' operands' =>
        match operators', operands' with
        | operator' :: operators', operand' :: operands' =>
          rw [Fits, outcome_view_bind]
          cases corresponding : sides operator operator' with
          | straight | crossed =>
            simp only [corresponding]
            exact Tells.both (tells_visit (ends (by simp [compared]) (by simp [compared])))
              (tells_visit (ends (by simp [compared]) (by simp [compared]))) tells_mismatch _
          | none =>
            simp only [corresponding]
            exact tells_false _
        | [], _ => exact tells_stop (fun isSafe => isSafe.2.1.1 rfl) _
        | _ :: _, [] => exact tells_stop (fun isSafe => isSafe.2.1.2 rfl) _
      | _ => exact tells_mismatch _
    | [], _ =>
      rw [visit]
      · cases right with
        | compare first' operators' operands' => exact tells_stop (fun isSafe => isSafe.1.1 rfl) _
        | _ => exact tells_mismatch _
      · simp
    | _ :: _, [] =>
      rw [visit]
      · cases right with
        | compare first' operators' operands' => exact tells_stop (fun isSafe => isSafe.1.2 rfl) _
        | _ => exact tells_mismatch _
      · simp
  | connect connective operands =>
    rw [visit]
    cases right with
    | connect connective' operands' =>
      rw [Fits]
      refine Tells.only (Tells.only ?_) _
      refine (finds_countMatched fun isSafe => isSafe.2.2).bind fun count counted => ?_
      rw [← counted.2]
      exact tells_exactly
    | _ => exact tells_mismatch _
  | binary operator first second =>
    rw [visit]
    cases right with
    | binary operator' first' second' =>
      rw [Fits]
      refine Tells.only ((tells_visit (ends (by simp [compared]) (by simp [compared]))).choose ?_
        ?_) _
      · intro straight
        simpa only [straight, true_and, not_true, false_and, or_false] using
          tells_visit (ends (by simp [compared]) (by simp [compared]))
      · intro notStraight
        simp only [notStraight, false_and, not_false_eq_true, true_and, false_or]
        exact Tells.both (tells_visit (ends (by simp [compared]) (by simp [compared])))
          (tells_visit (ends (by simp [compared]) (by simp [compared]))) tells_mismatch
    | _ => exact tells_false _
  | spread =>
    rw [visit]
    exact tells_stop (fun isSafe => isSafe.1) _
  | unary | other =>
    refine ⟨fun found ended => ?_, fun isSafe => isSafe.1.elim⟩
    rw [visit, outcome_bind] at ended
    obtain ⟨_, _, ⟨⟩⟩ := Outcome.bind_eq_ok.mp ended
    simp [Fits, Safe, HasRule]

theorem Fits.cases {matching : Expr → Expr → Prop}
    {motive : (left right : Expr) → Fits matching left right → Prop}
    (name : ∀ id use use', motive (name id use) (name id use') rfl)
    (number : ∀ value value' same, motive (number value) (number value') same)
    (text : ∀ value, motive (text value) (text value) rfl)
    (list : ∀ items use items' use' fits, motive (list items use) (list items' use') fits)
    (tuple : ∀ items use items' use' fits, motive (tuple items use) (tuple items' use') fits)
    (dict : ∀ keys values keys' values' fits, motive (dict keys values) (dict keys' values') fits)
    (access : ∀ value label use value' use' fits,
      motive (access value label use) (access value' label use')
      ⟨rfl, fits⟩) (call : ∀ function arguments named function' arguments' named' fits,
        motive (call function
      arguments named) (call function' arguments' named') fits) (compare :
      ∀ first operator operators operand
      operands first' operator' operators' operand' operands' fits,
      motive (compare first (operator :: operators)
      (operand :: operands)) (compare first' (operator' :: operators') (operand' :: operands'))
        fits)
    (connect : ∀ connective operands operands' fits,
      motive (connect connective operands) (connect connective
      operands') ⟨rfl, fits⟩) (binary : ∀ operator first second first' second' fits,
        motive (binary operator
      first second) (binary operator first' second') ⟨rfl, fits⟩) (fits :
      Fits matching left right) :
    motive left right fits := by
  revert fits
  fun_cases Fits matching left right with
  | case1 | case3 => rintro rfl; solve_by_elim
  | case7 | case10 | case11 => rintro ⟨rfl, fits⟩; solve_by_elim
  | case12 =>
    intro fits
    rw [Fits] at fits
    · exact fits.elim
    all_goals assumption
  | _ => solve_by_elim

theorem Matches.fits (matched : left.Matches right) : Fits Matches left right :=
  ((tells_fits left right (.part right)).1 _ matched).1.mp rfl

/-! ## Along the way of a comparison -/

/-- The trees that a comparison of a tree comes to. -/
inductive Reaches : Expr → Expr → Prop
  | self {tree : Expr} : Reaches tree tree
  | under {tree child part : Expr} : child ∈ tree.compared → Reaches child part → Reaches tree part

/-- Every tree on the way of a comparison has a property. -/
def Throughout (property : Expr → Prop) (tree : Expr) : Prop :=
  ∀ part, tree.Reaches part → property part

section Throughout

variable {property other : Expr → Prop} {tree part : Expr}

theorem Throughout.here (all : tree.Throughout property) : property tree :=
  all tree .self

theorem Throughout.below (all : tree.Throughout property) (member : part ∈ tree.compared) :
    part.Throughout property :=
  fun other reached => all other (.under member reached)

theorem Throughout.mono (all : tree.Throughout property)
    (implies : ∀ part, property part → other part) :
    tree.Throughout other :=
  fun part reached => implies part (all part reached)

theorem throughout_iff :
    tree.Throughout property ↔
      property tree ∧ ∀ part ∈ tree.compared, part.Throughout property := by
  refine ⟨fun all => ⟨all.here, fun part => all.below⟩, ?_⟩
  rintro ⟨here, below⟩ part (_ | ⟨member, reached⟩)
  · exact here
  · exact below _ member part reached

end Throughout

theorem mem_children_of_mem_compared {tree part : Expr} (member : part ∈ tree.compared) :
    part ∈ tree.children := by
  cases tree <;> simp only [compared, children, mem_cons, not_mem_nil] at member ⊢ <;>
    grind [mem_of_mem_take]

theorem compared_induction {motive : Expr → Prop}
    (step : ∀ tree, (∀ part ∈ tree.compared, motive part) → motive tree) (tree : Expr) :
    motive tree :=
  step tree fun part member =>
    have := sizeOf_lt_of_mem_children (mem_children_of_mem_compared member)
    compared_induction step part
termination_by sizeOf tree

theorem ends_of_hasRule (rules : left.Throughout HasRule) (rulesRight : right.Throughout HasRule) :
    left.Ends right := by
  induction left using compared_induction generalizing right with
  | step left ih =>
    have isSafe : Safe left right :=
      ⟨rules.here, rulesRight.here, fun part member other memberRight =>
      ih part member (rules.below member) (rulesRight.below memberRight)⟩
    obtain ⟨found, ended⟩ := (tells_fits left right (.part right)).2 isSafe
    have someAnswer := ((tells_fits left right (.part right)).1 found ended).2 isSafe
    obtain ⟨answer, rfl⟩ := Option.ne_none_iff_exists'.mp someAnswer
    exact ⟨answer, ended⟩

/-- Where every tree on the way has a rule, exactly what fits is accepted. -/
theorem matches_iff_fits (rules : left.Throughout HasRule) (rulesRight : right.Throughout HasRule) :
    left.Matches right ↔ Fits Matches left right := by
  obtain ⟨answer, ended⟩ := ends_of_hasRule rules rulesRight
  have accepts : some answer = some true ↔ Fits Matches left right :=
    ((tells_fits left right (.part right)).1 _ ended).1
  rw [Matches, ← accepts, ended, Except.ok.injEq]

end Expr

end ApiDescription
