import ApiDescription.Proofs.Splitting

/-!
# Short-circuit evaluation

The reference semantics of predicates: operands are evaluated from left to right, the first fault
ends the evaluation, and an and/or chain has the value of the first operand that decides it, or of
its last one.  What follows the operand that decides is not evaluated.

The evaluator folds a chain from the absent value on and looks at every operand.  In predicates that
have no absent parts it gives exactly the outcomes of the reference semantics.  With absent parts it
does not: a conjunction starts over after an absent operand and forgets it.
-/

namespace ApiDescription

open Outcome Value

/-! ## Operators -/

/-- What the operators of arithmetic stand for. -/
inductive BinaryOperator.Means : BinaryOperator → (Value → Value → Except Fault Value) → Prop where
  | add : Means .add Value.add
  | subtract : Means .subtract (onNumbers Number.subtract)
  | multiply : Means .multiply Value.multiply

/-- What the operators of comparison stand for. -/
inductive Comparison.Means : Comparison → (Value → Value → Except Fault Bool) → Prop where
  | less : Means .less (ordered .less)
  | lessEqual : Means .lessEqual (ordered .lessEqual)
  | greater : Means .greater (ordered .greater)
  | greaterEqual : Means .greaterEqual (ordered .greaterEqual)
  | equal : Means .equal fun left right => .ok (same left right)
  | unequal : Means .unequal fun left right => .ok (!same left right)
  | member : Means .member isMember
  | nonMember : Means .nonMember fun left right => do return !(← isMember left right)

namespace Value

variable {left right : Value}

theorem onNumbers_ne_none (operation : Number → Number → Except Fault Number) :
    onNumbers operation left right ≠ .ok .none := by
  unfold onNumbers
  split
  · next first second _ _ => cases operation first second <;> simp
  · simp

theorem add_ne_none : add left right ≠ .ok .none := by
  unfold add
  split
  · simp
  · simp
  · simp
  · exact onNumbers_ne_none _

theorem repeated_ne_none {count : Int} : repeated left count ≠ .ok .none := by
  unfold repeated
  split
  · next text => cases repeatCount text.length count <;> simp
  · next items => cases repeatCount items.length count <;> simp
  · next items => cases repeatCount items.length count <;> simp
  · simp

theorem multiply_ne_none : multiply left right ≠ .ok .none := by
  unfold multiply
  split
  · exact repeated_ne_none
  · exact repeated_ne_none
  · exact onNumbers_ne_none _

end Value

theorem BinaryOperator.Means.apply_eq {operator : BinaryOperator}
    {meaning : Value → Value → Except Fault Value} (means : operator.Means meaning)
    (left right : Value) :
    operator.apply left right = meaning left right ∧ meaning left right ≠ .ok .none := by
  cases means with
  | add => exact ⟨rfl, add_ne_none⟩
  | subtract => exact ⟨rfl, onNumbers_ne_none _⟩
  | multiply => exact ⟨rfl, multiply_ne_none⟩

theorem Comparison.Means.apply_eq {operator : Comparison}
    {meaning : Value → Value → Except Fault Bool} (means : operator.Means meaning)
    (left right : Value) :
    operator.apply left right = bool <$> meaning left right := by
  cases means with
  | nonMember =>
    rw [Comparison.apply]
    simp only
    cases isMember left right <;> rfl
  | _ => rfl

namespace Expr

/-! ## Outcomes -/

mutual

/-- The outcome of a predicate: its value, or the fault that ends the evaluation. -/
inductive Yields : Expr → Except Fault Value → Prop where
  | integer (value : Int) : Yields (.number (.int value)) (.ok (.number (.int value)))
  | text (value : String) : Yields (.text value) (.ok (.text value))
  | truth {use : Use} : Yields (.name "True" use) (.ok (.bool true))
  | list {items : List Expr} {use : Use} {outcome : Except Fault (List Value)}
      (each : YieldsAll items outcome) : Yields (.list items use) (do return .list (← outcome))
  | tuple {items : List Expr} {use : Use} {outcome : Except Fault (List Value)}
      (each : YieldsAll items outcome) : Yields (.tuple items use) (do return .tuple (← outcome))
  | arithmetic {operator : BinaryOperator} {meaning : Value → Value → Except Fault Value}
      {left right : Expr}
      {first second : Except Fault Value} (means : operator.Means meaning) (one : Yields left first)
      (other : Yields right second) :
      Yields (.binary operator left right) (do meaning (← first) (← second))
  | comparison {operator : Comparison} {meaning : Value → Value → Except Fault Bool}
      {left right : Expr}
      {first second : Except Fault Value} (means : operator.Means meaning) (one : Yields left first)
      (other : Yields right second) :
      Yields (.compare left [operator] [right]) (do return .bool (← meaning (← first) (← second)))
  | negation {operand : Expr} {outcome : Except Fault Value} (one : Yields operand outcome) :
      Yields (.unary .negation operand) (do return .bool !(← outcome).isTruthy)
  | length {operand : Expr} {use : Use} {outcome : Except Fault Value}
      (one : Yields operand outcome) :
      Yields (.call (.name "len" use) [operand] []) (do return .number (.int (← (← outcome).size)))
  | chain {connective : Connective} {operands : List Expr} {outcome : Except Fault Value}
      (found : YieldsFirst connective operands outcome) :
      Yields (.connect connective operands) outcome

/-- The values of all items, or the first fault among them. -/
inductive YieldsAll : List Expr → Except Fault (List Value) → Prop where
  | nil : YieldsAll [] (.ok [])
  | cons {item : Expr} {items : List Expr} {first : Except Fault Value}
      {others : Except Fault (List Value)}
      (one : Yields item first) (each : YieldsAll items others) :
      YieldsAll (item :: items) (do return (← first) :: (← others))

/-- The outcome of the first operand that decides a chain, or else of the last one.  Nothing is
asked of the operands after it. -/
inductive YieldsFirst : Connective → List Expr → Except Fault Value → Prop where
  | last {connective : Connective} {operand : Expr} {outcome : Except Fault Value}
      (one : Yields operand outcome) : YieldsFirst connective [operand] outcome
  | fails {connective : Connective} {operand : Expr} {rest : List Expr} {fault : Fault}
      (one : Yields operand (.error fault)) :
      YieldsFirst connective (operand :: rest) (.error fault)
  | decides {connective : Connective} {operand : Expr} {rest : List Expr} {value : Value}
      (one : Yields operand (.ok value))
      (final : value.isTruthy = decide (connective = .disjunction)) :
      YieldsFirst connective (operand :: rest) (.ok value)
  | passes {connective : Connective} {operand : Expr} {rest : List Expr} {value : Value}
      {outcome : Except Fault Value} (one : Yields operand (.ok value))
      (neutral : value.isTruthy = decide (connective = .conjunction))
      (later : YieldsFirst connective rest outcome) :
      YieldsFirst connective (operand :: rest) outcome

end

variable {connective : Connective} {tree operand : Expr} {items operands rest : List Expr}
  {outcome : Except Fault Value}

/-- A value that decides a chain does not leave it open, unless it is absent. -/
theorem not_open_of_decides {value : Value} (present : value ≠ .none)
    (final : value.isTruthy = decide (connective = .disjunction)) : ¬Open connective value := by
  rw [Open, not_or, final]
  exact ⟨present, by cases connective <;> simp⟩

mutual

theorem Yields.evaluate_eq {tree : Expr} {outcome : Except Fault Value} :
    tree.Yields outcome → tree.evaluate = outcome ∧ outcome ≠ .ok .none
  | .integer _ => ⟨rfl, by simp⟩
  | .text _ => ⟨rfl, by simp⟩
  | .truth => ⟨rfl, by simp⟩
  | .list each => by
    rw [evaluate, each.evaluateAll_eq]
    exact ⟨rfl, bind_ne_ok fun _ => by simp⟩
  | .tuple each => by
    rw [evaluate, each.evaluateAll_eq]
    exact ⟨rfl, bind_ne_ok fun _ => by simp⟩
  | .arithmetic means left right => by
    rw [evaluate, left.evaluate_eq.1, right.evaluate_eq.1]
    refine ⟨?_, bind_ne_ok fun _ => bind_ne_ok fun _ => (means.apply_eq _ _).2⟩
    simp only [(means.apply_eq _ _).1]
  | .comparison means left right => by
    rw [evaluate, left.evaluate_eq.1, right.evaluate_eq.1]
    refine ⟨?_, bind_ne_ok fun _ => bind_ne_ok fun _ => bind_ne_ok fun _ => by simp⟩
    simp only [means.apply_eq]
    rfl
  | .negation operand => by
    rw [evaluate, operand.evaluate_eq.1]
    exact ⟨rfl, bind_ne_ok fun _ => by simp⟩
  | .length operand => by
    rw [evaluate, operand.evaluate_eq.1]
    exact ⟨rfl, bind_ne_ok fun _ => bind_ne_ok fun _ => by simp⟩
  | .chain found => found.evaluateOperands_eq (.inl rfl)

theorem YieldsAll.evaluateAll_eq {items : List Expr} {outcome : Except Fault (List Value)} :
    YieldsAll items outcome → evaluateAll items = outcome
  | .nil => rfl
  | .cons one each => by rw [evaluateAll, one.evaluate_eq.1, each.evaluateAll_eq]

/-- Folding a chain that is still open finds the operand that decides. -/
theorem YieldsFirst.evaluateOperands_eq {connective : Connective} {operands : List Expr}
    {outcome : Except Fault Value} : YieldsFirst connective operands outcome →
      ∀ {result : Value}, Open connective result →
        evaluateOperands connective result operands = outcome ∧ outcome ≠ .ok .none
  | .last operand, _, isOpen => by
    rw [evaluateOperands_of_open isOpen, operand.evaluate_eq.1]
    exact ⟨bind_pure _, operand.evaluate_eq.2⟩
  | .fails operand, _, isOpen => by
    rw [evaluateOperands_of_open isOpen, operand.evaluate_eq.1]
    exact ⟨rfl, operand.evaluate_eq.2⟩
  | .decides operand final, _, isOpen => by
    obtain ⟨evaluated, present⟩ := operand.evaluate_eq
    rw [evaluateOperands_of_open isOpen, evaluated, ok_bind]
    exact ⟨evaluateOperands_of_decided (not_open_of_decides (by simpa using present) final),
      present⟩
  | .passes operand neutral later, _, isOpen => by
    rw [evaluateOperands_of_open isOpen, operand.evaluate_eq.1, ok_bind]
    exact later.evaluateOperands_eq (.inr neutral)

end

/-! ## Predicates without absent parts -/

/-- A closed predicate made of integers, texts, `True`, lists, tuples, sums, differences, products,
single comparisons other than for identity, negations, lengths, and and/or chains. -/
inductive Settled : Expr → Prop where
  | integer (value : Int) : Settled (.number (.int value))
  | text (value : String) : Settled (.text value)
  | truth {use : Use} : Settled (.name "True" use)
  | list {items : List Expr} {use : Use} (each : ∀ item ∈ items, Settled item) :
      Settled (.list items use)
  | tuple {items : List Expr} {use : Use} (each : ∀ item ∈ items, Settled item) :
      Settled (.tuple items use)
  | arithmetic {operator : BinaryOperator} {left right : Expr}
      (among : operator ∈ [.add, .subtract, .multiply]) (one : Settled left)
      (second : Settled right) :
      Settled (.binary operator left right)
  | comparison {operator : Comparison} {left right : Expr}
      (among : operator ∉ [.identical, .distinct])
      (one : Settled left) (second : Settled right) : Settled (.compare left [operator] [right])
  | negation {operand : Expr} (one : Settled operand) : Settled (.unary .negation operand)
  | length {operand : Expr} {use : Use} (one : Settled operand) :
      Settled (.call (.name "len" use) [operand] [])
  | chain {connective : Connective} {operands : List Expr} (nonempty : operands ≠ [])
      (each : ∀ operand ∈ operands, Settled operand) : Settled (.connect connective operands)

theorem exists_yieldsAll (each : ∀ item ∈ items, ∃ outcome, item.Yields outcome) :
    ∃ outcome, YieldsAll items outcome := by
  induction items with
  | nil => exact ⟨_, .nil⟩
  | cons item items ih =>
    rw [List.forall_mem_cons] at each
    obtain ⟨first, one⟩ := each.1
    obtain ⟨others, yields⟩ := ih each.2
    exact ⟨_, .cons one yields⟩

theorem exists_yieldsFirst (connective : Connective) (nonempty : operands ≠ [])
    (each : ∀ operand ∈ operands, ∃ outcome, operand.Yields outcome) :
    ∃ outcome, YieldsFirst connective operands outcome := by
  induction operands with
  | nil => exact absurd rfl nonempty
  | cons operand rest ih =>
    rw [List.forall_mem_cons] at each
    obtain ⟨outcome, one⟩ := each.1
    by_cases isLast : rest = []
    · subst isLast
      exact ⟨outcome, .last one⟩
    · cases outcome with
      | error fault => exact ⟨_, .fails one⟩
      | ok value =>
        by_cases neutral : value.isTruthy = decide (connective = .conjunction)
        · obtain ⟨outcome, later⟩ := ih isLast each.2
          exact ⟨outcome, .passes one neutral later⟩
        · refine ⟨_, .decides one ?_⟩
          cases connective <;> simpa using neutral

/-- Every predicate without absent parts has an outcome. -/
theorem Settled.exists_yields (settled : tree.Settled) : ∃ outcome, tree.Yields outcome := by
  induction settled with
  | integer value => exact ⟨_, .integer value⟩
  | text value => exact ⟨_, .text value⟩
  | truth => exact ⟨_, .truth⟩
  | list _ each =>
    obtain ⟨_, yields⟩ := exists_yieldsAll each
    exact ⟨_, .list yields⟩
  | tuple _ each =>
    obtain ⟨_, yields⟩ := exists_yieldsAll each
    exact ⟨_, .tuple yields⟩
  | @arithmetic operator _ _ among _ _ left right =>
    obtain ⟨_, left⟩ := left
    obtain ⟨_, right⟩ := right
    have means : ∃ meaning, operator.Means meaning := by
      rcases List.mem_cons.mp among with rfl | among
      · exact ⟨_, .add⟩
      rcases List.mem_cons.mp among with rfl | among
      · exact ⟨_, .subtract⟩
      · rw [List.mem_singleton.mp among]
        exact ⟨_, .multiply⟩
    obtain ⟨_, means⟩ := means
    exact ⟨_, .arithmetic means left right⟩
  | @comparison operator _ _ among _ _ left right =>
    obtain ⟨_, left⟩ := left
    obtain ⟨_, right⟩ := right
    have means : ∃ meaning, operator.Means meaning := by
      cases operator with
      | less => exact ⟨_, .less⟩
      | lessEqual => exact ⟨_, .lessEqual⟩
      | greater => exact ⟨_, .greater⟩
      | greaterEqual => exact ⟨_, .greaterEqual⟩
      | equal => exact ⟨_, .equal⟩
      | unequal => exact ⟨_, .unequal⟩
      | member => exact ⟨_, .member⟩
      | nonMember => exact ⟨_, .nonMember⟩
      | identical => exact absurd (by simp) among
      | distinct => exact absurd (by simp) among
    obtain ⟨_, means⟩ := means
    exact ⟨_, .comparison means left right⟩
  | negation _ operand =>
    obtain ⟨_, operand⟩ := operand
    exact ⟨_, .negation operand⟩
  | length _ operand =>
    obtain ⟨_, operand⟩ := operand
    exact ⟨_, .length operand⟩
  | chain nonempty _ each =>
    obtain ⟨_, found⟩ := exists_yieldsFirst _ nonempty each
    exact ⟨_, .chain found⟩

/-- The evaluator gives a predicate without absent parts the outcome of the reference semantics, be
it a value or a fault, and no other. -/
theorem evaluateText_eq_iff_yields {source : String} {tree : Expr}
    (parsed : parse source = .ok tree) (settled : tree.Settled) (outcome : Except Fault Value) :
    evaluateText source = outcome ↔ tree.Yields outcome := by
  rw [evaluateText, parsed, ok_bind]
  constructor
  · rintro rfl
    obtain ⟨outcome, yields⟩ := settled.exists_yields
    rw [yields.evaluate_eq.1]
    exact yields
  · intro yields
    exact yields.evaluate_eq.1

def memberCheck : Expr :=
  .connect .disjunction
    [.compare (.call (.name "len" .load) [.text "ab"] []) [.equal] [.number (.int 3)],
      .compare (.text "a") [.member] [.list [.text "a", .text "b"] .load],
      .compare (.number (.int 1)) [.less] [.text "x"]]

/-- The fault of the last operand does not surface, since the operand before it decides. -/
theorem memberCheck_yields :
    ∃ tree, parse "len('ab') == 3 or 'a' in ['a', 'b'] or 1 < 'x'" = .ok tree ∧ tree.Settled ∧
      tree.Yields (.ok (.bool true)) := by
  have parsed : parse "len('ab') == 3 or 'a' in ['a', 'b'] or 1 < 'x'" = .ok memberCheck :=
    parse_of_render? (Bare.readable (by decide)) (by decide) rfl
  have settled : memberCheck.Settled := by
    refine .chain (by simp) ?_
    simp only [List.forall_mem_cons]
    exact ⟨.comparison (by decide) (.length (.text _)) (.integer _),
      .comparison (by decide) (.text _) (.list (by simp [Settled.text])),
      .comparison (by decide) (.integer _) (.text _), by simp⟩
  refine ⟨_, parsed, settled, (evaluateText_eq_iff_yields parsed settled _).mp ?_⟩
  rw [evaluateText, parsed]
  rfl

/-! ## Chains with absent operands -/

/-- Where the operands of a chain have values so has the chain.  A disjunction is true exactly when
some operand is.  A conjunction is true exactly when its last operand is and every other one is true
or absent. -/
theorem chain_truthy_iff {operands : List Expr} (defined : ∀ operand ∈ operands, operand.Defined) :
    (∀ source, parse source = .ok (.connect .disjunction operands) →
      ∃ value, evaluateText source = .ok value ∧
        (value.isTruthy = true ↔ ∃ operand ∈ operands, operand.Holds)) ∧
    ∀ source, parse source = .ok (.connect .conjunction operands) →
      ∃ value, evaluateText source = .ok value ∧
        (value.isTruthy = true ↔ (∀ operand ∈ operands, operand.Absent ∨ operand.Holds) ∧
          ∃ last ∈ operands.getLast?, last.Holds) := by
  constructor
  · intro source parsed
    obtain ⟨value, evaluated⟩ := defined_of_parts (splits_of_parse parsed) defined
    rw [evaluateText, parsed, ok_bind]
    exact ⟨value, evaluated, by rw [← holds_iff evaluated, holds_disjunction_iff defined]⟩
  · intro source parsed
    have nonempty : operands ≠ [] := splits_of_parse parsed
    obtain ⟨value, evaluated⟩ := defined_of_parts (splits_of_parse parsed) defined
    rw [evaluateText, parsed, ok_bind]
    exact ⟨value, evaluated, by rw [← holds_iff evaluated, holds_conjunction_iff nonempty defined]⟩

/-- A name without a value, `False` and a true comparison. -/
def withAbsent : List Expr :=
  [.name "open" .load, .name "False" .load,
    .compare (.number (.int 2)) [.greater] [.number (.int 1)]]

theorem defined_withAbsent : ∀ operand ∈ withAbsent, operand.Defined := by
  simp only [withAbsent, List.forall_mem_cons]
  exact ⟨⟨_, rfl⟩, ⟨_, rfl⟩, ⟨_, rfl⟩, by simp⟩

theorem withAbsent_truthy_iff :
    (∀ operand ∈ withAbsent, operand.Defined) ∧
      parse "open or False or 2 > 1" = .ok (.connect .disjunction withAbsent) ∧
      ∃ value, evaluateText "open or False or 2 > 1" = .ok value ∧
        (value.isTruthy = true ↔ ∃ operand ∈ withAbsent, operand.Holds) := by
  have parsed : parse "open or False or 2 > 1" = .ok (.connect .disjunction withAbsent) :=
    parse_of_render? (Bare.readable (by decide)) (by decide) rfl
  exact ⟨defined_withAbsent, parsed, (chain_truthy_iff defined_withAbsent).1 _ parsed⟩

/-- A conjunction is true although two of its operands are not. -/
theorem conjunction_forgets_absent :
    parse "open and False and 2 > 1" = .ok (.connect .conjunction withAbsent) ∧
      (∀ operand ∈ withAbsent, operand.Defined) ∧ (¬∀ operand ∈ withAbsent, operand.Holds) ∧
      ∃ value, evaluateText "open and False and 2 > 1" = .ok value ∧ value.isTruthy = true := by
  have parsed : parse "open and False and 2 > 1" = .ok (.connect .conjunction withAbsent) :=
    parse_of_render? (Bare.readable (by decide)) (by decide) rfl
  refine ⟨parsed, defined_withAbsent, ?_, .bool true, ?_, rfl⟩
  · intro allHold
    have absent : Absent (.name "open" .load) := rfl
    exact absent.not_holds (allHold _ List.mem_cons_self)
  · rw [evaluateText, parsed]
    rfl

end Expr

end ApiDescription
