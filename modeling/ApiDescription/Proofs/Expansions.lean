import ApiDescription.Proofs.Phrasing
import ApiDescription.Proofs.ShortCircuit

/-!
# Derived forms and their expansions

A chain of comparisons says that all its links hold, an implication that its premise fails or its
conclusion holds, and a quantifier that its body holds with every item, or with some item, in the
place of the variable.

The evaluator falls short of these expansions.  Of a chain it looks at the first link only, an
implication it takes for a conjunction, and the variable of a quantifier remains a name without a
value.  The main statement says how each form is related to its expansion.
-/

namespace ApiDescription

open Outcome

theorem Value.isTruthy_bool (truth : Bool) : (Value.bool truth).isTruthy = truth :=
  rfl

theorem Comparison.apply_ne_none (operator : Comparison) (left right : Value) :
    operator.apply left right ≠ .ok .none := by
  cases operator with
  | equal | unequal | identical => simp [Comparison.apply]
  | _ => exact bind_ne_ok fun _ => by simp

namespace Expr

variable {first left right : Expr} {operands items : List Expr} {result : Value}

def links (first : Expr) : List Comparison → List Expr → List Expr
  | operator :: operators, operand :: operands =>
    compare first [operator] [operand] :: links operand operators operands
  | _, _ => []

def implication (left right : Expr) : Expr :=
  .call (.name "implies" .load) [left, right] []

/-- `forall(label, [items], body)`, or `exists` instead. -/
def quantified (quantifier label : String) (items : List Expr) (body : Expr) : Expr :=
  .call (.name quantifier .load) [.name label .load, .list items .load, body] []

/-! ## Chains of comparisons -/

theorem not_absent_of_mem_links {operators : List Comparison} {link : Expr}
    (isLink : link ∈ links first operators operands) : ¬link.Absent := by
  fun_induction links first operators operands with
  | case1 first operator operators operand operands ih =>
    rcases List.mem_cons.mp isLink with rfl | later
    · exact bind_ne_ok fun _ => bind_ne_ok fun _ => operator.apply_ne_none _ _
    · exact ih later
  | case2 => cases isLink

/-- With a true result so far a conjunction of present operands is true exactly when all of them
are, whether or not the operands after a false one have values. -/
theorem evaluateOperands_truthy_iff (isTrue : result.isTruthy = true)
    (present : ∀ operand ∈ operands, ¬operand.Absent) :
    (∃ value, evaluateOperands .conjunction result operands = .ok value ∧ value.isTruthy = true) ↔
      ∀ operand ∈ operands, operand.Holds := by
  induction operands generalizing result with
  | nil => simpa [evaluateOperands] using isTrue
  | cons operand rest ih =>
    rw [List.forall_mem_cons] at present ⊢
    have isOpen : Open .conjunction result := .inr (by simpa using isTrue)
    rw [evaluateOperands_of_open isOpen]
    cases evaluated : operand.evaluate with
    | error fault => simp [Holds, evaluated]
    | ok value =>
      rw [ok_bind, holds_iff evaluated]
      by_cases holds : value.isTruthy = true
      · simp [ih holds present.2, holds]
      · have decided : ¬Open .conjunction value := by
          rw [Open, not_or]
          exact ⟨(absent_iff evaluated).not.mp present.1, by simpa using holds⟩
        simp [evaluateOperands_of_decided decided, holds]

theorem holds_conjunction_iff_of_present (nonempty : operands ≠ [])
    (present : ∀ operand ∈ operands, ¬operand.Absent) :
    (connect .conjunction operands).Holds ↔ ∀ operand ∈ operands, operand.Holds := by
  have truth : (Value.bool true).isTruthy = true := rfl
  rw [← evaluateOperands_truthy_iff truth present, Holds, evaluate]
  cases operands with
  | nil => exact absurd rfl nonempty
  | cons operand rest =>
    rw [evaluateOperands_of_open (.inl rfl), evaluateOperands_of_open (.inr rfl)]

theorem holds_links_iff {operator : Comparison} {operators : List Comparison} {operand : Expr} :
    (connect .conjunction (links first (operator :: operators) (operand :: operands))).Holds ↔
      (compare first (operator :: operators) (operand :: operands)).Holds ∧
        ∀ link ∈ links operand operators operands, link.Holds := by
  have sameValue : (compare first (operator :: operators) (operand :: operands)).evaluate =
      (compare first [operator] [operand]).evaluate := by rw [evaluate, evaluate]
  rw [holds_conjunction_iff_of_present (by simp [links]) fun _ => not_absent_of_mem_links, links,
    List.forall_mem_cons, Holds, ← sameValue]
  rfl

/-! ## Implications -/

theorem holds_implication_iff : (implication left right).Holds ↔ left.Holds ∧ right.Holds := by
  rw [Holds, implication, evaluate]
  cases isLeft : left.evaluate with
  | error fault => simp [Holds, isLeft]
  | ok value =>
    cases isRight : right.evaluate with
    | error fault => simp [Holds, isRight]
    | ok other => simp [holds_iff isLeft, holds_iff isRight, isRight, Value.isTruthy_bool]

theorem holds_negation_or_iff (holds : left.Holds) :
    (connect .disjunction [unary .negation left, right]).Holds ↔ right.Holds := by
  obtain ⟨value, isLeft, isTrue⟩ := holds
  have negated : (unary .negation left).evaluate = .ok (.bool false) := by
    simp [evaluate, isLeft, isTrue]
  have isOpen : Open .disjunction (.bool false) := .inr rfl
  have sameValue :
      (connect .disjunction [unary .negation left, right]).evaluate = right.evaluate := by
    rw [evaluate, evaluateOperands_of_open (.inl rfl), negated, ok_bind,
      evaluateOperands_of_open isOpen]
    exact bind_pure _
  rw [Holds, sameValue]
  rfl

/-! ## Quantifiers -/

theorem exists_evaluateAll (defined : ∀ item ∈ items, item.Defined) :
    ∃ values, evaluateAll items = .ok values ∧ values.length = items.length := by
  induction items with
  | nil => exact ⟨[], rfl, rfl⟩
  | cons item items ih =>
    rw [List.forall_mem_cons] at defined
    obtain ⟨value, evaluated⟩ := defined.1
    obtain ⟨values, found, sameLength⟩ := ih defined.2
    exact ⟨value :: values, by simp [evaluateAll, evaluated, found], by simp [sameLength]⟩

theorem evaluate_quantified {quantifier : String} (label : String) (body : Expr)
    (known : quantifier = "forall" ∨ quantifier = "exists")
    (defined : ∀ item ∈ items, item.Defined) :
    (quantified quantifier label items body).evaluate =
      if items = [] then .ok (.bool (quantifier = "forall"))
      else do return .bool (← body.evaluate).isTruthy := by
  obtain ⟨values, found, sameLength⟩ := exists_evaluateAll defined
  have notLength : quantifier ≠ "len" := by
    rintro rfl
    simp at known
  have isList : (list items .load).evaluate = .ok (.list values) := by
    rw [evaluate, found]
    rfl
  rw [quantified, evaluate, if_neg notLength, if_pos known]
  simp only [isList, pure_eq_ok, ok_bind, Value.size, sameLength, List.length_eq_zero_iff]

theorem holds_quantified_iff (label : String) (body : Expr)
    (defined : ∀ item ∈ items, item.Defined) :
    ((quantified "forall" label items body).Holds ↔ ∀ item ∈ items, body.Holds) ∧
      ((quantified "exists" label items body).Holds ↔ ∃ item ∈ items, body.Holds) := by
  have evaluated {quantifier : String} (known : quantifier = "forall" ∨ quantifier = "exists") :=
    evaluate_quantified label body known defined
  cases items with
  | nil => simp [Holds, evaluated, Value.isTruthy_bool]
  | cons item items =>
    have once {quantifier : String} (known : quantifier = "forall" ∨ quantifier = "exists") :
        (quantified quantifier label (item :: items) body).Holds ↔ body.Holds := by
      rw [Holds, evaluated known, if_neg (List.cons_ne_nil _ _)]
      cases isBody : body.evaluate with
      | error fault => simp [Holds, isBody]
      | ok value => simp [holds_iff isBody, Value.isTruthy_bool]
    rw [once (.inl rfl), once (.inr rfl)]
    constructor
    · exact ⟨fun holds _ _ => holds, fun each => each item List.mem_cons_self⟩
    · refine ⟨fun holds => ⟨item, List.mem_cons_self, holds⟩, ?_⟩
      rintro ⟨_, _, holds⟩
      exact holds

/-! ## All derived forms -/

/-- How the derived forms are related to their expansions.  The links of a chain all hold exactly
when the chain does and so do the links after the first.  An implication holds exactly when its
expansion and its premise do.  A quantifier over items with values is true exactly when its body is
so, once for each item, without the item in it; that is the expansion if the body does not mention
the variable. -/
theorem derived_forms_hold_iff (first operand : Expr) (operator : Comparison)
    (operators : List Comparison) (operands : List Expr) (left right : Expr) (label : String)
    (items : List Expr) (body : Expr) :
    ((connect .conjunction (links first (operator :: operators) (operand :: operands))).Holds ↔
      (compare first (operator :: operators) (operand :: operands)).Holds ∧
        ∀ link ∈ links operand operators operands, link.Holds) ∧
    ((implication left right).Holds ↔
      left.Holds ∧ (connect .disjunction [unary .negation left, right]).Holds) ∧
    ((∀ item ∈ items, item.Defined) →
      ((quantified "forall" label items body).Holds ↔ ∀ item ∈ items, body.Holds) ∧
      ((quantified "exists" label items body).Holds ↔ ∃ item ∈ items, body.Holds) ∧
      (mentions label body = false →
        ((quantified "forall" label items body).Holds ↔ ∀ item ∈ items,
          (subst label item body).Holds) ∧
        ((quantified "exists" label items body).Holds ↔ ∃ item ∈ items,
          (subst label item body).Holds))) := by
  refine ⟨holds_links_iff, ?_, fun defined => ?_⟩
  · rw [holds_implication_iff]
    exact and_congr_right fun holds => (holds_negation_or_iff holds).symm
  · obtain ⟨all, some⟩ := holds_quantified_iff label body defined
    refine ⟨all, some, fun unused => ?_⟩
    simp only [subst_of_not_mentions body unused]
    exact ⟨all, some⟩

/-- All of two items satisfy a predicate that does not mention them. -/
theorem constant_body_holds_iff :
    (∀ item ∈ [number (.int 1), text "b"], item.Defined) ∧
      mentions "x" (compare (number (.int 3)) [.greater] [number (.int 2)]) = false ∧
      ((quantified "forall" "x" [number (.int 1), text "b"]
          (compare (number (.int 3)) [.greater] [number (.int 2)])).Holds ↔
        ∀ item ∈ [number (.int 1), text "b"],
          (subst "x" item (compare (number (.int 3)) [.greater] [number (.int 2)])).Holds) := by
  have defined : ∀ item ∈ [number (.int 1), text "b"], item.Defined := by
    simp only [List.forall_mem_cons]
    exact ⟨⟨_, rfl⟩, ⟨_, rfl⟩, by simp⟩
  obtain ⟨-, -, quantifiers⟩ :=
    derived_forms_hold_iff (number (.int 1)) (number (.int 1)) .less [] []
    (number (.int 1)) (number (.int 1)) "x" [number (.int 1), text "b"]
    (compare (number (.int 3)) [.greater] [number (.int 2)])
  exact ⟨defined, rfl, ((quantifiers defined).2.2 rfl).1⟩

/-- A predicate and what it is short for differ in truth. -/
def Differs (source : String) (expansion : Prop) : Prop :=
  ∃ tree, parse source = .ok tree ∧ ¬(tree.Holds ↔ expansion)

theorem not_holds_of_error {tree : Expr} {fault : Fault} (fails : tree.evaluate = .error fault) :
    ¬tree.Holds := by
  simp [Holds, fails]

/-- A chain whose second link fails, an implication whose premise fails, and two quantifiers over
items that satisfy the body. -/
theorem derived_forms_differ :
    Differs "1 < 2 < 1" (connect .conjunction
      (links (number (.int 1)) [.less, .less] [number (.int 2), number (.int 1)])).Holds ∧
    Differs "implies(1 > 2, 3 > 2)" (connect .disjunction
      [unary .negation (compare (number (.int 1)) [.greater] [number (.int 2)]),
        compare (number (.int 3)) [.greater] [number (.int 2)]]).Holds ∧
    Differs "forall(x, [1, 2], x > 0)" (∀ item ∈ [number (.int 1), number (.int 2)],
      (subst "x" item (compare (name "x" .load) [.greater] [number (.int 0)])).Holds) ∧
    Differs "exists(x, [1, 2], x > 1)" (∃ item ∈ [number (.int 1), number (.int 2)],
      (subst "x" item (compare (name "x" .load) [.greater] [number (.int 1)])).Holds) := by
  have chain : parse "1 < 2 < 1" =
      .ok (compare (number (.int 1)) [.less, .less] [number (.int 2), number (.int 1)]) :=
    parse_of_render? (Bare.readable (by decide)) (by decide) rfl
  have implies : parse "implies(1 > 2, 3 > 2)" =
      .ok (implication (compare (number (.int 1)) [.greater] [number (.int 2)])
        (compare (number (.int 3)) [.greater] [number (.int 2)])) :=
    parse_of_render? (Bare.readable (by decide)) (by decide) rfl
  have all : parse "forall(x, [1, 2], x > 0)" =
      .ok (quantified "forall" "x" [number (.int 1), number (.int 2)]
        (compare (name "x" .load) [.greater] [number (.int 0)])) :=
    parse_of_render? (Bare.readable (by decide)) (by decide) rfl
  have some : parse "exists(x, [1, 2], x > 1)" =
      .ok (quantified "exists" "x" [number (.int 1), number (.int 2)]
        (compare (name "x" .load) [.greater] [number (.int 1)])) :=
    parse_of_render? (Bare.readable (by decide)) (by decide) rfl
  refine ⟨⟨_, chain, fun same => ?_⟩, ⟨_, implies, fun same => ?_⟩, ⟨_, all, fun same => ?_⟩,
    ⟨_, some, fun same => ?_⟩⟩
  · have holds := same.mp ⟨_, rfl, rfl⟩
    rw [holds_links_iff, links, List.forall_mem_cons] at holds
    exact absurd ((holds_iff rfl).mp holds.2.1) (by decide)
  · have holds := same.mpr ⟨_, rfl, rfl⟩
    rw [holds_implication_iff] at holds
    exact absurd ((holds_iff rfl).mp holds.1) (by decide)
  · refine not_holds_of_error rfl (same.mpr ?_)
    simp only [List.forall_mem_cons]
    exact ⟨⟨_, rfl, rfl⟩, ⟨_, rfl, rfl⟩, by simp⟩
  · exact not_holds_of_error rfl
      (same.mpr ⟨_, List.mem_cons_of_mem _ (List.mem_singleton_self _), _, rfl, rfl⟩)

end Expr

end ApiDescription
