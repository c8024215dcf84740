import ApiDescription.Expression.Evaluator
import ApiDescription.Expression.Similarity
import ApiDescription.Proofs.NumberLiterals
import ApiDescription.Proofs.Outcome
import ApiDescription.Proofs.RoundTrip

/-!
# Splitting predicates

A list of predicates is compared after its and/or chains have been split into their operands.  The
grammar makes no chain without operands, so only the empty list splits into nothing.

A list stands for the conjunction of its members.  Whatever has only true parts is true, but not the
other way round: a disjunction is split as well, although one true operand makes it true, and the
value of a conjunction passes over absent operands before its last one.  These are the only two ways
in which splitting a list changes what it says.
-/

namespace ApiDescription

open Outcome List

/-! ## Every parsed predicate has a part -/

def Expr.Splits (tree : Expr) : Prop :=
  tree.parts ≠ []

namespace Expr

variable {tree : Expr} {source : String} {trees : List Expr}

theorem splits_of_parse (parsed : parse source = .ok tree) : tree.Splits := by
  have wellMade := sound_of_parse parsed tree .self
  cases tree with
  | connect connective operands => exact wellMade.2 connective rfl
  | _ => simp [Splits, parts]

def Parsed (trees : List Expr) : Prop :=
  ∀ tree ∈ trees, ∃ source, parse source = .ok tree

variable {sources : List String} {value : Value} {operands : List Expr}

theorem parsed_of_mapM (parsed : sources.mapM parse = .ok trees) : Parsed trees := by
  intro tree member
  obtain ⟨source, -, parsed⟩ := exists_of_mem_mapM parsed member
  exact ⟨source, parsed⟩

theorem Parsed.splits (parsed : Parsed trees) : ∀ tree ∈ trees, tree.Splits := by
  intro tree member
  obtain ⟨source, parsed⟩ := parsed tree member
  exact splits_of_parse parsed

/-! ## The truth of a chain -/

def Holds (tree : Expr) : Prop :=
  ∃ value, tree.evaluate = .ok value ∧ value.isTruthy = true

/-- A tree without a value to speak of. -/
def Absent (tree : Expr) : Prop :=
  tree.evaluate = .ok .none

def Defined (tree : Expr) : Prop :=
  ∃ value, tree.evaluate = .ok value

theorem holds_iff (evaluated : tree.evaluate = .ok value) : tree.Holds ↔ value.isTruthy = true := by
  simp [Holds, evaluated]

theorem absent_iff (evaluated : tree.evaluate = .ok value) : tree.Absent ↔ value = .none := by
  simp [Absent, evaluated]

theorem Absent.not_holds (absent : tree.Absent) : ¬tree.Holds := by
  rw [holds_iff absent]
  simp [Value.isTruthy]

/-- A result that leaves a chain open: the next operand's value takes its place. -/
def Open (connective : Connective) (result : Value) : Prop :=
  result = .none ∨ result.isTruthy = decide (connective = .conjunction)

section Chains

variable {connective : Connective} {result value : Value} {operand : Expr}
  {operands rest : List Expr}

theorem evaluateOperands_of_open (isOpen : Open connective result) :
    evaluateOperands connective result (operand :: rest) =
      operand.evaluate >>= fun value => evaluateOperands connective value rest := by
  by_cases isNone : result = .none
  · subst isNone
    rw [evaluateOperands]
  · rw [evaluateOperands, if_pos (isOpen.resolve_left isNone)]
    exact isNone

theorem evaluateOperands_of_decided (decided : ¬Open connective result) :
    evaluateOperands connective result operands = .ok result := by
  induction operands with
  | nil => rfl
  | cons operand rest ih =>
    rw [Open, not_or] at decided
    rw [evaluateOperands, if_neg decided.2, ih]
    exact decided.1

theorem evaluateOperands_disjunction (result : Value)
    (defined : ∀ operand ∈ operands, operand.Defined) :
    ∃ value, evaluateOperands .disjunction result operands = .ok value ∧
      (value.isTruthy = true ↔ result.isTruthy = true ∨ ∃ operand ∈ operands, operand.Holds) := by
  induction operands generalizing result with
  | nil => exact ⟨result, rfl, by simp⟩
  | cons operand rest ih =>
    rw [forall_mem_cons] at defined
    obtain ⟨value, evaluated⟩ := defined.1
    by_cases isOpen : Open .disjunction result
    · have untrue : result.isTruthy = false := by
        rcases isOpen with rfl | untrue
        · rfl
        · simpa using untrue
      obtain ⟨final, found, truth⟩ := ih value defined.2
      refine ⟨final, by rw [evaluateOperands_of_open isOpen, evaluated, ok_bind, found], ?_⟩
      simp [truth, untrue, holds_iff evaluated]
    · have isTrue : result.isTruthy = true := by
        rw [Open, not_or] at isOpen
        simpa using isOpen.2
      exact ⟨result, evaluateOperands_of_decided isOpen, by simp [isTrue]⟩

theorem evaluateOperands_conjunction (result : Value) (nonempty : operands ≠ [])
    (defined : ∀ operand ∈ operands, operand.Defined) :
    ∃ value, evaluateOperands .conjunction result operands = .ok value ∧
      (value.isTruthy = true ↔ Open .conjunction result ∧
        (∀ operand ∈ operands, operand.Absent ∨ operand.Holds) ∧
        ∃ last ∈ operands.getLast?, last.Holds) := by
  induction operands generalizing result with
  | nil => exact absurd rfl nonempty
  | cons operand rest ih =>
    rw [forall_mem_cons] at defined
    obtain ⟨value, evaluated⟩ := defined.1
    by_cases isOpen : Open .conjunction result
    · rw [evaluateOperands_of_open isOpen, evaluated, ok_bind, forall_mem_cons]
      cases rest with
      | nil =>
        refine ⟨value, rfl, ?_⟩
        rw [← holds_iff evaluated]
        simpa [isOpen] using Or.inr
      | cons next others =>
        have openValue : Open .conjunction value ↔ operand.Absent ∨ operand.Holds := by
          simp [Open, absent_iff evaluated, holds_iff evaluated]
        obtain ⟨final, found, truth⟩ :=
          ih value (cons_ne_nil _ _) defined.2
        refine ⟨final, found, ?_⟩
        rw [truth, openValue, getLast?_cons_cons]
        simp [isOpen, and_assoc]
    · refine ⟨result, evaluateOperands_of_decided isOpen, ?_⟩
      have untrue : result.isTruthy = false := by
        rw [Open, not_or] at isOpen
        simpa using isOpen.2
      simp [isOpen, untrue]

end Chains

theorem defined_of_parts (splits : tree.Splits) (defined : ∀ part ∈ tree.parts, part.Defined) :
    tree.Defined := by
  cases tree with
  | connect connective operands =>
    cases connective with
    | conjunction =>
      obtain ⟨value, found, -⟩ := evaluateOperands_conjunction .none splits defined
      exact ⟨value, found⟩
    | disjunction =>
      obtain ⟨value, found, -⟩ := evaluateOperands_disjunction .none defined
      exact ⟨value, found⟩
  | _ => exact defined _ (mem_singleton.mpr rfl)

theorem holds_disjunction_iff (defined : ∀ operand ∈ operands, operand.Defined) :
    (connect .disjunction operands).Holds ↔ ∃ operand ∈ operands, operand.Holds := by
  obtain ⟨value, found, truth⟩ := evaluateOperands_disjunction .none defined
  rw [holds_iff (by rw [evaluate, found]), truth]
  simp [Value.isTruthy]

theorem holds_conjunction_iff (nonempty : operands ≠ [])
    (defined : ∀ operand ∈ operands, operand.Defined) :
    (connect .conjunction operands).Holds ↔
      (∀ operand ∈ operands, operand.Absent ∨ operand.Holds) ∧
        ∃ last ∈ operands.getLast?, last.Holds := by
  obtain ⟨value, found, truth⟩ := evaluateOperands_conjunction .none nonempty defined
  rw [holds_iff (by rw [evaluate, found]), truth]
  simp [Open]

/-! ## The truth of the parts -/

/-- A tree that says of its parts that they are all true: not a disjunction with an operand that is
not, nor a conjunction with an absent operand. -/
def Separable : Expr → Prop
  | connect .disjunction operands => ∀ operand ∈ operands, operand.Holds
  | connect .conjunction operands => ∀ operand ∈ operands, ¬operand.Absent
  | _ => True

/-- The parts of a tree are true exactly when the tree is and says so of all of them. -/
theorem forall_parts_hold_iff (splits : tree.Splits) (defined : ∀ part ∈ tree.parts, part.Defined) :
    (∀ part ∈ tree.parts, part.Holds) ↔ tree.Holds ∧ tree.Separable := by
  cases tree with
  | connect connective operands =>
    rw [Splits, parts] at splits
    rw [parts] at defined ⊢
    cases connective with
    | disjunction =>
      rw [holds_disjunction_iff defined, Separable]
      constructor
      · intro allHold
        obtain ⟨first, isFirst⟩ := exists_mem_of_ne_nil _ splits
        exact ⟨⟨first, isFirst, allHold first isFirst⟩, allHold⟩
      · exact And.right
    | conjunction =>
      rw [holds_conjunction_iff splits defined, Separable]
      constructor
      · intro allHold
        obtain ⟨last, isLast⟩ := Option.ne_none_iff_exists'.mp (getLast?_eq_none_iff.not.mpr splits)
        refine ⟨⟨fun operand member => .inr (allHold operand member), last, isLast, ?_⟩, ?_⟩
        · exact allHold last (mem_of_getLast? isLast)
        · intro operand member absent
          exact absent.not_holds (allHold operand member)
      · rintro ⟨⟨trueOrAbsent, -⟩, present⟩ operand member
        exact (trueOrAbsent operand member).resolve_left (present operand member)
  | _ => simp [parts, Separable]

theorem forall_evaluateText_iff (property : Except Fault Value → Prop)
    (parsed : sources.mapM parse = .ok trees) :
    (∀ source ∈ sources, property (evaluateText source)) ↔
      ∀ tree ∈ trees, property tree.evaluate := by
  have related := mapM_eq_ok.mp parsed
  clear parsed
  induction related with
  | nil => simp
  | cons parsed _ ih =>
    rw [forall_mem_cons, forall_mem_cons, evaluateText, parsed, ok_bind]
    exact and_congr_right fun _ => ih

/-- Where the parts of a list of predicates have values, so have the predicates, and the parts are
all true exactly when the predicates are, no disjunction has an operand that is not true and no
conjunction has an absent operand. -/
theorem parts_hold_iff {sources : List String} {trees : List Expr}
    (parsed : sources.mapM parse = .ok trees)
    (defined : ∀ part ∈ trees.flatMap parts, part.Defined) :
    (∀ source ∈ sources, ∃ value, evaluateText source = .ok value) ∧
    ((∀ part ∈ trees.flatMap parts, part.Holds) ↔
      (∀ source ∈ sources, ∃ value, evaluateText source = .ok value ∧ value.isTruthy = true) ∧
        ∀ tree ∈ trees, tree.Separable) := by
  have splits := (parsed_of_mapM parsed).splits
  rw [List.forall_mem_flatMap] at defined
  constructor
  · rw [forall_evaluateText_iff (fun outcome => ∃ value, outcome = .ok value) parsed]
    intro tree member
    exact defined_of_parts (splits tree member) (defined tree member)
  · rw [forall_evaluateText_iff
      (fun outcome => ∃ value, outcome = .ok value ∧ value.isTruthy = true) parsed,
      List.forall_mem_flatMap, ← forall₂_and]
    refine forall₂_congr fun tree member => ?_
    exact forall_parts_hold_iff (splits tree member) (defined tree member)

/-- Three predicates, a chain of either kind among them, and the parts that they are true by. -/
theorem stock_parts_hold :
    ∃ trees, ["len('ab') == 2 and 3 > 2", "1 == 1 or 2 > 1", "not 2 > 3"].mapM parse = .ok trees ∧
      (trees.flatMap parts).length = 5 ∧ ∀ part ∈ trees.flatMap parts, part.Holds := by
  have length : parse "len('ab') == 2 and 3 > 2" = .ok (.connect .conjunction
      [.compare (.call (.name "len" .load) [.text "ab"] []) [.equal] [.number (.int 2)],
        .compare (.number (.int 3)) [.greater] [.number (.int 2)]]) :=
    parse_of_render? (Bare.readable (by decide)) (by decide) rfl
  have either : parse "1 == 1 or 2 > 1" = .ok (.connect .disjunction
      [.compare (.number (.int 1)) [.equal] [.number (.int 1)],
        .compare (.number (.int 2)) [.greater] [.number (.int 1)]]) :=
    parse_of_render? (Bare.readable (by decide)) (by decide) rfl
  have negated : parse "not 2 > 3" = .ok (.unary .negation
      (.compare (.number (.int 2)) [.greater] [.number (.int 3)])) :=
    parse_of_render? (Bare.readable (by decide)) (by decide) rfl
  have parsed := mapM_eq_ok.mpr (.cons length (.cons either (.cons negated .nil)))
  refine ⟨_, parsed, rfl, ?_⟩
  refine (parts_hold_iff parsed ?defined).2.mpr ⟨?hold, ?separable⟩
  case defined =>
    simp only [List.flatMap_cons, List.flatMap_nil, parts, List.cons_append, List.nil_append,
      List.append_nil, List.forall_mem_cons]
    exact ⟨⟨_, rfl⟩, ⟨_, rfl⟩, ⟨_, rfl⟩, ⟨_, rfl⟩, ⟨_, rfl⟩, by simp⟩
  case hold =>
    simp only [List.forall_mem_cons, evaluateText, length, either, negated, ok_bind]
    exact ⟨⟨_, rfl, rfl⟩, ⟨_, rfl, rfl⟩, ⟨_, rfl, rfl⟩, by simp⟩
  case separable =>
    simp only [List.forall_mem_cons, Separable]
    refine ⟨⟨?_, ?_, by simp⟩, ⟨⟨_, rfl, rfl⟩, ⟨_, rfl, rfl⟩, by simp⟩, trivial, by simp⟩
    · rw [absent_iff rfl]
      simp
    · rw [absent_iff rfl]
      simp

/-- A list of predicates whose parts have values but say something else than the predicates. -/
def Misread (sources : List String) : Prop :=
  ∃ trees, sources.mapM parse = .ok trees ∧ (∀ part ∈ trees.flatMap parts, part.Defined) ∧
    ¬((∀ source ∈ sources, ∃ value, evaluateText source = .ok value ∧ value.isTruthy = true) ↔
      ∀ part ∈ trees.flatMap parts, part.Holds)

theorem misread_of_part {part : Expr} (parsed : parse source = .ok tree)
    (defined : ∀ part ∈ tree.parts, part.Defined) (holds : tree.Holds) (isPart : part ∈ tree.parts)
    (fails : ¬part.Holds) : Misread [source] := by
  refine ⟨[tree], mapM_eq_ok.mpr (.cons parsed .nil), ?_, ?_⟩
  · rw [flatMap_singleton]
    exact defined
  · rw [forall_mem_singleton, flatMap_singleton, evaluateText, parsed, ok_bind]
    intro same
    exact fails (same.mp holds part isPart)

theorem parse_of_tokens (tokens : List Token) (read : Lexer.tokens source = some tokens)
    (found : ofTokens? (source.length + 2) tokens = some tree) : parse source = .ok tree := by
  rw [parse, read, Option.bind_some, found]

/-- A true disjunction with an operand that is not true, and a true conjunction with an absent
operand. -/
theorem chains_misread : Misread ["1 == 1 or 1 == 2"] ∧ Misread ["7 // 2 and 2 > 1"] := by
  have either : parse "1 == 1 or 1 == 2" = .ok (.connect .disjunction
      [.compare (.number (.int 1)) [.equal] [.number (.int 1)],
        .compare (.number (.int 1)) [.equal] [.number (.int 2)]]) :=
    parse_of_render? (Bare.readable (by decide)) (by decide) rfl
  have both : parse "7 // 2 and 2 > 1" = .ok (.connect .conjunction
      [.binary .floorDivide (.number (.int 7)) (.number (.int 2)),
        .compare (.number (.int 2)) [.greater] [.number (.int 1)]]) :=
    parse_of_tokens [.number (.int 7), .mark "//", .number (.int 2), .mark "and",
      .number (.int 2), .mark ">", .number (.int 1)] rfl rfl
  constructor
  · refine misread_of_part either ?_ ⟨_, rfl, rfl⟩
      (List.mem_cons_of_mem _ (List.mem_singleton_self _)) ?_
    · rw [parts, List.forall_mem_cons, List.forall_mem_singleton]
      exact ⟨⟨_, rfl⟩, ⟨_, rfl⟩⟩
    · rw [holds_iff rfl]
      decide
  · refine misread_of_part both ?_ ⟨_, rfl, rfl⟩ List.mem_cons_self (Absent.not_holds rfl)
    rw [parts, List.forall_mem_cons, List.forall_mem_singleton]
    exact ⟨⟨_, rfl⟩, ⟨_, rfl⟩⟩

end Expr

end ApiDescription
