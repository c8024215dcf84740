import ApiDescription.Proofs.Matching
import ApiDescription.Proofs.Splitting

/-!
# Values of matching predicates

Predicates that match and have values have the same value, with three exceptions: operands exchanged
around an operator that does not commute, chains of and/or whose operands are no truth values or are
not all matched, and equal numbers of different kinds.

Where operands are exchanged the operations have to commute, down to the bits of doubles: sums,
products and equality do, and an order comparison turns into its opposite.
-/

namespace ApiDescription

open Outcome List

/-! ## Exchanging operands -/

namespace Decimal

open Float.Model UnpackedFloat

theorem unpacked_add_comm (left right : UnpackedFloat) :
    UnpackedFloat.add .binary64 left right = UnpackedFloat.add .binary64 right left := by
  cases left <;> cases right <;> simp only [UnpackedFloat.add, min_comm, Int.add_comm]
  case infinity.infinity | zero.zero => grind

theorem unpacked_mul_comm (left right : UnpackedFloat) :
    UnpackedFloat.mul .binary64 left right = UnpackedFloat.mul .binary64 right left := by
  have signs (first second : Sign) : first * second = second * first := by
    cases first <;> cases second <;> rfl
  cases left <;> cases right <;> simp only [UnpackedFloat.mul, signs, Nat.mul_comm, Int.add_comm]

theorem add_comm (left right : Float) : left + right = right + left :=
  congrArg (fun bits : UnpackedFloat => (⟨Float.Model.pack bits⟩ : Float)) (unpacked_add_comm _ _)

theorem mul_comm (left right : Float) : left * right = right * left :=
  congrArg (fun bits : UnpackedFloat => (⟨Float.Model.pack bits⟩ : Float)) (unpacked_mul_comm _ _)

theorem swap_compare (left right : UnpackedFloat) :
    (left.compare right).map Ordering.swap = right.compare left := by
  rcases left with (_ | _) | _ | _ | (_ | _) <;> rcases right with (_ | _) | _ | _ | (_ | _) <;>
    simp [UnpackedFloat.compare, Ordering.swap_then, ← Std.OrientedOrd.eq_swap] <;> rfl

theorem lt_iff (left right : Float) :
    left < right ↔ left.toModel.unpack.compare right.toModel.unpack = some .lt := by
  change decide ((left.toModel.unpack.compare right.toModel.unpack == some .lt) = true) = true ↔ _
  simp

theorem order_eq_compare (left right : Float) :
    (if left < right then some Ordering.lt else if left == right then some .eq
      else if right < left then some .gt else none) =
        left.toModel.unpack.compare right.toModel.unpack := by
  simp only [lt_iff, beq_eq, UnpackedFloat.beq, ← swap_compare left.toModel.unpack]
  rcases left.toModel.unpack.compare right.toModel.unpack with _ | (_ | _ | _) <;> rfl

end Decimal

/-- Outcomes that are the same wherever both are values. -/
def Outcome.Agree {α : Type} (left right : Except Fault α) : Prop :=
  ∀ value other, left = .ok value → right = .ok other → value = other

namespace Outcome.Agree

variable {α β γ : Type}

theorem refl (outcome : Except Fault α) : Agree outcome outcome := by
  rintro value other rfl ⟨⟩
  rfl

variable {left right : Except Fault α}

theorem of_eq (same : left = right) : Agree left right :=
  same ▸ refl left

theorem bind {next nextRight : α → Except Fault β} (agree : Agree left right)
    (agreeNext : ∀ value, left = .ok value → Agree (next value) (nextRight value)) :
    Agree (left >>= next) (right >>= nextRight) := by
  intro value other succeeded succeededRight
  obtain ⟨first, isFirst, succeeded⟩ := bind_eq_ok.mp succeeded
  obtain ⟨second, isSecond, succeededRight⟩ := bind_eq_ok.mp succeededRight
  cases agree first second isFirst isSecond
  exact agreeNext first isFirst value other succeeded succeededRight

theorem bind_swap {first second first' second' : Except Fault α}
    {next next' : α → α → Except Fault β}
    (agree : Agree first second') (agreeSecond : Agree second first')
    (agreeNext : ∀ value other, first = .ok value → second = .ok other →
      Agree (next value other) (next' other value)) :
    Agree (first >>= fun value => second >>= next value) (first' >>= fun value =>
      second' >>= next' value) := by
  intro value other succeeded succeededRight
  obtain ⟨one, isOne, succeeded⟩ := bind_eq_ok.mp succeeded
  obtain ⟨two, isTwo, succeeded⟩ := bind_eq_ok.mp succeeded
  obtain ⟨two', isTwo', succeededRight⟩ := bind_eq_ok.mp succeededRight
  obtain ⟨one', isOne', succeededRight⟩ := bind_eq_ok.mp succeededRight
  cases agree one one' isOne isOne'
  cases agreeSecond two two' isTwo isTwo'
  exact agreeNext one two isOne isTwo value other succeeded succeededRight

end Outcome.Agree

open Outcome (Agree)

namespace Number

theorem combine_comm {onInts : Int → Int → Except Fault Number}
    {onFloats : Float → Float → Except Fault Number}
    {onComplex : Float × Float → Float × Float → Except Fault Number}
    (ints : ∀ a b, onInts a b = onInts b a) (floats : ∀ a b, onFloats a b = onFloats b a)
    (complexes : ∀ a b, onComplex a b = onComplex b a) (left right : Number) :
    Agree (combine onInts onFloats onComplex left right)
      (combine onInts onFloats onComplex right left) := by
  cases left <;> cases right
  case int.int => exact .of_eq (ints _ _)
  case int.float | float.int | float.float =>
    exact .bind_swap (.refl _) (.refl _) fun _ _ _ _ => .of_eq (floats _ _)
  all_goals exact .bind_swap (.refl _) (.refl _) fun _ _ _ _ => .of_eq (complexes _ _)

theorem add_comm (left right : Number) : Agree (add left right) (add right left) :=
  combine_comm (fun a b => by rw [Int.add_comm]) (fun a b => by rw [Decimal.add_comm])
    (fun a b => by rw [Decimal.add_comm a.1, Decimal.add_comm a.2]) left right

theorem multiply_comm (left right : Number) : Agree (multiply left right) (multiply right left) :=
  combine_comm (fun a b => by rw [Int.mul_comm]) (fun a b => by rw [Decimal.mul_comm])
    (fun a b => by
      simp only [multiplyComplex, Decimal.mul_comm b.1, Decimal.mul_comm b.2]
      rw [Decimal.add_comm (a.1 * b.2)])
    left right

theorem same_comm (left right : Number) : left.same right = right.same left :=
  Bool.eq_iff_iff.mpr (by simp only [same_iff, and_comm])

end Number

namespace Value

theorem orderNumbers_swap (left right : Number) :
    orderNumbers right left = (orderNumbers left right).map (Option.map Ordering.swap) := by
  cases left <;> cases right <;> simp only [orderNumbers, Except.map]
  case int.int a b => simp [← Std.OrientedOrd.eq_swap]
  case float.float a b => simp only [Decimal.order_eq_compare, Decimal.swap_compare]
  case int.float | float.int => split <;> simp

mutual

theorem same_comm (left right : Value) : same left right = same right left := by
  cases left <;> cases right <;> simp only [same]
  case list.list | tuple.tuple => exact sameAll_comm _ _
  case number.number | number.bool | bool.number => exact Number.same_comm _ _
  all_goals grind
termination_by sizeOf left

theorem sameAll_comm (lefts rights : List Value) : sameAll lefts rights = sameAll rights lefts := by
  cases lefts <;> cases rights <;> simp only [sameAll]
  case cons.cons left lefts right rights => rw [same_comm left right, sameAll_comm lefts rights]
termination_by sizeOf lefts

end

/-- The order relation that says the same of the exchanged sides. -/
def Order.turned : Order → Order
  | .less => .greater
  | .lessEqual => .greaterEqual
  | .greater => .less
  | .greaterEqual => .lessEqual

theorem Order.holds_turned (order : Order) (outcome : Ordering) :
    order.turned.holds outcome.swap = order.holds outcome := by
  cases order <;> cases outcome <;> rfl

theorem elim_orderNumbers (order : Order) (left right : Number) :
    (do return (← orderNumbers left right).elim false order.holds) =
      (do return (← orderNumbers right left).elim false order.turned.holds : Except Fault
        Bool) := by
  rw [orderNumbers_swap left right]
  rcases orderNumbers left right with _ | (_ | outcome)
  · rfl
  · rfl
  · simp [Except.map, Order.holds_turned]

theorem orderChars_swap (left right : List Char) :
    orderChars right left = (orderChars left right).swap := by
  induction left generalizing right with
  | nil => cases right <;> rfl
  | cons first rest ih =>
    cases right with
    | nil => rfl
    | cons other others =>
      rw [orderChars, orderChars, ih, Std.OrientedOrd.eq_swap (a := other.toNat)]
      cases compare first.toNat other.toNat <;> rfl

mutual

theorem ordered_turned (order : Order) (left right : Value) :
    ordered order left right = ordered order.turned right left := by
  cases left <;> cases right <;> simp only [ordered]
  case list.list | tuple.tuple => exact orderedAll_turned order _ _
  case text.text left right => rw [orderChars_swap left.toList, Order.holds_turned]
  all_goals exact elim_orderNumbers order _ _
termination_by sizeOf left

theorem orderedAll_turned (order : Order) (lefts rights : List Value) :
    orderedAll order lefts rights = orderedAll order.turned rights lefts := by
  cases lefts <;> cases rights <;> simp only [orderedAll]
  case cons.cons left lefts right rights =>
    rw [same_comm left right, ordered_turned order left right, orderedAll_turned order lefts rights]
  all_goals cases order <;> rfl
termination_by sizeOf lefts

end

theorem onNumbers_comm {operation : Number → Number → Except Fault Number}
    (comm : ∀ left right, Agree (operation left right) (operation right left))
    (left right : Value) :
    Agree (onNumbers operation left right) (onNumbers operation right left) := by
  unfold onNumbers
  cases left.asNumber? <;> cases right.asNumber?
  case some.some => exact (comm _ _).bind fun _ _ => .refl _
  all_goals exact .refl _

theorem add_comm {left : Value} (noSequence : left.isSequence = false) (right : Value) :
    Agree (add left right) (add right left) := by
  have onLeft : add left right = onNumbers Number.add left right := by
    cases left <;> first | rfl | cases noSequence
  have onRight : add right left = onNumbers Number.add right left := by
    cases left <;> cases right <;> first | rfl | cases noSequence
  rw [onLeft, onRight]
  exact onNumbers_comm Number.add_comm left right

theorem multiply_comm (left right : Value) : Agree (multiply left right) (multiply right left) := by
  have exclusive (value : Value) (isSequence : value.isSequence = true) :
      value.asInt? = Option.none := by
    cases value <;> first | rfl | cases isSequence
  have numbers := onNumbers_comm Number.multiply_comm left right
  unfold multiply
  cases sequence : left.isSequence <;> cases sequenceRight : right.isSequence
  · exact numbers
  · rw [exclusive right sequenceRight]
    cases left.asInt? with
    | none => exact numbers
    | some count => exact .refl _
  · rw [exclusive left sequence]
    cases right.asInt? with
    | none => exact numbers
    | some count => exact .refl _
  · rw [exclusive left sequence, exclusive right sequenceRight]
    exact numbers

end Value

namespace Expr

open Matching

variable {left right : Expr} {operands operands' items items' : List Expr} {connective : Connective}

/-- Trees that have the same value wherever both have one. -/
def ValuesAgree (left right : Expr) : Prop :=
  Agree left.evaluate right.evaluate

def IsTruth (tree : Expr) : Prop :=
  ∀ value, tree.evaluate = .ok value → ∃ truth, value = .bool truth

variable {operator other : Comparison} {value : Value}

theorem eq_of_straight (straight : sides operator other = .straight) : operator = other := by
  cases operator <;> cases other <;> cases straight <;> rfl

theorem apply_crossed (crossed : sides operator other = .crossed) (first second : Value) :
    operator.apply first second = other.apply second first := by
  cases operator <;> cases other <;> cases crossed
  case equal.equal | unequal.unequal => rw [Comparison.apply, Comparison.apply, Value.same_comm]
  all_goals
    rw [Comparison.apply, Comparison.apply, Value.ordered_turned]
    rfl

/-- The operands of an operator may be exchanged: the operator commutes, and a sum is no joining of
sequences. -/
def Exchangeable (first : Expr) : BinaryOperator → Prop
  | .subtract | .divide | .modulo | .power => False
  | .add => ∀ value, first.evaluate = .ok value → value.isSequence = false
  | _ => True

theorem apply_exchanged {operator : BinaryOperator} {first : Expr}
    (exchangeable : Exchangeable first operator) (evaluated : first.evaluate = .ok value)
    (other : Value) :
    Agree (operator.apply value other) (operator.apply other value) := by
  cases operator with
  | add => exact Value.add_comm (exchangeable value evaluated) other
  | multiply => exact Value.multiply_comm value other
  | subtract | divide | modulo | power => exact exchangeable.elim
  | _ => exact .refl _

theorem Along.forall₂ {matching other : Expr → Expr → Prop} (along : Along matching items items')
    (sameLength : items.length = items'.length)
    (implies : ∀ item ∈ items, ∀ item' ∈ items', matching item item' → other item item') :
    Forall₂ other items items' := by
  refine forall₂_iff_get.mpr ⟨sameLength, fun index inBounds inBounds' => ?_⟩
  exact implies _ (get_mem _ _) _ (get_mem _ _)
    (along index _ _ (getElem?_eq_getElem inBounds) (getElem?_eq_getElem inBounds'))

theorem evaluateAll_agree (agree : Forall₂ ValuesAgree items items') :
    Agree (evaluateAll items) (evaluateAll items') := by
  induction agree with
  | nil => exact .refl _
  | cons head _ ih =>
    rw [evaluateAll, evaluateAll]
    exact head.bind fun value _ => ih.bind fun values _ => .refl _

theorem evaluateOperands_agree (agree : Forall₂ ValuesAgree operands operands') (result : Value) :
    Agree (evaluateOperands connective result operands)
      (evaluateOperands connective result operands') := by
  induction agree generalizing result with
  | nil => exact .refl _
  | cons head _ ih =>
    by_cases isNone : result = .none
    · rw [isNone, evaluateOperands, evaluateOperands]
      exact head.bind fun value _ => ih value
    · rw [evaluateOperands, evaluateOperands]
      · split
        · exact head.bind fun value _ => ih value
        · exact ih result
      all_goals exact isNone

/-- The truth value that lets a chain go on. -/
def goesOn (connective : Connective) : Bool :=
  decide (connective = .conjunction)

theorem evaluateOperands_truth {result : Value} (isOpen : Open connective result)
    (nonempty : operands ≠ []) (truths : ∀ operand ∈ operands, operand.IsTruth)
    (evaluated : evaluateOperands connective result operands = .ok value) :
    value = .bool (goesOn connective) ∧
        (∀ operand ∈ operands, operand.evaluate = .ok (.bool (goesOn connective))) ∨
      value = .bool (!goesOn connective) ∧
        ∃ operand ∈ operands, operand.evaluate = .ok (.bool (!goesOn connective)) := by
  induction operands generalizing result with
  | nil => exact absurd rfl nonempty
  | cons operand rest ih =>
    rw [forall_mem_cons] at truths
    rw [evaluateOperands_of_open isOpen] at evaluated
    obtain ⟨first, isFirst, evaluated⟩ := bind_eq_ok.mp evaluated
    obtain ⟨truth, rfl⟩ := truths.1 first isFirst
    by_cases decided : truth = goesOn connective
    · subst decided
      cases rest with
      | nil =>
        cases evaluated
        exact .inl ⟨rfl, by simpa using isFirst⟩
      | cons next rest =>
        obtain ⟨isValue, all⟩ | ⟨isValue, some⟩ :=
          ih (.inr rfl) (cons_ne_nil _ _) truths.2 evaluated
        · exact .inl ⟨isValue, forall_mem_cons.mpr ⟨isFirst, all⟩⟩
        · exact .inr ⟨isValue, exists_mem_cons_of_exists some⟩
    · have isDecided : ¬Open connective (.bool truth) := by
        simpa [Open, Value.isTruthy, goesOn] using decided
      rw [evaluateOperands_of_decided isDecided] at evaluated
      cases evaluated
      obtain rfl : truth = !goesOn connective := Bool.eq_not.mpr decided
      exact .inr ⟨rfl, operand, mem_cons_self, isFirst⟩

/-- Chains of truth values agree if every operand has a partner on the other side. -/
theorem connect_valuesAgree (sameLength : operands.length = operands'.length)
    (truths : ∀ operand ∈ operands ++ operands', operand.IsTruth)
    (partners : ∀ operand ∈ operands, ∃ partner ∈ operands', ValuesAgree operand partner)
    (partnersBack : ∀ partner ∈ operands', ∃ operand ∈ operands, ValuesAgree operand partner) :
    ValuesAgree (connect connective operands) (connect connective operands') := by
  intro value other evaluated evaluatedRight
  rw [evaluate] at evaluated evaluatedRight
  rw [forall_mem_append] at truths
  rcases eq_or_ne operands [] with rfl | nonempty
  · cases length_eq_zero_iff.mp sameLength.symm
    exact Except.ok.inj (evaluated.symm.trans evaluatedRight)
  have nonemptyRight :
      operands' ≠ [] := ne_nil_of_length_pos (sameLength ▸ length_pos_iff.mpr nonempty)
  obtain ⟨rfl, all⟩ | ⟨rfl, operand, member, decides⟩ :=
    evaluateOperands_truth (.inl rfl) nonempty truths.1 evaluated <;>
  obtain ⟨rfl, allRight⟩ | ⟨rfl, partner, memberRight, decidesRight⟩ :=
    evaluateOperands_truth (.inl rfl) nonemptyRight truths.2 evaluatedRight
  · rfl
  · obtain ⟨operand, member, agree⟩ := partnersBack partner memberRight
    exact agree _ _ (all operand member) decidesRight
  · obtain ⟨partner, memberRight, agree⟩ := partners operand member
    exact agree _ _ decides (allRight partner memberRight)
  · rfl

theorem dictValue_of_matches {keys keys' : List Expr} (sameLength : keys.length = keys'.length)
    (along : Along Matches keys keys') : dictValue keys = dictValue keys' := by
  have noSpread :
      Forall₂ (fun key key' => key.isSpread = false ∧ key'.isSpread = false) keys keys' := by
    refine along.forall₂ sameLength fun key _ key' _ matched => ?_
    cases matched.fits using Fits.cases <;> exact ⟨rfl, rfl⟩
  have none : keys.any isSpread = keys'.any isSpread := by
    clear sameLength along
    induction noSpread with
    | nil => rfl
    | cons head _ ih => simp [head, ih]
  have written : (keys.filter (!isSpread ·)).length = (keys'.filter (!isSpread ·)).length := by
    clear sameLength along none
    induction noSpread with
    | nil => rfl
    | cons head _ ih => simp [head, ih]
  rw [dictValue, dictValue, written, none]

theorem call_valuesAgree {function function' : Expr} {arguments arguments' named named' : List Expr}
    (matched : function.Matches function') (agree : Forall₂ ValuesAgree arguments arguments') :
    ValuesAgree (call function arguments named) (call function' arguments' named') := by
  have fits := matched.fits
  unfold ValuesAgree
  cases function with
  | name id use =>
    cases function' with
    | name id' use' =>
      cases (fits : id = id')
      cases agree with
      | nil =>
        rw [evaluate, evaluate]
        exact .refl _
      | cons first rest =>
        rw [evaluate, evaluate]
        split_ifs
        · exact first.bind fun value _ => .refl _
        · cases rest with
          | nil => exact .refl _
          | cons items bodies =>
            refine items.bind fun value _ => (Agree.refl value.size).bind fun count _ => ?_
            split
            · exact .refl _
            · cases bodies with
              | nil => exact .refl _
              | cons body _ => exact body.bind fun value _ => .refl _
        · refine first.bind fun value _ => ?_
          cases rest with
          | nil => exact .refl _
          | cons second _ => exact second.bind fun value _ => .refl _
        · exact .refl _
    | _ => exact fits.elim
  | _ =>
    intro value other evaluated
    simp [evaluate] at evaluated

/-- What has to hold of two trees for a match to keep the value: equal numbers are of one kind,
operands are exchanged only where they may be, and chains match in order, or have truth values only
and match both ways. -/
structure Faithful (left right : Expr) : Prop where
  numbers (value other : Number) : left.Reaches (number value) → right.Reaches (number other) →
    value.same other = true → value = other
  operands (operator : BinaryOperator) (first second first' second' : Expr) :
    left.Reaches (binary operator first second) → right.Reaches (binary operator first' second') →
      first.Matches second' → second.Matches first' → ¬first.Matches first' →
      Exchangeable first operator
  chains (connective : Connective) (operands operands' : List Expr) :
    left.Reaches (connect connective operands) → right.Reaches (connect connective operands') →
      (connect connective operands).Matches (connect connective operands') →
        Along Matches operands operands' ∨ (∀ operand ∈ operands ++ operands', operand.IsTruth) ∧
          ∀ partner ∈ operands', ∃ operand ∈ operands, operand.Matches partner

theorem Faithful.below {part other : Expr} (faithful : Faithful left right)
    (member : part ∈ left.compared) (memberRight : other ∈ right.compared) :
    Faithful part other where
  numbers value other reached reachedRight :=
    faithful.numbers value other (.under member reached) (.under memberRight reachedRight)
  operands operator first second first' second' reached reachedRight :=
    faithful.operands operator first second first' second' (.under member reached)
      (.under memberRight reachedRight)
  chains connective operands operands' reached reachedRight :=
    faithful.chains connective operands operands' (.under member reached)
      (.under memberRight reachedRight)

theorem valuesAgree_of_matches (matched : left.Matches right) (faithful : Faithful left right) :
    ValuesAgree left right := by
  induction left using compared_induction generalizing right with
  | step left ih =>
  have agree (part : Expr) (member : part ∈ left.compared) (other : Expr)
    (memberRight : other ∈ right.compared)
      (matched : part.Matches other) : ValuesAgree part other :=
    ih part member matched (faithful.below member memberRight)
  clear ih
  unfold ValuesAgree
  cases matched.fits using Fits.cases with
  | name id use use' =>
    rw [evaluate, evaluate]
    exact .refl _
  | number value value' same =>
    rw [faithful.numbers value value' .self .self same]
    exact .refl _
  | text => exact .refl _
  | list items use items' use' fits | tuple items use items' use' fits =>
    rw [evaluate, evaluate]
    exact (evaluateAll_agree (fits.2.forall₂ fits.1 agree)).bind fun values _ => .refl _
  | dict keys values keys' values' fits =>
    rw [evaluate, evaluate, dictValue_of_matches fits.1 fits.2.1]
    exact .refl _
  | access value label use value' use' fits =>
    rw [evaluate, evaluate]
    exact (agree value mem_cons_self value' mem_cons_self fits).bind fun _ _ => .refl _
  | call function arguments named function' arguments' named' fits =>
    refine call_valuesAgree fits.1 (fits.2.2.forall₂ fits.2.1
      fun argument member argument' memberRight => ?_)
    exact agree argument (mem_cons_of_mem _ member) argument' (mem_cons_of_mem _ memberRight)
  | compare first operator _ operand _ first' operator' _ operand' _ fits =>
    simp only [compared, take_succ_cons, take_zero, mem_cons, not_mem_nil, or_false,
      forall_eq_or_imp, forall_eq] at agree
    rw [evaluate, evaluate]
    rw [Fits] at fits
    cases corresponding : sides operator operator' <;> rw [corresponding] at fits
    case straight =>
      cases eq_of_straight corresponding
      exact (agree.1.1 fits.1).bind fun value _ => (agree.2.2 fits.2).bind fun other _ => .refl _
    case crossed =>
      exact .bind_swap (agree.1.2 fits.2) (agree.2.1 fits.1) fun _ _ _ _ =>
        .of_eq (apply_crossed corresponding _ _)
    case none => exact fits.elim
  | connect connective operands operands' fits =>
    obtain ⟨sameLength, partners⟩ := fits
    obtain along | ⟨truths, partnersBack⟩ :=
      faithful.chains connective operands operands' .self .self matched
    · rw [evaluate, evaluate]
      exact evaluateOperands_agree (along.forall₂ sameLength agree) .none
    · refine connect_valuesAgree sameLength truths (fun operand member => ?_)
        fun partner memberRight => ?_
      · obtain ⟨partner, memberRight, matched⟩ := partners operand member
        exact ⟨partner, memberRight, agree operand member partner memberRight matched⟩
      · obtain ⟨operand, member, matched⟩ := partnersBack partner memberRight
        exact ⟨operand, member, agree operand member partner memberRight matched⟩
  | binary operator first second first' second' fits =>
    simp only [compared, mem_cons, not_mem_nil, or_false, forall_eq_or_imp, forall_eq] at agree
    rw [evaluate, evaluate]
    obtain ⟨straight, straight'⟩ | ⟨notStraight, crossed, crossed'⟩ := fits
    · exact (agree.1.1 straight).bind fun value _ => (agree.2.2 straight').bind fun other _ =>
        .refl _
    · have exchangeable :=
        faithful.operands operator first second first' second' .self .self crossed crossed'
          notStraight
      exact .bind_swap (agree.1.2 crossed) (agree.2.1 crossed') fun value other evaluated _ =>
        apply_exchanged exchangeable evaluated other

/-- Predicates that match faithfully and have values have the same value. -/
theorem evaluate_eq_of_matches {value other : Value} (matched : left.Matches right)
    (faithful : Faithful left right) (evaluated : left.evaluate = .ok value)
    (evaluatedRight : right.evaluate = .ok other) : value = other :=
  valuesAgree_of_matches matched faithful value other evaluated evaluatedRight

abbrev onIntegers (operator : BinaryOperator) (first second : Int) : Expr :=
  binary operator (number (.int first)) (number (.int second))

section Integers

variable {operator : BinaryOperator} {first second : Int} {part : Expr}

theorem hasRule_integer (value : Int) : (number (.int value)).Throughout HasRule :=
  throughout_iff.mpr ⟨rfl, by simp [compared]⟩

theorem integer_matches_iff :
    (number (.int first)).Matches (number (.int second)) ↔ first = second := by
  simp [matches_iff_fits (hasRule_integer first) (hasRule_integer second), Fits, Number.same]

theorem onIntegers_matches_exchanged :
    (onIntegers operator first second).Matches (onIntegers operator second first) := by
  have hasRule (first second : Int) : (onIntegers operator first second).Throughout HasRule :=
    throughout_iff.mpr ⟨trivial, by simp [compared, hasRule_integer]⟩
  rw [matches_iff_fits (hasRule first second) (hasRule second first)]
  simp only [Fits, integer_matches_iff, true_and]
  grind

theorem eq_of_reaches_onIntegers (reached : (onIntegers operator first second).Reaches part) :
    part = onIntegers operator first second ∨ ∃ value, part = number (.int value) := by
  obtain _ | ⟨member, reached⟩ := reached
  · exact .inl rfl
  · obtain ⟨value, rfl⟩ : ∃ value, _ = number (.int value) := by
      simp only [compared, mem_cons, not_mem_nil, or_false] at member
      exact member.elim (⟨_, ·⟩) (⟨_, ·⟩)
    obtain _ | ⟨member, _⟩ := reached
    · exact .inr ⟨value, rfl⟩
    · cases member

theorem faithful_sum : Faithful (onIntegers .add first second) (onIntegers .add second first) where
  numbers value other reached reachedRight same := by
    obtain same' | ⟨value, same'⟩ := eq_of_reaches_onIntegers reached <;> cases same'
    obtain same' | ⟨other, same'⟩ := eq_of_reaches_onIntegers reachedRight <;> cases same'
    simpa [Number.same] using same
  operands operator _ _ _ _ reached _ _ _ _ := by
    obtain same | ⟨value, same⟩ := eq_of_reaches_onIntegers reached <;> cases same
    rintro value ⟨⟩
    rfl
  chains _ _ _ reached := by
    obtain same | ⟨value, same⟩ := eq_of_reaches_onIntegers reached <;> cases same

end Integers

theorem sum_exchanged_same_value :
    ∃ value other, (onIntegers .add 1 2).Matches (onIntegers .add 2 1) ∧
      Faithful (onIntegers .add 1 2) (onIntegers .add 2 1) ∧
      (onIntegers .add 1 2).evaluate = .ok value ∧
        (onIntegers .add 2 1).evaluate = .ok other ∧ value = other :=
  ⟨.number (.int 3), .number (.int 3), onIntegers_matches_exchanged, faithful_sum, rfl, rfl,
    evaluate_eq_of_matches (@onIntegers_matches_exchanged .add 1 2) faithful_sum rfl rfl⟩

/-- `1 - 2` matches `2 - 1`, and their values differ. -/
theorem difference_exchanged_other_value :
    (onIntegers .subtract 1 2).Matches (onIntegers .subtract 2 1) ∧
      (onIntegers .subtract 1 2).evaluate = .ok (.number (.int (-1))) ∧
        (onIntegers .subtract 2 1).evaluate = .ok (.number (.int 1)) :=
  ⟨onIntegers_matches_exchanged, rfl, rfl⟩

end Expr

end ApiDescription
