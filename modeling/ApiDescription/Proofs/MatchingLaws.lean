import ApiDescription.Proofs.Matching

/-!
# Laws of the comparison of predicates

Away from and/or chains and from equations, matching is an equivalence, and the operands of a binary
operator are matched in whichever order works: the greedy choice never loses a pairing.

Two forms break this.  An equation is only compared crosswise, so it matches itself only if its
sides match each other.  An operand of an and/or chain may stand for several, so chains match as
soon as every operand on the left has a partner, used already or not.
-/

namespace ApiDescription

def Comparison.IsEquation (operator : Comparison) : Prop :=
  operator = .equal ∨ operator = .unequal

namespace Expr

open Matching

variable {matching : Expr → Expr → Prop} {left middle right tree : Expr}

/-! ## One step -/

theorem sides_comm (operator other : Comparison) : sides operator other = sides other operator := by
  cases operator <;> cases other <;> rfl

variable {operator operator' : Comparison} {first second : Expr} {lefts rights : List Expr}

theorem sidesFit_self :
    SidesFit matching (sides operator operator) first second first second ↔
      (operator.IsEquation → matching second first ∧ matching first second) ∧
        (¬operator.IsEquation → matching first first ∧ matching second second) := by
  unfold Comparison.IsEquation sides
  split_ifs <;> simp_all [SidesFit]

theorem sidesFit_iff {first' second' : Expr} (noEquation : ¬operator.IsEquation) :
    SidesFit matching (sides operator operator') first second first' second' ↔
      operator = operator' ∧ matching first first' ∧ matching second second' ∨
        opposite operator = some operator' ∧ matching second first' ∧ matching first second' := by
  have notOpposite : opposite operator ≠ some operator := by cases operator <;> simp [opposite]
  unfold Comparison.IsEquation at noEquation
  unfold sides
  split_ifs <;> simp_all [SidesFit]

theorem opposite_opposite (turned : opposite operator = some operator') :
    opposite operator' = some operator := by
  cases operator <;> cases turned <;> rfl

def Balanced : Expr → Prop
  | compare first (operator :: _) (operand :: _) =>
    operator.IsEquation → operand.Matches first ∧ first.Matches operand
  | _ => True

def IsPlain : Expr → Prop
  | connect _ _ => False
  | compare _ (operator :: _) _ => ¬operator.IsEquation
  | _ => True

theorem along_self {items : List Expr} (self : ∀ item ∈ items, matching item item) :
    Along matching items items := by
  intro index left right found foundRight
  cases found.symm.trans foundRight
  exact self left (List.mem_of_getElem? found)

theorem Along.symm (along : Along matching lefts rights)
    (symm : ∀ left ∈ lefts, ∀ right ∈ rights, matching left right → matching right left) :
    Along matching rights lefts := by
  intro index right left foundRight found
  exact symm left (List.mem_of_getElem? found) right (List.mem_of_getElem? foundRight)
    (along index left right found foundRight)

theorem Along.trans {middles : List Expr} (along : Along matching lefts middles)
    (next : Along matching middles rights) (sameLength : lefts.length = middles.length)
    (trans : ∀ left ∈ lefts, ∀ middle ∈ middles, ∀ right ∈ rights, matching left middle →
      matching middle right →
      matching left right) :
    Along matching lefts rights := by
  intro index left right found foundRight
  obtain ⟨inBounds, -⟩ := List.getElem?_eq_some_iff.mp found
  have foundMiddle := List.getElem?_eq_getElem (sameLength ▸ inBounds)
  exact trans left (List.mem_of_getElem? found) _ (List.mem_of_getElem? foundMiddle) right
    (List.mem_of_getElem? foundRight) (along index _ _ found foundMiddle)
      (next index _ _ foundMiddle foundRight)

theorem fits_self_iff (rule : tree.HasRule) (self : ∀ part ∈ tree.compared, part.Matches part) :
    Fits Matches tree tree ↔ tree.Balanced := by
  cases tree with
  | compare first operators operands =>
    match operators, operands with
    | operator :: operators, operand :: operands =>
      simp only [compared, List.mem_cons, List.take_succ_cons, List.take_zero, List.not_mem_nil,
        or_false, forall_eq_or_imp, forall_eq] at self
      simp [Fits, Balanced, sidesFit_self, self]
    | [], _ => exact absurd rfl rule.1
    | _ :: _, [] => exact absurd rfl rule.2
  | number value => simpa [Fits, Balanced, Number.same_iff] using Option.isSome_iff_exists.mp rule
  | spread | unary _ _ | other _ _ => exact rule.elim
  | list items use | tuple items use => exact iff_of_true ⟨rfl, along_self self⟩ trivial
  | dict keys values =>
    refine iff_of_true ⟨rfl, along_self fun key member => ?_, along_self fun value member => ?_⟩
      trivial
    · exact self key (List.mem_append_left _ member)
    · exact self value (List.mem_append_right _ member)
  | name id use | text value => exact iff_of_true rfl trivial
  | access value label use => exact iff_of_true ⟨rfl, self value List.mem_cons_self⟩ trivial
  | call function arguments named =>
    refine iff_of_true ⟨self function List.mem_cons_self, rfl, along_self fun item member => ?_⟩
      trivial
    exact self item (List.mem_cons_of_mem _ member)
  | connect connective operands =>
    exact iff_of_true ⟨rfl, rfl, fun operand member => ⟨operand, member, self operand member⟩⟩
      trivial
  | binary operator first second =>
    exact iff_of_true ⟨rfl,
      .inl ⟨self first (by simp [compared]), self second (by simp [compared])⟩⟩ trivial

theorem Fits.symm (fits : Fits matching left right) (plain : left.IsPlain)
    (symm : ∀ part ∈ left.compared, ∀ other ∈ right.compared, matching part other ↔
      matching other part) :
    Fits matching right left := by
  have forward part (member : part ∈ left.compared) other (memberRight : other ∈ right.compared) :=
    (symm part member other memberRight).mp
  cases fits using Fits.cases with
  | name | text => rfl
  | number value value' same =>
    exact (Number.same_iff _ _).mpr (by simpa [and_comm] using (Number.same_iff _ _).mp same)
  | list items use items' use' fits | tuple items use items' use' fits =>
    exact ⟨fits.1.symm, fits.2.symm forward⟩
  | dict keys values keys' values' fits =>
    simp only [compared, List.mem_append] at forward
    exact ⟨fits.1.symm, fits.2.1.symm (by grind), fits.2.2.symm (by grind)⟩
  | access value label use value' use' fits =>
    exact ⟨rfl, forward _ List.mem_cons_self _ List.mem_cons_self fits⟩
  | call function arguments named function' arguments' named' fits =>
    simp only [compared, List.mem_cons] at forward
    exact ⟨forward _ (.inl rfl) _ (.inl rfl) fits.1, fits.2.1.symm, fits.2.2.symm (by grind)⟩
  | compare first operator _ operand _ first' operator' _ operand' _ fits =>
    simp only [compared, List.take_succ_cons, List.take_zero, List.mem_cons, List.not_mem_nil,
      or_false, forall_eq_or_imp, forall_eq] at forward
    rw [Fits, sides_comm] at fits
    rw [Fits]
    revert fits
    cases sides operator' operator <;> simp only [SidesFit] <;> grind
  | connect => exact plain.elim
  | binary operator first second first' second' fits =>
    simp only [compared, List.mem_cons, List.not_mem_nil, or_false, forall_eq_or_imp,
      forall_eq] at symm
    rw [Fits]
    grind

/-- One step composes.  The operands of a binary operator are tried straight first, so that a
crosswise match counts only where the first operands do not match: parts that match zigzag must
match directly. -/
theorem Fits.trans (fits : Fits matching left middle) (next : Fits matching middle right)
    (plain : left.IsPlain)
    (plainMiddle : middle.IsPlain) (rule : left.HasRule) (ruleMiddle : middle.HasRule)
    (trans : ∀ part ∈ left.compared, ∀ between ∈ middle.compared, ∀ other ∈ right.compared,
      matching part between → matching between other → matching part other)
    (zigzag : ∀ part ∈ left.compared, ∀ second ∈ left.compared, ∀ other ∈ right.compared,
      ∀ last ∈ right.compared, matching part other → matching second other → matching second last →
        matching part last) :
    Fits matching left right := by
  cases fits using Fits.cases with
  | name id use use' =>
    cases right with
    | name id' use' => exact next
    | _ => exact next.elim
  | number value value' same =>
    cases right with
    | number value'' =>
      obtain ⟨shared, valued, valuedMiddle⟩ := (Number.same_iff _ _).mp same
      obtain ⟨other, valuedOther, valuedRight⟩ := (Number.same_iff _ _).mp next
      cases valuedMiddle.symm.trans valuedOther
      exact (Number.same_iff _ _).mpr ⟨shared, valued, valuedRight⟩
    | _ => exact next.elim
  | text => exact next
  | list items use items' use' fits =>
    cases right with
    | list items'' use'' => exact ⟨fits.1.trans next.1, fits.2.trans next.2 fits.1 trans⟩
    | _ => exact next.elim
  | tuple items use items' use' fits =>
    cases right with
    | tuple items'' use'' => exact ⟨fits.1.trans next.1, fits.2.trans next.2 fits.1 trans⟩
    | _ => exact next.elim
  | dict keys values keys' values' fits =>
    cases right with
    | dict keys'' values'' =>
      simp only [compared, List.mem_append] at trans
      have sameLength : values.length = values'.length := rule.symm.trans (fits.1.trans ruleMiddle)
      exact ⟨fits.1.trans next.1, fits.2.1.trans next.2.1 fits.1 (by grind),
        fits.2.2.trans next.2.2 sameLength (by grind)⟩
    | _ => exact next.elim
  | access value label use value' use' fits =>
    cases right with
    | access value'' label'' use'' =>
      exact ⟨next.1, trans _ List.mem_cons_self _ List.mem_cons_self _ List.mem_cons_self fits
        next.2⟩
    | _ => exact next.elim
  | call function arguments named function' arguments' named' fits =>
    cases right with
    | call function'' arguments'' named'' =>
      simp only [compared, List.mem_cons] at trans
      exact ⟨trans _ (.inl rfl) _ (.inl rfl) _ (.inl rfl) fits.1 next.1, fits.2.1.trans next.2.1,
        fits.2.2.trans next.2.2 fits.2.1 (by grind)⟩
    | _ => exact next.elim
  | compare first operator _ operand _ first' operator' _ operand' _ fits =>
    cases right with
    | compare first'' operators operands =>
      obtain _ | ⟨operator'', _⟩ := operators
      · exact next.elim
      obtain _ | ⟨operand'', _⟩ := operands
      · exact next.elim
      simp only [compared, List.mem_cons, List.take_succ_cons, List.take_zero, List.not_mem_nil,
        or_false, forall_eq_or_imp, forall_eq] at trans
      rw [Fits, sidesFit_iff plainMiddle] at next
      rw [Fits, sidesFit_iff plain]
      obtain ⟨rfl, fits⟩ | ⟨turned, fits⟩ := (sidesFit_iff plain).mp fits <;>
        obtain ⟨rfl, next⟩ | ⟨turnedNext, next⟩ := next
      · grind
      · grind
      · grind
      · cases (opposite_opposite turned).symm.trans turnedNext
        grind
    | _ => exact next.elim
  | connect => exact plain.elim
  | binary operator first second first' second' fits =>
    cases right with
    | binary operator'' first'' second'' =>
      simp only [compared, List.mem_cons, List.not_mem_nil, or_false, forall_eq_or_imp, forall_eq]
        at trans zigzag
      have either : matching first first'' ∧ matching second second'' ∨
          matching first second'' ∧ matching second first'' := by
        obtain ⟨-, next | ⟨-, next⟩⟩ := next <;> obtain fits | ⟨-, fits⟩ := fits <;> grind
      exact ⟨next.1, by grind⟩
    | _ => exact next.elim

/-! ## Whole trees -/

/-- A tree that is compared by rules, without chains of and/or and without equations. -/
def Orderly (tree : Expr) : Prop :=
  tree.Throughout fun part => part.HasRule ∧ part.IsPlain

theorem Orderly.hasRule (orderly : tree.Orderly) : tree.Throughout HasRule :=
  orderly.mono fun _ => And.left

theorem Balanced.of_isPlain (plain : tree.IsPlain) : tree.Balanced := by
  fun_cases Balanced tree
  · exact fun isEquation => (plain isEquation).elim
  · trivial

/-- Matching is hereditary: the trees on the way match themselves where all equations on the way are
balanced. -/
theorem throughout_matches_self_iff (rules : tree.Throughout HasRule) :
    tree.Throughout (fun part => part.Matches part) ↔ tree.Throughout Balanced := by
  induction tree using compared_induction with
  | step tree ih =>
    have below : (∀ part ∈ tree.compared, part.Throughout fun other => other.Matches other) ↔
        ∀ part ∈ tree.compared, part.Throughout Balanced :=
      forall₂_congr fun part member => ih part member (rules.below member)
    rw [throughout_iff, throughout_iff, below]
    refine and_congr_left fun balanced =>
      (matches_iff_fits rules rules).trans (fits_self_iff rules.here ?_)
    exact fun part member => (below.mpr balanced part member).here

theorem Orderly.symm_trans (orderly : left.Orderly) :
    (∀ right, Orderly right → (left.Matches right ↔ right.Matches left)) ∧
      ∀ middle right, Orderly middle → Orderly right → left.Matches middle → middle.Matches right →
        left.Matches right := by
  induction left using compared_induction with
  | step left ih =>
    replace ih part (member : part ∈ left.compared) :=
      ih part member (orderly.below member)
    have symm part (member : part ∈ left.compared) other (isOrderly : Orderly other) :=
      (ih part member).1 other isOrderly
    have trans part (member : part ∈ left.compared) {between other : Expr}
      (isOrderly : Orderly between)
        (isOrderlyOther : Orderly other) :=
      (ih part member).2 between other isOrderly isOrderlyOther
    constructor
    · intro right orderlyRight
      rw [matches_iff_fits orderly.hasRule orderlyRight.hasRule,
        matches_iff_fits orderlyRight.hasRule orderly.hasRule]
      constructor
      · exact fun fits => fits.symm orderly.here.2 fun part member other memberRight =>
          symm part member other (orderlyRight.below memberRight)
      · exact fun fits => fits.symm orderlyRight.here.2 fun other memberRight part member =>
          (symm part member other (orderlyRight.below memberRight)).symm
    · intro middle right orderlyMiddle orderlyRight matched next
      rw [matches_iff_fits orderly.hasRule orderlyRight.hasRule]
      refine matched.fits.trans next.fits orderly.here.2 orderlyMiddle.here.2 orderly.here.1
        orderlyMiddle.here.1 ?_ ?_
      · exact fun part member between memberMiddle other memberRight =>
          trans part member (orderlyMiddle.below memberMiddle) (orderlyRight.below memberRight)
      · intro part member second memberSecond other memberRight last memberLast first back second'
        have isOrderly := orderlyRight.below memberRight
        have turned := (symm second memberSecond other isOrderly).mp back
        have direct := trans part member isOrderly (orderly.below memberSecond) first turned
        exact trans part member (orderly.below memberSecond) (orderlyRight.below memberLast) direct
          second'

theorem Orderly.matches_self (orderly : tree.Orderly) : tree.Matches tree :=
  ((throughout_matches_self_iff orderly.hasRule).mpr
    (orderly.mono fun _ here => .of_isPlain here.2)).here

theorem hasRule_binary {operator : BinaryOperator} (rules : left.Throughout HasRule)
    (rulesRight : right.Throughout HasRule) : (binary operator left right).Throughout HasRule :=
  throughout_iff.mpr ⟨trivial, by simpa [compared] using ⟨rules, rulesRight⟩⟩

/-- On orderly trees matching always has an answer and is an equivalence, and the operands of a
binary operator are matched straight or crosswise, whichever works. -/
theorem equivalence_matches_of_orderly :
    (∀ left right : {tree : Expr // tree.Orderly}, left.1.Ends right.1) ∧
      Equivalence (fun left right : {tree : Expr // tree.Orderly} => left.1.Matches right.1) ∧
      ∀ (operator : BinaryOperator) (first second first' second' : {tree : Expr // tree.Orderly}),
        (binary operator first.1 second.1).Matches (binary operator first'.1 second'.1) ↔
          first.1.Matches first'.1 ∧ second.1.Matches second'.1 ∨
            first.1.Matches second'.1 ∧ second.1.Matches first'.1 := by
  refine ⟨fun left right => ends_of_hasRule left.2.hasRule right.2.hasRule,
    ⟨fun tree => tree.2.matches_self, ?_, ?_⟩, ?_⟩
  · exact fun {left right} => (left.2.symm_trans.1 right.1 right.2).mp
  · exact fun {left middle right} => left.2.symm_trans.2 middle.1 right.1 middle.2 right.2
  · intro operator first second first' second'
    rw [matches_iff_fits (hasRule_binary first.2.hasRule second.2.hasRule)
      (hasRule_binary first'.2.hasRule second'.2.hasRule), Fits]
    -- A crosswise match behind a straight match of the first operands goes zigzag from the second
    -- operand.
    have zigzag (straight : first.1.Matches first'.1) (crossed : first.1.Matches second'.1)
        (back : second.1.Matches first'.1) : second.1.Matches second'.1 := by
      have turned := (first.2.symm_trans.1 first'.1 first'.2).mp straight
      have direct := second.2.symm_trans.2 first'.1 first.1 first'.2 first.2 back turned
      exact second.2.symm_trans.2 first.1 second'.1 first.2 second'.2 direct crossed
    grind

/-! ## Equations -/

/-- Every tree that is compared by rules gets an answer when it is compared with itself, and all
trees on the way match themselves exactly if the sides of every equation on the way match each
other. -/
theorem matches_self_iff_balanced (rules : tree.Throughout HasRule) :
    tree.Ends tree ∧ (tree.Throughout (fun part => part.Matches part) ↔ tree.Throughout Balanced) :=
  ⟨ends_of_hasRule rules rules, throughout_matches_self_iff rules⟩

theorem hasRule_name (id : String) : (name id .load).Throughout HasRule :=
  throughout_iff.mpr ⟨trivial, by simp [compared]⟩

def sampleEquation : Expr :=
  compare (name "a" .load) [.equal] [name "b" .load]

theorem hasRule_sampleEquation : sampleEquation.Throughout HasRule :=
  throughout_iff.mpr ⟨by simp [sampleEquation, HasRule], by simp [sampleEquation, compared,
    hasRule_name]⟩

theorem sampleEquation_answered :
    sampleEquation.Throughout HasRule ∧ sampleEquation.Ends sampleEquation ∧
    (sampleEquation.Throughout (fun part => part.Matches part) ↔
      sampleEquation.Throughout Balanced) :=
  ⟨hasRule_sampleEquation, matches_self_iff_balanced hasRule_sampleEquation⟩

theorem sampleEquation_not_matches_self : ¬sampleEquation.Matches sampleEquation := by
  intro matched
  have crossed : (name "b" .load).Matches (name "a" .load) := matched.fits.1
  simpa [Fits] using crossed.fits

/-! ## Chains of and/or -/

section Chains

variable {count : Nat} {connective : Connective} {lefts rights : Fin count → Expr}

theorem covered_of_connect_matches
    (matched : (connect connective (List.ofFn lefts)).Matches
      (connect connective (List.ofFn rights))) :
    ∀ index, ∃ partner, (lefts index).Matches (rights partner) := by
  simpa [Fits] using matched.fits

theorem throughout_hasRule_connect (rules : ∀ index, (lefts index).Throughout HasRule) :
    (connect connective (List.ofFn lefts)).Throughout HasRule :=
  throughout_iff.mpr ⟨trivial, by simpa [compared] using rules⟩

theorem connect_matches_of_covered (rules : ∀ index, (lefts index).Throughout HasRule)
    (rulesRight : ∀ index, (rights index).Throughout HasRule)
    (covered : ∀ index, ∃ partner, (lefts index).Matches (rights partner)) :
    (connect connective (List.ofFn lefts)).Matches (connect connective (List.ofFn rights)) := by
  rw [matches_iff_fits (throughout_hasRule_connect rules) (throughout_hasRule_connect rulesRight)]
  simpa [Fits] using covered

/-- If chains of one connective and one length match, every operand on the left has a partner on the
right, and if no operand on the right has to serve twice the partners are a permutation.  Conversely
partners are enough for operands that have rules throughout. -/
theorem connect_matches_iff_covered :
    ((connect connective (List.ofFn lefts)).Matches (connect connective (List.ofFn rights)) →
      ∀ index, ∃ partner, (lefts index).Matches (rights partner)) ∧
    ((∀ index, (lefts index).Throughout HasRule) → (∀ index, (rights index).Throughout HasRule) →
      (∀ index, ∃ partner, (lefts index).Matches (rights partner)) →
      (connect connective (List.ofFn lefts)).Matches (connect connective (List.ofFn rights))) ∧
    ((connect connective (List.ofFn lefts)).Matches (connect connective (List.ofFn rights)) →
      (∀ index other partner, (lefts index).Matches (rights partner) →
        (lefts other).Matches (rights partner) → index = other) →
      ∃ partner : Equiv.Perm (Fin count), ∀ index,
        (lefts index).Matches (rights (partner index))) := by
  refine ⟨covered_of_connect_matches, connect_matches_of_covered, fun matched unshared => ?_⟩
  choose partner isPartner using covered_of_connect_matches matched
  have injective : Function.Injective partner := fun index other same =>
    unshared index other (partner index) (isPartner index) (same ▸ isPartner other)
  exact ⟨Equiv.ofBijective partner (Finite.injective_iff_bijective.mp injective), isPartner⟩

end Chains

def sampleOperands (second : String) : Fin 2 → Expr :=
  ![name "a" .load, name second .load]

theorem hasRule_sampleOperands (second : String) (index : Fin 2) :
    (sampleOperands second index).Throughout HasRule := by
  fin_cases index <;> exact hasRule_name _

theorem sampleOperands_matched_iff :
    (∀ index, (sampleOperands "b" index).Throughout HasRule) ∧
      ((connect .conjunction (List.ofFn (sampleOperands "b"))).Matches
        (connect .conjunction (List.ofFn (sampleOperands "b"))) ↔
          ∀ index, ∃ partner, (sampleOperands "b" index).Matches (sampleOperands "b" partner)) :=
  have hasRule := hasRule_sampleOperands "b"
  ⟨hasRule, connect_matches_iff_covered.1, connect_matches_iff_covered.2.1 hasRule hasRule⟩

/-- `a and a` matches `a and b`, though `b` matches neither operand. -/
theorem sampleOperands_matched_without_permutation :
    (connect .conjunction (List.ofFn (sampleOperands "a"))).Matches
        (connect .conjunction (List.ofFn (sampleOperands "b"))) ∧
      ¬∃ partner : Equiv.Perm (Fin 2),
        ∀ index, (sampleOperands "a" index).Matches (sampleOperands "b" (partner index)) := by
  constructor
  · refine connect_matches_of_covered (hasRule_sampleOperands _) (hasRule_sampleOperands _)
      fun index => ?_
    refine ⟨0, (matches_iff_fits (hasRule_sampleOperands _ index) (hasRule_sampleOperands _ 0)).mpr
      ?_⟩
    fin_cases index <;> rfl
  · rintro ⟨partner, matched⟩
    have last := (matched (partner.symm 1)).fits
    rw [Equiv.apply_symm_apply] at last
    generalize partner.symm 1 = index at last
    fin_cases index <;> simp [sampleOperands, Fits] at last

end Expr

end ApiDescription
