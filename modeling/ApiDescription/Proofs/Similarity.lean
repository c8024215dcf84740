import ApiDescription.Expression.Similarity
import ApiDescription.Proofs.NumberLiterals
import ApiDescription.Proofs.Outcome

/-!
# Similarity of predicates

A predicate is the multiset of the kinds of its nodes.  The nodes of two predicates are paired
greedily, one by one and each with the last node of its kind that is left, and that finds the whole
common part of the two multisets: nodes are alike exactly when they are of one kind.  So the
similarity of two predicates is twice the size of the common part over the sum of the sizes.
-/

namespace ApiDescription

open Outcome Multiset

/-! ## Kinds of nodes -/

/-- What a node counts as: numbers count by value, other nodes as they are. -/
inductive Node.Kind where
  | number (value : Option (Decimal.Exact × Decimal.Exact))
  | plain (node : Node)
  deriving DecidableEq

def Node.kind : Node → Node.Kind
  | .number value => .number value.value?
  | node => .plain node

namespace Expr

/-- The root of a tree as a node, with the operators and the mark for reading or assigning that it
carries. -/
def ownNodes : Expr → List Node
  | name _ use => [.name, .use use]
  | number value => [.number value]
  | text value => [.text value]
  | list _ use => [.list, .use use]
  | tuple _ use => [.tuple, .use use]
  | dict _ _ => [.dict]
  | spread => []
  | access _ _ use => [.access, .use use]
  | call function _ _ => [.call function.plainName?]
  | compare _ operators _ => .compare :: operators.map .comparison
  | connect connective _ => [.connect, .connective connective]
  | binary operator _ _ => [.binary, .binaryOperator operator]
  | unary operator _ => [.unary, .unaryOperator operator]
  | other form _ => .other form.class :: form.uses

/-- The kinds of all nodes of a tree, each as often as it occurs. -/
def kinds (tree : Expr) : Multiset Node.Kind :=
  (tree.ownNodes.map Node.kind : Multiset Node.Kind) +
    (tree.children.attach.map fun child => kinds child.1).sum
termination_by sizeOf tree
decreasing_by exact sizeOf_lt_of_mem_children child.2

def predicateKinds (tree : Expr) : Multiset Node.Kind :=
  Node.whole.kind ::ₘ tree.kinds

def PlainCalls (tree : Expr) : Prop :=
  ∀ function arguments keywords, Contains (call function arguments keywords) tree →
    ∃ id use, function = name id use

theorem nodesOfAll_eq_flatMap (trees : List Expr) : nodesOfAll trees = trees.flatMap nodes := by
  induction trees with
  | nil => rfl
  | cons first rest ih =>
    rw [nodesOfAll, ih, List.flatMap_cons]

theorem nodes_perm (tree : Expr) :
    tree.nodes.Perm (tree.ownNodes ++ tree.children.flatMap nodes) := by
  rw [List.perm_iff_count]
  intro node
  cases tree <;>
    simp only [nodes, ownNodes, children, nodesOfAll_eq_flatMap, List.flatMap_append,
      List.flatMap_cons,
      List.flatMap_nil, List.count_append, List.count_cons, List.count_nil, List.cons_append] <;>
    omega

theorem kinds_eq (tree : Expr) : tree.kinds = (tree.ownNodes.map Node.kind : Multiset Node.Kind) +
      (tree.children.map kinds).sum := by
  rw [kinds]
  simp

theorem sum_kinds {trees : List Expr}
    (each : ∀ tree ∈ trees, tree.kinds = (tree.nodes.map Node.kind : Multiset Node.Kind)) :
    (trees.map kinds).sum = ((trees.flatMap nodes).map Node.kind : Multiset Node.Kind) := by
  induction trees with
  | nil => rfl
  | cons first rest ih =>
    rw [List.forall_mem_cons] at each
    rw [List.map_cons, List.sum_cons, each.1, ih each.2, List.flatMap_cons, List.map_append,
      coe_add]

/-- The enumeration of the nodes of a tree counts every node once. -/
theorem kinds_eq_nodes (tree : Expr) :
    tree.kinds = (tree.nodes.map Node.kind : Multiset Node.Kind) := by
  induction tree using kinds.induct with
  | case1 tree ih =>
    have parts := sum_kinds fun child isChild => ih ⟨child, isChild⟩
    rw [kinds_eq, parts, coe_add, ← List.map_append]
    exact coe_eq_coe.mpr ((nodes_perm tree).map _).symm

theorem predicateKinds_eq (tree : Expr) :
    tree.predicateKinds = (tree.predicateNodes.map Node.kind : Multiset Node.Kind) := by
  rw [predicateKinds, kinds_eq_nodes, predicateNodes, List.map_append, ← coe_add, add_comm]
  rfl

variable {tree : Expr}

theorem mem_nodes_iff {node : Node} :
    node ∈ tree.nodes ↔ ∃ part, Contains part tree ∧ node ∈ part.ownNodes := by
  have split (tree : Expr) : node ∈ tree.nodes ↔
      node ∈ tree.ownNodes ∨ ∃ child ∈ tree.children, node ∈ child.nodes := by
    rw [(nodes_perm tree).mem_iff, List.mem_append, List.mem_flatMap]
  constructor
  · intro member
    induction tree using kinds.induct with
    | case1 tree ih =>
      rcases (split tree).mp member with own | ⟨child, isChild, member⟩
      · exact ⟨tree, .self, own⟩
      · obtain ⟨part, contained, own⟩ := ih ⟨child, isChild⟩ member
        exact ⟨part, .under isChild contained, own⟩
  · rintro ⟨part, contained, own⟩
    induction contained with
    | self => exact (split part).mpr (.inl own)
    | under isChild _ member => exact (split _).mpr (.inr ⟨_, isChild, member⟩)

theorem plainCalls_iff : tree.PlainCalls ↔ .call none ∉ tree.nodes := by
  rw [mem_nodes_iff]
  constructor
  · rintro plain ⟨part, contained, own⟩
    cases part with
    | call function arguments keywords =>
      obtain ⟨id, use, rfl⟩ := plain function arguments keywords contained
      simp [ownNodes, plainName?] at own
    | other form children => cases form <;> simp [ownNodes, Form.uses] at own
    | _ => simp [ownNodes] at own
  · intro noOther function arguments keywords contained
    by_contra notName
    refine noOther ⟨_, contained, ?_⟩
    cases function with
    | name id use => exact absurd ⟨id, use, rfl⟩ notName
    | _ => simp [ownNodes, plainName?]

end Expr

/-! ## Pairing nodes -/

namespace Node

/-- A node that can be compared with any other: a number has a value, and a call is of a plain
name. -/
def Comparable (node : Node) : Prop :=
  (∀ value, node = .number value → value.HasValue) ∧ node ≠ .call none

variable {node left right : Node}

theorem kind_eq_plain (noNumber : ∀ value, node ≠ .number value) : node.kind = .plain node := by
  cases node with
  | number value => exact absurd rfl (noNumber value)
  | _ => rfl

theorem kind_eq_iff (notNumbers : ∀ a b, left = .number a → right = .number b → False) :
    left.kind = right.kind ↔ left = right := by
  by_cases isNumber : ∃ value, left = .number value
  · obtain ⟨value, rfl⟩ := isNumber
    have noNumber : ∀ other, right ≠ .number other := fun other => notNumbers value other rfl
    rw [kind_eq_plain noNumber]
    simpa [kind] using (noNumber value).symm
  · rw [not_exists] at isNumber
    rw [kind_eq_plain isNumber]
    by_cases isNumberRight : ∃ value, right = .number value
    · obtain ⟨value, rfl⟩ := isNumberRight
      simpa [kind] using isNumber value
    · rw [kind_eq_plain (not_exists.mp isNumberRight), Kind.plain.injEq]

theorem alike_eq (comparable : left.Comparable) (comparableRight : right.Comparable) :
    left.alike right = .ok (decide (left.kind = right.kind)) := by
  unfold alike
  split
  next a b =>
    obtain ⟨value, hasValue⟩ := Option.isSome_iff_exists.mp (comparable.1 a rfl)
    have same := Number.same_iff a b
    congr 1
    rw [Bool.eq_iff_iff, same, decide_eq_true_iff]
    simp [kind, hasValue, eq_comm]
  next a b => simp [kind, beq_eq_decide]
  next a b notBoth =>
    cases a with
    | none => exact absurd rfl comparable.2
    | some a =>
      cases b with
      | none => exact absurd rfl comparableRight.2
      | some b => exact absurd rfl (notBoth a b rfl)
  next notNumbers _ _ => simp only [kind_eq_iff notNumbers]

theorem extract_eq (comparable : node.Comparable) {candidates : List Node}
    (all : ∀ candidate ∈ candidates, candidate.Comparable) :
    (∃ remaining, node.extract candidates = .ok (some remaining) ∧
      (∀ candidate ∈ remaining, candidate.Comparable) ∧
      (candidates.map kind : Multiset Kind) = node.kind ::ₘ (remaining.map kind : Multiset Kind)) ∨
    (node.extract candidates = .ok none ∧ node.kind ∉ candidates.map kind) := by
  induction candidates with
  | nil => exact .inr ⟨rfl, by simp⟩
  | cons candidate rest ih =>
    rw [List.forall_mem_cons] at all
    rw [extract, alike_eq comparable all.1, ok_bind]
    rcases ih all.2 with ⟨remaining, found, kept, split⟩ | ⟨missing, absent⟩
    · refine .inl ⟨candidate :: remaining, by rw [found]; rfl, ?_, ?_⟩
      · exact List.forall_mem_cons.mpr ⟨all.1, kept⟩
      · rw [List.map_cons, List.map_cons, ← cons_coe, ← cons_coe, split, cons_swap]
    · by_cases same : node.kind = candidate.kind
      · refine .inl ⟨rest, by rw [missing]; simp [same], all.2, ?_⟩
        rw [same, List.map_cons, ← cons_coe]
      · exact .inr ⟨by rw [missing]; simp [same], by simpa [same] using absent⟩

end Node

/-- Pairing nodes finds all that two lists have in common. -/
theorem Overlap.of_eq {left right : List Node} (comparable : ∀ node ∈ left, node.Comparable)
    (comparableRight : ∀ node ∈ right, node.Comparable) {kindsLeft kindsRight : Multiset Node.Kind}
    (isLeft : (left.map Node.kind : Multiset Node.Kind) = kindsLeft)
    (isRight : (right.map Node.kind : Multiset Node.Kind) = kindsRight) :
    Overlap.of left right = .ok ⟨(kindsLeft ∩ kindsRight).card,
      kindsLeft.card - (kindsLeft ∩ kindsRight).card,
        kindsRight.card - (kindsLeft ∩ kindsRight).card⟩ := by
  induction left generalizing right kindsLeft kindsRight with
  | nil =>
    subst isLeft isRight
    simp [Overlap.of]
  | cons node left ih =>
    rw [List.forall_mem_cons] at comparable
    rw [List.map_cons, ← cons_coe] at isLeft
    rw [Overlap.of]
    rcases Node.extract_eq comparable.1 comparableRight with
      ⟨remaining, found, kept, split⟩ | ⟨missing, absent⟩
    · -- Both sides lose a node of one kind, and so does their common part.
      have rest := ih comparable.2 kept rfl rfl
      rw [isRight] at split
      rw [found]
      simp only [ok_bind, rest, ← isLeft, split]
      simp
    · have rest := ih comparable.2 comparableRight rfl isRight
      have outside : node.kind ∉ kindsRight := by
        rwa [← isRight, mem_coe]
      have fewer := card_le_card
        (inter_le_left (s := (left.map Node.kind : Multiset Node.Kind)) (t := kindsRight))
      rw [missing]
      simp only [ok_bind, rest, ← isLeft, cons_inter_of_neg _ outside,
        card_cons, Nat.sub_add_comm fewer, pure_eq_ok]

/-! ## The measure -/

def Share.value (share : Share) : ℚ :=
  share.numerator / share.denominator

namespace Expr

theorem comparable_of_parse {source : String} {tree : Expr} (parsed : parse source = .ok tree)
    (plain : tree.PlainCalls) : ∀ node ∈ tree.predicateNodes, node.Comparable := by
  intro node member
  rw [predicateNodes, List.mem_append, List.mem_singleton] at member
  rcases member with member | rfl
  · refine ⟨?_, ?_⟩
    · rintro value rfl
      obtain ⟨part, contained, own⟩ := mem_nodes_iff.mp member
      refine (sound_of_parse parsed part contained).1 value ?_
      cases part with
      | other form children => cases form <;> simp [ownNodes, Form.uses] at own
      | _ => simp_all [ownNodes, shape]
    · rintro rfl
      exact plainCalls_iff.mp plain member
  · exact ⟨by simp, by simp⟩

variable {left right : String} {first second : Expr}

theorem overlap_of_parse (parsedLeft : parse left = .ok first)
    (parsedRight : parse right = .ok second) (plainLeft : first.PlainCalls)
    (plainRight : second.PlainCalls) :
    Overlap.of first.predicateNodes second.predicateNodes =
      .ok ⟨(first.predicateKinds ∩ second.predicateKinds).card,
        first.predicateKinds.card - (first.predicateKinds ∩ second.predicateKinds).card,
        second.predicateKinds.card - (first.predicateKinds ∩ second.predicateKinds).card⟩ :=
  Overlap.of_eq (comparable_of_parse parsedLeft plainLeft)
    (comparable_of_parse parsedRight plainRight)
    (predicateKinds_eq first).symm (predicateKinds_eq second).symm

theorem card_add_card (first second : Multiset Node.Kind) :
    2 * (first ∩ second).card + (first.card - (first ∩ second).card) +
      (second.card - (first ∩ second).card) = first.card + second.card := by
  have := card_le_card (@inter_le_left _ _ first second)
  have := card_le_card (@inter_le_right _ _ first second)
  omega

theorem two_mul_card_inter_eq_iff {first second : Multiset Node.Kind} :
    2 * (first ∩ second).card = first.card + second.card ↔ first = second := by
  constructor
  · intro all
    have fewer := card_le_card (@inter_le_left _ _ first second)
    have fewerRight := card_le_card (@inter_le_right _ _ first second)
    have isFirst := eq_of_le_of_card_le (@inter_le_left _ _ first second) (by omega)
    have isSecond := eq_of_le_of_card_le (@inter_le_right _ _ first second) (by omega)
    exact isFirst.symm.trans isSecond
  · rintro rfl
    have common : first ∩ first = first :=
      le_antisymm inter_le_left (le_inter le_rfl le_rfl)
    rw [common]
    omega

theorem similarityOfTexts_of_parse (parsedLeft : parse left = .ok first)
    (parsedRight : parse right = .ok second) (plainLeft : first.PlainCalls)
    (plainRight : second.PlainCalls) :
    similarityOfTexts left right = .ok ⟨2 * (first.predicateKinds ∩ second.predicateKinds).card,
        first.predicateKinds.card + second.predicateKinds.card⟩ := by
  rw [similarityOfTexts, parsedLeft, parsedRight]
  simp only [ok_bind, similarity,
    overlap_of_parse parsedLeft parsedRight plainLeft plainRight, pure_eq_ok, Overlap.share,
    card_add_card]

/-- The similarity of two predicates is the Dice coefficient of the kinds of their nodes. -/
theorem similarityOfTexts_eq_dice {left right : String} {first second : Expr}
    (parsedLeft : parse left = .ok first) (parsedRight : parse right = .ok second)
    (plainLeft : first.PlainCalls) (plainRight : second.PlainCalls) :
    Overlap.of first.predicateNodes second.predicateNodes = .ok
      ⟨(first.predicateKinds ∩ second.predicateKinds).card,
        first.predicateKinds.card - (first.predicateKinds ∩ second.predicateKinds).card,
        second.predicateKinds.card - (first.predicateKinds ∩ second.predicateKinds).card⟩ ∧
    ∃ share : Share,
      similarityOfTexts left right = .ok share ∧ similarityOfTexts right left = .ok share ∧
      share.denominator ≠ 0 ∧
      share.value = 2 * (first.predicateKinds ∩ second.predicateKinds).card /
        (first.predicateKinds.card + second.predicateKinds.card) ∧
      0 ≤ share.value ∧ share.value ≤ 1 ∧
      (share.value = 1 ↔ first.predicateKinds = second.predicateKinds) := by
  have positive : (0 : ℚ) < first.predicateKinds.card + second.predicateKinds.card := by
    rw [predicateKinds, Multiset.card_cons]
    positivity
  refine ⟨overlap_of_parse parsedLeft parsedRight plainLeft plainRight, _,
    similarityOfTexts_of_parse parsedLeft parsedRight plainLeft plainRight, ?symmetric, ?defined,
    ?dice, ?nonnegative, ?atMostOne, ?one⟩
  case symmetric =>
    rw [similarityOfTexts_of_parse parsedRight parsedLeft plainRight plainLeft, Multiset.inter_comm,
      Nat.add_comm]
  case defined => simp [predicateKinds]
  case dice => simp [Share.value]
  case nonnegative =>
    simp only [Share.value]
    positivity
  case atMostOne =>
    have whole := card_add_card first.predicateKinds second.predicateKinds
    simp only [Share.value]
    push_cast
    rw [div_le_one positive]
    exact_mod_cast (by omega : 2 * (first.predicateKinds ∩ second.predicateKinds).card ≤
      first.predicateKinds.card + second.predicateKinds.card)
  case one =>
    simp only [Share.value]
    push_cast
    rw [div_eq_one_iff_eq positive.ne', ← two_mul_card_inter_eq_iff]
    exact_mod_cast Iff.rfl

/-- Two texts that differ in a name and in how a number is written are similar in every node. -/
theorem length_similarityOfTexts_eq_dice :
    ∃ share : Share,
      similarityOfTexts "len(a) > 1.0" "len(b) > 1" = .ok share ∧
      similarityOfTexts "len(b) > 1" "len(a) > 1.0" = .ok share ∧ share.value = 1 := by
  have tokens : Lexer.tokens "len(a) > 1.0" =
      some [.word "len", .mark "(", .word "a", .mark ")", .mark ">",
        .number (.float (Decimal.ofScientific 10 (-1)))] := rfl
  have tokensRight : Lexer.tokens "len(b) > 1" =
      some [.word "len", .mark "(", .word "b", .mark ")", .mark ">", .number (.int 1)] := rfl
  have parsed : parse "len(a) > 1.0" =
    .ok (.compare (.call (.name "len" .load) [.name "a" .load] [])
      [.greater] [.number (.float (Decimal.ofScientific 10 (-1)))]) := by
    rw [parse, tokens]
    rfl
  have parsedRight :
      parse "len(b) > 1" = .ok (.compare (.call (.name "len" .load) [.name "b" .load] [])
      [.greater] [.number (.int 1)]) := by
    rw [parse, tokensRight]
    rfl
  obtain ⟨value, isOne, isOneRight⟩ :=
    (Number.same_iff (.float (Decimal.ofScientific 10 (-1))) (.int 1)).mp (by decide +kernel)
  obtain ⟨-, share, similar, similarRight, -, -, -, -, one⟩ :=
    similarityOfTexts_eq_dice parsed parsedRight
      (plainCalls_iff.mpr (by simp [nodes, nodesOfAll, plainName?]))
      (plainCalls_iff.mpr (by simp [nodes, nodesOfAll, plainName?]))
  refine ⟨share, similar, similarRight, one.mpr ?_⟩
  simp only [predicateKinds_eq, predicateNodes, nodes, nodesOfAll]
  simp [Node.kind, isOne, isOneRight, plainName?]

end Expr

end ApiDescription
