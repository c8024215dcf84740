import ApiDescription.Model.Comparison
import ApiDescription.Proofs.Pairing

/-!
# Reordering predicates

Lists of predicates are meant as collections, but the pairing of their trees depends on their order:
a tree that chooses early can take the only partner of another one.  No order pairs more trees than
there are in a largest way of joining similar trees, and none pairs less than half as many.

A choice costs nothing as long as whoever is similar to the chosen partner is similar to the
partners passed over as well.  Where that is so, every order finds a largest joining.  Where it is
not, four trees are enough for two orders to differ.

Lists of the same predicates are joined completely in every order.  So an operation is like itself,
unless it has no conditions at all.
-/

namespace ApiDescription

open Outcome

namespace Expr

variable {left right : List Expr} {trees candidates : List (Expr × Nat)} {pairs : List Partnership}

/-! ## Joinings -/

/-- Links between similar trees of two collections, each tree in at most as many links as it
occurs. -/
structure Joins (left right : Multiset Expr) (links : Multiset (Expr × Expr)) : Prop where
  left_le : links.map Prod.fst ≤ left
  right_le : links.map Prod.snd ≤ right
  similar : ∀ link ∈ links, link.1.Similar link.2

/-- The trees of a list of placed trees, regardless of order. -/
def bag (trees : List (Expr × Nat)) : Multiset Expr :=
  trees.map Prod.fst

@[simp] theorem bag_cons (tree : Expr × Nat) (rest : List (Expr × Nat)) :
    bag (tree :: rest) = tree.1 ::ₘ bag rest := rfl

@[simp] theorem bag_zipIdx (trees : List Expr) : bag trees.zipIdx = (trees : Multiset Expr) := by
  rw [bag, List.zipIdx_map_fst]

theorem bag_of_perm {other : List (Expr × Nat)} (reordered : trees.Perm other) :
    bag trees = bag other :=
  Multiset.coe_eq_coe.mpr (reordered.map Prod.fst)

theorem mem_bag {tree : Expr} : tree ∈ bag trees ↔ ∃ placed ∈ trees, placed.1 = tree := by
  rw [bag, Multiset.mem_coe, List.mem_map]

theorem Greedy.exists_joins (greedy : Greedy trees candidates pairs) :
    ∃ links, Joins (bag trees) (bag candidates) links ∧ links.card = pairs.length := by
  induction greedy with
  | done => exact ⟨0, ⟨le_rfl, Multiset.zero_le _, by simp⟩, rfl⟩
  | pass _ _ ih =>
    obtain ⟨links, joins, counted⟩ := ih
    exact ⟨links, ⟨joins.left_le.trans (Multiset.le_cons_self _ _), joins.right_le, joins.similar⟩,
      counted⟩
  | @take tree partner _ _ _ _ taken similar _ _ ih =>
    obtain ⟨links, joins, counted⟩ := ih
    refine ⟨(tree.1, partner.1) ::ₘ links, ⟨?_, ?_, ?_⟩, by simp [counted]⟩
    · rw [Multiset.map_cons, bag_cons]
      exact Multiset.cons_le_cons _ joins.left_le
    · rw [Multiset.map_cons, bag_of_perm taken, bag_cons]
      exact Multiset.cons_le_cons _ joins.right_le
    · rw [Multiset.forall_mem_cons]
      exact ⟨similar, joins.similar⟩

section Unlinking

variable {tree partner : Expr} {rest remaining : Multiset Expr} {links : Multiset (Expr × Expr)}

theorem Joins.unlink_left {right : Multiset Expr} (joins : Joins (tree ::ₘ rest) right links) :
    Joins rest right links ∨
    ∃ second kept, links = (tree, second) ::ₘ kept ∧ Joins rest right kept ∧
      second ::ₘ kept.map Prod.snd ≤ right := by
  by_cases linked : tree ∈ links.map Prod.fst
  · obtain ⟨⟨_, second⟩, isLink, rfl⟩ := Multiset.mem_map.mp linked
    obtain ⟨kept, rfl⟩ := Multiset.exists_cons_of_mem isLink
    obtain ⟨leftLe, rightLe, similar⟩ := joins
    rw [Multiset.map_cons, Multiset.cons_le_cons_iff] at leftLe
    rw [Multiset.map_cons] at rightLe
    rw [Multiset.forall_mem_cons] at similar
    have keptLe := (Multiset.le_cons_self _ _).trans rightLe
    exact .inr ⟨second, kept, rfl, ⟨leftLe, keptLe, similar.2⟩, rightLe⟩
  · exact .inl ⟨(Multiset.le_cons_of_notMem linked).mp joins.left_le, joins.right_le, joins.similar⟩

theorem Joins.unlink_right {left : Multiset Expr}
    (joins : Joins left (partner ::ₘ remaining) links) :
    Joins left remaining links ∨
    ∃ other kept, links = (other, partner) ::ₘ kept ∧ Joins left remaining kept ∧
      other ::ₘ kept.map Prod.fst ≤ left := by
  by_cases linked : partner ∈ links.map Prod.snd
  · obtain ⟨⟨other, _⟩, isLink, rfl⟩ := Multiset.mem_map.mp linked
    obtain ⟨kept, rfl⟩ := Multiset.exists_cons_of_mem isLink
    obtain ⟨leftLe, rightLe, similar⟩ := joins
    rw [Multiset.map_cons] at leftLe
    rw [Multiset.map_cons, Multiset.cons_le_cons_iff] at rightLe
    rw [Multiset.forall_mem_cons] at similar
    have keptLe := (Multiset.le_cons_self _ _).trans leftLe
    exact .inr ⟨other, kept, rfl, ⟨keptLe, rightLe, similar.2⟩, leftLe⟩
  · exact .inl ⟨joins.left_le, (Multiset.le_cons_of_notMem linked).mp joins.right_le, joins.similar⟩

/-- Taking a tree and a partner out of a joining breaks at most two links, and two only if both are
linked otherwise; then their former partners are free. -/
theorem Joins.cases_of_take (joins : Joins (tree ::ₘ rest) (partner ::ₘ remaining) links) :
    (∃ kept, Joins rest remaining kept ∧ links.card ≤ kept.card + 1) ∨
    ∃ other second kept, Joins rest remaining kept ∧
      links = (tree, second) ::ₘ (other, partner) ::ₘ kept ∧
      other ::ₘ kept.map Prod.fst ≤ rest ∧ second ::ₘ kept.map Prod.snd ≤ remaining := by
  rcases joins.unlink_left with without | ⟨second, others, rfl, without, free⟩
  · rcases without.unlink_right with keeps | ⟨other, kept, rfl, keeps, -⟩
    · exact .inl ⟨links, keeps, Nat.le_succ _⟩
    · exact .inl ⟨kept, keeps, by simp⟩
  · rcases without.unlink_right with keeps | ⟨other, kept, rfl, keeps, freeOther⟩
    · exact .inl ⟨others, keeps, by simp⟩
    · rw [Multiset.map_cons, Multiset.cons_swap, Multiset.cons_le_cons_iff] at free
      exact .inr ⟨other, second, kept, keeps, rfl, freeOther, free⟩

end Unlinking

/-! ## Choices that cost nothing -/

/-- Whoever is similar to a partner of a tree is similar to the partners that the tree likes no
better. -/
def Uncontested (left right : Multiset Expr) : Prop :=
  ∀ tree ∈ left, ∀ other ∈ left, ∀ partner ∈ right, ∀ second ∈ right,
    tree.Similar partner → tree.Similar second →
    (tree.commonShare second).value ≤ (tree.commonShare partner).value →
    other.Similar partner → other.Similar second

theorem Uncontested.mono {left right fewer fewerRight : Multiset Expr}
    (uncontested : Uncontested left right) (le : fewer ≤ left) (leRight : fewerRight ≤ right) :
    Uncontested fewer fewerRight := by
  intro tree isTree other isOther partner isPartner second isSecond
  exact uncontested tree (Multiset.mem_of_le le isTree) other (Multiset.mem_of_le le isOther)
    partner (Multiset.mem_of_le leRight isPartner) second (Multiset.mem_of_le leRight isSecond)

section Take

variable {tree partner : Expr} {rest remaining : Multiset Expr} {links : Multiset (Expr × Expr)}

theorem Joins.exists_card_le_add_two (joins : Joins (tree ::ₘ rest) (partner ::ₘ remaining) links) :
    ∃ kept, Joins rest remaining kept ∧ links.card ≤ kept.card + 2 := by
  rcases joins.cases_of_take with ⟨kept, keeps, counted⟩ | ⟨other, second, kept, keeps, rfl, -, -⟩
  · exact ⟨kept, keeps, counted.trans (Nat.le_succ _)⟩
  · exact ⟨kept, keeps, by simp⟩

/-- If a tree takes its best partner and the choice costs nothing, a joining loses one link: whoever
was linked to that partner can do with the one that the tree was linked to. -/
theorem Joins.exists_card_le_add_one (joins : Joins (tree ::ₘ rest) (partner ::ₘ remaining) links)
    (similar : tree.Similar partner)
    (most : ∀ second ∈ remaining,
      (tree.commonShare second).value ≤ (tree.commonShare partner).value)
    (uncontested : Uncontested (tree ::ₘ rest) (partner ::ₘ remaining)) :
    ∃ kept, Joins rest remaining kept ∧ links.card ≤ kept.card + 1 := by
  rcases joins.cases_of_take with once | ⟨other, second, kept, keeps, rfl, inRest, inRemaining⟩
  · exact once
  · have isOther : other ∈ rest := Multiset.mem_of_le inRest (Multiset.mem_cons_self _ _)
    have isSecond :
        second ∈ remaining := Multiset.mem_of_le inRemaining (Multiset.mem_cons_self _ _)
    have similarSecond : tree.Similar second := joins.similar (tree, second) (by simp)
    have similarOther : other.Similar partner := joins.similar (other, partner) (by simp)
    have exchanged : other.Similar second :=
      uncontested tree (Multiset.mem_cons_self _ _) other (Multiset.mem_cons_of_mem isOther)
        partner (Multiset.mem_cons_self _ _) second (Multiset.mem_cons_of_mem isSecond)
        similar similarSecond (most second isSecond) similarOther
    refine ⟨(other, second) ::ₘ kept, ⟨?_, ?_, ?_⟩, by simp⟩
    · rwa [Multiset.map_cons]
    · rwa [Multiset.map_cons]
    · rw [Multiset.forall_mem_cons]
      exact ⟨exchanged, keeps.similar⟩

end Take

/-- No joining has more than twice as many links as a run finds pairs, and none has more if the
choices of the run cost nothing. -/
theorem Greedy.card_le (greedy : Greedy trees candidates pairs) {links : Multiset (Expr × Expr)}
    (joins : Joins (bag trees) (bag candidates) links) :
    links.card ≤ 2 * pairs.length ∧
      (Uncontested (bag trees) (bag candidates) → links.card ≤ pairs.length) := by
  induction greedy generalizing links with
  | done =>
    have none : links = 0 := Multiset.map_eq_zero.mp (Multiset.le_zero.mp joins.left_le)
    simp [none]
  | @pass tree _ _ _ unlike _ ih =>
    rw [bag_cons] at joins ⊢
    rcases joins.unlink_left with without | ⟨second, kept, rfl, -, free⟩
    · obtain ⟨twice, once⟩ := ih without
      exact ⟨twice, fun uncontested => once (uncontested.mono (Multiset.le_cons_self _ _) le_rfl)⟩
    · -- a link would make one of the candidates similar to the tree
      obtain ⟨candidate, isCandidate, rfl⟩ :=
        mem_bag.mp (Multiset.mem_of_le free (Multiset.mem_cons_self _ _))
      have similar : tree.1.Similar candidate.1 :=
        joins.similar (tree.1, candidate.1) (Multiset.mem_cons_self _ _)
      exact absurd similar (unlike candidate isCandidate)
  | @take tree partner rest _ remaining _ taken similar most _ ih =>
    rw [bag_of_perm taken, bag_cons, bag_cons] at joins
    rw [bag_of_perm taken, bag_cons, bag_cons, List.length_cons]
    constructor
    · obtain ⟨kept, keeps, counted⟩ := joins.exists_card_le_add_two
      have twice := (ih keeps).1
      omega
    · intro uncontested
      have notMore : ∀ second ∈ bag remaining,
          (tree.1.commonShare second).value ≤ (tree.1.commonShare partner.1).value := by
        intro second isSecond
        obtain ⟨candidate, member, rfl⟩ := mem_bag.mp isSecond
        exact most candidate (taken.mem_iff.mpr (List.mem_cons_of_mem _ member))
      obtain ⟨kept, keeps, counted⟩ := joins.exists_card_le_add_one similar notMore uncontested
      have once := (ih keeps).2 (uncontested.mono (Multiset.le_cons_self _ _)
        (Multiset.le_cons_self _ _))
      omega

/-! ## Orders -/

theorem Greedy.length_le (greedy : Greedy trees candidates pairs)
    {others rivals : List (Expr × Nat)} {found : List Partnership}
    (again : Greedy others rivals found) (same : bag others = bag trees)
    (sameRight : bag rivals = bag candidates) :
    found.length ≤ 2 * pairs.length ∧
      (Uncontested (bag trees) (bag candidates) → found.length ≤ pairs.length) := by
  obtain ⟨links, joins, counted⟩ := again.exists_joins
  rw [same, sameRight] at joins
  rw [← counted]
  exact greedy.card_le joins

section Lists

variable {left' right' : List Expr}

theorem similarityOfTrees_perm (comparable : ∀ tree ∈ left, tree.Comparable)
    (comparableRight : ∀ tree ∈ right, tree.Comparable) (reordered : left'.Perm left)
    (reorderedRight : right'.Perm right) :
    ∃ result result', similarityOfTrees left right = .ok result ∧
      similarityOfTrees left' right' = .ok result' ∧ (result' = none ↔ result = none) ∧
      (∀ share ∈ result, ∀ share' ∈ result', share'.value ≤ 2 * share.value) ∧
      (Uncontested left right → result' = result) := by
  obtain ⟨pairs, -, greedy, -, -, scored⟩ := similarityOfTrees_eq comparable comparableRight
  obtain ⟨pairs', -, greedy', -, -, scored'⟩ := similarityOfTrees_eq
    (fun tree member => comparable tree (reordered.mem_iff.mp member))
    (fun tree member => comparableRight tree (reorderedRight.mem_iff.mp member))
  have same : bag left'.zipIdx = bag left.zipIdx := by
    rw [bag_zipIdx, bag_zipIdx, Multiset.coe_eq_coe]
    exact reordered
  have sameRight : bag right'.zipIdx = bag right.zipIdx := by
    rw [bag_zipIdx, bag_zipIdx, Multiset.coe_eq_coe]
    exact reorderedRight
  obtain ⟨twice, once⟩ := greedy.length_le greedy' same sameRight
  obtain ⟨-, once'⟩ := greedy'.length_le greedy same.symm sameRight.symm
  rw [same, sameRight] at once'
  simp only [bag_zipIdx] at once once'
  rw [reordered.length_eq, reorderedRight.length_eq] at scored'
  refine ⟨_, _, scored, scored', ?_, ?_, ?_⟩
  · split <;> simp
  · split
    · simp
    · intro share isShare share' isShare'
      cases isShare
      cases isShare'
      rw [Share.value, Share.value, ← mul_div_assoc]
      gcongr
      exact_mod_cast (by omega : 2 * pairs'.length ≤ 2 * (2 * pairs.length))
  · intro uncontested
    rw [le_antisymm (once uncontested) (once' uncontested)]

end Lists

section Contest

variable {tree other partner second : Expr}

theorem bestPartner_first (comparable : tree.Comparable) (comparablePartner : partner.Comparable)
    (comparableSecond : second.Comparable) (similar : tree.Similar partner)
    (notMore : (tree.commonShare second).value ≤ (tree.commonShare partner).value) (i j : Nat) :
    tree.bestPartner none [(partner, i), (second, j)] =
      .ok (some (i, tree.commonShare partner)) := by
  simp only [bestPartner, similarity_of_comparable comparable comparablePartner,
    similarity_of_comparable comparable comparableSecond, ok_bind, improves_none_iff.mpr similar,
    if_true, (improves_some_iff similar).not.mpr (not_lt.mpr notMore)]
  simp

theorem bestPartner_only (comparable : tree.Comparable) (comparablePartner : partner.Comparable)
    (similar : tree.Similar partner) (i : Nat) :
    tree.bestPartner none [(partner, i)] = .ok (some (i, tree.commonShare partner)) := by
  simp only [bestPartner, similarity_of_comparable comparable comparablePartner, ok_bind,
    improves_none_iff.mpr similar, if_true]

theorem bestPartner_none (comparable : tree.Comparable) (comparablePartner : partner.Comparable)
    (unlike : ¬tree.Similar partner) (i : Nat) :
    tree.bestPartner none [(partner, i)] = .ok none := by
  simp only [bestPartner, similarity_of_comparable comparable comparablePartner, ok_bind,
    improves_none_iff.not.mpr unlike]
  simp

/-- A tree that takes the only partner of another one while it has a second one itself: the two are
paired in one order only. -/
theorem similarityOfTrees_contested (comparable : tree.Comparable)
    (comparableOther : other.Comparable) (comparablePartner : partner.Comparable)
    (comparableSecond : second.Comparable) (similar : tree.Similar partner)
    (similarSecond : tree.Similar second)
    (notMore : (tree.commonShare second).value ≤ (tree.commonShare partner).value)
    (similarOther : other.Similar partner) (unlike : ¬other.Similar second) :
    similarityOfTrees [tree, other] [partner, second] = .ok (some ⟨2, 4⟩) ∧
      similarityOfTrees [other, tree] [partner, second] = .ok (some ⟨4, 4⟩) := by
  have less : (other.commonShare second).value ≤ (other.commonShare partner).value :=
    (not_le.mp unlike).le.trans similarOther
  have first := bestPartner_first comparable comparablePartner comparableSecond similar notMore 0 1
  have firstOther :=
    bestPartner_first comparableOther comparablePartner comparableSecond similarOther less 0 1
  have alone := bestPartner_none comparableOther comparableSecond unlike 1
  have last := bestPartner_only comparable comparableSecond similarSecond 1
  constructor
  · have paired : partners [(tree, 0), (other, 1)] [(partner, 0), (second, 1)] =
        .ok [⟨0, 0, tree.commonShare partner⟩] := by
      simp [partners, first, alone]
    simp [similarityOfTrees, paired, Overlap.share]
  · have paired : partners [(other, 0), (tree, 1)] [(partner, 0), (second, 1)] =
        .ok [⟨0, 0, other.commonShare partner⟩, ⟨1, 1, tree.commonShare second⟩] := by
      simp [partners, firstOther, last]
    simp [similarityOfTrees, paired, Overlap.share]

end Contest

/-- Choices cost nothing exactly when no selection of the trees has a score that depends on its
order. -/
theorem uncontested_iff (comparable : ∀ tree ∈ left, tree.Comparable)
    (comparableRight : ∀ tree ∈ right, tree.Comparable) :
    Uncontested left right ↔ ∀ chosen chosen' rivals rivals' : List Expr,
      chosen.Subperm left → rivals.Subperm right → chosen'.Perm chosen → rivals'.Perm rivals →
      similarityOfTrees chosen' rivals' = similarityOfTrees chosen rivals := by
  constructor
  · intro uncontested chosen chosen' rivals rivals' among amongRight reordered reorderedRight
    obtain ⟨result, result', scored, scored', -, -, same⟩ := similarityOfTrees_perm
      (fun tree member => comparable tree (among.subset member))
      (fun tree member => comparableRight tree (amongRight.subset member)) reordered reorderedRight
    rw [scored, scored', same (uncontested.mono among amongRight)]
  · intro anyOrder tree isTree other isOther partner isPartner second isSecond similar similarSecond
      notMore similarOther
    by_contra unlike
    obtain ⟨once, twice⟩ :=
      similarityOfTrees_contested (comparable tree isTree) (comparable other isOther)
      (comparableRight partner isPartner) (comparableRight second isSecond) similar similarSecond
        notMore
      similarOther unlike
    have differ : tree ≠ other := by
      rintro rfl
      exact unlike similarSecond
    have differRight : partner ≠ second := by
      rintro rfl
      exact unlike similarOther
    have among : [tree, other].Subperm left :=
      List.subperm_of_subset (by simpa using differ)
        (List.cons_subset.mpr ⟨isTree, by simpa using isOther⟩)
    have amongRight : [partner, second].Subperm right :=
      List.subperm_of_subset (by simpa using differRight)
        (List.cons_subset.mpr ⟨isPartner, by simpa using isSecond⟩)
    have same := anyOrder [tree, other] [other, tree] [partner, second] [partner, second] among
      amongRight (.swap _ _ _) (.refl _)
    rw [once, twice] at same
    simp at same

theorem exists_mapM_parse_of_perm {sources others : List String} {trees : List Expr}
    (parsed : sources.mapM parse = .ok trees) (reordered : others.Perm sources) :
    ∃ found, others.mapM parse = .ok found ∧ found.Perm trees := by
  obtain ⟨found, parsedOthers, same⟩ := List.perm_comp_forall₂ reordered (mapM_eq_ok.mp parsed)
  exact ⟨found, mapM_eq_ok.mpr parsedOthers, same⟩

/-- Where choices cost nothing, the score of two lists of predicates does not depend on their order,
and that is exactly where it depends on no order for any selection of their trees either.  In every
case another order at most doubles the score. -/
theorem similarityOfTextSets_perm {left right left' right' : List String} {first second : List Expr}
    (parsedLeft : left.mapM parse = .ok first) (parsedRight : right.mapM parse = .ok second)
    (plainLeft : ∀ tree ∈ first, tree.PlainCalls) (plainRight : ∀ tree ∈ second, tree.PlainCalls)
    (reordered : left'.Perm left) (reorderedRight : right'.Perm right) :
    (Uncontested (first.flatMap parts) (second.flatMap parts) →
      similarityOfTextSets left' right' = similarityOfTextSets left right) ∧
    (Uncontested (first.flatMap parts) (second.flatMap parts) ↔
      ∀ chosen chosen' rivals rivals' : List Expr, chosen.Subperm (first.flatMap parts) →
        rivals.Subperm (second.flatMap parts) → chosen'.Perm chosen → rivals'.Perm rivals →
        similarityOfTrees chosen' rivals' = similarityOfTrees chosen rivals) ∧
    ∃ result result', similarityOfTextSets left right = .ok result ∧
      similarityOfTextSets left' right' = .ok result' ∧ (result' = none ↔ result = none) ∧
      ∀ share ∈ result, ∀ share' ∈ result', share'.value ≤ 2 * share.value := by
  have comparable := comparable_parts ((parsed_of_mapM parsedLeft).comparable plainLeft)
  have comparableRight := comparable_parts ((parsed_of_mapM parsedRight).comparable plainRight)
  obtain ⟨first', parsedLeft', same⟩ := exists_mapM_parse_of_perm parsedLeft reordered
  obtain ⟨second', parsedRight', sameRight⟩ := exists_mapM_parse_of_perm parsedRight reorderedRight
  obtain ⟨result, result', scored, scored', missing, twice, once⟩ :=
    similarityOfTrees_perm comparable
    comparableRight (same.flatMap_right parts) (sameRight.flatMap_right parts)
  rw [← similarityOfSets, ← similarityOfTextSets_eq parsedLeft parsedRight] at scored
  rw [← similarityOfSets, ← similarityOfTextSets_eq parsedLeft' parsedRight'] at scored'
  refine ⟨?_, uncontested_iff comparable comparableRight, result, result', scored, scored', missing,
    twice⟩
  intro uncontested
  rw [scored, scored', once uncontested]

/-- Two bounds that are similar to themselves only, in either order on either side. -/
theorem bounds_in_any_order :
    similarityOfTextSets ["b > 2", "a > 1"] ["a > 1", "b > 2"] =
      similarityOfTextSets ["a > 1", "b > 2"] ["b > 2", "a > 1"] := by
  have comparable := comparable_of_parse parse_above_one (plainCalls_above _ _)
  have comparableTwo := comparable_of_parse parse_above_two (plainCalls_above _ _)
  have unlike : ¬(above "a" 1).Similar (above "b" 2) := by
    rw [similar_iff_of_similarity comparable comparableTwo rfl]
    decide
  have unlikeTwo : ¬(above "b" 2).Similar (above "a" 1) := by
    rw [similar_iff_of_similarity comparableTwo comparable rfl]
    decide
  have plain : ∀ tree ∈ [above "a" 1, above "b" 2], tree.PlainCalls := by
    simp [plainCalls_above]
  have plainRight : ∀ tree ∈ [above "b" 2, above "a" 1], tree.PlainCalls := by
    simp [plainCalls_above]
  have parsed := mapM_eq_ok.mpr (.cons parse_above_one (.cons parse_above_two .nil))
  have parsedRight := mapM_eq_ok.mpr (.cons parse_above_two (.cons parse_above_one .nil))
  refine (similarityOfTextSets_perm parsed parsedRight plain plainRight (.swap _ _ _)
    (.swap _ _ _)).1 ?_
  have own : ∀ tree ∈ [above "a" 1, above "b" 2], ∀ partner ∈ [above "b" 2, above "a" 1],
      tree.Similar partner → tree = partner := by
    simp [unlike, unlikeTwo]
  intro tree isTree other _ partner isPartner second isSecond similar similarSecond _ similarOther
  obtain rfl := own tree isTree partner isPartner similar
  obtain rfl := own tree isTree second isSecond similarSecond
  exact similarOther

def oneOf (id : String) (choices : List Int) : Expr :=
  .compare (.name id .load) [.member]
    [.list (choices.map fun choice => .number (.int choice)) .load]

/-- The same choices in another order: only the tree that has two similar ones may choose last. -/
theorem order_matters :
    ∃ first second,
      ["a in [1, 2, 3]", "a in [1, 2, 4]"].mapM parse = .ok first ∧
      ["a in [1, 2, 3]", "a in [1, 5, 3]"].mapM parse = .ok second ∧
      (∀ tree ∈ first, tree.PlainCalls) ∧ (∀ tree ∈ second, tree.PlainCalls) ∧
      similarityOfTextSets ["a in [1, 2, 4]", "a in [1, 2, 3]"] ["a in [1, 2, 3]",
        "a in [1, 5, 3]"] ≠
        similarityOfTextSets ["a in [1, 2, 3]", "a in [1, 2, 4]"] ["a in [1, 2, 3]",
          "a in [1, 5, 3]"] := by
  have middle : parse "a in [1, 2, 3]" = .ok (oneOf "a" [1, 2, 3]) :=
    parse_of_render? (Bare.readable (by decide)) (by decide) rfl
  have near : parse "a in [1, 2, 4]" = .ok (oneOf "a" [1, 2, 4]) :=
    parse_of_render? (Bare.readable (by decide)) (by decide) rfl
  have far : parse "a in [1, 5, 3]" = .ok (oneOf "a" [1, 5, 3]) :=
    parse_of_render? (Bare.readable (by decide)) (by decide) rfl
  have plain (choices : List Int) : (oneOf "a" choices).PlainCalls := by
    rw [plainCalls_iff]
    simp [oneOf, nodes, nodesOfAll, nodesOfAll_eq_flatMap]
  have parsedRight := mapM_eq_ok.mpr (.cons middle (.cons far .nil))
  have parsed := mapM_eq_ok.mpr (.cons middle (.cons near .nil))
  have parsedAgain := mapM_eq_ok.mpr (.cons near (.cons middle .nil))
  refine ⟨_, _, parsed, parsedRight, by simp [plain], by simp [plain], ?_⟩
  have once : similarityOfTrees [oneOf "a" [1, 2, 3], oneOf "a" [1, 2, 4]]
      [oneOf "a" [1, 2, 3], oneOf "a" [1, 5, 3]] = .ok (some ⟨2, 4⟩) := rfl
  have twice : similarityOfTrees [oneOf "a" [1, 2, 4], oneOf "a" [1, 2, 3]]
      [oneOf "a" [1, 2, 3], oneOf "a" [1, 5, 3]] = .ok (some ⟨4, 4⟩) := rfl
  rw [similarityOfTextSets_eq parsed parsedRight, similarityOfTextSets_eq parsedAgain parsedRight]
  intro same
  cases twice.symm.trans (same.trans once)

/-! ## The same predicates -/

theorem exists_same_kinds {tree : Expr × Nat} {rest : List (Expr × Nat)}
    (same : (bag (tree :: rest)).map predicateKinds = (bag candidates).map predicateKinds) :
    ∃ candidate ∈ candidates, tree.1.predicateKinds = candidate.1.predicateKinds := by
  have member : tree.1.predicateKinds ∈ (bag candidates).map predicateKinds := by
    rw [← same, bag_cons, Multiset.map_cons]
    exact Multiset.mem_cons_self _ _
  obtain ⟨partner, isPartner, sameKinds⟩ := Multiset.mem_map.mp member
  obtain ⟨candidate, isCandidate, rfl⟩ := mem_bag.mp isPartner
  exact ⟨candidate, isCandidate, sameKinds.symm⟩

/-- If the trees on both sides are of the same kinds, as often on one side as on the other, every
tree is paired: each takes one of its own kinds, so that the same is true of the trees that are
left. -/
theorem Greedy.length_eq (greedy : Greedy trees candidates pairs)
    (same : (bag trees).map predicateKinds = (bag candidates).map predicateKinds) :
    pairs.length = trees.length := by
  induction greedy with
  | done => rfl
  | pass unlike _ _ =>
    obtain ⟨candidate, isCandidate, sameKinds⟩ := exists_same_kinds same
    have whole := value_commonShare_eq_one_iff.mpr sameKinds
    refine absurd ?_ (unlike candidate isCandidate)
    rw [Similar, whole]
    norm_num
  | @take tree partner _ _ _ _ taken _ most _ ih =>
    obtain ⟨candidate, isCandidate, sameKinds⟩ := exists_same_kinds same
    have whole := value_commonShare_eq_one_iff.mpr sameKinds
    have samePartner : tree.1.predicateKinds = partner.1.predicateKinds := by
      refine value_commonShare_eq_one_iff.mp (le_antisymm value_commonShare_le_one ?_)
      exact whole.symm.le.trans (most candidate isCandidate)
    rw [bag_of_perm taken, bag_cons, bag_cons, Multiset.map_cons, Multiset.map_cons, samePartner,
      Multiset.cons_inj_right] at same
    rw [List.length_cons, List.length_cons, ih same]

theorem similarityOfSets_self {first second : List Expr} (parsed : Parsed first)
    (plain : ∀ tree ∈ first, tree.PlainCalls) (reordered : second.Perm first) :
    ∃ result, similarityOfSets first second = .ok result ∧ (result = none ↔ first = []) ∧
      ∀ share ∈ result, share.denominator ≠ 0 ∧ share.value = 1 := by
  have sameParts := reordered.flatMap_right parts
  have comparable := comparable_parts (parsed.comparable plain)
  obtain ⟨pairs, -, greedy, -, -, scored⟩ := similarityOfTrees_eq comparable
    fun tree member => comparable tree (sameParts.mem_iff.mp member)
  have all : pairs.length = (first.flatMap parts).length := by
    have same : bag (first.flatMap parts).zipIdx = bag (second.flatMap parts).zipIdx := by
      rw [bag_zipIdx, bag_zipIdx, Multiset.coe_eq_coe]
      exact sameParts.symm
    rw [greedy.length_eq (congrArg _ same), List.length_zipIdx]
  have empty_iff : (first.flatMap parts).length + (first.flatMap parts).length = 0 ↔
      first = [] := by
    rw [Nat.add_eq_zero_iff, and_self, List.length_eq_zero_iff,
      flatMap_parts_eq_nil_iff parsed.splits]
  rw [sameParts.length_eq, all] at scored
  refine ⟨_, scored, ?_, ?_⟩
  · rw [← empty_iff]
    split <;> simp_all
  · split
    · simp
    next someTree =>
      intro share isShare
      cases isShare
      refine ⟨someTree, ?_⟩
      rw [Share.value, div_eq_one_iff_eq (by exact_mod_cast someTree)]
      exact_mod_cast Nat.two_mul _

end Expr

/-! ## An operation and itself -/

theorem Condition.parse_text (source : String) :
    Condition.parse (some (.text source)) = Expr.parse source := rfl

variable {conditions : List Condition} {trees : List Expr}

theorem Condition.parsed_of_mapM (parsed : conditions.mapM Condition.parse = .ok trees) :
    Expr.Parsed trees := by
  intro tree member
  obtain ⟨condition, -, parsed⟩ := exists_of_mem_mapM parsed member
  obtain ⟨source, -, parsed⟩ := bind_eq_ok.mp parsed
  exact ⟨source, parsed⟩

theorem Share.atLeast_of_value_eq_one {share : Share} (defined : share.denominator ≠ 0)
    (whole : share.value = 1) : share.atLeast 85 = true := by
  rw [atLeast_iff defined, whole]
  norm_num

theorem similarityOfConditions_self (parsed : conditions.mapM Condition.parse = .ok trees)
    (plain : ∀ tree ∈ trees, tree.PlainCalls) :
    ∃ result, similarityOfConditions conditions conditions = .ok result ∧
      (result = none ↔ conditions = []) ∧ ∀ share ∈ result, share.atLeast 85 = true := by
  have empty_iff : trees = [] ↔ conditions = [] := by
    rw [← List.length_eq_zero_iff, ← List.length_eq_zero_iff, (mapM_eq_ok.mp parsed).length_eq]
  obtain ⟨result, scored, missing, whole⟩ :=
    Expr.similarityOfSets_self (Condition.parsed_of_mapM parsed) plain (.refl trees)
  refine ⟨result, ?_, missing.trans empty_iff, ?_⟩
  · rw [similarityOfConditions, parsed]
    exact scored
  · intro share isShare
    exact Share.atLeast_of_value_eq_one (whole share isShare).1 (whole share isShare).2

theorem methodsAgree_self (method : Label) : methodsAgree method method = .ok true := by
  cases method with
  | text value => simp [methodsAgree, Label.sorted]
  | texts values => simp [methodsAgree, Label.sorted]

theorem Likeness.isClose_iff {likeness : Likeness}
    (before : ∀ share ∈ likeness.before, share.atLeast 85 = true)
    (after : ∀ share ∈ likeness.after, share.atLeast 85 = true) :
    likeness.isClose = true ↔ likeness.before ≠ none ∨ likeness.after ≠ none := by
  obtain ⟨first, second⟩ := likeness
  cases first <;> cases second <;> simp_all [isClose]

theorem Operation.isLike_self {api : Api} {operation : Operation} {before after : List Condition}
    {treesBefore treesAfter : List Expr} (required : operation.preConditions api = .ok before)
    (ensured : operation.postConditions api = .ok after)
    (parsed : before.mapM Condition.parse = .ok treesBefore)
    (parsedAfter : after.mapM Condition.parse = .ok treesAfter)
    (plain : ∀ tree ∈ treesBefore, tree.PlainCalls)
    (plainAfter : ∀ tree ∈ treesAfter, tree.PlainCalls) :
    ∃ close, Operation.isLike api operation api operation = .ok close ∧
      (close = true ↔ before ≠ [] ∨ after ≠ []) := by
  obtain ⟨first, scored, missing, enough⟩ := similarityOfConditions_self parsed plain
  obtain ⟨second, scoredAfter, missingAfter, enoughAfter⟩ :=
    similarityOfConditions_self parsedAfter plainAfter
  refine ⟨(Likeness.mk first second).isClose, ?_, ?_⟩
  · rw [Operation.isLike, Operation.likeness, methodsAgree_self, ok_bind, if_pos rfl, required,
      ensured]
    simp only [ok_bind, scored, scoredAfter, pure_eq_ok]
  · rw [Likeness.isClose_iff enough enoughAfter, Ne, Ne, missing, missingAfter]

/-- A list of predicates and the same predicates in another order match fully, and an operation is
like itself exactly if it has a condition. -/
theorem same_predicates_match :
    (∀ (left right : List String) (trees : List Expr), left ≠ [] →
      left.mapM Expr.parse = .ok trees →
      (∀ tree ∈ trees, tree.PlainCalls) → right.Perm left →
      ∃ share, Expr.similarityOfTextSets left right = .ok (some share) ∧ share.denominator ≠ 0 ∧
        share.value = 1) ∧
    ∀ (api : Api) (operation : Operation) (before after : List Condition)
      (treesBefore treesAfter : List Expr), operation.preConditions api = .ok before →
      operation.postConditions api = .ok after → before.mapM Condition.parse = .ok treesBefore →
      after.mapM Condition.parse = .ok treesAfter → (∀ tree ∈ treesBefore, tree.PlainCalls) →
      (∀ tree ∈ treesAfter, tree.PlainCalls) →
      ∃ close, Operation.isLike api operation api operation = .ok close ∧
        (close = true ↔ before ≠ [] ∨ after ≠ []) := by
  constructor
  · intro left right trees nonempty parsed plain reordered
    obtain ⟨found, parsedRight, same⟩ := Expr.exists_mapM_parse_of_perm parsed reordered
    obtain ⟨result, scored, missing, whole⟩ :=
      Expr.similarityOfSets_self (Expr.parsed_of_mapM parsed) plain same
    have someTree : trees ≠ [] := by
      intro empty
      rw [empty, mapM_eq_ok, List.forall₂_nil_right_iff] at parsed
      exact nonempty parsed
    obtain ⟨share, isShare⟩ := Option.ne_none_iff_exists'.mp (missing.not.mpr someTree)
    refine ⟨share, ?_, whole share isShare⟩
    rw [Expr.similarityOfTextSets_eq parsed parsedRight, scored, isShare]
  · intro api operation before after treesBefore treesAfter required ensured parsed parsedAfter
      plain plainAfter
    exact Operation.isLike_self required ensured parsed parsedAfter plain plainAfter

namespace Raise

/-- An amount is raised beyond a bound. -/
def operation : Operation :=
  { name := "raise", method := "POST", output := some
      { status := .int 200 }, requires := [some "a > 1"], ensures := [some "b > 2"] }

def api : Api :=
  { name := "amounts", base := ["/"]
    resources := [{
      name := "amount", path := "/amount", operations := [operation] }] }

end Raise

/-- One bound is there twice, and the operation has a condition on either side. -/
theorem bounds_match_themselves :
    (∃ share, Expr.similarityOfTextSets ["a > 1", "a > 1", "b > 2"] ["b > 2", "a > 1", "a > 1"] =
      .ok (some share) ∧ share.value = 1) ∧
    Operation.isLike Raise.api Raise.operation Raise.api Raise.operation = .ok true := by
  constructor
  · have parsed := mapM_eq_ok.mpr
      (.cons Expr.parse_above_one (.cons Expr.parse_above_one (.cons Expr.parse_above_two .nil)))
    obtain ⟨share, scored, -, whole⟩ :=
      same_predicates_match.1 _ ["b > 2", "a > 1", "a > 1"] _ (by simp)
      parsed (by simp [Expr.plainCalls_above]) (by decide)
    exact ⟨share, scored, whole⟩
  · have parsed : [some (.text "a > 1")].mapM Condition.parse = .ok [Expr.above "a" 1] :=
      mapM_eq_ok.mpr (.cons ((Condition.parse_text _).trans Expr.parse_above_one) .nil)
    have parsedAfter : [some (.text "b > 2")].mapM Condition.parse = .ok [Expr.above "b" 2] :=
      mapM_eq_ok.mpr (.cons ((Condition.parse_text _).trans Expr.parse_above_two) .nil)
    obtain ⟨close, compared, isClose_iff⟩ :=
      same_predicates_match.2 Raise.api Raise.operation _ _ _ _ rfl rfl
      parsed parsedAfter (by simp [Expr.plainCalls_above]) (by simp [Expr.plainCalls_above])
    rw [compared, isClose_iff.mpr (by simp [Raise.operation])]

end ApiDescription
