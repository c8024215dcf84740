import ApiDescription.Proofs.Similarity
import ApiDescription.Proofs.Splitting

/-!
# Pairing predicates

Two lists of predicates are compared by pairing the trees they split into.  The trees on the left
choose one after the other, each the most similar tree that is left on the right, if one is similar
enough.

`Greedy` says what such a run can do: pass a tree over, or take the best candidate away.  Everything
about the pairs follows from it by induction along the run: they are a partial injection between
similar trees, no two similar trees are both left over, and so their number is well defined as a
share of all trees.
-/

namespace ApiDescription

open Outcome List

/-! ## Shares as rationals -/

namespace Share

variable {share other : Share}

theorem atLeast_iff (defined : share.denominator ≠ 0) (percent : Nat) :
    share.atLeast percent = true ↔ (percent : ℚ) / 100 ≤ share.value := by
  have positive : (0 : ℚ) < share.denominator := by exact_mod_cast Nat.pos_of_ne_zero defined
  rw [atLeast, decide_eq_true_iff, value, div_le_div_iff₀ (by norm_num) positive,
    mul_comm (share.numerator : ℚ)]
  exact_mod_cast Iff.rfl

theorem exceeds_iff (defined : share.denominator ≠ 0) (definedOther : other.denominator ≠ 0) :
    share.exceeds other = true ↔ other.value < share.value := by
  have positive : (0 : ℚ) < share.denominator := by exact_mod_cast Nat.pos_of_ne_zero defined
  have positiveOther : (0 : ℚ) < other.denominator := by
    exact_mod_cast Nat.pos_of_ne_zero definedOther
  rw [exceeds, decide_eq_true_iff, value, value, div_lt_div_iff₀ positiveOther positive]
  exact_mod_cast Iff.rfl

end Share

/-! ## Similar trees -/

namespace Expr

def Comparable (tree : Expr) : Prop :=
  ∀ node ∈ tree.predicateNodes, node.Comparable

/-- The share of the kinds of nodes that two trees have in common. -/
def commonShare (left right : Expr) : Share :=
  ⟨2 * (left.predicateKinds ∩ right.predicateKinds).card,
    left.predicateKinds.card + right.predicateKinds.card⟩

/-- Two trees that may be paired. -/
def Similar (left right : Expr) : Prop :=
  9 / 10 ≤ (left.commonShare right).value

variable {tree left right : Expr}

theorem commonShare_denominator_ne_zero : (left.commonShare right).denominator ≠ 0 := by
  simp [commonShare, predicateKinds]

theorem similarity_of_comparable (comparable : left.Comparable)
    (comparableRight : right.Comparable) :
    left.similarity right = .ok (left.commonShare right) := by
  have overlap := Overlap.of_eq comparable comparableRight (predicateKinds_eq left).symm
    (predicateKinds_eq right).symm
  rw [similarity, overlap, ok_bind, pure_eq_ok, Overlap.share, card_add_card, commonShare]

theorem similar_iff_atLeast : left.Similar right ↔ (left.commonShare right).atLeast 90 = true := by
  rw [Share.atLeast_iff commonShare_denominator_ne_zero, Similar]
  norm_num

theorem similar_iff_of_similarity (comparable : left.Comparable)
    (comparableRight : right.Comparable) {share : Share}
    (measured : left.similarity right = .ok share) :
    left.Similar right ↔ share.atLeast 90 = true := by
  rw [similarity_of_comparable comparable comparableRight] at measured
  rw [similar_iff_atLeast, Except.ok.inj measured]

theorem value_commonShare_le_one : (left.commonShare right).value ≤ 1 := by
  have whole := card_add_card left.predicateKinds right.predicateKinds
  refine div_le_one_of_le₀ ?_ (Nat.cast_nonneg _)
  exact_mod_cast (by omega : 2 * (left.predicateKinds ∩ right.predicateKinds).card ≤
    left.predicateKinds.card + right.predicateKinds.card)

theorem value_commonShare_eq_one_iff :
    (left.commonShare right).value = 1 ↔ left.predicateKinds = right.predicateKinds := by
  have defined : ((left.commonShare right).denominator : ℚ) ≠ 0 := by
    exact_mod_cast commonShare_denominator_ne_zero
  rw [Share.value, div_eq_one_iff_eq defined, ← two_mul_card_inter_eq_iff]
  exact_mod_cast Iff.rfl

theorem Comparable.part (comparable : tree.Comparable) {part : Expr} (isPart : part ∈ tree.parts) :
    part.Comparable := by
  cases tree with
  | connect connective operands =>
    intro node member
    rw [predicateNodes, mem_append] at member
    apply comparable
    rw [predicateNodes, mem_append]
    refine member.imp_left fun inPart => ?_
    rw [nodes, mem_append, mem_cons, nodesOfAll_eq_flatMap, mem_flatMap]
    exact .inl (.inr ⟨part, isPart, inPart⟩)
  | _ =>
    obtain rfl := mem_singleton.mp isPart
    exact comparable

/-! ## The best partner -/

/-- A choice for a tree among candidates: the place and the share of a most similar one, or none if
none is similar enough. -/
def IsBest (tree : Expr) (candidates : List (Expr × Nat)) : Option (Nat × Share) → Prop
  | none => ∀ candidate ∈ candidates, ¬tree.Similar candidate.1
  | some (place, share) => ∃ chosen ∈ candidates,
      chosen.2 = place ∧ tree.commonShare chosen.1 = share ∧ tree.Similar chosen.1 ∧
        ∀ candidate ∈ candidates,
          (tree.commonShare candidate.1).value ≤ (tree.commonShare chosen.1).value

variable {candidate : Expr} {seen : List (Expr × Nat)} {best : Option (Nat × Share)}

theorem improves_none_iff :
    (tree.commonShare candidate).improves none = true ↔ tree.Similar candidate := by
  rw [Share.improves, Bool.and_true, similar_iff_atLeast]

theorem improves_some_iff {chosen : Expr} {place : Nat} (similar : tree.Similar chosen) :
    (tree.commonShare candidate).improves (some (place, tree.commonShare chosen)) = true ↔
      (tree.commonShare chosen).value < (tree.commonShare candidate).value := by
  rw [Share.improves, Bool.and_eq_true, ← similar_iff_atLeast,
    Share.exceeds_iff commonShare_denominator_ne_zero commonShare_denominator_ne_zero]
  exact and_iff_right_of_imp fun more => similar.trans more.le

theorem IsBest.step (isBest : tree.IsBest seen best) (candidate : Expr) (place : Nat) :
    tree.IsBest (seen ++ [(candidate, place)])
      (if (tree.commonShare candidate).improves best then some (place, tree.commonShare candidate)
        else best) := by
  cases best with
  | none =>
    by_cases similar : tree.Similar candidate
    · rw [if_pos (improves_none_iff.mpr similar)]
      refine ⟨(candidate, place), by simp, rfl, rfl, similar, ?_⟩
      rw [forall_mem_append, forall_mem_singleton]
      refine ⟨fun other member => ?_, le_rfl⟩
      exact (not_le.mp (isBest other member)).le.trans similar
    · rw [if_neg (improves_none_iff.not.mpr similar)]
      exact forall_mem_append.mpr ⟨isBest, forall_mem_singleton.mpr similar⟩
  | some found =>
    obtain ⟨chosenPlace, chosenShare⟩ := found
    obtain ⟨chosen, isSeen, rfl, rfl, similar, most⟩ := isBest
    by_cases better : (tree.commonShare chosen.1).value < (tree.commonShare candidate).value
    · rw [if_pos ((improves_some_iff similar).mpr better)]
      refine ⟨(candidate, place), by simp, rfl, rfl, similar.trans better.le, ?_⟩
      rw [forall_mem_append, forall_mem_singleton]
      exact ⟨fun other member => (most other member).trans better.le, le_rfl⟩
    · rw [if_neg ((improves_some_iff similar).not.mpr better)]
      refine ⟨chosen, mem_append_left _ isSeen, rfl, rfl, similar, ?_⟩
      rw [forall_mem_append, forall_mem_singleton]
      exact ⟨most, not_lt.mp better⟩

theorem isBest_bestPartner (comparable : tree.Comparable) {candidates : List (Expr × Nat)}
    (all : ∀ candidate ∈ candidates, candidate.1.Comparable) (isBest : tree.IsBest seen best) :
    ∃ choice, tree.bestPartner best candidates = .ok choice ∧
      tree.IsBest (seen ++ candidates) choice := by
  induction candidates generalizing seen best with
  | nil => exact ⟨best, rfl, by simpa using isBest⟩
  | cons candidate rest ih =>
    rw [forall_mem_cons] at all
    obtain ⟨choice, found, isChoice⟩ :=
      ih all.2 (isBest.step candidate.1 candidate.2)
    rw [append_assoc, singleton_append] at isChoice
    refine ⟨choice, ?_, isChoice⟩
    rw [bestPartner, similarity_of_comparable comparable all.1, ok_bind]
    exact found

/-! ## Runs -/

/-- What a run over the trees on the left can do: pass over a tree that no candidate is similar
enough to, or pair it with a most similar candidate and go on without that one. -/
inductive Greedy : List (Expr × Nat) → List (Expr × Nat) → List Partnership → Prop
  | done {candidates : List (Expr × Nat)} : Greedy [] candidates []
  | pass {tree : Expr × Nat} {rest candidates : List (Expr × Nat)} {pairs : List Partnership} :
      (∀ candidate ∈ candidates, ¬tree.1.Similar candidate.1) → Greedy rest candidates pairs →
      Greedy (tree :: rest) candidates pairs
  | take {tree partner : Expr × Nat} {rest candidates remaining : List (Expr × Nat)}
      {pairs : List Partnership} :
      candidates.Perm (partner :: remaining) → tree.1.Similar partner.1 →
      (∀ candidate ∈ candidates,
        (tree.1.commonShare candidate.1).value ≤ (tree.1.commonShare partner.1).value) →
      Greedy rest remaining pairs →
      Greedy (tree :: rest) candidates
        (⟨tree.2, partner.2, tree.1.commonShare partner.1⟩ :: pairs)

variable {trees candidates : List (Expr × Nat)} {pairs : List Partnership}

theorem perm_cons_eraseP (apart : (candidates.map Prod.snd).Nodup) {chosen : Expr × Nat}
    (member : chosen ∈ candidates) :
    candidates.Perm (chosen :: candidates.eraseP fun candidate => candidate.2 == chosen.2) := by
  induction candidates with
  | nil => cases member
  | cons first rest ih =>
    rw [map_cons, nodup_cons] at apart
    rcases mem_cons.mp member with rfl | inRest
    · rw [eraseP_cons_of_pos (by simp)]
    · have elsewhere : first.2 ≠ chosen.2 := by
        intro same
        exact apart.1 (mem_map.mpr ⟨chosen, inRest, same.symm⟩)
      rw [eraseP_cons_of_neg (by simpa using elsewhere)]
      exact ((ih apart.2 inRest).cons first).trans (.swap _ _ _)

theorem greedy_partners (comparable : ∀ tree ∈ trees, tree.1.Comparable)
    (comparableRight : ∀ candidate ∈ candidates, candidate.1.Comparable)
    (apart : (candidates.map Prod.snd).Nodup) :
    ∃ pairs, partners trees candidates = .ok pairs ∧ Greedy trees candidates pairs := by
  induction trees generalizing candidates with
  | nil => exact ⟨[], rfl, .done⟩
  | cons tree rest ih =>
    rw [forall_mem_cons] at comparable
    have atFirst : tree.1.IsBest [] none := forall_mem_nil _
    obtain ⟨choice, found, isBest⟩ := isBest_bestPartner comparable.1 comparableRight atFirst
    rw [nil_append] at isBest
    rw [partners, found, ok_bind]
    cases choice with
    | none =>
      obtain ⟨pairs, paired, greedy⟩ := ih comparable.2 comparableRight apart
      exact ⟨pairs, paired, .pass isBest greedy⟩
    | some choice =>
      obtain ⟨place, share⟩ := choice
      obtain ⟨partner, member, rfl, rfl, similar, most⟩ := isBest
      have taken := perm_cons_eraseP apart member
      have fewer := eraseP_sublist (p := fun candidate => candidate.2 == partner.2)
        (l := candidates)
      obtain ⟨pairs, paired, greedy⟩ := ih comparable.2
        (fun candidate kept => comparableRight candidate (fewer.subset kept))
        (apart.sublist (fewer.map Prod.snd))
      refine ⟨_, ?_, .take taken similar most greedy⟩
      simp only [paired, ok_bind, pure_eq_ok]

namespace Greedy

theorem left_sublist (greedy : Greedy trees candidates pairs) :
    (pairs.map Partnership.left).Sublist (trees.map Prod.snd) := by
  induction greedy with
  | done => exact .slnil
  | pass _ _ ih => exact ih.cons _
  | take _ _ _ _ ih => exact ih.cons_cons _

theorem right_subperm (greedy : Greedy trees candidates pairs) :
    (pairs.map Partnership.right).Subperm (candidates.map Prod.snd) := by
  induction greedy with
  | done => exact nil_subperm
  | pass _ _ ih => exact ih
  | take taken _ _ _ ih =>
    exact ((subperm_cons _).mpr ih).trans (taken.map Prod.snd).symm.subperm

theorem exists_of_mem (greedy : Greedy trees candidates pairs) {pair : Partnership}
    (member : pair ∈ pairs) :
    ∃ tree ∈ trees, ∃ partner ∈ candidates, tree.2 = pair.left ∧ partner.2 = pair.right ∧
      tree.1.commonShare partner.1 = pair.share ∧ tree.1.Similar partner.1 := by
  induction greedy with
  | done => cases member
  | pass _ _ ih =>
    obtain ⟨tree, isTree, rest⟩ := ih member
    exact ⟨tree, mem_cons_of_mem _ isTree, rest⟩
  | @take tree partner _ _ _ _ taken similar _ _ ih =>
    rcases mem_cons.mp member with rfl | later
    · exact ⟨tree, mem_cons_self, partner, taken.mem_iff.mpr mem_cons_self, rfl, rfl, rfl, similar⟩
    · obtain ⟨other, isTree, candidate, isCandidate, rest⟩ := ih later
      exact ⟨other, mem_cons_of_mem _ isTree, candidate,
        taken.mem_iff.mpr (mem_cons_of_mem _ isCandidate), rest⟩

theorem mem_or_mem (greedy : Greedy trees candidates pairs) {tree candidate : Expr × Nat}
    (isTree : tree ∈ trees) (isCandidate : candidate ∈ candidates)
    (similar : tree.1.Similar candidate.1) :
    tree.2 ∈ pairs.map Partnership.left ∨ candidate.2 ∈ pairs.map Partnership.right := by
  induction greedy with
  | done => cases isTree
  | pass none _ ih =>
    rcases mem_cons.mp isTree with rfl | later
    · exact absurd similar (none candidate isCandidate)
    · exact ih later isCandidate
  | take taken _ _ _ ih =>
    rcases mem_cons.mp isTree with rfl | later
    · exact .inl mem_cons_self
    · rcases mem_cons.mp (taken.mem_iff.mp isCandidate) with rfl | left
      · exact .inr mem_cons_self
      · exact (ih later left).imp (mem_cons_of_mem _) (mem_cons_of_mem _)

end Greedy

/-! ## Pairings of lists -/

/-- Pairs that relate the places of two lists one to one.  The trees of a pair are similar enough,
and of two trees that are at least one is in a pair. -/
structure IsPairing (left right : List Expr) (pairs : List Partnership) : Prop where
  left_nodup : (pairs.map Partnership.left).Nodup
  right_nodup : (pairs.map Partnership.right).Nodup
  similar : ∀ pair ∈ pairs, ∃ tree partner, left[pair.left]? = some tree ∧
    right[pair.right]? = some partner ∧ tree.similarity partner = .ok pair.share ∧
    9 / 10 ≤ pair.share.value
  complete : ∀ i j tree partner share, left[i]? = some tree → right[j]? = some partner →
    tree.similarity partner = .ok share → 9 / 10 ≤ share.value →
    i ∈ pairs.map Partnership.left ∨ j ∈ pairs.map Partnership.right

section Lists

variable {left right : List Expr}

theorem nodup_places (trees : List Expr) : (trees.zipIdx.map Prod.snd).Nodup := by
  rw [zipIdx_map_snd]
  exact nodup_range'

theorem forall_zipIdx {property : Expr → Prop} {trees : List Expr}
    (each : ∀ tree ∈ trees, property tree) :
    ∀ tree ∈ trees.zipIdx, property tree.1 := by
  intro tree member
  exact each tree.1 (fst_mem_of_mem_zipIdx member)

theorem Greedy.isPairing (greedy : Greedy left.zipIdx right.zipIdx pairs)
    (comparable : ∀ tree ∈ left, tree.Comparable)
    (comparableRight : ∀ tree ∈ right, tree.Comparable) :
    IsPairing left right pairs where
  left_nodup := (nodup_places left).sublist greedy.left_sublist
  right_nodup := by
    obtain ⟨places, reordered, among⟩ := greedy.right_subperm
    exact reordered.nodup_iff.mp ((nodup_places right).sublist among)
  similar := by
    intro pair member
    obtain ⟨tree, isTree, partner, isPartner, atLeft, atRight, isShare, similar⟩ :=
      greedy.exists_of_mem member
    refine ⟨tree.1, partner.1, ?_, ?_, ?_, ?_⟩
    · rw [← atLeft]
      exact mem_zipIdx_iff_getElem?.mp isTree
    · rw [← atRight]
      exact mem_zipIdx_iff_getElem?.mp isPartner
    · rw [← isShare]
      exact similarity_of_comparable (forall_zipIdx comparable tree isTree)
        (forall_zipIdx comparableRight partner isPartner)
    · rw [← isShare]
      exact similar
  complete := by
    intro i j tree partner share atLeft atRight isShare similar
    have measured := similarity_of_comparable (comparable tree (mem_of_getElem? atLeft))
      (comparableRight partner (mem_of_getElem? atRight))
    obtain rfl : tree.commonShare partner = share := Except.ok.inj (measured.symm.trans isShare)
    have isTree : (tree, i) ∈ left.zipIdx := mem_zipIdx_iff_getElem?.mpr atLeft
    have isPartner : (partner, j) ∈ right.zipIdx := mem_zipIdx_iff_getElem?.mpr atRight
    exact greedy.mem_or_mem isTree isPartner similar

/-- Trees that can be compared have a score: twice the number of pairs over the number of all trees,
unless there are none. -/
theorem similarityOfTrees_eq (comparable : ∀ tree ∈ left, tree.Comparable)
    (comparableRight : ∀ tree ∈ right, tree.Comparable) :
    ∃ pairs, partners left.zipIdx right.zipIdx = .ok pairs ∧ Greedy left.zipIdx right.zipIdx pairs ∧
      pairs.length ≤ left.length ∧ pairs.length ≤ right.length ∧
      similarityOfTrees left right = .ok (if left.length + right.length = 0 then none
        else some ⟨2 * pairs.length, left.length + right.length⟩) := by
  obtain ⟨pairs, paired, greedy⟩ :=
    greedy_partners (forall_zipIdx comparable) (forall_zipIdx comparableRight) (nodup_places right)
  have atMostLeft := greedy.left_sublist.length_le
  have atMostRight := greedy.right_subperm.length_le
  simp only [length_map, length_zipIdx] at atMostLeft atMostRight
  refine ⟨pairs, paired, greedy, atMostLeft, atMostRight, ?_⟩
  have whole : 2 * pairs.length + (left.length - pairs.length) + (right.length - pairs.length) =
      left.length + right.length := by omega
  have nothing : pairs.length + (left.length - pairs.length) + (right.length - pairs.length) = 0 ↔
      left.length + right.length = 0 := by omega
  simp only [similarityOfTrees, paired, ok_bind, pure_eq_ok, Overlap.share, whole, nothing]

end Lists

section Texts

variable {sources : List String} {trees : List Expr}

theorem Parsed.comparable (parsed : Parsed trees) (plain : ∀ tree ∈ trees, tree.PlainCalls) :
    ∀ tree ∈ trees, tree.Comparable := by
  intro tree member
  obtain ⟨source, parsed⟩ := parsed tree member
  exact comparable_of_parse parsed (plain tree member)

theorem comparable_parts (comparable : ∀ tree ∈ trees, tree.Comparable) :
    ∀ part ∈ trees.flatMap parts, part.Comparable := by
  rw [forall_mem_flatMap]
  exact fun tree member part isPart => (comparable tree member).part isPart

theorem flatMap_parts_eq_nil_iff (splits : ∀ tree ∈ trees, tree.Splits) :
    trees.flatMap parts = [] ↔ trees = [] := by
  rw [flatMap_eq_nil_iff]
  constructor
  · intro none
    exact eq_nil_iff_forall_not_mem.mpr fun tree member => splits tree member (none tree member)
  · rintro rfl tree member
    cases member

theorem parts_of_mapM_parse (parsed : sources.mapM parse = .ok trees) :
    (trees.flatMap parts).length = 0 ↔ sources = [] := by
  have sameLength := (mapM_eq_ok.mp parsed).length_eq
  rw [length_eq_zero_iff, flatMap_parts_eq_nil_iff (parsed_of_mapM parsed).splits,
    ← length_eq_zero_iff, ← sameLength, length_eq_zero_iff]

theorem similarityOfTextSets_eq {others : List String} {second : List Expr}
    (parsed : sources.mapM parse = .ok trees) (parsedRight : others.mapM parse = .ok second) :
    similarityOfTextSets sources others = similarityOfSets trees second := by
  rw [similarityOfTextSets, parsed, parsedRight]
  rfl

end Texts

/-- Two lists of predicates are compared by a pairing of the trees they split into.  The score is
missing exactly when both lists are empty, and otherwise twice the number of pairs over the number
of all trees; what is left over on either side is counted exactly. -/
theorem similarityOfTextSets_pairs {left right : List String} {first second : List Expr}
    (parsedLeft : left.mapM parse = .ok first) (parsedRight : right.mapM parse = .ok second)
    (plainLeft : ∀ tree ∈ first, tree.PlainCalls) (plainRight : ∀ tree ∈ second, tree.PlainCalls) :
    ∃ (pairs : List Partnership) (overlap : Overlap),
      partners (first.flatMap parts).zipIdx (second.flatMap parts).zipIdx = .ok pairs ∧
      IsPairing (first.flatMap parts) (second.flatMap parts) pairs ∧
      pairs.length ≤ min (first.flatMap parts).length (second.flatMap parts).length ∧
      overlap.shared = pairs.length ∧
      overlap.shared + overlap.onlyLeft = (first.flatMap parts).length ∧
      overlap.shared + overlap.onlyRight = (second.flatMap parts).length ∧
      (left = [] ∧ right = [] → similarityOfTextSets left right = .ok none) ∧
      (¬(left = [] ∧ right = []) → similarityOfTextSets left right = .ok (some overlap.share) ∧
        overlap.share.denominator ≠ 0 ∧
        overlap.share.value = 2 * pairs.length /
          ((first.flatMap parts).length + (second.flatMap parts).length) ∧
        0 ≤ overlap.share.value ∧ overlap.share.value ≤ 1) := by
  have comparable := comparable_parts ((parsed_of_mapM parsedLeft).comparable plainLeft)
  have comparableRight := comparable_parts ((parsed_of_mapM parsedRight).comparable plainRight)
  obtain ⟨pairs, paired, greedy, atMostLeft, atMostRight, scored⟩ :=
    similarityOfTrees_eq comparable comparableRight
  rw [← similarityOfSets, ← similarityOfTextSets_eq parsedLeft parsedRight] at scored
  have empty_iff : (first.flatMap parts).length + (second.flatMap parts).length = 0 ↔
      left = [] ∧ right = [] := by
    rw [Nat.add_eq_zero_iff, parts_of_mapM_parse parsedLeft, parts_of_mapM_parse parsedRight]
  refine ⟨pairs, ⟨pairs.length, (first.flatMap parts).length - pairs.length,
    (second.flatMap parts).length - pairs.length⟩, paired,
    greedy.isPairing comparable comparableRight,
    le_min atMostLeft atMostRight, rfl, Nat.add_sub_cancel' atMostLeft,
    Nat.add_sub_cancel' atMostRight, ?_, ?_⟩
  · intro empty
    rw [scored, if_pos (empty_iff.mpr empty)]
  · intro notEmpty
    have someTree : (first.flatMap parts).length + (second.flatMap parts).length ≠ 0 :=
      empty_iff.not.mpr notEmpty
    have isShare : (Overlap.mk pairs.length ((first.flatMap parts).length - pairs.length)
        ((second.flatMap parts).length - pairs.length)).share =
        ⟨2 * pairs.length, (first.flatMap parts).length + (second.flatMap parts).length⟩ := by
      simp only [Overlap.share, Share.mk.injEq, true_and]
      omega
    rw [isShare, scored, if_neg someTree]
    refine ⟨rfl, someTree, by simp [Share.value], by rw [Share.value]; positivity, ?_⟩
    rw [Share.value]
    refine div_le_one_of_le₀ ?_ (Nat.cast_nonneg _)
    exact_mod_cast (by omega : 2 * pairs.length ≤
      (first.flatMap parts).length + (second.flatMap parts).length)

/-- The tree of a bound such as `a > 1`. -/
def above (id : String) (limit : Int) : Expr :=
  .compare (.name id .load) [.greater] [.number (.int limit)]

theorem plainCalls_above (id : String) (limit : Int) : (above id limit).PlainCalls := by
  rw [plainCalls_iff]
  simp [above, nodes, nodesOfAll]

theorem parse_above_one : parse "a > 1" = .ok (above "a" 1) :=
  parse_of_render? (Bare.readable (by decide)) (by decide) rfl

theorem parse_above_two : parse "b > 2" = .ok (above "b" 2) :=
  parse_of_render? (Bare.readable (by decide)) (by decide) rfl

/-- The second operand of a conjunction finds its like, and of three trees one is left over. -/
theorem bounds_pairs :
    ∃ share, similarityOfTextSets ["a > 1 and b > 2"] ["b > 2"] = .ok (some share) ∧
      share.value = 2 / 3 := by
  have both : parse "a > 1 and b > 2" = .ok (.connect .conjunction [above "a" 1, above "b" 2]) :=
    parse_of_render? (Bare.readable (by decide)) (by decide) rfl
  obtain ⟨pairs, overlap, paired, -, -, -, -, -, -, scored⟩ := similarityOfTextSets_pairs
    (mapM_eq_ok.mpr (.cons both .nil)) (mapM_eq_ok.mpr (.cons parse_above_two .nil))
    (List.forall_mem_singleton.mpr (plainCalls_iff.mpr (by simp [above, nodes, nodesOfAll])))
    (List.forall_mem_singleton.mpr (plainCalls_above _ _))
  obtain ⟨found, -, value, -⟩ := scored (by simp)
  obtain rfl : [⟨1, 0, ⟨12, 12⟩⟩] = pairs := Except.ok.inj paired
  refine ⟨_, found, value.trans ?_⟩
  norm_num [parts, above]

end Expr

end ApiDescription
