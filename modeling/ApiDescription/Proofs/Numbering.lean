import ApiDescription.Proofs.Variation
import Mathlib.Data.Nat.Basic
import Mathlib.Order.Basic

/-!
# Numbered trees

A tree that is laid out on a sheet takes up a run of numbers, its root the last of them, and the
trees below the root take up runs of their own, one behind the other.  A `Plan` says which tree
stands at each number.

Main statement: `Plan.layable`.
-/

namespace ApiDescription

/-- What stands at a number of a sheet: a tree with its setting, and the lowest number of a node in
it. -/
structure Spot extends Site where
  low : Nat

/-- What stands at the numbers of a sheet. -/
abbrev Plan := Nat → Spot

section Laying

/- What is known of the tree that is laid out, and of its parts. -/
variable {Allowed : Expr → Prop}

/-- A node agrees with what stands at its number: it is the root of that tree, the trees at its
parts come one after the other, and the numbers in them come before its own. -/
structure Plan.Agrees (Allowed : Expr → Prop) (plan : Plan) (number : Nat) (cell : Cell) :
    Prop where
  allowed : Allowed (plan number).tree
  shape : cell.shape = (plan number).tree.shape
  parts : cell.parts.map (fun part => (plan part).toSite) = (plan number).parts
  low_le : (plan number).low ≤ number
  inside : ∀ part ∈ cell.parts, (plan number).low ≤ (plan part).low ∧ part < number
  apart : cell.parts.Pairwise fun left right => left < (plan right).low

def Plan.Covers (Allowed : Expr → Prop) (plan : Plan) (sheet : Sheet) : Prop :=
  ∀ number cell, sheet[number]? = some cell → plan.Agrees Allowed number cell

/-- A plan that is the same for the numbers below a bound. -/
def Plan.Extends (later plan : Plan) (bound : Nat) : Prop :=
  ∀ number < bound, later number = plan number

theorem Plan.Agrees.extend {plan later : Plan} {number bound : Nat} {cell : Cell}
    (agrees : plan.Agrees Allowed number cell) (same : later.Extends plan bound)
    (below : number < bound) : later.Agrees Allowed number cell := by
  have onParts : ∀ part ∈ cell.parts, later part = plan part :=
    fun part isPart => same part ((agrees.inside part isPart).2.trans below)
  constructor
  · rw [same number below]
    exact agrees.allowed
  · rw [same number below]
    exact agrees.shape
  · rw [same number below, ← agrees.parts]
    apply List.map_congr_left
    intro part isPart
    rw [onParts part isPart]
  · rw [same number below]
    exact agrees.low_le
  · intro part isPart
    rw [same number below, onParts part isPart]
    exact agrees.inside part isPart
  · apply agrees.apart.imp_of_mem
    intro left right _ isRight before
    rw [onParts right isRight]
    exact before

/-- Trees laid out behind a sheet one after the other, all in one setting: `parts` are the numbers
of their roots and `whole` is the sheet with them on it. -/
structure Plan.Lays (Allowed : Expr → Prop) (setting : Setting) (trees : List Expr) (sheet : Sheet)
    (plan : Plan) (parts : List Nat) (whole : Sheet) (later : Plan) : Prop where
  same : later.Extends plan sheet.size
  covers : later.Covers Allowed whole
  grows : sheet.size ≤ whole.size
  sites : parts.map (fun part => (later part).toSite) = trees.map (Site.mk setting)
  inside : ∀ part ∈ parts, sheet.size ≤ (later part).low ∧ part < whole.size
  apart : parts.Pairwise fun left right => left < (later right).low

/-- The trees can be laid out behind any sheet in any setting. -/
def Plan.Layable (Allowed : Expr → Prop) (trees : List Expr) : Prop :=
  ∀ (setting : Setting) (sheet : Sheet) (plan : Plan), plan.Covers Allowed sheet → ∃ later,
    Plan.Lays Allowed setting trees sheet plan (sheet.placeAll trees).1 (sheet.placeAll trees).2
      later

theorem Plan.layable_all {trees : List Expr} (each : ∀ tree ∈ trees, Plan.Layable Allowed [tree]) :
    Plan.Layable Allowed trees := by
  induction trees with
  | nil =>
    intro setting sheet plan covers
    exact ⟨plan, fun _ _ => rfl, covers, Nat.le_refl _, rfl, by simp [Sheet.placeAll], .nil⟩
  | cons first rest ih =>
    intro setting sheet plan covers
    rw [List.forall_mem_cons] at each
    obtain ⟨middle, one⟩ := each.1 setting sheet plan covers
    obtain ⟨later, others⟩ := ih each.2 setting _ middle one.covers
    simp only [Sheet.placeAll] at one others ⊢
    obtain ⟨lowest, isInside⟩ := one.inside _ List.mem_cons_self
    have sameFirst := others.same _ isInside
    refine ⟨later, fun number below => ?_, others.covers, one.grows.trans others.grows, ?_, ?_, ?_⟩
    · rw [others.same number (below.trans_le one.grows), one.same number below]
    · rw [List.map_cons, others.sites, sameFirst]
      have firstSite := one.sites
      simp only [List.map_cons, List.map_nil, List.cons.injEq, and_true] at firstSite
      rw [firstSite, List.map_cons]
    · intro part isPart
      cases isPart with
      | head => exact ⟨sameFirst ▸ lowest, isInside.trans_le others.grows⟩
      | tail _ later =>
        obtain ⟨low, high⟩ := others.inside part later
        exact ⟨one.grows.trans low, high⟩
    · apply List.Pairwise.cons _ others.apart
      intro part isPart
      exact isInside.trans_le (others.inside part isPart).1

theorem Plan.layable (closed : ∀ tree, Allowed tree → ∀ child ∈ tree.children, Allowed child)
    (tree : Expr) (allowed : Allowed tree) : Plan.Layable Allowed [tree] := by
  induction tree using Expr.induction_on_children with
  | step tree ih =>
    intro setting sheet plan covers
    have each : ∀ child ∈ tree.children, Plan.Layable Allowed [child] :=
      fun child isChild => ih child isChild (closed tree allowed child isChild)
    obtain ⟨middle, below⟩ := Plan.layable_all each (setting.below tree.shape) sheet plan covers
    have placed : sheet.placeAll [tree] = ([(sheet.placeAll tree.children).2.size],
        (sheet.placeAll tree.children).2.push ⟨tree.shape, (sheet.placeAll tree.children).1⟩) := by
      simp only [Sheet.placeAll, Sheet.place_eq, Sheet.add]
    rw [placed]
    revert below
    generalize (sheet.placeAll tree.children).1 = parts
    generalize (sheet.placeAll tree.children).2 = whole
    intro below
    let later : Plan := Function.update middle whole.size ⟨⟨setting, tree⟩, sheet.size⟩
    have atRoot : later whole.size = ⟨⟨setting, tree⟩, sheet.size⟩ := Function.update_self ..
    have unchanged : later.Extends middle whole.size := fun number below =>
      Function.update_of_ne (Nat.ne_of_lt below) ..
    have onParts : ∀ part ∈ parts, later part = middle part :=
      fun part isPart => unchanged part (below.inside part isPart).2
    refine ⟨later, fun number isOld => ?_, fun number cell found => ?_, ?_, ?_, ?_, ?_⟩
    · rw [unchanged number (isOld.trans_le below.grows), below.same number isOld]
    · rw [Array.getElem?_push] at found
      split at found
      · next isRoot =>
        cases found
        subst isRoot
        constructor
        · rw [atRoot]
          exact allowed
        · rw [atRoot]
        · rw [atRoot, Site.parts, ← below.sites]
          apply List.map_congr_left
          intro part isPart
          rw [onParts part isPart]
        · rw [atRoot]
          exact below.grows
        · intro part isPart
          rw [atRoot, onParts part isPart]
          exact below.inside part isPart
        · apply below.apart.imp_of_mem
          intro left right _ isRight before
          rw [onParts right isRight]
          exact before
      · have isOld := (Array.getElem?_eq_some_iff.mp found).1
        exact (below.covers number cell found).extend unchanged isOld
    · simpa using below.grows.trans (Nat.le_succ _)
    · simp [atRoot]
    · simp [atRoot]
    · simp

end Laying

end ApiDescription
