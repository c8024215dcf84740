import ApiDescription.Expression.Randomizer
import ApiDescription.Proofs.Outcome
import ApiDescription.Proofs.TreeParts

/-!
# Variants of a tree

What may become of a tree when it is varied at random: at every node the same outline, and below it
variants of the same parts; only a tuple may leave out items other than the first, and repeat items.

Main statement: a variant of a tree that has a text has one (`Site.Varies.prints`).
-/

namespace ApiDescription

/-- The comparison that stands for all that it may be exchanged for. -/
def Comparison.outline : Comparison → Comparison
  | .equal | .unequal => .equal
  | .member | .nonMember => .member
  | .less | .lessEqual | .greater | .greaterEqual => .less
  | operator => operator

/-- What stays of a node: not the value of a number, of a text but its length, not which of the
quantifiers, comparisons of one kind or connectives stands there, nor whether a name or a tuple is
read. -/
def Shape.outline : Shape → Shape
  | .name id _ => .name (if id = "exists" then "forall" else id) .load
  | .number _ => .number (.int 0)
  | .text value => .text (String.ofList (List.replicate value.length ' '))
  | .tuple _ => .tuple .load
  | .compare operators => .compare (operators.map Comparison.outline)
  | .connect _ => .connect .conjunction
  | shape => shape

/-- What may become of a node: another of the same outline, and no new integer. -/
structure Shape.Becomes (old new : Shape) : Prop where
  outline : new.outline = old.outline
  integer : ∀ value, new = .number (.int value) → old = new

/-- Where a node stands: at the top, among the items of a tuple, or below a node that is changed in
its place and stands there. -/
inductive Setting where
  | top | item | deep
  deriving DecidableEq

/-- Where the parts of a node stand.  The items of a tuple may be visited twice, each time as they
were made, but what is below an item that is changed in its place is visited again as it was
left. -/
def Setting.below : Setting → Shape → Setting
  | .deep, _ => .deep
  | setting, .connect _ => setting
  | _, .tuple _ => .item
  | .top, _ => .top
  | .item, _ => .deep

/-- A tree and where it stands. -/
structure Site where
  setting : Setting
  tree : Expr

namespace Site

/-- The trees right below a tree with where they stand. -/
def parts (site : Site) : List Site :=
  site.tree.children.map (.mk (site.setting.below site.tree.shape))

/-- The parts of a variant come from all parts of the tree in order, or, for a tuple, from the first
and then from any, and from no more than twice their number unless the tuple stands deep. -/
def Takes {α : Type} (site : Site) (parts sources : List α) : Prop :=
  match site.tree.shape with
  | .tuple _ => sources.head? = parts.head? ∧ sources ⊆ parts ∧
      (site.setting ≠ .deep → sources.length ≤ 2 * parts.length)
  | _ => sources = parts

inductive Varies : Site → Expr → Prop where
  | node {site : Site} {variant : Expr} {sources : List Site}
      (becomes : site.tree.shape.Becomes variant.shape) (takes : site.Takes site.parts sources)
      (vary : List.Forall₂ Varies sources variant.children) : Varies site variant

variable {α : Type} {site : Site}

theorem Takes.refl (site : Site) (parts : List α) : site.Takes parts parts := by
  unfold Takes
  split
  · exact ⟨rfl, List.Subset.refl parts, fun _ => by omega⟩
  · rfl

theorem Takes.map {β : Type} {parts sources : List α} (takes : site.Takes parts sources)
    (view : α → β) :
    site.Takes (parts.map view) (sources.map view) := by
  unfold Takes at takes ⊢
  split at takes
  · obtain ⟨first, among, few⟩ := takes
    refine ⟨by rw [List.head?_map, List.head?_map, first], List.map_subset view among, ?_⟩
    simpa using few
  · rw [takes]

theorem Takes.subset {parts sources : List α} (takes : site.Takes parts sources) :
    sources ⊆ parts := by
  unfold Takes at takes
  split at takes
  · exact takes.2.1
  · rw [takes]
    exact List.Subset.refl parts

end Site

theorem Shape.Becomes.refl (shape : Shape) : shape.Becomes shape :=
  ⟨rfl, fun _ _ => rfl⟩

theorem Shape.Becomes.trans {first second third : Shape} (one : first.Becomes second)
    (two : second.Becomes third) : first.Becomes third where
  outline := two.outline.trans one.outline
  integer value isInteger := by
    have same := two.integer value isInteger
    exact (one.integer value (same.trans isInteger)).trans same

/-! ## Variants can be printed -/

def Expr.Prints (tree : Expr) : Prop :=
  ∃ text, tree.render? = .ok (some text)

/-- Whether a node has a text if its parts have. -/
def Shape.isPrintable : Shape → Bool
  | .number value => value.hasLiteral
  | .dict _ | .spread | .other _ => false
  | .binary operator => operator.symbol?.isSome
  | .unary operator => operator.symbol?.isSome
  | _ => true

/-- The parts that a node is printed with: arguments by name are left out. -/
def Shape.printedParts {α : Type} : Shape → List α → List α
  | .call arguments, parts => parts.take (arguments + 1)
  | _, parts => parts

@[simp] theorem Expr.needed_eq_ok {written : Option String} {text : String} :
    needed written = .ok text ↔ written = some text := by
  cases written <;> simp [needed]

theorem Expr.exists_renderAll_iff {trees : List Expr} :
    (∃ texts, renderAll trees = .ok texts) ↔ ∀ tree ∈ trees, tree.Prints := by
  induction trees with
  | nil => simp [renderAll]
  | cons first rest ih =>
    rw [List.forall_mem_cons, ← ih]
    simp [renderAll, Prints, Outcome.bind_eq_ok]

theorem Expr.prints_iff (tree : Expr) :
    tree.Prints ↔ tree.shape.isPrintable = true ∧ ∀ part ∈ tree.shape.printedParts tree.children,
      part.Prints := by
  cases tree <;>
    simp [Prints, render?, shape, children, Shape.isPrintable, Shape.printedParts,
      Outcome.bind_eq_ok, Option.isSome_iff_exists]
  case number => split <;> simp_all
  case list | tuple | connect => exact exists_renderAll_iff
  case call | compare => exact fun _ _ => exists_renderAll_iff
  case binary => exact and_left_comm

variable {old new : Shape} {α : Type} {site : Site}

theorem Shape.Becomes.isPrintable (becomes : old.Becomes new) (printable : old.isPrintable = true) :
    new.isPrintable = true := by
  obtain ⟨outline, integer⟩ := becomes
  cases new with
  | number value =>
    cases value with
    | int value => rw [← integer value rfl]; exact printable
    | float | complex => rfl
  | _ => cases old <;> simp_all [Shape.outline, Shape.isPrintable]

theorem Shape.printedParts_map {β : Type} (shape : Shape) (view : α → β) (parts : List α) :
    shape.printedParts (parts.map view) = (shape.printedParts parts).map view := by
  cases shape with
  | call arguments => exact (List.map_take ..).symm
  | _ => rfl

theorem Shape.Becomes.printedParts (becomes : old.Becomes new) (parts : List α) :
    new.printedParts parts = old.printedParts parts := by
  have outline := becomes.outline
  cases new <;> cases old <;> simp_all [Shape.outline, Shape.printedParts]

theorem Site.Takes.printedParts {sources : List Site} (takes : site.Takes site.parts sources)
    {source : Site} (printed : source ∈ site.tree.shape.printedParts sources) :
    source.tree ∈ site.tree.shape.printedParts site.tree.children := by
  have among : source ∈ site.tree.shape.printedParts site.parts := by
    unfold Takes at takes
    split at takes
    · next isTuple =>
      rw [isTuple] at printed ⊢
      exact takes.2.1 printed
    · rw [takes] at printed
      exact printed
  rw [Site.parts, Shape.printedParts_map] at among
  obtain ⟨child, isChild, rfl⟩ := List.mem_map.mp among
  exact isChild

theorem Site.Varies.prints {variant : Expr} (varies : site.Varies variant)
    (prints : site.tree.Prints) :
    variant.Prints := by
  induction variant using Expr.induction_on_children generalizing site with
  | step variant ih =>
    obtain @⟨_, _, sources, becomes, takes, vary⟩ := varies
    obtain ⟨printable, ofParts⟩ := (Expr.prints_iff site.tree).mp prints
    apply (Expr.prints_iff variant).mpr
    refine ⟨becomes.isPrintable printable, ?_⟩
    have related : List.Forall₂ Varies (site.tree.shape.printedParts sources)
        (site.tree.shape.printedParts variant.children) := by
      cases site.tree.shape with
      | call arguments => exact List.forall₂_take _ vary
      | _ => exact vary
    intro part printed
    rw [becomes.printedParts] at printed
    obtain ⟨source, isSource, varies⟩ := Outcome.exists_result_of_mem related.flip printed
    have isChild : part ∈ variant.children := by
      cases equal : site.tree.shape with
      | call arguments =>
        rw [equal] at printed
        exact List.mem_of_mem_take printed
      | _ =>
        rw [equal] at printed
        exact printed
    exact ih part isChild varies (ofParts _ (takes.printedParts isSource))

end ApiDescription
