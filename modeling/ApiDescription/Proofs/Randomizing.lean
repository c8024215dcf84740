import ApiDescription.Proofs.Numbering

/-!
# Random variants keep the shape of a predicate

A visit changes nodes in their place or puts new ones behind the sheet.  A `Stage` knows for every
node the node of the first sheet that it came about from; `Layout.visits` says that a visit of a
node ends with one of the same origin.  Nodes at the top are visited once, as they were; so are the
items of a tuple unless they lie below a node that was changed in its place, whose second visit
finds what the first one left.

Main statement: `Expr.randomizeText_varies`.
-/

namespace ApiDescription

open List Shuffle

variable {number size : Nat} {cell : Cell} {origin : Nat → Nat}

/-! ## Sheets on the way -/

/-- Whether a node is replaced by a new one when it changes; all others are changed in their
place. -/
def Shape.isReplaced : Shape → Bool
  | .name _ _ | .number _ | .text _ | .tuple _ | .connect _ => true
  | _ => false

/-- A tree that can be varied: no tuple in it is empty, and every integer is within the range of
doubles. -/
def Expr.Pliable : Expr → Prop :=
  Everywhere fun part => (∀ use, part ≠ .tuple [] use) ∧
    ∀ value, part = .number (.int value) → (Decimal.ofInt value).isInf = false

theorem Expr.pliable_iff (tree : Expr) :
    tree.Pliable ↔ ((∀ use, tree ≠ .tuple [] use) ∧
      ∀ value, tree = .number (.int value) → (Decimal.ofInt value).isInf = false) ∧
      ∀ child ∈ tree.children, child.Pliable :=
  everywhere_iff tree

/-- A sheet with a tree that can be varied. -/
structure Layout where
  sheet : Sheet
  plan : Plan
  covers : plan.Covers Expr.Pliable sheet

/-- A node that came about from the node at a number of the first sheet, when the nodes it is made
of have these origins. -/
structure Layout.Derives (layout : Layout) (origin : Nat → Nat) (size number : Nat) (cell : Cell) :
    Prop where
  becomes : (layout.plan number).tree.shape.Becomes cell.shape
  takes : ∃ first, layout.sheet[number]? = some first ∧
    (layout.plan number).Takes first.parts (cell.parts.map origin)
  inside : ∀ part ∈ cell.parts, part < size

/-- A sheet on the way: every node has its origin on the first sheet.  A node of the first sheet
keeps its number, and is as it was unless it is changed in its place; new nodes never are. -/
structure Stage (layout : Layout) where
  sheet : Sheet
  origin : Nat → Nat
  size_le : layout.sheet.size ≤ sheet.size
  own : ∀ number < layout.sheet.size, origin number = number
  derives : ∀ number cell, sheet[number]? = some cell →
    layout.Derives origin sheet.size (origin number) cell
  kept : ∀ number < layout.sheet.size, (layout.plan number).tree.shape.isReplaced = true →
    sheet[number]? = layout.sheet[number]?
  made : ∀ number cell, layout.sheet.size ≤ number → sheet[number]? = some cell →
    cell.shape.isReplaced = true

variable {layout : Layout} {α β : Type}

/-- Nodes were added, and nodes of the first sheet changed only below a limit. -/
structure Stage.Grows (limit : Nat) (before after : Stage layout) : Prop where
  size_le : before.sheet.size ≤ after.sheet.size
  same : ∀ number < before.sheet.size, after.origin number = before.origin number
  frame : ∀ number < layout.sheet.size, limit ≤ number →
    after.sheet[number]? = before.sheet[number]?

theorem Stage.Grows.refl (limit : Nat) (stage : Stage layout) : Stage.Grows limit stage stage :=
  ⟨Nat.le_refl _, fun _ _ => rfl, fun _ _ _ => rfl⟩

variable {limit : Nat} {before after : Stage layout}

theorem Stage.Grows.trans {first second : Nat} {middle : Stage layout}
    (one : Stage.Grows first before middle) (two : Stage.Grows second middle after)
    (low : first ≤ limit) (alsoLow : second ≤ limit) :
    Stage.Grows limit before after where
  size_le := one.size_le.trans two.size_le
  same number below := by
    rw [two.same number (below.trans_le one.size_le), one.same number below]
  frame number below high := by
    rw [two.frame number below (alsoLow.trans high), one.frame number below (low.trans high)]

theorem Stage.Grows.map_origin (grows : Stage.Grows limit before after) {parts : List Nat}
    (inside : ∀ part ∈ parts, part < before.sheet.size) :
    parts.map after.origin = parts.map before.origin :=
  map_congr_left fun part isPart => grows.same part (inside part isPart)

theorem Layout.Derives.mono {later : Nat → Nat} {more : Nat}
    (derives : layout.Derives origin size number cell)
    (same : ∀ part < size, later part = origin part) (grows : size ≤ more) :
    layout.Derives later more number cell where
  becomes := derives.becomes
  takes := by
    have sameOrigins : cell.parts.map later = cell.parts.map origin :=
      map_congr_left fun part isPart => same part (derives.inside part isPart)
    rw [sameOrigins]
    exact derives.takes
  inside part isPart := (derives.inside part isPart).trans_le grows

/-- Whatever the script, the work ends, and `good` holds of its value and of the stage that it leads
to. -/
def Yields (work : Shuffle α) (before : Stage layout) (good : α → Stage layout → Prop) : Prop :=
  ∀ script, ∃ value after rest,
    work.run ⟨before.sheet, script⟩ = .ok (value, ⟨after.sheet, rest⟩) ∧ good value after

section Work

variable {before : Stage layout} {good : α → Stage layout → Prop}

theorem yields_pure {value : α} (holds : good value before) : Yields (pure value) before good :=
  fun script => ⟨value, before, script, rfl, holds⟩

variable {work : Shuffle α}

theorem Yields.bind {next : α → Shuffle β} {result : β → Stage layout → Prop}
    (first : Yields work before good)
    (later : ∀ value after, good value after → Yields (next value) after result) :
    Yields (work >>= next) before result := by
  intro script
  obtain ⟨value, middle, rest, ran, holds⟩ := first script
  obtain ⟨last, after, left, ranNext, holdsLast⟩ := later value middle holds rest
  refine ⟨last, after, left, ?_, holdsLast⟩
  rw [StateT.run_bind, ran]
  exact ranNext

theorem Yields.mono {weaker : α → Stage layout → Prop} (given : Yields work before good)
    (imp : ∀ value after, good value after → weaker value after) : Yields work before weaker := by
  intro script
  obtain ⟨value, after, rest, ran, holds⟩ := given script
  exact ⟨value, after, rest, ran, imp value after holds⟩

theorem yields_draw_bind {low high : Nat} {next : Nat → Shuffle α}
    (each : ∀ value, Yields (next value) before good) :
    Yields (draw low high >>= next) before good :=
  fun script => each _ script.next.2

theorem yields_coin_bind {next : Bool → Shuffle α} (each : ∀ side, Yields (next side) before good) :
    Yields (coin >>= next) before good :=
  fun script => each _ script.next.2

theorem yields_get_bind {next : Desk → Shuffle α}
    (each : ∀ script, Yields (next ⟨before.sheet, script⟩) before good) :
    Yields (get >>= next) before good :=
  fun script => each script script

theorem yields_randomChars (count : Nat) :
    Yields (randomChars count) before fun value after => after = before ∧ value.length = count := by
  induction count with
  | zero => exact yields_pure ⟨rfl, rfl⟩
  | succ count ih =>
    apply yields_draw_bind
    intro position
    apply ih.bind
    rintro characters after ⟨rfl, length⟩
    exact yields_pure ⟨rfl, by simp [length]⟩

theorem yields_comparison (operator : Comparison) :
    Yields (comparison operator) before fun value after =>
      after = before ∧ value.outline = operator.outline := by
  cases operator with
  | identical | distinct => exact yields_pure ⟨rfl, rfl⟩
  | equal | unequal | member | nonMember =>
    apply yields_coin_bind
    intro side
    cases side <;> exact yields_pure ⟨rfl, rfl⟩
  | less | lessEqual | greater | greaterEqual =>
    apply yields_coin_bind
    intro side
    cases side with
    | false => exact yields_pure ⟨rfl, rfl⟩
    | true =>
      apply yields_draw_bind
      intro choice
      split <;> exact yields_pure ⟨rfl, rfl⟩

theorem yields_comparisons (operators : List Comparison) :
    Yields (operators.mapM comparison) before fun values after =>
      after = before ∧ values.map Comparison.outline = operators.map Comparison.outline := by
  induction operators with
  | nil => exact yields_pure ⟨rfl, rfl⟩
  | cons operator rest ih =>
    rw [mapM_cons]
    apply (yields_comparison operator).bind
    rintro value after ⟨rfl, outline⟩
    apply ih.bind
    rintro values last ⟨rfl, outlines⟩
    exact yields_pure ⟨rfl, by simp [outline, outlines]⟩

theorem Number.exists_multiply (value : Number) (factor : Float)
    (bounded : ∀ integer, value = .int integer → (Decimal.ofInt integer).isInf = false) :
    ∃ product, (Number.float factor).multiply value = .ok product ∧
      ∀ integer, product ≠ .int integer := by
  cases value with
  | int integer =>
    have product : (Number.float factor).multiply (.int integer) =
        (Number.int integer).toFloat >>= fun double => .ok (.float (factor * double)) := rfl
    have double : (Number.int integer).toFloat = .ok (Decimal.ofInt integer) := by
      simp [toFloat, bounded integer rfl]
    exact ⟨.float (factor * Decimal.ofInt integer), by rw [product, double]; rfl, by simp⟩
  | float value => exact ⟨.float (factor * value), rfl, by simp⟩
  | complex real imaginary => exact ⟨_, rfl, by simp⟩

/-- The result of a visit: another node of the same origin, with changes no further than that. -/
structure Stage.Visited (before : Stage layout) (number value : Nat) (after : Stage layout) :
    Prop where
  grows : Stage.Grows (before.origin number + 1) before after
  inside : value < after.sheet.size
  origin : after.origin value = before.origin number

end Work

/-! ## Nodes that are replaced and nodes that are changed -/

section Nodes

variable {first before : Stage layout} {number : Nat} {cell new : Cell}

theorem yields_create (grown : Stage.Grows (first.origin number) first before)
    (derives : layout.Derives before.origin before.sheet.size (first.origin number) new)
    (isReplaced : new.shape.isReplaced = true) :
    Yields (create new) before (first.Visited number) := by
  let origin := Function.update before.origin before.sheet.size (first.origin number)
  have same : ∀ part < before.sheet.size, origin part = before.origin part :=
    fun part isOld => Function.update_of_ne (Nat.ne_of_lt isOld) ..
  have atNew : origin before.sheet.size = first.origin number := Function.update_self ..
  have pushed : ∀ other < layout.sheet.size,
      (before.sheet.push new)[other]? = before.sheet[other]? :=
    fun other isOld =>
      (Array.getElem?_push ..).trans (if_neg (Nat.ne_of_lt (isOld.trans_le before.size_le)))
  have more : before.sheet.size ≤ (before.sheet.push new).size := by simp
  let after : Stage layout := {
    sheet := before.sheet.push new
    origin
    size_le := before.size_le.trans more
    own := fun other isOld => by
      rw [same other (isOld.trans_le before.size_le), before.own other isOld]
    derives := fun other found isFound => by
      rw [Array.getElem?_push] at isFound
      split at isFound
      · next isNew =>
        cases isFound
        rw [isNew, atNew]
        exact derives.mono same more
      · rw [same other (Array.getElem?_eq_some_iff.mp isFound).1]
        exact (before.derives other found isFound).mono same more
    kept := fun other isOld replaced =>
      (pushed other isOld).trans (before.kept other isOld replaced)
    made := fun other found isNew isFound => by
      rw [Array.getElem?_push] at isFound
      split at isFound
      · cases isFound
        exact isReplaced
      · exact before.made other found isNew isFound }
  have step : Stage.Grows 0 before after := ⟨more, same, fun other isOld _ => pushed other isOld⟩
  intro script
  exact ⟨before.sheet.size, after, script, rfl,
    grown.trans step (Nat.le_succ _) (Nat.zero_le _), by simp [after], atNew⟩

theorem Shape.Becomes.isReplaced {old new : Shape} (becomes : old.Becomes new) :
    new.isReplaced = old.isReplaced := by
  have outline := becomes.outline
  cases new <;> cases old <;> simp_all [Shape.outline, Shape.isReplaced]

theorem yields_change (grown : Stage.Grows (first.origin number) first before)
    (found : first.sheet[number]? = some cell) (inPlace : cell.shape.isReplaced = false)
    (derives : layout.Derives before.origin before.sheet.size (first.origin number) new) :
    Yields (do change number new; return number) before (first.Visited number) := by
  have isOld : number < layout.sheet.size := by
    apply Nat.lt_of_not_le
    intro isNew
    rw [first.made number cell isNew found] at inPlace
    cases inPlace
  have own := first.own number isOld
  have inside := isOld.trans_le before.size_le
  have elsewhere : ∀ other, other ≠ number →
      (before.sheet.setIfInBounds number new)[other]? = before.sheet[other]? :=
    fun other different => Array.getElem?_setIfInBounds_ne different.symm
  let after : Stage layout := {
    sheet := before.sheet.setIfInBounds number new
    origin := before.origin
    size_le := by simpa using before.size_le
    own := before.own
    derives := fun other other' isFound => by
      rw [Array.size_setIfInBounds]
      by_cases same : other = number
      · subst same
        rw [Array.getElem?_setIfInBounds_self_of_lt inside] at isFound
        cases isFound
        rw [before.own _ isOld, ← own]
        exact derives
      · rw [elsewhere other same] at isFound
        exact before.derives other other' isFound
    kept := fun other isOther replaced => by
      have different : other ≠ number := by
        rintro rfl
        have becomes := (first.derives other cell found).becomes
        rw [own] at becomes
        rw [← becomes.isReplaced, inPlace] at replaced
        cases replaced
      rw [elsewhere other different]
      exact before.kept other isOther replaced
    made := fun other other' isNew isFound => by
      rw [elsewhere other (Nat.ne_of_gt (isOld.trans_le isNew))] at isFound
      exact before.made other other' isNew isFound }
  have step : Stage.Grows (first.origin number + 1) before after := by
    refine ⟨by simp [after], fun _ _ => rfl, fun other _ high => elsewhere other ?_⟩
    omega
  intro script
  refine ⟨number, after, script, rfl, grown.trans step (Nat.le_succ _) (Nat.le_refl _), ?_, ?_⟩
  · simpa [after] using inside
  · rw [own]
    exact before.own number isOld

theorem Layout.Derives.rebuild (derives : layout.Derives first.origin size number cell)
    {shape : Shape} (becomes : cell.shape.Becomes shape) {values : List Nat}
    (origins : values.map before.origin = cell.parts.map first.origin)
    (inside : ∀ value ∈ values, value < before.sheet.size) :
    layout.Derives before.origin before.sheet.size number ⟨shape, values⟩ where
  becomes := derives.becomes.trans becomes
  takes := origins ▸ derives.takes
  inside := inside

end Nodes

/-! ## Visits -/

/-- A node can be visited: outside of deep settings it is one of the first sheet, and at the top all
is as it was from the lowest number of its tree on. -/
structure Stage.Ready (stage : Stage layout) (number : Nat) : Prop where
  isOld : (layout.plan (stage.origin number)).setting ≠ .deep → number < layout.sheet.size
  fresh : (layout.plan (stage.origin number)).setting = .top → ∀ other,
    (layout.plan (stage.origin number)).low ≤ other → other < layout.sheet.size →
      stage.sheet[other]? = layout.sheet[other]?

/-- Nodes can be visited in turn: at the top each tree lies behind the ones before it. -/
structure Stage.Available (stage : Stage layout) (limit : Nat) (parts : List Nat) : Prop where
  inside : ∀ part ∈ parts, part < stage.sheet.size
  below : ∀ part ∈ parts, stage.origin part < limit
  ready : ∀ part ∈ parts, stage.Ready part
  apart : parts.Pairwise fun left right => (layout.plan (stage.origin right)).setting = .top →
    stage.origin left < (layout.plan (stage.origin right)).low

section Visits

variable {before after : Stage layout} {parts : List Nat} {limit fuel : Nat}

theorem Stage.Available.grow (available : before.Available limit parts) {earlier : Nat}
    (grows : Stage.Grows earlier before after)
    (clear : ∀ part ∈ parts, (layout.plan (before.origin part)).setting = .top →
      earlier ≤ (layout.plan (before.origin part)).low) : after.Available limit parts := by
  have same : ∀ part ∈ parts, after.origin part = before.origin part :=
    fun part isPart => grows.same part (available.inside part isPart)
  constructor
  · exact fun part isPart => (available.inside part isPart).trans_le grows.size_le
  · intro part isPart
    rw [same part isPart]
    exact available.below part isPart
  · intro part isPart
    obtain ⟨isOld, fresh⟩ := available.ready part isPart
    constructor
    · rw [same part isPart]
      exact isOld
    · rw [same part isPart]
      intro atTop other low high
      rw [grows.frame other high ((clear part isPart atTop).trans low), fresh atTop other low high]
  · apply available.apart.imp_of_mem
    intro left right isLeft isRight
    rw [same left isLeft, same right isRight]
    exact id

variable {first : Nat} {rest others : List Nat} {setting : Setting} {shape : Shape} {use : Use}
  {good : α → Stage layout → Prop}

theorem Stage.Available.tail (available : before.Available limit (first :: rest))
    (grows : Stage.Grows (before.origin first + 1) before after) : after.Available limit rest := by
  have others : before.Available limit rest := {
    inside := fun part isPart => available.inside part (.tail _ isPart)
    below := fun part isPart => available.below part (.tail _ isPart)
    ready := fun part isPart => available.ready part (.tail _ isPart)
    apart := available.apart.tail }
  exact others.grow grows fun part isPart atTop => (pairwise_cons.mp available.apart).1 part isPart
    atTop

def Layout.Visits (layout : Layout) (fuel : Nat) : Prop :=
  ∀ (before : Stage layout) (number : Nat), number < before.sheet.size →
    before.origin number < fuel →
    before.Ready number → Yields (visit fuel number) before (before.Visited number)

theorem Layout.Visits.head (visits : layout.Visits fuel)
    (available : before.Available limit (first :: rest)) (enough : limit ≤ fuel) :
    Yields (visit fuel first) before (before.Visited first) :=
  visits before first (available.inside first mem_cons_self)
    ((available.below first mem_cons_self).trans_le enough)
    (available.ready first mem_cons_self)

/-- What a list of visits leads to: nodes whose origins are among those of the visited nodes. -/
structure Stage.VisitedAll (before : Stage layout) (limit : Nat) (values : List Nat)
    (after : Stage layout) : Prop where
  grows : Stage.Grows limit before after
  inside : ∀ value ∈ values, value < after.sheet.size

theorem Stage.Visited.all {value : Nat} (visited : before.Visited number value after)
    (low : before.origin number < limit) : before.VisitedAll limit [value] after where
  grows := visited.grows.trans (.refl 0 after) low (Nat.zero_le _)
  inside := by simpa using visited.inside

theorem Stage.VisitedAll.append {middle : Stage layout} {values : List Nat}
    (one : before.VisitedAll limit values middle) (two : middle.VisitedAll limit others after) :
    before.VisitedAll limit (values ++ others) after where
  grows := one.grows.trans two.grows (Nat.le_refl _) (Nat.le_refl _)
  inside value isValue := by
    rcases mem_append.mp isValue with early | late
    · exact (one.inside value early).trans_le two.grows.size_le
    · exact two.inside value late

theorem Layout.Visits.mapM_append (visits : layout.Visits fuel)
    (available : before.Available limit (parts ++ others)) (enough : limit ≤ fuel) :
    Yields (parts.mapM (visit fuel)) before fun values after =>
      before.VisitedAll limit values after ∧ values.map after.origin = parts.map before.origin ∧
        after.Available limit others := by
  induction parts generalizing before with
  | nil => exact yields_pure ⟨⟨.refl limit before, by simp⟩, rfl, available⟩
  | cons first rest ih =>
    rw [mapM_cons]
    apply (visits.head available enough).bind
    intro value middle visited
    apply (ih (available.tail visited.grows)).bind
    rintro values after ⟨later, origins, rest⟩
    have low := available.below first mem_cons_self
    refine yields_pure ⟨(visited.all low).append later, ?_, rest⟩
    rw [map_cons, map_cons, origins, later.grows.same value visited.inside, visited.origin,
      visited.grows.map_origin]
    exact fun part isPart => available.inside part (.tail _ (mem_append_left _ isPart))

theorem Layout.Visits.mapM (visits : layout.Visits fuel) (available : before.Available limit parts)
    (enough : limit ≤ fuel) :
    Yields (parts.mapM (visit fuel)) before fun values after =>
      before.VisitedAll limit values after ∧ values.map after.origin = parts.map before.origin := by
  rw [← append_nil parts] at available
  apply (visits.mapM_append available enough).mono
  rintro values after ⟨visited, origins, -⟩
  exact ⟨visited, origins⟩

theorem Layout.Visits.keepSome (visits : layout.Visits fuel)
    (available : before.Available limit parts) (enough : limit ≤ fuel) :
    Yields (keepSome (visit fuel) parts) before fun values after =>
      before.VisitedAll limit values after ∧
        (values.map after.origin).Sublist (parts.map before.origin) := by
  induction parts generalizing before with
  | nil => exact yields_pure ⟨⟨.refl limit before, by simp⟩, .slnil⟩
  | cons first rest ih =>
    apply yields_coin_bind
    intro side
    cases side with
    | false =>
      apply (ih (available.tail (.refl _ before))).mono
      rintro values after ⟨later, origins⟩
      exact ⟨later, origins.cons _⟩
    | true =>
      apply (visits.head available enough).bind
      intro value middle visited
      apply (ih (available.tail visited.grows)).bind
      rintro values after ⟨later, origins⟩
      have low := available.below first mem_cons_self
      refine yields_pure ⟨(visited.all low).append later, ?_⟩
      rw [visited.grows.map_origin fun part isPart =>
        available.inside part (.tail _ isPart)] at origins
      rw [map_cons, map_cons, later.grows.same value visited.inside, visited.origin]
      exact origins.cons_cons _

theorem Setting.of_below_ne_deep (shallow : setting.below shape ≠ .deep) :
    setting ≠ .deep ∧ (setting = .top ∨ shape.isReplaced = true) := by
  cases setting <;> cases shape <;> simp_all [below, Shape.isReplaced]

theorem Setting.eq_top_of_below (atTop : setting.below shape = .top) : setting = .top := by
  cases setting <;> cases shape <;> simp_all [below]

theorem Stage.setting_of_part {part : Nat} (found : before.sheet[number]? = some cell)
    (isPart : part ∈ cell.parts) : (layout.plan (before.origin part)).setting =
      (layout.plan (before.origin number)).setting.below
        (layout.plan (before.origin number)).tree.shape := by
  obtain ⟨first, isFirst, takes⟩ := (before.derives number cell found).takes
  have isSite : (layout.plan (before.origin part)).toSite ∈
      (layout.plan (before.origin number)).parts := by
    rw [← (layout.covers _ first isFirst).parts]
    exact mem_map_of_mem (takes.subset (mem_map_of_mem isPart))
  obtain ⟨child, -, same⟩ := mem_map.mp isSite
  rw [← same]

/-- A node whose parts do not stand deep is as it was. -/
theorem Stage.Ready.eq_first {first : Cell} (ready : before.Ready number)
    (found : before.sheet[number]? = some cell)
    (isFirst : layout.sheet[before.origin number]? = some first)
    (shallow : (layout.plan (before.origin number)).setting.below
      (layout.plan (before.origin number)).tree.shape ≠ .deep) :
    number < layout.sheet.size ∧ cell = first := by
  obtain ⟨notDeep, kind⟩ := Setting.of_below_ne_deep shallow
  have isOld := ready.isOld notDeep
  have own := before.own number isOld
  have unchanged : before.sheet[number]? = layout.sheet[number]? := by
    rcases kind with atTop | replaced
    · exact ready.fresh atTop number ((layout.covers _ first isFirst).low_le.trans_eq own) isOld
    · exact before.kept number isOld (own ▸ replaced)
  rw [found, ← own, isFirst, Option.some.injEq] at unchanged
  exact ⟨isOld, unchanged⟩

theorem Stage.Ready.available (ready : before.Ready number)
    (found : before.sheet[number]? = some cell) :
    before.Available (before.origin number) cell.parts := by
  have derives := before.derives number cell found
  obtain ⟨first, isFirst, takes⟩ := derives.takes
  have agrees := layout.covers _ first isFirst
  have below : ∀ part ∈ cell.parts, before.origin part < before.origin number :=
    fun part isPart => (agrees.inside _ (takes.subset (mem_map_of_mem isPart))).2
  by_cases deep : (layout.plan (before.origin number)).setting.below
      (layout.plan (before.origin number)).tree.shape = .deep
  · have isDeep : ∀ part ∈ cell.parts, (layout.plan (before.origin part)).setting = .deep :=
      fun part isPart => (Stage.setting_of_part found isPart).trans deep
    refine ⟨derives.inside, below, fun part isPart => ⟨fun shallow => ?_, fun atTop => ?_⟩, ?_⟩
    · exact absurd (isDeep part isPart) shallow
    · rw [isDeep part isPart] at atTop
      cases atTop
    · apply pairwise_of_forall_mem_list
      intro left _ right isRight atTop
      rw [isDeep right isRight] at atTop
      cases atTop
  · obtain ⟨isOld, rfl⟩ := ready.eq_first found isFirst deep
    have partOld : ∀ part ∈ cell.parts, part < layout.sheet.size :=
      fun part isPart => ((agrees.inside part isPart).2.trans_eq (before.own number isOld)).trans
        isOld
    refine ⟨derives.inside, below, fun part isPart => ⟨fun _ => partOld part isPart, ?_⟩, ?_⟩
    · intro atTop other low high
      rw [Stage.setting_of_part found isPart] at atTop
      rw [before.own part (partOld part isPart)] at low
      exact ready.fresh (Setting.eq_top_of_below atTop) other
        ((agrees.inside part isPart).1.trans low) high
    · apply agrees.apart.imp_of_mem
      intro left right isLeft isRight apart _
      rw [before.own left (partOld left isLeft), before.own right (partOld right isRight)]
      exact apart

/-- Whether a node has no parts: names, numbers and texts. -/
def Shape.isLeaf : Shape → Bool
  | .name _ _ | .number _ | .text _ => true
  | _ => false

theorem Layout.Derives.parts_eq_nil (derives : layout.Derives origin size number cell)
    (isLeaf : cell.shape.isLeaf = true) :
    cell.parts = [] := by
  obtain ⟨first, isFirst, takes⟩ := derives.takes
  have parts := (layout.covers number first isFirst).parts
  have outline := derives.becomes.outline
  unfold Site.Takes at takes
  unfold Site.parts at parts
  cases tree : (layout.plan number).tree <;> cases shape : cell.shape <;>
    simp_all [Expr.shape, Expr.children, Shape.outline, Shape.isLeaf]

theorem Layout.Derives.bounded {integer : Int} (derives : layout.Derives origin size number cell)
    (shape : cell.shape = .number (.int integer)) :
    (Decimal.ofInt integer).isInf = false := by
  obtain ⟨first, isFirst, -⟩ := derives.takes
  have pliable := (layout.covers number first isFirst).allowed
  have same := (derives.becomes.integer integer shape).trans shape
  cases tree : (layout.plan number).tree <;> rw [tree] at same pliable <;> cases same
  exact (pliable _ .self).2 integer rfl

theorem Layout.Derives.tuple (derives : layout.Derives origin size number cell)
    (shape : cell.shape = .tuple use) :
    (∃ use, (layout.plan number).tree.shape = .tuple use) ∧ cell.parts ≠ [] := by
  have outline := derives.becomes.outline
  rw [shape] at outline
  obtain ⟨items, use, isTuple⟩ : ∃ items use, (layout.plan number).tree = .tuple items use := by
    cases tree : (layout.plan number).tree <;> simp_all [Expr.shape, Shape.outline]
  refine ⟨⟨use, by rw [isTuple, Expr.shape]⟩, fun empty => ?_⟩
  obtain ⟨first, isFirst, takes⟩ := derives.takes
  obtain ⟨pliable, -, parts, -⟩ := layout.covers number first isFirst
  simp only [Site.Takes, isTuple, Expr.shape, empty] at takes
  have noParts : first.parts = [] := head?_eq_none_iff.mp takes.1.symm
  simp only [Site.parts, isTuple, Expr.children, noParts, map_nil, nil_eq, map_eq_nil_iff] at parts
  rw [isTuple, parts] at pliable
  exact (pliable _ .self).1 use rfl

theorem Stage.Ready.derives_tuple {head newHead : Nat} {kept again : List Nat}
    (ready : before.Ready number) (found : before.sheet[number]? = some ⟨.tuple use, head :: rest⟩)
    (origin : after.origin newHead = before.origin head)
    (keptOrigins : (kept.map after.origin).Sublist (rest.map before.origin))
    (againOrigins : (again.map after.origin).Sublist ((head :: rest).map before.origin))
    (inside : ∀ part ∈ newHead :: kept ++ again, part < after.sheet.size) :
    layout.Derives after.origin after.sheet.size (before.origin number)
      ⟨.tuple .load, newHead :: kept ++ again⟩ := by
  have derives := before.derives number _ found
  obtain ⟨⟨use, isTuple⟩, -⟩ := derives.tuple rfl
  obtain ⟨first, isFirst, takes⟩ := derives.takes
  refine ⟨derives.becomes.trans ⟨rfl, by simp⟩, ⟨first, isFirst, ?_⟩, inside⟩
  unfold Site.Takes at takes ⊢
  rw [isTuple] at takes ⊢
  obtain ⟨sameHead, among, -⟩ := takes
  have keptToo :
      ((newHead :: kept).map after.origin).Sublist ((head :: rest).map before.origin) := by
    rw [map_cons, origin]
    exact keptOrigins.cons_cons _
  rw [map_append]
  refine ⟨?_, ?_, fun shallow => ?_⟩
  · rw [← sameHead]
    simp [origin]
  · exact append_subset.mpr ⟨List.Subset.trans keptToo.subset among,
      List.Subset.trans againOrigins.subset among⟩
  · -- Outside of deep settings the tuple is visited as it was at first.
    obtain ⟨-, rfl⟩ := ready.eq_first found isFirst <| by
      rw [isTuple]
      cases setting : (layout.plan (before.origin number)).setting <;> simp_all [Setting.below]
    have few := keptToo.length_le
    have alsoFew := againOrigins.length_le
    simp only [length_map, length_append] at few alsoFew ⊢
    omega

theorem Layout.Visits.tuple (visits : layout.Visits fuel) (ready : before.Ready number)
    (found : before.sheet[number]? = some cell) (shape : cell.shape = .tuple use)
    (enough : before.origin number ≤ fuel) :
    Yields (match cell.parts with
      | [] => throw .outOfBounds
      | first :: rest => do
        let head ← visit fuel first
        let kept ← Shuffle.keepSome (Shuffle.visit fuel) rest
        let again ← if ← Shuffle.coin then Shuffle.keepSome (Shuffle.visit fuel) cell.parts
          else pure []
        create ⟨.tuple .load, head :: kept ++ again⟩) before (before.Visited number) := by
  have available := ready.available found
  have derives := before.derives number cell found
  obtain ⟨⟨use, isTuple⟩, occupied⟩ := derives.tuple shape
  have noTop : ∀ part ∈ cell.parts, (layout.plan (before.origin part)).setting ≠ .top := by
    intro part isPart
    rw [Stage.setting_of_part found isPart, isTuple]
    cases (layout.plan (before.origin number)).setting <;> simp [Setting.below]
  obtain ⟨shape, parts⟩ := cell
  subst shape
  cases parts with
  | nil => exact absurd rfl occupied
  | cons head rest =>
    have low := available.below head mem_cons_self
    apply (visits.head available enough).bind
    intro newHead middle visitedHead
    apply (visits.keepSome (available.tail visitedHead.grows) enough).bind
    rintro kept next ⟨visitedKept, keptOrigins⟩
    have most : before.VisitedAll (before.origin number) (newHead :: kept) next :=
      (visitedHead.all low).append visitedKept
    have finish : ∀ again after, next.VisitedAll (before.origin number) again after ∧
        (again.map after.origin).Sublist ((head :: rest).map next.origin) →
        Yields (create ⟨.tuple .load, newHead :: kept ++ again⟩) after (before.Visited number) := by
      rintro again after ⟨visited, origins⟩
      have all := most.append visited
      apply yields_create all.grows _ rfl
      apply ready.derives_tuple found _ _ _ all.inside
      · rw [visited.grows.same newHead (most.inside newHead mem_cons_self),
          visitedKept.grows.same newHead visitedHead.inside, visitedHead.origin]
      · rw [visited.grows.map_origin visitedKept.inside, ← visitedHead.grows.map_origin]
        · exact keptOrigins
        · exact fun part isPart => available.inside part (.tail _ isPart)
      · rw [← most.grows.map_origin available.inside]
        exact origins
    apply yields_coin_bind
    intro again
    cases again with
    | false => exact (yields_pure ⟨⟨.refl _ next, by simp⟩, nil_sublist _⟩).bind finish
    | true =>
      have still := available.grow most.grows fun part isPart atTop =>
        absurd atTop (noTop part isPart)
      exact (visits.keepSome still enough).bind finish

theorem yields_lift_bind {outcome : Except Fault β} {value : β} (isOk : outcome = .ok value)
    {next : β → Shuffle α} (given : Yields (next value) before good) :
    Yields (liftM outcome >>= next) before good := by
  subst isOk
  exact given

theorem yields_fraction_bind {next : Float → Shuffle α}
    (each : ∀ factor, Yields (next factor) before good) :
    Yields (fraction >>= next) before good :=
  fun script => each _ script.next.2

theorem Layout.visits (layout : Layout) (fuel : Nat) : layout.Visits fuel := by
  induction fuel with
  | zero =>
    intro before number _ below
    cases below
  | succ fuel ih =>
    intro before number inside below ready
    obtain ⟨cell, found⟩ : ∃ cell, before.sheet[number]? = some cell :=
      ⟨_, Array.getElem?_eq_getElem inside⟩
    have derives := before.derives number cell found
    have available := ready.available found
    have enough : before.origin number ≤ fuel := Nat.le_of_lt_succ below
    have stay : Yields (pure number) before (before.Visited number) :=
      yields_pure ⟨.refl _ before, inside, rfl⟩
    have replaced {new : Shape} (isLeaf : cell.shape.isLeaf = true)
      (becomes : cell.shape.Becomes new)
        (isReplaced : new.isReplaced = true) :
        Yields (create ⟨new, []⟩) before (before.Visited number) := by
      apply yields_create (.refl _ before) _ isReplaced
      exact derives.rebuild becomes (by rw [derives.parts_eq_nil isLeaf]) (by simp)
    unfold visit
    apply yields_get_bind
    intro script
    simp only [found, Option.getD_some]
    cases shape : cell.shape with
    | number value =>
      apply yields_coin_bind
      intro side
      cases side with
      | false => exact stay
      | true =>
        apply yields_fraction_bind
        intro factor
        obtain ⟨product, isProduct, noInteger⟩ := Number.exists_multiply value factor <| by
          rintro integer rfl
          exact derives.bounded shape
        apply yields_lift_bind isProduct
        refine replaced (by rw [shape]; rfl) ⟨by rw [shape]; rfl, ?_⟩ rfl
        rintro integer ⟨⟩
        exact absurd rfl (noInteger integer)
    | text value =>
      apply yields_coin_bind
      intro side
      cases side with
      | false => exact stay
      | true =>
        apply (yields_randomChars value.length).bind
        rintro characters after ⟨rfl, length⟩
        refine replaced (by rw [shape]; rfl) ⟨?_, by simp⟩ rfl
        simp [shape, Shape.outline, length]
    | name id use =>
      have renamed {other : String}
        (same : Shape.outline (.name other .load) = Shape.outline (.name id use)) :
          Yields (create ⟨.name other .load, []⟩) before (before.Visited number) :=
        replaced (by rw [shape]; rfl) (by rw [shape]; exact ⟨same, by simp⟩) rfl
      apply yields_coin_bind
      intro side
      cases side with
      | false => exact stay
      | true =>
        simp only [if_true]
        split
        · next isForall => exact renamed (by simp [Shape.outline, isForall])
        · split
          · next isExists => exact renamed (by simp [Shape.outline, isExists])
          · exact stay
    | tuple use =>
      apply yields_coin_bind
      intro side
      cases side with
      | false => exact stay
      | true => exact ih.tuple ready found shape enough
    | connect connective =>
      apply yields_coin_bind
      intro side
      cases side with
      | false => exact stay
      | true =>
        apply yields_coin_bind
        intro other
        apply (ih.mapM available enough).bind
        rintro values after ⟨visited, origins⟩
        apply yields_create visited.grows _ rfl
        exact derives.rebuild (by rw [shape]; exact ⟨rfl, by simp⟩) origins visited.inside
    | compare operators =>
      have related {others : List Comparison}
          (outlines : others.map Comparison.outline = operators.map Comparison.outline) :
          cell.shape.Becomes (.compare others) := by
        refine ⟨?_, by simp⟩
        rw [shape, Shape.outline, Shape.outline, outlines]
      rw [← take_append_drop 1 cell.parts] at available
      apply (ih.mapM_append available enough).bind
      rintro values middle ⟨one, origins, rest⟩
      apply (yields_comparisons operators).bind
      rintro others _ ⟨rfl, outlines⟩
      apply (ih.mapM rest enough).bind
      rintro operands after ⟨two, alsoOrigins⟩
      have all := one.append two
      apply yields_change all.grows found (by rw [shape]; rfl)
      apply derives.rebuild (related outlines) _ all.inside
      rw [map_append, two.grows.map_origin one.inside, origins, alsoOrigins, one.grows.map_origin,
        ← map_append, take_append_drop]
      exact fun part isPart => available.inside part (mem_append_right _ isPart)
    | list | dict | spread | access | call | binary | unary | other =>
      apply (ih.mapM available enough).bind
      rintro values after ⟨visited, origins⟩
      have becomes : cell.shape.Becomes cell.shape := .refl _
      exact yields_change visited.grows found (by rw [shape]; rfl)
        (derives.rebuild (shape ▸ becomes) origins visited.inside)

end Visits

/-! ## The variant -/

theorem Shape.Becomes.accepts {old new : Shape} (becomes : old.Becomes new) {count : Nat}
    (accepts : old.Accepts count) : new.Accepts count := by
  have outline := becomes.outline
  cases new <;> cases old <;> simp_all [Shape.outline, Shape.Accepts]

theorem Site.Takes.accepts {site : Site} {sources : List Site}
    (takes : site.Takes site.parts sources) :
    site.tree.shape.Accepts sources.length := by
  unfold Takes at takes
  split at takes
  · next isTuple => simp [isTuple, Shape.Accepts]
  · rw [takes, Site.parts, length_map]
    exact site.tree.accepts_children

theorem Stage.varies (stage : Stage layout) (fuel number : Nat) (inside : number < stage.sheet.size)
    (enough : stage.origin number < fuel) :
    (layout.plan (stage.origin number)).Varies (stage.sheet.tree fuel number) := by
  induction fuel generalizing number with
  | zero => cases enough
  | succ fuel ih =>
    obtain ⟨cell, found⟩ : ∃ cell, stage.sheet[number]? = some cell :=
      ⟨_, Array.getElem?_eq_getElem inside⟩
    obtain ⟨becomes, ⟨first, isFirst, takes⟩, inside⟩ := stage.derives number cell found
    have agrees := layout.covers _ first isFirst
    have takesSites := takes.map fun part => (layout.plan part).toSite
    rw [agrees.parts] at takesSites
    have accepts : cell.shape.Accepts (cell.parts.map (stage.sheet.tree fuel)).length := by
      simpa using becomes.accepts takesSites.accepts
    obtain ⟨shape, children⟩ := accepts.assemble
    simp only [Sheet.tree, found]
    refine .node (shape.symm ▸ becomes) takesSites ?_
    rw [children, map_map, forall₂_map_left_iff, forall₂_map_right_iff, forall₂_same]
    intro part isPart
    apply ih part (inside part isPart)
    have below := (agrees.inside _ (takes.subset (mem_map_of_mem isPart))).2
    omega

/-- The first sheet, before anything is changed. -/
def Layout.start (layout : Layout) : Stage layout where
  sheet := layout.sheet
  origin := id
  size_le := Nat.le_refl _
  own _ _ := rfl
  derives number cell found := by
    have agrees := layout.covers number cell found
    refine ⟨agrees.shape ▸ .refl _, ⟨cell, found, ?_⟩, fun part isPart => ?_⟩
    · rw [map_id]
      exact .refl _ _
    · exact (agrees.inside part isPart).2.trans (Array.getElem?_eq_some_iff.mp found).1
  kept _ _ _ := rfl
  made number cell isNew found :=
    absurd (Array.getElem?_eq_some_iff.mp found).1 (Nat.not_lt.mpr isNew)

theorem Expr.exists_randomize {tree : Expr} (pliable : tree.Pliable) (script : Script) :
    ∃ variant after, tree.randomize script = .ok (variant, after) ∧
      (Site.mk .top tree).Varies variant := by
  obtain ⟨plan, lays⟩ := Plan.layable (fun tree allowed => ((pliable_iff tree).mp allowed).2) tree
    pliable .top #[] (fun _ => ⟨⟨.top, tree⟩, 0⟩) (by simp [Plan.Covers])
  simp only [Sheet.placeAll] at lays
  have sites := lays.sites
  obtain ⟨low, inside⟩ := lays.inside _ mem_cons_self
  simp only [map_cons, map_nil, cons.injEq, and_true] at sites
  let layout : Layout := ⟨_, plan, lays.covers⟩
  have ready : layout.start.Ready (Sheet.place #[] tree).1 := ⟨fun _ => inside, fun _ _ _ _ => rfl⟩
  obtain ⟨value, after, rest, ran, visited⟩ :=
    layout.visits (layout.sheet.size + 1) layout.start _ inside (Nat.lt_succ_of_lt inside) ready
      script
  have varies :=
    after.varies (layout.sheet.size + 1) value visited.inside
      (visited.origin ▸ Nat.lt_succ_of_lt inside)
  rw [visited.origin] at varies
  refine ⟨after.sheet.tree (layout.sheet.size + 1) value, rest, ?_, ?_⟩
  · have unfolded : tree.randomize script =
        (visit (layout.sheet.size + 1) _).run ⟨layout.start.sheet, script⟩ >>= fun visit =>
          .ok (visit.2.sheet.tree (layout.sheet.size + 1) visit.1, visit.2.script) := rfl
    rw [unfolded, ran]
    rfl
  · exact sites ▸ varies

/-- A predicate that has a text, no empty tuple and no integer beyond the range of doubles has,
whatever the script, a variant that has a text. -/
theorem Expr.randomizeText_varies {source : String} {tree : Expr} (parsed : parse source = .ok tree)
    (prints : tree.Prints) (pliable : tree.Pliable) (script : Script) :
    ∃ variant written after, tree.randomize script = .ok (variant, after) ∧
      (Site.mk .top tree).Varies variant ∧ variant.render? = .ok (some written) ∧
      randomizeText source script = .ok (some written, after) := by
  obtain ⟨variant, after, found, varies⟩ := exists_randomize pliable script
  obtain ⟨written, text⟩ := varies.prints prints
  refine ⟨variant, written, after, found, varies, text, ?_⟩
  simp [randomizeText, parsed, found, text]

def Expr.pairCheck : Expr :=
  .compare (.name "x" .load) [.member] [.list [.tuple [.number (.int 1), .name "x" .load] .load]
    .load]

set_option maxRecDepth 2000 in
theorem Expr.randomizeText_pairCheck :
    parse "x in [(1, x)]" = .ok pairCheck ∧ pairCheck.Prints ∧ pairCheck.Pliable ∧
      ∃ variant written after, pairCheck.randomize ⟨[1, 0, 1], 0⟩ = .ok (variant, after) ∧
        (Site.mk .top pairCheck).Varies variant ∧ variant.render? = .ok (some written) ∧
        randomizeText "x in [(1, x)]" ⟨[1, 0, 1], 0⟩ = .ok (some written, after) := by
  have tokens : Lexer.tokens "x in [(1, x)]" =
      some [.word "x", .mark "in", .mark "[", .mark "(", .number (.int 1), .mark ",", .word "x",
        .mark ")", .mark "]"] := rfl
  have parsed : parse "x in [(1, x)]" = .ok pairCheck := by
    rw [parse, tokens]
    rfl
  have bounded : (Decimal.ofInt 1).isInf = false := by decide
  have one : Pliable (.number (.int 1)) := (pliable_iff _).mpr (by simp [children, bounded])
  have name : Pliable (.name "x" .load) := (pliable_iff _).mpr (by simp [children])
  have pair : Pliable (.tuple [.number (.int 1), .name "x" .load] .load) :=
    (pliable_iff _).mpr ⟨by simp, by simp [children, one, name]⟩
  have pairs : Pliable (.list [.tuple [.number (.int 1), .name "x" .load] .load] .load) :=
    (pliable_iff _).mpr ⟨by simp, by simp [children, pair]⟩
  have pliable : pairCheck.Pliable :=
    (pliable_iff _).mpr ⟨by simp [pairCheck], by simp [pairCheck, children, name, pairs]⟩
  have prints : pairCheck.Prints := ⟨_, rfl⟩
  exact ⟨parsed, prints, pliable, randomizeText_varies parsed prints pliable _⟩

set_option maxRecDepth 2000 in
/-- A tuple below a list that an outer tuple takes up twice is visited twice, the second time as the
first visit left it: its one element becomes four. -/
theorem Expr.nested_tuple_grows :
    parse "([(a,)],)" = .ok (.tuple [.list [.tuple [.name "a" .load] .load] .load] .load) ∧
      randomizeText "([(a,)],)" ⟨[1], 0⟩ = .ok (some "([(a, a, a, a)], [(a, a, a, a)])",
        ⟨[1], 17⟩) := by
  have tokens : Lexer.tokens "([(a,)],)" =
      some [.mark "(", .mark "[", .mark "(", .word "a", .mark ",", .mark ")", .mark "]", .mark ",",
        .mark ")"] := rfl
  have parsed : parse "([(a,)],)" =
      .ok (.tuple [.list [.tuple [.name "a" .load] .load] .load] .load) := by
    rw [parse, tokens]
    rfl
  refine ⟨parsed, ?_⟩
  rw [randomizeText, parsed]
  decide +kernel

end ApiDescription
