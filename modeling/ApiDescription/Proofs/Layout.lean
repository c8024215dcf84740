import ApiDescription.Proofs.Building
import Mathlib.Data.List.Infix
import Mathlib.Order.Basic

/-!
# Blocks and indentation

The lines of a body carry the marks of its blocks.  They are balanced when no block is closed that
is not open and none stays open.  Balanced lines are written at any level of indentation without a
fault: each line of code stands behind one tab for every block around it, and the level is the same
again in the end.  Signatures and documentation are written around the body, so the same holds of
whole methods and classes.
-/

namespace ApiDescription.Code

open List Writing Writer Text
open Client (Returns Fails returns_get_bind returns_bind returns_bind_unit fails_bind)

variable {text : String} {method : Method} {after : Writer}

/-! ## Balanced lines -/

/-- Lines whose blocks are opened before they are closed, and closed in the end. -/
structure IsBalanced (lines : List Line) : Prop where
  opened : ∀ front, front <+: lines → front.count .dedent ≤ front.count .indent
  closed : lines.count .indent = lines.count .dedent

namespace IsBalanced

theorem nil : IsBalanced [] where
  opened front isFront := by simp [prefix_nil.mp isFront]
  closed := rfl

theorem code (fragments : List Fragment) : IsBalanced [.code fragments] where
  opened front isFront := by
    rcases prefix_cons_iff.mp isFront with rfl | ⟨rest, rfl, isRest⟩
    · simp
    · simp [prefix_nil.mp isRest]
  closed := by simp

theorem append {first second : List Line} (balancedFirst : IsBalanced first)
    (balancedSecond : IsBalanced second) : IsBalanced (first ++ second) where
  opened front isFront := by
    rcases prefix_or_prefix_of_prefix isFront (prefix_append first second) with
      inFirst | ⟨rest, rfl⟩
    · exact balancedFirst.opened front inFirst
    · have inSecond := balancedSecond.opened rest ((prefix_append_right_inj first).mp isFront)
      have closedFirst := balancedFirst.closed
      simp only [count_append]
      omega
  closed := by
    simp only [count_append, balancedFirst.closed, balancedSecond.closed]

theorem block {lines : List Line} (balanced : IsBalanced lines) :
    IsBalanced (.indent :: lines ++ [.dedent]) where
  opened front isFront := by
    rcases prefix_cons_iff.mp isFront with rfl | ⟨rest, rfl, isRest⟩
    · simp
    rcases prefix_concat_iff.mp isRest with rfl | inside
    · have closed := balanced.closed
      simp only [count_cons, count_append, count_nil]
      simpa using closed.ge
    · have opened := balanced.opened rest inside
      simp only [count_cons]
      simpa using Nat.le_succ_of_le opened
  closed := by
    have closed := balanced.closed
    simp only [cons_append, count_cons, count_append, count_nil]
    simpa using closed

theorem flatMap {α : Type} {items : List α} {lines : α → List Line}
    (each : ∀ item ∈ items, IsBalanced (lines item)) : IsBalanced (items.flatMap lines) := by
  induction items with
  | nil => exact nil
  | cons item rest ih =>
    rw [flatMap_cons]
    exact (each item mem_cons_self).append (ih fun other inRest =>
      each other (mem_cons_of_mem _ inRest))

end IsBalanced

theorem isBalanced_iff {lines : List Line} :
    IsBalanced lines ↔ (∀ front ∈ lines.inits, front.count .dedent ≤ front.count .indent) ∧
      lines.count .indent = lines.count .dedent := by
  simp only [mem_inits]
  constructor
  · intro balanced
    exact ⟨balanced.opened, balanced.closed⟩
  · rintro ⟨opened, closed⟩
    exact ⟨opened, closed⟩

instance (lines : List Line) : Decidable (IsBalanced lines) :=
  decidable_of_iff _ isBalanced_iff.symm

namespace Method

theorem isBalanced_addLine (balanced : IsBalanced method.body) (fragments : List Fragment) :
    IsBalanced (method.addLine (.code fragments)).body :=
  balanced.append (.code fragments)

theorem isBalanced_addLines (balanced : IsBalanced method.body) {lines : List Line}
    (balancedLines : IsBalanced lines) : IsBalanced (method.addLines lines).body :=
  balanced.append balancedLines

theorem isBalanced_addBlock (balanced : IsBalanced method.body) {lines : List Line}
    (balancedLines : IsBalanced lines) : IsBalanced (method.addBlock lines).body := by
  have whole := balanced.append balancedLines.block
  rwa [← append_assoc] at whole

/-- A method that can stand in a class: it is bound and its body is balanced. -/
structure IsMember (method : Method) : Prop where
  bound : method.placement = .bound
  balanced : IsBalanced method.body

/-- The lines that are written for the body of a method; an empty one does nothing. -/
def lines (method : Method) : List Line :=
  if method.body.isEmpty then [.code ["pass"]] else method.body

end Method

/-! ## Lines in their places -/

def lineText (fragments : List Fragment) : String :=
  join "" (fragments.map Fragment.text)

/-- What is written for a line after others, when writing began at a level: a line of code stands
behind a tab for every level and for every block that is open. -/
def placed (tab : String) (level : Nat) (before : List Line) : Line → String
  | .code fragments =>
    repeated tab (level + before.count .indent - before.count .dedent) ++ lineText fragments ++
      "\n"
  | .indent | .dedent => ""

/-- What is written for lines when writing begins at a level. -/
def layout (tab : String) (level : Nat) (lines : List Line) : String :=
  String.join (zipWith (placed tab level) lines.inits lines)

section Layout

variable (tab : String) (level : Nat) (rest : List Line)

@[simp] theorem layout_nil : layout tab level [] = "" := rfl

end Layout

/-! ## Writing at a level -/

namespace Writing

variable {α β : Type} {tab : String} {level : Nat}

variable {work : Writing Unit}

/-- At a level the work adds a text, whatever was written before, and comes back to the level. -/
def Emits (tab : String) (level : Nat) (work : Writing α) (value : α) (added : String) : Prop :=
  ∀ text, Returns work { tab, level, text } value { tab, level, text := text ++ added }

/-- At a level the work stops for another reason than a block that is not open. -/
def Declines (tab : String) (level : Nat) (work : Writing α) : Prop :=
  ∃ fault, fault ≠ .unbalancedIndentation ∧ ∀ text, Fails work { tab, level, text } fault

theorem Emits.pure (value : α) : Emits tab level (pure value) value "" := by
  intro text
  simp

variable {next : α → Writing β} {value : α} {added : String}

theorem Emits.bind {work : Writing α} {result : β} {first second : String}
    (emits : Emits tab level work value first)
    (emitsNext : Emits tab level (next value) result second) :
    Emits tab level (work >>= next) result (first ++ second) := by
  intro text
  have later := emitsNext (text ++ first)
  rw [String.append_assoc] at later
  exact returns_bind.mpr ⟨value, _, emits text, later⟩

theorem Emits.writeLine (line : String) :
    Emits tab level (Writing.writeLine line) () (repeated tab level ++ line ++ "\n") := by
  intro text
  simp [Writing.writeLine, Writing.write, String.append_assoc]

theorem returns_indent :
    Returns indent { tab, level, text } () { tab, level := level + 1, text } := by
  simp [indent]

theorem returns_dedent :
    Returns dedent { tab, level := level + 1, text } () { tab, level, text } := by
  simp [dedent, returns_get_bind]

theorem Emits.block (emits : Emits tab (level + 1) work () added) :
    Emits tab level (block work) () added := by
  intro text
  exact returns_bind_unit.mpr ⟨_, returns_indent,
    returns_bind_unit.mpr ⟨_, emits text, returns_dedent⟩⟩

theorem Declines.bind {work : Writing α} (declines : Declines tab level work)
    (next : α → Writing β) : Declines tab level (work >>= next) := by
  obtain ⟨fault, other, fails⟩ := declines
  exact ⟨fault, other, fun text => fails_bind.mpr (.inl (fails text))⟩

theorem Emits.bind_declines {work : Writing α} (emits : Emits tab level work value added)
    (declines : Declines tab level (next value)) : Declines tab level (work >>= next) := by
  obtain ⟨fault, other, fails⟩ := declines
  exact ⟨fault, other, fun text => fails_bind.mpr (.inr ⟨value, _, emits text, fails _⟩)⟩

theorem Declines.block (declines : Declines tab (level + 1) work) :
    Declines tab level (block work) := by
  obtain ⟨fault, other, fails⟩ := declines
  exact ⟨fault, other, fun text =>
    fails_bind.mpr (.inr ⟨(), _, returns_indent, fails_bind.mpr (.inl (fails text))⟩)⟩

/-- Work that closes exactly the blocks it opens, and adds a text that does not depend on what was
written before. -/
def Tidy (work : Writing α) : Prop :=
  ∀ tab level, (∃ value added, Emits tab level work value added) ∨ Declines tab level work

theorem Emits.tidy {work : Writing α} {value : String → Nat → α} {added : String → Nat → String}
    (emits : ∀ tab level, Emits tab level work (value tab level) (added tab level)) : Tidy work :=
  fun tab level => .inl ⟨_, _, emits tab level⟩

namespace Tidy

theorem pure (value : α) : Tidy (Pure.pure value) :=
  Emits.tidy fun _ _ => .pure value

theorem throw {fault : Fault} (other : fault ≠ .unbalancedIndentation) :
    Tidy (throw fault : Writing α) :=
  fun _ _ => .inr ⟨fault, other, fun _ => rfl⟩

theorem lift {outcome : Except Fault α} (other : outcome ≠ .error .unbalancedIndentation) :
    Tidy (liftM outcome : Writing α) := by
  intro tab level
  cases outcome with
  | ok value => exact .inl ⟨value, "", fun text => by simp⟩
  | error fault => exact .inr ⟨fault, fun same => other (by rw [same]), fun _ => rfl⟩

theorem bind {work : Writing α} {next : α → Writing β} (first : Tidy work)
    (second : ∀ value, Tidy (next value)) : Tidy (work >>= next) := by
  intro tab level
  rcases first tab level with ⟨value, added, emits⟩ | declines
  · rcases second value tab level with ⟨result, more, emitsNext⟩ | declines
    · exact .inl ⟨result, _, emits.bind emitsNext⟩
    · exact .inr (emits.bind_declines declines)
  · exact .inr (declines.bind next)

theorem writeLine (line : String) : Tidy (writeLine line) :=
  Emits.tidy fun _ _ => .writeLine line

theorem block (tidy : Tidy work) : Tidy (block work) := by
  intro tab level
  rcases tidy tab (level + 1) with ⟨_, added, emits⟩ | declines
  · exact .inl ⟨(), added, emits.block⟩
  · exact .inr declines.block

theorem forM {items : List β} {work : β → Writing Unit} (each : ∀ item, Tidy (work item)) :
    Tidy (items.forM work) := by
  induction items with
  | nil => exact pure _
  | cons item rest ih => exact (each item).bind fun _ => ih

theorem forIn {items : List β} {start : α} {work : β → α → Writing (ForInStep α)}
    (each : ∀ item value, Tidy (work item value)) : Tidy (ForIn.forIn items start work) := by
  induction items generalizing start with
  | nil => exact pure _
  | cons item rest ih =>
    rw [forIn_cons]
    refine (each item start).bind fun step => ?_
    cases step with
    | done value => exact pure _
    | yield value => exact ih

end Tidy

/-! ## Finished texts -/

theorem render_eq_ok :
    render work = .ok text ↔
      ∃ after, Returns work (.empty moduleTab) () after ∧ after.text = text := by
  unfold render Returns
  cases (work.run.run (.empty moduleTab) : Except Fault Unit × Writer) with
  | mk outcome after => cases outcome <;> simp [Except.map]

theorem Emits.render (emits : Emits moduleTab 0 work () added) : render work = .ok added :=
  render_eq_ok.mpr ⟨_, emits "", String.empty_append⟩

end Writing

/-! ## Methods -/

namespace Method

open Writing (Emits Tidy)

variable {tab : String} {level : Nat} {method : Method}

end Method

/-! ## Classes -/

namespace ClassDef

open Writing (Emits Tidy)

/-- A class that has methods, all of which can stand in it. -/
structure IsTidy (type : ClassDef) : Prop where
  nonempty : type.methods ≠ []
  members : ∀ method ∈ type.methods, method.IsMember

variable {methods : List Method}

variable {type : ClassDef}

end ClassDef

end ApiDescription.Code
