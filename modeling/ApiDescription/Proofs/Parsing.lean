import ApiDescription.Proofs.Bare
import ApiDescription.Proofs.Lexing

/-!
# Reading the tokens of a tree

Every rule of the grammar reads the tokens of a tree that binds tight enough for it, and leaves what
follows, as long as the next token does not go on with the tree.  Loops of the grammar are followed
from their state: `Trails` for labels and arguments after a primary, `Chains` for operands after an
operator.
-/

namespace ApiDescription

open List BinaryOperator
open Lexer (Bracket)

variable {rest : List Token} {strength : Nat}

namespace Parser

/-! ## Single tokens -/

def beginsWithMark (text : String) : List Token → Bool
  | .mark other :: _ => other == text
  | _ => false

def beginsWithWordAndMark (text : String) : List Token → Bool
  | .word _ :: .mark other :: _ => other == text
  | _ => false

variable (text : String) (tokens : List Token)

@[simp] theorem beginsWithMark_mark (other : String) :
    beginsWithMark text (.mark other :: tokens) = (other == text) := rfl

@[simp] theorem beginsWithWordAndMark_mark (other : String) :
    beginsWithWordAndMark text (.mark other :: tokens) = false := rfl

theorem beginsWithMark_eq_false_iff {text : String} {tokens : List Token} :
    beginsWithMark text tokens = false ↔ tokens.head? ≠ some (.mark text) := by
  unfold beginsWithMark
  split <;> simp_all [head?_eq_some_iff]

@[simp] theorem run_peek : peek.run tokens = some (tokens.head?, tokens) := rfl

@[simp] theorem run_failure {α : Type} : (failure : Parser α).run tokens = none := rfl

@[simp] theorem run_advance : advance.run tokens = some ((), tokens.drop 1) := rfl

@[simp] theorem run_atMark :
    (atMark text).run tokens = some (beginsWithMark text tokens, tokens) := by
  unfold atMark beginsWithMark
  cases tokens with
  | nil => rfl
  | cons token rest => cases token <;> rfl

@[simp] theorem run_atWordAndMark :
    (atWordAndMark text).run tokens = some (beginsWithWordAndMark text tokens, tokens) := by
  unfold atWordAndMark beginsWithWordAndMark
  simp only [StateT.run_bind, StateT.run_get, Option.pure_def, Option.bind_eq_bind,
    Option.bind_some]
  split <;> simp

@[simp] theorem run_tryMark :
    (tryMark text).run tokens = some (beginsWithMark text tokens,
        if beginsWithMark text tokens then tokens.drop 1 else tokens) := by
  unfold tryMark
  cases begins : beginsWithMark text tokens <;> simp [begins]

@[simp] theorem run_mark :
    (mark text).run tokens =
      if beginsWithMark text tokens then some ((), tokens.drop 1) else none := by
  unfold mark
  cases begins : beginsWithMark text tokens <;> simp [begins]

@[simp] theorem run_bounded {α : Type} (rule : Nat → Parser α) :
    (bounded rule).run tokens = (rule (tokens.length + 1)).run tokens := rfl

end Parser

/-! ## What comes before and after a tree -/

/-- The strength of the trees that a token goes on with when it follows them.  A comma or a closing
bracket goes on with none; tokens that follow no tree go on with all. -/
def Token.grip : Token → Nat
  | .mark spelling =>
    ([(",", 0), (")", 0), ("]", 0), ("==", 4), ("!=", 4), ("<=", 4), ("<", 4), (">=", 4), (">", 4),
      ("+", 9), ("-", 9), ("*", 10), ("/", 10), ("%", 10), (".", 13), ("(", 13), ("or", 1),
      ("and", 2), ("in", 4), ("not", 4), ("is", 4)].lookup spelling).getD 14
  | _ => 14

/-- The strength of the trees that can begin with a token. -/
def Token.onset : Token → Nat
  | .mark spelling =>
    ([("-", 11), ("(", 14), ("[", 14), ("not", 3), ("True", 14), ("False", 14), ("None", 14)].lookup
      spelling).getD 0
  | _ => 14

namespace Parser

variable {text : String} {level : Level} {operand : Parser Expr} {fuel : Nat} {tree : Expr}
  {rules : Rules} {operators : List Comparison} {operands : List Expr}

variable {tokens : List Token} {text : String}

/-- What follows does not go on with a tree of the strength. -/
def Follows (strength : Nat) (rest : List Token) : Prop :=
  ∀ token, rest.head? = some token → token.grip < strength

def Starts (strength : Nat) (tokens : List Token) : Prop :=
  ∃ first more, tokens = first :: more ∧ strength ≤ first.onset

namespace Follows

variable {strength : Nat} {rest : List Token}

theorem nil : Follows strength [] := by
  simp [Follows]

theorem cons {token : Token} (weaker : token.grip < strength) :
    Follows strength (token :: rest) := by
  simpa [Follows] using weaker

theorem mono {stronger : Nat} (atMost : strength ≤ stronger) (follows : Follows strength rest) :
    Follows stronger rest :=
  fun token head => Nat.lt_of_lt_of_le (follows token head) atMost

theorem mark (follows : Follows strength rest) (grips : strength ≤ (Token.mark text).grip) :
    beginsWithMark text rest = false :=
  beginsWithMark_eq_false_iff.mpr fun head => Nat.not_lt.mpr grips (follows _ head)

theorem comma (rest : List Token) : Follows 1 (.mark "," :: rest) :=
  cons (by decide)

end Follows

namespace Starts

variable {strength : Nat} {tokens : List Token}

theorem mono {weaker : Nat} (atMost : weaker ≤ strength) (starts : Starts strength tokens) :
    Starts weaker tokens := by
  obtain ⟨first, more, rfl, onset⟩ := starts
  exact ⟨first, more, rfl, by omega⟩

theorem append (starts : Starts strength tokens) (rest : List Token) :
    Starts strength (tokens ++ rest) := by
  obtain ⟨first, more, rfl, onset⟩ := starts
  exact ⟨first, more ++ rest, rfl, onset⟩

theorem mark (starts : Starts strength tokens) (weaker : (Token.mark text).onset < strength) :
    beginsWithMark text tokens = false := by
  obtain ⟨first, more, rfl, onset⟩ := starts
  refine beginsWithMark_eq_false_iff.mpr fun head => ?_
  cases head
  omega

end Starts

/-! ## Rules by strength -/

def operatorsAt : Nat → Level
  | 5 => [("|", .bitOr)]
  | 6 => [("^", .bitXor)]
  | 7 => [("&", .bitAnd)]
  | 8 => [("<<", .shiftLeft), (">>", .shiftRight)]
  | 9 => [("+", .add), ("-", .subtract)]
  | _ => [("*", .multiply), ("/", .divide), ("//", .floorDivide), ("%", .modulo),
      ("@", .matrixMultiply)]

def ruleAt (rules : Rules) : Nat → Parser Expr
  | 0 | 1 => disjunction rules
  | 2 => conjunction rules
  | 3 => inversion rules
  | 4 => comparisons rules
  | 5 => bitOr rules
  | 6 => bitXor rules
  | 7 => bitAnd rules
  | 8 => shift rules
  | 9 => sum rules
  | 10 => term rules
  | 11 => factor rules
  | 12 => power rules
  | _ => primary rules

def Reads (rules : Rules) (strength : Nat) (tokens : List Token) (tree : Expr) : Prop :=
  ∀ rest, Follows strength rest → (ruleAt rules strength).run (tokens ++ rest) = some (tree, rest)

/-! ## From tighter to looser rules -/

def operatorOf (level : Level) : List Token → Option BinaryOperator
  | .mark text :: _ => level.lookup text
  | _ => none

@[simp] theorem run_operatorAt (level : Level) (tokens : List Token) :
    (operatorAt level).run tokens = some (operatorOf level tokens, tokens) := by
  unfold operatorAt operatorOf
  cases tokens with
  | nil => rfl
  | cons token rest => cases token <;> rfl

theorem Follows.lookup {α : Type} (follows : Follows strength (.mark text :: rest))
    {table : List (String × α)} (grips : ∀ entry ∈ table, strength ≤ (Token.mark entry.1).grip) :
    table.lookup text = none := by
  rw [lookup_eq_none_iff]
  intro entry member
  rw [bne_iff_ne]
  rintro rfl
  have weaker := follows _ rfl
  have stronger := grips entry member
  omega

theorem Follows.operator (follows : Follows strength rest)
    (grips : ∀ entry ∈ level, strength ≤ (Token.mark entry.1).grip) :
    operatorOf level rest = none := by
  unfold operatorOf
  split
  · exact follows.lookup grips
  · rfl

theorem run_operandsAfter_of_none {left : Expr} (ends : operatorOf level rest = none) :
    (operandsAfter level operand left (fuel + 1)).run rest = some (left, rest) := by
  simp [operandsAfter, ends]

theorem run_joined_of_none (read : operand.run tokens = some (tree, rest))
    (ends : operatorOf level rest = none) :
    (joined level operand).run tokens = some (tree, rest) := by
  simp [joined, read, run_operandsAfter_of_none ends]

theorem run_connective_of_not {kind : Connective} (read : operand.run tokens = some (tree, rest))
    (ends : beginsWithMark text rest = false) :
    (connective text kind operand).run tokens = some (tree, rest) := by
  simp [connective, connected, read, ends]

theorem run_comparison_of_follows (follows : Follows 4 rest) :
    comparison.run rest = some (none, rest) := by
  unfold comparison
  simp only [StateT.run_bind, StateT.run_get, Option.pure_def, Option.bind_eq_bind,
    Option.bind_some]
  split
  · exact absurd (follows _ rfl) (by decide)
  · exact absurd (follows _ rfl) (by decide)
  · rw [follows.lookup (by decide)]
    rfl
  · rfl

/-- A rule reads what the next tighter rule reads, if no sign or negation comes first. -/
theorem Reads.loosen (positive : 1 ≤ strength) (below : strength < 13)
    (starts : Starts (strength + 1) tokens) (reads : Reads rules (strength + 1) tokens tree) :
    Reads rules strength tokens tree := by
  intro rest follows
  have read := reads rest (follows.mono (by omega))
  have startsAll := starts.append rest
  interval_cases strength
  any_goals exact run_joined_of_none read (follows.operator (by decide))
  · exact run_connective_of_not read (follows.mark (by decide))
  · exact run_connective_of_not read (follows.mark (by decide))
  · have notNegated : beginsWithMark "not" (tokens ++ rest) = false :=
      startsAll.mark (by decide)
    simpa [ruleAt, inversion, notNegated] using read
  · simp [ruleAt] at read
    simp [ruleAt, comparisons, links, read, run_comparison_of_follows follows]
  · have noMinus : beginsWithMark "-" (tokens ++ rest) = false := startsAll.mark (by decide)
    have noPlus : beginsWithMark "+" (tokens ++ rest) = false := startsAll.mark (by decide)
    have noTilde : beginsWithMark "~" (tokens ++ rest) = false := startsAll.mark (by decide)
    simpa [ruleAt, factor, noMinus, noPlus, noTilde] using read
  · have noPower : beginsWithMark "**" rest = false := follows.mark (by decide)
    simp [ruleAt] at read
    simp [ruleAt, power, read, noPower]

theorem Reads.loosenTo (atMost : strength ≤ 13) (starts : Starts strength tokens)
    (reads : Reads rules strength tokens tree) {weaker : Nat} (positive : 1 ≤ weaker)
    (below : weaker ≤ strength) : Reads rules weaker tokens tree := by
  induction strength with
  | zero => omega
  | succ strength ih =>
    rcases Nat.lt_or_ge strength weaker with reached | further
    · obtain rfl : weaker = strength + 1 := by omega
      exact reads
    · exact ih (by omega) (starts.mono (by omega)) (reads.loosen (by omega) (by omega) starts)
        further

/-! ## Loops of the grammar -/

/-- What the loop after a primary makes of the rest is what the primary rule makes of all tokens. -/
def Trails (rules : Rules) (tokens : List Token) (tree : Expr) : Prop :=
  ∀ rest result, Follows 14 rest →
    (∀ fuel, rest.length < fuel → (trailers rules tree fuel).run rest = some result) →
    (primary rules).run (tokens ++ rest) = some result

theorem Trails.reads (trails : Trails rules tokens tree) : Reads rules 13 tokens tree := by
  intro rest follows
  refine trails rest (tree, rest) (follows.mono (by omega)) fun fuel enough => ?_
  obtain _ | fuel := fuel
  · omega
  have noPoint : beginsWithMark "." rest = false := follows.mark (by decide)
  have noCall : beginsWithMark "(" rest = false := follows.mark (by decide)
  have noIndex : beginsWithMark "[" rest = false := follows.mark (by decide)
  simp [trailers, noPoint, noCall, noIndex]

theorem Trails.atom (starts : Starts 14 tokens)
    (read : ∀ rest, Follows 14 rest → (atom rules).run (tokens ++ rest) = some (tree, rest)) :
    Trails rules tokens tree := by
  intro rest result follows looped
  have notAwaited : beginsWithMark "await" (tokens ++ rest) = false :=
    (starts.append rest).mark (by decide)
  simp [primary, notAwaited, read rest follows, looped]

/-- One turn of the loop. -/
theorem Trails.next {first : Token} {more : List Token} {longer : Expr}
    (trails : Trails rules tokens tree)
    (weak : first.grip < 14)
    (turn : ∀ rest fuel, (trailers rules tree (fuel + 1)).run (first :: more ++ rest) =
      (trailers rules longer fuel).run rest) :
    Trails rules (tokens ++ first :: more) longer := by
  intro rest result follows looped
  rw [append_assoc]
  refine trails _ result (Follows.cons weak) fun fuel enough => ?_
  obtain _ | fuel := fuel
  · omega
  rw [turn, looped fuel (by simp at enough; omega)]

theorem Trails.access {label : String} (trails : Trails rules tokens tree) :
    Trails rules (tokens ++ [Token.mark ".", .word label]) (.access tree label .load) :=
  trails.next (by decide) fun rest fuel => by simp [trailers, word]

theorem Trails.call {inner : List Token} {arguments : List Expr} (trails : Trails rules tokens tree)
    (read : ∀ rest, (callArguments rules).run (inner ++ rest) = some ({ positional := arguments },
      rest)) :
    Trails rules (tokens ++ .mark "(" :: inner) (.call tree arguments []) :=
  trails.next (by decide) fun rest fuel => by simp [trailers, read rest]

/-- What the loop over operators makes of the rest is what the rule for their strength makes of all
tokens. -/
def Chains (rules : Rules) (strength : Nat) (tokens : List Token) (tree : Expr) : Prop :=
  ∀ rest result, Follows (strength + 1) rest →
    (∀ fuel, rest.length < fuel →
      (operandsAfter (operatorsAt strength) (ruleAt rules (strength + 1)) tree fuel).run rest =
        some result) →
    (ruleAt rules strength).run (tokens ++ rest) = some result

theorem ruleAt_eq_joined (rules : Rules) (loop : strength = 9 ∨ strength = 10) :
    ruleAt rules strength = joined (operatorsAt strength) (ruleAt rules (strength + 1)) := by
  rcases loop with rfl | rfl <;> rfl

theorem Chains.reads (loop : strength = 9 ∨ strength = 10)
    (chains : Chains rules strength tokens tree) :
    Reads rules strength tokens tree := by
  intro rest follows
  refine chains rest (tree, rest) (follows.mono (by omega)) fun fuel enough => ?_
  obtain _ | fuel := fuel
  · omega
  refine run_operandsAfter_of_none (follows.operator ?_)
  rcases loop with rfl | rfl <;> decide

theorem Chains.first (loop : strength = 9 ∨ strength = 10)
    (reads : Reads rules (strength + 1) tokens tree) :
    Chains rules strength tokens tree := by
  intro rest result follows looped
  rw [ruleAt_eq_joined rules loop]
  simp [joined, reads rest follows, looped]

theorem Chains.next {left right : List Token} {leftTree rightTree : Expr}
    {operator : BinaryOperator}
    (listed : (operatorsAt strength).lookup operator.mark = some operator)
    (grip : (Token.mark operator.mark).grip = strength)
    (chains : Chains rules strength left leftTree)
    (reads : Reads rules (strength + 1) right rightTree) :
    Chains rules strength (left ++ .mark operator.mark :: right)
      (.binary operator leftTree rightTree) := by
  intro rest result follows looped
  rw [append_assoc]
  refine chains _ result (Follows.cons (by omega)) fun fuel enough => ?_
  obtain _ | fuel := fuel
  · omega
  have later := looped fuel (by simp at enough; omega)
  simp [operandsAfter, operatorOf, listed, reads rest follows, later]

/-! ## Comparisons and connectives -/

theorem run_comparison (operator : Comparison) (rest : List Token)
    (plain : beginsWithMark "not" rest = false) :
    comparison.run (operator.tokens ++ rest) = some (some operator, rest) := by
  cases operator with
  | identical =>
    cases rest with
    | nil => rfl
    | cons token rest =>
      cases token with
      | mark text =>
        have other : text ≠ "not" := by simpa [beginsWithMark] using plain
        simp [comparison, Comparison.tokens, other]
        rfl
      | word | number | text | bytes | template => rfl
  | less | lessEqual | greater | greaterEqual | equal | unequal | member | nonMember | distinct =>
    rfl

structure Fits (rules : Rules) (strength : Nat) (tree : Expr) : Prop where
  starts : Starts strength tree.tokens
  reads : Reads rules strength tree.tokens tree.unfolded

theorem follows_chain (follows : Follows 4 rest) :
    Follows 5 (Expr.chainTokens operators operands ++ rest) := by
  match operators, operands with
  | [], _ | _ :: _, [] => simpa [Expr.chainTokens] using follows.mono (by omega)
  | operator :: operators, operand :: operands =>
    cases operator <;> exact Follows.cons (by decide)

theorem run_links (paired : operators.length = operands.length)
    (fits : ∀ operand ∈ operands, Fits rules 5 operand) (follows : Follows 4 rest)
    (enough : (Expr.chainTokens operators operands ++ rest).length < fuel) :
    (links rules fuel).run (Expr.chainTokens operators operands ++ rest) =
      some (operators.zip (Expr.unfoldedAll operands), rest) := by
  induction operators generalizing operands fuel with
  | nil =>
    obtain _ | fuel := fuel
    · omega
    simp [Expr.chainTokens, links, run_comparison_of_follows follows]
  | cons operator operators ih =>
    cases operands with
    | nil => simp at paired
    | cons operand operands =>
      obtain _ | fuel := fuel
      · omega
      obtain ⟨starts, reads⟩ := fits operand (by simp)
      have plain := (starts.append (Expr.chainTokens operators operands ++ rest)).mark
        (show (Token.mark "not").onset < 5 by decide)
      have read := reads (Expr.chainTokens operators operands ++ rest) (follows_chain follows)
      have nonempty : 0 < operator.tokens.length := by cases operator <;> decide
      have later : (links rules fuel).run (Expr.chainTokens operators operands ++ rest) =
          some (operators.zip (Expr.unfoldedAll operands), rest) :=
        ih (by simpa using paired) (fun other member => fits other (by simp [member]))
          (by simp [Expr.chainTokens] at enough ⊢; omega)
      simp only [ruleAt] at read
      simp [Expr.chainTokens, links, run_comparison operator _ plain, read, later, Expr.unfoldedAll]

theorem Fits.compare {first : Expr} (linked : operators ≠ [])
    (paired : operators.length = operands.length) (fitsFirst : Fits rules 5 first)
    (fits : ∀ operand ∈ operands, Fits rules 5 operand) :
    Fits rules 4 (.compare first operators operands) where
  starts := by
    rw [Expr.tokens]
    exact (fitsFirst.starts.mono (by omega)).append _
  reads := by
    intro rest follows
    have read := fitsFirst.reads (Expr.chainTokens operators operands ++ rest)
      (follows_chain follows)
    have links := run_links paired fits follows (Nat.lt_add_one _)
    have lengths : operators.length = (Expr.unfoldedAll operands).length := by
      rw [Expr.unfoldedAll_eq_map, length_map, paired]
    have pairs : operators.zip (Expr.unfoldedAll operands) ≠ [] := by
      simpa [zip_eq_nil_iff, ← length_eq_zero_iff, ← lengths] using linked
    have firsts := map_fst_zip (Nat.le_of_eq lengths)
    have seconds := map_snd_zip (Nat.le_of_eq lengths.symm)
    simp only [ruleAt] at read
    simp only [Expr.tokens, append_assoc, ruleAt, comparisons, Expr.unfolded, StateT.run_bind,
      read, run_bounded, links, Option.bind_eq_bind, Option.bind_some]
    simp [firsts, seconds]

theorem run_connected (grip : (Token.mark text).grip = strength)
    (fits : ∀ operand ∈ operands, Fits rules (strength + 1) operand)
    (follows : Follows strength rest)
    (enough : (Expr.tailTokens (.mark text) operands ++ rest).length < fuel) :
    (connected text (ruleAt rules (strength + 1)) fuel).run
      (Expr.tailTokens (.mark text) operands ++ rest) =
        some (Expr.unfoldedAll operands, rest) := by
  induction operands generalizing fuel with
  | nil =>
    obtain _ | fuel := fuel
    · omega
    have ends : beginsWithMark text rest = false := follows.mark (by omega)
    simp [Expr.tailTokens, Expr.unfoldedAll, connected, ends]
  | cons operand operands ih =>
    obtain _ | fuel := fuel
    · omega
    have next : Follows (strength + 1) (Expr.tailTokens (.mark text) operands ++ rest) := by
      cases operands with
      | nil => simpa [Expr.tailTokens] using follows.mono (by omega)
      | cons => exact Follows.cons (by omega)
    have read := (fits operand (by simp)).reads _ next
    have later : (connected text (ruleAt rules (strength + 1)) fuel).run
        (Expr.tailTokens (.mark text) operands ++ rest) =
          some (Expr.unfoldedAll operands, rest) :=
      ih (fun other member => fits other (by simp [member]))
        (by simp [Expr.tailTokens] at enough ⊢; omega)
    simp [Expr.tailTokens, Expr.unfoldedAll, connected, read, later]

theorem Fits.connect {connective : Connective} (several : 2 ≤ operands.length)
    (fits : ∀ operand ∈ operands, Fits rules (connective.strength + 1) operand) :
    Fits rules connective.strength (.connect connective operands) := by
  obtain ⟨first, second, others, rfl⟩ : ∃ first second others, operands = first :: second ::
      others := by
    match operands, several with
    | first :: second :: others, _ => exact ⟨first, second, others, rfl⟩
  have grip : (Token.mark connective.symbol).grip = connective.strength := by
    cases connective <;> rfl
  constructor
  · rw [Expr.tokens, Expr.sequenceTokens]
    exact ((fits first (by simp)).starts.mono (by omega)).append _
  · intro rest follows
    have next : Follows (connective.strength + 1)
        (Expr.tailTokens (.mark connective.symbol) (second :: others) ++ rest) :=
      Follows.cons (by omega)
    have read := (fits first (by simp)).reads _ next
    have later := run_connected grip
      (fun operand member => fits operand (mem_cons_of_mem first member)) follows (Nat.lt_add_one _)
    have rule : ruleAt rules connective.strength =
        Parser.connective connective.symbol connective
          (ruleAt rules (connective.strength + 1)) := by
      cases connective <;> rfl
    simp only [rule, Expr.tokens, Expr.sequenceTokens, append_assoc, Parser.connective,
      Expr.unfolded, StateT.run_bind, read, run_bounded, later, Option.bind_eq_bind,
      Option.bind_some]
    simp [Expr.unfoldedAll]

/-! ## Items and arguments -/

theorem run_expression (starts : Starts 1 tokens) (reads : Reads rules 1 tokens tree)
    (follows : Follows 1 rest) :
    (expression rules).run (tokens ++ rest) = some (tree, rest) := by
  have notFunction : beginsWithMark "lambda" (tokens ++ rest) = false :=
    (starts.append rest).mark (by decide)
  have unconditional : beginsWithMark "if" rest = false := follows.mark (by decide)
  have read := reads rest follows
  simp only [ruleAt] at read
  simp [expression, notFunction, read, unconditional]

end Parser

/-- Marks that no tree has among its tokens: they give a name a value. -/
def Token.assigns (spelling : String) : Prop :=
  spelling = ":=" ∨ spelling = "="

namespace Expr

variable {spelling : String}

theorem mark_not_mem_comparison (assigns : Token.assigns spelling) (operator : Comparison) :
    .mark spelling ∉ operator.tokens := by
  rcases assigns with rfl | rfl <;> cases operator <;> simp [Comparison.tokens]

theorem mem_tailTokens {token separator : Token} {trees : List Expr}
    (member : token ∈ tailTokens separator trees) :
    token = separator ∨ ∃ tree ∈ trees, token ∈ tree.tokens := by
  induction trees with
  | nil => simp [tailTokens] at member
  | cons first rest ih =>
    simp only [tailTokens, mem_cons, mem_append] at member
    grind

theorem mem_sequenceTokens {token separator : Token} {trees : List Expr}
    (member : token ∈ sequenceTokens separator trees) :
    token = separator ∨ ∃ tree ∈ trees, token ∈ tree.tokens := by
  cases trees with
  | nil => simp [sequenceTokens] at member
  | cons first rest =>
    rw [sequenceTokens, mem_append] at member
    have later := @mem_tailTokens token separator rest
    grind

theorem mem_chainTokens {token : Token} {operators : List Comparison} {operands : List Expr}
    (member : token ∈ chainTokens operators operands) :
    (∃ operator : Comparison, token ∈ operator.tokens) ∨ ∃ tree ∈ operands,
      token ∈ tree.tokens := by
  induction operators generalizing operands with
  | nil => simp [chainTokens] at member
  | cons operator operators ih =>
    cases operands with
    | nil => simp [chainTokens] at member
    | cons operand operands =>
      simp only [chainTokens, mem_append] at member
      grind

theorem mark_not_mem_tokens (assigns : Token.assigns spelling) (tree : Expr) :
    .mark spelling ∉ tree.tokens := by
  induction tree using induction_on_children with
  | step tree ih =>
    intro member
    have inside {trees : List Expr} (among : ∀ child ∈ trees, child ∈ tree.children) :
        ¬ ∃ child ∈ trees, .mark spelling ∈ child.tokens :=
      fun ⟨child, isChild, inside⟩ => ih child (among child isChild) inside
    have sequence {separator : Token} {trees : List Expr}
      (among : ∀ child ∈ trees, child ∈ tree.children)
        (within : .mark spelling ∈ sequenceTokens separator trees) : .mark spelling = separator :=
      (mem_sequenceTokens within).resolve_right (inside among)
    cases tree with
    | compare first operators operands =>
      rw [tokens, mem_append] at member
      rcases member with first | chain
      · exact ih _ (by simp [children]) first
      · rcases mem_chainTokens chain with ⟨operator, among⟩ | among
        · exact mark_not_mem_comparison assigns operator among
        · exact inside (by simp +contextual [children]) among
    | name id use =>
      rw [tokens, nameToken] at member
      split at member
      · next literal =>
        rcases literal with rfl | rfl | rfl <;> rcases assigns with rfl | rfl <;> simp at member
      · simp at member
    | number value =>
      rw [tokens, Number.tokens] at member
      rcases assigns with rfl | rfl <;> split at member <;> simp at member
    | binary operator left right =>
      rcases assigns with rfl | rfl <;> cases operator <;>
        simp_all [tokens, children, mark, symbol?]
    | connect connective operands =>
      rw [tokens] at member
      have isSymbol := sequence (by simp [children]) member
      rcases assigns with rfl | rfl <;> cases connective <;> simp [Connective.symbol] at isSymbol
    | _ =>
      rcases assigns with rfl | rfl <;> simp [tokens, children] at * <;> grind

theorem no_assignment (assigns : Token.assigns spelling) (tree : Expr)
    (follows : Parser.Follows 14 rest) :
    Parser.beginsWithWordAndMark spelling (tree.tokens ++ rest) = false := by
  have absent := mark_not_mem_tokens assigns tree
  have grips : 14 ≤ (Token.mark spelling).grip := by rcases assigns with rfl | rfl <;> decide
  unfold Parser.beginsWithWordAndMark
  split
  · next id other after same =>
    rw [beq_eq_false_iff_ne]
    rintro rfl
    match split : tree.tokens with
    | [] =>
      rw [split, nil_append] at same
      have weaker := follows (.word id) (by simp [same])
      simp [Token.grip] at weaker
    | [only] =>
      rw [split, singleton_append, cons.injEq] at same
      have weaker := follows (.mark other) (by simp [same.2])
      omega
    | first :: second :: others =>
      rw [split, cons_append, cons_append, cons.injEq, cons.injEq] at same
      exact absent (by simp [split, same.2.1])
  · rfl

end Expr

namespace Parser

variable {lexicon : Lexicon} {rest : List Token} {trees : List Expr}

variable {tree : Expr}

theorem isStarred_unfolded (bare : tree.Bare lexicon) :
    isStarred tree.unfolded = false := by
  cases tree with
  | number value =>
    rw [Expr.unfolded]
    split <;> rfl
  | other form children => simp [Expr.Bare] at bare
  | _ => rfl

/-- An item of a list, a tuple or a call: it is read by the rules for nested expressions. -/
structure Item (rules : Rules) (tree : Expr) : Prop where
  plain : isStarred tree.unfolded = false
  starts : Starts 1 tree.tokens
  named : ∀ rest, Follows 1 rest →
    (named rules).run (tree.tokens ++ rest) = some (tree.unfolded, rest)

theorem Item.of_fits {depth : Nat} (bare : tree.Bare lexicon) (fits : Fits (rules depth) 1 tree) :
    Item (rules (depth + 1)) tree where
  plain := isStarred_unfolded bare
  starts := fits.starts
  named := by
    intro rest follows
    have unassigned := Expr.no_assignment (.inl rfl) tree (follows.mono (by omega))
    simpa [Parser.named, unassigned, rules] using run_expression fits.starts fits.reads follows

theorem Item.starNamed {rules : Rules} (item : Item rules tree) (follows : Follows 1 rest) :
    (starNamed rules).run (tree.tokens ++ rest) = some (tree.unfolded, rest) := by
  have notSpread : beginsWithMark "*" (tree.tokens ++ rest) = false :=
    (item.starts.append rest).mark (by decide)
  simp [Parser.starNamed, notSpread, item.named rest follows]

/-- Items with commas between them, up to a closing mark; a comma may come last. -/
inductive Separated (closing : String) (rest : List Token) : List Expr → List Token → Prop
  | nil : Separated closing rest [] (.mark closing :: rest)
  | last (only : Expr) : Separated closing rest [only] (only.tokens ++ .mark closing :: rest)
  | next (first : Expr) {others : List Expr} {after : List Token}
      (separated : Separated closing rest others after) :
    Separated closing rest (first :: others) (first.tokens ++ .mark "," :: after)

theorem separated_sequence (closing : String) (rest : List Token) (items : List Expr) :
    Separated closing rest items (Expr.sequenceTokens (.mark ",") items ++ .mark closing ::
      rest) := by
  induction items with
  | nil => exact .nil
  | cons first others ih =>
    cases others with
    | nil => simpa [Expr.sequenceTokens, Expr.tailTokens] using Separated.last first
    | cons => simpa [Expr.sequenceTokens, Expr.tailTokens] using Separated.next first ih

section Separated

variable {rules : Rules} {items : List Expr} {tokens : List Token} {fuel : Nat}

theorem run_itemsUntil (bracket : Bracket)
    (separated : Separated bracket.closingMark rest items tokens)
    (all : ∀ item ∈ items, Item rules item) (enough : tokens.length < fuel) :
    (itemsUntil (starNamed rules) bracket.closingMark fuel).run tokens =
      some (Expr.unfoldedAll items, .mark bracket.closingMark :: rest) := by
  have unclosed {first : Expr} {after : List Token} (item : Item rules first) :
      beginsWithMark bracket.closingMark (first.tokens ++ after) = false :=
    (item.starts.append after).mark (by cases bracket <;> decide)
  induction separated generalizing fuel with
  | nil =>
    obtain _ | fuel := fuel
    · omega
    simp [Expr.unfoldedAll, itemsUntil]
  | last only =>
    obtain _ | fuel := fuel
    · omega
    have item := all only (by simp)
    have ends : Follows 1 (.mark bracket.closingMark :: rest) := .cons (by cases bracket <;> decide)
    have noComma : beginsWithMark "," (.mark bracket.closingMark :: rest) = false := by
      cases bracket <;> rfl
    simp [Expr.unfoldedAll, itemsUntil, unclosed item, item.starNamed ends, noComma]
  | @next first others after _ ih =>
    obtain _ | fuel := fuel
    · omega
    rw [forall_mem_cons] at all
    have later := ih all.2 (show _ < fuel by simp at enough; omega)
    have read := all.1.starNamed (.comma after)
    simp [Expr.unfoldedAll, itemsUntil, unclosed all.1, read, later]

theorem run_bracketed (separated : Separated "]" rest items tokens)
    (all : ∀ item ∈ items, Item rules item) :
    (bracketed rules).run tokens = some (.list (Expr.unfoldedAll items) .load, rest) := by
  have unclosed {first : Expr} {after : List Token} (item : Item rules first) :
      beginsWithMark "]" (first.tokens ++ after) = false :=
        (item.starts.append after).mark (by decide)
  cases separated with
  | nil => simp [Expr.unfoldedAll, bracketed]
  | last only =>
    have item := all only (by simp)
    have read := item.starNamed (show Follows 1 (.mark "]" :: rest) from .cons (by decide))
    simp [Expr.unfoldedAll, bracketed, unclosed item, read, atClause]
  | @next first _ after separated =>
    rw [forall_mem_cons] at all
    have read := all.1.starNamed (.comma after)
    have later := run_itemsUntil .square separated all.2 (Nat.lt_add_one _)
    simp only [Bracket.closingMark] at later
    simp [bracketed, unclosed all.1, read, later, Expr.unfoldedAll]

theorem run_parenthesized (notOne : items.length ≠ 1) (all : ∀ item ∈ items, Item rules item)
    (rest : List Token) :
    (parenthesized rules).run (Expr.sequenceTokens (.mark ",") items ++ .mark ")" :: rest) =
      some (.tuple (Expr.unfoldedAll items) .load, rest) := by
  cases items with
  | nil => simp [Expr.sequenceTokens, Expr.unfoldedAll, parenthesized]
  | cons first others =>
    rw [forall_mem_cons] at all
    generalize written : Expr.sequenceTokens (.mark ",") (first :: others) ++ .mark ")" ::
      rest = tokens
    cases written ▸ separated_sequence ")" rest (first :: others) with
    | last => exact absurd rfl notOne
    | @next _ _ after separated =>
      have starts := all.1.starts.append (.mark "," :: after)
      have unclosed : beginsWithMark ")" (first.tokens ++ .mark "," :: after) = false :=
        starts.mark (by decide)
      have notYield : beginsWithMark "yield" (first.tokens ++ .mark "," :: after) = false :=
        starts.mark (by decide)
      have read := all.1.starNamed (.comma after)
      have later := run_itemsUntil .round separated all.2 (Nat.lt_add_one _)
      simp only [Bracket.closingMark] at later
      simp [parenthesized, unclosed, notYield, read, later, Expr.unfoldedAll]

theorem Item.positional (item : Item rules tree) (follows : Follows 1 rest) :
    beginsWithMark ")" (tree.tokens ++ rest) = false ∧
      beginsWithMark "*" (tree.tokens ++ rest) = false ∧
      beginsWithMark "**" (tree.tokens ++ rest) = false ∧
      beginsWithWordAndMark "=" (tree.tokens ++ rest) = false :=
  ⟨(item.starts.append rest).mark (by decide), (item.starts.append rest).mark (by decide),
    (item.starts.append rest).mark (by decide),
    Expr.no_assignment (.inr rfl) tree (follows.mono (by omega))⟩

theorem run_argumentsFrom (separated : Separated ")" rest items tokens)
    (all : ∀ item ∈ items, Item rules item) (enough : tokens.length < fuel) :
    (argumentsFrom rules false false fuel).run tokens =
      some ({ positional := Expr.unfoldedAll items }, .mark ")" :: rest) := by
  induction separated generalizing fuel with
  | nil =>
    obtain _ | fuel := fuel
    · omega
    simp [Expr.unfoldedAll, argumentsFrom]
  | last only =>
    obtain _ | fuel := fuel
    · omega
    have item := all only (by simp)
    have follows : Follows 1 (.mark ")" :: rest) := .cons (by decide)
    simp [Expr.unfoldedAll, argumentsFrom, item.positional follows, item.named _ follows]
  | @next first others after _ ih =>
    obtain _ | fuel := fuel
    · omega
    rw [forall_mem_cons] at all
    have later := ih all.2 (show _ < fuel by simp at enough; omega)
    have follows := Follows.comma after
    simp [Expr.unfoldedAll, argumentsFrom, all.1.positional follows, all.1.named _ follows, later]

theorem run_callArguments (all : ∀ item ∈ items, Item rules item) (rest : List Token) :
    (callArguments rules).run (Expr.sequenceTokens (.mark ",") items ++ .mark ")" :: rest) =
      some ({ positional := Expr.unfoldedAll items }, rest) := by
  cases items with
  | nil => simp [Expr.sequenceTokens, Expr.unfoldedAll, callArguments, argumentsFrom]
  | cons first others =>
    rw [forall_mem_cons] at all
    generalize written : Expr.sequenceTokens (.mark ",") (first :: others) ++ .mark ")" ::
      rest = tokens
    cases written ▸ separated_sequence ")" rest (first :: others) with
    | last =>
      have follows : Follows 1 (.mark ")" :: rest) := .cons (by decide)
      simp [Expr.unfoldedAll, callArguments, all.1.positional follows, all.1.named _ follows,
        atClause]
    | @next _ _ after separated =>
      have follows := Follows.comma after
      have later := run_argumentsFrom separated all.2 (Nat.lt_add_one _)
      simp [callArguments, all.1.positional follows, all.1.named _ follows, later, atClause,
        Expr.unfoldedAll]

end Separated

/-! ## Atoms -/

theorem run_stringTokens_of_follows (follows : Follows 14 rest) (fuel : Nat) :
    (stringTokens fuel).run rest = some ([], rest) := by
  cases fuel with
  | zero => rfl
  | succ fuel =>
    cases rest with
    | nil => rfl
    | cons token rest =>
      have weaker := follows token rfl
      cases token with
      | text | bytes | template => simp [Token.grip] at weaker
      | word | number | mark => rfl

theorem run_atom_text {rules : Rules} (value : String) (follows : Follows 14 rest) :
    (atom rules).run (.text value :: rest) = some (.text value, rest) := by
  have single : (stringTokens (rest.length + 2)).run (.text value :: rest) =
      some ([.text value], rest) := by
    rw [stringTokens]
    simp [run_stringTokens_of_follows follows]
  simp [atom, strings, single, isBytes, isTemplate, plainText]

theorem run_atom_name {rules : Rules} (id : String) (rest : List Token) :
    (atom rules).run (Expr.nameToken id :: rest) = some (.name id .load, rest) := by
  unfold Expr.nameToken
  split
  · next literal => rcases literal with rfl | rfl | rfl <;> rfl
  · simp [atom]

/-! ## Trees -/

theorem length_lt_tail {separator : Token} (member : tree ∈ trees) :
    tree.tokens.length < (Expr.tailTokens separator trees).length := by
  induction trees with
  | nil => cases member
  | cons first rest ih =>
    simp only [Expr.tailTokens, length_cons, length_append]
    rcases mem_cons.mp member with rfl | later
    · omega
    · have := ih later
      omega

theorem length_le_sequence {separator : Token} (member : tree ∈ trees) :
    tree.tokens.length ≤ (Expr.sequenceTokens separator trees).length := by
  cases trees with
  | nil => cases member
  | cons first rest =>
    rcases mem_cons.mp member with rfl | later
    · simp [Expr.sequenceTokens]
    · have : tree.tokens.length < (Expr.tailTokens separator rest).length := length_lt_tail later
      simp [Expr.sequenceTokens]
      omega

theorem length_le_chain {operators : List Comparison} {operand : Expr} {operands : List Expr}
    (paired : operators.length = operands.length) (member : operand ∈ operands) :
    operand.tokens.length ≤ (Expr.chainTokens operators operands).length := by
  induction operators generalizing operands with
  | nil =>
    rw [length_nil, eq_comm, length_eq_zero_iff] at paired
    simp [paired] at member
  | cons operator operators ih =>
    cases operands with
    | nil => cases member
    | cons first rest =>
      rcases mem_cons.mp member with rfl | later
      · simp [Expr.chainTokens]
        omega
      · have := ih (by simpa using paired) later
        simp [Expr.chainTokens]
        omega

/-- A tree is read from its tokens, and so is what loops of the grammar add to it. -/
structure Parses (rules : Rules) (tree : Expr) : Prop where
  fits : Fits rules tree.strength tree
  trails : tree.strength = 13 → Trails rules tree.tokens tree.unfolded
  chains : tree.strength = 9 ∨ tree.strength = 10 →
    Chains rules tree.strength tree.tokens tree.unfolded

theorem strength_bounds (tree : Expr) : 1 ≤ tree.strength ∧ tree.strength ≤ 13 := by
  unfold Expr.strength
  split
  · next connective _ => cases connective <;> decide
  · decide
  · decide
  · next operator _ _ => cases operator <;> decide
  · split <;> decide
  · decide

namespace Parses

variable {rules : Rules} {tree : Expr}

theorem of_trails (primary : tree.strength = 13) (starts : Starts 13 tree.tokens)
    (trails : Trails rules tree.tokens tree.unfolded) : Parses rules tree where
  fits := ⟨primary ▸ starts, primary ▸ trails.reads⟩
  trails := fun _ => trails
  chains := by omega

theorem of_atom (primary : tree.strength = 13) (starts : Starts 14 tree.tokens)
    (read : ∀ rest, Follows 14 rest →
      (atom rules).run (tree.tokens ++ rest) = some (tree.unfolded, rest)) :
    Parses rules tree :=
  of_trails primary (starts.mono (by omega)) (.atom starts read)

theorem of_fits (loose : tree.strength < 9 ∨ tree.strength = 11)
    (fits : Fits rules tree.strength tree) : Parses rules tree where
  fits := fits
  trails := by omega
  chains := by omega

theorem of_chains (loop : tree.strength = 9 ∨ tree.strength = 10)
    (starts : Starts tree.strength tree.tokens)
    (chains : Chains rules tree.strength tree.tokens tree.unfolded) : Parses rules tree where
  fits := ⟨starts, chains.reads loop⟩
  trails := by omega
  chains := fun _ => chains

theorem fitsAt (parses : Parses rules tree) {weaker : Nat} (positive : 1 ≤ weaker)
    (atMost : weaker ≤ tree.strength) : Fits rules weaker tree where
  starts := parses.fits.starts.mono atMost
  reads := parses.fits.reads.loosenTo (strength_bounds tree).2 parses.fits.starts positive atMost

theorem chainsAt (parses : Parses rules tree) (loop : strength = 9 ∨ strength = 10)
    (atMost : strength ≤ tree.strength) :
    Chains rules strength tree.tokens tree.unfolded := by
  rcases Nat.eq_or_lt_of_le atMost with rfl | tighter
  · exact parses.chains loop
  · exact Chains.first loop (parses.fitsAt (by omega) tighter).reads

theorem item {lexicon : Lexicon} {depth : Nat} (bare : tree.Bare lexicon)
    (parses : Parses (Parser.rules depth) tree) : Item (Parser.rules (depth + 1)) tree :=
  Item.of_fits bare (parses.fitsAt (by omega) (strength_bounds tree).1)

end Parses

/-- Trees that are read at the depth their tokens need are items one level up. -/
theorem items_of_parses {depth : Nat} (parsed : ∀ tree ∈ trees, tree.Bare lexicon ∧
      ∀ depth, tree.tokens.length ≤ depth → Parses (rules depth) tree)
    (enough : (Expr.sequenceTokens (.mark ",") trees).length ≤ depth) :
    ∀ tree ∈ trees, Item (rules (depth + 1)) tree := by
  intro tree member
  obtain ⟨bare, parses⟩ := parsed tree member
  have short : tree.tokens.length ≤ (Expr.sequenceTokens (.mark ",") trees).length :=
    length_le_sequence member
  exact (parses depth (by omega)).item bare

/-- The rules read every bare tree from its tokens, if they nest as deep as there are tokens. -/
theorem parses (tree : Expr) (bare : tree.Bare lexicon) (depth : Nat)
    (enough : tree.tokens.length ≤ depth) :
    Parses (rules depth) tree := by
  induction tree using Expr.induction_on_children generalizing depth with
  | step tree ih =>
  have parsed {trees : List Expr} (among : ∀ child ∈ trees, child ∈ tree.children)
      (bare : Expr.BareAll lexicon trees) : ∀ tree ∈ trees, tree.Bare lexicon ∧
        ∀ depth, tree.tokens.length ≤ depth → Parses (rules depth) tree := by
    intro child isChild
    have bareChild := Expr.bareAll_iff.mp bare child isChild
    exact ⟨bareChild, ih child (among child isChild) bareChild⟩
  cases tree with
  | name id use =>
    obtain ⟨rfl, -⟩ := bare
    have starts : Starts 14 [Expr.nameToken id] := by
      refine ⟨_, _, rfl, ?_⟩
      unfold Expr.nameToken
      split
      · next literal => rcases literal with rfl | rfl | rfl <;> decide
      · exact Nat.le_refl _
    refine .of_atom rfl (by rwa [Expr.tokens]) fun rest _ => ?_
    rw [Expr.tokens]
    exact run_atom_name id rest
  | number value =>
    have starts (value : Number) : Starts 14 [Token.number value] :=
      ⟨_, _, rfl, by simp [Token.onset]⟩
    cases signed : value.isSigned with
    | false =>
      have token : (Expr.number value).tokens = [.number value] := by
        simp [Expr.tokens, Number.tokens, signed]
      refine .of_atom (by simp [Expr.strength, signed]) (token ▸ starts value) fun rest _ => ?_
      simp [token, Expr.unfolded, signed, atom]
    | true =>
      have strength : (Expr.number value).strength = 11 := by simp [Expr.strength, signed]
      refine .of_fits (.inr strength) (strength ▸ ?_)
      obtain ⟨depth, rfl⟩ : ∃ less, depth = less + 1 := by
        simp only [Expr.tokens, Number.tokens, signed, if_true, length_cons] at enough
        exact ⟨depth - 1, by omega⟩
      constructor
      · simp only [Expr.tokens, Number.tokens, signed, if_true]
        exact ⟨_, _, rfl, by decide⟩
      · intro rest follows
        have trails : Trails (rules depth) [Token.number value.negate] (.number value.negate) :=
          .atom (starts _) fun rest _ => by simp [atom]
        have read := trails.reads.loosenTo (by omega) ((starts _).mono (by omega))
          (show 1 ≤ 11 by omega) (by omega) rest follows
        have inner : (rules (depth + 1)).factor = factor (rules depth) := rfl
        simp only [ruleAt, singleton_append] at read
        simp only [ruleAt, Expr.tokens, Number.tokens, signed, Expr.unfolded]
        rw [factor]
        simp [inner, read]
  | text value =>
    refine .of_atom rfl ⟨_, _, by rw [Expr.tokens], by simp [Token.onset]⟩ fun rest follows => ?_
    rw [Expr.tokens]
    exact run_atom_text value follows
  | list items use =>
    obtain ⟨rfl, bareItems⟩ := bare
    rw [Expr.tokens, length_cons, length_append] at enough
    obtain _ | depth := depth
    · omega
    have all := items_of_parses (parsed (by simp [Expr.children]) bareItems) (show _ ≤ depth by
      omega)
    refine .of_atom rfl ⟨_, _, by rw [Expr.tokens], by decide⟩ fun rest _ => ?_
    simp [Expr.tokens, Expr.unfolded, atom, run_bracketed (separated_sequence "]" rest items) all]
  | tuple items use =>
    obtain ⟨rfl, notOne, bareItems⟩ := bare
    rw [Expr.tokens, length_cons, length_append] at enough
    obtain _ | depth := depth
    · omega
    have all := items_of_parses (parsed (by simp [Expr.children]) bareItems) (show _ ≤ depth by
      omega)
    refine .of_atom rfl ⟨_, _, by rw [Expr.tokens], by decide⟩ fun rest _ => ?_
    simp [Expr.tokens, Expr.unfolded, atom, run_parenthesized notOne all rest]
  | access value label use =>
    obtain ⟨rfl, -, bareValue, dotted⟩ := bare
    rw [Expr.tokens, length_append] at enough
    have value_parses := ih value (by simp [Expr.children]) bareValue depth (by omega)
    have primary := Expr.strength_of_isDotted dotted
    refine .of_trails rfl ?_ ?_
    · rw [Expr.tokens]
      exact (primary ▸ value_parses.fits.starts).append _
    · rw [Expr.tokens, Expr.unfolded]
      exact (value_parses.trails primary).access
  | call function arguments keywords =>
    obtain ⟨rfl, bareFunction, primary, bareArguments⟩ := bare
    obtain ⟨depth, rfl⟩ : ∃ less, depth = less + 1 := by
      simp only [Expr.tokens, length_append, length_cons] at enough
      exact ⟨depth - 1, by omega⟩
    rw [Expr.tokens] at enough
    have all : ∀ item ∈ arguments, Item (rules (depth + 1)) item :=
      items_of_parses (parsed (by simp +contextual [Expr.children]) bareArguments)
        (by simp at enough; omega)
    have function_parses :=
      ih function (by simp [Expr.children]) bareFunction (depth + 1) (by simp at enough; omega)
    refine .of_trails rfl ?_ ?_
    · rw [Expr.tokens]
      exact (primary ▸ function_parses.fits.starts).append _
    · rw [Expr.tokens, Expr.unfolded]
      refine (function_parses.trails primary).call fun rest => ?_
      simpa using run_callArguments all rest
  | compare first operators operands =>
    obtain ⟨linked, paired, ⟨bareFirst, tightFirst⟩, bareOperands, tight⟩ := bare
    rw [Expr.tokens, length_append] at enough
    refine .of_fits (.inl (show 4 < 9 by omega)) (Fits.compare linked paired ?_ ?_)
    · exact (ih first (by simp [Expr.children]) bareFirst depth (by omega)).fitsAt (by omega)
        tightFirst
    · intro operand member
      have short := length_le_chain paired member
      exact ((parsed (by simp +contextual [Expr.children]) bareOperands operand member).2 depth
        (by omega)).fitsAt (by omega) (tight operand member)
  | connect connective operands =>
    obtain ⟨several, bareOperands, tight⟩ := bare
    rw [Expr.tokens] at enough
    have loose : connective.strength < 9 := by cases connective <;> decide
    refine .of_fits (.inl loose) (Fits.connect several ?_)
    intro operand member
    have short : operand.tokens.length ≤
        (Expr.sequenceTokens (.mark connective.symbol) operands).length :=
      length_le_sequence member
    exact ((parsed (by simp +contextual [Expr.children]) bareOperands operand member).2 depth
      (by omega)).fitsAt (by omega) (tight operand member)
  | binary operator left right =>
    obtain ⟨written, ⟨bareLeft, tightLeft⟩, bareRight, tightRight⟩ := bare
    rw [Expr.tokens, length_append, length_cons] at enough
    have loop : operator.strength = 9 ∨ operator.strength = 10 := by
      cases operator <;> simp [strength]
    have left_parses := ih left (by simp [Expr.children]) bareLeft depth (by omega)
    have right_parses := ih right (by simp [Expr.children]) bareRight depth (by omega)
    refine .of_chains loop ?_ ?_
    · rw [Expr.tokens]
      exact (left_parses.fits.starts.mono tightLeft).append _
    · rw [Expr.tokens, Expr.unfolded]
      refine (left_parses.chainsAt loop tightLeft).next ?_ ?_
        (right_parses.fitsAt (by omega) tightRight).reads
      · cases operator <;> first | rfl | simp [symbol?] at written
      · cases operator <;> first | rfl | simp [symbol?] at written
  | unary operator operand =>
    obtain ⟨rfl, bareOperand, tight⟩ := bare
    obtain ⟨depth, rfl⟩ : ∃ less, depth = less + 1 := by
      simp only [Expr.tokens, length_cons] at enough
      exact ⟨depth - 1, by omega⟩
    rw [Expr.tokens, length_cons] at enough
    have fits := (ih operand (by simp [Expr.children]) bareOperand depth (by omega)).fitsAt
      (Nat.le_add_left 1 2) tight
    refine .of_fits (.inl (show 3 < 9 by omega)) ⟨?_, fun rest follows => ?_⟩
    · rw [Expr.tokens]
      exact ⟨_, _, rfl, show 3 ≤ _ by decide⟩
    · have read := fits.reads rest follows
      have inner : (rules (depth + 1)).inversion = inversion (rules depth) := rfl
      simp only [ruleAt] at read
      simp only [Expr.strength, ruleAt, Expr.tokens, Expr.unfolded]
      rw [inversion]
      simp [inner, read]
  | dict | spread | other => simp [Expr.Bare] at bare

end Parser

end ApiDescription
