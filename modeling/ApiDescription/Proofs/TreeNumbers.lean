import ApiDescription.Expression.Parser
import ApiDescription.Proofs.TreeParts

/-!
# Numbers from tokens to trees

No rule of the grammar makes a number of its own: the numbers of a parsed tree are those of its
tokens, and only a sign before a number changes one.  So what is allowed of every number among the
tokens, and of a number when of its opposite, is allowed of every number in the tree.  Nor does any
rule make an and/or chain without operands.

Each rule has a triple: from tokens whose numbers are allowed it yields sound trees, and leaves such
tokens.
-/

set_option mvcgen.warning false

namespace ApiDescription

open Std.Do

/-! ## Tokens and trees with allowed numbers -/

mutual

/-- A token all of whose numbers are allowed, those in embedded expressions too. -/
inductive Token.Within (allowed : Number → Prop) : Token → Prop
  | word {text : String} : Token.Within allowed (.word text)
  | number {value : Number} : allowed value → Token.Within allowed (.number value)
  | text {value : String} : Token.Within allowed (.text value)
  | bytes : Token.Within allowed .bytes
  | template {pieces : List Piece} :
      (∀ piece ∈ pieces, Piece.Within allowed piece) → Token.Within allowed (.template pieces)
  | mark {text : String} : Token.Within allowed (.mark text)

/-- A piece of a template all of whose numbers are allowed. -/
inductive Piece.Within (allowed : Number → Prop) : Piece → Prop
  | literal {text : String} : Piece.Within allowed (.literal text)
  | embedded {tokens : List Token} {format : Option (List Piece)} :
      (∀ token ∈ tokens, Token.Within allowed token) →
      (∀ pieces ∈ format, ∀ piece ∈ pieces, Piece.Within allowed piece) →
      Piece.Within allowed (.embedded tokens format)

end

@[simp] theorem Token.within_number {allowed : Number → Prop} {value : Number} :
    Token.Within allowed (.number value) ↔ allowed value := by
  constructor
  · intro within
    cases within with
    | number within => exact within
  · exact .number

variable {allowed : Number → Prop}

namespace Expr

/-- A number is allowed, and a chain has operands. -/
def WellMade (allowed : Number → Prop) (tree : Expr) : Prop :=
  (∀ value, tree.shape = .number value → allowed value) ∧
    ∀ connective, tree.shape = .connect connective → tree.children ≠ []

/-- A tree all of whose numbers are allowed and all of whose chains have operands. -/
def Sound (allowed : Number → Prop) : Expr → Prop :=
  Everywhere (WellMade allowed)

section Sound

attribute [local simp] WellMade shape children

variable {items keys values arguments keywords operands : List Expr} {use : Use}
variable {first second : Expr}

@[simp, grind ←] theorem sound_name {id : String} : Sound allowed (name id use) :=
  (everywhere_iff _).mpr (by simp)

@[simp, grind =] theorem sound_number {value : Number} :
    Sound allowed (number value) ↔ allowed value :=
  (everywhere_iff _).trans (by simp)

@[simp, grind ←] theorem sound_text {value : String} : Sound allowed (text value) :=
  (everywhere_iff _).mpr (by simp)

@[simp, grind =] theorem sound_list :
    Sound allowed (list items use) ↔ ∀ item ∈ items, item.Sound allowed :=
  (everywhere_iff _).trans (by simp [Sound])

@[simp, grind =] theorem sound_tuple :
    Sound allowed (tuple items use) ↔ ∀ item ∈ items, item.Sound allowed :=
  (everywhere_iff _).trans (by simp [Sound])

@[simp, grind =] theorem sound_dict :
    Sound allowed (dict keys values) ↔
      (∀ key ∈ keys, key.Sound allowed) ∧ ∀ value ∈ values, value.Sound allowed :=
  (everywhere_iff _).trans (by simp [Sound, or_imp, forall_and])

@[simp, grind ←] theorem sound_spread : Sound allowed spread :=
  (everywhere_iff _).mpr (by simp)

@[simp, grind =] theorem sound_access {label : String} :
    Sound allowed (access first label use) ↔ first.Sound allowed :=
  (everywhere_iff _).trans (by simp [Sound])

@[simp, grind =] theorem sound_call :
    Sound allowed (call first arguments keywords) ↔
      first.Sound allowed ∧ (∀ argument ∈ arguments, argument.Sound allowed) ∧
        ∀ keyword ∈ keywords, keyword.Sound allowed :=
  (everywhere_iff _).trans (by simp [Sound, or_imp, forall_and])

@[simp, grind =] theorem sound_compare {operators : List Comparison} :
    Sound allowed (compare first operators operands) ↔
      first.Sound allowed ∧ ∀ operand ∈ operands, operand.Sound allowed :=
  (everywhere_iff _).trans (by simp [Sound])

@[simp, grind =] theorem sound_connect {connective : Connective} :
    Sound allowed (connect connective operands) ↔
      operands ≠ [] ∧ ∀ operand ∈ operands, operand.Sound allowed :=
  (everywhere_iff _).trans (by simp [Sound])

@[simp, grind =] theorem sound_binary {operator : BinaryOperator} :
    Sound allowed (binary operator first second) ↔ first.Sound allowed ∧ second.Sound allowed :=
  (everywhere_iff _).trans (by simp [Sound])

@[simp, grind =] theorem sound_unary {operator : UnaryOperator} :
    Sound allowed (unary operator first) ↔ first.Sound allowed :=
  (everywhere_iff _).trans (by simp [Sound])

@[simp, grind =] theorem sound_other {form : Form} :
    Sound allowed (other form items) ↔ ∀ item ∈ items, item.Sound allowed :=
  (everywhere_iff _).trans (by simp [Sound])

end Sound

/-- Taking signs into numbers keeps a tree sound where opposites are allowed. -/
theorem sound_foldSigns (opposite : ∀ value, allowed value → allowed value.negate) (tree : Expr)
    (sound : tree.Sound allowed) : tree.foldSigns.Sound allowed := by
  induction tree using induction_on_children with
  | step tree ih =>
    by_cases signed : ∃ value, tree = unary .minus (number value)
    · obtain ⟨value, rfl⟩ := signed
      simpa [foldSigns] using opposite value (by simpa using sound)
    · obtain ⟨shape, children⟩ := foldSigns_eq (not_exists.mp signed)
      obtain ⟨⟨numbers, chains⟩, below⟩ := (everywhere_iff tree).mp sound
      refine (everywhere_iff _).mpr ⟨⟨?_, ?_⟩, ?_⟩
      · rwa [shape]
      · simpa [shape, children] using chains
      · rw [children, List.forall_mem_map]
        exact fun child isChild => ih child isChild (below child isChild)

end Expr

/-! ## Rules of the grammar -/

namespace Parser

variable {text : String} {level : Level} {operand : Parser Expr}

/-- From tokens whose numbers are allowed a rule yields good values, and leaves such tokens. -/
abbrev Yields {α : Type} (allowed : Number → Prop) (good : α → Prop) (rule : Parser α) : Prop :=
  ⦃fun tokens => ⌜∀ token ∈ tokens, token.Within allowed⌝⦄ rule
  ⦃⇓? value => fun tokens => ⌜good value ∧ ∀ token ∈ tokens, token.Within allowed⌝⦄

abbrev YieldsTree (allowed : Number → Prop) : Parser Expr → Prop :=
  Yields allowed (Expr.Sound allowed)

abbrev YieldsTrees (allowed : Number → Prop) : Parser (List Expr) → Prop :=
  Yields allowed (∀ tree ∈ ·, tree.Sound allowed)

/-- A rule for tokens that no tree is made from. -/
abbrev Passes {α : Type} (allowed : Number → Prop) : Parser α → Prop :=
  Yields allowed fun _ => True

/-- Every rule that nested parts start from yields sound trees. -/
structure Rules.Yield (allowed : Number → Prop) (rules : Rules) : Prop where
  expression : YieldsTree allowed rules.expression
  disjunction : YieldsTree allowed rules.disjunction
  inversion : YieldsTree allowed rules.inversion
  bitOr : YieldsTree allowed rules.bitOr
  factor : YieldsTree allowed rules.factor

section Tokens

/-- What is known of a run of a rule. -/
theorem Yields.run {α : Type} {good : α → Prop} {rule : Parser α} {tokens rest : List Token}
    {value : α} (yields : Yields allowed good rule)
    (within : ∀ token ∈ tokens, token.Within allowed) (ran : rule.run tokens = some (value, rest)) :
    good value ∧ ∀ token ∈ rest, token.Within allowed := by
  have holds := yields tokens within
  simp only [wp, PredTrans.apply_pushArg] at holds
  rw [ran] at holds
  exact holds

@[spec] theorem failure_spec {α : Type}
    {goal : PostCond α (.arg (List Token) (.except PUnit .pure))} :
    ⦃fun _ => goal.2.1 ⟨⟩⦄ (failure : Parser α) ⦃goal⦄ := by
  intro tokens holds
  exact holds

@[spec] theorem yields_peek :
    Yields allowed (fun next => ∀ token ∈ next, token.Within allowed) peek := by
  mvcgen [peek]
  grind

@[spec] theorem yields_advance : Passes allowed advance := by
  mvcgen [advance]
  grind

@[spec] theorem yields_atMark (text : String) : Passes allowed (atMark text) := by
  mvcgen [atMark] <;> simp_all

@[spec] theorem yields_tryMark (text : String) : Passes allowed (tryMark text) := by
  mvcgen [tryMark]
  simp_all

@[spec] theorem yields_mark (text : String) : Passes allowed (mark text) := by
  mvcgen [mark]

@[spec] theorem yields_word : Passes allowed word := by
  mvcgen [word]
  simp_all

@[spec] theorem yields_atWordAndMark (text : String) : Passes allowed (atWordAndMark text) := by
  mvcgen [atWordAndMark] <;> simp_all

end Tokens

/-- The target of an assignment consists of parts of the tree it was read as. -/
theorem sound_asTarget :
    ∀ {tree target : Expr}, asTarget tree = some target → tree.Sound allowed →
      target.Sound allowed := by
  intro tree
  refine @asTarget.induct
    (fun tree => ∀ {target}, asTarget tree = some target → tree.Sound allowed →
      target.Sound allowed)
    (fun trees => ∀ {targets}, asTargets trees = some targets →
      (∀ tree ∈ trees, tree.Sound allowed) → ∀ target ∈ targets, target.Sound allowed)
    ?constant ?name ?access ?list ?tuple ?subscript ?starred ?noTarget ?nil ?cons tree
  case constant => simp +contextual [asTarget]
  case name => simp +contextual [asTarget]
  case access => simp +contextual [asTarget]
  case subscript => simp +contextual [asTarget]
  case list | tuple =>
    intro items use ih target found within
    simp only [asTarget, Option.map_eq_some_iff] at found
    obtain ⟨targets, found, rfl⟩ := found
    simpa using ih found (by simpa using within)
  case starred =>
    intro use value ih target found within
    simp only [asTarget, Option.map_eq_some_iff] at found
    obtain ⟨inner, found, rfl⟩ := found
    simpa using ih found (by simpa using within)
  case noTarget =>
    intro tree name access list tuple subscript starred target found
    rw [asTarget] at found
    all_goals first | assumption | simp at found
  case nil => simp [asTargets]
  case cons =>
    intro first rest ih ihRest targets found within
    simp only [asTargets, bind, Option.bind_eq_some_iff, pure, Option.some.injEq] at found
    obtain ⟨target, foundFirst, others, foundRest, rfl⟩ := found
    rw [List.forall_mem_cons] at within ⊢
    exact ⟨ih foundFirst within.1, ihRest foundRest within.2⟩

attribute [spec] Rules.Yield.expression Rules.Yield.disjunction Rules.Yield.inversion
  Rules.Yield.bitOr Rules.Yield.factor

section Nested

variable {rules : Rules} (inner : rules.Yield allowed)

include inner

/-! ### Assignment expressions, stars and targets -/

@[spec] theorem yields_named : YieldsTree allowed (named rules) := by
  mvcgen [named] <;> grind

@[spec] theorem yields_starNamed : YieldsTree allowed (starNamed rules) := by
  mvcgen [starNamed] <;> grind

@[spec] theorem yields_starExpression : YieldsTree allowed (starExpression rules) := by
  mvcgen [starExpression] <;> grind

omit inner in
/-- Items with commas between them, up to a closing mark. -/
@[spec] theorem yields_itemsUntil {item : Parser Expr} {closing : String}
    (each : YieldsTree allowed item) (fuel : Nat) :
    YieldsTrees allowed (itemsUntil item closing fuel) := by
  induction fuel with
  | zero => mvcgen [itemsUntil]
  | succ fuel ih => mvcgen [itemsUntil, each, ih] <;> grind

@[spec] theorem yields_target : YieldsTree allowed (target rules) := by
  mvcgen [target] <;> grind [sound_asTarget]

@[spec] theorem yields_targetsAfter (fuel : Nat) :
    YieldsTrees allowed (targetsAfter rules fuel) := by
  induction fuel with
  | zero => mvcgen [targetsAfter]
  | succ fuel ih => mvcgen [targetsAfter, ih] <;> grind

/-- One target, or several with commas between them. -/
@[spec] theorem yields_targets : YieldsTree allowed (targets rules) := by
  mvcgen [targets, bounded] <;> grind

/-! ### Comprehensions -/

@[spec] theorem yields_conditions (fuel : Nat) : YieldsTrees allowed (conditions rules fuel) := by
  induction fuel with
  | zero => mvcgen [conditions]
  | succ fuel ih => mvcgen [conditions, ih] <;> grind

/-- One `for` of a comprehension with its conditions. -/
@[spec] theorem yields_clause : YieldsTree allowed (clause rules) := by
  mvcgen [clause, bounded] <;> grind

omit inner in
@[spec] theorem yields_atClause : Passes allowed (atClause) := by
  mvcgen [atClause]
  grind

@[spec] theorem yields_clauses (fuel : Nat) : YieldsTrees allowed (clauses rules fuel) := by
  induction fuel with
  | zero => mvcgen [clauses]
  | succ fuel ih => mvcgen [clauses, ih] <;> grind

/-! ### Displays and brackets -/

@[spec] theorem yields_yieldExpression : YieldsTree allowed (yieldExpression rules) := by
  mvcgen [yieldExpression, bounded] <;> grind

/-- A tuple, a comprehension or a single tree in parentheses. -/
@[spec] theorem yields_parenthesized : YieldsTree allowed (parenthesized rules) := by
  mvcgen [parenthesized, bounded] <;> grind

/-- A list or a comprehension in brackets. -/
@[spec] theorem yields_bracketed : YieldsTree allowed (bracketed rules) := by
  mvcgen [bracketed, bounded] <;> grind

/-- A key and its value, or a dictionary that is spread. -/
@[spec] theorem yields_entry :
    Yields allowed (fun pair => pair.1.Sound allowed ∧ pair.2.Sound allowed) (entry rules) := by
  mvcgen [entry] <;> grind

@[spec] theorem yields_entriesUntil (fuel : Nat) :
    Yields allowed (∀ pair ∈ ·, pair.1.Sound allowed ∧ pair.2.Sound allowed)
      (entriesUntil rules fuel) := by
  induction fuel with
  | zero => mvcgen [entriesUntil]
  | succ fuel ih => mvcgen [entriesUntil, ih] <;> grind

omit inner in
theorem sound_dictOf {entries : List (Expr × Expr)}
    (within : ∀ pair ∈ entries, pair.1.Sound allowed ∧ pair.2.Sound allowed) :
    (dictOf entries).Sound allowed := by
  simp only [dictOf, Expr.sound_dict, List.forall_mem_map]
  exact ⟨fun pair member => (within pair member).1, fun pair member => (within pair member).2⟩

/-- A dictionary from its first entry on. -/
@[spec] theorem yields_dictRest {first : Expr × Expr} (key : first.1.Sound allowed)
    (value : first.2.Sound allowed) :
    YieldsTree allowed (dictRest rules first) := by
  mvcgen [dictRest, bounded] <;> grind [sound_dictOf]

/-- A dictionary, a set or a comprehension in braces. -/
@[spec] theorem yields_braced : YieldsTree allowed (braced rules) := by
  mvcgen [braced, bounded] <;> grind

/-! ### Strings -/

omit inner in
/-- Literal text is joined to literal text behind it. -/
theorem sound_consLiteral {parts : List Expr} (within : ∀ part ∈ parts, part.Sound allowed) :
    ∀ part ∈ consLiteral text parts, part.Sound allowed := by
  unfold consLiteral
  split
  · exact within
  · split <;> grind

/-- The parts of a template are read from its pieces, and those of a format from the pieces in
it. -/
theorem sound_templateParts :
    ∀ {pieces : List Piece} {parts : List Expr}, templateParts rules pieces = some parts →
      (∀ piece ∈ pieces, piece.Within allowed) → ∀ part ∈ parts, part.Sound allowed := by
  intro pieces
  refine @templateParts.induct
    (fun pieces => ∀ {parts}, templateParts rules pieces = some parts →
      (∀ piece ∈ pieces, piece.Within allowed) → ∀ part ∈ parts, part.Sound allowed)
    (fun format => ∀ {parts}, formatParts rules format = some (some parts) →
      (∀ pieces ∈ format, ∀ piece ∈ pieces, piece.Within allowed) → ∀ part ∈ parts,
        part.Sound allowed)
    ?nil ?cons ?absent ?present pieces
  case nil => simp [templateParts]
  case cons =>
    intro piece rest ih ihFormat parts found within
    rw [List.forall_mem_cons] at within
    simp only [templateParts, bind, Option.bind_eq_some_iff] at found
    obtain ⟨others, foundRest, found⟩ := found
    have others := ih foundRest within.2
    cases piece with
    | literal text =>
      simp only [pure, Option.some.injEq] at found
      subst found
      exact sound_consLiteral others
    | embedded tokens format =>
      obtain ⟨tokensWithin, formatWithin⟩ : (∀ token ∈ tokens, token.Within allowed) ∧
          ∀ pieces ∈ format, ∀ piece ∈ pieces, piece.Within allowed := by
        cases within.1 with
        | embedded tokensWithin formatWithin => exact ⟨tokensWithin, formatWithin⟩
      simp only at found ihFormat
      split at found
      next value ran =>
        have valueWithin := (inner.expression.run tokensWithin ran).1
        simp only [Option.bind_eq_some_iff] at found
        obtain ⟨shown, foundFormat, found⟩ := found
        cases shown with
        | none =>
          simp only [pure, Option.some.injEq] at found
          subst found
          simpa [valueWithin] using others
        | some shown =>
          have shownWithin := ihFormat foundFormat formatWithin
          simp only [pure, Option.some.injEq] at found
          subst found
          simpa [valueWithin] using ⟨shownWithin, others⟩
      next => simp at found
  case absent => simp [formatParts]
  case present =>
    intro pieces ih parts found within
    simp only [formatParts, bind, Option.bind_eq_some_iff, pure, Option.some.injEq] at found
    obtain ⟨parts, found, rfl⟩ := found
    exact ih found (within pieces rfl)

omit inner in
theorem within_piecesOf {token : Token} (within : token.Within allowed) :
    ∀ piece ∈ piecesOf token, piece.Within allowed := by
  cases within with
  | template each => exact each
  | text => simpa [piecesOf] using Piece.Within.literal
  | _ => simp [piecesOf]

omit inner in
@[spec] theorem yields_stringTokens (fuel : Nat) :
    Yields allowed (∀ token ∈ ·, token.Within allowed) (stringTokens fuel) := by
  induction fuel with
  | zero =>
    mvcgen [stringTokens]
    simp_all
  | succ fuel ih => mvcgen [stringTokens, ih] <;> grind

/-- Strings in a row make one text or one template. -/
@[spec] theorem yields_strings : YieldsTree allowed (strings rules) := by
  mvcgen [strings, bounded] <;> grind [sound_templateParts, within_piecesOf]

/-! ### Atoms and what follows them -/

@[spec] theorem yields_atom : YieldsTree allowed (atom rules) := by
  mvcgen [atom] <;> simp_all

/-- The arguments of a call, those with a name behind the others. -/
@[spec] theorem yields_argumentsFrom (byName spreadDict : Bool) (fuel : Nat) : Yields allowed
      (fun arguments => (∀ tree ∈ arguments.positional, tree.Sound allowed) ∧
        ∀ tree ∈ arguments.keywords, tree.Sound allowed)
      (argumentsFrom rules byName spreadDict fuel) := by
  induction fuel generalizing byName spreadDict with
  | zero => mvcgen [argumentsFrom]
  | succ fuel ih => mvcgen [argumentsFrom, ih] <;> grind

@[spec] theorem yields_callArguments : Yields allowed
      (fun arguments => (∀ tree ∈ arguments.positional, tree.Sound allowed) ∧
        ∀ tree ∈ arguments.keywords, tree.Sound allowed)
      (callArguments rules) := by
  mvcgen [callArguments, bounded] <;> grind

@[spec] theorem yields_bound : YieldsTrees allowed (bound rules) := by
  mvcgen [bound] <;> grind

/-- A slice from behind its lower bound on. -/
@[spec] theorem yields_sliceRest {lower : List Expr} (within : ∀ tree ∈ lower, tree.Sound allowed) :
    YieldsTree allowed (sliceRest rules lower) := by
  mvcgen [sliceRest] <;> grind

@[spec] theorem yields_index : YieldsTree allowed (index rules) := by
  mvcgen [index] <;> grind

@[spec] theorem yields_indices : YieldsTree allowed (indices rules) := by
  mvcgen [indices, bounded] <;> grind

/-- Labels, calls and indices behind a value. -/
@[spec] theorem yields_trailers {value : Expr} (within : value.Sound allowed) (fuel : Nat) :
    YieldsTree allowed (trailers rules value fuel) := by
  induction fuel generalizing value with
  | zero => mvcgen [trailers]
  | succ fuel ih => mvcgen [trailers, ih] <;> grind

@[spec] theorem yields_primary : YieldsTree allowed (primary rules) := by
  mvcgen [primary, bounded] <;> grind

/-! ### Operators -/

@[spec] theorem yields_power : YieldsTree allowed (power rules) := by
  mvcgen [power] <;> grind

@[spec] theorem yields_factor : YieldsTree allowed (factor rules) := by
  mvcgen [factor] <;> grind

omit inner in
@[spec] theorem yields_operatorAt : Passes allowed (operatorAt level) := by
  mvcgen [operatorAt] <;> grind

omit inner in
/-- Operands of one level are joined from the left. -/
@[spec] theorem yields_operandsAfter {left : Expr} (each : YieldsTree allowed operand)
    (within : left.Sound allowed) (fuel : Nat) :
    YieldsTree allowed (operandsAfter level operand left fuel) := by
  induction fuel generalizing left with
  | zero => mvcgen [operandsAfter]
  | succ fuel ih => mvcgen [operandsAfter, each, ih] <;> grind

omit inner in
theorem yields_joined (each : YieldsTree allowed operand) :
    YieldsTree allowed (joined level operand) := by
  mvcgen [joined, bounded, each] <;> grind

theorem yields_bitXor : YieldsTree allowed (bitXor rules) :=
  -- From products to exclusive disjunctions every level joins operands of the level before.
  yields_joined (yields_joined
    (yields_joined (yields_joined (yields_joined (yields_factor inner)))))

@[spec] theorem yields_bitOr : YieldsTree allowed (bitOr rules) :=
  yields_joined (yields_bitXor inner)

omit inner in
@[spec] theorem yields_comparison : Passes allowed comparison := by
  mvcgen [comparison] <;> simp_all

/-- Operators of comparison with the operands behind them. -/
@[spec] theorem yields_links (fuel : Nat) :
    Yields allowed (∀ link ∈ ·, link.2.Sound allowed) (links rules fuel) := by
  induction fuel with
  | zero => mvcgen [links]
  | succ fuel ih => mvcgen [links, ih] <;> grind

@[spec] theorem yields_comparisons : YieldsTree allowed (comparisons rules) := by
  mvcgen [comparisons, bounded] <;> grind

@[spec] theorem yields_inversion : YieldsTree allowed (inversion rules) := by
  mvcgen [inversion] <;> grind

omit inner in
@[spec] theorem yields_connected (each : YieldsTree allowed operand) (fuel : Nat) :
    YieldsTrees allowed (connected text operand fuel) := by
  induction fuel with
  | zero => mvcgen [connected]
  | succ fuel ih => mvcgen [connected, each, ih] <;> grind

omit inner in
/-- An operand by itself, or a chain of at least two. -/
theorem yields_connective {kind : Connective} (each : YieldsTree allowed operand) :
    YieldsTree allowed (connective text kind operand) := by
  mvcgen [connective, bounded, each] <;> grind

@[spec] theorem yields_disjunction : YieldsTree allowed (disjunction rules) :=
  yields_connective (yields_connective (yields_inversion inner))

/-! ### Functions and conditional expressions -/

omit inner in
@[spec] theorem yields_parameterEnd : Passes allowed parameterEnd := by
  mvcgen [parameterEnd]
  grind

omit inner in
@[grind =] theorem sound_node {parameters : Parameters} :
    parameters.node.Sound allowed ↔
      (∀ tree ∈ parameters.positionalOnly, tree.Sound allowed) ∧
        (∀ tree ∈ parameters.positional, tree.Sound allowed) ∧
        (∀ tree ∈ parameters.rest, tree.Sound allowed) ∧
        (∀ tree ∈ parameters.keywordOnly, tree.Sound allowed) ∧
        (∀ tree ∈ parameters.keywordDefaults, tree.Sound allowed) ∧
        (∀ tree ∈ parameters.keywords, tree.Sound allowed) ∧
        ∀ tree ∈ parameters.defaults, tree.Sound allowed := by
  simp [Parameters.node, or_imp, forall_and]

omit inner in
@[grind ←] theorem sound_parameter : parameter.Sound allowed := by
  simp [parameter]

/-- Parameters of a function are gathered in stages. -/
@[spec] theorem yields_parametersFrom {stage : ParameterStage} {gathered : Parameters}
    (within : gathered.node.Sound allowed) (fuel : Nat) :
    Yields allowed (fun parameters => parameters.node.Sound allowed)
      (parametersFrom rules stage gathered fuel) := by
  induction fuel generalizing stage gathered with
  | zero => mvcgen [parametersFrom]
  | succ fuel ih =>
    cases stage with
    | plain slash defaults =>
      mvcgen [parametersFrom, ih] <;> grind
    | afterStar =>
      mvcgen [parametersFrom, ih] <;> grind
    | done =>
      mvcgen [parametersFrom]
      grind

@[spec] theorem yields_function : YieldsTree allowed (function rules) := by
  mvcgen [function, bounded] <;> grind

@[spec] theorem yields_expression : YieldsTree allowed (expression rules) := by
  mvcgen [expression] <;> grind

end Nested

/-! ### The whole grammar -/

/-- The rules of one depth use only those of the depth below. -/
theorem yield_rules (fuel : Nat) : (rules fuel).Yield allowed := by
  induction fuel with
  | zero => constructor <;> exact fun _ _ => trivial
  | succ fuel inner =>
    exact ⟨yields_expression inner, yields_disjunction inner, yields_inversion inner,
      yields_bitOr inner, yields_factor inner⟩

section Whole

variable {rules : Rules} (inner : rules.Yield allowed)

include inner

@[spec] theorem yields_expressionsAfter (fuel : Nat) :
    YieldsTrees allowed (expressionsAfter rules fuel) := by
  induction fuel with
  | zero => mvcgen [expressionsAfter]
  | succ fuel ih => mvcgen [expressionsAfter, ih] <;> grind

theorem yields_whole : YieldsTree allowed (whole rules) := by
  mvcgen [whole, bounded] <;> grind

end Whole

end Parser

/-- The numbers of a tree are those of its tokens, up to signs. -/
theorem Expr.sound_ofTokens? (opposite : ∀ value, allowed value → allowed value.negate)
    {depth : Nat} {tokens : List Token} {tree : Expr}
    (within : ∀ token ∈ tokens, token.Within allowed)
    (read : Expr.ofTokens? depth tokens = some tree) :
    tree.Sound allowed := by
  unfold Expr.ofTokens? at read
  split at read
  next whole ran =>
    obtain rfl := Option.some.inj read
    have inner : (Parser.rules depth).Yield allowed := Parser.yield_rules depth
    exact sound_foldSigns opposite whole ((Parser.yields_whole inner).run within ran).1
  next => simp at read

end ApiDescription
