import ApiDescription.Expression.Basic
import ApiDescription.Expression.Lexer

/-!
# From tokens to trees

The grammar of expressions, one definition a rule.  A rule that leads back to a looser one takes it
from `Rules`; `rules` ties the knot, one level of nesting a step, so that a text of `n` tokens needs
at most `n` steps.
-/

namespace ApiDescription

/-- A rule of the grammar: reads tokens from the front, or does not apply. -/
abbrev Parser := StateT (List Token) Option

namespace Parser

/-- The rules that nested parts of an expression start from. -/
structure Rules where
  expression : Parser Expr
  disjunction : Parser Expr
  inversion : Parser Expr
  bitOr : Parser Expr
  factor : Parser Expr

/-! ### Single tokens -/

def peek : Parser (Option Token) := do
  return (← get).head?

def advance : Parser Unit :=
  modify (·.drop 1)

/-- Whether the next token is the mark or reserved word. -/
def atMark (text : String) : Parser Bool := do
  match ← peek with
  | some (.mark other) => return other == text
  | _ => return false

def tryMark (text : String) : Parser Bool := do
  if ← atMark text then advance; return true else return false

def mark (text : String) : Parser Unit := do
  if ← tryMark text then return () else failure

def word : Parser String := do
  match ← peek with
  | some (.word text) => advance; return text
  | _ => failure

/-- Whether a name and then the mark come next. -/
def atWordAndMark (text : String) : Parser Bool := do
  match ← get with
  | .word _ :: .mark other :: _ => return other == text
  | _ => return false

/-- Run with as many steps as there are tokens left. -/
def bounded {α : Type} (rule : Nat → Parser α) : Parser α := do
  rule ((← get).length + 1)

/-! ### Assignment expressions, stars and targets -/

def named (rules : Rules) : Parser Expr := do
  if ← atWordAndMark ":=" then
    let target ← word
    advance
    let value ← rules.expression
    return .other .assignment [.name target .store, value]
  else rules.expression

def starNamed (rules : Rules) : Parser Expr := do
  if ← tryMark "*" then return .other (.starred .load) [← rules.bitOr] else named rules

def starExpression (rules : Rules) : Parser Expr := do
  if ← tryMark "*" then return .other (.starred .load) [← rules.bitOr] else rules.expression

/-- Items divided by commas up to a closing mark, which is left in place; a comma may come last. -/
def itemsUntil (item : Parser Expr) (closing : String) : Nat → Parser (List Expr)
  | 0 => failure
  | fuel + 1 => do
    if ← atMark closing then return []
    let first ← item
    if ← tryMark "," then return first :: (← itemsUntil item closing fuel) else return [first]

mutual

def asTarget : Expr → Option Expr
  | .name id _ => if id = "True" ∨ id = "False" ∨ id = "None" then none else some (.name id .store)
  | .access value label _ => some (.access value label .store)
  | .list items _ => (asTargets items).map (.list · .store)
  | .tuple items _ => (asTargets items).map (.tuple · .store)
  | .other (.subscript _) children => some (.other (.subscript .store) children)
  | .other (.starred _) [value] =>
    (asTarget value).map fun target => .other (.starred .store) [target]
  | _ => none

def asTargets : List Expr → Option (List Expr)
  | [] => some []
  | first :: rest => do return (← asTarget first) :: (← asTargets rest)

end

def target (rules : Rules) : Parser Expr := do
  if ← tryMark "*" then
    match asTarget (← rules.bitOr) with
    | some tree => return .other (.starred .store) [tree]
    | none => failure
  else
    match asTarget (← rules.bitOr) with
    | some tree => return tree
    | none => failure

def targetsAfter (rules : Rules) : Nat → Parser (List Expr)
  | 0 => failure
  | fuel + 1 => do
    if ← atMark "in" then return []
    let first ← target rules
    if ← tryMark "," then return first :: (← targetsAfter rules fuel) else return [first]

def targets (rules : Rules) : Parser Expr := do
  let first ← target rules
  if ← tryMark "," then return .tuple (first :: (← bounded (targetsAfter rules))) .store
  else return first

/-! ### Comprehensions -/

def conditions (rules : Rules) : Nat → Parser (List Expr)
  | 0 => failure
  | fuel + 1 => do
    if ← tryMark "if" then
      let first ← rules.disjunction
      return first :: (← conditions rules fuel)
    else return []

def clause (rules : Rules) : Parser Expr := do
  let _ ← tryMark "async"
  mark "for"
  let target ← targets rules
  mark "in"
  let source ← rules.disjunction
  return .other .clause (target :: source :: (← bounded (conditions rules)))

def atClause : Parser Bool := do
  return (← atMark "for") || (← atMark "async")

def clauses (rules : Rules) : Nat → Parser (List Expr)
  | 0 => failure
  | fuel + 1 => do
    let first ← clause rules
    if ← atClause then return first :: (← clauses rules fuel) else return [first]

/-! ### Displays and brackets -/

/-- A value handed out by a generator. -/
def yieldExpression (rules : Rules) : Parser Expr := do
  mark "yield"
  if ← tryMark "from" then return .other .yieldFrom [← rules.expression]
  else if ← atMark ")" then return .other .yield []
  else
    let first ← starExpression rules
    if ← tryMark "," then
      let rest ← bounded (itemsUntil (starExpression rules) ")")
      return .other .yield [.tuple (first :: rest) .load]
    else return .other .yield [first]

def isStarred : Expr → Bool
  | .other (.starred _) _ => true
  | _ => false

/-- What stands in round brackets, after the opening one. -/
def parenthesized (rules : Rules) : Parser Expr := do
  if ← tryMark ")" then return .tuple [] .load
  else if ← atMark "yield" then
    let value ← yieldExpression rules
    mark ")"
    return value
  else
    let first ← starNamed rules
    if ← tryMark "," then
      let rest ← bounded (itemsUntil (starNamed rules) ")")
      mark ")"
      return .tuple (first :: rest) .load
    else if isStarred first then failure
    else if ← atClause then
      let clauses ← bounded (clauses rules)
      mark ")"
      return .other .generator (first :: clauses)
    else
      mark ")"
      return first

/-- What stands in square brackets, after the opening one. -/
def bracketed (rules : Rules) : Parser Expr := do
  if ← tryMark "]" then return .list [] .load
  else
    let first ← starNamed rules
    if ← tryMark "," then
      let rest ← bounded (itemsUntil (starNamed rules) "]")
      mark "]"
      return .list (first :: rest) .load
    else if !isStarred first && (← atClause) then
      let clauses ← bounded (clauses rules)
      mark "]"
      return .other .listComprehension (first :: clauses)
    else
      mark "]"
      return .list [first] .load

def entry (rules : Rules) : Parser (Expr × Expr) := do
  if ← tryMark "**" then return (.spread, ← rules.bitOr)
  else
    let key ← rules.expression
    mark ":"
    return (key, ← rules.expression)

/-- Entries of a dictionary display up to the closing brace. -/
def entriesUntil (rules : Rules) : Nat → Parser (List (Expr × Expr))
  | 0 => failure
  | fuel + 1 => do
    if ← atMark "\x7d" then return []
    let first ← entry rules
    if ← tryMark "," then return first :: (← entriesUntil rules fuel) else return [first]

def dictOf (entries : List (Expr × Expr)) : Expr :=
  .dict (entries.map Prod.fst) (entries.map Prod.snd)

/-- The rest of a dictionary display after its first entry. -/
def dictRest (rules : Rules) (first : Expr × Expr) : Parser Expr := do
  if ← tryMark "," then
    let rest ← bounded (entriesUntil rules)
    mark "\x7d"
    return dictOf (first :: rest)
  else
    mark "\x7d"
    return dictOf [first]

/-- What stands in braces, after the opening one: a dictionary or a set. -/
def braced (rules : Rules) : Parser Expr := do
  if ← tryMark "\x7d" then return .dict [] []
  else if ← atMark "**" then dictRest rules (← entry rules)
  else
    let binds ← atWordAndMark ":="
    let first ← starNamed rules
    if !binds && !isStarred first && (← tryMark ":") then
      let value ← rules.expression
      if ← atClause then
        let clauses ← bounded (clauses rules)
        mark "\x7d"
        return .other .dictComprehension (first :: value :: clauses)
      else dictRest rules (first, value)
    else if ← tryMark "," then
      let rest ← bounded (itemsUntil (starNamed rules) "\x7d")
      mark "\x7d"
      return .other .set (first :: rest)
    else if !isStarred first && (← atClause) then
      let clauses ← bounded (clauses rules)
      mark "\x7d"
      return .other .setComprehension (first :: clauses)
    else
      mark "\x7d"
      return .other .set [first]

/-! ### Strings -/

/-- Add a literal to the front of the parts of a template; neighbouring literals are joined. -/
def consLiteral (text : String) (parts : List Expr) : List Expr :=
  if text.isEmpty then parts
  else
    match parts with
    | .text next :: rest => .text (text ++ next) :: rest
    | _ => .text text :: parts

mutual

def templateParts (rules : Rules) : List Piece → Option (List Expr)
  | [] => some []
  | piece :: rest => do
    let parts ← templateParts rules rest
    match piece with
    | .literal text => return consLiteral text parts
    | .embedded tokens format =>
      match rules.expression.run tokens with
      | some (value, []) =>
        match ← formatParts rules format with
        | some format => return .other .embedded [value, .other .template format] :: parts
        | none => return .other .embedded [value] :: parts
      | _ => none

def formatParts (rules : Rules) : Option (List Piece) → Option (Option (List Expr))
  | none => some none
  | some pieces => do return some (← templateParts rules pieces)

end

def stringTokens : Nat → Parser (List Token)
  | 0 => return []
  | fuel + 1 => do
    match ← peek with
    | some token =>
      match token with
      | .text _ | .bytes | .template _ =>
        advance
        return token :: (← stringTokens fuel)
      | _ => return []
    | none => return []

/-- The pieces that a string token stands for; byte strings have none. -/
def piecesOf : Token → List Piece
  | .text value => [.literal value]
  | .template pieces => pieces
  | _ => []

def isBytes : Token → Bool
  | .bytes => true
  | _ => false

def isTemplate : Token → Bool
  | .template _ => true
  | _ => false

def plainText : Token → String
  | .text value => value
  | _ => ""

/-- Neighbouring strings are one: text, template or byte string. -/
def strings (rules : Rules) : Parser Expr := do
  let tokens ← bounded stringTokens
  if tokens.any isBytes then
    if tokens.all isBytes then return .other .constant [] else failure
  else if tokens.any isTemplate then
    match templateParts rules (tokens.flatMap piecesOf) with
    | some parts => return .other .template parts
    | none => failure
  else return .text (String.join (tokens.map plainText))

/-! ### Atoms and what follows them -/

def atom (rules : Rules) : Parser Expr := do
  match ← peek with
  | some (.word id) => advance; return .name id .load
  | some (.number value) => advance; return .number value
  | some (.mark "(") => advance; parenthesized rules
  | some (.mark "[") => advance; bracketed rules
  | some (.mark "\x7b") => advance; braced rules
  | some (.mark "...") => advance; return .other .constant []
  | some (.mark id) =>
    if id = "True" ∨ id = "False" ∨ id = "None" then advance; return .name id .load else failure
  | some (.text _) | some .bytes | some (.template _) => strings rules
  | _ => failure

/-- Arguments of a call, by position and by name, gathered in order. -/
structure Arguments where
  positional : List Expr := []
  keywords : List Expr := []

/-- The arguments of a call up to the closing bracket, which is left in place.  After an argument by
name no plain one may follow, and after a spread dictionary no spread list. -/
def argumentsFrom (rules : Rules) (byName spreadDict : Bool) : Nat → Parser Arguments
  | 0 => failure
  | fuel + 1 => do
    if ← atMark ")" then return {}
    let continued (byName spreadDict : Bool) : Parser Arguments := do
      if ← tryMark "," then argumentsFrom rules byName spreadDict fuel else return {}
    if ← tryMark "**" then
      let value ← rules.expression
      let rest ← continued true true
      return { rest with keywords := .other .keyword [value] :: rest.keywords }
    else if ← tryMark "*" then
      if spreadDict then failure
      let value ← rules.expression
      let rest ← continued byName spreadDict
      return { rest with positional := .other (.starred .load) [value] :: rest.positional }
    else if ← atWordAndMark "=" then
      let _ ← word
      advance
      let value ← rules.expression
      let rest ← continued true spreadDict
      return { rest with keywords := .other .keyword [value] :: rest.keywords }
    else
      if byName then failure
      let value ← named rules
      let rest ← continued byName spreadDict
      return { rest with positional := value :: rest.positional }

/-- The arguments of a call after the opening bracket; a generator may stand alone without brackets
of its own. -/
def callArguments (rules : Rules) : Parser Arguments := do
  if (← atMark ")") || (← atMark "*") || (← atMark "**") || (← atWordAndMark "=") then
    let arguments ← bounded (argumentsFrom rules false false)
    mark ")"
    return arguments
  else
    let first ← named rules
    if ← atClause then
      let clauses ← bounded (clauses rules)
      mark ")"
      return { positional := [.other .generator (first :: clauses)] }
    else if ← tryMark "," then
      let rest ← bounded (argumentsFrom rules false false)
      mark ")"
      return { rest with positional := first :: rest.positional }
    else
      mark ")"
      return { positional := [first] }

/-- A bound of a slice, unless the next mark ends it. -/
def bound (rules : Rules) : Parser (List Expr) := do
  if (← atMark ":") || (← atMark ",") || (← atMark "]") then return []
  else return [← rules.expression]

/-- What comes after the first colon of a slice. -/
def sliceRest (rules : Rules) (lower : List Expr) : Parser Expr := do
  let upper ← bound rules
  if ← tryMark ":" then
    let step ← bound rules
    return .other .slice (lower ++ upper ++ step)
  else return .other .slice (lower ++ upper)

def index (rules : Rules) : Parser Expr := do
  if ← tryMark "*" then return .other (.starred .load) [← rules.expression]
  else if ← tryMark ":" then sliceRest rules []
  else
    let binds ← atWordAndMark ":="
    let first ← named rules
    if !binds && (← tryMark ":") then sliceRest rules [first] else return first

/-- What stands between the brackets of a subscript: one index, or a tuple of several. -/
def indices (rules : Rules) : Parser Expr := do
  let first ← index rules
  if ← tryMark "," then
    let rest ← bounded (itemsUntil (index rules) "]")
    return .tuple (first :: rest) .load
  else if isStarred first then return .tuple [first] .load
  else return first

/-- Attributes, subscripts and calls after an operand. -/
def trailers (rules : Rules) (value : Expr) : Nat → Parser Expr
  | 0 => failure
  | fuel + 1 => do
    if ← tryMark "." then
      let label ← word
      trailers rules (.access value label .load) fuel
    else if ← tryMark "(" then
      let arguments ← callArguments rules
      trailers rules (.call value arguments.positional arguments.keywords) fuel
    else if ← tryMark "[" then
      let slice ← indices rules
      mark "]"
      trailers rules (.other (.subscript .load) [value, slice]) fuel
    else return value

def primary (rules : Rules) : Parser Expr := do
  let awaited ← tryMark "await"
  let first ← atom rules
  let value ← bounded (trailers rules first)
  return if awaited then .other .await [value] else value

/-! ### Operators, from the tightest to the loosest -/

/-- A power binds tighter than a sign on its left and looser than one on its right. -/
def power (rules : Rules) : Parser Expr := do
  let base ← primary rules
  if ← tryMark "**" then return .binary .power base (← rules.factor) else return base

def factor (rules : Rules) : Parser Expr := do
  if ← tryMark "-" then return .unary .minus (← rules.factor)
  else if ← tryMark "+" then return .unary .plus (← rules.factor)
  else if ← tryMark "~" then return .unary .invert (← rules.factor)
  else power rules

/-- The operator that a mark stands for at one level of binding. -/
abbrev Level := List (String × BinaryOperator)

def operatorAt (level : Level) : Parser (Option BinaryOperator) := do
  match ← peek with
  | some (.mark text) => return level.lookup text
  | _ => return none

def operandsAfter (level : Level) (operand : Parser Expr) (left : Expr) : Nat → Parser Expr
  | 0 => failure
  | fuel + 1 => do
    match ← operatorAt level with
    | some operator =>
      advance
      let right ← operand
      operandsAfter level operand (.binary operator left right) fuel
    | none => return left

def joined (level : Level) (operand : Parser Expr) : Parser Expr := do
  let first ← operand
  bounded (operandsAfter level operand first)

def term (rules : Rules) : Parser Expr :=
  joined [("*", .multiply), ("/", .divide), ("//", .floorDivide), ("%", .modulo),
    ("@", .matrixMultiply)] (factor rules)

def sum (rules : Rules) : Parser Expr :=
  joined [("+", .add), ("-", .subtract)] (term rules)

def shift (rules : Rules) : Parser Expr :=
  joined [("<<", .shiftLeft), (">>", .shiftRight)] (sum rules)

def bitAnd (rules : Rules) : Parser Expr :=
  joined [("&", .bitAnd)] (shift rules)

def bitXor (rules : Rules) : Parser Expr :=
  joined [("^", .bitXor)] (bitAnd rules)

/-- Bitwise disjunction, the loosest of the arithmetic operators. -/
def bitOr (rules : Rules) : Parser Expr :=
  joined [("|", .bitOr)] (bitXor rules)

def comparison : Parser (Option Comparison) := do
  match ← get with
  | .mark "not" :: .mark "in" :: rest => set rest; return some .nonMember
  | .mark "is" :: .mark "not" :: rest => set rest; return some .distinct
  | .mark text :: rest =>
    match [("==", Comparison.equal), ("!=", .unequal), ("<=", .lessEqual), ("<", .less),
        (">=", .greaterEqual), (">", .greater), ("in", .member), ("is", .identical)].lookup text
          with
    | some operator => set rest; return some operator
    | none => return none
  | _ => return none

def links (rules : Rules) : Nat → Parser (List (Comparison × Expr))
  | 0 => failure
  | fuel + 1 => do
    match ← comparison with
    | some operator =>
      let operand ← bitOr rules
      return (operator, operand) :: (← links rules fuel)
    | none => return []

def comparisons (rules : Rules) : Parser Expr := do
  let first ← bitOr rules
  match ← bounded (links rules) with
  | [] => return first
  | chain => return .compare first (chain.map Prod.fst) (chain.map Prod.snd)

def inversion (rules : Rules) : Parser Expr := do
  if ← tryMark "not" then return .unary .negation (← rules.inversion) else comparisons rules

def connected (text : String) (operand : Parser Expr) : Nat → Parser (List Expr)
  | 0 => failure
  | fuel + 1 => do
    if ← tryMark text then
      let next ← operand
      return next :: (← connected text operand fuel)
    else return []

def connective (text : String) (kind : Connective) (operand : Parser Expr) : Parser Expr := do
  let first ← operand
  match ← bounded (connected text operand) with
  | [] => return first
  | rest => return .connect kind (first :: rest)

def conjunction (rules : Rules) : Parser Expr :=
  connective "and" .conjunction (inversion rules)

def disjunction (rules : Rules) : Parser Expr :=
  connective "or" .disjunction (conjunction rules)

/-! ### Functions and conditional expressions -/

/-- The parameters of a function, by the way they can be passed, with their defaults. -/
structure Parameters where
  positionalOnly : List Expr := []
  positional : List Expr := []
  defaults : List Expr := []
  rest : List Expr := []
  keywordOnly : List Expr := []
  keywordDefaults : List Expr := []
  keywords : List Expr := []

def Parameters.node (parameters : Parameters) : Expr :=
  .other .parameters
    (parameters.positionalOnly ++ parameters.positional ++ parameters.rest ++
      parameters.keywordOnly ++ parameters.keywordDefaults ++ parameters.keywords ++
      parameters.defaults)

/-- How far the parameters of a function have got. -/
inductive ParameterStage where
  | plain (slash defaults : Bool)
  | afterStar
  | done

def parameter : Expr := .other .parameter []

/-- A parameter is followed by a comma, or by the colon that ends the parameters. -/
def parameterEnd : Parser Unit := do
  if ← tryMark "," then return ()
  else if ← atMark ":" then return ()
  else failure

/-- The parameters of a function up to its colon, which is left in place. -/
def parametersFrom (rules : Rules) (stage : ParameterStage) (gathered : Parameters) :
    Nat → Parser Parameters
  | 0 => failure
  | fuel + 1 => do
    if ← atMark ":" then return gathered
    match stage with
    | .done => failure
    | .plain slash defaults =>
      if ← tryMark "/" then
        if slash || gathered.positional.isEmpty then failure
        parameterEnd
        parametersFrom rules (.plain true defaults)
          { gathered with positionalOnly := gathered.positional, positional := [] } fuel
      else if ← tryMark "**" then
        let _ ← word
        parameterEnd
        parametersFrom rules .done { gathered with keywords := [parameter] } fuel
      else if ← tryMark "*" then
        if ← tryMark "," then
          match ← peek with
          | some (.word _) => parametersFrom rules .afterStar gathered fuel
          | _ => failure
        else
          let _ ← word
          parameterEnd
          parametersFrom rules .afterStar { gathered with rest := [parameter] } fuel
      else
        let _ ← word
        let gathered := { gathered with positional := gathered.positional ++ [parameter] }
        if ← tryMark "=" then
          let value ← rules.expression
          parameterEnd
          parametersFrom rules (.plain slash true)
            { gathered with defaults := gathered.defaults ++ [value] } fuel
        else
          if defaults then failure
          parameterEnd
          parametersFrom rules stage gathered fuel
    | .afterStar =>
      if ← tryMark "**" then
        let _ ← word
        parameterEnd
        parametersFrom rules .done { gathered with keywords := [parameter] } fuel
      else
        let _ ← word
        let gathered := { gathered with keywordOnly := gathered.keywordOnly ++ [parameter] }
        if ← tryMark "=" then
          let value ← rules.expression
          parameterEnd
          parametersFrom rules stage
            { gathered with keywordDefaults := gathered.keywordDefaults ++ [value] } fuel
        else
          parameterEnd
          parametersFrom rules stage gathered fuel

def function (rules : Rules) : Parser Expr := do
  mark "lambda"
  let parameters ← bounded (parametersFrom rules (.plain false false) {})
  mark ":"
  return .other .function [parameters.node, ← rules.expression]

def expression (rules : Rules) : Parser Expr := do
  if ← atMark "lambda" then function rules
  else
    let value ← disjunction rules
    if ← tryMark "if" then
      let condition ← disjunction rules
      mark "else"
      return .other .conditional [condition, value, ← rules.expression]
    else return value

/-- The rules for trees nested at most as deep as the fuel. -/
def rules : Nat → Rules
  | 0 => ⟨failure, failure, failure, failure, failure⟩
  | fuel + 1 =>
    let inner := rules fuel
    { expression := expression inner
      disjunction := disjunction inner
      inversion := inversion inner
      bitOr := bitOr inner
      factor := factor inner }

/-- Expressions after the first, divided by commas, up to the end. -/
def expressionsAfter (rules : Rules) : Nat → Parser (List Expr)
  | 0 => failure
  | fuel + 1 => do
    if (← get).isEmpty then return []
    let first ← rules.expression
    if ← tryMark "," then return first :: (← expressionsAfter rules fuel) else return [first]

def whole (rules : Rules) : Parser Expr := do
  let first ← rules.expression
  if ← tryMark "," then return .tuple (first :: (← bounded (expressionsAfter rules))) .load
  else return first

end Parser

/-- The tree of tokens that form one whole expression, nested at most `depth` deep. -/
def Expr.ofTokens? (depth : Nat) (tokens : List Token) : Option Expr :=
  match (Parser.whole (Parser.rules depth)).run tokens with
  | some (tree, []) => some tree.foldSigns
  | _ => none

/-- The tree of an expression text.  No expression is nested deeper than its text is long. -/
def Expr.parse (source : String) : Except Fault Expr :=
  match (Lexer.tokens source).bind (Expr.ofTokens? (source.length + 2)) with
  | some tree => .ok tree
  | none => .error .badExpression

end ApiDescription
