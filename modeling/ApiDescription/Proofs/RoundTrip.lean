import ApiDescription.Proofs.Literals
import ApiDescription.Proofs.Parsing

/-!
# Reading what was written

The text of a tree that needs no parentheses is read as the tree.  By induction on the tree its text
is a passage: it is divided into the tokens of the tree wherever it stops.  The rules of the grammar
make the tree of these tokens, up to the signs of numbers, which are folded last.
-/

namespace ApiDescription

open Lexer List Text Number Literal

variable {depth : Nat} {texts : List String} {tree : Expr} {trees : List Expr} {token : Token}
  {tokens : List Token} {dotted : Bool}

/-! ## Passages -/

namespace Lexer

variable {piece : List Char}

/-- A part of a text on one line that stands for tokens and leaves no bracket open at its end. -/
structure Passage (dotted : Bool) (depth : Nat) (piece : List Char) (tokens : List Token) :
    Prop where
  spells : Spells dotted depth piece tokens
  clean : ∀ character ∈ piece, character ≠ '\r' ∧ character ≠ Char.ofNat 0
  closed : ∀ last ∈ piece.getLast?, last ≠ '(' ∧ last ≠ '['
  short : tokens.length ≤ piece.length

/-- A part of a text begins with a token. -/
def IsSolid (piece : List Char) : Prop :=
  ∃ first rest, piece = first :: rest ∧ isFiller first = false

theorem IsSolid.append (solid : IsSolid piece) (rest : List Char) :
    IsSolid (piece ++ rest) := by
  obtain ⟨first, others, rfl, notFiller⟩ := solid
  exact ⟨first, others ++ rest, rfl, notFiller⟩

theorem IsSolid.ne_nil (solid : IsSolid piece) : piece ≠ [] := by
  obtain ⟨first, others, rfl, -⟩ := solid
  exact cons_ne_nil first others

namespace Passage

variable {dotted : Bool} {depth : Nat} {piece : List Char} {tokens : List Token}

theorem nil : Passage dotted depth [] [] where
  spells := .nil
  clean := by simp
  closed := by simp
  short := Nat.le_refl 0

theorem deepen {deeper : Nat} (atMost : depth ≤ deeper)
    (passage : Passage dotted depth piece tokens) :
    Passage dotted deeper piece tokens :=
  { passage with spells := passage.spells.deepen atMost }

theorem undotted (passage : Passage dotted depth piece tokens) : Passage false depth piece tokens :=
  { passage with spells := passage.spells.undotted }

theorem prefixed {front : List Char} {first : List Token}
    (passage : Passage dotted depth piece tokens) (notEmpty : piece ≠ [])
    (clean : ∀ character ∈ front, character ≠ '\r' ∧ character ≠ Char.ofNat 0)
    (short : first.length ≤ front.length)
    (spells : Spells dotted depth (front ++ piece) (first ++ tokens)) :
    Passage dotted depth (front ++ piece) (first ++ tokens) where
  spells := spells
  clean := forall_mem_append.mpr ⟨clean, passage.clean⟩
  closed := by
    rw [getLast?_append_of_ne_nil front notEmpty]
    exact passage.closed
  short := by
    rw [length_append, length_append]
    exact Nat.add_le_add short passage.short

variable {after : Bool}

theorem append {next : List Char} {others : List Token} (passage : Passage after depth piece tokens)
    (follows : Passage dotted depth next others) (notEmpty : next ≠ []) (stops : Stops after next) :
    Passage dotted depth (piece ++ next) (tokens ++ others) :=
  follows.prefixed notEmpty passage.clean passage.short
    (passage.spells.append follows.spells notEmpty stops)

theorem word (letters : ∀ character ∈ piece, isWordChar character)
    (read : wordToken? piece = some token) : Passage dotted depth piece [token] where
  spells := .word letters read
  clean := by
    intro character member
    have letter := letters character member
    constructor <;> (rintro rfl; exact absurd letter (by decide))
  closed := by
    intro last isLast
    have letter := letters last (mem_of_getLast? isLast)
    constructor <;> (rintro rfl; exact absurd letter (by decide))
  short := by
    obtain ⟨first, others, rfl, -⟩ := head_of_wordToken? read
    simp

theorem blank (passage : Passage dotted depth piece tokens) (notEmpty : piece ≠ []) :
    Passage dotted depth (' ' :: piece) tokens :=
  @prefixed _ _ _ _ [' '] [] passage notEmpty (by simp) (Nat.zero_le _) passage.spells.blank

theorem point (letters : ∀ character ∈ piece, isWordChar character)
    (read : wordToken? piece = some token) :
    Passage dotted depth ('.' :: piece) [.mark ".", token] := by
  have notEmpty : piece ≠ [] := by
    obtain ⟨first, others, rfl, -⟩ := head_of_wordToken? read
    exact cons_ne_nil first others
  exact @prefixed _ _ _ _ ['.'] [.mark "."] (word letters read) notEmpty (by simp) (by simp)
    (.point letters read)

theorem enclosed (bracket : Bracket) (passage : Passage after depth piece tokens) :
    Passage dotted (depth + 1) (bracket.opening :: (piece ++ [bracket.closing]))
      (.mark bracket.openingMark :: (tokens ++ [Token.mark bracket.closingMark])) where
  spells := passage.spells.enclosed bracket
  clean := by
    intro character member
    rcases mem_cons.mp member with rfl | later
    · cases bracket <;> decide
    · rcases mem_append.mp later with inside | last
      · exact passage.clean character inside
      · rw [mem_singleton.mp last]
        cases bracket <;> decide
  closed := by
    intro last isLast
    rw [← cons_append, getLast?_append_of_ne_nil _ (by simp)] at isLast
    obtain rfl : bracket.closing = last := by simpa using isLast
    cases bracket <;> decide
  short := by
    have inner := passage.short
    simp
    omega

end Passage

/-! ## Operators between passages -/

/-- A symbol that stands for tokens where a blank follows. -/
structure IsSymbol (symbol : List Char) (tokens : List Token) : Prop where
  divides : ∀ openers rest more, Divides openers (' ' :: rest) more →
    Divides openers (symbol ++ ' ' :: rest) (tokens ++ more)
  clean : ∀ character ∈ symbol, character ≠ '\r' ∧ character ≠ Char.ofNat 0
  short : tokens.length ≤ symbol.length

namespace IsSymbol

theorem word {symbol : List Char} (letters : ∀ character ∈ symbol, isWordChar character)
    (read : wordToken? symbol = some token) : IsSymbol symbol [token] := by
  have passage : Passage false 0 symbol [token] := .word letters read
  have stops (rest : List Char) : Stops false (' ' :: rest) := .inl rfl
  exact ⟨fun openers rest more divided => lexes_word letters read (stops rest) divided,
    passage.clean, passage.short⟩

theorem mark {mark : String} {first : Char} {others : List Char}
    (spelled : mark.toList = first :: others)
    (reads : ∀ rest, ReadsMark first (others ++ ' ' :: rest) mark (' ' :: rest))
    (tracked : ∀ openers, track openers mark = some openers)
    (clean : ∀ character ∈ mark.toList, character ≠ '\r' ∧ character ≠ Char.ofNat 0) :
    IsSymbol mark.toList [.mark mark] where
  divides := by
    intro openers rest more divided
    rw [spelled]
    exact lexes_mark (reads rest) (by simp) (tracked openers) divided
  clean := clean
  short := by simp [spelled]

theorem blank {first second : List Char} {others : List Token} (isFirst : IsSymbol first tokens)
    (isSecond : IsSymbol second others) : IsSymbol (first ++ ' ' :: second) (tokens ++ others) where
  divides := by
    intro openers rest more divided
    have later := lexes_blank (isSecond.divides openers rest more divided)
    simpa using isFirst.divides openers (second ++ ' ' :: rest) (others ++ more) later
  clean := by
    intro character member
    rcases mem_append.mp member with inFirst | inRest
    · exact isFirst.clean character inFirst
    · rcases mem_cons.mp inRest with rfl | inSecond
      · decide
      · exact isSecond.clean character inSecond
  short := by
    have firstShort := isFirst.short
    have secondShort := isSecond.short
    simp
    omega

theorem comparison (operator : Comparison) :
    IsSymbol operator.symbol.toList operator.tokens := by
  have isIn : IsSymbol "in".toList [.mark "in"] := .word (forall_mem_of_all (by decide)) rfl
  have isIs : IsSymbol "is".toList [.mark "is"] := .word (forall_mem_of_all (by decide)) rfl
  have isNot : IsSymbol "not".toList [.mark "not"] := .word (forall_mem_of_all (by decide)) rfl
  cases operator with
  | member => exact isIn
  | nonMember => exact isNot.blank isIn
  | identical => exact isIs
  | distinct => exact isIs.blank isNot
  | less | lessEqual | greater | greaterEqual | equal | unequal =>
    exact .mark rfl (fun _ => ⟨rfl, rfl, rfl, rfl, rfl⟩) (fun _ => rfl)
      (forall_mem_of_all (by decide))

theorem connective (connective : Connective) :
    IsSymbol connective.symbol.toList [.mark connective.symbol] := by
  cases connective with
  | conjunction => exact .word (forall_mem_of_all (by decide)) rfl
  | disjunction => exact .word (forall_mem_of_all (by decide)) rfl

theorem binary {operator : BinaryOperator} (written : operator.symbol?.isSome) :
    IsSymbol operator.mark.toList [.mark operator.mark] := by
  cases operator with
  | add | subtract | multiply | divide | modulo =>
    exact .mark rfl (fun _ => ⟨rfl, rfl, rfl, rfl, rfl⟩) (fun _ => rfl)
      (forall_mem_of_all (by decide))
  | _ => cases written

end IsSymbol

theorem Passage.infixed {symbol : List Char} {operator : List Token}
    (isSymbol : IsSymbol symbol operator) (passage : Passage dotted depth piece tokens)
    (notEmpty : piece ≠ []) :
    Passage dotted depth (' ' :: (symbol ++ ' ' :: piece)) (operator ++ tokens) := by
  have spells : Spells dotted depth (' ' :: symbol ++ [' '] ++ piece) (operator ++ tokens) := by
    intro openers rest more room stops divided
    have later := lexes_blank (passage.spells openers rest more room stops divided)
    have read := isSymbol.divides openers (piece ++ rest) (tokens ++ more) later
    simpa using lexes_blank read
  have clean : ∀ character ∈ ' ' :: symbol ++ [' '], character ≠ '\r' ∧
      character ≠ Char.ofNat 0 := by
    simpa [or_imp, forall_and] using isSymbol.clean
  have short : operator.length ≤ (' ' :: symbol ++ [' ']).length :=
    isSymbol.short.trans (by simp; omega)
  simpa using passage.prefixed notEmpty clean short spells

theorem Passage.comma (passage : Passage dotted depth piece tokens) (notEmpty : piece ≠ []) :
    Passage dotted depth (',' :: ' ' :: piece) (.mark "," :: tokens) :=
  @Passage.prefixed _ _ _ _ [',', ' '] [.mark ","] passage notEmpty (by simp) (by simp)
    passage.spells.comma

theorem Passage.followed {next : List Char} {others : List Token}
    (passage : Passage false depth piece tokens) (follows : Passage false depth next others)
    (stops : Stops false next) :
    Passage false depth (piece ++ next) (tokens ++ others) := by
  cases next with
  | nil =>
    have none : others = [] := by simpa using follows.short
    simpa [none] using passage
  | cons first rest => exact passage.append follows (cons_ne_nil first rest) stops

end Lexer

/-! ## Texts of several trees -/

namespace Expr

/-- A text stands for a tree. -/
structure Written (tree : Expr) (text : String) : Prop where
  passage : Passage tree.isDotted tree.nesting text.toList tree.tokens
  solid : IsSolid text.toList

theorem Written.item {text : String} (written : tree.Written text) (atMost : tree.nesting ≤ depth) :
    Passage false depth text.toList tree.tokens :=
  (written.passage.deepen atMost).undotted

/-- What can stand before every text but the first: a comma, or a connective with blanks. -/
structure Separates (separator : List Char) (token : Token) : Prop where
  stops : ∃ first rest, separator = first :: rest ∧ Stops false (first :: rest)
  passage : ∀ {depth : Nat} {piece : List Char} {tokens : List Token}, piece ≠ [] →
    Passage false depth piece tokens → Passage false depth (separator ++ piece) (token :: tokens)

theorem separates_comma : Separates [',', ' '] (.mark ",") where
  stops := ⟨_, _, rfl, by simp [Stops]⟩
  passage := fun notEmpty passage => passage.comma notEmpty

theorem separates_connective (connective : Connective) :
    Separates (' ' :: (connective.symbol.toList ++ [' '])) (.mark connective.symbol) where
  stops := ⟨_, _, rfl, by simp [Stops]⟩
  passage := by
    intro depth piece tokens notEmpty passage
    simpa using passage.infixed (.connective connective) notEmpty

def tailText (separator : List Char) (texts : List String) : List Char :=
  texts.flatMap fun text => separator ++ text.toList

def sequenceText (separator : List Char) : List String → List Char
  | [] => []
  | first :: rest => first.toList ++ tailText separator rest

section

variable {separator : List Char} {token : Token} (separates : Separates separator token)
include separates

theorem stops_tailText (texts : List String) : Stops false (tailText separator texts) := by
  obtain ⟨first, rest, rfl, stops⟩ := separates.stops
  cases texts with
  | nil => trivial
  | cons text others => exact stops

theorem passage_tailText (written : Forall₂ Written trees texts)
    (atMost : nestingAll trees ≤ depth) :
    Passage false depth (tailText separator texts) (tailTokens token trees) := by
  induction written with
  | nil => exact .nil
  | @cons tree text trees texts first _ ih =>
    rw [nestingAll] at atMost
    have item := first.item (Nat.le_trans (Nat.le_max_left _ _) atMost)
    have tail := ih (Nat.le_trans (Nat.le_max_right _ _) atMost)
    have both := item.followed tail (stops_tailText separates texts)
    have joined := separates.passage (first.solid.append _).ne_nil both
    simpa [tailText, tailTokens] using joined

theorem passage_sequenceText (written : Forall₂ Written trees texts) :
    Passage false (nestingAll trees) (sequenceText separator texts)
      (sequenceTokens token trees) := by
  cases written with
  | nil => exact .nil
  | cons first others =>
    rw [nestingAll]
    exact (first.item (Nat.le_max_left _ _)).followed
      (passage_tailText separates others (Nat.le_max_right _ _)) (stops_tailText separates _)

end

variable {opening : Char} {items : List String}

theorem toList_appendItems_of_not
    (closed : ∀ item ∈ items, item.toList ≠ [] ∧ lastIs item opening = false) (sofar : String)
    (notOpen : lastIs sofar opening = false) :
    (appendItems opening sofar items).toList = sofar.toList ++ tailText [',', ' '] items := by
  induction items generalizing sofar with
  | nil => simp [appendItems, tailText]
  | cons item rest ih =>
    obtain ⟨notEmpty, itemClosed⟩ := closed item (by simp)
    have last : lastIs (sofar ++ ", " ++ item) opening = false := by
      unfold lastIs at itemClosed ⊢
      rw [String.toList_append, getLast?_append_of_ne_nil _ notEmpty]
      exact itemClosed
    rw [appendItems, notOpen, if_neg (by decide),
      ih (fun other member => closed other (by simp [member])) _ last]
    simp [tailText]

theorem toList_appendItems (closed : ∀ item ∈ items, item.toList ≠ [] ∧ lastIs item opening = false)
    (sofar : String) (isOpen : lastIs sofar opening) :
    (appendItems opening sofar items).toList = sofar.toList ++ sequenceText [',', ' '] items := by
  cases items with
  | nil => simp [appendItems, sequenceText]
  | cons item rest =>
    obtain ⟨notEmpty, itemClosed⟩ := closed item (by simp)
    have last : lastIs (sofar ++ item) opening = false := by
      unfold lastIs at itemClosed ⊢
      rw [String.toList_append, getLast?_append_of_ne_nil _ notEmpty]
      exact itemClosed
    rw [appendItems, isOpen, if_pos rfl, toList_appendItems_of_not
      (fun other member => closed other (by simp [member])) _ last]
    simp [sequenceText]

theorem closed_of_written (bracket : Bracket) (written : Forall₂ Written trees texts) :
    ∀ text ∈ texts, text.toList ≠ [] ∧ lastIs text bracket.opening = false := by
  induction written with
  | nil => simp
  | @cons tree text trees texts first _ ih =>
    intro item member
    rcases mem_cons.mp member with rfl | later
    · refine ⟨first.solid.ne_nil, ?_⟩
      unfold lastIs
      rw [beq_eq_false_iff_ne]
      intro isLast
      have closed := first.passage.closed bracket.opening isLast
      cases bracket <;> simp [Bracket.opening] at closed
    · exact ih item later

theorem passage_bracketed (bracket : Bracket) (written : Forall₂ Written trees texts) :
    Passage dotted (nestingAll trees + 1)
      (bracket.opening :: (sequenceText [',', ' '] texts ++ [bracket.closing]))
      (.mark bracket.openingMark ::
        (sequenceTokens (.mark ",") trees ++ [Token.mark bracket.closingMark])) :=
  (passage_sequenceText separates_comma written).enclosed bracket

end Expr

/-! ## Texts of trees -/

/-- The names, labels and numbers whose texts are read as what they are. -/
def Lexicon.readable : Lexicon where
  name id :=
    (∀ character ∈ id.toList, isWordChar character) ∧
      wordToken? id.toList = some (Expr.nameToken id)
  label id :=
    (∀ character ∈ id.toList, isWordChar character) ∧ wordToken? id.toList = some (.word id)
  number value :=
    value.hasLiteral ∧ (Expr.number value).Written value.literal ∧
      (value.isSigned → value.negate.negate = value)

namespace Expr

theorem written_word {word : String} (letters : ∀ character ∈ word.toList, isWordChar character)
    (read : wordToken? word.toList = some token) :
    Passage true depth word.toList [token] ∧ IsSolid word.toList := by
  refine ⟨.word letters read, ?_⟩
  obtain ⟨first, others, spelled, -⟩ := head_of_wordToken? read
  exact ⟨first, others, spelled, isFiller_of_isWordChar (letters first (by simp [spelled]))⟩

theorem written_text (value : String) : (text value).Written (quoted value) := by
  have isQuote := isQuote_quoteFor value.toList
  have spelled : (quoted value).toList = quoteFor value.toList ::
        (value.toList.flatMap (escapeQuoted (quoteFor value.toList)) ++
          [quoteFor value.toList]) := by
    simp [quoted]
  refine ⟨⟨spells_quoted value, fun character => mem_quoted, ?_, ?_⟩, ?_⟩
  · intro last isLast
    rw [spelled, ← cons_append, getLast?_append_of_ne_nil _ (by simp)] at isLast
    obtain rfl : quoteFor value.toList = last := by simpa using isLast
    rcases isQuote with same | same <;> rw [same] <;> decide
  · simp [tokens, spelled]
  · refine ⟨_, _, spelled, ?_⟩
    rcases isQuote with same | same <;> rw [same] <;> rfl

theorem written_bracketed (bracket : Bracket) (written : Forall₂ Written trees texts)
    {opened closed : String} (isOpen : opened.toList = [bracket.opening])
    (isClosed : closed.toList = [bracket.closing]) (dotted : tree.isDotted = true)
    (nesting : tree.nesting = nestingAll trees + 1)
    (tokens : tree.tokens = .mark bracket.openingMark ::
      (sequenceTokens (.mark ",") trees ++ [Token.mark bracket.closingMark])) :
    tree.Written (appendItems bracket.opening opened texts ++ closed) := by
  have begins : lastIs opened bracket.opening := by simp [lastIs, isOpen]
  have spelled : (appendItems bracket.opening opened texts ++ closed).toList =
      bracket.opening :: (sequenceText [',', ' '] texts ++ [bracket.closing]) := by
    rw [String.toList_append, toList_appendItems (closed_of_written bracket written) opened begins,
      isOpen, isClosed]
    rfl
  refine ⟨?_, ?_⟩
  · rw [spelled, dotted, nesting, tokens]
    exact passage_bracketed bracket written
  · exact ⟨_, _, spelled, by cases bracket <;> rfl⟩

variable {text : String} {operands : List Expr}

theorem written_access {value : Expr} {label : String} {use : Use} (written : value.Written text)
    (dotted : value.isDotted = true) (letters : ∀ character ∈ label.toList, isWordChar character)
    (read : wordToken? label.toList = some (.word label)) :
    (access value label use).Written (text ++ "." ++ label) := by
  have spelled : (text ++ "." ++ label).toList = text.toList ++ '.' :: label.toList := by simp
  refine ⟨?_, spelled ▸ written.solid.append _⟩
  rw [spelled]
  exact written.passage.append (.point letters read) (cons_ne_nil _ _) (by simp [Stops, dotted])

theorem written_call {function : Expr} {text : String} (written : function.Written text)
    {arguments keywords : List Expr} (writtenAll : Forall₂ Written arguments texts) :
    (call function arguments keywords).Written (appendItems '(' (text ++ "(") texts ++ ")") := by
  have begins : lastIs (text ++ "(") '(' := by simp [lastIs]
  have closed : ∀ text ∈ texts, text.toList ≠ [] ∧ lastIs text '(' = false :=
    closed_of_written .round writtenAll
  have spelled : (appendItems '(' (text ++ "(") texts ++ ")").toList =
      text.toList ++ '(' :: (sequenceText [',', ' '] texts ++ [')']) := by
    rw [String.toList_append, toList_appendItems closed _ begins]
    simp
  refine ⟨?_, spelled ▸ written.solid.append _⟩
  rw [spelled]
  refine (written.passage.deepen (Nat.le_max_left _ _)).append
    ((passage_bracketed .round writtenAll).deepen (Nat.le_max_right _ _)) (cons_ne_nil _ _) ?_
  simp [Stops]

/-- The text of a chain of comparisons after its first operand. -/
def linksText (operators : List Comparison) (texts : List String) : List Char :=
  (operators.zip texts).flatMap fun link => ' ' :: (link.1.symbol.toList ++ ' ' :: link.2.toList)

theorem toList_chainText (sofar : String) (operators : List Comparison) (texts : List String) :
    (chainText sofar operators texts).toList = sofar.toList ++ linksText operators texts := by
  induction operators generalizing sofar texts with
  | nil => simp [chainText, linksText]
  | cons operator operators ih =>
    cases texts with
    | nil => simp [chainText, linksText]
    | cons text texts => simp [chainText, ih, linksText]

theorem stops_linksText (operators : List Comparison) (texts : List String) :
    Stops false (linksText operators texts) := by
  cases operators with
  | nil => trivial
  | cons operator operators =>
    cases texts with
    | nil => trivial
    | cons text texts => exact .inl rfl

theorem passage_linksText (operators : List Comparison) (written : Forall₂ Written trees texts)
    (atMost : nestingAll trees ≤ depth) :
    Passage false depth (linksText operators texts) (chainTokens operators trees) := by
  induction written generalizing operators with
  | nil =>
    cases operators <;> exact .nil
  | @cons tree text trees texts first _ ih =>
    cases operators with
    | nil => exact .nil
    | cons operator operators =>
      rw [nestingAll] at atMost
      have item := first.item (Nat.le_trans (Nat.le_max_left _ _) atMost)
      have tail := ih operators (Nat.le_trans (Nat.le_max_right _ _) atMost)
      have both := item.followed tail (stops_linksText operators texts)
      have joined := both.infixed (.comparison operator) (first.solid.append _).ne_nil
      simpa [linksText, chainTokens] using joined

theorem written_compare {first : Expr} (written : first.Written text) (operators : List Comparison)
    (writtenAll : Forall₂ Written operands texts) :
    (compare first operators operands).Written (chainText text operators texts) := by
  have spelled := toList_chainText text operators texts
  refine ⟨?_, spelled ▸ written.solid.append _⟩
  rw [spelled]
  exact (written.item (Nat.le_max_left _ _)).followed
    (passage_linksText operators writtenAll (Nat.le_max_right _ _))
      (stops_linksText operators texts)

theorem toList_intercalate (separator : String) (texts : List String) :
    (separator.intercalate texts).toList = sequenceText separator.toList texts := by
  induction texts with
  | nil => rfl
  | cons first others ih =>
    cases others with
    | nil => simp [sequenceText, tailText]
    | cons second others =>
      rw [String.intercalate_cons_cons, String.toList_append, ih]
      simp [sequenceText, tailText]

theorem written_connect (connective : Connective) (notEmpty : operands ≠ [])
    (written : Forall₂ Written operands texts) :
    (connect connective operands).Written
      ((" " ++ connective.symbol ++ " ").intercalate texts) := by
  have spelled : ((" " ++ connective.symbol ++ " ").intercalate texts).toList =
      sequenceText (' ' :: (connective.symbol.toList ++ [' '])) texts := by
    rw [toList_intercalate]
    simp
  have dotted : (connect connective operands).isDotted = false := by cases connective <;> rfl
  refine ⟨?_, ?_⟩
  · rw [spelled, dotted]
    exact passage_sequenceText (separates_connective connective) written
  · rw [spelled]
    cases written with
    | nil => exact absurd rfl notEmpty
    | cons first others => exact first.solid.append _

theorem written_binary {operator : BinaryOperator} {left right : Expr} {leftText rightText : String}
    (symbol : operator.symbol?.isSome) (writtenLeft : left.Written leftText)
    (writtenRight : right.Written rightText) :
    (binary operator left right).Written (leftText ++ " " ++ operator.mark ++ " " ++
      rightText) := by
  have spelled : (leftText ++ " " ++ operator.mark ++ " " ++ rightText).toList =
      leftText.toList ++ ' ' :: (operator.mark.toList ++ ' ' :: rightText.toList) := by simp
  have dotted : (binary operator left right).isDotted = false := by cases operator <;> rfl
  refine ⟨?_, spelled ▸ writtenLeft.solid.append _⟩
  rw [spelled, dotted]
  exact (writtenLeft.item (Nat.le_max_left _ _)).append
    ((writtenRight.item (Nat.le_max_right _ _)).infixed (.binary symbol) writtenRight.solid.ne_nil)
    (cons_ne_nil _ _) (.inl rfl)

theorem written_negation {operand : Expr} (written : operand.Written text) :
    (unary .negation operand).Written ("not" ++ " " ++ text) := by
  have isNot : Passage false operand.nesting "not".toList [.mark "not"] :=
    .word (forall_mem_of_all (by decide)) rfl
  have spelled : ("not" ++ " " ++ text).toList = "not".toList ++ ' ' :: text.toList := by simp
  refine ⟨?_, ⟨'n', ['o', 't'] ++ ' ' :: text.toList, spelled, rfl⟩⟩
  rw [spelled]
  exact isNot.append ((written.item (Nat.le_refl _)).blank written.solid.ne_nil) (cons_ne_nil _ _)
    (.inl rfl)

mutual

/-- A tree that needs no parentheses has a text, which stands for it. -/
theorem written_of_bare :
    (tree : Expr) → tree.Bare .readable → ∃ text, tree.render? = .ok (some text) ∧ tree.Written text
  | name id use, bare => by
    obtain ⟨-, letters, read⟩ := bare
    obtain ⟨passage, solid⟩ := written_word letters read
    exact ⟨id, by simp [render?], passage, solid⟩
  | number value, bare => by
    obtain ⟨hasLiteral, written, -⟩ := bare
    exact ⟨value.literal, by simp [render?, hasLiteral], written⟩
  | text value, _ => ⟨quoted value, by simp [render?], written_text value⟩
  | list items use, bare => by
    obtain ⟨texts, rendered, written⟩ := written_of_bareAll items bare.2
    refine ⟨_, by rw [render?, rendered]; rfl, ?_⟩
    exact written_bracketed .square written (by decide) (by decide) rfl rfl (by rw [tokens]; rfl)
  | tuple items use, bare => by
    obtain ⟨texts, rendered, written⟩ := written_of_bareAll items bare.2.2
    refine ⟨_, by rw [render?, rendered]; rfl, ?_⟩
    exact written_bracketed .round written (by decide) (by decide) rfl rfl (by rw [tokens]; rfl)
  | access value label use, bare => by
    obtain ⟨-, ⟨letters, read⟩, bareValue, dotted⟩ := bare
    obtain ⟨text, rendered, written⟩ := written_of_bare value bareValue
    exact ⟨_, by rw [render?, rendered]; rfl, written_access written dotted letters read⟩
  | call function arguments keywords, bare => by
    obtain ⟨-, bareFunction, -, bareArguments⟩ := bare
    obtain ⟨text, rendered, written⟩ := written_of_bare function bareFunction
    obtain ⟨texts, renderedAll, writtenAll⟩ := written_of_bareAll arguments bareArguments
    exact ⟨_, by rw [render?, rendered, renderedAll]; rfl, written_call written writtenAll⟩
  | compare first operators operands, bare => by
    obtain ⟨-, -, ⟨bareFirst, -⟩, bareOperands, -⟩ := bare
    obtain ⟨text, rendered, written⟩ := written_of_bare first bareFirst
    obtain ⟨texts, renderedAll, writtenAll⟩ := written_of_bareAll operands bareOperands
    exact ⟨_, by rw [render?, rendered,
      renderedAll]; rfl, written_compare written operators writtenAll⟩
  | connect connective operands, bare => by
    obtain ⟨several, bareOperands, -⟩ := bare
    obtain ⟨texts, rendered, written⟩ := written_of_bareAll operands bareOperands
    have notEmpty : operands ≠ [] := by rintro rfl; simp at several
    exact ⟨_, by rw [render?, rendered]; rfl, written_connect connective notEmpty written⟩
  | binary operator left right, bare => by
    obtain ⟨hasSymbol, ⟨bareLeft, -⟩, bareRight, -⟩ := bare
    obtain ⟨leftText, renderedLeft, writtenLeft⟩ := written_of_bare left bareLeft
    obtain ⟨rightText, renderedRight, writtenRight⟩ := written_of_bare right bareRight
    have symbol : operator.symbol? = some operator.mark := by
      rw [BinaryOperator.mark, ← Option.some_get hasSymbol, Option.getD_some]
    exact ⟨_, by rw [render?, renderedLeft, renderedRight, symbol]; rfl,
      written_binary hasSymbol writtenLeft writtenRight⟩
  | unary operator operand, bare => by
    obtain ⟨rfl, bareOperand, -⟩ := bare
    obtain ⟨text, rendered, written⟩ := written_of_bare operand bareOperand
    exact ⟨_, by rw [render?, rendered]; rfl, written_negation written⟩
  | dict _ _, bare => by simp [Bare] at bare
  | spread, bare => by simp [Bare] at bare
  | other _ _, bare => by simp [Bare] at bare

theorem written_of_bareAll :
    (trees : List Expr) → BareAll .readable trees →
      ∃ texts, renderAll trees = .ok texts ∧ Forall₂ Written trees texts
  | [], _ => ⟨[], rfl, .nil⟩
  | first :: rest, bare => by
    obtain ⟨text, rendered, written⟩ := written_of_bare first bare.1
    obtain ⟨texts, renderedAll, writtenAll⟩ := written_of_bareAll rest bare.2
    refine ⟨text :: texts, ?_, .cons written writtenAll⟩
    rw [renderAll, rendered, renderedAll]
    rfl

end

end Expr

/-! ## Reading the text of a tree -/

namespace Lexer

variable {characters : List Char} {text : String}

theorem unifyLineEnds_of_clean (clean : ∀ character ∈ characters, character ≠ '\r') :
    unifyLineEnds characters = characters := by
  induction characters with
  | nil => rfl
  | cons first rest ih =>
    have notReturn := clean first (by simp)
    rw [unifyLineEnds, ih fun character member => clean character (by simp [member])]
    · exact fun _ same => absurd same notReturn
    · exact notReturn

theorem skipBlankLines_of_solid (solid : IsSolid characters) (fuel : Nat) :
    skipBlankLines 0 0 (fuel + 1) characters = some characters := by
  obtain ⟨first, rest, rfl, notFiller⟩ := solid
  simp only [isFiller, Bool.or_eq_false_iff, beq_eq_false_iff_ne] at notFiller
  obtain ⟨⟨⟨⟨⟨notBlank, notTab⟩, notFeed⟩, notHash⟩, notNewline⟩, notBackslash⟩ := notFiller
  rw [skipBlankLines]
  · rfl
  · exact fun _ heads => notBlank (cons.inj heads).1
  · exact fun _ heads => notTab (cons.inj heads).1
  · exact fun _ heads => notFeed (cons.inj heads).1
  · exact fun _ heads => notBackslash (cons.inj heads).1
  · exact fun _ heads => notNewline (cons.inj heads).1
  · exact fun _ heads => notHash (cons.inj heads).1

theorem tokens_eq_readTokens
    (clean : ∀ character ∈ text.toList, character ≠ '\r' ∧ character ≠ Char.ofNat 0)
    (solid : IsSolid text.toList) : Lexer.tokens text =
      readTokens (tokensWithin text.toList.length) [] (text.toList.length + 1) text.toList := by
  have unified := unifyLineEnds_of_clean fun character member => (clean character member).1
  have noZero : text.toList.contains (Char.ofNat 0) = false := by
    rw [← Bool.not_eq_true, contains_iff_mem]
    exact fun member => (clean _ member).2 rfl
  simp only [Lexer.tokens, unified, noZero, Bool.false_eq_true, if_false]
  rw [tokensWithin, skipBlankLines_of_solid solid]
  rfl

theorem tokens_of_passage (passage : Passage dotted depth text.toList tokens)
    (solid : IsSolid text.toList) (shallow : depth ≤ maxNesting) :
    Lexer.tokens text = some tokens := by
  rw [tokens_eq_readTokens passage.clean solid]
  exact passage.spells.divides shallow _ _ (Nat.lt_succ_self _)

end Lexer

namespace Expr

theorem foldSigns_unfolded (tree : Expr) (bare : tree.Bare .readable) :
    tree.unfolded.foldSigns = tree := by
  induction tree using induction_on_children with
  | step tree ih =>
    have folded {trees : List Expr} (among : ∀ child ∈ trees, child ∈ tree.children)
        (bare : BareAll .readable trees) : foldSignsAll (unfoldedAll trees) = trees := by
      induction trees with
      | nil => rfl
      | cons first rest step =>
        rw [forall_mem_cons] at among
        rw [unfoldedAll, foldSignsAll, ih first among.1 bare.1, step among.2 bare.2]
    cases tree with
    | number value =>
      obtain ⟨-, -, involutive⟩ := bare
      cases signed : value.isSigned with
      | false => simp [unfolded, signed, foldSigns]
      | true => simp [unfolded, signed, foldSigns, involutive signed]
    | _ => simp_all [unfolded, foldSigns, foldSignsAll, Bare, children]

theorem ofTokens?_of_reads (starts : Parser.Starts 1 tokens)
    (reads : Parser.Reads (Parser.rules depth) 1 tokens tree) :
    ofTokens? (depth + 1) tokens = some tree.foldSigns := by
  have read := Parser.run_expression starts reads Parser.Follows.nil
  have outer : (Parser.rules (depth + 1)).expression = Parser.expression (Parser.rules depth) := rfl
  rw [append_nil] at read
  have noComma : Parser.beginsWithMark "," [] = false := rfl
  simp [ofTokens?, Parser.whole, outer, read, noComma]

/-- The tokens of a tree that needs no parentheses are those of one whole expression. -/
theorem ofTokens?_tokens (bare : tree.Bare .readable) (enough : tree.tokens.length < depth) :
    ofTokens? depth tree.tokens = some tree := by
  obtain _ | depth := depth
  · omega
  have fits := (Parser.parses tree bare depth (by omega)).fitsAt (Nat.le_refl 1)
    (Parser.strength_bounds tree).1
  rw [ofTokens?_of_reads fits.starts fits.reads, foldSigns_unfolded tree bare]

variable {text : String}

theorem written_of_render? (bare : tree.Bare .readable)
    (rendered : tree.render? = .ok (some text)) :
    tree.Written text := by
  obtain ⟨printed, alsoRendered, written⟩ := Expr.written_of_bare tree bare
  rw [rendered] at alsoRendered
  cases alsoRendered
  exact written

theorem parse_of_bare (bare : tree.Bare .readable) (shallow : tree.nesting ≤ maxNesting) :
    ∃ text, tree.render? = .ok (some text) ∧ Expr.parse text = .ok tree := by
  obtain ⟨text, rendered, written⟩ := written_of_bare tree bare
  refine ⟨text, rendered, ?_⟩
  have divided := tokens_of_passage written.passage written.solid shallow
  have enough : tree.tokens.length < text.length + 2 := by
    have short := written.passage.short
    rw [String.length_toList] at short
    omega
  rw [Expr.parse, divided, Option.bind_some, ofTokens?_tokens bare enough]

theorem parse_of_render? (bare : tree.Bare .readable) (shallow : tree.nesting ≤ maxNesting)
    (rendered : tree.render? = .ok (some text)) :
    Expr.parse text = .ok tree := by
  obtain ⟨printed, alsoRendered, parsed⟩ := parse_of_bare bare shallow
  cases rendered.symm.trans alsoRendered
  exact parsed

end Expr

/-! ## ASCII names and whole numbers -/

/-- ASCII identifiers that are not reserved, the three names of constants, and whole numbers that
have a literal. -/
def Lexicon.ascii : Lexicon where
  name id :=
    (isAsciiIdentifier id ∧ id ∉ reservedWords) ∨ id = "True" ∨ id = "False" ∨ id = "None"
  label id := isAsciiIdentifier id ∧ id ∉ reservedWords
  number
    | .int whole => (int whole).hasLiteral
    | _ => False

namespace Lexicon

instance : DecidablePred ascii.name := fun id =>
  inferInstanceAs (Decidable ((isAsciiIdentifier id ∧ id ∉ reservedWords) ∨
    id = "True" ∨ id = "False" ∨ id = "None"))

instance : DecidablePred ascii.label := fun id =>
  inferInstanceAs (Decidable (isAsciiIdentifier id ∧ id ∉ reservedWords))

instance : DecidablePred ascii.number
  | .int whole => inferInstanceAs (Decidable ((int whole).hasLiteral = true))
  | .float _ | .complex _ _ => inferInstanceAs (Decidable False)

variable {id : String} {value : Int}

theorem readable_name (name : ascii.name id) : readable.name id := by
  rcases name with ⟨identifier, free⟩ | rfl | rfl | rfl
  · refine ⟨isWordChar_of_isAsciiIdentifier identifier, ?_⟩
    have notLiteral : ¬ (id = "True" ∨ id = "False" ∨ id = "None") := by
      rintro (rfl | rfl | rfl) <;> exact free (by decide)
    rw [Expr.nameToken, if_neg notLiteral]
    exact wordToken?_of_isAsciiIdentifier identifier free
  · exact ⟨forall_mem_of_all (by decide), rfl⟩
  · exact ⟨forall_mem_of_all (by decide), rfl⟩
  · exact ⟨forall_mem_of_all (by decide), rfl⟩

theorem readable_label (label : ascii.label id) : readable.label id :=
  ⟨isWordChar_of_isAsciiIdentifier label.1, wordToken?_of_isAsciiIdentifier label.1 label.2⟩

theorem mem_literal_int {character : Char} (member : character ∈ (int value).literal.toList) :
    character.isDigit ∨ character = '-' := by
  have isDigit : ∀ {digit : Char}, digit ∈ Nat.toDigits 10 value.natAbs → digit.isDigit :=
    Nat.isDigit_of_mem_toDigits (by omega) (by omega)
  rw [toList_literal_int] at member
  split at member
  · rcases mem_cons.mp member with rfl | later
    · exact .inr rfl
    · exact .inl (isDigit later)
  · exact .inl (isDigit member)

theorem written_int (hasLiteral : (int value).hasLiteral) :
    (Expr.number (.int value)).Written (int value).literal := by
  refine ⟨⟨spells_int hasLiteral, ?_, ?_, ?_⟩, ?_⟩
  · intro character member
    rcases mem_literal_int member with isDigit | rfl
    · constructor <;> (rintro rfl; simp at isDigit)
    · decide
  · intro last isLast
    rcases mem_literal_int (mem_of_getLast? isLast) with isDigit | rfl
    · constructor <;> (rintro rfl; simp at isDigit)
    · decide
  · have digits : 1 ≤ (Nat.toDigits 10 value.natAbs).length := Nat.length_toDigits_pos
    rw [Expr.tokens, Number.tokens, Number.isSigned_int, Number.toList_literal_int]
    by_cases negative : value < 0
    · simpa [negative] using digits
    · simpa [negative] using digits
  · cases spelled : (int value).literal.toList with
    | nil =>
      rw [toList_literal_int] at spelled
      split at spelled
      · cases spelled
      · exact absurd spelled Nat.toDigits_ne_nil
    | cons first rest =>
      refine ⟨first, rest, rfl, ?_⟩
      rcases mem_literal_int (spelled ▸ mem_cons_self) with isDigit | rfl
      · exact isFiller_of_isWordChar (by simp [isWordChar, Char.isAlphanum, isDigit])
      · rfl

theorem readable_number {value : Number} (number : ascii.number value) : readable.number value := by
  cases value with
  | int whole => exact ⟨number, written_int number, fun _ => by simp [negate]⟩
  | float | complex => cases number

end Lexicon

theorem Expr.Bare.readable (bare : tree.Bare .ascii) : tree.Bare .readable :=
  bare.mono (fun _ => Lexicon.readable_name) (fun _ => Lexicon.readable_label) fun _ =>
    Lexicon.readable_number

/-- Printing a tree gives a text that is read as the tree again, if the tree needs no parentheses,
its names are ASCII and its brackets are not nested too deep. -/
theorem Expr.parse_render {tree : Expr} (bare : tree.Bare .ascii)
    (shallow : tree.nesting ≤ maxNesting) :
    ∃ text, tree.render? = .ok (some text) ∧ Expr.parse text = .ok tree :=
  parse_of_bare bare.readable shallow

/-- `not order.total < -1 or "it's" in ['a', None] and size(order, ()) == order.count % 2 - 1` -/
def Expr.orderCheck : Expr :=
  .connect .disjunction
    [.unary .negation (.compare (.access (.name "order" .load) "total" .load) [.less]
      [.number (.int (-1))]),
     .connect .conjunction
      [.compare (.text "it's") [.member] [.list [.text "a", .name "None" .load] .load],
       .compare (.call (.name "size" .load) [.name "order" .load, .tuple [] .load] []) [.equal]
        [.binary .subtract
          (.binary .modulo (.access (.name "order" .load) "count" .load) (.number (.int 2)))
          (.number (.int 1))]]]

theorem Expr.parse_render_orderCheck :
    (Expr.orderCheck.Bare .ascii ∧ Expr.orderCheck.nesting ≤ maxNesting) ∧
      ∃ text, Expr.orderCheck.render? = .ok (some text) ∧ Expr.parse text = .ok Expr.orderCheck :=
  ⟨⟨by decide, by decide⟩, Expr.parse_render (by decide) (by decide)⟩

/-! ## Limits -/

namespace Lexer

variable {openers rest : List Char}

/-- Brackets beyond the limit make a text unreadable, whatever they enclose. -/
theorem undivided_deep {room : Nat} (full : openers.length + room = maxNesting) :
    Undivided openers (replicate (room + 1) '[' ++ rest) := by
  induction room generalizing openers with
  | zero =>
    have noRoom : track openers "[" = none := by simp [track, ← full]
    exact undivided_mark ⟨rfl, rfl, rfl, rfl, rfl⟩ noRoom
  | succ room ih =>
    have inner : Undivided ('[' :: openers) (replicate (room + 1) '[' ++ rest) :=
      ih (by simp; omega)
    exact lexes_opening .square (by omega) inner

end Lexer

namespace Expr

/-- An empty list within as many lists. -/
def tower : Nat → Expr
  | 0 => list [] .load
  | levels + 1 => list [tower levels] .load

theorem bare_tower (lexicon : Lexicon) (levels : Nat) : (tower levels).Bare lexicon := by
  induction levels with
  | zero => exact ⟨rfl, trivial⟩
  | succ levels ih => exact ⟨rfl, ih, trivial⟩

theorem nesting_tower (levels : Nat) : (tower levels).nesting = levels + 1 := by
  induction levels with
  | zero => rfl
  | succ levels ih => simp [tower, nesting, nestingAll, ih]

/-- The text of a tower: its brackets and nothing else. -/
def towerText (levels : Nat) : String :=
  String.ofList (replicate (levels + 1) '[' ++ replicate (levels + 1) ']')

theorem render?_tower (levels : Nat) : (tower levels).render? = .ok (some (towerText levels)) := by
  induction levels with
  | zero => rfl
  | succ levels ih =>
    have outer : "[" ++ towerText levels ++ "]" = towerText (levels + 1) := by
      rw [← String.toList_inj]
      simp [towerText, replicate_succ, ← replicate_succ']
    rw [tower, render?, renderAll, ih, ← outer]
    rfl

theorem parse_of_undivided {text : String}
    (clean : ∀ character ∈ text.toList, character ≠ '\r' ∧ character ≠ Char.ofNat 0)
    (solid : IsSolid text.toList) (undivided : Undivided [] text.toList) :
    Expr.parse text = .error .badExpression := by
  rw [Expr.parse, tokens_eq_readTokens clean solid, undivided _ _ (Nat.lt_succ_self _)]
  rfl

variable {levels : Nat}

theorem clean_towerText {character : Char} (member : character ∈ (towerText levels).toList) :
    character ≠ '\r' ∧ character ≠ Char.ofNat 0 := by
  simp only [towerText, String.toList_ofList, mem_append, mem_replicate] at member
  rcases member with ⟨-, rfl⟩ | ⟨-, rfl⟩ <;> decide

theorem parse_towerText (deep : maxNesting ≤ levels) :
    Expr.parse (towerText levels) = .error .badExpression := by
  obtain ⟨rest, spelled⟩ : ∃ rest, (towerText levels).toList =
      replicate (maxNesting + 1) '[' ++ rest := by
    have total : maxNesting + 1 + (levels - maxNesting) = levels + 1 := by omega
    refine ⟨replicate (levels - maxNesting) '[' ++ replicate (levels + 1) ']', ?_⟩
    rw [towerText, String.toList_ofList, ← append_assoc, replicate_append_replicate, total]
  have full : ([] : List Char).length + maxNesting = maxNesting := Nat.zero_add _
  refine parse_of_undivided (fun _ => clean_towerText) ⟨'[', _, spelled, rfl⟩ ?_
  rw [spelled]
  exact undivided_deep full

theorem parse_towerText_of_lt (room : levels < maxNesting) :
    Expr.parse (towerText levels) = .ok (tower levels) :=
  parse_of_render? (bare_tower _ levels) ((nesting_tower levels).trans_le room)
    (render?_tower levels)

/-- Beyond the limits a tree that needs no parentheses is not read back: brackets are nested too
deep, or an integer has too many digits to be printed at all. -/
theorem not_read_beyond_limits :
    ((tower maxNesting).Bare .ascii ∧ ∃ text, (tower maxNesting).render? = .ok (some text) ∧
        Expr.parse text = .error .badExpression) ∧
      (number (.int (10 ^ Number.maxDigits))).render? = .error .badValue := by
  refine ⟨⟨bare_tower _ _, _, render?_tower _, parse_towerText (Nat.le_refl _)⟩, ?_⟩
  have tooLong : (Number.int (10 ^ Number.maxDigits)).hasLiteral = false := by
    have natural (digits : Nat) : ((10 : Int) ^ digits).natAbs = 10 ^ digits :=
      Int.natAbs_pow 10 digits
    rw [Number.hasLiteral, decide_eq_false_iff_not, natural,
      Nat.length_toDigits_le_iff (by omega) (by decide)]
    exact Nat.lt_irrefl _
  rw [render?, tooLong]
  rfl

end Expr

end ApiDescription
