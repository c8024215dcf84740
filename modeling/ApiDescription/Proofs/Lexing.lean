import ApiDescription.Expression.Lexer
import Mathlib

/-!
# Texts that are divided into given tokens

A text is put together from pieces, and so are its tokens.  `Divides` says that the characters from
some point on are divided into given tokens, `Undivided` that they cannot be divided, `Spells` that
a piece stands for given tokens wherever something follows that cannot be taken for a part of it.
Pieces are words, numbers, strings and marks; what nests brackets says how deep, since there is a
limit.
-/

namespace ApiDescription.Lexer

variable {openers rest after : List Char} {first character : Char} {token : Token}

variable {tokens : List Token} {result : Option (List Token)}

theorem forall_mem_of_all {property : Char → Prop} [DecidablePred property] {characters : List Char}
    (all : characters.all (property ·) = true) : ∀ character ∈ characters, property character := by
  simpa using all

/-! ## Division into tokens -/

/-- The characters give the tokens, or none, if there is fuel for every character.  No template is
among them, so it does not matter how embedded expressions are divided. -/
def Lexes (openers characters : List Char) (result : Option (List Token)) : Prop :=
  ∀ lex fuel, characters.length < fuel → readTokens lex openers fuel characters = result

abbrev Divides (openers characters : List Char) (tokens : List Token) : Prop :=
  Lexes openers characters (some tokens)

abbrev Undivided (openers characters : List Char) : Prop :=
  Lexes openers characters none

theorem divides_nil (openers : List Char) : Divides openers [] [] := by
  intro lex fuel enough
  cases fuel with
  | zero => simp at enough
  | succ fuel => rfl

theorem lexes_blank (lexes : Lexes openers rest result) : Lexes openers (' ' :: rest) result := by
  intro lex fuel enough
  cases fuel with
  | zero => simp at enough
  | succ fuel =>
    rw [← lexes lex fuel (by simpa using enough)]
    rfl

def isFiller (character : Char) : Bool :=
  character == ' ' || character == '\t' || character == '\x0c' || character == '#' ||
    character == '\n' || character == '\\'

/-- Where no blank, comment or end of a line comes next, a token is read. -/
theorem readTokens_of_solid {lex : List Char → Option (List Token)} {fuel : Nat}
    (solid : isFiller first = false) :
    readTokens lex openers (fuel + 1) (first :: rest) = (readToken lex openers first rest).bind
      fun read => (readTokens lex read.2.1 fuel read.2.2).map (read.1 :: ·) := by
  simp only [isFiller, Bool.or_eq_false_iff] at solid
  conv => lhs; unfold readTokens
  simp [solid, Option.map_eq_bind]

/-- If one token is read, what is left gives the others. -/
theorem lexes_of_readToken {inner : List Char} (solid : isFiller first = false)
    (read : ∀ lex, readToken lex openers first rest = some (token, inner, after))
    (shorter : after.length ≤ rest.length) (lexes : Lexes inner after result) :
    Lexes openers (first :: rest) (result.map (token :: ·)) := by
  intro lex fuel enough
  cases fuel with
  | zero => simp at enough
  | succ fuel =>
    rw [readTokens_of_solid solid, read, Option.bind_some,
      lexes lex fuel (by simp at enough; omega)]

variable {mark : String} {digit next : Char}

/-- A mark comes next. -/
structure ReadsMark (first : Char) (rest : List Char) (mark : String) (after : List Char) :
    Prop where
  solid : isFiller first = false
  noString : stringStart? (first :: rest) = none
  noNumber : (first.isDigit || (first == '.' && rest.head?.any Char.isDigit)) = false
  noWord : Literal.isWordChar first = false
  read : readMark (first :: rest) = some (mark, after)

theorem ReadsMark.readToken (reads : ReadsMark first rest mark after)
    (lex : List Char → Option (List Token)) (openers : List Char) :
    readToken lex openers first rest =
      (track openers mark).bind fun inner => some (.mark mark, inner, after) := by
  simp [Lexer.readToken, reads.noString, reads.noNumber, reads.noWord, reads.read]

theorem lexes_mark {inner : List Char} (reads : ReadsMark first rest mark after)
    (shorter : after.length ≤ rest.length) (tracked : track openers mark = some inner)
    (lexes : Lexes inner after result) :
    Lexes openers (first :: rest) (result.map (.mark mark :: ·)) :=
  lexes_of_readToken reads.solid (fun lex => by rw [reads.readToken, tracked, Option.bind_some])
    shorter lexes

theorem undivided_mark (reads : ReadsMark first rest mark after)
    (untracked : track openers mark = none) :
    Undivided openers (first :: rest) := by
  intro lex fuel enough
  cases fuel with
  | zero => rfl
  | succ fuel =>
    rw [readTokens_of_solid reads.solid, reads.readToken, untracked]
    rfl

/-! ## Marks -/

/-- The brackets around lists and around tuples and arguments. -/
inductive Bracket where
  | round | square

namespace Bracket

def opening : Bracket → Char
  | round => '('
  | square => '['

def closing : Bracket → Char
  | round => ')'
  | square => ']'

def openingMark : Bracket → String
  | round => "("
  | square => "["

def closingMark : Bracket → String
  | round => ")"
  | square => "]"

end Bracket

theorem lexes_opening (bracket : Bracket) (room : openers.length < maxNesting)
    (lexes : Lexes (bracket.opening :: openers) rest result) :
    Lexes openers (bracket.opening :: rest) (result.map (.mark bracket.openingMark :: ·)) := by
  have read : readMark (bracket.opening :: rest) = some (bracket.openingMark, rest) := by
    cases bracket <;> rfl
  have tracked : track openers bracket.openingMark = some (bracket.opening :: openers) := by
    cases bracket <;> simp [track, Bracket.openingMark, Bracket.opening, room]
  cases bracket <;> exact lexes_mark ⟨rfl, rfl, rfl, rfl, read⟩ (Nat.le_refl _) tracked lexes

theorem lexes_closing (bracket : Bracket) (lexes : Lexes openers rest result) :
    Lexes (bracket.opening :: openers) (bracket.closing :: rest)
      (result.map (.mark bracket.closingMark :: ·)) := by
  have read : readMark (bracket.closing :: rest) = some (bracket.closingMark, rest) := by
    cases bracket <;> rfl
  cases bracket <;> exact lexes_mark ⟨rfl, rfl, rfl, rfl, read⟩ (Nat.le_refl _) rfl lexes

theorem lexes_comma (lexes : Lexes openers rest result) :
    Lexes openers (',' :: rest) (result.map (.mark "," :: ·)) :=
  lexes_mark ⟨rfl, rfl, rfl, rfl, rfl⟩ (Nat.le_refl _) rfl lexes

/-- A minus before a digit is a mark of its own. -/
theorem lexes_sign (isDigit : digit.isDigit) (lexes : Lexes openers (digit :: rest) result) :
    Lexes openers ('-' :: digit :: rest) (result.map (.mark "-" :: ·)) := by
  have read : readMark ('-' :: digit :: rest) = some ("-", digit :: rest) := by
    have notEquals : digit ≠ '=' := by rintro rfl; simp at isDigit
    have notGreater : digit ≠ '>' := by rintro rfl; simp at isDigit
    have length : "-".length = 1 := rfl
    simp [readMark, marks, notEquals.symm, notGreater.symm, length]
  exact lexes_mark ⟨rfl, rfl, rfl, rfl, read⟩ (by simp) rfl lexes

/-- A point before a name is a mark, not the start of a fraction. -/
theorem lexes_point (isWordChar : Literal.isWordChar first) (notDigit : first.isDigit = false)
    (lexes : Lexes openers (first :: rest) result) :
    Lexes openers ('.' :: first :: rest) (result.map (.mark "." :: ·)) := by
  have read : readMark ('.' :: first :: rest) = some (".", first :: rest) := by
    have notPoint : first ≠ '.' := by rintro rfl; exact absurd isWordChar (by decide)
    have length : ".".length = 1 := rfl
    simp [readMark, marks, notPoint.symm, length]
  exact lexes_mark ⟨rfl, rfl, by simp [notDigit], rfl, read⟩ (by simp) rfl lexes

/-! ## What follows a piece -/

/-- What may follow a piece of a text: the end, a blank, a comma or a bracket; a point only where
the piece is not a whole number. -/
def Stops (dotted : Bool) : List Char → Prop
  | [] => True
  | next :: _ =>
    next = ' ' ∨ next = ',' ∨ next = ')' ∨ next = ']' ∨ next = '(' ∨ (dotted = true ∧ next = '.')

/-- What stops a piece does not go on with a word. -/
theorem Stops.isWordChar_eq_false {dotted : Bool} (stops : Stops dotted (next :: rest)) :
    Literal.isWordChar next = false := by
  rcases stops with rfl | rfl | rfl | rfl | rfl | ⟨-, rfl⟩ <;> rfl

theorem Stops.not_quote {dotted : Bool} (stops : Stops dotted (next :: rest)) :
    next ≠ '"' ∧ next ≠ '\x27' := by
  rcases stops with rfl | rfl | rfl | rfl | rfl | ⟨-, rfl⟩ <;> decide

/-- What stops a whole number stops every piece. -/
theorem Stops.dotted {dotted : Bool} (stops : Stops false rest) :
    Stops dotted rest := by
  cases rest with
  | nil => trivial
  | cons next rest =>
    rcases stops with rfl | rfl | rfl | rfl | rfl | ⟨⟨⟩, -⟩ <;> simp [Stops]

/-! ## Words -/

theorem takeWhile_isWordChar_append {dotted : Bool} {word : List Char}
    (letters : ∀ character ∈ word, Literal.isWordChar character) (stops : Stops dotted rest) :
    (word ++ rest).takeWhile Literal.isWordChar = word := by
  rw [List.takeWhile_append_of_pos letters]
  cases rest with
  | nil => simp
  | cons next rest => simp [stops.isWordChar_eq_false]

/-- What a word stands for: a reserved word for a mark, a name for its normal form. -/
def wordToken? (word : List Char) : Option Token :=
  if reservedWords.contains (String.ofList word) then some (.mark (String.ofList word))
  else
    match word with
    | first :: others =>
      if Text.isIdentifierStart first && others.all Text.isIdentifierPart then
        some (.word (Text.normalize (String.ofList word)))
      else none
    | [] => none

/-- A word is read to its end before anything is decided about it. -/
theorem readWord_eq (characters : List Char) :
    readWord characters = (wordToken? (characters.takeWhile Literal.isWordChar)).map
        (·, characters.drop (characters.takeWhile Literal.isWordChar).length) := by
  unfold readWord wordToken?
  generalize characters.takeWhile Literal.isWordChar = word
  cases word <;> simp only [Option.pure_def] <;> split <;> try rfl
  split <;> rfl

theorem isAlpha_iff_toNat :
    character.isAlpha ↔
      (65 ≤ character.toNat ∧ character.toNat ≤ 90) ∨
        (97 ≤ character.toNat ∧ character.toNat ≤ 122) := by
  simp [Char.isAlpha, Char.isUpper, Char.isLower, UInt32.le_iff_toNat_le, ← Char.toNat_val]

theorem isDigit_iff_toNat :
    character.isDigit ↔ 48 ≤ character.toNat ∧ character.toNat ≤ 57 :=
  Char.isDigit_iff_toNat

theorem isAlpha_of_isDigit (digit : character.isDigit) : character.isAlpha = false := by
  have range := isDigit_iff_toNat.mp digit
  rw [← Bool.not_eq_true, isAlpha_iff_toNat]
  omega

theorem isIdentifierStart_of_isDigit (digit : character.isDigit) :
    Text.isIdentifierStart character = false := by
  have range := isDigit_iff_toNat.mp digit
  have notUnderscore : character ≠ '_' := by rintro rfl; simp at digit
  rw [Text.isIdentifierStart, if_pos (by omega)]
  simp [isAlpha_of_isDigit digit, notUnderscore]

/-- What is read as a word does not begin with a digit. -/
theorem head_of_wordToken? {word : List Char} (read : wordToken? word = some token) :
    ∃ first others, word = first :: others ∧ first.isDigit = false := by
  cases word with
  | nil => simp [wordToken?, reservedWords] at read
  | cons first others =>
    refine ⟨first, others, rfl, ?_⟩
    unfold wordToken? at read
    split at read
    · next reserved =>
      have letters : ∀ text ∈ reservedWords, text.toList.head?.any Char.isDigit = false := by
        decide
      simpa using letters _ (List.contains_iff_mem.mp reserved)
    · simp only at read
      split at read
      · next identifier =>
        rw [Bool.and_eq_true] at identifier
        by_contra digit
        simp [isIdentifierStart_of_isDigit (by simpa using digit)] at identifier
      · cases read

theorem not_quote_of_isWordChar (letter : Literal.isWordChar character) :
    character ≠ '"' ∧ character ≠ '\x27' := by
  constructor <;> (rintro rfl; exact absurd letter (by decide))

theorem isFiller_of_isWordChar (letter : Literal.isWordChar character) :
    isFiller character = false := by
  by_contra filler
  simp only [isFiller, Bool.not_eq_false, Bool.or_eq_true, beq_iff_eq] at filler
  rcases filler with ((((rfl | rfl) | rfl) | rfl) | rfl) | rfl <;> exact absurd letter (by decide)

theorem isAlpha_of_isWordChar (other : Literal.isWordChar character = false) :
    character.isAlpha = false := by
  by_contra letter
  simp_all [Literal.isWordChar, Char.isAlphanum]

/-- The letters of a word are no prefix of a string, since no quote follows them. -/
theorem stringStart?_of_word {dotted : Bool} {word : List Char}
    (letters : ∀ character ∈ word, Literal.isWordChar character) (stops : Stops dotted rest) :
    stringStart? (word ++ rest) = none := by
  have quoteless : ∀ character ∈ word, character ≠ '"' ∧ character ≠ '\x27' :=
    fun character member => not_quote_of_isWordChar (letters character member)
  unfold stringStart?
  -- the letters of a prefix are at most two, and all of them belong to the word
  match word with
  | [] =>
    cases rest with
    | nil => rfl
    | cons next rest =>
      simp [isAlpha_of_isWordChar stops.isWordChar_eq_false, stops.not_quote]
  | [only] =>
    cases alpha : only.isAlpha <;> cases rest with
    | nil => simp [alpha, quoteless only]
    | cons next rest =>
      simp [alpha, quoteless only, isAlpha_of_isWordChar stops.isWordChar_eq_false, stops.not_quote]
  | [first, second] =>
    cases firstAlpha : first.isAlpha <;> cases secondAlpha : second.isAlpha <;> cases rest with
    | nil => simp [firstAlpha, secondAlpha, quoteless first, quoteless second]
    | cons next rest =>
      simp [firstAlpha, secondAlpha, quoteless first, quoteless second, stops.not_quote]
  | first :: second :: third :: others =>
    cases firstAlpha : first.isAlpha <;> cases secondAlpha : second.isAlpha <;>
      simp [firstAlpha, secondAlpha, quoteless first, quoteless second, quoteless third]

/-- A word that stops is one token. -/
theorem lexes_word {dotted : Bool} {word : List Char}
    (letters : ∀ character ∈ word, Literal.isWordChar character)
    (read : wordToken? word = some token) (stops : Stops dotted rest)
    (lexes : Lexes openers rest result) :
    Lexes openers (word ++ rest) (result.map (token :: ·)) := by
  obtain ⟨first, others, rfl, notDigit⟩ := head_of_wordToken? read
  have isWordChar : Literal.isWordChar first := letters first (by simp)
  have notPoint : (first == '.') = false := by
    rw [beq_eq_false_iff_ne]
    rintro rfl
    exact absurd isWordChar (by decide)
  have noString := stringStart?_of_word letters stops
  have readWord : readWord (first :: others ++ rest) = some (token, rest) := by
    rw [readWord_eq, takeWhile_isWordChar_append letters stops, read, List.drop_left]
    rfl
  rw [List.cons_append] at noString readWord
  refine lexes_of_readToken (isFiller_of_isWordChar isWordChar) (fun lex => ?_) (by simp) lexes
  simp [readToken, noString, notDigit, notPoint, isWordChar, readWord]

/-! ## Numbers and strings -/

/-- From a digit on a number is read. -/
theorem divides_number {number : Number} (isDigit : digit.isDigit)
    (read : Literal.readNumber (digit :: rest) = some (number, after))
    (shorter : after.length ≤ rest.length) (divided : Divides openers after tokens) :
    Divides openers (digit :: rest) (.number number :: tokens) := by
  have isWordChar :
      Literal.isWordChar digit := by simp [Literal.isWordChar, Char.isAlphanum, isDigit]
  have notPoint : digit ≠ '.' := by rintro rfl; simp at isDigit
  have noString : stringStart? (digit :: rest) = none := by
    simp [stringStart?, isAlpha_of_isDigit isDigit, not_quote_of_isWordChar isWordChar]
  refine lexes_of_readToken (isFiller_of_isWordChar isWordChar) (fun lex => ?_) shorter divided
  simp [readToken, noString, isDigit, notPoint, read]

/-- A string without letters before its quote is read as its value. -/
theorem divides_text {body : List Char} {quote : Char} {value : String}
    (isQuote : quote = '"' ∨ quote = '\x27') (read : readBody (quote :: rest) = some (body, after))
    (unescaped : Literal.bodyText false body = some value) (shorter : after.length ≤ rest.length)
    (divided : Divides openers after tokens) :
    Divides openers (quote :: rest) (.text value :: tokens) := by
  have string : stringStart? (quote :: rest) = some ({}, quote :: rest) := by
    rcases isQuote with rfl | rfl <;> rfl
  have solid : isFiller quote = false := by rcases isQuote with rfl | rfl <;> rfl
  refine lexes_of_readToken solid (fun lex => ?_) shorter divided
  simp [readToken, string, readStringToken, read, unescaped]

/-! ## Pieces of a text -/

/-- A piece of a text stands for the tokens wherever it stops, with room for `depth` more
brackets. -/
def Spells (dotted : Bool) (depth : Nat) (piece : List Char) (tokens : List Token) : Prop :=
  ∀ openers rest more, openers.length + depth ≤ maxNesting → Stops dotted rest →
    Divides openers rest more → Divides openers (piece ++ rest) (tokens ++ more)

namespace Spells

variable {dotted : Bool} {depth : Nat} {piece : List Char} {tokens : List Token}

theorem nil : Spells dotted depth [] [] :=
  fun _ _ _ _ _ divided => divided

/-- A piece makes do with more room than it needs. -/
theorem deepen {deeper : Nat} (atMost : depth ≤ deeper)
    (spells : Spells dotted depth piece tokens) :
    Spells dotted deeper piece tokens :=
  fun openers rest more room => spells openers rest more (by omega)

theorem undotted (spells : Spells dotted depth piece tokens) : Spells false depth piece tokens :=
  fun openers rest more room stops => spells openers rest more room stops.dotted

theorem word (letters : ∀ character ∈ piece, Literal.isWordChar character)
    (read : wordToken? piece = some token) :
    Spells dotted depth piece [token] :=
  fun _ _ _ _ stops divided => lexes_word letters read stops divided

/-- Two pieces stand for their tokens in turn if the second one stops the first. -/
theorem append {after : Bool} {next : List Char} {others : List Token}
    (spells : Spells after depth piece tokens) (follows : Spells dotted depth next others)
    (notEmpty : next ≠ []) (stops : Stops after next) :
    Spells dotted depth (piece ++ next) (tokens ++ others) := by
  intro openers rest more room stopsRest divided
  rw [List.append_assoc, List.append_assoc]
  refine spells openers (next ++ rest) (others ++ more) room ?_
    (follows openers rest more room stopsRest divided)
  cases next with
  | nil => exact absurd rfl notEmpty
  | cons first next => exact stops

theorem blank (spells : Spells dotted depth piece tokens) :
    Spells dotted depth (' ' :: piece) tokens :=
  fun openers rest more room stops divided =>
    lexes_blank (spells openers rest more room stops divided)

/-- A piece after a comma, as it stands in a list. -/
theorem comma (spells : Spells dotted depth piece tokens) :
    Spells dotted depth (',' :: ' ' :: piece) (.mark "," :: tokens) :=
  fun openers rest more room stops divided =>
    lexes_comma (lexes_blank (spells openers rest more room stops divided))

/-- A label after a point. -/
theorem point (letters : ∀ character ∈ piece, Literal.isWordChar character)
    (read : wordToken? piece = some token) :
    Spells dotted depth ('.' :: piece) [.mark ".", token] := by
  intro openers rest more room stops divided
  have label := lexes_word letters read stops divided
  obtain ⟨first, others, rfl, notDigit⟩ := head_of_wordToken? read
  exact lexes_point (letters first (by simp)) notDigit label

/-- Brackets around a piece take one level of nesting. -/
theorem enclosed (bracket : Bracket) {after : Bool} (spells : Spells after depth piece tokens) :
    Spells dotted (depth + 1) (bracket.opening :: (piece ++ [bracket.closing]))
      (.mark bracket.openingMark :: (tokens ++ [Token.mark bracket.closingMark])) := by
  intro openers rest more room stops divided
  have closed := lexes_closing bracket divided
  have inner := spells (bracket.opening :: openers) (bracket.closing :: rest) _ (by simp; omega)
    (by cases bracket <;> simp [Stops, Bracket.closing]) closed
  have all := lexes_opening bracket (by omega) inner
  simpa using all

/-- A piece that is not nested too deep is a whole text. -/
theorem divides (spells : Spells dotted depth piece tokens) (shallow : depth ≤ maxNesting) :
    Divides [] piece tokens := by
  have all := spells [] [] [] (by simpa using shallow) trivial (divides_nil [])
  simpa using all

end Spells

end ApiDescription.Lexer
