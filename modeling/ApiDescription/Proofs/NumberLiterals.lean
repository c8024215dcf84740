import ApiDescription.Proofs.Doubles
import ApiDescription.Proofs.TreeNumbers

/-!
# Numbers of parsed expressions

A number literal is a natural, the double nearest to a decimal, or such a double as an imaginary
part.  So every number that a parsed expression holds has a value, and equality of its numbers is an
equivalence.
-/

set_option mvcgen.warning false

namespace ApiDescription

open Std.Do Literal Decimal

/-! ## Literals -/

inductive Literal.Denotes : Number → Prop
  | whole (value : Nat) : Denotes (.int value)
  | decimal (digits : Nat) (exponent : Int) :
      Denotes (.float (ofScientific digits exponent))
  | imaginary (digits : Nat) (exponent : Int) :
      Denotes (.complex 0.0 (ofScientific digits exponent))

abbrev Gives {α : Type} (good : α → Prop) (reading : Option α) : Prop :=
  ⦃⌜True⌝⦄ reading ⦃⇓? value => ⌜good value⌝⦄

section Gives

variable {α β : Type} {good : α → Prop}

theorem gives_iff {reading : Option α} :
    Gives good reading ↔ ∀ value, reading = some value → good value := by
  cases reading with
  | none => exact ⟨by simp, fun _ _ => trivial⟩
  | some value =>
    constructor
    · intro holds other same
      obtain rfl := Option.some.inj same
      exact holds trivial
    · exact fun holds _ => holds value rfl

theorem gives_any (reading : Option α) : Gives (fun _ => True) reading := by
  simp [gives_iff]

theorem gives_none : Gives (fun _ => False) (none : Option α) := by
  simp [gives_iff]

theorem gives_some (value : α) : Gives (· = value) (some value) := by
  simp [gives_iff, eq_comm]

end Gives

namespace Literal

theorem gives_readDecimal (whole characters : List Char) :
    Gives (fun result => Denotes result.1) (readDecimal whole characters) := by
  have fraction := fun characters => gives_any (readFraction characters)
  have exponent := fun characters => gives_any (readExponent characters)
  mvcgen [readDecimal, fraction, exponent, gives_none] <;> grind [Denotes]

theorem gives_readBased (base : Nat) (isBaseDigit : Char → Bool) (characters : List Char) :
    Gives (fun result => Denotes result.1) (readBased base isBaseDigit characters) := by
  have groups := fun characters => gives_any (digitGroups isBaseDigit [] characters)
  mvcgen [readBased, groups, gives_none] <;> grind [Denotes]

theorem gives_readNumber (characters : List Char) :
    Gives (fun result => Denotes result.1) (readNumber characters) := by
  have groups := fun characters => gives_any (digitGroups Char.isDigit [] characters)
  mvcgen [readNumber, gives_readBased, gives_readDecimal, groups]

end Literal

/-! ## Tokens -/

namespace Lexer

variable {allowed : Number → Prop} {lex : List Char → Option (List Token)}

theorem gives_templatePieces
    (embedded : ∀ characters, Gives (∀ token ∈ ·, token.Within allowed) (lex characters))
    (raw : Bool) (fuel level : Nat) (characters : List Char) :
    Gives (fun result => ∀ piece ∈ result.1, piece.Within allowed)
      (templatePieces lex raw fuel level characters) := by
  induction fuel generalizing level characters with
  | zero => exact gives_iff.mpr (by simp [templatePieces])
  | succ fuel ih =>
    have literal := fun characters => gives_any (templateLiteral raw level [] characters)
    have text := fun characters => gives_any (bodyText raw characters)
    have source := fun fuel characters => gives_any (embeddedSource [] none [] fuel characters)
    have conversion := fun characters => gives_any (skipConversion characters)
    mvcgen [templatePieces, literal, text, source, conversion, embedded, ih,
      gives_none, gives_some] <;> grind [Piece.Within]

theorem gives_readStringToken
    (embedded : ∀ characters, Gives (∀ token ∈ ·, token.Within allowed) (lex characters))
    (kind : StringKind) (characters : List Char) :
    Gives (fun result => result.1.Within allowed) (readStringToken lex kind characters) := by
  have body := gives_any (readBody characters)
  have text := fun characters => gives_any (bodyText kind.raw characters)
  have pieces := fun fuel => gives_templatePieces embedded kind.raw fuel 0
  mvcgen [readStringToken, body, text, pieces, gives_none] <;> grind [Token.Within]

theorem gives_readWord (characters : List Char) :
    Gives (fun result => result.1.Within allowed) (readWord characters) := by
  mvcgen [readWord, gives_none] <;> grind [Token.Within]

theorem gives_readToken (literals : ∀ value, Denotes value → allowed value)
    (embedded : ∀ characters, Gives (∀ token ∈ ·, token.Within allowed) (lex characters))
    (openers : List Char) (first : Char) (rest : List Char) :
    Gives (fun result => result.1.Within allowed) (readToken lex openers first rest) := by
  have string := gives_readStringToken embedded
  have marks := fun characters => gives_any (readMark characters)
  have brackets := fun mark => gives_any (track openers mark)
  mvcgen [readToken, string, gives_readDecimal, gives_readNumber, gives_readWord, marks,
    brackets] <;>
    grind [Token.Within]

theorem gives_readTokens (literals : ∀ value, Denotes value → allowed value)
    (embedded : ∀ characters, Gives (∀ token ∈ ·, token.Within allowed) (lex characters))
    (openers : List Char) (fuel : Nat) (characters : List Char) :
    Gives (∀ token ∈ ·, token.Within allowed) (readTokens lex openers fuel characters) := by
  induction fuel generalizing openers characters with
  | zero => exact gives_iff.mpr (by simp [readTokens])
  | succ fuel ih =>
    cases characters with
    | nil => exact gives_iff.mpr (by simp [readTokens])
    | cons first rest =>
      have token := gives_readToken literals embedded
      mvcgen [readTokens, token, ih, gives_none, gives_some] <;> grind

theorem gives_tokensWithin (literals : ∀ value, Denotes value → allowed value) (fuel : Nat)
    (characters : List Char) :
    Gives (∀ token ∈ ·, token.Within allowed) (tokensWithin fuel characters) := by
  induction fuel generalizing characters with
  | zero => exact gives_iff.mpr (by simp [tokensWithin])
  | succ fuel ih =>
    have start := gives_any (skipBlankLines 0 0 (characters.length + 1) characters)
    have line := fun fuel => gives_readTokens literals ih [] fuel
    mvcgen [tokensWithin, start, line]

theorem within_of_tokens (literals : ∀ value, Denotes value → allowed value) {source : String}
    {found : List Token} (read : tokens source = some found) :
    ∀ token ∈ found, token.Within allowed := by
  simp only [tokens] at read
  split at read
  · simp at read
  · exact gives_iff.mp (gives_tokensWithin literals _ _) found read

end Lexer

/-! ## Trees -/

/-- A number that is no `NaN` and has none as a part. -/
def Number.HasValue (number : Number) : Prop :=
  number.value?.isSome

theorem Number.hasValue_float {value : Float} : (float value).HasValue ↔ value.isNaN = false := by
  simp [HasValue, value?, isSome_valueOf?]

theorem Number.hasValue_complex {real imaginary : Float} :
    (complex real imaginary).HasValue ↔ real.isNaN = false ∧ imaginary.isNaN = false := by
  have first := @isSome_valueOf? real
  have second := @isSome_valueOf? imaginary
  unfold HasValue value?
  cases valueOf : valueOf? real <;> cases valueOf? imaginary <;> simp_all

theorem Literal.Denotes.hasValue {number : Number} (denotes : Denotes number) :
    number.HasValue := by
  cases denotes with
  | whole value => rfl
  | decimal digits exponent => exact Number.hasValue_float.mpr (isNaN_ofScientific _ _)
  | imaginary digits exponent =>
    exact Number.hasValue_complex.mpr ⟨rfl, isNaN_ofScientific _ _⟩

theorem Number.HasValue.negate {number : Number} (hasValue : number.HasValue) :
    number.negate.HasValue := by
  cases number with
  | int value => rfl
  | float value =>
    rw [Number.hasValue_float] at hasValue
    rw [Number.negate, Number.hasValue_float, isNaN_neg]
    exact hasValue
  | complex real imaginary =>
    rw [Number.hasValue_complex] at hasValue
    rw [Number.negate, Number.hasValue_complex, isNaN_neg, isNaN_neg]
    exact hasValue

/-- Every number of a parsed expression has a value, and every chain has operands. -/
theorem Expr.sound_of_parse {source : String} {tree : Expr}
    (parsed : Expr.parse source = .ok tree) :
    tree.Sound Number.HasValue := by
  unfold Expr.parse at parsed
  split at parsed
  next found read =>
    obtain rfl := Except.ok.inj parsed
    rw [Option.bind_eq_some_iff] at read
    obtain ⟨tokens, lexed, read⟩ := read
    have within := Lexer.within_of_tokens (fun _ denotes => denotes.hasValue) lexed
    exact Expr.sound_ofTokens? (fun _ hasValue => hasValue.negate) within read
  next => simp at parsed

end ApiDescription
