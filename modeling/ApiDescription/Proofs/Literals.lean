import ApiDescription.Proofs.Bare
import ApiDescription.Proofs.Lexing

/-!
# Literals that are read back

What the texts of strings, whole numbers and names are divided into.  A string in quotes is read as
the string, whatever characters it has; the digits of a whole number are read as the number, up to
the most digits a literal may have; an ASCII identifier is read as itself.
-/

namespace ApiDescription

open Lexer

variable {value : Nat} {rest : List Char}

/-! ## Strings -/

namespace Literal

def IsQuote (quote : Char) : Prop := quote = '"' ∨ quote = '\x27'

/-- A character that stands for itself in the body of a string. -/
def IsPlain (quote character : Char) : Prop :=
  character ≠ quote ∧ character ≠ '\\' ∧ character ≠ '\n'

variable {quote : Char}

theorem stringBody_plain {character : Char} (plain : IsPlain quote character)
    (gathered rest : List Char) :
    stringBody quote false gathered (character :: rest) =
      stringBody quote false (character :: gathered) rest := by
  obtain ⟨notQuote, notBackslash, notNewline⟩ := plain
  conv => lhs; unfold stringBody
  split
  · next heads => cases heads
  · next heads => cases heads; exact absurd rfl notBackslash
  · next heads =>
    cases heads
    simp [notQuote, notNewline]

/-- Plain characters are gathered one after the other. -/
theorem stringBody_append_plain {characters : List Char}
    (plain : ∀ character ∈ characters, IsPlain quote character) (gathered rest : List Char) :
    stringBody quote false gathered (characters ++ rest) =
      stringBody quote false (characters.reverse ++ gathered) rest := by
  induction characters generalizing gathered with
  | nil => rfl
  | cons first others ih =>
    rw [List.cons_append, stringBody_plain (plain first (by simp)),
      ih fun character member => plain character (by simp [member])]
    simp

theorem stringBody_quote (isQuote : IsQuote quote) (gathered rest : List Char) :
    stringBody quote false gathered (quote :: rest) = some (gathered.reverse, rest) := by
  have notBackslash : quote ≠ '\\' := by rcases isQuote with rfl | rfl <;> decide
  conv => lhs; unfold stringBody
  split
  · next heads => cases heads
  · next heads => cases heads; exact absurd rfl notBackslash
  · next heads => cases heads; simp

end Literal

namespace Text

open Literal

variable {width value : Nat} {quote : Char}

theorem digitChar_hex : ∀ digit < 16, Doc.hexValue? (Nat.digitChar digit) = some digit := by decide

/-- The digits of a number in base 16 are read as the number. -/
theorem mapM_hexValue?_toDigits (value : Nat) :
    ∃ values, (Nat.toDigits 16 value).mapM Doc.hexValue? = some values ∧
      values.foldl (fun value digit => value * 16 + digit) 0 = value := by
  induction value using Nat.strongRecOn with
  | ind value ih =>
    rw [Nat.toDigits_eq_if (by omega)]
    split
    · next small => exact ⟨[value], by simp [digitChar_hex value small], by simp⟩
    · next large =>
      obtain ⟨values, read, folded⟩ := ih (value / 16) (by omega)
      refine ⟨values ++ [value % 16], ?_, ?_⟩
      · simp [List.mapM_append, read, digitChar_hex (value % 16) (by omega)]
      · rw [List.foldl_append, folded]
        simp only [List.foldl_cons, List.foldl_nil]
        omega

theorem mapM_hexValue?_replicate (count : Nat) :
    (List.replicate count '0').mapM Doc.hexValue? = some (List.replicate count 0) := by
  induction count with
  | zero => rfl
  | succ count ih =>
    rw [List.replicate_succ, List.mapM_cons, ih]
    rfl

theorem foldl_replicate_zero (count : Nat) :
    (List.replicate count 0).foldl (fun value digit => value * 16 + digit) 0 = 0 := by
  induction count with
  | zero => rfl
  | succ count ih => simpa [List.replicate_succ] using ih

/-- A number that fits is written with as many digits as an escape has room for. -/
theorem length_hexDigits (positive : 0 < width) (fits : value < 16 ^ width) :
    (hexDigits width value).length = width := by
  have short : (Nat.toDigits 16 value).length ≤ width :=
    (Nat.length_toDigits_le_iff (by omega) positive).mpr fits
  simp [hexDigits]
  omega

/-- The digits of an escape are read as the number they were written for. -/
theorem readHex_hexDigits (positive : 0 < width) (fits : value < 16 ^ width) (rest : List Char) :
    readHex width (hexDigits width value ++ rest) = some (value, rest) := by
  have length := length_hexDigits positive fits
  obtain ⟨values, read, folded⟩ := mapM_hexValue?_toDigits value
  have all : (hexDigits width value).mapM Doc.hexValue? =
      some (List.replicate (width - (Nat.toDigits 16 value).length) 0 ++ values) := by
    simp [hexDigits, List.mapM_append, mapM_hexValue?_replicate, read]
  have taken : (hexDigits width value ++ rest).take width = hexDigits width value := by
    rw [List.take_append_of_le_length (by omega), List.take_of_length_le (by omega)]
  have dropped : (hexDigits width value ++ rest).drop width = rest := by
    rw [List.drop_append_of_le_length (by omega), List.drop_of_length_le (by omega),
      List.nil_append]
  simp [readHex, taken, dropped, length, all, List.foldl_append, foldl_replicate_zero, folded]

variable {digit character : Char}

theorem isSome_hexValue?_of_mem_hexDigits (member : digit ∈ hexDigits width value) :
    (Doc.hexValue? digit).isSome := by
  rcases List.mem_append.mp member with padding | digits
  · rw [List.eq_of_mem_replicate padding]
    decide
  · induction value using Nat.strongRecOn with
    | ind value ih =>
      rw [Nat.toDigits_eq_if (by omega)] at digits
      split at digits
      · next small =>
        rw [List.mem_singleton.mp digits, digitChar_hex value small]
        rfl
      · next large =>
        rcases List.mem_append.mp digits with earlier | last
        · exact ih (value / 16) (by omega) (by simp [hexDigits, earlier]) earlier
        · rw [List.mem_singleton.mp last, digitChar_hex _ (by omega)]
          rfl

/-- No digit of an escape ends the string around it. -/
theorem isPlain_of_mem_hexDigits (isQuote : IsQuote quote)
    (member : digit ∈ hexDigits width value) :
    IsPlain quote digit := by
  have isHex := isSome_hexValue?_of_mem_hexDigits member
  refine ⟨?_, ?_, ?_⟩ <;> rintro rfl
  · rcases isQuote with rfl | rfl <;> exact absurd isHex (by decide)
  · exact absurd isHex (by decide)
  · exact absurd isHex (by decide)

/-- A character is written as itself, or as a backslash, a mark and the digits that belong to the
mark. -/
theorem escapeQuoted_cases (quote character : Char) :
    (escapeQuoted quote character = [character] ∧ IsPlain quote character ∧ character ≠ '\r' ∧
        isPrintable character) ∨
      ∃ mark ∈ [quote, '\\', 'n', 'r', 't', 'x', 'u', 'U'], ∃ digits,
        escapeQuoted quote character = '\\' :: mark :: digits ∧
        (digits = [] ∨ ∃ width value, digits = hexDigits width value) := by
  unfold escapeQuoted
  split_ifs with special newline carriage tab printable byte short
  · simp only [Bool.or_eq_true, beq_iff_eq] at special
    rcases special with rfl | rfl
    · exact .inr ⟨_, by simp, _, rfl, .inl rfl⟩
    · exact .inr ⟨_, by simp, _, rfl, .inl rfl⟩
  · exact .inr ⟨_, by simp, _, rfl, .inl rfl⟩
  · exact .inr ⟨_, by simp, _, rfl, .inl rfl⟩
  · exact .inr ⟨_, by simp, _, rfl, .inl rfl⟩
  · simp only [Bool.or_eq_true, beq_iff_eq, not_or] at special newline carriage
    exact .inl ⟨rfl, ⟨special.1, special.2, newline⟩, carriage, printable⟩
  · exact .inr ⟨_, by simp, _, rfl, .inr ⟨_, _, rfl⟩⟩
  · exact .inr ⟨_, by simp, _, rfl, .inr ⟨_, _, rfl⟩⟩
  · exact .inr ⟨_, by simp, _, rfl, .inr ⟨_, _, rfl⟩⟩

/-- What a character is written as does not end the string around it. -/
theorem stringBody_escapeQuoted (isQuote : IsQuote quote) (character : Char)
    (gathered rest : List Char) :
    stringBody quote false gathered (escapeQuoted quote character ++ rest) =
      stringBody quote false ((escapeQuoted quote character).reverse ++ gathered) rest := by
  rcases escapeQuoted_cases quote character with
    ⟨plain, isPlain, -⟩ | ⟨mark, -, digits, escaped, hexadecimal⟩
  · rw [plain]
    exact stringBody_plain isPlain gathered rest
  · have plainDigits : ∀ digit ∈ digits, IsPlain quote digit := by
      rcases hexadecimal with rfl | ⟨width, value, rfl⟩
      · simp
      · exact fun digit => isPlain_of_mem_hexDigits isQuote
    rw [escaped]
    calc stringBody quote false gathered ('\\' :: mark :: digits ++ rest)
        = stringBody quote false (mark :: '\\' :: gathered) (digits ++ rest) := by
          rw [List.cons_append, List.cons_append, stringBody]
      _ = stringBody quote false (digits.reverse ++ mark :: '\\' :: gathered) rest :=
          stringBody_append_plain plainDigits _ _
      _ = _ := by simp

/-- The body of a quoted text ends at the closing quote. -/
theorem stringBody_quoted (isQuote : IsQuote quote) (characters gathered rest : List Char) :
    stringBody quote false gathered
        (characters.flatMap (escapeQuoted quote) ++ quote :: rest) =
      some (gathered.reverse ++ characters.flatMap (escapeQuoted quote), rest) := by
  induction characters generalizing gathered with
  | nil => simp [stringBody_quote isQuote]
  | cons first others ih =>
    rw [List.flatMap_cons, List.append_assoc, stringBody_escapeQuoted isQuote, ih]
    simp

theorem toNat_range (character : Char) :
    character.toNat < 0xd800 ∨ 0xdfff < character.toNat ∧ character.toNat < 0x110000 :=
  character.valid

theorem toNat_lt_hex (character : Char) : character.toNat < 16 ^ 8 := by
  have range := toNat_range character
  omega

theorem charOf?_toNat (character : Char) : charOf? character.toNat = some character := by
  have range := toNat_range character
  rw [charOf?, if_pos (by omega), if_neg (by omega), Char.ofNat_toNat]

theorem unescape_plain (notBackslash : character ≠ '\\') (gathered rest : List Char) (fuel : Nat) :
    unescape gathered (fuel + 1) (character :: rest) = unescape (character :: gathered) fuel
      rest := by
  simp [unescape]

/-- What a character is written as stands for that character. -/
theorem unescape_escapeQuoted (isQuote : IsQuote quote) (character : Char)
    (gathered rest : List Char) (fuel : Nat) :
    unescape gathered (fuel + 1) (escapeQuoted quote character ++ rest) =
      unescape (character :: gathered) fuel rest := by
  unfold escapeQuoted
  split_ifs with special newline carriage tab printable byte short
  · simp only [Bool.or_eq_true, beq_iff_eq] at special
    rcases special with rfl | rfl
    · rcases isQuote with rfl | rfl <;> rfl
    · rfl
  · rw [beq_iff_eq.mp newline]
    rfl
  · rw [beq_iff_eq.mp carriage]
    rfl
  · rw [beq_iff_eq.mp tab]
    rfl
  · simp only [Bool.or_eq_true, beq_iff_eq, not_or] at special
    exact unescape_plain special.2 gathered rest fuel
  · simp [unescape, @readHex_hexDigits 2 _ (by decide) byte]
  · simp [unescape, @readHex_hexDigits 4 _ (by decide) short, charOf?_toNat]
  · simp [unescape, @readHex_hexDigits 8 _ (by decide) (toNat_lt_hex character), charOf?_toNat]

theorem unescape_flatMap_escapeQuoted (isQuote : IsQuote quote) (characters gathered : List Char)
    {fuel : Nat} (enough : characters.length < fuel) :
    unescape gathered fuel (characters.flatMap (escapeQuoted quote)) =
      some (gathered.reverse ++ characters) := by
  induction characters generalizing gathered fuel with
  | nil =>
    obtain _ | fuel := fuel
    · omega
    simp [unescape]
  | cons first others ih =>
    simp only [List.length_cons] at enough
    obtain _ | fuel := fuel
    · omega
    rw [List.flatMap_cons, unescape_escapeQuoted isQuote, ih _ (by omega)]
    simp

theorem isQuote_quoteFor (characters : List Char) : IsQuote (quoteFor characters) := by
  unfold quoteFor IsQuote
  split <;> simp

/-- No character is written with a bare quote in front. -/
theorem head_escapeQuoted (isQuote : IsQuote quote) (character : Char) :
    ∃ first rest, escapeQuoted quote character = first :: rest ∧ first ≠ quote := by
  rcases escapeQuoted_cases quote character with
    ⟨plain, ⟨notQuote, -⟩, -⟩ | ⟨mark, -, digits, escaped, -⟩
  · exact ⟨character, [], plain, notQuote⟩
  · exact ⟨'\\', mark :: digits, escaped, by rcases isQuote with rfl | rfl <;> decide⟩

theorem length_le_flatMap_escapeQuoted (isQuote : IsQuote quote) (characters : List Char) :
    characters.length ≤ (characters.flatMap (escapeQuoted quote)).length := by
  induction characters with
  | nil => simp
  | cons first others ih =>
    obtain ⟨head, tail, escaped, -⟩ := head_escapeQuoted isQuote first
    rw [List.flatMap_cons, List.length_append, escaped, List.length_cons, List.length_cons]
    omega

/-- The body of a quoted text has the text as its value. -/
theorem bodyText_flatMap_escapeQuoted (isQuote : IsQuote quote) (value : String) :
    bodyText false (value.toList.flatMap (escapeQuoted quote)) = some value := by
  have enough := Nat.lt_succ_of_le (length_le_flatMap_escapeQuoted isQuote value.toList)
  rw [bodyText, if_neg (by decide), unescape_flatMap_escapeQuoted isQuote value.toList [] enough]
  simp

/-- Three quotes would open a long string. -/
theorem readBody_of_stringBody {inside body : List Char}
    (found : stringBody quote false [] inside = some (body, rest))
    (short : ∀ second third more, inside = second :: third :: more →
      (second == quote && third == quote) = false) :
    readBody (quote :: inside) = some (body, rest) := by
  unfold readBody
  split
  · next heads =>
    cases heads
    rw [short _ _ _ rfl]
    simpa using found
  · next heads =>
    cases heads
    simpa using found
  · next heads => cases heads

/-- A quoted text is read up to its closing quote, even if it is empty. -/
theorem readBody_quoted (isQuote : IsQuote quote) {dotted : Bool} (characters : List Char)
    (stops : Stops dotted rest) :
    readBody (quote :: (characters.flatMap (escapeQuoted quote) ++ quote :: rest)) =
      some (characters.flatMap (escapeQuoted quote), rest) := by
  have body := stringBody_quoted isQuote characters [] rest
  refine readBody_of_stringBody body fun second third more opened => ?_
  -- an empty body is followed by no third quote
  cases characters with
  | nil =>
    cases opened
    have noQuote := stops.not_quote
    rcases isQuote with rfl | rfl
    · simp [noQuote.1]
    · simp [noQuote.2]
  | cons first others =>
    obtain ⟨head, tail, escaped, notQuote⟩ := head_escapeQuoted isQuote first
    rw [List.flatMap_cons, escaped] at opened
    have same : head = second := (List.cons.inj opened).1
    simp [← same, notQuote]

/-- A quoted text is divided into one token whose value is the text. -/
theorem spells_quoted (value : String) : Spells true 0 (quoted value).toList [.text value] := by
  intro openers rest more _ stops divided
  have isQuote := isQuote_quoteFor value.toList
  have read := readBody_quoted isQuote value.toList stops
  have text := bodyText_flatMap_escapeQuoted isQuote value
  have written : (quoted value).toList ++ rest = quoteFor value.toList ::
      (value.toList.flatMap (escapeQuoted (quoteFor value.toList)) ++
        quoteFor value.toList :: rest) := by
    simp [quoted]
  rw [written]
  exact divides_text isQuote read text (by simp; omega) divided

/-- Quoting leaves no character that is dropped or refused before a text is divided. -/
theorem mem_quoted {value : String} (member : character ∈ (quoted value).toList) :
    character ≠ '\r' ∧ character ≠ Char.ofNat 0 := by
  have isQuote := isQuote_quoteFor value.toList
  have quoteClean : quoteFor value.toList ≠ '\r' ∧ quoteFor value.toList ≠ Char.ofNat 0 := by
    rcases isQuote with same | same <;> rw [same] <;> decide
  simp only [quoted, String.toList_ofList, List.mem_append, List.mem_cons, List.mem_flatMap,
    List.not_mem_nil, or_false] at member
  rcases member with (rfl | ⟨original, -, inside⟩) | rfl
  · exact quoteClean
  · rcases escapeQuoted_cases (quoteFor value.toList) original with
      ⟨plain, -, notReturn, printable⟩ | ⟨mark, isMark, digits, escaped, hexadecimal⟩
    · rw [plain, List.mem_singleton] at inside
      subst inside
      exact ⟨notReturn, by rintro rfl; exact absurd printable (by decide)⟩
    · rw [escaped, List.mem_cons, List.mem_cons] at inside
      rcases inside with rfl | rfl | isDigit
      · decide
      · rcases List.mem_cons.mp isMark with rfl | other
        · exact quoteClean
        · have letters : ∀ mark ∈ ['\\', 'n', 'r', 't', 'x', 'u', 'U'],
              mark ≠ '\r' ∧ mark ≠ Char.ofNat 0 := Lexer.forall_mem_of_all (by decide)
          exact letters _ other
      · rcases hexadecimal with rfl | ⟨width, number, rfl⟩
        · cases isDigit
        · have isHex := isSome_hexValue?_of_mem_hexDigits isDigit
          constructor <;> (rintro rfl; exact absurd isHex (by decide))
  · exact quoteClean

end Text

/-! ## Whole numbers -/

namespace Literal

/-- Digits are read up to anything that may follow a number. -/
theorem digitGroups_append {digits : List Char} (all : ∀ digit ∈ digits, digit.isDigit)
    (stops : Stops false rest) (gathered : List Char) :
    digitGroups Char.isDigit gathered (digits ++ rest) =
      some (gathered.reverse ++ digits, rest) := by
  induction digits generalizing gathered with
  | nil =>
    cases rest with
    | nil => simp [digitGroups]
    | cons next rest =>
      rcases stops with rfl | rfl | rfl | rfl | rfl | ⟨⟨⟩, -⟩ <;> simp [digitGroups]
  | cons first others ih =>
    have isDigit : first.isDigit := all first (by simp)
    have notUnderscore : first ≠ '_' := by rintro rfl; simp at isDigit
    have later := ih (fun digit member => all digit (by simp [member])) (first :: gathered)
    rw [List.cons_append, digitGroups]
    · simp [isDigit, later]
    · exact fun _ _ underscore => absurd underscore notUnderscore
    · exact fun underscore => absurd underscore notUnderscore

theorem digitsValue_toDigits (value : Nat) : Doc.digitsValue (Nat.toDigits 10 value) = value := by
  have value_eq : Nat.ofDigitChars 10 (Nat.toDigits 10 value) 0 = value :=
    Nat.ofDigitChars_ten_toDigits
  simpa [Doc.digitsValue, Nat.ofDigitChars, Nat.mul_comm] using value_eq

/-- Only zero is written with a zero in front. -/
theorem eq_zero_of_head?_toDigits (leading : (Nat.toDigits 10 value).head? = some '0') :
    value = 0 := by
  induction value using Nat.strongRecOn with
  | ind value ih =>
    rw [Nat.toDigits_eq_if (by omega)] at leading
    split at leading
    · next small =>
      have digits : ∀ digit < 10, Nat.digitChar digit = '0' → digit = 0 := by decide
      exact digits value small (by simpa using leading)
    · next large =>
      cases digits : Nat.toDigits 10 (value / 10) with
      | nil => exact absurd digits Nat.toDigits_ne_nil
      | cons first others =>
        rw [digits] at leading
        have := ih (value / 10) (by omega) (by simpa [digits] using leading)
        omega

/-- A number of few enough digits is whole: neither a fraction nor an exponent follows. -/
theorem readDecimal_toDigits (short : (Nat.toDigits 10 value).length ≤ Number.maxDigits)
    (stops : Stops false rest) :
    readDecimal (Nat.toDigits 10 value) rest = some (.int value, rest) := by
  have unpadded : ((Nat.toDigits 10 value).head? == some '0' &&
      (Nat.toDigits 10 value).any (· != '0')) = false := by
    by_contra padded
    simp only [Bool.not_eq_false, Bool.and_eq_true, beq_iff_eq] at padded
    obtain rfl := eq_zero_of_head?_toDigits padded.1
    exact absurd padded.2 (by decide)
  have fits : ¬ Number.maxDigits < (Nat.toDigits 10 value).length := by omega
  cases rest with
  | nil => simp [readDecimal, readFraction, readExponent, endsNumber, unpadded, fits,
      digitsValue_toDigits]
  | cons next rest =>
    have ends : endsNumber (next :: rest) = true := by
      simp [endsNumber, stops.isWordChar_eq_false]
    -- neither a fraction nor an exponent nor an imaginary part follows
    have unmarked : next ≠ '.' ∧ next ≠ 'e' ∧ next ≠ 'E' ∧ next ≠ 'j' ∧ next ≠ 'J' := by
      rcases stops with rfl | rfl | rfl | rfl | rfl | ⟨⟨⟩, -⟩ <;> decide
    simp [readDecimal, readFraction, readExponent, ends, unmarked, unpadded, fits,
      digitsValue_toDigits]

/-- The digits of a number are read in base ten. -/
theorem readNumber_toDigits (short : (Nat.toDigits 10 value).length ≤ Number.maxDigits)
    (stops : Stops false rest) :
    readNumber (Nat.toDigits 10 value ++ rest) = some (.int value, rest) := by
  have all : ∀ digit ∈ Nat.toDigits 10 value, digit.isDigit := fun digit member =>
    Nat.isDigit_of_mem_toDigits (by omega) (by omega) member
  have groups := digitGroups_append all stops []
  have decimal := readDecimal_toDigits short stops
  rw [List.reverse_nil, List.nil_append] at groups
  unfold readNumber
  split
  · next mark others heads =>
    -- a digit or what follows the number comes second, and no base has such a mark
    have unmarked : mark.isDigit ∨ isWordChar mark = false := by
      cases digits : Nat.toDigits 10 value with
      | nil => exact absurd digits Nat.toDigits_ne_nil
      | cons first more =>
        rw [digits] at heads all
        cases more with
        | nil =>
          obtain ⟨-, rfl⟩ := List.cons.inj heads
          exact .inr stops.isWordChar_eq_false
        | cons second more =>
          have same : second = mark := (List.cons.inj (List.cons.inj heads).2).1
          exact .inl (all mark (by simp [same]))
    have other : ∀ letter : Char, letter.isDigit = false → isWordChar letter = true →
        (mark == letter) = false := by
      intro letter notDigit isLetter
      rw [beq_eq_false_iff_ne]
      rintro rfl
      simp [notDigit, isLetter] at unmarked
    have noBase : (mark == 'x' || mark == 'X') = false ∧ (mark == 'o' || mark == 'O') = false ∧
        (mark == 'b' || mark == 'B') = false := by
      simp [other 'x', other 'X', other 'o', other 'O', other 'b', other 'B', isWordChar]
    simp only [noBase, Bool.false_eq_true, if_false]
    simp [groups, decimal]
  · simp [groups, decimal]

end Literal

namespace Number

theorem exists_toDigits (value : Nat) :
    ∃ first others, Nat.toDigits 10 value = first :: others ∧ first.isDigit := by
  cases digits : Nat.toDigits 10 value with
  | nil => exact absurd digits Nat.toDigits_ne_nil
  | cons first others =>
    exact ⟨first, others, rfl,
      Nat.isDigit_of_mem_toDigits (by omega) (by omega) (digits ▸ List.mem_cons_self)⟩

theorem spells_toDigits (short : (Nat.toDigits 10 value).length ≤ maxDigits) :
    Spells false 0 (Nat.toDigits 10 value) [.number (.int value)] := by
  intro openers rest more _ stops divided
  have read := Literal.readNumber_toDigits short stops
  obtain ⟨first, others, digits, isDigit⟩ := exists_toDigits value
  rw [digits] at read ⊢
  exact divides_number isDigit read (by simp) divided

theorem spells_minus_toDigits (short : (Nat.toDigits 10 value).length ≤ maxDigits) :
    Spells false 0 ('-' :: Nat.toDigits 10 value) [.mark "-", .number (.int value)] := by
  intro openers rest more room stops divided
  have divides := spells_toDigits short openers rest more room stops divided
  obtain ⟨first, others, digits, isDigit⟩ := exists_toDigits value
  rw [digits] at divides ⊢
  exact lexes_sign isDigit divides

theorem toList_literal_int (value : Int) :
    (int value).literal.toList =
      if value < 0 then '-' :: Nat.toDigits 10 value.natAbs else Nat.toDigits 10 value.natAbs := by
  rw [literal, Decimal.intText, Decimal.natText]
  split <;> simp

/-- A whole number is written with a sign exactly if it is negative. -/
theorem isSigned_int (value : Int) : (int value).isSigned = decide (value < 0) := by
  unfold isSigned
  rw [toList_literal_int]
  by_cases negative : value < 0
  · simp [negative]
  · obtain ⟨first, others, digits, isDigit⟩ := exists_toDigits value.natAbs
    have notMinus : first ≠ '-' := by rintro rfl; simp at isDigit
    simp [negative, digits, notMinus]

/-- A whole number is divided into its magnitude, with a sign before it if it is negative. -/
theorem spells_int {value : Int} (written : (int value).hasLiteral) :
    Spells false 0 (int value).literal.toList (int value).tokens := by
  have short : (Nat.toDigits 10 value.natAbs).length ≤ maxDigits := by
    simpa [hasLiteral] using written
  unfold tokens
  rw [isSigned_int, toList_literal_int]
  by_cases negative : value < 0
  · have magnitude : (int value).negate = int value.natAbs := by
      simp only [negate, int.injEq]
      omega
    simpa [negative, magnitude] using spells_minus_toDigits short
  · have magnitude : int value = int value.natAbs := by
      simp only [int.injEq]
      omega
    rw [if_neg negative, decide_eq_false negative, if_neg (by decide), magnitude]
    exact spells_toDigits short

end Number

/-! ## Names -/

/-- Whether a name consists of ASCII letters, digits and underscores and begins with no digit. -/
def Text.isAsciiIdentifier (name : String) : Bool :=
  match name.toList with
  | first :: others =>
    (first.isAlpha || first == '_') &&
      others.all fun character => character.isAlphanum || character == '_'
  | [] => false

namespace Text

variable {character : Char} {name : String}

theorem toNat_lt_of_isAlphanum (letter : character.isAlphanum) :
    character.toNat < 0x80 := by
  rw [Char.isAlphanum, Bool.or_eq_true, isAlpha_iff_toNat, isDigit_iff_toNat] at letter
  omega

/-- An ASCII identifier has nothing but letters, digits and underscores. -/
theorem isAlphanum_of_isAsciiIdentifier (identifier : isAsciiIdentifier name)
    (member : character ∈ name.toList) :
    character.isAlphanum ∨ character = '_' := by
  unfold isAsciiIdentifier at identifier
  split at identifier
  · next first others characters =>
    rw [characters] at member
    simp only [Bool.and_eq_true, Bool.or_eq_true, beq_iff_eq, List.all_eq_true] at identifier
    rcases List.mem_cons.mp member with rfl | later
    · exact identifier.1.imp_left fun letter => by simp [Char.isAlphanum, letter]
    · exact identifier.2 character later
  · cases identifier

theorem isWordChar_of_isAsciiIdentifier (identifier : isAsciiIdentifier name) :
    ∀ character ∈ name.toList, Literal.isWordChar character := by
  intro character member
  rcases isAlphanum_of_isAsciiIdentifier identifier member with letter | rfl
  · simp [Literal.isWordChar, letter]
  · decide

/-- An ASCII identifier is its own normal form. -/
theorem normalize_of_isAsciiIdentifier (identifier : isAsciiIdentifier name) :
    normalize name = name := by
  have ascii : name.toList.all fun character => character.toNat < 0x80 := by
    rw [List.all_eq_true]
    intro character member
    rcases isAlphanum_of_isAsciiIdentifier identifier member with letter | rfl
    · simpa using toNat_lt_of_isAlphanum letter
    · decide
  rw [normalize, if_pos ascii]

theorem isIdentifierPart_of_isAlphanum (letter : character.isAlphanum ∨ character = '_') :
    isIdentifierPart character := by
  rcases letter with letter | rfl
  · rw [isIdentifierPart, if_pos (toNat_lt_of_isAlphanum letter), letter, Bool.true_or]
  · decide

theorem isIdentifierStart_of_isAlpha (letter : character.isAlpha ∨ character = '_') :
    isIdentifierStart character := by
  rcases letter with letter | rfl
  · have isAlphanum : character.isAlphanum := by simp [Char.isAlphanum, letter]
    rw [isIdentifierStart, if_pos (toNat_lt_of_isAlphanum isAlphanum), letter, Bool.true_or]
  · decide

/-- An ASCII identifier that is no reserved word is read as a name. -/
theorem wordToken?_of_isAsciiIdentifier (identifier : isAsciiIdentifier name)
    (free : name ∉ reservedWords) :
    wordToken? name.toList = some (.word name) := by
  have unreserved : reservedWords.contains name = false := by simpa using free
  have normal := normalize_of_isAsciiIdentifier identifier
  unfold wordToken?
  rw [String.ofList_toList, unreserved, if_neg (by decide), normal]
  unfold isAsciiIdentifier at identifier
  cases characters : name.toList with
  | nil => simp [characters] at identifier
  | cons first others =>
    simp only [characters, Bool.and_eq_true, Bool.or_eq_true, beq_iff_eq, List.all_eq_true]
      at identifier
    have starts := isIdentifierStart_of_isAlpha identifier.1
    have goesOn : others.all isIdentifierPart := List.all_eq_true.mpr fun character member =>
      isIdentifierPart_of_isAlphanum (identifier.2 character member)
    simp [starts, goesOn]

end Text

end ApiDescription
