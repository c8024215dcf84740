import ApiDescription.Client.Names
import ApiDescription.Proofs.Outcome
import Mathlib

/-!
# Names of generated code

A name is made of letters, digits and underscores, and nothing in it ends a word of code: dropping
characters cannot bring in new ones, and neither case of a character is a mark of punctuation.  A
class starts with no small letter of ASCII.  The first free name is one that is not taken, and the
first such in the order of its numbers.
-/

namespace ApiDescription

open Text List Decimal

/-! ## Letter case -/

namespace Text

/-- A code point beyond ASCII or a letter of the given kind. -/
def isLetterPoint (letter : Nat → Bool) (point : Nat) : Bool :=
  (decide (0x80 ≤ point) || letter point) && decide point.isValidChar

/-- All code points that a run leads to are beyond ASCII or letters of the given kind. -/
def CaseRun.isSafe (letter : Nat → Bool) : CaseRun → Bool
  | (first, last, _, shift) =>
    let low := ((first : Int) + shift).toNat
    let high := ((last : Int) + shift).toNat
    (first == last && isLetterPoint letter low) ||
      (decide (0x80 ≤ low) && (decide (high < 0xd800) ||
        (decide (0xdfff < low) && decide (high < 0x110000))))

def isCapital (point : Nat) : Bool :=
  decide (0x41 ≤ point) && decide (point ≤ 0x5a)

def isSmall (point : Nat) : Bool :=
  decide (0x61 ≤ point) && decide (point ≤ 0x7a)

theorem isCapital_toNat (character : Char) : isCapital character.toNat = character.isUpper := by
  simp [isCapital, Char.isUpper, UInt32.le_iff_toNat_le]

theorem isSmall_toNat (character : Char) : isSmall character.toNat = character.isLower := by
  simp [isSmall, Char.isLower, UInt32.le_iff_toNat_le]

theorem upper_safe :
    upperExpansions.all (fun entry => !entry.2.isEmpty && entry.2.all (isLetterPoint isCapital)) =
      true ∧
    upperRuns.all (CaseRun.isSafe isCapital) = true := by
  decide +kernel

theorem lower_safe :
    lowerExpansions.all (fun entry => !entry.2.isEmpty && entry.2.all (isLetterPoint isSmall)) =
      true ∧
    lowerRuns.all (CaseRun.isSafe isSmall) = true := by
  decide +kernel

variable {letter : Nat → Bool} {point : Nat}

theorem toNat_ofNat_of_isLetterPoint (valid : isLetterPoint letter point = true) :
    (Char.ofNat point).toNat = point := by
  simp only [isLetterPoint, Bool.and_eq_true, decide_eq_true_eq] at valid
  rw [Char.toNat_ofNat, if_pos valid.2]

theorem CaseRun.isLetterPoint_of_isSafe {first last step : Nat} {shift : Int}
    (safe : CaseRun.isSafe letter (first, last, step, shift) = true) (low : first ≤ point)
    (high : point ≤ last) :
    isLetterPoint letter ((point : Int) + shift).toNat = true := by
  simp only [CaseRun.isSafe, Bool.or_eq_true, Bool.and_eq_true, beq_iff_eq,
    decide_eq_true_eq] at safe
  rcases safe with ⟨single, isLetter⟩ | ⟨beyond, below | ⟨above, below⟩⟩
  · have equal : point = first := by omega
    rw [equal]
    exact isLetter
  · simp only [isLetterPoint, Nat.isValidChar, Bool.and_eq_true, Bool.or_eq_true, decide_eq_true_eq]
    omega
  · simp only [isLetterPoint, Nat.isValidChar, Bool.and_eq_true, Bool.or_eq_true, decide_eq_true_eq]
    omega

/-- The image of a character beyond ASCII under safe tables is not empty, and all of it is beyond
ASCII or a letter of the given kind. -/
theorem mapCase_safe {expansions : List (Nat × List Nat)} {runs : List CaseRun}
    (safeExpansions : expansions.all
      (fun entry => !entry.2.isEmpty && entry.2.all (isLetterPoint letter)) =
      true) (safeRuns : runs.all (CaseRun.isSafe letter) = true) {character : Char}
    (beyond : 0x80 ≤ character.toNat) :
    mapCase expansions runs character ≠ [] ∧ ∀ image ∈ mapCase expansions runs character,
        (0x80 ≤ image.toNat ∨ letter image.toNat = true) := by
  have isLetter : ∀ point, isLetterPoint letter point = true →
      (0x80 ≤ (Char.ofNat point).toNat ∨ letter (Char.ofNat point).toNat = true) := by
    intro point valid
    rw [toNat_ofNat_of_isLetterPoint valid]
    simp only [isLetterPoint, Bool.and_eq_true, Bool.or_eq_true, decide_eq_true_eq] at valid
    exact valid.1
  unfold mapCase
  split
  · next points found =>
    obtain ⟨before, after, equal, -⟩ := lookup_eq_some_iff.mp found
    have entry : (character.toNat, points) ∈ expansions := by simp [equal]
    have safe := all_eq_true.mp safeExpansions _ entry
    simp only [Bool.and_eq_true, Bool.not_eq_true', isEmpty_eq_false_iff, all_eq_true]
      at safe
    constructor
    · simpa using safe.1
    · intro image member
      obtain ⟨point, inPoints, rfl⟩ := mem_map.mp member
      exact isLetter point (safe.2 point inPoints)
  · split
    · next point shifted =>
      obtain ⟨⟨first, last, step, shift⟩, found, rfl⟩ := Option.map_eq_some_iff.mp shifted
      have covers := find?_some found
      simp only [Bool.and_eq_true, decide_eq_true_eq] at covers
      have safe := all_eq_true.mp safeRuns _ (mem_of_find?_eq_some found)
      constructor
      · simp
      · intro image member
        rw [mem_singleton.mp member]
        exact isLetter _ (CaseRun.isLetterPoint_of_isSafe safe covers.1.1 covers.1.2)
    · constructor
      · simp
      · intro image member
        rw [mem_singleton.mp member]
        exact .inl beyond

end Text

namespace Client

variable {character : Char} {left stem : String} {name : Doc}

/-! ## Words -/

/-- Whether a character may stand in a word of code: no mark of ASCII but the underscore. -/
def isWordChar (character : Char) : Bool :=
  character.isAlphanum || character == '_' || decide (0x80 ≤ character.toNat)

def IsWord (text : String) : Prop :=
  ∀ character ∈ text.toList, isWordChar character = true

theorem isWordChar_of_beyond (beyond : 0x80 ≤ character.toNat) :
    isWordChar character = true := by
  simp [isWordChar, beyond]

theorem isWordChar_of_isNameChar (isName : isNameChar character = true) :
    isWordChar character = true := by
  by_cases ascii : character.toNat < 0x80
  · simp only [isNameChar, isAlphanumeric, if_pos ascii, Bool.or_eq_true] at isName
    rcases isName with alphanumeric | underscore
    · simp [isWordChar, alphanumeric]
    · simp [isWordChar, underscore]
  · exact isWordChar_of_beyond (Nat.le_of_not_lt ascii)

theorem isWordChar_of_isAlpha (isLetter : character.isAlpha = true) :
    isWordChar character = true := by
  simp [isWordChar, Char.isAlphanum, isLetter]

variable {right base : String} {texts taken : List String}

theorem isWord_append : IsWord (left ++ right) ↔ IsWord left ∧ IsWord right := by
  simp [IsWord, or_imp, forall_and]

theorem upperChar_safe (character : Char) :
    upperChar character ≠ [] ∧ ∀ image ∈ upperChar character,
      (isWordChar character = true → isWordChar image = true) ∧ image.isLower = false := by
  unfold upperChar
  split
  · refine ⟨by simp, fun image member => ?_⟩
    rw [mem_singleton.mp member]
    refine ⟨fun isWord => ?_, Char.isLower_toUpper_eq_false character⟩
    by_cases small : character.isLower = true
    · apply isWordChar_of_isAlpha
      simp [Char.isAlpha, small]
    · rw [Char.toUpper_eq_of_not_isLower small]
      exact isWord
  · next beyond =>
    obtain ⟨nonempty, safe⟩ := mapCase_safe upper_safe.1 upper_safe.2
      (Nat.le_of_not_lt beyond)
    refine ⟨nonempty, fun image member => ?_⟩
    rcases safe image member with beyond | capital
    · refine ⟨fun _ => isWordChar_of_beyond beyond, ?_⟩
      rw [← isSmall_toNat, isSmall]
      simp
      omega
    · rw [isCapital_toNat] at capital
      refine ⟨fun _ => isWordChar_of_isAlpha (by simp [Char.isAlpha, capital]), ?_⟩
      simpa using Char.not_isLower_of_isUpper capital

theorem lowerChar_safe (isWord : isWordChar character = true) {image : Char}
    (member : image ∈ lowerChar character) : isWordChar image = true := by
  unfold lowerChar at member
  split at member
  · rw [mem_singleton.mp member]
    by_cases capital : character.isUpper = true
    · apply isWordChar_of_isAlpha
      simp [Char.isAlpha, capital]
    · rw [Char.toLower_eq_of_not_isUpper capital]
      exact isWord
  · next beyond =>
    obtain ⟨-, safe⟩ := mapCase_safe lower_safe.1 lower_safe.2 (Nat.le_of_not_lt beyond)
    rcases safe image member with beyond | small
    · exact isWordChar_of_beyond beyond
    · rw [isSmall_toNat] at small
      exact isWordChar_of_isAlpha (by simp [Char.isAlpha, small])

/-! ## Names made from texts -/

def IsName (text : String) : Prop :=
  ∀ character ∈ text.toList, isNameChar character = true

theorem IsName.isWord {text : String} (isName : IsName text) : IsWord text :=
  fun character member => isWordChar_of_isNameChar (isName character member)

theorem isName_append : IsName (left ++ right) ↔ IsName left ∧ IsName right := by
  simp [IsName, or_imp, forall_and]

theorem isName_of_isNamePiece {piece : String} (isPiece : isNamePiece piece = true) :
    IsName piece := by
  simp only [isNamePiece, Bool.or_eq_true, Bool.and_eq_true, beq_iff_eq, String.all_bool_eq,
    all_eq_true] at isPiece
  rcases isPiece with ⟨-, alphanumeric⟩ | rfl
  · intro character member
    simp [isNameChar, alphanumeric character member]
  · simp [IsName, isNameChar]

theorem mem_join {separator : String} (member : character ∈ (join separator texts).toList) :
    character ∈ separator.toList ∨ ∃ text ∈ texts, character ∈ text.toList := by
  induction texts with
  | nil => simp [join] at member
  | cons first rest ih =>
    cases rest with
    | nil => exact .inr ⟨first, by simp, by simpa [join] using member⟩
    | cons second others =>
      have join : join separator (first :: second :: others) =
          first ++ separator ++ join separator (second :: others) := by
        simp [join, String.intercalate_cons_cons]
      rw [join, String.toList_append, String.toList_append, mem_append, mem_append] at member
      rcases member with (inFirst | inSeparator) | inRest
      · exact .inr ⟨first, by simp, inFirst⟩
      · exact .inl inSeparator
      · refine (ih inRest).imp_right ?_
        rintro ⟨text, isText, inText⟩
        exact ⟨text, mem_cons_of_mem _ isText, inText⟩

theorem isName_join (each : ∀ text ∈ texts, IsName text) : IsName (join "" texts) := by
  intro character member
  rcases mem_join member with inSeparator | ⟨text, isText, inText⟩
  · simp at inSeparator
  · exact each text isText character inText

theorem isName_of_cleaned (found : cleaned name = .ok left) :
    IsName left := by
  cases name with
  | text value =>
    cases found
    intro character member
    simp at member
    exact member.2
  | list items =>
    obtain ⟨pieces, -, equal⟩ := Outcome.bind_eq_ok.mp found
    cases equal
    apply isName_join
    intro piece member
    exact isName_of_isNamePiece (mem_filter.mp member).2
  | object fields =>
    cases found
    apply isName_join
    intro piece member
    exact isName_of_isNamePiece (mem_filter.mp member).2
  | null | bool | int | float => cases found

theorem NameStyle.exists_of_stem {style : NameStyle}
    (nameless : IsName style.nameless ∧ style.nameless ≠ "")
    (beforeDigit : IsName style.beforeDigit) (found : style.stem name = .ok stem) :
    ∃ base, IsName base ∧ base ≠ "" ∧ stem = style.start base := by
  obtain ⟨left, isCleaned, equal⟩ := Outcome.bind_eq_ok.mp found
  have isName := isName_of_cleaned isCleaned
  cases equal
  unfold NameStyle.ofCleaned
  split
  · exact ⟨_, nameless.1, nameless.2, rfl⟩
  · next first rest characters =>
    have nonempty : left ≠ "" := by
      rintro rfl
      simp at characters
    split
    · refine ⟨_, isName_append.mpr ⟨beforeDigit, isName⟩, ?_, rfl⟩
      simp [nonempty]
    · exact ⟨_, isName, nonempty, rfl⟩

theorem isName_of_function_stem (found : NameStyle.function.stem name = .ok stem) :
    IsName stem := by
  obtain ⟨base, isName, -, rfl⟩ :=
    NameStyle.exists_of_stem (by simp [NameStyle.function, IsName, isNameChar, isAlphanumeric])
      (by simp [NameStyle.function, IsName, isNameChar, isAlphanumeric]) found
  exact isName

theorem isWord_of_first {first : Char} {image rest : List Char} (isName : IsName base)
    (characters : base.toList = first :: rest)
    (safe : isWordChar first → ∀ character ∈ image, isWordChar character) :
    IsWord (String.ofList (image ++ rest)) := by
  have isWord : IsWord base := isName.isWord
  rw [IsWord, characters, forall_mem_cons] at isWord
  rw [IsWord, String.toList_ofList, forall_mem_append]
  exact ⟨safe isWord.1, isWord.2⟩

theorem isWord_upperFirst (isName : IsName base) : IsWord (upperFirst base) := by
  unfold upperFirst
  split
  · simp [IsWord]
  · next first rest characters =>
    exact isWord_of_first isName characters fun isWord image member =>
      ((upperChar_safe first).2 image member).1 isWord

theorem isWord_lowerFirst (isName : IsName base) : IsWord (lowerFirst base) := by
  unfold lowerFirst
  split
  · simp [IsWord]
  · next first rest characters =>
    exact isWord_of_first isName characters fun isWord image => lowerChar_safe isWord

theorem isWord_of_argument_stem (found : NameStyle.argument.stem name = .ok stem) :
    IsWord stem := by
  obtain ⟨base, isName, -, rfl⟩ :=
    NameStyle.exists_of_stem (by simp [NameStyle.argument, IsName, isNameChar, isAlphanumeric])
      (by simp [NameStyle.argument, IsName, isNameChar, isAlphanumeric]) found
  exact isWord_lowerFirst isName

/-- A word that does not start with a small letter of ASCII. -/
def IsClassName (name : String) : Prop :=
  IsWord name ∧ ∃ first rest, name.toList = first :: rest ∧ first.isLower = false

theorem isClassName_of_type_stem (found : NameStyle.type.stem name = .ok stem) :
    IsClassName stem := by
  obtain ⟨base, isName, nonempty, rfl⟩ :=
    NameStyle.exists_of_stem (by simp [NameStyle.type, IsName, isNameChar, isAlphanumeric])
      (by simp [NameStyle.type, IsName, isNameChar, isAlphanumeric]) found
  refine ⟨isWord_upperFirst isName, ?_⟩
  change ∃ first rest, (upperFirst base).toList = first :: rest ∧ first.isLower = false
  unfold upperFirst
  split
  · next empty => exact absurd (String.toList_inj.mp (empty.trans (by simp))) nonempty
  · next first rest characters =>
    obtain ⟨notEmpty, safe⟩ := upperChar_safe first
    cases image : upperChar first with
    | nil => exact absurd image notEmpty
    | cons head others =>
      exact ⟨head, others ++ rest, by simp, (safe head (by simp [image])).2⟩

theorem isName_of_mediaName {contentType media : String}
    (found : mediaName contentType = .ok media) :
    IsName media := by
  unfold mediaName at found
  split at found
  · next known =>
    cases found
    obtain ⟨before, after, equal, -⟩ := lookup_eq_some_iff.mp known
    have entry : (contentType, media) ∈ contentTypes := by simp [equal]
    simp only [contentTypes, mem_cons, Prod.mk.injEq, not_mem_nil, or_false] at entry
    rcases entry with ⟨-, rfl⟩ | ⟨-, rfl⟩ | ⟨-, rfl⟩ <;>
      simp [IsName, isNameChar, isAlphanumeric]
  · split at found
    · cases found
      intro character member
      simp at member
      exact member.2
    · cases found

/-! ## Free names -/

theorem isName_natText (number : Nat) : IsName (natText number) := by
  intro character member
  rw [natText, String.toList_ofList] at member
  have isDigit := Nat.isDigit_of_mem_toDigits (by decide) (by decide) member
  have ascii : character.toNat < 0x80 := by
    simp only [Char.isDigit, Bool.and_eq_true, decide_eq_true_eq, ge_iff_le,
      UInt32.le_iff_toNat_le, Char.toNat_val] at isDigit
    exact Nat.lt_of_le_of_lt isDigit.2 (by decide)
  simp [isNameChar, isAlphanumeric, if_pos ascii, Char.isAlphanum, isDigit]

theorem natText_injective : Function.Injective natText := by
  intro left right equal
  have digits : Nat.toDigits 10 left = Nat.toDigits 10 right := String.ofList_inj.mp equal
  have value : Nat.ofDigitChars 10 (Nat.toDigits 10 left) 0 =
      Nat.ofDigitChars 10 (Nat.toDigits 10 right) 0 := by rw [digits]
  simpa [Nat.ofDigitChars_ten_toDigits] using value

theorem natText_ne_empty (number : Nat) : natText number ≠ "" := by
  intro empty
  have characters := congrArg String.toList empty
  simp [natText, Nat.toDigits_ne_nil] at characters

/-- A stem with a number behind it; number zero is not written. -/
def numbered (stem : String) : Nat → String
  | 0 => stem
  | number => stem ++ natText number

theorem numbered_succ (stem : String) (number : Nat) :
    numbered stem (number + 1) = stem ++ natText (number + 1) := rfl

theorem exists_numbered_eq (stem : String) (number : Nat) :
    ∃ digits, IsName digits ∧ numbered stem number = stem ++ digits := by
  cases number with
  | zero => exact ⟨"", by simp [IsName], by simp [numbered]⟩
  | succ number => exact ⟨_, isName_natText (number + 1), rfl⟩

theorem numbered_injective (stem : String) : Function.Injective (numbered stem) := by
  have ne_succ : ∀ number, numbered stem 0 ≠ numbered stem (number + 1) := by
    intro number equal
    rw [numbered_succ] at equal
    have characters := congrArg String.length equal
    have nonempty : (natText (number + 1)).length ≠ 0 := by
      simpa using natText_ne_empty (number + 1)
    simp only [numbered, String.length_append] at characters
    omega
  intro left right equal
  cases left with
  | zero =>
    cases right with
    | zero => rfl
    | succ right => exact absurd equal (ne_succ right)
  | succ left =>
    cases right with
    | zero => exact absurd equal.symm (ne_succ left)
    | succ right =>
      rw [numbered_succ, numbered_succ] at equal
      exact natText_injective (String.append_right_inj stem |>.mp equal)

theorem nextName_numbered (stem : String) (number : Nat) :
    nextName (numbered stem number) number = numbered stem (number + 1) := by
  cases number with
  | zero => simp [nextName, numbered, ← String.length_toList]
  | succ number => simp [nextName, numbered_succ, ← String.length_toList]

theorem exists_firstFreeFrom_eq (taken : List String) (stem : String) (fuel number : Nat) :
    ∃ found, number ≤ found ∧
      firstFreeFrom taken fuel number (numbered stem number) = numbered stem found ∧
      (∀ earlier, number ≤ earlier → earlier < found → numbered stem earlier ∈ taken) ∧
      (numbered stem found ∉ taken ∨ found = number + fuel) := by
  induction fuel generalizing number with
  | zero => exact ⟨number, Nat.le_refl _, rfl, by omega, .inr rfl⟩
  | succ fuel ih =>
    by_cases isTaken : numbered stem number ∈ taken
    · obtain ⟨found, later, equal, before, stopped⟩ := ih (number + 1)
      refine ⟨found, by omega, ?_, fun earlier low high => ?_, ?_⟩
      · simpa [firstFreeFrom, isTaken, nextName_numbered] using equal
      · by_cases first : earlier = number
        · rw [first]
          exact isTaken
        · exact before earlier (by omega) high
      · rcases stopped with free | last
        · exact .inl free
        · exact .inr (by omega)
    · exact ⟨number, Nat.le_refl _, by simp [firstFreeFrom, isTaken], by omega, .inl isTaken⟩

theorem exists_firstFree_eq (taken : List String) (stem : String) :
    ∃ found, firstFree taken stem = numbered stem found ∧ numbered stem found ∉ taken ∧
      ∀ earlier < found, numbered stem earlier ∈ taken := by
  obtain ⟨found, -, equal, before, stopped⟩ :=
    exists_firstFreeFrom_eq taken stem taken.length 0
  refine ⟨found, equal, ?_, fun earlier => before earlier (Nat.zero_le _)⟩
  rcases stopped with free | last
  · exact free
  · -- more different names than there are taken ones
    intro isTaken
    have distinct : ((range (found + 1)).map (numbered stem)).Nodup :=
      nodup_range.map (numbered_injective stem)
    have all : (range (found + 1)).map (numbered stem) ⊆ taken := by
      intro name member
      obtain ⟨number, inRange, rfl⟩ := mem_map.mp member
      rcases Nat.lt_or_ge number found with low | high
      · exact before number (Nat.zero_le _) low
      · have equal : number = found := by
          have bound := mem_range.mp inRange
          omega
        rw [equal]
        exact isTaken
    have count := (subperm_of_subset distinct all).length_le
    simp only [length_map, length_range] at count
    omega

theorem firstFree_not_mem (taken : List String) (stem : String) : firstFree taken stem ∉ taken := by
  obtain ⟨found, equal, free, -⟩ := exists_firstFree_eq taken stem
  rw [equal]
  exact free

theorem isWord_firstFree (isWord : IsWord stem) : IsWord (firstFree taken stem) := by
  obtain ⟨found, equal, -⟩ := exists_firstFree_eq taken stem
  obtain ⟨digits, isName, spelled⟩ := exists_numbered_eq stem found
  rw [equal, spelled, isWord_append]
  exact ⟨isWord, isName.isWord⟩

theorem isClassName_firstFree (isName : IsClassName stem) : IsClassName (firstFree taken stem) := by
  refine ⟨isWord_firstFree isName.1, ?_⟩
  obtain ⟨found, equal, -⟩ := exists_firstFree_eq taken stem
  obtain ⟨digits, -, spelled⟩ := exists_numbered_eq stem found
  obtain ⟨first, rest, characters, notSmall⟩ := isName.2
  exact ⟨first, rest ++ digits.toList, by simp [equal, spelled, characters], notSmall⟩

end Client

end ApiDescription
