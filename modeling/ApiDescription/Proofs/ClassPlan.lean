import ApiDescription.Proofs.Completion

/-!
# The classes of a client, in order

Classes are named one after the other, each under a key: the name of a data type, the name of the
class around it and of the field for a type that is written on the spot, the names of resource and
operation for what an operation takes or gives, or the name of a resource.  `ClassEntry` is one such
class with its key, the name that it is given and the fields of the record that it stands for.  All
of it is determined by the description, since a name depends on nothing but the key and the names
before it.

Two classes may go by the same key; then the later one stands in the table.  A type that is written
on the spot inside a data type never goes by the key of that data type.
-/

namespace ApiDescription

open List Text

variable {character : Char}

/-! ## Capitals of names -/

namespace Text

/-- All code points that a run leads to from letters and digits are letters again: it leads into one
alphabet, or to one letter of ASCII, or comes from symbols that are no letters. -/
def CaseRun.staysAlphanumeric : CaseRun → Bool
  | (first, last, _, shift) =>
    let image (point : Nat) : Nat := ((point : Int) + shift).toNat
    (decide (0x80 ≤ image first) && alphabetRanges.any fun range =>
      decide (range.1 ≤ image first) && decide (image last ≤ range.2)) ||
    (decide (last ≤ first) && (Char.ofNat (image first)).isAlpha) ||
    (decide (0x2100 ≤ first) && decide (last < 0x2c00) && (alphabetRanges ++ symbolRanges).all
      fun range =>
      decide (last < range.1) || decide (range.2 < first))

theorem upper_staysAlphanumeric :
    upperRuns.all CaseRun.staysAlphanumeric = true ∧ upperExpansions.all (fun entry =>
    entry.2.any fun point => isAlphanumeric (Char.ofNat point)) = true := by
  decide +kernel

theorem isAlphanumeric_of_alphabet {range : Nat × Nat} (inTable : range ∈ alphabetRanges)
    (beyond : 0x80 ≤ character.toNat) (low : range.1 ≤ character.toNat)
    (high : character.toNat ≤ range.2) :
    isAlphanumeric character = true := by
  have inside : inRanges alphabetRanges character.toNat = true :=
    any_eq_true.mpr ⟨range, inTable, by simp [low, high]⟩
  rw [isAlphanumeric, if_neg (Nat.not_lt_of_le beyond), if_pos inside]

theorem isAlphanumeric_of_isAlpha (isLetter : character.isAlpha = true) :
    isAlphanumeric character = true := by
  have ascii : character.toNat < 0x80 := by
    rw [Char.isAlpha, ← isCapital_toNat, ← isSmall_toNat, isCapital, isSmall] at isLetter
    simp only [Bool.or_eq_true, Bool.and_eq_true, decide_eq_true_eq] at isLetter
    omega
  simp [isAlphanumeric, ascii, Char.isAlphanum, isLetter]

theorem exists_range_of_isAlphanumeric (isLetter : isAlphanumeric character = true)
    (low : 0x2100 ≤ character.toNat) (high : character.toNat < 0x2c00) :
    ∃ range ∈ alphabetRanges ++ symbolRanges, range.1 ≤ character.toNat ∧
      character.toNat ≤ range.2 := by
  have beyond : ¬character.toNat < 0x80 := by omega
  have inside : inRanges (alphabetRanges ++ symbolRanges) character.toNat = true := by
    rw [isAlphanumeric, if_neg beyond] at isLetter
    rw [inRanges, any_append, Bool.or_eq_true]
    split_ifs at isLetter with inAlphabet inBlock
    · exact .inl inAlphabet
    · exact .inr isLetter
    · exact absurd (by simp [low, high]) inBlock
  simpa only [inRanges, any_eq_true, Bool.and_eq_true, decide_eq_true_eq] using inside

theorem CaseRun.isAlphanumeric_of_stays {first last step : Nat} {shift : Int}
    (stays : CaseRun.staysAlphanumeric (first, last, step, shift) = true)
    (safe : CaseRun.isSafe isCapital (first, last, step, shift) = true)
    (isLetter : isAlphanumeric character = true) (low : first ≤ character.toNat)
    (high : character.toNat ≤ last) :
    isAlphanumeric (Char.ofNat ((character.toNat : Int) + shift).toNat) = true := by
  have valid := toNat_ofNat_of_isLetterPoint (isLetterPoint_of_isSafe safe low high)
  simp only [staysAlphanumeric, Bool.or_eq_true, Bool.and_eq_true, decide_eq_true_eq,
    any_eq_true, all_eq_true] at stays
  rcases stays with (⟨far, range, inTable, lowImage, highImage⟩ | ⟨single, isImage⟩) | ⟨⟨from2100,
    to2bff⟩, apart⟩
  · exact isAlphanumeric_of_alphabet inTable (by omega) (by omega) (by omega)
  · rw [show character.toNat = first by omega]
    exact isAlphanumeric_of_isAlpha isImage
  · obtain ⟨range, inTable, lowEnd, highEnd⟩ :=
      exists_range_of_isAlphanumeric isLetter (by omega) (by omega)
    rcases apart range inTable with before | after
    · omega
    · omega

end Text

namespace Client

open Code (ClassDef Method)

variable {before : State}

theorem exists_isNameChar_of_upperChar (isName : isNameChar character = true) :
    ∃ image ∈ upperChar character, isNameChar image = true := by
  unfold upperChar
  split
  · next ascii =>
    have every : ∀ point < 0x80, isNameChar (Char.ofNat point) = true →
        isNameChar (Char.ofNat point).toUpper = true := by
      decide_cbv
    have single := every character.toNat ascii
    rw [Char.ofNat_toNat] at single
    exact ⟨_, mem_singleton_self _, single isName⟩
  · next far =>
    have isLetter : isAlphanumeric character = true := by
      rw [isNameChar, Bool.or_eq_true, beq_iff_eq] at isName
      refine isName.resolve_right ?_
      rintro rfl
      exact far (by decide)
    unfold mapCase
    split
    · next points found =>
      obtain ⟨before, after, equal, -⟩ := lookup_eq_some_iff.mp found
      have entry : (character.toNat, points) ∈ upperExpansions := by simp [equal]
      obtain ⟨point, inPoints, isImage⟩ :=
        any_eq_true.mp (all_eq_true.mp upper_staysAlphanumeric.2 _ entry)
      exact ⟨_, mem_map_of_mem inPoints, by simp [isNameChar, isImage]⟩
    · split
      · next point shifted =>
        obtain ⟨⟨first, last, step, shift⟩, found, rfl⟩ := Option.map_eq_some_iff.mp shifted
        have covers := find?_some found
        simp only [Bool.and_eq_true, decide_eq_true_eq, beq_iff_eq] at covers
        have inRuns := mem_of_find?_eq_some found
        have isImage :=
          Text.CaseRun.isAlphanumeric_of_stays (all_eq_true.mp upper_staysAlphanumeric.1 _ inRuns)
          (all_eq_true.mp upper_safe.2 _ inRuns) isLetter covers.1.1 covers.1.2
        exact ⟨_, mem_singleton_self _, by simp [isNameChar, isImage]⟩
      · exact ⟨_, mem_singleton_self _, isName⟩

/-- The number of characters of a text that may stand in a name. -/
def nameLength (text : String) : Nat :=
  text.toList.countP isNameChar

theorem nameLength_append (left right : String) :
    nameLength (left ++ right) = nameLength left + nameLength right := by
  simp [nameLength]

theorem nameLength_upperFirst {base : String} (isName : IsName base) :
    nameLength base ≤ nameLength (upperFirst base) := by
  unfold upperFirst nameLength
  split
  · next empty => simp [empty]
  · next first rest characters =>
    obtain ⟨image, inImage, isImage⟩ :=
      exists_isNameChar_of_upperChar (isName first (by simp [characters]))
    have some : 0 < (upperChar first).countP isNameChar :=
      countP_pos_iff.mpr ⟨image, inImage, isImage⟩
    rw [characters, String.toList_ofList, countP_append, countP_cons]
    split_ifs <;> omega

theorem nameLength_classStem (key : String) : nameLength key ≤ nameLength (classStem key) := by
  have left : nameLength (String.ofList (key.toList.filter isNameChar)) = nameLength key := by
    simp [nameLength, countP_filter]
  have isName : IsName (String.ofList (key.toList.filter isNameChar)) :=
    isName_of_cleaned (show cleaned (.text key) = .ok _ from rfl)
  rw [← left]
  unfold classStem NameStyle.ofCleaned
  split
  · next empty =>
    have none : nameLength (String.ofList (key.toList.filter isNameChar)) = 0 := by
      rw [nameLength, empty, countP_nil]
    omega
  · next first rest characters =>
    simp only [NameStyle.type]
    split
    · refine le_trans ?_ (nameLength_upperFirst (isName_append.mpr ⟨?_, isName⟩))
      · rw [nameLength_append]
        exact Nat.le_add_left _ _
      · simp [IsName, isNameChar, isAlphanumeric]
    · exact nameLength_upperFirst isName

theorem nameLength_firstFree (taken : List String) (stem : String) :
    nameLength stem ≤ nameLength (firstFree taken stem) := by
  obtain ⟨found, equal, -⟩ := exists_firstFree_eq taken stem
  obtain ⟨digits, -, spelled⟩ := exists_numbered_eq stem found
  rw [equal, spelled, nameLength_append]
  exact Nat.le_add_right _ _

/-! ## Entries -/

def typeEntries (taken : List String) (type : NamedTypeDef) : List ClassEntry :=
  recordEntries taken type.name.textOrEmpty type.definition

def inTurn {α : Type} (entries : List String → α → List ClassEntry) (taken : List String) :
    List α → List ClassEntry
  | [] => []
  | item :: rest =>
    let given := entries taken item
    given ++ inTurn entries (taken ++ given.map (·.name)) rest

/-- The classes for what an operation takes and gives. -/
def operationEntries (resource : Resource) (taken : List String) (operation : Operation) :
    List ClassEntry :=
  let input := (payloadType operation).elim []
    (inlineEntries taken (operationKey resource operation "InputType"))
  input ++ (answerType operation).elim []
    (inlineEntries (taken ++ input.map (·.name)) (operationKey resource operation "OutputType"))

def resourceEntries (taken : List String) (resource : Resource) : List ClassEntry :=
  let own := entryFor taken (resource.name.toDoc.textOrEmpty ++ "Client") []
  own :: inTurn (operationEntries resource) (taken ++ [own.name]) resource.operations

def commonEntries : List ClassEntry :=
  inTurn (fun taken key => [entryFor taken key []]) [] ["RemoteException", "AbstractResourceClient"]

/-- The classes for data types behind those that every client has. -/
def dataTypeEntries (types : List NamedTypeDef) : List ClassEntry :=
  commonEntries ++ inTurn typeEntries (commonEntries.map (·.name)) types

mutual

/-- Keys get longer with every type around them. -/
theorem nameLength_recordEntries {taken : List String} {key : String} {entry : ClassEntry} :
    ∀ definition, entry ∈ recordEntries taken key definition → nameLength key ≤ nameLength entry.key
  | ⟨fields, _, _⟩, member => by
    rw [recordEntries] at member
    rcases mem_cons.mp member with rfl | inFields
    · exact Nat.le_refl _
    · have longer := nameLength_fieldEntries fields inFields
      have grown := nameLength_classStem key
      have counted := nameLength_firstFree taken (classStem key)
      simp only [entryFor] at longer
      omega

theorem nameLength_fieldEntries {taken : List String} {owner : String} {entry : ClassEntry} :
    ∀ fields, entry ∈ fieldEntries taken owner fields → nameLength owner < nameLength entry.key
  | [], member => by
    rw [fieldEntries] at member
    cases member
  | ⟨name, _, _, type⟩ :: rest, member => by
    rw [fieldEntries] at member
    rcases mem_append.mp member with inType | inRest
    · have longer := nameLength_inlineEntries type inType
      have underscore : nameLength "_" = 1 := by decide
      rw [nameLength_append, nameLength_append] at longer
      omega
    · exact nameLength_fieldEntries rest inRest

theorem nameLength_inlineEntries {taken : List String} {key : String} {entry : ClassEntry} :
    ∀ type, entry ∈ inlineEntries taken key type → nameLength key ≤ nameLength entry.key
  | .reference _ _, member => by
    rw [inlineEntries] at member
    cases member
  | .inline definition, member => by
    rw [inlineEntries] at member
    exact nameLength_recordEntries definition member

end

/-- Among the classes for a record, its own is the only one under its key. -/
theorem lastFor_recordEntries (taken : List String) (key : String) (definition : TypeDef) :
    lastFor (recordEntries taken key definition) key =
      some (entryFor taken key definition.fields) := by
  have others : lastFor (fieldEntries (taken ++ [firstFree taken (classStem key)])
      (firstFree taken (classStem key)) definition.fields) key = none := by
    rw [lastFor_eq_none]
    intro entry member same
    have longer := nameLength_fieldEntries definition.fields member
    have grown := nameLength_classStem key
    have counted := nameLength_firstFree taken (classStem key)
    rw [same] at longer
    omega
  rw [recordEntries_eq, ← singleton_append, lastFor_append, others]
  simp [lastFor, entryFor]

/-! ## Generating the classes of data types -/

/-- Data types that go by texts, with fields that go by texts at every depth. -/
def SpelledTypes (types : List NamedTypeDef) : Prop :=
  ∀ type ∈ types, (∃ key, type.name = .text key) ∧ (DataType.inline type.definition).Spelled

variable {key : String} {types : List NamedTypeDef}

theorem exists_builds_generateDataType {type : NamedTypeDef} (isText : type.name = .text key)
    (spelled : (DataType.inline type.definition).Spelled) (listed : Listed before) :
    ∃ after, Returns (generateDataType type) before () after ∧
      Builds (typeEntries before.classNames type) before after ∧
      after.classes.getLast?.map (·.name) = some (firstFree before.classNames (classStem key)) := by
  rw [generateDataType, typeEntries, isText, Doc.textOrEmpty]
  exact exists_builds_generateRecord listed type.definition spelled

theorem exists_builds_generateDataTypes (spelled : SpelledTypes types) (listed : Listed before) :
    ∃ after, Returns (types.forM generateDataType) before () after ∧
      Builds (inTurn typeEntries before.classNames types) before after := by
  induction types generalizing before with
  | nil => exact ⟨before, returns_pure.mpr ⟨rfl, rfl⟩, .refl before⟩
  | cons type rest ih =>
    rw [SpelledTypes, forall_mem_cons] at spelled
    obtain ⟨⟨⟨key, isText⟩, spelledType⟩, spelledRest⟩ := spelled
    obtain ⟨middle, first, builds, -⟩ := exists_builds_generateDataType isText spelledType listed
    obtain ⟨after, others, buildsRest⟩ := ih spelledRest (builds.listed listed)
    refine ⟨after, returns_bind_unit.mpr ⟨middle, first, others⟩, ?_⟩
    rw [inTurn, ← builds.classNames]
    exact builds.trans buildsRest

/-- A class that has no fields is put up under its name. -/
def BuildsPlain (generate : Build ClassDef) (key : String) : Prop :=
  ∀ ⦃before⦄, Listed before → ∃ type middle after, Returns generate before type middle ∧
    Returns (Build.addClass type) middle ⟨⟩ after ∧
    Builds [entryFor before.classNames key []] before after

theorem buildsPlain_of_constructor {make : String → ClassDef} {constructor : Method}
    (named : ∀ name, (make name).name = name)
    (isConstructor : ∀ name, (make name).constructor? = some constructor)
    (unmapped : constructor.mappings = []) :
    BuildsPlain (do return make (← Build.className (.text key))) key := by
  intro before listed
  refine ⟨_, _, _, returns_bind.mpr ⟨_, _, returns_className.mpr ⟨_, rfl, rfl, rfl⟩,
    returns_pure.mpr ⟨rfl, rfl⟩⟩, returns_addClass.mpr rfl, ?_⟩
  refine builds_withRecords listed (.cons _ key (by simp) (.nil _)) (by simp [named, entryFor]) ?_
  exact fun _ member _ isEntry _ => ⟨constructor, mem_singleton.mp member ▸ isConstructor _,
    fun _ => by
    simp [unmapped, mem_singleton.mp isEntry, entryFor]⟩

theorem buildsPlain_generateException : BuildsPlain generateException "RemoteException" :=
  buildsPlain_of_constructor (fun _ => rfl) (fun _ => rfl) rfl

theorem buildsPlain_generateParent : BuildsPlain generateParent "AbstractResourceClient" :=
  buildsPlain_of_constructor (fun _ => rfl) (fun _ => rfl) rfl

theorem exists_builds_generateTypes (spelled : SpelledTypes types) :
    ∃ parent after, Returns (generateTypes types) State.empty parent after ∧
      Builds (dataTypeEntries types) State.empty after ∧ Listed after := by
  have listed : Listed State.empty := fun _ member => by cases member
  obtain ⟨exception, named, first, isException, added, builds⟩ :=
    buildsPlain_generateException listed
  obtain ⟨parent, namedParent, second, isParent, addedParent, buildsParent⟩ :=
    buildsPlain_generateParent (builds.listed listed)
  have common : Builds commonEntries State.empty second := by
    rw [builds.classNames] at buildsParent
    exact builds.trans buildsParent
  obtain ⟨after, ran, buildsTypes⟩ := exists_builds_generateDataTypes spelled (common.listed listed)
  rw [common.classNames] at buildsTypes
  have whole : Builds (dataTypeEntries types) State.empty after := common.trans buildsTypes
  refine ⟨parent, after, ?_, whole, whole.listed listed⟩
  exact returns_bind.mpr ⟨exception, named, isException, returns_bind_unit.mpr ⟨first, added,
    returns_bind.mpr ⟨parent, namedParent, isParent, returns_bind_unit.mpr ⟨second, addedParent,
      returns_bind_unit.mpr ⟨after, ran, returns_pure.mpr ⟨rfl, rfl⟩⟩⟩⟩⟩⟩

end Client

end ApiDescription
