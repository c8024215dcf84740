import ApiDescription.Proofs.Closure

/-!
# Types with functions of one name

The functions for a type are named for the containers around it and for the type that these hold,
joined by underscores.  The name of a type is cleaned before, and it may have underscores of its
own, so functions for different types can get one name.  They do exactly when both have the same
containers on the outside, and what is left of one of them is a type with a name that spells the
rest of the other.  Only the first of them is kept then.
-/

namespace ApiDescription.Client.Codec

open Code (Method)

/-! ## Outlines -/

/-- How the name of a type stands in the name of a function. -/
def spelled (name : String) : String :=
  NameStyle.function.ofCleaned (String.ofList (name.toList.filter isNameChar))

/-- What functions are named for: containers, from the outside in, and the name of the type they
hold. -/
structure Outline where
  containers : List Container
  content : String
  deriving DecidableEq

namespace Outline

variable {api : Api} {target : TypeRef} {schema : Schema} {left right : Outline}

def ofName? : Doc → Option Outline
  | .text name => some ⟨[], name⟩
  | _ => none

def within (kind : Container) (outline : Outline) : Outline :=
  ⟨kind :: outline.containers, outline.content⟩

/-- A container holds what the name of its item leads to. -/
def ofReference? (api : Api) : TypeRef → Option Outline
  | .primitive kind => some ⟨[], kind.name⟩
  | .custom name => ofName? name
  | .container kind item =>
    match api.lookup item.referenceName with
    | some (.named type) => (ofName? type.name).map (within kind)
    | some (.reference _) => (ofReference? api item).map (within kind)
    | some (.anonymous _) | none => none

def ofSchema? (api : Api) : Schema → Option Outline
  | .reference target => ofReference? api target
  | .named type => ofName? type.name
  | .anonymous _ => none

/-- The part of the name of a function that stands for the type. -/
def spelling (outline : Outline) : String :=
  outline.containers.foldr (fun kind rest => kind.name ++ "_" ++ rest) (spelled outline.content)

variable {outline : Outline}

theorem spelling_nil (name : String) : (Outline.mk [] name).spelling = spelled name := by
  rw [spelling, List.foldr_nil]

theorem codecName_of_ofName? {name : Doc} (found : ofName? name = some outline)
    (stem media : String) :
    codecName stem name media = .ok (stem ++ "_" ++ outline.spelling ++ "_" ++ media) := by
  cases name <;> cases found
  rw [spelling_nil]
  rfl

theorem referenceCodecName_of_ofReference? (found : ofReference? api target = some outline)
    (stem media : String) :
    referenceCodecName api media stem target =
      .ok (stem ++ "_" ++ outline.spelling ++ "_" ++ media) := by
  induction target generalizing stem outline with
  | primitive kind =>
    cases found
    cases kind <;> rfl
  | custom name => exact codecName_of_ofName? found stem media
  | container kind item ih =>
    rw [ofReference?] at found
    rw [referenceCodecName]
    rcases known : api.lookup item.referenceName with _ | target | definition | type <;>
      rw [known] at found
    · cases found
    · obtain ⟨inner, isInner, rfl⟩ := Option.map_eq_some_iff.mp found
      simp [ih isInner, within, spelling, String.append_assoc]
    · cases found
    · obtain ⟨inner, isInner, rfl⟩ := Option.map_eq_some_iff.mp found
      simp [codecName_of_ofName? isInner, within, spelling, String.append_assoc]

/-- The name of a function is the spelling of an outline between what the function does and its
media type. -/
theorem schemaCodecName_of_ofSchema? (found : ofSchema? api schema = some outline)
    (stem media : String) :
    schemaCodecName api media stem (some schema) =
      .ok (stem ++ "_" ++ outline.spelling ++ "_" ++ media) := by
  cases schema with
  | reference target => exact referenceCodecName_of_ofReference? found stem media
  | named type => exact codecName_of_ofName? found stem media
  | anonymous => cases found

/-! ## Spellings -/

/-- The containers of one go on where those of the other end, and the rest of it reads like the type
in the other. -/
def Blurs (left right : Outline) : Prop :=
  ∃ inner, left.containers = right.containers ++ inner ∧
    spelled right.content = (Outline.mk inner left.content).spelling

theorem container_name_inj {kind other : Container} {rest others : String}
    (equal : kind.name ++ "_" ++ rest = other.name ++ "_" ++ others) : kind = other ∧
    rest = others := by
  rw [← String.toList_inj] at equal ⊢
  cases kind <;> cases other <;> simp_all [Container.name]

theorem Blurs.spelling_eq (blurs : left.Blurs right) : left.spelling = right.spelling := by
  obtain ⟨inner, more, same⟩ := blurs
  simp [spelling, more, same]

theorem spelling_eq_iff : left.spelling = right.spelling ↔ left.Blurs right ∨ right.Blurs left := by
  constructor
  · obtain ⟨containers, content⟩ := left
    obtain ⟨others, other⟩ := right
    intro equal
    induction containers generalizing others with
    | nil => exact .inr ⟨others, rfl, spelling_nil content ▸ equal⟩
    | cons kind containers ih =>
      cases others with
      | nil => exact .inl ⟨kind :: containers, rfl, spelling_nil other ▸ equal.symm⟩
      | cons otherKind others =>
        obtain ⟨rfl, rest⟩ := container_name_inj equal
        rcases ih others rest with ⟨inner, more, same⟩ | ⟨inner, more, same⟩
        · exact .inl ⟨inner, by simpa using more, same⟩
        · exact .inr ⟨inner, by simpa using more, same⟩
  · rintro (blurs | blurs)
    · exact blurs.spelling_eq
    · exact blurs.spelling_eq.symm

/-- A name that is kept as it is and does not begin like that of a container. -/
structure Plain (name : String) : Prop where
  kept : spelled name = name
  unlike : ∀ kind : Container, ¬ (kind.name ++ "_").toList <+: name.toList

theorem Blurs.eq_of_plain (blurs : left.Blurs right) (plainLeft : Plain left.content)
    (plainRight : Plain right.content) : left = right := by
  obtain ⟨containers, content⟩ := left
  obtain ⟨inner, rfl, same⟩ := blurs
  cases inner with
  | nil =>
    have equal : right.content = content := by
      rwa [spelling_nil, plainRight.kept, plainLeft.kept] at same
    simp [← equal]
  | cons kind inner =>
    refine absurd ?_ (plainRight.unlike kind)
    rw [← plainRight.kept, same]
    simp [spelling]

theorem spelling_inj (plainLeft : Plain left.content) (plainRight : Plain right.content) :
    left.spelling = right.spelling ↔ left = right := by
  constructor
  · intro equal
    rcases spelling_eq_iff.mp equal with blurs | blurs
    · exact blurs.eq_of_plain plainLeft plainRight
    · exact (blurs.eq_of_plain plainRight plainLeft).symm
  · rintro rfl
    rfl

end Outline

/-! ## Described types -/

/-- A reference is written as it is read, and leads to a data type if it leads anywhere. -/
structure Finds (api : Api) (target : TypeRef) : Prop where
  canonical : target.Canonical
  found : ∀ name, target.customName? = some name → ∃ type, api.lookup name = some (.named type)

theorem Finds.item {kind : Container} {item : TypeRef} (finds : Finds api (.container kind item)) :
    Finds api item where
  canonical := finds.canonical.item
  found := finds.found

theorem Finds.lookup (finds : Finds api target) :
    (∃ type, api.lookup target.referenceName = some (.named type)) ∨
      api.lookup target.referenceName = some (.reference target) := by
  cases isType : api.dataType? target.referenceName with
  | some type => exact .inl ⟨type, by rw [Api.lookup, isType]⟩
  | none =>
    cases target with
    | custom name => exact .inl (finds.found name rfl)
    | primitive | container =>
      refine .inr ?_
      rw [Api.lookup, isType, TypeRef.builtIn?, finds.canonical.ofName_referenceName]

section Names

variable {api : Api} {target : TypeRef} {left right : Schema}
  (names : ∀ type ∈ api.dataTypes, ∃ key, type.name = .text key)

include names

theorem Finds.exists_text (finds : Finds api target) :
    ∃ text, target.referenceName = .text text := by
  cases target with
  | primitive | container => exact ⟨_, rfl⟩
  | custom name =>
    obtain ⟨type, found⟩ := finds.found name rfl
    obtain ⟨key, -, isText⟩ := Api.exists_key_of_lookup names found
    exact ⟨key, isText⟩

theorem Outline.exists_ofReference? (finds : Finds api target) :
    ∃ outline, ofReference? api target = some outline := by
  induction target with
  | primitive kind => exact ⟨_, rfl⟩
  | custom name =>
    obtain ⟨text, isText⟩ := finds.exists_text names
    exact ⟨⟨[], text⟩, by rw [ofReference?, show name = .text text from isText, ofName?]⟩
  | container kind item ih =>
    rw [ofReference?]
    rcases finds.item.lookup with ⟨type, found⟩ | found
    · obtain ⟨key, isText, -⟩ := Api.exists_key_of_lookup names found
      simp [found, isText, ofName?]
    · obtain ⟨inner, isInner⟩ := ih finds.item
      simp [found, isInner]

theorem exists_referenceCodecName (media stem : String) (finds : Finds api target) :
    ∃ name, referenceCodecName api media stem target = .ok name := by
  obtain ⟨outline, found⟩ := Outline.exists_ofReference? names finds
  exact ⟨_, Outline.referenceCodecName_of_ofReference? found stem media⟩

end Names

/-- The data types of a description, and the references to them and to built-in types, also within
containers. -/
def Describes (api : Api) : Schema → Prop
  | .reference target => Finds api target
  | .named type => type ∈ api.dataTypes
  | .anonymous _ => False

/-- A function is left out exactly when there is one of its name. -/
def KeptOnce (name : String) : Prop :=
  ∀ function before after, function.name = name →
    Returns (Build.addFunction function) before ⟨⟩ after →
    (after = before ↔ name ∈ before.functionNames)

theorem IsHelperName.keptOnce {name : String} (isHelperName : IsHelperName name) :
    KeptOnce name := by
  rintro function before after rfl ran
  rw [returns_addFunction isHelperName.method_stem] at ran
  split_ifs at ran with taken
  · exact iff_of_true ran taken
  · refine iff_of_false (fun same => ?_) taken
    simpa [ran] using congrArg (List.length ∘ State.functions) same

/-- How the names of the functions for two types compare: they are equal exactly when one of the
types reads like the other, which happens to no two types with plain names.  Of functions that share
a name only the first is kept. -/
def Compares (api : Api) (left right : Schema) (stem media : String) : Prop :=
  ∃ leftOutline rightOutline leftName rightName,
    Outline.ofSchema? api left = some leftOutline ∧
    Outline.ofSchema? api right = some rightOutline ∧
    schemaCodecName api media stem (some left) = .ok leftName ∧
    schemaCodecName api media stem (some right) = .ok rightName ∧
    (leftName = rightName ↔ leftOutline.Blurs rightOutline ∨ rightOutline.Blurs leftOutline) ∧
    (Outline.Plain leftOutline.content → Outline.Plain rightOutline.content →
      (leftName = rightName ↔ leftOutline = rightOutline)) ∧
    (stem = "serialize" ∨ stem = "deserialize" → IsName media → KeptOnce leftName ∧
      KeptOnce rightName)

/-- The functions for two types of a description have names, which are equal exactly when one of the
types reads like the other. -/
theorem schemaCodecName_compares {api : Api}
    (names : ∀ type ∈ api.dataTypes, ∃ key, type.name = .text key) {left right : Schema}
    (isLeft : Describes api left) (isRight : Describes api right) (stem media : String) :
    Compares api left right stem media := by
  have outlined : ∀ schema, Describes api schema → ∃ outline,
      Outline.ofSchema? api schema = some outline := by
    intro schema described
    cases schema with
    | reference target => exact Outline.exists_ofReference? names described
    | named type =>
      obtain ⟨key, isText⟩ := names type described
      exact ⟨⟨[], key⟩, by rw [Outline.ofSchema?, isText, Outline.ofName?]⟩
    | anonymous => exact described.elim
  obtain ⟨leftOutline, ofLeft⟩ := outlined left isLeft
  obtain ⟨rightOutline, ofRight⟩ := outlined right isRight
  have leftNamed := Outline.schemaCodecName_of_ofSchema? ofLeft stem media
  have rightNamed := Outline.schemaCodecName_of_ofSchema? ofRight stem media
  have same : stem ++ "_" ++ leftOutline.spelling ++ "_" ++ media = stem ++ "_" ++
    rightOutline.spelling ++ "_" ++ media ↔
      leftOutline.spelling = rightOutline.spelling := by
    simp only [← String.toList_inj, String.toList_append, List.append_cancel_left_eq,
      List.append_cancel_right_eq]
  refine ⟨leftOutline, rightOutline, _, _, ofLeft, ofRight, leftNamed, rightNamed,
    same.trans Outline.spelling_eq_iff, fun plainLeft plainRight =>
      same.trans (Outline.spelling_inj plainLeft plainRight),
    fun isStem isName => ⟨?_, ?_⟩⟩
  · exact (isHelperName_of_schemaCodecName isStem isName leftNamed).keptOnce
  · exact (isHelperName_of_schemaCodecName isStem isName rightNamed).keptOnce

namespace Shelf

/-- There are items and, apart from lists of them, a type that is called like such a list. -/
def document : Doc :=
  .object [("name", "shelf"), ("resources", .list []),
    ("dataTypes", .list [.object [("name", "Item"), ("fields", .list [])],
      .object [("name", "list_Item"), ("fields", .list [])]])]

def items : TypeRef := .container .list (.custom "Item")

def listItem : NamedTypeDef :=
  { name := "list_Item", definition := ⟨[], [], none⟩ }

def api : Api :=
  { name := "shelf", dataTypes := [{ name := "Item", definition := ⟨[], [], none⟩ }, listItem] }

theorem accepted : Api.ofDoc document = .ok api := by
  cbv

end Shelf

theorem shelf_schemaCodecName_compares :
    Compares Shelf.api (.reference Shelf.items) (.named Shelf.listItem) "serialize" "json" := by
  have finds : Finds Shelf.api Shelf.items := by
    refine ⟨⟨by cbv, by simp [Shelf.items, TypeRef.referenceName]⟩, ?_⟩
    rintro _ ⟨⟩
    exact ⟨_, rfl⟩
  apply schemaCodecName_compares
  · simp [Shelf.api, Shelf.listItem]
  · exact finds
  · simp [Describes, Shelf.api]

/-- Lists of items and the type that is called like them are different, but their functions have one
name. -/
theorem shelf_names_equal :
    Api.ofDoc Shelf.document = .ok Shelf.api ∧
      Outline.ofSchema? Shelf.api (.reference Shelf.items) ≠
        Outline.ofSchema? Shelf.api (.named Shelf.listItem) ∧
      schemaCodecName Shelf.api "json" "serialize" (some (.reference Shelf.items)) =
        .ok "serialize_list_Item_json" ∧
      schemaCodecName Shelf.api "json" "serialize" (some (.named Shelf.listItem)) =
        .ok "serialize_list_Item_json" :=
  ⟨Shelf.accepted, by decide, rfl, rfl⟩

end ApiDescription.Client.Codec
