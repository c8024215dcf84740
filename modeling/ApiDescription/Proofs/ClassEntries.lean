import ApiDescription.Proofs.Drafts
import ApiDescription.Proofs.Naming
import ApiDescription.Proofs.Validity

/-!
# The classes of record types

A record type gets a class under a key: the name of a data type, or the name of the class around it
and of the field for a type that is written on the spot.  `ClassEntry` is one such class with its
key, the name that it is given and the fields of the record.  `recordEntries` computes the classes
of a record type from the names that are taken, and generating the type adds exactly those:
`exists_builds_generateRecord`.
-/

namespace ApiDescription

open Outcome List

def Doc.textOrEmpty : Doc → String
  | .text value => value
  | _ => ""

/-- A type whose fields, at every depth, go by texts. -/
def DataType.Spelled (type : DataType) : Prop :=
  ∀ definition : TypeDef, (DataType.inline definition).Within type →
    ∀ field ∈ definition.fields, ∃ label, field.name = .text label

theorem DataType.Spelled.field {definition : TypeDef} {field : Field}
    (spelled : (DataType.inline definition).Spelled) (declared : field ∈ definition.fields) :
    field.type.Spelled :=
  fun inner within => spelled inner (.field declared within)

@[simp] theorem DataType.spelled_reference (target : TypeRef) (link : Doc) :
    (DataType.reference target link).Spelled := by
  intro definition within
  cases within

@[simp] theorem DataType.spelled_inline {definition : TypeDef} :
    (DataType.inline definition).Spelled ↔
      ∀ field ∈ definition.fields, (∃ label, field.name = .text label) ∧ field.type.Spelled := by
  constructor
  · intro spelled field declared
    exact ⟨spelled _ .self field declared, spelled.field declared⟩
  · intro spelled inner within
    cases within with
    | self => exact fun field declared => (spelled field declared).1
    | field declared within => exact (spelled _ declared).2 inner within

namespace Client

open Code (ClassDef Method)

/-! ## Entries -/

/-- A class that is asked for under a key, with the name it is given and the fields of the record
that it stands for. -/
structure ClassEntry where
  key : String
  name : String
  fields : List Field

def entryFor (taken : List String) (key : String) (fields : List Field) : ClassEntry :=
  { key, name := firstFree taken (classStem key), fields }

mutual

def recordEntries (taken : List String) (key : String) : TypeDef → List ClassEntry
  | ⟨fields, _, _⟩ =>
    let own := entryFor taken key fields
    own :: fieldEntries (taken ++ [own.name]) own.name fields

/-- The classes for the types of fields inside a class. -/
def fieldEntries (taken : List String) (owner : String) : List Field → List ClassEntry
  | [] => []
  | ⟨name, _, _, type⟩ :: rest =>
    let inner := inlineEntries taken (owner ++ "_" ++ name.toDoc.textOrEmpty) type
    inner ++ fieldEntries (taken ++ inner.map (·.name)) owner rest

/-- The classes for a type when it is written on the spot. -/
def inlineEntries (taken : List String) (key : String) : DataType → List ClassEntry
  | .reference _ _ => []
  | .inline definition => recordEntries taken key definition

end

theorem recordEntries_eq (taken : List String) (key : String) (definition : TypeDef) :
    recordEntries taken key definition = entryFor taken key definition.fields ::
        fieldEntries (taken ++ [firstFree taken (classStem key)]) (firstFree taken (classStem key))
          definition.fields := by
  obtain ⟨fields, constraints, description⟩ := definition
  rw [recordEntries]
  rfl

def lastFor (entries : List ClassEntry) (key : String) : Option ClassEntry :=
  (entries.filter fun entry => entry.key == key).getLast?

theorem lastFor_append (first second : List ClassEntry) (key : String) :
    lastFor (first ++ second) key = (lastFor second key).or (lastFor first key) := by
  rw [lastFor, filter_append, getLast?_append]
  rfl

variable {entries first second : List ClassEntry} {key : String} {taken : List String}
  {before after : State} {fields : List Field}

theorem lastFor_eq_none : lastFor entries key = none ↔ ∀ entry ∈ entries, entry.key ≠ key := by
  simp [lastFor]

theorem mem_of_lastFor {entry : ClassEntry} (found : lastFor entries key = some entry) :
    entry ∈ entries :=
  mem_of_mem_filter (mem_of_getLast? found)

/-- Classes for records whose fields go by texts, named one after another where some names are
taken. -/
inductive NamedInTurn : List String → List ClassEntry → Prop
  | nil (taken : List String) : NamedInTurn taken []
  | cons (taken : List String) (key : String) {fields : List Field} {rest : List ClassEntry}
    (texts : ∀ field ∈ fields, ∃ label, field.name = .text label)
    (others : NamedInTurn (taken ++ [firstFree taken (classStem key)]) rest) :
    NamedInTurn taken (entryFor taken key fields :: rest)

theorem NamedInTurn.append (one : NamedInTurn taken first)
    (two : NamedInTurn (taken ++ first.map (·.name)) second) :
    NamedInTurn taken (first ++ second) := by
  induction one with
  | nil => simpa using two
  | cons taken key texts _ ih => exact .cons taken key texts (ih (by simpa [entryFor] using two))

theorem NamedInTurn.exists_eq (inTurn : NamedInTurn taken entries) :
    ∀ entry ∈ entries, ∃ more, entry.name = firstFree (taken ++ more) (classStem entry.key) := by
  induction inTurn with
  | nil => simp
  | cons taken key _ _ ih =>
    refine forall_mem_cons.mpr ⟨⟨[], by simp [entryFor]⟩, fun entry member => ?_⟩
    obtain ⟨more, named⟩ := ih entry member
    exact ⟨_, by rw [named, append_assoc]⟩

theorem NamedInTurn.not_mem (inTurn : NamedInTurn taken entries) :
    ∀ entry ∈ entries, entry.name ∉ taken := by
  intro entry member isTaken
  obtain ⟨more, named⟩ := inTurn.exists_eq entry member
  exact firstFree_not_mem _ _ (named ▸ mem_append_left more isTaken)

theorem NamedInTurn.nodup (inTurn : NamedInTurn taken entries) : (entries.map (·.name)).Nodup := by
  induction inTurn with
  | nil => simp
  | cons taken key _ others ih =>
    refine nodup_cons.mpr ⟨fun member => ?_, ih⟩
    obtain ⟨entry, inRest, same⟩ := mem_map.mp member
    exact others.not_mem entry inRest (by simp [same, entryFor])

theorem NamedInTurn.texts {taken : List String} {entries : List ClassEntry}
    (inTurn : NamedInTurn taken entries) :
    ∀ entry ∈ entries, ∀ field ∈ entry.fields, ∃ label, field.name = .text label := by
  induction inTurn with
  | nil => simp
  | cons _ _ texts _ ih => exact forall_mem_cons.mpr ⟨texts, ih⟩

mutual

theorem namedInTurn_recordEntries (taken : List String) (key : String) :
    ∀ definition, (DataType.inline definition).Spelled →
      NamedInTurn taken (recordEntries taken key definition)
  | ⟨fields, _, _⟩, spelled => by
    rw [DataType.spelled_inline] at spelled
    rw [recordEntries]
    exact .cons taken key (fun field declared => (spelled field declared).1)
      (namedInTurn_fieldEntries _ _ fields fun field declared => (spelled field declared).2)

theorem namedInTurn_fieldEntries (taken : List String) (owner : String) :
    ∀ fields : List Field, (∀ field ∈ fields, field.type.Spelled) →
      NamedInTurn taken (fieldEntries taken owner fields)
  | [], _ => by
    rw [fieldEntries]
    exact .nil taken
  | ⟨name, _, _, type⟩ :: rest, spelled => by
    rw [forall_mem_cons] at spelled
    rw [fieldEntries]
    exact (namedInTurn_inlineEntries taken _ type spelled.1).append
      (namedInTurn_fieldEntries _ owner rest spelled.2)

theorem namedInTurn_inlineEntries (taken : List String) (key : String) :
    ∀ type : DataType, type.Spelled → NamedInTurn taken (inlineEntries taken key type)
  | .reference _ _, _ => by
    rw [inlineEntries]
    exact .nil taken
  | .inline definition, spelled => by
    rw [inlineEntries]
    exact namedInTurn_recordEntries taken key definition spelled

end

/-! ## Classes -/

/-- A constructor that also takes a field: the field gets an argument, which is set on the
object. -/
def withField (constructor : Method) (field : Field) : Method :=
  let key := field.name.toDoc.textOrEmpty
  let argument := nextArgument constructor key
  (declare constructor ⟨key, .null, optionalDefault field.optional⟩).addLine
    (.code ["self.", argument, " = ", argument])

def constructorFor (fields : List Field) : Method :=
  fields.foldl withField (.empty .bound Method.constructorName)

def classFor (name : String) (fields : List Field) : ClassDef :=
  { name, parent := none, methods := [constructorFor fields] }

mutual

/-- The classes for a record type: those inside it come first. -/
def recordClasses (taken : List String) (key : String) : TypeDef → List ClassDef
  | ⟨fields, _, _⟩ =>
    let name := firstFree taken (classStem key)
    fieldClasses (taken ++ [name]) name fields ++ [classFor name fields]

def fieldClasses (taken : List String) (owner : String) : List Field → List ClassDef
  | [] => []
  | ⟨name, _, _, type⟩ :: rest =>
    let key := owner ++ "_" ++ name.toDoc.textOrEmpty
    inlineClasses taken key type ++
      fieldClasses (taken ++ (inlineEntries taken key type).map (·.name)) owner rest

def inlineClasses (taken : List String) (key : String) : DataType → List ClassDef
  | .reference _ _ => []
  | .inline definition => recordClasses taken key definition

end

def ClassEntry.toClass (entry : ClassEntry) : ClassDef :=
  classFor entry.name entry.fields

mutual

/-- The classes of a record type are those of its entries in another order. -/
theorem perm_recordClasses (taken : List String) (key : String) :
    ∀ definition, (recordClasses taken key definition).Perm
      ((recordEntries taken key definition).map ClassEntry.toClass)
  | ⟨fields, _, _⟩ => by
    rw [recordClasses, recordEntries, map_cons]
    exact ((perm_fieldClasses _ _ fields).append_right _).trans (perm_append_singleton _ _)

theorem perm_fieldClasses (taken : List String) (owner : String) :
    ∀ fields, (fieldClasses taken owner fields).Perm
      ((fieldEntries taken owner fields).map ClassEntry.toClass)
  | [] => by
    rw [fieldClasses, fieldEntries]
    exact .nil
  | ⟨name, _, _, type⟩ :: rest => by
    rw [fieldClasses, fieldEntries, map_append]
    exact (perm_inlineClasses taken _ type).append (perm_fieldClasses _ owner rest)

theorem perm_inlineClasses (taken : List String) (key : String) :
    ∀ type, (inlineClasses taken key type).Perm
      ((inlineEntries taken key type).map ClassEntry.toClass)
  | .reference _ _ => by
    rw [inlineClasses, inlineEntries]
    exact .nil
  | .inline definition => by
    rw [inlineClasses, inlineEntries]
    exact perm_recordClasses taken key definition

end

theorem exists_fields_of_mem {definition : TypeDef} {type : ClassDef} {method : Method}
    (member : type ∈ recordClasses taken key definition) (isMethod : method ∈ type.methods) :
    ∃ fields, method = constructorFor fields := by
  obtain ⟨entry, -, rfl⟩ := mem_map.mp ((perm_recordClasses taken key definition).mem_iff.mp member)
  exact ⟨entry.fields, mem_singleton.mp isMethod⟩

/-! ## What generating classes changes -/

theorem lookup_putClass (key name other : String) (table : List (String × String)) :
    (State.putClass key name table).lookup other =
      if other = key then some name else table.lookup other := by
  induction table with
  | nil => by_cases same : other = key <;> simp [State.putClass, lookup, same]
  | cons entry rest ih =>
    obtain ⟨first, old⟩ := entry
    rw [State.putClass]
    by_cases isFirst : first = key
    · subst isFirst
      by_cases same : other = first
      · simp [same]
      · have differs : (other == first) = false := by simpa using same
        simp [lookup, differs, same]
    · rw [if_neg isFirst]
      by_cases same : other = first
      · simp [same, isFirst]
      · have differs : (other == first) = false := by simpa using same
        simp [lookup, differs, ih]

/-- Every class that was generated has one of the class names. -/
def Listed (state : State) : Prop :=
  ∀ type ∈ state.classes, type.name ∈ state.classNames

/-- A constructor with an argument for each of the fields and for nothing else. -/
def MapsExactly (constructor : Method) (fields : List Field) : Prop :=
  ∀ key, key ∈ constructor.mappings.map Prod.fst ↔ key ∈ fields.map fun field => field.name.toDoc

/-- A client in which the class of a name has a constructor for exactly the fields. -/
def HasClass (state : State) (name : String) (fields : List Field) : Prop :=
  ∃ type constructor, state.classes.find? (fun type => type.name == name) = some type ∧
    type.constructor? = some constructor ∧ MapsExactly constructor fields

theorem HasClass.append {name : String} {added : List ClassDef}
    (hasClass : HasClass before name fields) (classes : after.classes = before.classes ++ added) :
    HasClass after name fields := by
  obtain ⟨type, constructor, found, isConstructor, exactly⟩ := hasClass
  refine ⟨type, constructor, ?_, isConstructor, exactly⟩
  rw [classes, find?_append, found]
  rfl

/-- A client that has grown by classes. -/
structure Builds (entries : List ClassEntry) (before after : State) : Prop where
  classNames : after.classNames = before.classNames ++ entries.map (·.name)
  classOf : ∀ key, after.classOf.lookup key =
    ((lastFor entries key).map (·.name)).or (before.classOf.lookup key)
  classes : ∃ added, after.classes = before.classes ++ added ∧
    ∀ type ∈ added, type.name ∈ entries.map (·.name)
  built : ∀ entry ∈ entries, HasClass after entry.name entry.fields

theorem Builds.refl (state : State) : Builds [] state state where
  classNames := by simp
  classOf _ := rfl
  classes := ⟨[], by simp, by simp⟩
  built _ member := by cases member

theorem Builds.trans {middle : State} (buildsFirst : Builds first before middle)
    (buildsSecond : Builds second middle after) :
    Builds (first ++ second) before after := by
  obtain ⟨addedFirst, classesFirst, namedFirst⟩ := buildsFirst.classes
  obtain ⟨addedSecond, classesSecond, namedSecond⟩ := buildsSecond.classes
  constructor
  · rw [buildsSecond.classNames, buildsFirst.classNames, append_assoc, map_append]
  · intro key
    rw [buildsSecond.classOf, buildsFirst.classOf, lastFor_append]
    cases lastFor second key <;> simp
  · refine ⟨addedFirst ++ addedSecond, by rw [classesSecond, classesFirst, append_assoc], ?_⟩
    rw [map_append]
    intro type member
    rcases mem_append.mp member with isFirst | isSecond
    · exact mem_append_left _ (namedFirst type isFirst)
    · exact mem_append_right _ (namedSecond type isSecond)
  · intro entry member
    rcases mem_append.mp member with isFirst | isSecond
    · exact (buildsFirst.built entry isFirst).append classesSecond
    · exact buildsSecond.built entry isSecond

theorem Builds.listed {entries : List ClassEntry} {before after : State}
    (builds : Builds entries before after) (listed : Listed before) : Listed after := by
  obtain ⟨added, classes, named⟩ := builds.classes
  intro type member
  rw [builds.classNames]
  rw [classes] at member
  rcases mem_append.mp member with old | new
  · exact mem_append_left _ (listed type old)
  · exact mem_append_right _ (named type new)

theorem mem_keys_putMapping {label argument : String} {mappings : List (Doc × String)} {key : Doc} :
    key ∈ (Method.putMapping (.text label) argument mappings).map Prod.fst ↔
      key ∈ mappings.map Prod.fst ∨ key = .text label := by
  induction mappings with
  | nil => simp [Method.putMapping]
  | cons entry rest ih =>
    obtain ⟨name, old⟩ := entry
    rw [Method.putMapping]
    split_ifs with same
    · cases (Doc.same_text_right _ _).mp same
      simp only [map_cons, mem_cons]
      tauto
    · simp only [map_cons, mem_cons, ih]
      tauto

def State.withRecords (state : State) (entries : List ClassEntry) (classes : List ClassDef) :
    State :=
  { state with
    classNames := state.classNames ++ entries.map (·.name)
    classOf := entries.foldl (fun table entry => State.putClass entry.key entry.name table)
      state.classOf
    classes := state.classes ++ classes }

@[simp] theorem State.withRecords_nil (state : State) : state.withRecords [] [] = state := by
  simp [withRecords]

mutual

theorem returns_generateRecord {name : Doc} {before after : State} :
    ∀ definition, Returns (generateRecord name definition) before ⟨⟩ after ↔
      ∃ key, name = .text key ∧ (DataType.inline definition).Spelled ∧
        after = before.withRecords (recordEntries before.classNames key definition)
          (recordClasses before.classNames key definition)
  | ⟨fields, _, _⟩ => by
    simp only [generateRecord, returns_bind, returns_className, returns_generateFields fields,
      returns_addClass, DataType.spelled_inline, recordEntries, recordClasses]
    constructor
    · rintro ⟨_, _, ⟨key, rfl, rfl, rfl⟩, _, _, ⟨spelled, rfl, rfl⟩, rfl⟩
      refine ⟨key, rfl, spelled, ?_⟩
      simp [State.withRecords, State.withClassName, entryFor, classFor, constructorFor]
    · rintro ⟨key, rfl, spelled, rfl⟩
      refine ⟨_, _, ⟨key, rfl, rfl, rfl⟩, _, _, ⟨spelled, rfl, rfl⟩, ?_⟩
      simp [State.withRecords, State.withClassName, entryFor, classFor, constructorFor]

theorem returns_generateFields {owner : String} {constructor result : Method}
    {before after : State} :
    ∀ fields, Returns (generateFields owner constructor fields) before result after ↔
      (∀ field ∈ fields, (∃ label, field.name = .text label) ∧ field.type.Spelled) ∧
        result = fields.foldl withField constructor ∧
        after = before.withRecords (fieldEntries before.classNames owner fields)
          (fieldClasses before.classNames owner fields)
  | [] => by
    simp [generateFields, fieldEntries, fieldClasses, eq_comm]
  | ⟨.texts pieces, _, optional, type⟩ :: rest => by
    simp [generateFields, returns_lift_bind, Label.toDoc, Method.map, Method.isKey]
  | ⟨.text label, description, optional, type⟩ :: rest => by
    have named : argumentName constructor (Label.text label).toDoc =
      .ok (nextArgument constructor label) := rfl
    have mapped : (constructor.addArgument ⟨nextArgument constructor label, .null,
      optionalDefault optional⟩).map
        (Label.text label).toDoc (nextArgument constructor label) =
        .ok (declare constructor ⟨label, .null, optionalDefault optional⟩) := rfl
    simp only [generateFields, returns_lift_bind, returns_bind_unit, named, mapped, Except.ok.injEq,
      exists_eq_left', returns_generateInline label type, returns_generateFields rest, fieldEntries,
      fieldClasses]
    constructor
    · rintro ⟨_, ⟨spelled, rfl⟩, spelledRest, rfl, rfl⟩
      refine ⟨by simpa using ⟨spelled, spelledRest⟩, rfl, ?_⟩
      simp [State.withRecords, Label.toDoc, Doc.textOrEmpty]
    · rintro ⟨spelled, rfl, rfl⟩
      rw [forall_mem_cons] at spelled
      refine ⟨_, ⟨spelled.1.2, rfl⟩, spelled.2, rfl, ?_⟩
      simp [State.withRecords, Label.toDoc, Doc.textOrEmpty]

theorem returns_generateInline {owner : String} {before after : State} (label : String) :
    ∀ type, Returns (generateInline owner (.text label) type) before ⟨⟩ after ↔ type.Spelled ∧
      after = before.withRecords (inlineEntries before.classNames (owner ++ "_" ++ label) type)
        (inlineClasses before.classNames (owner ++ "_" ++ label) type)
  | .reference target link => by
    simp [generateInline, inlineEntries, inlineClasses, eq_comm]
  | .inline definition => by
    simp [generateInline, returns_lift_bind, Label.asText, returns_generateRecord definition,
      inlineEntries, inlineClasses]

end

theorem lookup_foldl_putClass (entries : List ClassEntry) (table : List (String × String))
    (key : String) :
    (entries.foldl (fun table entry => State.putClass entry.key entry.name table) table).lookup
      key = ((lastFor entries key).map (·.name)).or (table.lookup key) := by
  induction entries generalizing table with
  | nil => rfl
  | cons entry rest ih =>
    rw [foldl_cons, ih, lookup_putClass, ← singleton_append, lastFor_append]
    by_cases same : key = entry.key
    · cases lastFor rest key <;> simp [lastFor, same]
    · cases lastFor rest key <;> simp [lastFor, same, Ne.symm same]

theorem mapsExactly_constructorFor (texts : ∀ field ∈ fields, ∃ label, field.name = .text label) :
    MapsExactly (constructorFor fields) fields := by
  intro key
  induction fields using reverseRecOn with
  | nil => simp [constructorFor, Method.empty]
  | append_singleton fields field ih =>
    rw [forall_mem_append] at texts
    obtain ⟨label, named⟩ := texts.2 field (by simp)
    rw [constructorFor, foldl_append, map_append, mem_append, ← ih texts.1]
    simp [withField, declare, Method.addLine, mem_keys_putMapping, named, Label.toDoc,
      Doc.textOrEmpty, constructorFor]

@[simp] theorem constructorFor_append (fields : List Field) (field : Field) :
    constructorFor (fields ++ [field]) = withField (constructorFor fields) field := by
  simp [constructorFor]

theorem constructor?_classFor (name : String) (fields : List Field) :
    (classFor name fields).constructor? = some (constructorFor fields) := by
  have isConstructor : (constructorFor fields).name = Method.constructorName := by
    induction fields using reverseRecOn with
    | nil => rfl
    | append_singleton fields field ih =>
      rw [constructorFor_append]
      exact ih
  simp [ClassDef.constructor?, classFor, isConstructor]

theorem builds_withRecords (listed : Listed before) (inTurn : NamedInTurn before.classNames entries)
    {classes : List ClassDef} (names : (classes.map (·.name)).Perm (entries.map (·.name)))
    (stands : ∀ type ∈ classes, ∀ entry ∈ entries, type.name = entry.name →
      ∃ constructor, type.constructor? = some constructor ∧ MapsExactly constructor entry.fields) :
    Builds entries before (before.withRecords entries classes) where
  classNames := rfl
  classOf := lookup_foldl_putClass entries before.classOf
  classes := ⟨classes, rfl, fun type member => names.mem_iff.mp (mem_map_of_mem member)⟩
  built entry member := by
    have absent : before.classes.find? (fun type => type.name == entry.name) = none := by
      rw [find?_eq_none]
      intro type isOld same
      exact inTurn.not_mem entry member (beq_iff_eq.mp same ▸ listed type isOld)
    obtain ⟨type, isNew, named⟩ := mem_map.mp (names.mem_iff.mpr (mem_map_of_mem member))
    have present : (classes.find? fun type => type.name == entry.name).isSome :=
      find?_isSome.mpr ⟨type, isNew, by simp [named]⟩
    obtain ⟨first, found⟩ := Option.isSome_iff_exists.mp present
    obtain ⟨constructor, isConstructor, exactly⟩ := stands first (mem_of_find?_eq_some found)
      entry member (by simpa using find?_some found)
    exact ⟨first, constructor, by simp [State.withRecords, absent, found], isConstructor, exactly⟩

theorem exists_builds_generateRecord (listed : Listed before) (definition : TypeDef)
    (spelled : (DataType.inline definition).Spelled) :
    ∃ after, Returns (generateRecord (.text key) definition) before () after ∧
      Builds (recordEntries before.classNames key definition) before after ∧
      after.classes.getLast?.map (·.name) = some (firstFree before.classNames (classStem key)) := by
  have inTurn := namedInTurn_recordEntries before.classNames key definition spelled
  have perm := perm_recordClasses before.classNames key definition
  refine ⟨_, (returns_generateRecord definition).mpr ⟨key, rfl, spelled, rfl⟩,
    builds_withRecords listed inTurn ?_ ?_, ?_⟩
  · simpa [Function.comp_def, ClassEntry.toClass, classFor] using perm.map (·.name)
  · intro type member entry inEntries same
    obtain ⟨other, isOther, rfl⟩ := mem_map.mp (perm.mem_iff.mp member)
    cases inj_on_of_nodup_map inTurn.nodup isOther inEntries same
    exact ⟨_, constructor?_classFor _ _, mapsExactly_constructorFor (inTurn.texts entry inEntries)⟩
  · obtain ⟨fields, constraints, description⟩ := definition
    simp [State.withRecords, recordClasses, classFor]

end Client

end ApiDescription
