import ApiDescription.Proofs.ClassEntries

/-!
# The table of classes

A class name is asked for under a key: the name of a data type, or the key of the type around it and
the name of the field for a type that is written on the spot.  The functions that write and read
values look a class up by that key.  They find it when nothing else was given a class under the key
later on, and, for a type written on the spot, when the class around it goes by its key.

`recordRequests` lists what generating a record type asks for.  Where the names are kept, generating
it returns, and the table has what the functions will look up.
-/

namespace ApiDescription

open Outcome List

namespace Client

open Code (ClassDef Method)

variable {key : String} {first second : List ClassRequest} {fields : List Field}

/-! ## Requests for class names -/

/-- A class name that is asked for under a key: whether it is for a record, and whether some field
of that has a type written on the spot. -/
structure ClassRequest where
  key : String
  isRecord : Bool
  nests : Bool

def isInline : DataType → Bool
  | .reference _ _ => false
  | .inline _ => true

mutual

/-- What generating a record type under a key asks for. -/
def recordRequests (key : String) : TypeDef → List ClassRequest
  | ⟨fields, _, _⟩ =>
    ⟨key, true, fields.any fun field => isInline field.type⟩ :: fieldRequests key fields

def fieldRequests (key : String) : List Field → List ClassRequest
  | [] => []
  | ⟨name, _, _, type⟩ :: rest =>
    inlineRequests (key ++ "_" ++ name.toDoc.textOrEmpty) type ++ fieldRequests key rest

/-- What a type asks for when it is written on the spot. -/
def inlineRequests (key : String) : DataType → List ClassRequest
  | .reference _ _ => []
  | .inline definition => recordRequests key definition

end

/-- The class names that requests are given, one after another. -/
def givenNames (taken : List String) : List ClassRequest → List String
  | [] => []
  | request :: rest =>
    let name := firstFree taken (classStem request.key)
    name :: givenNames (taken ++ [name]) rest

/-- Every request that has types written on the spot is given its key. -/
def Kept (taken : List String) : List ClassRequest → Prop
  | [] => True
  | request :: rest =>
    let name := firstFree taken (classStem request.key)
    (request.nests = true → name = request.key) ∧ Kept (taken ++ [name]) rest

instance Kept.decidable (taken : List String) : (requests : List ClassRequest) →
    Decidable (Kept taken requests)
  | [] => .isTrue trivial
  | request :: rest =>
    have := Kept.decidable (taken ++ [firstFree taken (classStem request.key)]) rest
    inferInstanceAs (Decidable (_ ∧ _))

def Distinct (requests : List ClassRequest) : Prop :=
  requests.Pairwise fun earlier later => earlier.isRecord = true → later.key ≠ earlier.key

instance (requests : List ClassRequest) : Decidable (Distinct requests) :=
  inferInstanceAs (Decidable (requests.Pairwise _))

def Apart (first second : List ClassRequest) : Prop :=
  ∀ earlier ∈ first, ∀ later ∈ second, earlier.isRecord = true → later.key ≠ earlier.key

instance (first second : List ClassRequest) : Decidable (Apart first second) :=
  inferInstanceAs (Decidable (∀ earlier ∈ first, _))

theorem distinct_append :
    Distinct (first ++ second) ↔ Distinct first ∧ Distinct second ∧ Apart first second :=
  pairwise_append

theorem givenNames_append (taken : List String) (first second : List ClassRequest) :
    givenNames taken (first ++ second) =
      givenNames taken first ++ givenNames (taken ++ givenNames taken first) second := by
  induction first generalizing taken with
  | nil => simp [givenNames]
  | cons request rest ih => simp [givenNames, ih]

variable {taken : List String} {state before after : State} {label : String} {field : Field}
  {added : List ClassDef}

theorem kept_append :
    Kept taken (first ++ second) ↔
      Kept taken first ∧ Kept (taken ++ givenNames taken first) second := by
  induction first generalizing taken with
  | nil => simp [Kept, givenNames]
  | cons request rest ih => simp [Kept, givenNames, ih, and_assoc]

/-! ## What generating classes changes -/

/-- A client that has grown by the classes that were asked for: other keys lead where they did. -/
structure Grown (requests : List ClassRequest) (before after : State) : Prop where
  classNames : after.classNames = before.classNames ++ givenNames before.classNames requests
  classOf : ∀ key, (∀ request ∈ requests, request.key ≠ key) →
    after.classOf.lookup key = before.classOf.lookup key
  classes : ∃ added, after.classes = before.classes ++ added ∧
    ∀ type ∈ added, type.name ∈ givenNames before.classNames requests

theorem Grown.listed {requests : List ClassRequest} {before after : State}
    (grown : Grown requests before after) (listed : Listed before) : Listed after := by
  obtain ⟨added, classes, named⟩ := grown.classes
  intro type member
  rw [grown.classNames]
  rw [classes] at member
  rcases mem_append.mp member with old | new
  · exact mem_append_left _ (listed type old)
  · exact mem_append_right _ (named type new)

theorem grown_withClassName (request : ClassRequest) (state : State) : Grown [request] state
      (state.withClassName request.key (firstFree state.classNames (classStem request.key))) where
  classNames := rfl
  classOf key unused := by
    rw [State.withClassName, lookup_putClass, if_neg]
    rintro rfl
    exact unused request mem_cons_self rfl
  classes := ⟨[], by simp [State.withClassName], by simp⟩

/-! ## What the table has for a record -/

/-- The table has a class for a record type under a key, with an argument for every field, and so
for the types of fields that are written on the spot. -/
inductive Tabled (state : State) : String → List Field → Prop
  | intro {key className : String} {fields : List Field}
      (found : state.classOf.lookup key = some className)
      (parameters : ∀ field ∈ fields, ∃ label parameter, field.name = .text label ∧
        state.parameter (.text key) (.text label) = .ok (some parameter))
      (inner : ∀ field ∈ fields, ∀ definition label, field.type = .inline definition →
        field.name = .text label → Tabled state (key ++ "_" ++ label) definition.fields) :
      Tabled state key fields

theorem Tabled.exists_className (table : Tabled state key fields) :
    ∃ className, state.className (.text key) = .ok className := by
  cases table with
  | @intro _ className _ found _ _ => exact ⟨className, by rw [State.className, found]⟩

theorem recordRequests_eq (key : String) (definition : TypeDef) :
    recordRequests key definition =
      ⟨key, true, definition.fields.any fun field => isInline field.type⟩ ::
        fieldRequests key definition.fields := by
  obtain ⟨fields, constraints, description⟩ := definition
  rw [recordRequests]

theorem inlineRequests_subset (declared : field ∈ fields) (named : field.name = .text label) :
    inlineRequests (key ++ "_" ++ label) field.type ⊆ fieldRequests key fields := by
  induction fields with
  | nil => cases declared
  | cons first rest ih =>
    obtain ⟨name, description, optional, type⟩ := first
    rw [fieldRequests]
    cases declared with
    | head =>
      subst named
      exact subset_append_left _ _
    | tail _ later => exact subset_append_of_subset_right _ (ih later)

theorem parameter_of_grows {parameter : String} {name : Doc}
    (classes : after.classes = before.classes ++ added)
    (same : after.classOf.lookup key = before.classOf.lookup key)
    (found : before.parameter (.text key) name = .ok (some parameter)) :
    after.parameter (.text key) name = .ok (some parameter) := by
  obtain ⟨className, isClass, found⟩ := bind_eq_ok.mp found
  have sameClass : after.className (.text key) = .ok className := by
    rw [← isClass]
    simp only [State.className, same]
  rw [State.parameter, sameClass, ok_bind, classes, find?_append]
  cases isFound : before.classes.find? fun type => type.name == className with
  | none =>
    simp only [isFound] at found
    cases found
  | some type =>
    simp only [isFound] at found
    exact found

theorem Tabled.mono (table : Tabled before key fields)
    (classes : after.classes = before.classes ++ added)
    (own : after.classOf.lookup key = before.classOf.lookup key)
    (below : ∀ request ∈ fieldRequests key fields,
      request.isRecord = true →
      after.classOf.lookup request.key = before.classOf.lookup request.key) :
    Tabled after key fields := by
  induction table with
  | @intro key className fields found parameters inner ih =>
    refine .intro (own.trans found) (fun field declared => ?_) ?_
    · obtain ⟨label, parameter, named, isFound⟩ := parameters field declared
      exact ⟨label, parameter, named, parameter_of_grows classes own isFound⟩
    · intro field declared definition label isInline named
      have asked : inlineRequests (key ++ "_" ++ label) field.type ⊆ fieldRequests key fields :=
        inlineRequests_subset declared named
      rw [isInline, inlineRequests, recordRequests_eq, cons_subset] at asked
      apply ih field declared definition label isInline named
      · exact below _ asked.1 rfl
      · intro request member
        exact below request (asked.2 member)

/-- The table keeps what it has for a record while later requests use other keys. -/
theorem Tabled.grown {before after : State} {key : String} {definition : TypeDef}
    {requests : List ClassRequest} (table : Tabled before key definition.fields)
    (grown : Grown requests before after) (apart : Apart (recordRequests key definition) requests) :
    Tabled after key definition.fields := by
  obtain ⟨added, classes, -⟩ := grown.classes
  rw [recordRequests_eq] at apart
  apply table.mono classes
  · apply grown.classOf
    intro later member
    exact apart _ mem_cons_self later member rfl
  · intro request asked isRecord
    apply grown.classOf
    intro later member
    exact apart request (mem_cons_of_mem _ asked) later member isRecord

/-! ## Generating classes returns -/

/-- A client in which classes stand in the table under their keys. -/
def HasClasses (state : State) (entries : List ClassEntry) : Prop :=
  ∀ entry ∈ entries, state.classOf.lookup entry.key = some entry.name ∧
    HasClass state entry.name entry.fields

theorem HasClass.exists_parameter {className : String} (hasClass : HasClass state className fields)
    (found : state.classOf.lookup key = some className) (declared : field ∈ fields)
    (named : field.name = .text label) :
    ∃ parameter, state.parameter (.text key) (.text label) = .ok (some parameter) := by
  obtain ⟨type, constructor, isClass, isConstructor, exactly⟩ := hasClass
  have isKey : Doc.text label ∈ constructor.mappings.map Prod.fst :=
    (exactly _).mpr (mem_map.mpr ⟨field, declared, by rw [named]; rfl⟩)
  obtain ⟨⟨_, argument⟩, isEntry, rfl⟩ := mem_map.mp isKey
  obtain ⟨parameter, isMapped⟩ : ∃ parameter,
      mapped constructor.mappings label = some parameter := by
    rw [← Option.isSome_iff_exists, mapped, Option.isSome_map, find?_isSome]
    exact ⟨_, isEntry, by simp⟩
  refine ⟨parameter, ?_⟩
  simp only [State.parameter, State.className, found, ok_bind, isClass, isConstructor,
    mapping_text, isMapped, pure_eq_ok]

/-- Classes under the keys and the names of requests. -/
structure Answers (taken : List String) (requests : List ClassRequest) (entries : List ClassEntry) :
    Prop where
  keys : entries.map (·.key) = requests.map (·.key)
  names : entries.map (·.name) = givenNames taken requests

theorem Answers.append {firstEntries secondEntries : List ClassEntry}
    (answersFirst : Answers taken first firstEntries)
    (answersSecond : Answers (taken ++ givenNames taken first) second secondEntries) :
    Answers taken (first ++ second) (firstEntries ++ secondEntries) where
  keys := by simp [answersFirst.keys, answersSecond.keys]
  names := by simp [answersFirst.names, answersSecond.names, givenNames_append]

mutual

theorem answers_recordEntries {taken : List String} {key : String} : (definition : TypeDef) →
    (DataType.inline definition).Spelled → Kept taken (recordRequests key definition) →
      Answers taken (recordRequests key definition) (recordEntries taken key definition) ∧
        ∀ state, HasClasses state (recordEntries taken key definition) →
          Tabled state key definition.fields
  | ⟨fields, _, _⟩, spelled, kept => by
    rw [DataType.spelled_inline] at spelled
    rw [recordRequests] at kept ⊢
    rw [recordEntries]
    have isKey : (∃ field ∈ fields, isInline field.type = true) →
        firstFree taken (classStem key) = key := by
      rw [← any_eq_true]
      exact kept.1
    obtain ⟨answers, inner⟩ := answers_fieldEntries fields spelled isKey kept.2
    refine ⟨⟨congrArg _ answers.keys, congrArg _ answers.names⟩, fun state hasClasses => ?_⟩
    obtain ⟨⟨found, hasClass⟩, others⟩ := forall_mem_cons.mp hasClasses
    refine .intro found (fun field declared => ?_) (inner state others)
    obtain ⟨label, named⟩ := (spelled field declared).1
    obtain ⟨parameter, isFound⟩ := hasClass.exists_parameter found declared named
    exact ⟨label, parameter, named, isFound⟩

theorem answers_fieldEntries {taken : List String} {owner key : String} : (fields : List Field) →
    (∀ field ∈ fields, (∃ label, field.name = .text label) ∧ field.type.Spelled) →
    ((∃ field ∈ fields, isInline field.type = true) → owner = key) →
    Kept taken (fieldRequests key fields) →
      Answers taken (fieldRequests key fields) (fieldEntries taken owner fields) ∧
        ∀ state, HasClasses state (fieldEntries taken owner fields) →
          ∀ field ∈ fields, ∀ definition label, field.type = .inline definition →
            field.name = .text label → Tabled state (key ++ "_" ++ label) definition.fields
  | [], _, _, _ => ⟨⟨rfl, rfl⟩, by simp⟩
  | ⟨name, description, optional, type⟩ :: rest, spelled, isKey, kept => by
    rw [forall_mem_cons] at spelled
    obtain ⟨⟨⟨label, rfl⟩, typeSpelled⟩, restSpelled⟩ := spelled
    rw [fieldRequests, Label.toDoc, Doc.textOrEmpty, kept_append] at kept
    rw [fieldRequests, fieldEntries, Label.toDoc, Doc.textOrEmpty]
    obtain ⟨answers, table⟩ := answers_inlineEntries type typeSpelled
      (fun isInline => isKey ⟨_, mem_cons_self, isInline⟩) kept.1
    rw [answers.names]
    obtain ⟨answersRest, tables⟩ := answers_fieldEntries rest restSpelled
      (fun ⟨field, declared, isInline⟩ => isKey ⟨field, mem_cons_of_mem _ declared, isInline⟩)
        kept.2
    refine ⟨answers.append answersRest, fun state hasClasses field declared definition fieldLabel
      isInline named => ?_⟩
    rw [HasClasses, forall_mem_append] at hasClasses
    rcases mem_cons.mp declared with rfl | later
    · cases named
      exact table definition isInline state hasClasses.1
    · exact tables state hasClasses.2 field later definition fieldLabel isInline named

theorem answers_inlineEntries {taken : List String} {owner key label : String} : (type : DataType) →
    type.Spelled → (isInline type = true → owner = key) →
    Kept taken (inlineRequests (key ++ "_" ++ label) type) →
    Answers taken (inlineRequests (key ++ "_" ++ label) type)
          (inlineEntries taken (owner ++ "_" ++ label) type) ∧
        ∀ definition, type = .inline definition → ∀ state,
          HasClasses state (inlineEntries taken (owner ++ "_" ++ label) type) →
            Tabled state (key ++ "_" ++ label) definition.fields
  | .reference _ _, _, _, _ => ⟨⟨rfl, rfl⟩, by simp⟩
  | .inline definition, spelled, isKey, kept => by
    rw [isKey rfl]
    obtain ⟨answers, table⟩ := answers_recordEntries definition spelled kept
    refine ⟨answers, ?_⟩
    rintro _ ⟨⟩
    exact table

end

theorem lastFor_of_pairwise {entries : List ClassEntry}
    (distinct : entries.Pairwise fun earlier later => later.key ≠ earlier.key) {entry : ClassEntry}
    (member : entry ∈ entries) : lastFor entries entry.key = some entry := by
  induction entries with
  | nil => cases member
  | cons first rest ih =>
    rw [pairwise_cons] at distinct
    rw [← singleton_append, lastFor_append]
    rcases mem_cons.mp member with rfl | later
    · rw [lastFor_eq_none.mpr distinct.1]
      simp [lastFor]
    · rw [ih distinct.2 later, Option.some_or]

mutual

theorem isRecord_of_mem_recordRequests {key : String} {request : ClassRequest} :
    (definition : TypeDef) →
    request ∈ recordRequests key definition → request.isRecord = true
  | ⟨fields, _, _⟩, asked => by
    rw [recordRequests] at asked
    rcases mem_cons.mp asked with rfl | inFields
    · rfl
    · exact isRecord_of_mem_fieldRequests fields inFields

theorem isRecord_of_mem_fieldRequests {key : String} {request : ClassRequest} :
    (fields : List Field) →
    request ∈ fieldRequests key fields → request.isRecord = true
  | ⟨name, _, _, .reference _ _⟩ :: rest, asked => isRecord_of_mem_fieldRequests rest asked
  | ⟨name, _, _, .inline definition⟩ :: rest, asked => by
    rw [fieldRequests, inlineRequests] at asked
    exact (mem_append.mp asked).elim (isRecord_of_mem_recordRequests definition)
      (isRecord_of_mem_fieldRequests rest)

end

theorem exists_returns_generateRecord (listed : Listed before) {definition : TypeDef}
    (spelled : (DataType.inline definition).Spelled)
    (kept : Kept before.classNames (recordRequests key definition))
    (distinct : Distinct (recordRequests key definition)) :
    ∃ after, Returns (generateRecord (.text key) definition) before () after ∧
      Grown (recordRequests key definition) before after ∧ Tabled after key definition.fields := by
  obtain ⟨after, ran, builds, -⟩ := exists_builds_generateRecord listed definition spelled
  obtain ⟨answers, tabled⟩ := answers_recordEntries definition spelled kept
  have keys : ((recordRequests key definition).map (·.key)).Pairwise fun earlier later => later ≠
      earlier :=
    pairwise_map.mpr <| distinct.imp_of_mem fun isEarlier _ differ =>
      differ (isRecord_of_mem_recordRequests definition isEarlier)
  rw [← answers.keys, pairwise_map] at keys
  refine ⟨after, ran, ⟨?_, fun other unused => ?_, ?_⟩, tabled after fun entry member => ⟨?_, ?_⟩⟩
  · rw [builds.classNames, answers.names]
  · rw [builds.classOf, lastFor_eq_none.mpr]
    · rfl
    · intro entry member same
      have isKey : entry.key ∈ (recordRequests key definition).map (·.key) :=
        answers.keys ▸ mem_map_of_mem member
      obtain ⟨request, asked, isRequest⟩ := mem_map.mp isKey
      exact unused request asked (isRequest.trans same)
  · rw [← answers.names]
    exact builds.classes
  · rw [builds.classOf, lastFor_of_pairwise keys member]
    rfl
  · exact builds.built entry member

/-! ## The table along a run -/

/-- Requests that can follow others: names are kept, and the keys of records are not used again. -/
@[mk_iff] structure Admissible (done requests : List ClassRequest) : Prop where
  kept : Kept (givenNames [] done) requests
  distinct : Distinct requests
  apart : Apart done requests

instance (done requests : List ClassRequest) : Decidable (Admissible done requests) :=
  decidable_of_iff _ (admissible_iff done requests).symm

theorem admissible_append {done : List ClassRequest} :
    Admissible done (first ++ second) ↔
      Admissible done first ∧ Admissible (done ++ first) second := by
  have names : givenNames [] (done ++ first) =
      givenNames [] done ++ givenNames (givenNames [] done) first := by
    rw [givenNames_append, nil_append]
  constructor
  · rintro ⟨kept, distinct, apart⟩
    rw [kept_append] at kept
    rw [distinct_append] at distinct
    refine ⟨⟨kept.1, distinct.1, ?_⟩, ⟨by rw [names]; exact kept.2, distinct.2.1, ?_⟩⟩
    · intro earlier isEarlier later isLater
      exact apart earlier isEarlier later (mem_append_left _ isLater)
    · intro earlier isEarlier later isLater
      rcases mem_append.mp isEarlier with isDone | isFirst
      · exact apart earlier isDone later (mem_append_right _ isLater)
      · exact distinct.2.2 earlier isFirst later isLater
  · rintro ⟨⟨keptFirst, distinctFirst, apartFirst⟩, ⟨keptSecond, distinctSecond, apartSecond⟩⟩
    rw [names] at keptSecond
    refine ⟨kept_append.mpr ⟨keptFirst, keptSecond⟩,
      distinct_append.mpr ⟨distinctFirst, distinctSecond, ?_⟩, ?_⟩
    · intro earlier isEarlier
      exact apartSecond earlier (mem_append_right _ isEarlier)
    · intro earlier isEarlier later isLater
      rcases mem_append.mp isLater with isFirst | isSecond
      · exact apartFirst earlier isEarlier later isFirst
      · exact apartSecond earlier (mem_append_left _ isEarlier) later isSecond

/-- A client for which class names were asked for, with data types in its table. -/
structure Ready (types : List NamedTypeDef) (done : List ClassRequest) (state : State) : Prop where
  classNames : state.classNames = givenNames [] done
  listed : Listed state
  tables : ∀ type ∈ types, ∃ key, type.name = .text key ∧ recordRequests key type.definition ⊆
    done ∧
    Tabled state key type.definition.fields

variable {types : List NamedTypeDef} {done requests : List ClassRequest} {before after : State}

theorem ready_empty : Ready [] [] State.empty where
  classNames := rfl
  listed _ member := by cases member
  tables _ member := by cases member

theorem Ready.grown (ready : Ready types done before) (grown : Grown requests before after)
    (apart : Apart done requests) : Ready types (done ++ requests) after where
  classNames := by rw [grown.classNames, ready.classNames, givenNames_append, nil_append]
  listed := grown.listed ready.listed
  tables type member := by
    obtain ⟨key, isText, asked, table⟩ := ready.tables type member
    refine ⟨key, isText, subset_append_of_subset_left _ asked, table.grown grown ?_⟩
    intro earlier isEarlier
    exact apart earlier (asked isEarlier)

theorem Ready.functions (ready : Ready types done before) (functions : List Method) :
    Ready types done { before with functions } where
  classNames := ready.classNames
  listed := ready.listed
  tables type member := by
    obtain ⟨key, isText, asked, table⟩ := ready.tables type member
    refine ⟨key, isText, asked, table.mono (append_nil _).symm rfl ?_⟩
    intro request _ _
    rfl

theorem yields_className {request : ClassRequest} (types : List NamedTypeDef)
    (admissible : Admissible done [request]) :
    Yields (Ready types done) (Build.className (.text request.key)) fun name after =>
      name ∈ after.classNames ∧ Ready types (done ++ [request]) after := by
  intro before ready
  refine ⟨_, _, returns_className.mpr ⟨request.key, rfl, rfl, rfl⟩, ?_,
    ready.grown (grown_withClassName request before) admissible.apart⟩
  simp [State.withClassName]

theorem yields_addClass (type : ClassDef) :
    Yields (fun state => type.name ∈ state.classNames ∧ Ready types done state)
      (Build.addClass type) fun _ =>
      Ready types done := by
  rintro before ⟨named, ready⟩
  refine ⟨⟨⟩, _, returns_addClass.mpr rfl, ready.classNames, ?_, ?_⟩
  · intro other member
    rcases mem_append.mp member with old | new
    · exact ready.listed other old
    · rw [mem_singleton.mp new]
      exact named
  · intro dataType member
    obtain ⟨key, isText, asked, table⟩ := ready.tables dataType member
    refine ⟨key, isText, asked, table.mono rfl rfl ?_⟩
    intro request _ _
    rfl

theorem exists_returns_generateDataType (ready : Ready types done before) {type : NamedTypeDef}
    (isText : type.name = .text key) (spelled : (DataType.inline type.definition).Spelled)
    (admissible : Admissible done (recordRequests key type.definition)) :
    ∃ after, Returns (generateDataType type) before () after ∧
      Ready types (done ++ recordRequests key type.definition) after ∧
      Tabled after key type.definition.fields := by
  have kept := admissible.kept
  rw [← ready.classNames] at kept
  obtain ⟨after, ran, grown, table⟩ :=
    exists_returns_generateRecord ready.listed spelled kept admissible.distinct
  refine ⟨after, ?_, ready.grown grown admissible.apart, table⟩
  rw [generateDataType, isText]
  exact ran

end Client

end ApiDescription
