import ApiDescription.Proofs.ClassPlan

/-!
# What functions look up among the classes

The functions that write and read a data type are generated from the table of classes: the name of a
record is looked up there, and so is the constructor argument for each of its fields.  A type that
is written on the spot is looked up under the name of the type around it, while its class was named
after the class around it.

`Codec.Consults` says which records are looked up: functions depend on nothing else in the table,
and are generated only if all of it is there.  A record has its class exactly if the last class
under its key was made for the same fields.
-/

namespace ApiDescription.Client

open Outcome

open Code (Method)
open Relation (ReflTransGen)

namespace Codec

variable {state other : State} {api : Api}

variable {part schema : Schema} {record type : NamedTypeDef}
  {functionsFor othersFor : Option Schema → Except Fault (List Method)} {fuel : Nat}
  {functions : List Method}

/-! ## Records that are looked up -/

/-- A type whose reading functions come along with those of a type.  What is read as it is needs no
others. -/
def ReadingNeeds (api : Api) (schema part : Schema) : Prop :=
  Needs api .json schema part ∧ ∀ type, schema = .named type → isReadAsRecord type = true

/-- A record whose arguments are looked up for the functions that write a type. -/
def WritingConsults (api : Api) (schema : Schema) (record : NamedTypeDef) : Prop :=
  ReflTransGen (Needs api .json) schema (.named record) ∧ record.definition.fields ≠ []

/-- A record whose class is looked up for the functions that read a type. -/
def ReadingConsults (api : Api) (schema : Schema) (record : NamedTypeDef) : Prop :=
  ReflTransGen (ReadingNeeds api) schema (.named record) ∧ isReadAsRecord record = true

/-- A record that is looked up for the functions of a type. -/
def Consults (api : Api) (schema : Schema) (record : NamedTypeDef) : Prop :=
  WritingConsults api schema record ∨ ReadingConsults api schema record

theorem Needs.reading {target : TypeRef} (needs : Needs api .json (.reference target) part) :
    ReadingNeeds api (.reference target) part := by
  refine ⟨needs, ?_⟩
  intro type isNamed
  cases isNamed

theorem WritingConsults.head (consults : WritingConsults api part record)
    (needs : Needs api .json schema part) :
    WritingConsults api schema record :=
  ⟨.head needs consults.1, consults.2⟩

theorem ReadingConsults.head (consults : ReadingConsults api part record)
    (needs : ReadingNeeds api schema part) :
    ReadingConsults api schema record :=
  ⟨.head needs consults.1, consults.2⟩

theorem recordReaders_congr_of_not_record (name : String) (isPlain : isReadAsRecord type = false) :
    recordReaders other othersFor name type = recordReaders state functionsFor name type := by
  obtain ⟨result, -, whole⟩ := exists_of_not_record name isPlain
  rw [whole, whole]

/-! ## Functions depend on nothing else -/

/-- Two clients give the same answers about a type name. -/
structure SameAnswers (state other : State) (name : Doc) : Prop where
  className : other.className name = state.className name
  parameter : ∀ key, other.parameter name key = state.parameter name key

theorem fieldPart_congr {owner : Doc} {field : Field}
    (parameter : other.parameter owner field.name.toDoc = state.parameter owner field.name.toDoc)
    (inner : isPlain field.type = false → ∀ part, fieldSchema .json owner field = .ok part →
      othersFor (some part) = functionsFor (some part)) :
    fieldPart other .json othersFor owner field = fieldPart state .json functionsFor owner
      field := by
  have handed : handOver .json othersFor owner field = handOver .json functionsFor owner field := by
    unfold handOver
    cases plain : isPlain field.type with
    | true => rfl
    | false =>
      cases found : fieldSchema .json owner field with
      | error fault => rfl
      | ok part => simp only [ok_bind, inner plain part found]
  rw [fieldPart, parameter, handed]
  rfl

theorem fieldParts_congr (parameters : ∀ field ∈ type.definition.fields,
      other.parameter type.name field.name.toDoc = state.parameter type.name field.name.toDoc)
    (inner : ∀ part, Needs api .json (.named type) part →
      othersFor (some part) = functionsFor (some part)) :
    type.definition.fields.mapM (fieldPart other .json othersFor type.name) =
      type.definition.fields.mapM (fieldPart state .json functionsFor type.name) :=
  mapM_congr fun field declared => fieldPart_congr (parameters field declared)
    fun composed part found =>
    inner part (.part (.field declared composed found))

/-- The functions that write a type depend on the records that they look up, and on no other
class. -/
theorem writersWithin_congr
    (same : ∀ record, WritingConsults api schema record → SameAnswers state other record.name) :
    writersWithin other api .json fuel (some schema) = writersWithin state api .json fuel
      (some schema) := by
  induction fuel generalizing schema with
  | zero => rfl
  | succ fuel ih =>
    have inner : ∀ part, Needs api .json schema part →
        writersWithin other api .json fuel (some part) = writersWithin state api .json fuel
          (some part) :=
      fun part needs => ih fun record consults => same record (consults.head needs)
    have own : ∀ name, writersFor other api .json (writersWithin other api .json fuel) name
      (some schema) =
        writersFor state api .json (writersWithin state api .json fuel) name (some schema) := by
      intro name
      match schema with
      | .anonymous _ | .reference (.primitive _) | .reference (.container _ (.primitive _)) => rfl
      | .reference (.container kind (.custom item)) =>
        simp only [writersFor, inner _ (.part (.item (by simp)))]
      | .reference (.container kind (.container innerKind item)) =>
        simp only [writersFor, inner _ (.part (.item (by simp)))]
      | .reference (.custom target) =>
        rw [writersFor, writersFor]
        cases found : api.lookup target with
        | none => cases fuel <;> rfl
        | some next => exact inner next (.target found)
      | .named type =>
        have parts := fieldParts_congr (fun field declared =>
          (same type ⟨.refl, List.ne_nil_of_mem declared⟩).parameter field.name.toDoc) inner
        simp only [writersFor, parts]
    simp only [writersWithin, own]

theorem readersWithin_congr
    (same : ∀ record, ReadingConsults api schema record → SameAnswers state other record.name) :
    readersWithin other api fuel (some schema) = readersWithin state api fuel (some schema) := by
  induction fuel generalizing schema with
  | zero => rfl
  | succ fuel ih =>
    have inner : ∀ part, ReadingNeeds api schema part →
        readersWithin other api fuel (some part) = readersWithin state api fuel (some part) :=
      fun part needs => ih fun record consults => same record (consults.head needs)
    have own : ∀ name, readersFor other api (readersWithin other api fuel) name (some schema) =
        readersFor state api (readersWithin state api fuel) name (some schema) := by
      intro name
      match schema with
      | .anonymous _ | .reference (.primitive _) | .reference (.container _ (.primitive _)) => rfl
      | .reference (.container kind (.custom item)) =>
        simp only [readersFor, inner _ (Needs.part (.item (by simp))).reading]
      | .reference (.container kind (.container innerKind item)) =>
        simp only [readersFor, inner _ (Needs.part (.item (by simp))).reading]
      | .reference (.custom target) =>
        rw [readersFor, readersFor]
        cases found : api.lookup target with
        | none => cases fuel <;> rfl
        | some next => exact inner next (Needs.target found).reading
      | .named type =>
        rw [readersFor, readersFor]
        cases isRecord : isReadAsRecord type with
        | false => exact recordReaders_congr_of_not_record name isRecord
        | true =>
          have answers := same type ⟨.refl, isRecord⟩
          have parts := fieldParts_congr (fun field _ => answers.parameter field.name.toDoc)
            fun part needs => inner part ⟨needs, by rintro _ ⟨⟩; exact isRecord⟩
          rw [recordReaders_eq _ _ isRecord, recordReaders_eq _ _ isRecord, answers.className,
            parts]
    simp only [readersWithin, own]

/-! ## Functions need all of it -/

theorem exists_className_of_parameter {name key : Doc} {parameter : Option String}
    (found : state.parameter name key = .ok parameter) :
    ∃ className, state.className name = .ok className := by
  obtain ⟨className, isClass, -⟩ := bind_eq_ok.mp found
  exact ⟨className, isClass⟩

theorem exists_className_of_writersWithin
    (generated : writersWithin state api .json fuel (some schema) = .ok functions)
    (consults : WritingConsults api schema record) :
    ∃ className, state.className record.name = .ok className := by
  obtain ⟨reached, some⟩ := consults
  obtain ⟨field, declared⟩ := List.exists_mem_of_ne_nil _ some
  rcases (cover_of_writersWithin generated).complete _ reached
    with ⟨name, ⟨⟩⟩ | ⟨function, -, writer⟩
  obtain ⟨name, parts, -, described⟩ := writer.exists_parts
  obtain ⟨part, -, describes⟩ := exists_result_of_mem described declared
  exact exists_className_of_parameter describes.parameter

theorem exists_readers_of_needs
    (generated : readersWithin state api (fuel + 1) (some schema) = .ok functions)
    (needs : ReadingNeeds api schema part) :
    ∃ inner, readersWithin state api fuel (some part) = .ok inner := by
  obtain ⟨name, -, own⟩ := bind_eq_ok.mp generated
  obtain ⟨needs, isRead⟩ := needs
  cases needs with
  | target found =>
    rw [readersFor, found] at own
    exact ⟨functions, own⟩
  | part handed =>
    rcases exists_of_readersFor own with
      ⟨_, rfl, -⟩ | ⟨_, _, -, parts | ⟨-, type, rfl, isWhole⟩, -⟩
    · cases handed
    · obtain ⟨inner, -, generatedInner⟩ := parts.complete part handed
      exact ⟨inner, generatedInner⟩
    · rw [isRead type rfl] at isWhole
      cases isWhole

theorem exists_className_of_readersWithin
    (generated : readersWithin state api fuel (some schema) = .ok functions)
    (consults : ReadingConsults api schema record) :
    ∃ className, state.className record.name = .ok className := by
  induction fuel generalizing schema functions with
  | zero => cases generated
  | succ fuel ih =>
    obtain ⟨reached, isRecord⟩ := consults
    rcases reached.cases_head with rfl | ⟨next, needs, later⟩
    · obtain ⟨name, -, own⟩ := bind_eq_ok.mp generated
      rw [readersFor, recordReaders_eq _ _ isRecord] at own
      obtain ⟨className, isClass, -⟩ := bind_eq_ok.mp own
      exact ⟨className, isClass⟩
    · obtain ⟨inner, generatedInner⟩ := exists_readers_of_needs generated needs
      exact ih generatedInner ⟨later, isRecord⟩

/-- What the functions of a type take from the table: what the records that they look up have there,
and nothing else; a name that is missing stops them. -/
structure RestsOnConsulted (state : State) (api : Api) (schema : Schema) : Prop where
  alone : ∀ other, (∀ record, Consults api schema record → SameAnswers state other record.name) →
    json.writers other api (some schema) = json.writers state api (some schema) ∧
      json.readers other api (some schema) = json.readers state api (some schema)
  written : ∀ functions, json.writers state api (some schema) = .ok functions →
    ∀ record, WritingConsults api schema record → ∃ className,
      state.className record.name = .ok className
  read : ∀ functions, json.readers state api (some schema) = .ok functions →
    ∀ record, ReadingConsults api schema record → ∃ className,
      state.className record.name = .ok className

theorem restsOnConsulted (state : State) (api : Api) (schema : Schema) :
    RestsOnConsulted state api schema where
  alone _ same := ⟨writersWithin_congr fun record consults => same record (.inl consults),
    readersWithin_congr fun record consults => same record (.inr consults)⟩
  written _ generated _ consults := exists_className_of_writersWithin generated consults
  read _ generated _ consults := exists_className_of_readersWithin generated consults

theorem exists_key_of_needs (texts : ∀ type ∈ api.dataTypes, ∃ key, type.name = .text key)
    (needs : Needs api .json schema (.named record)) :
    ∃ key, record.name = .text key := by
  cases needs with
  | target found =>
    rcases Api.dataType?_of_lookup found with isType | ⟨rfl, -⟩
    · exact texts record (List.mem_of_find?_eq_some isType)
    · exact ⟨TypeRef.apiName, rfl⟩
  | part handed =>
    generalize isPart : Schema.named record = part at handed
    cases handed with
    | item => cases isPart
    | field declared composed found =>
      rcases exists_of_fieldSchema found with
        ⟨target, link, -, rfl⟩ | ⟨definition, key, label, -, -, -, rfl⟩
      · cases isPart
      · cases isPart
        exact ⟨key ++ "_" ++ label, rfl⟩

/-- Where data types go by texts, so does every record that is looked up for their functions. -/
theorem Consults.exists_key (texts : ∀ type ∈ api.dataTypes, ∃ key, type.name = .text key)
    (declared : type ∈ api.dataTypes) (consults : Consults api (.named type) record) :
    ∃ key, record.name = .text key := by
  have reached : ReflTransGen (Needs api .json) (.named type) (.named record) := by
    rcases consults with ⟨reached, -⟩ | ⟨reached, -⟩
    · exact reached
    · exact ReflTransGen.mono (fun _ _ => And.left) _ _ reached
  rcases reached.cases_tail with same | ⟨before, -, needs⟩
  · cases same
    exact texts _ declared
  · exact exists_key_of_needs texts needs

end Codec

/-! ## Agreement -/

def SameNames (first second : List Field) : Prop :=
  ∀ name, name ∈ first.map (fun field => field.name.toDoc) ↔
    name ∈ second.map fun field => field.name.toDoc

/-- The table leads from a key to a class with a constructor for exactly the fields. -/
def AgreesOn (state : State) (key : String) (fields : List Field) : Prop :=
  ∃ className, state.classOf.lookup key = some className ∧ HasClass state className fields

variable {first second : List Field} {state : State}

theorem MapsExactly.congr {constructor : Method} (exactly : MapsExactly constructor first) :
    MapsExactly constructor second ↔ SameNames first second :=
  forall_congr' fun name => by rw [exactly name]

/-- There is one class of a name, so that it stands for fields of one set of names. -/
theorem HasClass.iff_sameNames {name : String} (hasClass : HasClass state name first) :
    HasClass state name second ↔ SameNames first second := by
  obtain ⟨type, constructor, found, isConstructor, exactly⟩ := hasClass
  rw [← exactly.congr]
  constructor
  · rintro ⟨_, _, foundSecond, isSecond, exactlySecond⟩
    cases found.symm.trans foundSecond
    cases isConstructor.symm.trans isSecond
    exact exactlySecond
  · exact fun exactlySecond => ⟨type, constructor, found, isConstructor, exactlySecond⟩

theorem agreesOn_iff {entries : List ClassEntry} (builds : Builds entries State.empty state)
    {key : String} {fields : List Field} :
    AgreesOn state key fields ↔
      ∃ entry, lastFor entries key = some entry ∧ SameNames entry.fields fields := by
  have table : state.classOf.lookup key = (lastFor entries key).map (·.name) := by
    rw [builds.classOf]
    exact Option.or_none
  unfold AgreesOn
  rw [table]
  constructor
  · rintro ⟨className, found, hasClass⟩
    obtain ⟨entry, isLast, rfl⟩ := Option.map_eq_some_iff.mp found
    exact ⟨entry, isLast, (builds.built entry (mem_of_lastFor isLast)).iff_sameNames.mp hasClass⟩
  · rintro ⟨entry, isLast, same⟩
    refine ⟨entry.name, Option.map_eq_some_iff.mpr ⟨entry, isLast, rfl⟩, ?_⟩
    exact (builds.built entry (mem_of_lastFor isLast)).iff_sameNames.mpr same

/-- Once the classes of all data types are generated, a record that is looked up for the functions
of a data type has its class exactly if the last class under its key was made for fields of the same
names. -/
theorem consulted_class_iff {api : Api} (spelled : SpelledTypes api.dataTypes) :
    ∃ parent state, Returns (generateTypes api.dataTypes) State.empty parent state ∧
      ∀ type ∈ api.dataTypes, Codec.RestsOnConsulted state api (.named type) ∧
        ∀ record, Codec.Consults api (.named type) record → ∃ key, record.name = .text key ∧
          (AgreesOn state key record.definition.fields ↔
            ∃ entry, lastFor (dataTypeEntries api.dataTypes) key = some entry ∧
              SameNames entry.fields record.definition.fields) := by
  obtain ⟨parent, state, ran, builds, -⟩ := exists_builds_generateTypes spelled
  refine ⟨parent, state, ran, fun type declared => ⟨Codec.restsOnConsulted _ _ _, ?_⟩⟩
  intro record consults
  obtain ⟨key, isText⟩ :=
    consults.exists_key (fun type declared => (spelled type declared).1) declared
  exact ⟨key, isText, agreesOn_iff builds⟩

namespace Basket

/-- A basket has an item that is described on the spot; the data type goes by a small letter. -/
def document : Doc :=
  .object [("name", "shop"), ("base", "/"),
    ("resources", .list [.object [("name", "basket"), ("path", "/basket"),
      ("operations", .list [.object [("name", "find"), ("method", "GET"),
        ("output", .object [("status", .int 200)])]])]]),
    ("dataTypes", .list [.object [("name", "basket"), ("fields", .list [
      .object [("name", "item"), ("type", .object [("fields", .list [
        .object [("name", "code"), ("type", "string")]])])]])]])]

def item : TypeDef :=
  ⟨[⟨"code", none, .bool false, .reference (.primitive .string) .null⟩], [], none⟩

def basket : NamedTypeDef :=
  { name := "basket", definition := ⟨[⟨"item", none, .bool false, .inline item⟩], [], none⟩ }

def api : Api :=
  { name := "shop", base := ["/"]
    resources := [{
      name := "basket", path := "/basket"
      operations := [
        { name := "find", method := "GET", output := some { status := .int 200 } }] }]
    dataTypes := [basket] }

/-- The client once the classes of the data types are there. -/
def client : State :=
  ((generateTypes api.dataTypes).run.run State.empty).2

theorem accepted : Api.ofDoc document = .ok api := by
  cbv

theorem spelled : SpelledTypes api.dataTypes := by
  simp [SpelledTypes, api, basket, item]

theorem acyclic : api.Acyclic (.named basket) := by
  have listed : api.Listed 3 (.named basket) [] := Api.listed_of_list? rfl
  exact Api.acyclic_of_within listed.within

theorem consults_item : Codec.WritingConsults api (.named basket)
    (.standIn "basket_item" item) := by
  refine ⟨.single (.part (.field (List.mem_singleton_self _) rfl rfl)), ?_⟩
  simp [NamedTypeDef.standIn, item]

end Basket

theorem basket_consulted_class_iff :
    Api.ofDoc Basket.document = .ok Basket.api ∧ SpelledTypes Basket.api.dataTypes ∧
    ∃ parent state, Returns (generateTypes Basket.api.dataTypes) State.empty parent state ∧
      ∀ type ∈ Basket.api.dataTypes, Codec.RestsOnConsulted state Basket.api (.named type) ∧
        ∀ record, Codec.Consults Basket.api (.named type) record → ∃ key, record.name = .text key ∧
          (AgreesOn state key record.definition.fields ↔
            ∃ entry, lastFor (dataTypeEntries Basket.api.dataTypes) key = some entry ∧
              SameNames entry.fields record.definition.fields) :=
  ⟨Basket.accepted, Basket.spelled, consulted_class_iff Basket.spelled⟩

/-- The class of the item is named after the class of the basket, and looked up after the data
type. -/
theorem basket_item_missing :
    Api.ofDoc Basket.document = .ok Basket.api ∧
    (∀ type ∈ Basket.api.dataTypes, Basket.api.Acyclic (.named type)) ∧
    Basket.basket ∈ Basket.api.dataTypes ∧
    Codec.Consults Basket.api (.named Basket.basket) (.standIn "basket_item" Basket.item) ∧
    (∃ parent, Returns (generateTypes Basket.api.dataTypes) State.empty parent Basket.client) ∧
    Basket.client.classOf.lookup "basket_item" = none ∧
    Basket.client.classOf.lookup "Basket_item" = some "Basket_item" ∧
    ∀ functions, Codec.json.writers Basket.client Basket.api (some (.named Basket.basket)) ≠
      .ok functions := by
  have missing : Basket.client.classOf.lookup "basket_item" = none := by decide +kernel
  refine ⟨Basket.accepted, ?_, List.mem_singleton_self _, .inl Basket.consults_item, ⟨_, rfl⟩,
    missing, ?_, ?_⟩
  · intro type declared
    cases List.mem_singleton.mp declared
    exact Basket.acyclic
  · decide +kernel
  · intro functions generated
    obtain ⟨className, found⟩ :=
      Codec.exists_className_of_writersWithin generated Basket.consults_item
    simp [NamedTypeDef.standIn, State.className, missing] at found

end ApiDescription.Client
