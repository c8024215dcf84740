import ApiDescription.Docs.Sample
import ApiDescription.Proofs.Occurrences
import ApiDescription.Proofs.Rereading
import ApiDescription.Proofs.Validity

/-!
# Samples of types

A sample holds what a value of its type cannot do without: the required fields of every record, and
some items in every container.  A type has a sample exactly if these do not lead back to themselves,
and its sample is a value of the type.  Whether a type leads back to itself through optional fields
does not matter.
-/

namespace ApiDescription

open Outcome List

open Relation (ReflTransGen TransGen)

/-! ## Values of a type -/

def TypeDef.requiredFields (definition : TypeDef) : List Field :=
  definition.fields.filter fun field => !field.optional.isTruthy

/-- Whether a value is a scalar of the kind of a built-in type. -/
def Primitive.admits : Primitive → Doc → Bool
  | .string, .text _ | .href, .text _ | .binary, .text _ => true
  | .int, .int _ | .long, .int _ | .short, .int _ | .byte, .int _ => true
  | .boolean, .bool _ | .double, .float _ => true
  | _, _ => false

/-- The values of a type: scalars, lists, and objects that hold the required fields in their
order. -/
inductive Api.Conforms (api : Api) : Schema → Doc → Prop where
  | primitive {kind : Primitive} {value : Doc} (admitted : kind.admits value = true) :
      Conforms api (.reference (.primitive kind)) value
  | container {kind : Container} {item : TypeRef} {values : List Doc}
      (items : ∀ value ∈ values, Conforms api (.reference item) value) :
      Conforms api (.reference (.container kind item)) (.list values)
  | name {name value : Doc} {schema : Schema} (found : api.lookup name = some schema)
      (conforms : Conforms api schema value) : Conforms api (.reference (.custom name)) value
  | record {schema : Schema} {definition : TypeDef} {entries : Doc.Fields}
      (isRecord : schema.record? = some definition)
      (names : definition.requiredFields.map (·.name) = entries.map fun entry => .text entry.1)
      (values : Forall₂ (fun field entry => Conforms api field.type.schema entry.2)
        definition.requiredFields entries) :
      Conforms api schema (.object entries)

/-- One step from a type to a type that its values cannot do without. -/
inductive Api.Requires (api : Api) : Schema → Schema → Prop where
  | field {schema : Schema} {definition : TypeDef} {field : Field}
      (isRecord : schema.record? = some definition) (required : field ∈ definition.requiredFields) :
      Requires api schema field.type.schema
  | name {name : Doc} {type : NamedTypeDef} (found : api.dataType? name = some type) :
      Requires api (.reference (.custom name)) (.named type)
  | item {kind : Container} {item : TypeRef} :
      Requires api (.reference (.container kind item)) (.reference item)

/-- No type that values cannot do without requires itself. -/
def Api.Grounded (api : Api) (start : Schema) : Prop :=
  ∀ schema, ReflTransGen api.Requires start schema → ¬ TransGen api.Requires schema schema

/-- The types that stand in a description: where types are used, as data types, and as items. -/
inductive Api.Shows (api : Api) : Schema → Prop where
  | used {type : DataType} (uses : api.Uses type) : Shows api type.schema
  | dataType {type : NamedTypeDef} (declared : type ∈ api.dataTypes) : Shows api (.named type)
  | item {kind : Container} {item : TypeRef}
      (shown : Shows api (.reference (.container kind item))) :
      Shows api (.reference item)

/-- A description whose references lead to something and whose fields go by texts. -/
structure Api.Explicit (api : Api) : Prop where
  something : ∀ target link, api.Uses (.reference target link) →
    target.customName? ≠ some (.text TypeRef.noneName)
  fieldNames : ∀ definition, api.Uses (.inline definition) →
    ∀ field ∈ definition.fields, ∃ text, field.name = .text text

variable {api : Api} {schema after : Schema} {definition : TypeDef} {field : Field}
  {fuel bound : Nat}

theorem Api.Requires.leads (requires : api.Requires schema after) : api.Leads schema after := by
  cases requires with
  | field isRecord required => exact .field isRecord (mem_of_mem_filter required)
  | name found => exact .name found
  | item => exact .item

namespace Api.Shows

theorem uses_record (shown : api.Shows schema) (isRecord : schema.record? = some definition) :
    api.Uses (.inline definition) := by
  cases shown with
  | @used type uses =>
    cases type with
    | reference => cases isRecord
    | inline => cases isRecord; exact uses
  | dataType declared => cases isRecord; exact ⟨_, .dataType declared, .self⟩
  | item => cases isRecord

theorem next (shown : api.Shows schema) (requires : api.Requires schema after) :
    api.Shows after := by
  cases requires with
  | field isRecord required =>
    exact .used ((shown.uses_record isRecord).fields _ (mem_of_mem_filter required))
  | name found => exact .dataType (mem_of_find?_eq_some found)
  | item => exact .item shown

theorem exists_uses {target : TypeRef} (shown : api.Shows (.reference target)) :
    ∃ whole link, api.Uses (.reference whole link) ∧ whole.customName? = target.customName? := by
  generalize isTarget : Schema.reference target = schema at shown
  induction shown generalizing target with
  | @used type uses =>
    cases type with
    | reference whole link => cases isTarget; exact ⟨target, link, uses, rfl⟩
    | inline => cases isTarget
  | dataType => cases isTarget
  | @item kind item _ ih =>
    cases isTarget
    exact @ih (.container kind item) rfl

end Api.Shows

/-! ## Samples conform -/

namespace Docs

theorem admits_primitiveSample (kind : Primitive) : kind.admits (primitiveSample kind) = true := by
  cases kind <;> rfl

theorem admits_primitiveSamples (kind : Primitive) :
    ∀ value ∈ primitiveSamples kind, kind.admits value = true := by
  cases kind <;> simp [primitiveSamples, Primitive.admits]

def fieldSample (api : Api) (fuel : Nat) (field : Field) : Except Fault (String × Doc) := do
  let value ← sampleWithin api fuel field.type.schema
  return (← field.name.asText, value)

def recordSample (api : Api) (fuel : Nat) (definition : TypeDef) : Except Fault Doc := do
  let samples ← definition.requiredFields.mapM (fieldSample api fuel)
  return .object (samples.foldl (fun fields sample => Doc.Fields.put fields sample.1 sample.2) [])

theorem sampleWithin_record (isRecord : schema.record? = some definition) :
    sampleWithin api (fuel + 1) schema = recordSample api fuel definition := by
  cases schema with
  | reference => cases isRecord
  | anonymous => cases isRecord; rfl
  | named => cases isRecord; rfl

theorem sampleWithin_name {name : Doc} {type : NamedTypeDef}
    (found : api.lookup name = some (.named type)) :
    sampleWithin api (fuel + 1) (.reference (.custom name)) =
      sampleWithin api (fuel + 1) (.named type) := by
  simp only [sampleWithin, found]

theorem sampleWithin_container {kind : Container} {item : TypeRef}
    (composed : ∀ kind, item ≠ .primitive kind) :
    sampleWithin api (fuel + 1) (.reference (.container kind item)) = (do
      let value ← sampleWithin api fuel (.reference item)
      return .list [value, value]) := by
  cases item with
  | primitive kind => exact absurd rfl (composed kind)
  | container => rfl
  | custom => rfl

variable {value : Doc}

theorem put_of_notMem {fields : Doc.Fields} {key : String} (absent : key ∉ fields.map Prod.fst) :
    Doc.Fields.put fields key value = fields ++ [(key, value)] := by
  induction fields with
  | nil => rfl
  | cons first rest ih =>
    simp only [map_cons, mem_cons, not_or] at absent
    rw [Doc.Fields.put, if_neg (Ne.symm absent.1), ih absent.2, cons_append]

theorem foldl_put {before samples : Doc.Fields}
    (distinct : ((before ++ samples).map Prod.fst).Nodup) :
    samples.foldl (fun fields sample => Doc.Fields.put fields sample.1 sample.2) before = before ++
      samples := by
  induction samples generalizing before with
  | nil => simp
  | cons sample rest ih =>
    have absent : sample.1 ∉ before.map Prod.fst := by
      simp only [map_append, map_cons, nodup_append, mem_cons] at distinct
      exact fun member => distinct.2.2 _ member _ (.inl rfl) rfl
    rw [foldl_cons, put_of_notMem absent, ih (by simpa using distinct), append_assoc,
      singleton_append]

theorem exists_recordSample (isRecord : schema.record? = some definition)
    (distinct : (definition.fields.map (·.name)).Nodup)
    (each : ∀ field ∈ definition.requiredFields, (∃ text, field.name = .text text) ∧
      ∃ value, sampleWithin api fuel field.type.schema = .ok value ∧
        api.Conforms field.type.schema value) :
    ∃ value, recordSample api fuel definition = .ok value ∧ api.Conforms schema value := by
  have same : Forall₂ Eq definition.requiredFields definition.requiredFields :=
    forall₂_same.mpr fun _ _ => rfl
  have exists_samples :
      ∃ samples, definition.requiredFields.mapM (fieldSample api fuel) = .ok samples ∧
      Forall₂ (fun field sample => field.name = .text sample.1 ∧
        api.Conforms field.type.schema sample.2) definition.requiredFields samples := by
    refine exists_mapM same fun field required source isSource => ?_
    subst isSource
    obtain ⟨⟨text, isText⟩, value, sampled, conforms⟩ := each field required
    exact ⟨(text, value), by simp [fieldSample, sampled, isText, Label.asText], isText, conforms⟩
  obtain ⟨samples, sampled, conform⟩ := exists_samples
  have names : definition.requiredFields.map (·.name) = samples.map fun sample =>
      .text sample.1 := by
    rw [← forall₂_eq_eq_eq, forall₂_map_left_iff, forall₂_map_right_iff]
    exact conform.imp fun _ _ => And.left
  have unique : (samples.map Prod.fst).Nodup := by
    have filtered : (definition.requiredFields.map (·.name)).Nodup :=
      distinct.sublist (filter_sublist.map Field.name)
    rw [names, ← Function.comp_def Label.text, ← map_map] at filtered
    exact filtered.of_map
  have put := @foldl_put [] samples unique
  rw [nil_append] at put
  exact ⟨.object samples, by simp [recordSample, sampled, put],
    .record isRecord names (conform.imp fun _ _ => And.right)⟩

/-- Fuel for every chain of required types is enough. -/
theorem exists_sampleWithin (valid : api.Valid) (explicit : api.Explicit) (shown : api.Shows schema)
    (within : EndsWithin api.Requires bound schema) (enough : bound ≤ fuel) :
    ∃ value, sampleWithin api fuel schema = .ok value ∧ api.Conforms schema value := by
  induction bound generalizing schema fuel with
  | zero => exact within.elim
  | succ bound ih =>
    obtain _ | fuel := fuel
    · omega
    have below {next : Schema} (requires : api.Requires schema next) :=
      @ih next fuel (shown.next requires) (within next requires) (by omega)
    cases isRecord : schema.record? with
    | some definition =>
      rw [sampleWithin_record isRecord]
      have uses := shown.uses_record isRecord
      refine exists_recordSample isRecord (valid.fieldNames definition uses) fun field required =>
        ?_
      exact ⟨explicit.fieldNames definition uses field (mem_of_mem_filter required),
        below (.field isRecord required)⟩
    | none =>
      cases schema with
      | anonymous => cases isRecord
      | named => cases isRecord
      | reference target =>
        cases target with
        | primitive kind => exact ⟨_, rfl, .primitive (admits_primitiveSample kind)⟩
        | container kind item =>
          by_cases simple : ∃ kind, item = .primitive kind
          · obtain ⟨kind, rfl⟩ := simple
            exact ⟨_, rfl, .container fun value member =>
              .primitive (admits_primitiveSamples kind value member)⟩
          · obtain ⟨value, sampled, conforms⟩ := below .item
            rw [sampleWithin_container (not_exists.mp simple), sampled]
            exact ⟨_, rfl, .container (by simpa using conforms)⟩
        | custom name =>
          obtain ⟨whole, link, uses, isName⟩ := shown.exists_uses
          obtain ⟨type, found⟩ := valid.exists_lookup uses isName
            fun isNone => explicit.something whole link uses (isName.trans (congrArg some isNone))
          rw [sampleWithin_name found]
          rcases Api.dataType?_of_lookup found with isType | ⟨rfl, -⟩
          · obtain ⟨value, sampled, conforms⟩ :=
              @ih (.named type) (fuel + 1) (shown.next (.name isType))
              (within _ (.name isType)) (by omega)
            exact ⟨value, sampled, .name found conforms⟩
          · exact ⟨.object [], rfl, .name found (.record rfl rfl .nil)⟩

theorem grounded_of_recordSample
    (each : ∀ schema value, sampleWithin api fuel schema = .ok value → api.Grounded schema)
    (isRecord : schema.record? = some definition)
    (sampled : recordSample api fuel definition = .ok value) :
    api.Grounded schema := by
  refine acyclic_of_next fun next requires => ?_
  cases requires with
  | field alsoRecord required =>
    cases isRecord.symm.trans alsoRecord
    obtain ⟨samples, sampledAll, -⟩ := bind_eq_ok.mp sampled
    obtain ⟨_, -, sampledField⟩ := exists_mem_of_mapM sampledAll required
    obtain ⟨inner, isSample, -⟩ := bind_eq_ok.mp sampledField
    exact each _ inner isSample
  | name => cases isRecord
  | item => cases isRecord

/-- A type with a sample does not require itself, as every required type gets its sample with less
fuel. -/
theorem grounded_of_sampleWithin (sampled : sampleWithin api fuel schema = .ok value) :
    api.Grounded schema := by
  induction fuel generalizing schema value with
  | zero => cases sampled
  | succ fuel ih =>
    cases isRecord : schema.record? with
    | some definition =>
      rw [sampleWithin_record isRecord] at sampled
      exact grounded_of_recordSample (fun _ _ => ih) isRecord sampled
    | none =>
      refine acyclic_of_next fun next requires => ?_
      cases requires with
      | field alsoRecord => cases isRecord.symm.trans alsoRecord
      | name found =>
        rw [sampleWithin_name (by rw [Api.lookup, found]), sampleWithin_record rfl] at sampled
        exact grounded_of_recordSample (fun _ _ => ih) rfl sampled
      | @item kind item =>
        by_cases simple : ∃ kind, item = .primitive kind
        · obtain ⟨kind, rfl⟩ := simple
          refine acyclic_of_next fun next requires => ?_
          cases requires with
          | field alsoRecord => cases alsoRecord
        · rw [sampleWithin_container (not_exists.mp simple)] at sampled
          obtain ⟨inner, isSample, -⟩ := bind_eq_ok.mp sampled
          exact ih isSample

theorem exists_sample (valid : api.Valid) (explicit : api.Explicit)
    (shown : api.Shows schema) (grounded : api.Grounded schema) :
    ∃ value, sample api schema = .ok value ∧ api.Conforms schema value := by
  obtain ⟨bound, isReach, within⟩ := Api.endsWithin_reach (fun requires => requires.leads) grounded
  exact exists_sampleWithin valid explicit shown within (by omega)

/-- In an accepted description that is explicit a type has a sample that conforms to it exactly if
nothing that it requires requires itself. -/
theorem sample_conforms_iff_grounded {document : Doc} (accepted : Api.ofDoc document = .ok api)
    (explicit : api.Explicit) (shown : api.Shows schema) :
    (∃ value, sample api schema = .ok value ∧ api.Conforms schema value) ↔ api.Grounded schema := by
  constructor
  · rintro ⟨value, sampled, -⟩
    exact grounded_of_sampleWithin sampled
  · exact exists_sample (Api.valid_of_validate (Api.validate_of_ofDoc accepted)) explicit shown

namespace Library

/-- A library to which books are added.  A book may have a sequel; `answer` says what is sent
back. -/
def document (answer : Doc.Fields) : Doc :=
  .object [("name", "library"), ("base", "https://library"),
    ("resources", .list [.object [("name", "Shelf"), ("path", "/shelf"),
      ("operations", .list [.object [("name", "add"), ("method", "POST"),
        ("input", .object [("contentType", "application/json"), ("type", "Book")]),
        ("output", .object ([("status", .int 201), ("contentType", .text "application/json")] ++
          answer)),
        ("errors", .list [.object [("status", .int 404), ("cause", "no shelf")]])]])]]),
    ("dataTypes", .list [.object [("name", "Book"), ("fields", .list [
      .object [("name", "title"), ("type", "string")],
      .object [("name", "sequel"), ("type", "Book"), ("optional", .bool true)],
      .object [("name", "pages"), ("type", "list(long)")]])]])]

def part (name : String) (optional : Bool) (target : TypeRef) : Field :=
  { name := .text name, description := none, optional := .bool optional,
    type := .reference target .null }

def book : NamedTypeDef :=
  ⟨"Book", ⟨[part "title" false (.primitive .string), part "sequel" true (.custom "Book"),
    part "pages" false (.container .list (.primitive .long))], [], none⟩⟩

def shelf (answer : Option DataType) : Resource :=
  { name := "Shelf", path := "/shelf"
    operations := [
      { name := "add", method := "POST"
        input := some
          { contentType := ["application/json"], type := some (.reference (.custom "Book") .null) }
        output := some { status := .int 201, contentType := some ["application/json"], type :=
          answer }
        errors := [(404, "no shelf")] }] }

def catalogue (answer : Option DataType) : Api :=
  { name := "library", base := ["https://library"], resources := [shelf answer],
    dataTypes := [book] }

def books : DataType :=
  .reference (.container .list (.custom "Book")) .null

theorem accepted :
    Api.ofDoc (document [("type", .text "list(Book)")]) = .ok (catalogue (some books)) := by
  cbv

theorem accepted_silent : Api.ofDoc (document []) = .ok (catalogue none) := by
  cbv

variable {answer : Option DataType}

theorem exists_of_uses {type : DataType} (answered : ∀ type ∈ answer, type = books)
    (uses : (catalogue answer).Uses type) :
    type = .inline book.definition ∨ ∃ target, type = .reference target .null ∧
      ∀ name, target.customName? = some name → name = .text "Book" := by
  obtain ⟨whole, given, within⟩ := uses
  have member := given.mem_givenTypes
  simp [catalogue, Api.givenTypes, Operation.givenTypes, shelf] at member
  rcases member with rfl | rfl | given
  · simp [DataType.within_inline, DataType.within_reference, book, part] at within
    rcases within with rfl | rfl | rfl | rfl <;> simp [TypeRef.customName?, book, part]
  · cases DataType.within_reference.mp within
    simp [TypeRef.customName?]
  · cases answered whole given
    cases DataType.within_reference.mp within
    simp [TypeRef.customName?]

theorem explicit (answered : ∀ type ∈ answer, type = books) : (catalogue answer).Explicit := by
  constructor
  · intro target link uses isNone
    obtain ⟨⟨⟩⟩ | ⟨target, ⟨⟩, named⟩ := exists_of_uses answered uses
    simpa [TypeRef.noneName] using named _ isNone
  · intro definition uses
    obtain ⟨⟨⟩⟩ | ⟨target, ⟨⟩, -⟩ := exists_of_uses answered uses
    simp [book, part]

theorem sample_book (answer : Option DataType) : sample (catalogue answer) (.named book) =
    .ok (.object [("title", .text "string"),
      ("pages", .list [.int 100001, .int 200002, .int 300003])]) := by
  rfl

/-- A book leads back to a book, but does not require one. -/
theorem book_sample_conforms :
    ¬ (catalogue (some books)).Acyclic (.named book) ∧
    (catalogue (some books)).Grounded (.named book) ∧
      ∃ value, sample (catalogue (some books)) (.named book) = .ok value ∧
        (catalogue (some books)).Conforms (.named book) value := by
  have grounded := grounded_of_sampleWithin (sample_book (some books))
  refine ⟨fun acyclic => acyclic (.named book) .refl ?_, grounded, ?_⟩
  · have declared : part "sequel" true (.custom "Book") ∈ book.definition.fields := by
      simp [book]
    exact .tail (.single (.field rfl declared)) (.name rfl)
  · exact (sample_conforms_iff_grounded accepted (explicit (by simp))
      (.dataType List.mem_cons_self)).mpr grounded

end Library

end Docs

end ApiDescription
