import ApiDescription.Proofs.NormalForm

/-!
# Reading what was written

The document that is written for an accepted description can be read again, whatever the description
was read from: an output, a service level or a version that was given as `null` is written with
`null` in places where a reader takes it for the word of that value.  One rule can be broken by
writing: an input that says nothing is not written, and an operation whose requests carry an entity
needs one.  Main statement: the document is accepted exactly when no such operation has such an
input, and is refused for the missing input otherwise.
-/

namespace ApiDescription

open Outcome Resource Api List

variable {document : Doc} {operation : Operation} {resource : Resource} {api : Api}

/-! ## Parts that were given as null -/

def Output.filled (output : Output) : Output :=
  { output with contentType := some (output.contentType.getD [Doc.null.words]) }

theorem Output.type_filled (output : Output) : output.filled.type = output.type := rfl

/-- A service level with a name: where none is given, the word for `null`. -/
def ServiceLevel.filled (level : ServiceLevel) : ServiceLevel :=
  { level with name := some (level.name.getD (.ofDoc .null)) }

/-- A version with an identifier: where none is given, the word for `null`. -/
def Version.filled (version : Version) : Version :=
  { version with id := some (version.id.getD (.ofDoc .null)) }

/-- A description as it is read from its own document. -/
def Api.reread (api : Api) : Api :=
  { api.normal.mapOutputs Output.filled with
    serviceLevels := api.serviceLevels.map fun level => level.normal.filled
    version := api.version.map fun version => version.normal.filled }

theorem Output.reread_of_read {output : Output} (success : Output.read document = .ok output) :
    Output.read (.object output.writeFields) = .ok output.normal.filled := by
  by_cases absent : document = .null
  · subst absent
    cases success
    rfl
  · have legible := Output.legible_of_read absent success
    obtain ⟨types, given⟩ := Option.isSome_iff_exists.mp legible.contentType
    have filled : output.normal.filled = output.normal := by
      simp [Output.filled, Output.normal, given]
    rw [filled]
    exact output.read_write legible

theorem Operation.reread_of_read (success : Operation.read document = .ok operation) :
    Operation.read operation.write = .ok (operation.normal.mapOutput Output.filled) := by
  obtain ⟨apart, readOutput⟩ := Operation.readFrom_of_read success
  have eachOutput : ∀ output, operation.output = some output →
      Output.read (.object output.writeFields) = .ok output.normal.filled := by
    intro output hasOutput
    obtain ⟨value, -, readValue⟩ := readOutput output hasOutput
    exact Output.reread_of_read readValue
  rw [Operation.read_write_of_output apart eachOutput]
  simp [Operation.mapOutput, Operation.normal, Function.comp_def]

theorem Resource.reread_of_read (success : read document = .ok resource) :
    read resource.write = .ok (resource.normal.mapOutputs Output.filled) := by
  obtain ⟨readOperations, bindings⟩ := readFrom_of_read success
  have eachOperation : ∀ operation ∈ resource.operations,
      Operation.read operation.write = .ok (operation.normal.mapOutput Output.filled) := by
    intro operation member
    obtain ⟨item, -, readItem⟩ := readOperations operation member
    exact Operation.reread_of_read readItem
  rw [read_write_of_operations bindings eachOperation]
  simp [mapOutputs, normal, Function.comp_def]

theorem ServiceLevel.reread_of_read {level : ServiceLevel}
    (success : ServiceLevel.read document = .ok level) :
    ServiceLevel.read level.write = .ok level.normal.filled := by
  by_cases absent : document = .null
  · subst absent
    cases success
    rfl
  · have legible := ServiceLevel.legible_of_read absent success
    obtain ⟨name, given⟩ := Option.isSome_iff_exists.mp legible.name
    have filled : level.normal.filled = level.normal := by
      simp [ServiceLevel.filled, ServiceLevel.normal, given]
    rw [filled]
    exact level.read_write legible

theorem Version.reread_of_read {version : Version} (success : Version.read document = .ok version) :
    Version.read version.write = .ok version.normal.filled := by
  by_cases absent : document = .null
  · subst absent
    cases success
    rfl
  · have given := Version.isSome_id_of_read absent success
    obtain ⟨id, hasId⟩ := Option.isSome_iff_exists.mp given
    have filled : version.normal.filled = version.normal := by
      simp [Version.filled, Version.normal, hasId]
    rw [filled]
    exact version.read_write given

theorem Api.readParts_reread (success : readParts document = .ok api) :
    readParts api.write = .ok api.reread := by
  obtain ⟨resources, dataTypes, levels, version⟩ := readFrom_of_readParts success
  have eachResource : ∀ resource ∈ api.resources,
      read resource.write = .ok (resource.normal.mapOutputs Output.filled) := by
    intro resource member
    obtain ⟨item, -, readItem⟩ := resources resource member
    exact reread_of_read readItem
  have eachLevel : ∀ level ∈ api.serviceLevels,
      ServiceLevel.read level.write = .ok level.normal.filled := by
    intro level member
    obtain ⟨item, -, readItem⟩ := levels level member
    exact ServiceLevel.reread_of_read readItem
  have readGiven : ∀ given, api.version = some given →
      Version.read given.write = .ok given.normal.filled := by
    intro given hasVersion
    obtain ⟨value, -, readValue⟩ := version given hasVersion
    exact Version.reread_of_read readValue
  rw [readParts_write_of_parts eachResource dataTypes eachLevel readGiven]
  simp [reread, mapOutputs, normal, Function.comp_def]

/-! ## Inputs that are not written -/

/-- An input that says nothing. -/
structure Input.Blank (input : Input) : Prop where
  params : input.params = []
  contentType : input.contentType = []
  type : input.type = none
  description : input.description = none ∨ input.description = some (.texts [])

theorem Input.writeFields_eq_nil (input : Input) : input.writeFields = [] ↔ input.Blank := by
  obtain ⟨contentType, description, params, type⟩ := input
  have described : Label.field "description" description = [] ↔
      description = none ∨ description = some (.texts []) := by
    unfold Label.field
    split <;> simp_all
  have listed (key : String) (items : List Doc) : listField key items = [] ↔ items = [] := by
    simp [listField]
  have typed : DataType.field type = [] ↔ type = none := by
    cases type <;> simp [DataType.field]
  rw [Input.writeFields, append_eq_nil_iff, append_eq_nil_iff, append_eq_nil_iff,
    textsField, listed, listed, described, typed, map_eq_nil_iff, map_eq_nil_iff]
  constructor
  · rintro ⟨⟨⟨params, contentType⟩, type⟩, description⟩
    exact ⟨params, contentType, type, description⟩
  · intro blank
    exact ⟨⟨⟨blank.params, blank.contentType⟩, blank.type⟩, blank.description⟩

/-- An operation whose requests carry an entity and whose input says nothing. -/
def Operation.NeedsBlankInput (operation : Operation) : Prop :=
  (operation.method = "POST" ∨ operation.method = "PUT") ∧
    ∃ input, operation.input = some input ∧ input.Blank

/-- A description with an operation whose requests carry an entity and whose input says nothing. -/
def Api.NeedsBlankInput (api : Api) : Prop :=
  ∃ resource ∈ api.resources, ∃ operation ∈ resource.operations, operation.NeedsBlankInput

variable {types : List Doc} {bindings : List Label}

theorem Operation.NeedsBlankInput.input_normal (needs : operation.NeedsBlankInput) :
    operation.normal.input = none := by
  obtain ⟨-, input, hasInput, blank⟩ := needs
  simp [Operation.normal, Input.kept, hasInput, input.writeFields_eq_nil.mpr blank]

theorem Operation.validate_normal_ne_ok (needs : operation.NeedsBlankInput) :
    operation.normal.validate types bindings ≠ .ok () := by
  intro valid
  obtain ⟨needed, -⟩ := (Operation.validate_eq_ok _).mp valid
  have given := needed ((enclosesEntity_eq_true _).mpr needs.1)
  simp [needs.input_normal] at given

theorem Operation.validate_normal_of_needsBlankInput (needs : operation.NeedsBlankInput) :
    operation.normal.validate types bindings = .error (.refused .missingInput) := by
  have entity : enclosesEntity operation.normal.method = true :=
    (enclosesEntity_eq_true _).mpr needs.1
  rw [Operation.validate, needs.input_normal, entity]
  rfl

theorem Operation.only_missingInput (valid : operation.validate types bindings = .ok ()) :
    Outcome.Only (.refused .missingInput) (operation.normal.validate types bindings) := by
  by_cases needs : operation.NeedsBlankInput
  · rw [Operation.validate_normal_of_needsBlankInput needs]
    exact only_error _
  · rw [operation.validate_normal _ valid]
    · exact only_ok _ _
    · intro entity input hasInput empty
      exact needs ⟨(enclosesEntity_eq_true _).mp entity, input, hasInput,
        input.writeFields_eq_nil.mp empty⟩

theorem Resource.only_of_operations {resource : Label} {fault : Fault} (seen : List Label)
    (operations : List Operation)
    (each : ∀ operation ∈ operations, Outcome.Only fault (operation.validate types bindings))
    (apart : Apart (· ≠ ·) seen (operations.map (·.name))) :
    Outcome.Only fault (validateOperations types bindings resource seen operations) := by
  induction operations generalizing seen with
  | nil => exact only_ok _ _
  | cons operation rest ih =>
    rw [map_cons, apart_cons] at apart
    have fresh : operation.name ∉ seen := fun repeated => apart.1 _ repeated rfl
    rw [validateOperations]
    refine (each operation mem_cons_self).bind fun _ _ => ?_
    simpa [fresh] using ih (seen ++ [operation.name])
      (fun other member => each other (mem_cons_of_mem _ member)) apart.2

theorem Resource.only_missingInput (valid : resource.validate types = .ok ()) :
    Outcome.Only (.refused .missingInput) (resource.normal.validate types) := by
  obtain ⟨bindingsValid, operationsValid, nodup⟩ := (validate_eq_ok resource).mp valid
  have ids : resource.normal.bindings.map (·.id) = resource.bindings.map (·.id) := by
    simp [normal, NamedBinding.normal, Function.comp_def]
  rw [validate, ids]
  refine (only_forM ?_).bind fun _ _ => only_of_operations [] _ ?_ ?_
  · intro binding member
    obtain ⟨original, inBindings, rfl⟩ := mem_map.mp member
    rw [show original.normal.type = original.type.normal from rfl,
      DataType.validate_normal _ (bindingsValid original inBindings)]
    exact only_ok _ _
  · intro operation member
    obtain ⟨original, inOperations, rfl⟩ := mem_map.mp member
    exact Operation.only_missingInput (operationsValid original inOperations)
  · have names : resource.normal.operations.map (·.name) = resource.operations.map (·.name) := by
      simp [normal, Operation.normal, Function.comp_def]
    rw [apart_nil, names]
    exact nodup

theorem Api.only_missingInput (valid : api.validate = .ok ()) :
    Outcome.Only (.refused .missingInput) api.normal.validate := by
  obtain ⟨unique, typesValid, resourcesValid⟩ := (validate_eq_ok api).mp valid
  have names : api.normal.dataTypes.map (·.name) = api.dataTypes.map (·.name) := by
    simp [normal, NamedTypeDef.normal, Function.comp_def]
  have known : uniqueNames [] api.normal.dataTypes = .ok (api.dataTypes.map (·.name)) :=
    (uniqueNames_eq_ok _ _).mpr ⟨by rw [names, apart_nil]; exact unique, by simp [names]⟩
  rw [validate, known, ok_bind]
  refine (only_forM ?_).bind fun _ _ => only_forM ?_
  · intro type member
    obtain ⟨original, inTypes, rfl⟩ := mem_map.mp member
    rw [show original.normal.definition = original.definition.normal from rfl,
      TypeDef.validate_normal _ (typesValid original inTypes)]
    exact only_ok _ _
  · intro resource member
    obtain ⟨original, inResources, rfl⟩ := mem_map.mp member
    exact Resource.only_missingInput (resourcesValid original inResources)

theorem Api.validate_normal_ne_ok (needs : api.NeedsBlankInput) :
    api.normal.validate ≠ .ok () := by
  intro valid
  obtain ⟨resource, inResources, operation, inOperations, needs⟩ := needs
  obtain ⟨-, -, resourcesValid⟩ := (validate_eq_ok _).mp valid
  obtain ⟨-, operationsValid, -⟩ :=
    (Resource.validate_eq_ok _).mp (resourcesValid _ (mem_map_of_mem inResources))
  exact Operation.validate_normal_ne_ok needs (operationsValid _ (mem_map_of_mem inOperations))

theorem Api.writesInputs_of_not_needsBlankInput (needs : ¬ api.NeedsBlankInput) :
    ∀ resource ∈ api.resources, resource.WritesInputs := by
  intro resource inResources operation inOperations entity input hasInput empty
  exact needs ⟨resource, inResources, operation, inOperations,
    (enclosesEntity_eq_true _).mp entity, input, hasInput, input.writeFields_eq_nil.mp empty⟩

/-- Reading the document of an accepted description comes down to the checks of its normal form. -/
theorem Api.ofDoc_write (accepted : ofDoc document = .ok api) :
    ofDoc api.write = api.normal.validate.map fun _ => api.reread := by
  have unseen : api.reread.validate = api.normal.validate :=
    validate_mapOutputs Output.type_filled api.normal
  rw [ofDoc, readParts_reread (ofDoc_eq_ok.mp accepted).1, ok_bind, unseen]
  cases api.normal.validate <;> rfl

theorem Api.validate_of_ofDoc (accepted : ofDoc document = .ok api) : api.validate = .ok () :=
  (ofDoc_eq_ok.mp accepted).2

/-- What is written for an accepted description is accepted, unless a `POST` or `PUT` operation has
an input that says nothing; then it is refused because that input is missing. -/
theorem Api.reread_iff_not_needsBlankInput {document : Doc} {api : Api}
    (accepted : Api.ofDoc document = .ok api) :
    ((∃ again, Api.ofDoc api.write = .ok again) ↔ ¬ api.NeedsBlankInput) ∧
      (api.NeedsBlankInput → Api.ofDoc api.write = .error (.refused .missingInput)) := by
  have valid := Api.validate_of_ofDoc accepted
  rw [Api.ofDoc_write accepted]
  by_cases needs : api.NeedsBlankInput
  · have refused : api.normal.validate = .error (.refused .missingInput) :=
      (Api.only_missingInput valid).eq_error fun _ => Api.validate_normal_ne_ok needs
    simp [refused, needs, Except.map]
  · have valid := api.validate_normal (Api.writesInputs_of_not_needsBlankInput needs) valid
    simp [valid, needs, Except.map]

/-- A service with one operation, whose input is given by `input`; its version and its output are
`null`. -/
def Doc.basket (input : Doc.Fields) : Doc :=
  .object [("name", "basket"), ("resources", .list [.object [("name", "items"),
    ("path", "/items"), ("operations", .list [.object [("name", "add"),
      ("method", "POST"), ("input", .object input), ("output", .null)]])]]),
    ("version", .null)]

def Api.basket (contentType : List String) : Api :=
  { name := "basket"
    resources := [
      { name := "items", path := "/items"
        operations := [
          { name := "add", method := "POST", input := some { contentType }
            output := some Output.empty }] }], version := some ⟨none, none⟩ }

theorem Api.basket_reread :
    Api.ofDoc (Doc.basket [("contentType", .text "text/plain")]) =
        .ok (Api.basket ["text/plain"]) ∧
      ∃ again, Api.ofDoc (Api.basket ["text/plain"]).write = .ok again := by
  have accepted : Api.ofDoc (Doc.basket [("contentType", .text "text/plain")]) =
      .ok (Api.basket ["text/plain"]) := by cbv
  refine ⟨accepted, (Api.reread_iff_not_needsBlankInput accepted).1.mpr ?_⟩
  rintro ⟨resource, inResources, operation, inOperations, -, input, hasInput, blank⟩
  cases List.mem_singleton.mp inResources
  cases List.mem_singleton.mp inOperations
  cases hasInput
  cases blank.contentType

/-- An empty input is accepted, but what is written without it is refused. -/
theorem Api.blank_input_not_reread :
    Api.ofDoc (Doc.basket []) = .ok (Api.basket []) ∧
      Api.ofDoc (Api.basket []).write = .error (.refused .missingInput) := by
  constructor <;> cbv

end ApiDescription
