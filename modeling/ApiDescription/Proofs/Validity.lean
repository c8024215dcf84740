import ApiDescription.Model.Schema
import ApiDescription.Proofs.Checks

/-!
# Valid descriptions

What makes a description valid, said of its parts and not of the checks: where types stand in it,
which types occur in those, and what holds of each of them.  The checks accept exactly the valid
descriptions.
-/

namespace ApiDescription

open DataType List

/-! ## Types that occur in a type -/

/-- The types that occur in a type: itself, and those in its fields at any depth. -/
inductive DataType.Within (inner : DataType) : DataType → Prop
  | self : Within inner inner
  | field {definition : TypeDef} {field : Field} :
      field ∈ definition.fields → Within inner field.type →
      Within inner (.inline definition)

/-- What a single type has to meet, whatever the types of its fields: a reference leads to a
built-in type, a reserved name or one of `types`, only a link has a target, and fields differ in
name. -/
def DataType.Legal (types : List Doc) : DataType → Prop
  | .reference target link =>
    (∀ name, target.customName? = some name → name.IsTypeName types) ∧
      (link ≠ .null → target = .primitive .href)
  | .inline definition => (definition.fields.map (·.name)).Nodup

variable {inner type : DataType} {target : TypeRef} {link : Doc} {definition : TypeDef} {api : Api}

theorem DataType.within_reference :
    inner.Within (.reference target link) ↔ inner = .reference target link := by
  constructor
  · rintro ⟨⟩
    rfl
  · rintro rfl
    exact .self

theorem DataType.Within.trans {middle outer : DataType} (below : inner.Within middle)
    (within : middle.Within outer) : inner.Within outer := by
  induction within with
  | self => exact below
  | field member _ ih => exact .field member ih

theorem DataType.within_inline :
    inner.Within (.inline definition) ↔
      inner = .inline definition ∨ ∃ field ∈ definition.fields, inner.Within field.type := by
  constructor
  · intro within
    cases within with
    | self => exact .inl rfl
    | field member below => exact .inr ⟨_, member, below⟩
  · rintro (rfl | ⟨field, member, below⟩)
    · exact .self
    · exact .field member below

mutual

variable {types : List Doc}

theorem DataType.validate_eq_ok :
    (type : DataType) → (type.validate types = .ok () ↔ ∀ inner : DataType, inner.Within type →
      inner.Legal types)
  | .reference target link => by
    simp only [validate_reference, TypeRef.validate_eq_ok, within_reference,
      forall_eq, Legal]
  | .inline ⟨fields, constraints, description⟩ => by
    simp only [validate_inline, TypeDef.validate_eq_ok,
      Field.forall_validate_eq_ok fields, within_inline, forall_eq_or_imp,
      Legal]
    constructor
    · rintro ⟨below, nodup⟩
      exact ⟨nodup, fun inner ⟨field, member, within⟩ =>
        below field member inner within⟩
    · rintro ⟨nodup, below⟩
      exact ⟨fun field member inner within => below inner ⟨field, member, within⟩, nodup⟩

theorem Field.forall_validate_eq_ok :
    (fields : List Field) →
      ((∀ field ∈ fields, field.type.validate types = .ok ()) ↔
        ∀ field ∈ fields, ∀ inner : DataType, inner.Within field.type → inner.Legal types)
  | [] => by simp
  | ⟨name, description, optional, type⟩ :: rest => by
    simp only [forall_mem_cons, DataType.validate_eq_ok type, Field.forall_validate_eq_ok rest]

end

/-! ## Types that occur in a description -/

/-- The types that a description uses, each with the place that it is given at. -/
inductive Api.Gives (api : Api) : DataType → Prop
  | dataType {type : NamedTypeDef} :
      type ∈ api.dataTypes → api.Gives (.inline type.definition)
  | binding {resource : Resource} {binding : NamedBinding} :
      resource ∈ api.resources → binding ∈ resource.bindings → api.Gives binding.type
  | input {resource : Resource} {operation : Operation} {input : Input} {type : DataType} :
      resource ∈ api.resources → operation ∈ resource.operations →
      operation.input = some input → input.type = some type → api.Gives type
  | parameter {resource : Resource} {operation : Operation} {input : Input}
      {parameter : Parameter} {binding : InputBinding} :
      resource ∈ api.resources → operation ∈ resource.operations →
      operation.input = some input → parameter ∈ input.params →
      parameter.source = .inline binding ∨ parameter.source = .own binding →
      api.Gives binding.type
  | output {resource : Resource} {operation : Operation} {output : Output} {type : DataType} :
      resource ∈ api.resources → operation ∈ resource.operations →
      operation.output = some output → output.type = some type → api.Gives type

def Operation.givenTypes (operation : Operation) : List DataType :=
  (operation.input.elim [] fun input => input.type.toList ++ input.params.filterMap fun parameter =>
    match parameter.source with
    | .inline binding | .own binding => some binding.type
    | .shared _ => none) ++
  operation.output.elim [] fun output => output.type.toList

def Api.givenTypes (api : Api) : List DataType :=
  api.dataTypes.map (fun type => .inline type.definition) ++ api.resources.flatMap fun resource =>
    resource.bindings.map (·.type) ++ resource.operations.flatMap Operation.givenTypes

theorem Api.Gives.mem_givenTypes (gives : api.Gives type) : type ∈ api.givenTypes := by
  simp only [givenTypes, mem_append, mem_map, mem_flatMap, Operation.givenTypes]
  cases gives with
  | dataType member => exact .inl ⟨_, member, rfl⟩
  | binding inApi inBindings => exact .inr ⟨_, inApi, .inl ⟨_, inBindings, rfl⟩⟩
  | input inApi inResource hasInput hasType =>
    exact .inr ⟨_, inApi, .inr ⟨_, inResource, .inl (by simp [hasInput, hasType])⟩⟩
  | parameter inApi inResource hasInput inParams source =>
    refine .inr ⟨_, inApi, .inr ⟨_, inResource, .inl ?_⟩⟩
    simp only [hasInput, Option.elim_some, mem_append, mem_filterMap]
    exact .inr ⟨_, inParams, by rcases source with source | source <;> simp [source]⟩
  | output inApi inResource hasOutput hasType =>
    exact .inr ⟨_, inApi, .inr ⟨_, inResource, .inr (by simp [hasOutput, hasType])⟩⟩

/-- The types that occur in a description, at any depth. -/
def Api.Uses (api : Api) (inner : DataType) : Prop :=
  ∃ type : DataType, api.Gives type ∧ inner.Within type

theorem Api.Uses.fields (uses : api.Uses (.inline definition)) :
    ∀ field ∈ definition.fields, api.Uses field.type := by
  obtain ⟨type, given, within⟩ := uses
  exact fun field member => ⟨type, given, .trans (.field member .self) within⟩

/-- The rules for descriptions. -/
structure Api.Valid (api : Api) : Prop where
  typeNames : (api.dataTypes.map (·.name)).Pairwise fun earlier later => ¬ earlier.Alike later
  fieldNames : ∀ definition, api.Uses (.inline definition) →
    (definition.fields.map (·.name)).Nodup
  references : ∀ target link, api.Uses (.reference target link) →
    ∀ name, target.customName? = some name → name.IsTypeName (api.dataTypes.map (·.name))
  links : ∀ target link, api.Uses (.reference target link) →
    link ≠ .null → target = .primitive .href
  outputs : ∀ resource ∈ api.resources, ∀ operation ∈ resource.operations, operation.output.isSome
  inputs : ∀ resource ∈ api.resources, ∀ operation ∈ resource.operations,
    operation.method = .text "POST" ∨ operation.method = .text "PUT" → operation.input.isSome
  parameters : ∀ resource ∈ api.resources, ∀ operation ∈ resource.operations,
    ∀ input, operation.input = some input → ∀ parameter ∈ input.params,
      ∀ id, parameter.source = .shared id → ∃ binding ∈ resource.bindings, binding.id = id
  operationNames : ∀ resource ∈ api.resources, (resource.operations.map (·.name)).Nodup
  conditions : ∀ resource ∈ api.resources, ∀ operation ∈ resource.operations,
    ∀ condition ∈ operation.requires ++ operation.ensures,
      ∃ text tree, condition = some (.text text) ∧ Expr.parse text = .ok tree

/-- In a valid description every name leads to a data type, but for the one that stands for
nothing. -/
theorem Api.Valid.exists_lookup {name : Doc} (valid : api.Valid)
    (uses : api.Uses (.reference target link)) (isName : target.customName? = some name)
    (something : name ≠ .text TypeRef.noneName) :
    ∃ type, api.lookup name = some (.named type) := by
  cases isType : api.dataType? name with
  | some type => exact ⟨type, by rw [Api.lookup, isType]⟩
  | none =>
    rcases valid.references target link uses name isName with rfl | isNone | ⟨type, declared, same⟩
    · have custom : TypeRef.builtIn? (.text TypeRef.apiName) = none := by cbv
      exact ⟨.api, by simp [Api.lookup, isType, custom]⟩
    · exact absurd isNone something
    · obtain ⟨type, inTypes, rfl⟩ := mem_map.mp declared
      exact absurd same (find?_eq_none.mp isType type inTypes)

/-! ## The checks accept the valid descriptions -/

theorem Api.validate_of_gives (accepted : api.validate = .ok ()) (given : api.Gives type) :
    type.validate (api.dataTypes.map (·.name)) = .ok () := by
  obtain ⟨-, typesAccepted, resourcesAccepted⟩ := (Api.validate_eq_ok api).mp accepted
  have resource_accepted {resource : Resource} (member : resource ∈ api.resources) :=
    (Resource.validate_eq_ok resource).mp (resourcesAccepted resource member)
  have operation_accepted {resource : Resource} {operation : Operation}
      (inResources : resource ∈ api.resources) (inOperations : operation ∈ resource.operations) :=
    (Operation.validate_eq_ok operation).mp
      ((resource_accepted inResources).2.1 operation inOperations)
  cases given with
  | dataType member =>
    exact (validate_inline _).mpr (typesAccepted _ member)
  | binding inResources inBindings =>
    exact (resource_accepted inResources).1 _ inBindings
  | input inResources inOperations hasInput hasType =>
    obtain ⟨-, inputAccepted, -⟩ := operation_accepted inResources inOperations
    exact ((Input.validate_eq_ok _).mp (inputAccepted _ hasInput)).1 _ hasType
  | parameter inResources inOperations hasInput inParams source =>
    obtain ⟨-, inputAccepted, -⟩ := operation_accepted inResources inOperations
    have checked := ((Input.validate_eq_ok _).mp (inputAccepted _ hasInput)).2 _ inParams
    rw [Parameter.validate_eq_ok] at checked
    rcases source with source | source <;> simpa only [source] using checked
  | output inResources inOperations hasOutput hasType =>
    obtain ⟨-, -, ⟨output, found, outputAccepted⟩, -⟩ :=
      operation_accepted inResources inOperations
    cases hasOutput.symm.trans found
    exact (Output.validate_eq_ok _).mp outputAccepted _ hasType

theorem Api.Valid.validate_type (valid : api.Valid) (given : api.Gives type) :
    type.validate (api.dataTypes.map (·.name)) = .ok () := by
  refine (DataType.validate_eq_ok type).mpr fun inner within => ?_
  cases inner with
  | reference target link =>
    exact ⟨valid.references target link ⟨type, given, within⟩,
      valid.links target link ⟨type, given, within⟩⟩
  | inline definition => exact valid.fieldNames definition ⟨type, given, within⟩

theorem Api.Valid.validate_operation (valid : api.Valid) {resource : Resource}
    {operation : Operation} (inResources : resource ∈ api.resources)
    (inOperations : operation ∈ resource.operations) :
    operation.validate (api.dataTypes.map (·.name)) (resource.bindings.map (·.id)) = .ok () := by
  have conditions := valid.conditions resource inResources operation inOperations
  obtain ⟨output, hasOutput⟩ :=
    Option.isSome_iff_exists.mp (valid.outputs resource inResources operation inOperations)
  refine (Operation.validate_eq_ok operation).mpr
    ⟨fun entity => ?_, fun input hasInput => ?_, ⟨output, hasOutput, ?_⟩,
      fun condition member => ?_, fun condition member => ?_⟩
  · exact valid.inputs resource inResources operation inOperations
      ((enclosesEntity_eq_true _).mp entity)
  · refine (Input.validate_eq_ok input).mpr ⟨fun type hasType =>
      valid.validate_type (.input inResources inOperations hasInput hasType),
      fun parameter inParams => ?_⟩
    rw [Parameter.validate_eq_ok]
    cases source : parameter.source with
    | shared id =>
      simpa using valid.parameters resource inResources operation inOperations input hasInput
        parameter inParams id source
    | inline binding =>
      exact valid.validate_type (.parameter inResources inOperations hasInput inParams
        (.inl source))
    | own binding =>
      exact valid.validate_type (.parameter inResources inOperations hasInput inParams
        (.inr source))
  · exact (Output.validate_eq_ok output).mpr fun type hasType =>
      valid.validate_type (.output inResources inOperations hasOutput hasType)
  · exact (Condition.validate_eq_ok condition).mpr (conditions condition (mem_append_left _ member))
  · exact (Condition.validate_eq_ok condition).mpr
      (conditions condition (mem_append_right _ member))

theorem Api.valid_of_validate (accepted : api.validate = .ok ()) : api.Valid := by
  obtain ⟨typeNames, -, resourcesAccepted⟩ := (Api.validate_eq_ok api).mp accepted
  have legal {inner : DataType} (uses : api.Uses inner) :
      inner.Legal (api.dataTypes.map (·.name)) := by
    obtain ⟨type, given, within⟩ := uses
    exact (DataType.validate_eq_ok type).mp (Api.validate_of_gives accepted given) inner within
  have resource_accepted (resource : Resource) (member : resource ∈ api.resources) :=
    (Resource.validate_eq_ok resource).mp (resourcesAccepted resource member)
  have operation_accepted (resource : Resource) (inResources : resource ∈ api.resources)
      (operation : Operation) (inOperations : operation ∈ resource.operations) :=
    (Operation.validate_eq_ok operation).mp
      ((resource_accepted resource inResources).2.1 operation inOperations)
  refine
    { typeNames
      fieldNames := fun definition uses => legal uses
      references := fun target link uses => (legal uses).1
      links := fun target link uses => (legal uses).2
      outputs := fun resource inResources operation inOperations => ?_
      inputs := fun resource inResources operation inOperations entity =>
        (operation_accepted resource inResources operation inOperations).1
          ((enclosesEntity_eq_true _).mpr entity)
      parameters := fun resource inResources operation inOperations input hasInput parameter
        inParams id source => ?_
      operationNames := fun resource inResources => (resource_accepted resource inResources).2.2
      conditions := fun resource inResources operation inOperations condition member => ?_ }
  · obtain ⟨-, -, ⟨output, hasOutput, -⟩, -⟩ :=
      operation_accepted resource inResources operation inOperations
    simp [hasOutput]
  · obtain ⟨-, inputAccepted, -⟩ := operation_accepted resource inResources operation inOperations
    have checked := ((Input.validate_eq_ok _).mp (inputAccepted _ hasInput)).2 _ inParams
    simpa [Parameter.validate_eq_ok, source] using checked
  · obtain ⟨-, -, -, requires, ensures⟩ :=
      operation_accepted resource inResources operation inOperations
    rcases mem_append.mp member with member | member
    · exact (Condition.validate_eq_ok condition).mp (requires condition member)
    · exact (Condition.validate_eq_ok condition).mp (ensures condition member)

/-- The checks accept exactly the valid descriptions. -/
theorem Api.validate_iff_valid (api : Api) : api.validate = .ok () ↔ api.Valid := by
  refine ⟨Api.valid_of_validate, fun valid => (Api.validate_eq_ok api).mpr
    ⟨valid.typeNames, fun type member => ?_, fun resource inResources => ?_⟩⟩
  · exact (DataType.validate_inline _).mp (valid.validate_type (.dataType member))
  · exact (Resource.validate_eq_ok resource).mpr
      ⟨fun binding inBindings => valid.validate_type (.binding inResources inBindings),
        fun operation inOperations => valid.validate_operation inResources inOperations,
        valid.operationNames resource inResources⟩

end ApiDescription
