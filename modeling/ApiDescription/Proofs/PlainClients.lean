import ApiDescription.Proofs.Completion

/-!
# Clients of plain descriptions

A plain description speaks of JSON only, goes by texts everywhere and has no type that leads back to
itself.  Its client is not generated to the end in every case.  A class name that is changed, given
twice or given to something else hides a class from the functions that look for it; bindings that
share an identifier but not a name, or that write their types on the spot, leave an argument out.
Where a description keeps clear of these, a client is generated exactly if no `POST` or `PUT`
operation writes its input type on the spot: such a type has no function that its payload could be
handed to.
-/

namespace ApiDescription

open DataType TypeRef

variable {type : DataType}

theorem DataType.Legible.of_within {inner : DataType} (legible : type.Legible)
    (within : inner.Within type) :
    inner.Legible := by
  induction within with
  | self => exact legible
  | @field definition field declared _ ih =>
    obtain ⟨fields, constraints, description⟩ := definition
    rw [Legible, TypeDef.Legible] at legible
    exact ih (Field.legible_of_mem legible.1 declared)

namespace Client

open Code (ClassDef Method)

variable {resource : Resource}

/-! ## Plain descriptions -/

/-- A description that speaks of JSON only: no type leads back to itself or refers to nothing, all
names are texts, what is sent as an entity has a type, and a path has places for values only where
every operation takes something. -/
structure Plain (api : Api) : Prop where
  acyclic : ∀ type ∈ api.dataTypes, api.Acyclic (.named type)
  something : ∀ target link, api.Uses (.reference target link) →
    target.customName? ≠ some (.text noneName)
  typeNames : ∀ type ∈ api.dataTypes, ∃ text, type.name = .text text
  fieldNames : ∀ definition, api.Uses (.inline definition) →
    ∀ field ∈ definition.fields, ∃ text, field.name = .text text
  resourceNames : ∀ resource ∈ api.resources, ∃ text, resource.name = .text text
  operationNames : ∀ resource ∈ api.resources, ∀ operation ∈ resource.operations,
    ∃ text, operation.name = .text text
  bindingNames : ∀ resource ∈ api.resources, ∀ binding ∈ resource.bindings,
    ∃ text, binding.name = .text text
  inputs : ∀ resource ∈ api.resources, ∀ operation ∈ resource.operations, ∀ input,
    operation.input = some input → ∀ contentType ∈ input.contentType,
      contentType = "application/json"
  entities : ∀ resource ∈ api.resources, ∀ operation ∈ resource.operations,
    enclosesEntity operation.method = true → ∃ input type, operation.input = some input ∧
      input.contentType ≠ [] ∧ input.type = some type
  outputs : ∀ resource ∈ api.resources, ∀ operation ∈ resource.operations, ∀ output type,
    operation.output = some output → output.type = some type →
      ∃ contentTypes, output.contentType = some contentTypes ∧ contentTypes ≠ [] ∧
        ∀ contentType ∈ contentTypes, contentType = "application/json"
  places : ∀ resource ∈ api.resources, hasPlaces resource.path = true →
    ∀ operation ∈ resource.operations, operation.input.isSome

/-- A description that the generator can follow: bindings that share an identifier agree in name and
refer to their types, paths and methods are texts, and class names are kept apart. -/
structure Followable (api : Api) : Prop where
  shared : ∀ resource ∈ api.resources, ∀ operation ∈ resource.operations,
    ∀ parameter ∈ Operation.parameters operation, ∀ id, parameter.source = .shared id →
      id.isTruthy = true ∧ ∀ binding ∈ resource.bindings, binding.id = id →
        (∃ target link, binding.type = .reference target link) ∧
        ∀ other ∈ resource.bindings, other.id = id → other.name = binding.name
  paths : ∀ resource ∈ api.resources, ∃ text, resource.path = .text text
  methods : ∀ resource ∈ api.resources, ∀ operation ∈ resource.operations,
    ∃ text, operation.method = .text text
  classNames : Admissible [] (classRequests api)

/-- A request that carries an entity refers to its type. -/
def Named (operation : Operation) : Prop :=
  enclosesEntity operation.method = true → ∀ definition, payloadType operation ≠
    some (.inline definition)

section Plain

variable {document : Doc} {api : Api}

theorem finds_of_within (accepted : Api.ofDoc document = .ok api) (plain : Plain api)
    (given : api.Gives type) (legible : type.Legible) {target : TypeRef} {link : Doc}
    (within : (reference target link).Within type) : Codec.Finds api target := by
  have valid := Api.valid_of_validate (Api.validate_of_ofDoc accepted)
  have uses : api.Uses (.reference target link) := ⟨type, given, within⟩
  have canonical := legible.of_within within
  rw [Legible] at canonical
  refine ⟨canonical, fun name isName => valid.exists_lookup uses isName ?_⟩
  rintro rfl
  exact plain.something target link uses isName

theorem workable_of_gives (accepted : Api.ofDoc document = .ok api) (plain : Plain api)
    (given : api.Gives type) (legible : type.Legible) : Workable api type where
  spelled definition within := plain.fieldNames definition ⟨type, given, within⟩
  finds _ _ within := finds_of_within accepted plain given legible within

theorem sound_of_plain (accepted : Api.ofDoc document = .ok api) (plain : Plain api) :
    Sound api where
  names := plain.typeNames
  acyclic := plain.acyclic
  finds type member field declared target link within := by
    have readFrom := Api.readFrom_of_readParts (Api.ofDoc_eq_ok.mp accepted).1
    have legible : (DataType.inline type.definition).Legible := by
      rw [DataType.Legible]
      exact readFrom.dataTypes type member
    exact finds_of_within accepted plain (.dataType member) legible (.field declared within)

theorem bound_of_plain (accepted : Api.ofDoc document = .ok api) (plain : Plain api)
    (followable : Followable api) (inApi : resource ∈ api.resources) {operation : Operation}
    (inResource : operation ∈ resource.operations) {parameter : Parameter}
    (declared : parameter ∈ Operation.parameters operation) (legible : parameter.source.Legible) :
    Bound resource parameter := by
  cases isSource : parameter.source with
  | own binding =>
    rw [isSource] at legible
    cases legible
  | inline binding => exact ⟨[], by rw [bindingsOf, isSource], by simp⟩
  | shared id =>
    obtain ⟨isTruthy, agree⟩ :=
      followable.shared resource inApi operation inResource parameter declared id isSource
    obtain ⟨first, isBound⟩ := Option.isSome_iff_exists.mp
      (isSome_boundTo accepted inApi inResource declared (isReference_iff.mpr ⟨id, isSource⟩))
    have ofFirst := isBound
    simp only [boundTo, isSource, Option.map_eq_some_iff] at ofFirst
    obtain ⟨shared, isFound, rfl⟩ := ofFirst
    have inBindings := List.mem_of_find?_eq_some isFound
    have isId : shared.id = id := by simpa using List.find?_some isFound
    obtain ⟨text, named⟩ := plain.bindingNames resource inApi shared inBindings
    refine ⟨_, by rw [bindingsOf, isSource]; exact if_pos isTruthy, ?_⟩
    intro binding member
    obtain ⟨other, inFiltered, rfl⟩ := List.mem_map.mp member
    obtain ⟨isOther, otherId⟩ := List.mem_filter.mp inFiltered
    obtain ⟨⟨target, link, isReference⟩, sameName⟩ := agree other isOther (by simpa using otherId)
    refine ⟨_, text, target, link, isBound, named, ?_, isReference⟩
    exact (sameName shared inBindings isId).symm.trans named

theorem operable_of_plain (accepted : Api.ofDoc document = .ok api) (plain : Plain api)
    (followable : Followable api) (inApi : resource ∈ api.resources) {operation : Operation}
    (inResource : operation ∈ resource.operations) (named : Named operation) :
    Operable api resource operation := by
  obtain ⟨_, readFrom⟩ := Api.exists_readFrom accepted inApi inResource
  have legible : ∀ parameter ∈ Operation.parameters operation, parameter.source.Legible := by
    intro parameter declared
    obtain ⟨input, hasInput, inParams⟩ := exists_input_of_mem declared
    exact (readFrom.apart.input input hasInput).params parameter inParams
  constructor
  · exact plain.resourceNames resource inApi
  · exact plain.operationNames resource inApi operation inResource
  · exact followable.paths resource inApi
  · exact followable.methods resource inApi operation inResource
  · intro hasPlaces
    exact plain.places resource inApi hasPlaces operation inResource
  · exact legible
  · intro parameter declared
    exact bound_of_plain accepted plain followable inApi inResource declared
      (legible parameter declared)
  · exact plain.inputs resource inApi operation inResource
  · intro isEntity
    obtain ⟨input, type, hasInput, notEmpty, hasType⟩ :=
      plain.entities resource inApi operation inResource isEntity
    cases type with
    | reference target link => exact ⟨input, target, link, hasInput, notEmpty, hasType⟩
    | inline definition =>
      exact absurd (by simp [payloadType, hasInput, hasType]) (named isEntity definition)
  · exact (Api.valid_of_validate (Api.validate_of_ofDoc accepted)).outputs resource inApi operation
      inResource
  · exact plain.outputs resource inApi operation inResource
  · intro type isPayload
    obtain ⟨input, hasInput, hasType⟩ := Option.bind_eq_some_iff.mp isPayload
    exact workable_of_gives accepted plain (.input inApi inResource hasInput hasType)
      ((readFrom.apart.input input hasInput).type type hasType)
  · intro type isAnswer
    obtain ⟨output, hasOutput, hasType⟩ := Option.bind_eq_some_iff.mp isAnswer
    obtain ⟨value, -, readValue⟩ := readFrom.output output hasOutput
    exact workable_of_gives accepted plain (.output inApi inResource hasOutput hasType)
      (Output.legible_type_of_read readValue type hasType)

end Plain

/-! ## Where the generator stops -/

variable {preference : Option String} {before : State}

theorem named_of_draftOperation {api : Api} {type : ClassDef} {operation : Operation}
    {before after : Draft}
    (ran : Returns (draftOperation api resource type preference operation) before ⟨⟩ after) :
    Named operation := by
  intro isEntity definition isPayload
  obtain ⟨input, hasInput, hasType⟩ := Option.bind_eq_some_iff.mp isPayload
  obtain ⟨_, _, _, _, _, _, _, _, _, _, _, -, -, -, -, requests, -⟩ := exists_of_draftOperation ran
  cases requests with
  | plain isPlain => simp [isPlain] at isEntity
  | entity _ hasInput' hasType' _ _ named =>
    cases hasInput.symm.trans hasInput'
    cases hasType.symm.trans hasType'
    cases named

theorem named_of_generateOperations {api : Api} {operations : List Operation}
    {type result : ClassDef} {after : State}
    (ran : Returns (generateOperations api resource preference type operations) before result
      after) :
    ∀ operation ∈ operations, Named operation := by
  induction operations generalizing type before with
  | nil => simp
  | cons operation rest ih =>
    obtain ⟨method, middle, drafted, others⟩ := returns_bind.mp ran
    rw [List.forall_mem_cons]
    exact ⟨named_of_draftOperation (returns_newMethod.mp drafted), ih others⟩

/-- A client that was generated to the end refers to all its payloads. -/
theorem named_of_generate {api : Api} {client : State}
    (ran : Returns (generate api preference) before () client) :
    ∀ resource ∈ api.resources, ∀ operation ∈ resource.operations, Named operation := by
  intro resource inApi
  obtain ⟨_, _, -, resources⟩ := returns_bind.mp ran
  obtain ⟨_, _, generated⟩ := resources.exists_of_mem inApi
  obtain ⟨_, _, isClient, -⟩ := returns_bind.mp generated
  obtain ⟨_, -, isClient⟩ := returns_lift_bind.mp isClient
  obtain ⟨_, _, -, operations⟩ := returns_bind.mp isClient
  exact named_of_generateOperations operations

/-- The client of a plain description that the generator can follow is generated to the end exactly
if every `POST` and `PUT` operation refers to its input type. -/
theorem generate_completes_iff_named {document : Doc} {api : Api}
    (accepted : Api.ofDoc document = .ok api) (plain : Plain api) (followable : Followable api)
    (preference : Option String) :
    (∃ client, Returns (generate api preference) State.empty () client) ↔
      ∀ resource ∈ api.resources, ∀ operation ∈ resource.operations, Named operation := by
  constructor
  · rintro ⟨client, ran⟩
    exact named_of_generate ran
  · intro named
    apply exists_returns_generate (sound_of_plain accepted plain)
    · intro type member definition within
      exact plain.fieldNames definition ⟨_, .dataType member, within⟩
    · exact plain.resourceNames
    · intro resource inApi operation inResource
      exact operable_of_plain accepted plain followable inApi inResource
        (named resource inApi operation inResource)
    · exact followable.classNames

namespace Stall

/-- A stall sells orders of several items, each to an address that is described on the spot.  Orders
are looked up by their number, and changed by their number and a payload. -/
def document (payload : Doc) : Doc :=
  .object [("name", "stall"), ("base", "/"),
    ("resources", .list [.object [("name", "Order"), ("path", "/order/\x7bnumber\x7d"),
      ("inputBindings", .list [.object [("id", "byNumber"), ("mode", "url"),
        ("name", "number"), ("type", "int")]]),
      ("operations", .list [
        .object [("name", "find"), ("method", "GET"),
          ("input", .object [("params", .list [.object [("binding", "byNumber")]]),
            ("contentType", "application/json")]),
          ("output", .object [("status", .int 200), ("contentType", "application/json"),
            ("type", "Order")])],
        .object [("name", "change"), ("method", "PUT"),
          ("input", .object [("params", .list [.object [("binding", "byNumber")]]),
            ("contentType", "application/json"), ("type", payload)]),
          ("output", .object [("status", .int 200), ("contentType", "application/json")])]])]]),
    ("dataTypes", .list [
      .object [("name", "Order"), ("fields", .list [
        .object [("name", "items"), ("type", "list(Item)")],
        .object [("name", "address"), ("type", .object [("fields", .list [
          .object [("name", "street"), ("type", "string")]])])]])],
      .object [("name", "Item"),
        ("fields", .list [.object [("name", "code"), ("type", "string")]])]])]

def field (name : String) (type : DataType) : Field :=
  { name := .text name, description := none, optional := .bool false, type }

def order : NamedTypeDef :=
  { name := "Order"
    definition := ⟨[field "items" (.reference (.container .list (.custom "Item")) .null),
      field "address" (.inline ⟨[field "street" (.reference (.primitive .string) .null)], [],
        none⟩)],
      [], none⟩ }

def item : NamedTypeDef :=
  { name := "Item"
    definition := ⟨[field "code" (.reference (.primitive .string) .null)], [], none⟩ }

/-- What operations on an order take. -/
def input (type : Option DataType) : Input :=
  { contentType := ["application/json"], type
    params := [{ source := .shared "byNumber" }] }

/-- What operations on an order give. -/
def output (type : Option DataType) : Output :=
  { status := .int 200, contentType := some ["application/json"], type }

def operation (name method : String) (payload answer : Option DataType) : Operation :=
  { name := .text name, method := .text method, input := some (input payload)
    output := some (output answer) }

def operations (payload : DataType) : List Operation :=
  [operation "find" "GET" none (some (.reference (.custom "Order") .null)),
    operation "change" "PUT" (some payload) none]

def orders (payload : DataType) : Resource :=
  { name := "Order", path := "/order/\x7bnumber\x7d", operations := operations payload
    bindings :=
      [⟨⟨"url", "number", .reference (.primitive .int) .null⟩, "byNumber"⟩] }

def api (payload : DataType) : Api :=
  { name := "stall", base := ["/"], resources := [orders payload], dataTypes := [order, item] }

def named : DataType :=
  .reference (.custom "Order") .null

def onTheSpot : DataType :=
  .inline ⟨[field "note" (.reference (.primitive .string) .null)], [], none⟩

theorem accepted : Api.ofDoc (document (.text "Order")) = .ok (api named) := by
  cbv

theorem accepted_onTheSpot : Api.ofDoc (document (.object [("fields", .list [
    .object [("name", .text "note"), ("type", .text "string")]])])) = .ok (api onTheSpot) := by
  cbv

variable {payload : DataType}

theorem gives (given : (api payload).Gives type) :
    type = .inline order.definition ∨ type = .inline item.definition ∨
      type = .reference (.primitive .int) .null ∨
      type = .reference (.custom "Order") .null ∨
      type = payload := by
  simpa [api, Api.givenTypes, orders, operations, operation, Operation.givenTypes, input, output]
    using given.mem_givenTypes

theorem plain (something : ∀ target link, (reference target link).Within payload →
    target.customName? ≠
      some (.text noneName)) (spelled : payload.Spelled) : Plain (api payload) := by
  constructor
  · simp only [api, List.forall_mem_cons]
    have orderListed : (api payload).Listed 5 (.named order) [] := Api.listed_of_list? rfl
    have itemListed : (api payload).Listed 2 (.named item) [] := Api.listed_of_list? rfl
    exact ⟨Api.acyclic_of_within orderListed.within, Api.acyclic_of_within itemListed.within, by
      simp⟩
  · rintro target link ⟨type, given, within⟩
    rcases gives given with rfl | rfl | rfl | rfl | rfl
    · simp [within_inline, within_reference, order, field] at within
      rcases within with ⟨rfl, rfl⟩ | ⟨rfl, rfl⟩ <;> simp [customName?, noneName]
    · simp [within_inline, within_reference, item, field] at within
      obtain ⟨rfl, rfl⟩ := within
      simp [customName?]
    · cases within_reference.mp within
      simp [customName?]
    · cases within_reference.mp within
      simp [customName?, noneName]
    · exact something target link within
  · simp [api, order, item]
  · rintro definition ⟨type, given, within⟩
    rcases gives given with rfl | rfl | rfl | rfl | rfl
    · simp [within_inline, within_reference, order, field] at within
      rcases within with rfl | rfl <;> simp
    · simp [within_inline, within_reference, item, field] at within
      subst within
      simp
    · cases within_reference.mp within
    · cases within_reference.mp within
    · exact spelled definition within
  · simp [api, orders]
  · simp [api, orders, operations, operation]
  · simp [api, orders]
  · simp [api, orders, operations, operation, input]
  · simp [api, orders, operations, operation, input, enclosesEntity]
  · intro resource inApi operation inResource output type hasOutput hasType
    cases List.mem_singleton.mp inApi
    have json : output.contentType = some ["application/json"] := by
      rcases List.mem_cons.mp inResource with rfl | inResource
      · cases hasOutput
        rfl
      · cases List.mem_singleton.mp inResource
        cases hasOutput
        rfl
    exact ⟨_, json, by simp, by simp⟩
  · simp [api, orders, operations, operation]

theorem followable (classNames : Admissible [] (classRequests (api payload))) :
    Followable (api payload) := by
  constructor
  · simp [api, orders, operations, operation, Operation.parameters, input, Label.isTruthy]
  · simp [api, orders]
  · simp [api, orders, operations, operation]
  · exact classNames

theorem plain_named : Plain (api named) := by
  apply plain
  · intro target link within
    cases within_reference.mp within
    simp [customName?, noneName]
  · intro definition within
    cases within_reference.mp within

theorem plain_onTheSpot : Plain (api onTheSpot) := by
  apply plain
  · intro target link within
    simp [onTheSpot, within_inline, within_reference, field] at within
    obtain ⟨rfl, rfl⟩ := within
    simp [customName?]
  · intro definition within
    simp [onTheSpot, within_inline, within_reference, field] at within
    subst within
    simp

theorem admissible :
    ∀ payload ∈ [named, onTheSpot], Admissible [] (classRequests (api payload)) := by
  decide +kernel

theorem followable_named : Followable (api named) :=
  followable (admissible _ (by simp))

theorem followable_onTheSpot : Followable (api onTheSpot) :=
  followable (admissible _ (by simp))

end Stall

/-- The client of the stall is generated to the end when its payload is referred to. -/
theorem stall_completes :
    Api.ofDoc (Stall.document (.text "Order")) = .ok (Stall.api Stall.named) ∧
    Plain (Stall.api Stall.named) ∧ Followable (Stall.api Stall.named) ∧
    ∃ client, Returns (generate (Stall.api Stall.named) none) State.empty () client := by
  refine ⟨Stall.accepted, Stall.plain_named, Stall.followable_named, ?_⟩
  rw [generate_completes_iff_named Stall.accepted Stall.plain_named Stall.followable_named]
  simp [Stall.api, Stall.orders, Stall.operations, Stall.operation, Stall.input, Stall.named, Named,
    payloadType]

/-- With a payload that is described on the spot nothing else changes, and no client is
generated. -/
theorem stall_stops_on_the_spot :
    Api.ofDoc (Stall.document (.object [("fields", .list [
      .object [("name", .text "note"), ("type", .text "string")]])])) =
        .ok (Stall.api Stall.onTheSpot) ∧
    Plain (Stall.api Stall.onTheSpot) ∧ Followable (Stall.api Stall.onTheSpot) ∧
    ¬ ∃ client, Returns (generate (Stall.api Stall.onTheSpot) none) State.empty () client := by
  refine ⟨Stall.accepted_onTheSpot, Stall.plain_onTheSpot, Stall.followable_onTheSpot, ?_⟩
  rintro ⟨client, ran⟩
  exact named_of_generate ran _ List.mem_cons_self _ (List.mem_cons_of_mem _ List.mem_cons_self) rfl
    _ rfl

end Client

end ApiDescription
