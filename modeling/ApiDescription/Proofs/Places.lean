import ApiDescription.Proofs.Rereading

/-!
# Types after writing

A description that is written and read again has the same types at the same places: fields of data
types, shared bindings, inputs, parameters, outputs and headers, and the fields of record types that
stand there, at any depth.  The target of a link is another matter.  It is written beside the type
of an output and of a header only, so that it is lost at every other place; main statement: what is
left of a type and of its target at each place.
-/

namespace ApiDescription

open Api

/-! ## Places of types -/

/-- A place where a description can give a type.  Parts are counted in the order of the
description. -/
inductive Place where
  | field (type field : Nat)
  | binding (resource binding : Nat)
  | input (resource operation : Nat)
  | parameter (resource operation parameter : Nat)
  | output (resource operation : Nat)
  | header (resource operation header : Nat)
  deriving DecidableEq, Repr

/-- The type that a parameter gives, unless it refers to a shared binding. -/
def Parameter.Source.type? : Parameter.Source → Option DataType
  | .shared _ => none
  | .inline binding | .own binding => some binding.type

def Api.operationAt? (api : Api) (resource operation : Nat) : Option Operation :=
  api.resources[resource]?.bind fun resource => resource.operations[operation]?

def Api.typeAt? (api : Api) : Place → Option DataType
  | .field type field =>
    api.dataTypes[type]?.bind fun type => type.definition.fields[field]?.map (·.type)
  | .binding resource binding =>
    api.resources[resource]?.bind fun resource => resource.bindings[binding]?.map (·.type)
  | .input resource operation =>
    ((api.operationAt? resource operation).bind (·.input)).bind (·.type)
  | .parameter resource operation parameter =>
    ((api.operationAt? resource operation).bind (·.input)).bind fun input =>
      input.params[parameter]?.bind (·.source.type?)
  | .output resource operation =>
    ((api.operationAt? resource operation).bind (·.output)).bind (·.type)
  | .header resource operation header =>
    ((api.operationAt? resource operation).bind (·.output)).bind fun output =>
      output.headers[header]?.map (·.type)

/-- The type that is found in a type on a path: each step goes to a field of a record type. -/
def DataType.at? : DataType → List Nat → Option DataType
  | type, [] => some type
  | .reference _ _, _ :: _ => none
  | .inline definition, index :: path =>
    definition.fields[index]?.bind fun field => field.type.at? path

def Api.typeOn? (api : Api) (place : Place) (path : List Nat) : Option DataType :=
  (api.typeAt? place).bind (·.at? path)

/-- The places where the target of a link is written beside the type. -/
def Place.showsTarget : Place → Bool
  | .output _ _ | .header _ _ _ => true
  | .field _ _ | .binding _ _ | .input _ _ | .parameter _ _ _ => false

mutual

/-- Types that differ at most in the targets of links, and in what is said about fields and
records. -/
def DataType.SameTree : DataType → DataType → Prop
  | .reference target _, other => ∃ link, other = .reference target link
  | .inline ⟨fields, constraints, _⟩, other =>
    ∃ definition, other = .inline definition ∧ definition.constraints = constraints ∧
      Field.SameTrees fields definition.fields

/-- Fields of the same names that are optional alike, with types that differ at most in the targets
of links. -/
def Field.SameTrees : List Field → List Field → Prop
  | [], others => others = []
  | ⟨name, _, optional, type⟩ :: rest, others =>
    ∃ other others', others = other :: others' ∧ other.name = name ∧
      other.optional.isTruthy = optional.isTruthy ∧ type.SameTree other.type ∧
      Field.SameTrees rest others'

end

/-! ## Normal forms at places -/

theorem Field.normalAll_eq_map (fields : List Field) :
    Field.normalAll fields = fields.map Field.normal := by
  induction fields with
  | nil => rfl
  | cons field rest ih => rw [Field.normalAll, ih, List.map_cons]

theorem Field.type_normal (field : Field) : field.normal.type = field.type.normal := by
  obtain ⟨name, description, optional, type⟩ := field
  rfl

theorem TypeDef.fields_normal (definition : TypeDef) :
    definition.normal.fields = definition.fields.map Field.normal := by
  obtain ⟨fields, constraints, description⟩ := definition
  exact Field.normalAll_eq_map fields

theorem DataType.at?_normal (type : DataType) (path : List Nat) :
    type.normal.at? path = (type.at? path).map DataType.normal := by
  induction path generalizing type with
  | nil => rfl
  | cons index path ih =>
    cases type with
    | reference target link => rfl
    | inline definition =>
      simp only [DataType.normal, DataType.at?, TypeDef.fields_normal, List.getElem?_map]
      cases definition.fields[index]? with
      | none => rfl
      | some field => simp [Field.type_normal, ih]

theorem DataType.at?_normalLinked_cons (type : DataType) (index : Nat) (path : List Nat) :
    type.normalLinked.at? (index :: path) = type.normal.at? (index :: path) := by
  cases type with
  | reference target link => rfl
  | inline definition => rfl

def Place.kept (place : Place) : DataType → DataType :=
  if place.showsTarget then DataType.normalLinked else DataType.normal

/-- A blank input has neither a type nor parameters, so that nothing is lost with it. -/
theorem Input.kept_bind {α : Type} (input : Option Input) (look : Input → Option α)
    (blind : ∀ given : Input, given.Blank → look given.normal = none) :
    (Input.kept input).bind look = input.bind fun given => look given.normal := by
  cases input with
  | none => rfl
  | some given =>
    by_cases empty : given.writeFields = []
    · simp [Input.kept, empty, blind given (given.writeFields_eq_nil.mp empty)]
    · simp [Input.kept, empty]

theorem Parameter.Source.type?_normal (source : Parameter.Source) :
    source.normal.type? = source.type?.map DataType.normal := by
  cases source <;> rfl

theorem Api.operationAt?_reread (api : Api) (resource operation : Nat) :
    api.reread.operationAt? resource operation = (api.operationAt? resource operation).map
        fun operation => operation.normal.mapOutput Output.filled := by
  simp only [operationAt?, reread, mapOutputs, normal, List.getElem?_map]
  cases api.resources[resource]? with
  | none => rfl
  | some resource =>
    simp [Resource.mapOutputs, Resource.normal, Function.comp_def]

/-- The inputs of a description that is read again: what is looked up in them is not changed by
leaving out those that say nothing. -/
theorem Api.input_bind_reread {α : Type} (api : Api) (resource operation : Nat)
    (look : Input → Option α) (blind : ∀ given : Input, given.Blank → look given.normal = none) :
    ((api.reread.operationAt? resource operation).bind (·.input)).bind look =
      ((api.operationAt? resource operation).bind (·.input)).bind
        fun input => look input.normal := by
  rw [operationAt?_reread]
  cases api.operationAt? resource operation with
  | none => rfl
  | some operation => exact Input.kept_bind operation.input look blind

theorem Api.output_bind_reread {α : Type} (api : Api) (resource operation : Nat)
    (look : Output → Option α) :
    ((api.reread.operationAt? resource operation).bind (·.output)).bind look =
      ((api.operationAt? resource operation).bind (·.output)).bind
        fun output => look output.normal.filled := by
  rw [operationAt?_reread]
  cases api.operationAt? resource operation with
  | none => rfl
  | some operation =>
    cases given : operation.output <;> simp [Operation.mapOutput, Operation.normal, given]

/-- At every place the description that is read again has what is left of the type there. -/
theorem Api.typeAt?_reread (api : Api) (place : Place) :
    api.reread.typeAt? place = (api.typeAt? place).map place.kept := by
  cases place with
  | field type field =>
    simp only [typeAt?, reread, mapOutputs, normal, List.getElem?_map]
    cases api.dataTypes[type]? with
    | none => rfl
    | some type =>
      simp [NamedTypeDef.normal, TypeDef.fields_normal, Function.comp_def, Field.type_normal,
        Place.kept, Place.showsTarget]
  | binding resource binding =>
    simp only [typeAt?, reread, mapOutputs, normal, List.getElem?_map]
    cases api.resources[resource]? with
    | none => rfl
    | some resource =>
      simp [Resource.mapOutputs, Resource.normal, NamedBinding.normal, Function.comp_def,
        Place.kept, Place.showsTarget]
  | input resource operation =>
    rw [typeAt?, input_bind_reread, typeAt?, Option.map_bind]
    · rfl
    · intro given blank
      simp [Input.normal, blank.type]
  | parameter resource operation parameter =>
    rw [typeAt?, input_bind_reread, typeAt?, Option.map_bind]
    · congr 1
      funext input
      simp only [Input.normal, List.getElem?_map, Function.comp_apply]
      cases input.params[parameter]? with
      | none => rfl
      | some parameter => exact parameter.source.type?_normal
    · intro given blank
      simp [Input.normal, blank.params]
  | output resource operation =>
    rw [typeAt?, output_bind_reread, typeAt?, Option.map_bind]
    rfl
  | header resource operation header =>
    rw [typeAt?, output_bind_reread, typeAt?, Option.map_bind]
    congr 1
    funext output
    simp only [Output.filled, Output.normal, List.getElem?_map, Function.comp_apply]
    cases output.headers[header]? <;> rfl

/-! ## Agreement of types -/

theorem Doc.isTruthy_kept (value : Doc) {default : Doc} (absent : default.isTruthy = false) :
    (value.kept default).isTruthy = value.isTruthy := by
  unfold Doc.kept
  split
  · rfl
  · next falsy => simp [absent, falsy]

mutual

theorem DataType.sameTree_normal : (type : DataType) → type.SameTree type.normal
  | .reference _ _ => ⟨.null, rfl⟩
  | .inline ⟨fields, _, _⟩ =>
    ⟨_, rfl, rfl, Field.sameTrees_normalAll fields⟩

theorem Field.sameTrees_normalAll :
    (fields : List Field) → Field.SameTrees fields (Field.normalAll fields)
  | [] => rfl
  | ⟨_, _, optional, type⟩ :: rest =>
    ⟨_, _, rfl, rfl, Doc.isTruthy_kept optional rfl, DataType.sameTree_normal type,
      Field.sameTrees_normalAll rest⟩

end

theorem DataType.sameTree_normalLinked (type : DataType) : type.SameTree type.normalLinked := by
  cases type with
  | reference target link => exact ⟨_, rfl⟩
  | inline definition => exact DataType.sameTree_normal (.inline definition)

theorem DataType.link_normal (type : DataType) : type.normal.link = .null := by
  cases type <;> rfl

theorem DataType.link_normalLinked (type : DataType) :
    type.normalLinked.link = type.link.kept .null := by
  cases type <;> rfl

/-- Whether a type on a path from a place is written with the target of a link. -/
def Place.writesTarget (place : Place) (path : List Nat) : Bool :=
  place.showsTarget && path.isEmpty

/-- On every path from a place the description that is read again has the type without its target
or, where targets are written, with it. -/
theorem Api.typeOn?_reread (api : Api) (place : Place) (path : List Nat) :
    api.reread.typeOn? place path = (api.typeOn? place path).map
        (if place.writesTarget path then DataType.normalLinked else DataType.normal) := by
  rw [typeOn?, typeAt?_reread, typeOn?]
  cases api.typeAt? place with
  | none => rfl
  | some type =>
    cases path with
    | nil => simp [DataType.at?, Place.kept, Place.writesTarget]
    | cons index path =>
      have left : (place.kept type).at? (index :: path) = type.normal.at? (index :: path) := by
        unfold Place.kept
        split
        · exact type.at?_normalLinked_cons index path
        · rfl
      simp [left, DataType.at?_normal, Place.writesTarget]

/-- What is left of the types of a description: when the document that is written for it is
accepted, a type stands on a path from a place before if and only if one stands there after, and
both have the same tree.  The target of a link is kept at outputs and headers, unless it counts as
absent, and lost everywhere else. -/
theorem Api.types_survive {document : Doc} {api again : Api}
    (accepted : Api.ofDoc document = .ok api) (acceptedAgain : Api.ofDoc api.write = .ok again)
    (place : Place) (path : List Nat) :
    Option.Rel
      (fun before after => before.SameTree after ∧
        after.link = if place.writesTarget path then before.link.kept .null else .null)
      (api.typeOn? place path) (again.typeOn? place path) := by
  have same : again = api.reread := by
    rw [Api.ofDoc_write accepted] at acceptedAgain
    obtain ⟨_, -, same⟩ := Outcome.map_eq_ok.mp acceptedAgain
    exact same.symm
  rw [same, Api.typeOn?_reread]
  cases api.typeOn? place path with
  | none => exact .none
  | some type =>
    refine .some ?_
    by_cases shown : place.writesTarget path
    · simp only [shown, if_true]
      exact ⟨type.sameTree_normalLinked, type.link_normalLinked⟩
    · simp only [shown]
      exact ⟨type.sameTree_normal, type.link_normal⟩

/-- Orders that link to the next one, from a field and from the answer of an operation. -/
def Doc.orders : Doc :=
  .object [("name", "orders"), ("resources", .list [.object [("name", "order"),
    ("path", "/order"), ("operations", .list [.object [("name", "get"),
      ("method", "GET"), ("output", .object [("status", .int 200), ("type", "href"),
        ("ref", "Order")])]])]]),
    ("dataTypes", .list [.object [("name", "Order"), ("fields", .list [
      .object [("name", "next"), ("type", "href"), ("ref", "Order")]])]])]

/-- The description of `Doc.orders`, with the target of the link in the field of an order. -/
def Api.orders (target : Doc) : Api :=
  { name := "orders"
    resources := [
      { name := "order", path := "/order"
        operations := [
          { name := "get", method := "GET", output := some
              { status := .int 200, type := some (.reference (.primitive .href) "Order") } }] }]
    dataTypes := [⟨"Order",
      ⟨[⟨"next", none, .bool false, .reference (.primitive .href) target⟩], [], none⟩⟩] }

theorem Api.orders_types_survive :
    Api.ofDoc Doc.orders = .ok (Api.orders (.text "Order")) ∧
      Api.ofDoc (Api.orders (.text "Order")).write = .ok (Api.orders .null) ∧
      Option.Rel (fun before after => before.SameTree after ∧ after.link = before.link.kept .null)
        ((Api.orders (.text "Order")).typeOn? (.output 0 0) [])
        ((Api.orders .null).typeOn? (.output 0 0) []) := by
  have accepted : Api.ofDoc Doc.orders = .ok (Api.orders (.text "Order")) := by cbv
  have acceptedAgain :
      Api.ofDoc (Api.orders (.text "Order")).write = .ok (Api.orders .null) := by cbv
  exact ⟨accepted, acceptedAgain, Api.types_survive accepted acceptedAgain (.output 0 0) []⟩

/-- The target of a link in a field is lost. -/
theorem Api.target_lost_in_field :
    Api.ofDoc Doc.orders = .ok (Api.orders (.text "Order")) ∧
      Api.ofDoc (Api.orders (.text "Order")).write = .ok (Api.orders .null) ∧
      (Api.orders (.text "Order")).typeOn? (.field 0 0) [] =
        some (.reference (.primitive .href) (.text "Order")) ∧
      (Api.orders .null).typeOn? (.field 0 0) [] =
        some (.reference (.primitive .href) .null) := by
  refine ⟨?_, ?_, rfl, rfl⟩ <;> cbv

end ApiDescription
