import ApiDescription.Model.Basic

/-!
# Reading descriptions

The parts of a description are read from documents.  A part that is absent (`null`) is refused
unless it may be empty; a value without fields is no part at all.  Where the order of checks shows
in which fault is reported, it is the order of the definitions below.
-/

namespace ApiDescription

namespace Doc.Fields

def label (fields : Fields) (key : String) : Except Fault Label :=
  match fields.lookup key with
  | some value => .ok (.ofDoc value)
  | none => refuse (.required key)

def label? (fields : Fields) (key : String) : Option Label :=
  (fields.lookup key).map .ofDoc

def texts (fields : Fields) (key : String) : List String :=
  match fields.lookup key with
  | none => []
  | some (.list items) => items.map Doc.words
  | some value => [value.words]

def value (fields : Fields) (key : String) (absent : Doc) : Doc :=
  (fields.lookup key).getD absent

def requiredValue (fields : Fields) (key : String) : Except Fault Doc :=
  match fields.lookup key with
  | some value => .ok value
  | none => refuse (.required key)

def part {α : Type} (fields : Fields) (key : String) (read : Doc → Except Fault α) :
    Except Fault (Option α) :=
  match fields.lookup key with
  | some value => do return some (← read value)
  | none => .ok none

def parts {α : Type} (fields : Fields) (key : String) (read : Doc → Except Fault α) :
    Except Fault (List α) :=
  match fields.lookup key with
  | some value => do (← value.elements).mapM read
  | none => .ok []

def conditions (fields : Fields) (key : String) : Except Fault (List Condition) :=
  fields.parts key fun value => .ok (some (.ofDoc value))

end Doc.Fields

/-- The fields of a document for a part that must not be absent. -/
def Part.fieldsOf (part : Part) : Doc → Except Fault Doc.Fields
  | .null => refuse (.underspecified part)
  | .object fields => .ok fields
  | _ => .error .noAttribute

mutual

def Field.read : Doc → Except Fault Field
  | .null => refuse (.underspecified .field)
  | .object fields => do
    let name ← Doc.Fields.label fields "name"
    let type ← DataType.readIn fields fields
    return {
      name
      description := Doc.Fields.label? fields "description"
      optional := Doc.Fields.value fields "optional" (.bool false)
      type }
  | _ => .error .noAttribute

/-- Read the type among the fields of a part; the target of a link stands beside it in `part`. -/
def DataType.readIn (part : Doc.Fields) : Doc.Fields → Except Fault DataType
  | [] => .error (.missingKey "type")
  | (key, value) :: rest =>
    if key = "type" then DataType.ofValue part value else DataType.readIn part rest

def DataType.ofValue (part : Doc.Fields) : Doc → Except Fault DataType
  | .object fields => do return .inline (← TypeDef.readFields fields)
  | name => .ok (.reference (.ofName name) (part.value "ref" .null))

def TypeDef.readFields (fields : Doc.Fields) : Except Fault TypeDef := do
  return {
    fields := ← Field.readIn fields
    description := fields.label? "description"
    constraints := ← fields.conditions "constraints" }

def Field.readIn : Doc.Fields → Except Fault (List Field)
  | [] => .error (.missingKey "fields")
  | (key, value) :: rest =>
    if key = "fields" then Field.readAll value else Field.readIn rest

/-- Read all fields of a record type.  Keys and characters are no fields. -/
def Field.readAll : Doc → Except Fault (List Field)
  | .list items => Field.readItems items
  | .object fields => if fields.isEmpty then .ok [] else .error .noAttribute
  | .text value => if value.isEmpty then .ok [] else .error .noAttribute
  | _ => .error .wrongKind

def Field.readItems : List Doc → Except Fault (List Field)
  | [] => .ok []
  | item :: rest => do
    let field ← Field.read item
    return field :: (← Field.readItems rest)

end

def DataType.read (part : Doc.Fields) : Except Fault DataType :=
  DataType.readIn part part

def NamedTypeDef.read : Doc → Except Fault NamedTypeDef
  | .null => refuse (.underspecified .namedTypeDef)
  | .object fields => do
    let definition ← TypeDef.readFields fields
    return { name := ← (Doc.object fields).get "name", definition }
  | _ => .error .wrongKind

def InputBinding.read (fields : Doc.Fields) : Except Fault InputBinding := do
  return {
    mode := ← fields.label "mode"
    name := ← fields.label "name"
    type := ← DataType.read fields }

def NamedBinding.read (document : Doc) : Except Fault NamedBinding := do
  let fields ← Part.inputBinding.fieldsOf document
  return { toInputBinding := ← InputBinding.read fields, id := ← fields.label "id" }

def Parameter.read (document : Doc) : Except Fault Parameter := do
  let fields ← Part.parameter.fieldsOf document
  let source ←
    match fields.label? "binding" with
    | some id => pure (Parameter.Source.shared id)
    | none => Parameter.Source.inline <$> InputBinding.read fields
  return {
    source
    description := fields.label? "description"
    optional := fields.value "optional" (.bool false) }

def DataType.read? (part : Doc.Fields) : Except Fault (Option DataType) :=
  if (part.lookup "type").isSome then some <$> DataType.read part else .ok none

def Input.read (document : Doc) : Except Fault Input := do
  let fields ← Part.input.fieldsOf document
  return {
    contentType := fields.texts "contentType"
    description := fields.label? "description"
    params := ← fields.parts "params" Parameter.read
    type := ← DataType.read? fields }

def Header.read (document : Doc) : Except Fault Header := do
  let fields ← Part.header.fieldsOf document
  return {
    name := ← fields.label "name"
    description := fields.label? "description"
    type := ← DataType.read fields }

def Output.empty : Output :=
  { status := .null, contentType := none, type := none, headers := [], description := none }

def Output.read : Doc → Except Fault Output
  | .null => .ok Output.empty
  | document => do
    let fields ← Part.output.fieldsOf document
    return {
      status := ← fields.requiredValue "status"
      contentType := some (fields.texts "contentType")
      description := fields.label? "description"
      type := ← DataType.read? fields
      headers := ← fields.parts "headers" Header.read }

def statusNumber : Doc → Except Fault Int
  | .bool value => .ok (if value then 1 else 0)
  | .int value => .ok value
  | .float value =>
    if value.isNaN then .error .badValue
    else if value.isInf then .error .overflow
    else .ok (Decimal.truncate value)
  | .text value =>
    match Decimal.readInt value with
    | some number => .ok number
    | none => .error .badValue
  | _ => .error .wrongKind

def setError (errors : List (Int × Label)) (status : Int) (cause : Label) : List (Int × Label) :=
  match errors with
  | [] => [(status, cause)]
  | (number, old) :: rest =>
    if number = status then (number, cause) :: rest
    else (number, old) :: setError rest status cause

/-- Read one error; its cause is looked up before its status. -/
def readError (document : Doc) : Except Fault (Int × Label) := do
  let cause ← document.get "cause"
  let status ← document.get "status"
  return (← statusNumber status, .ofDoc cause)

def Operation.read (document : Doc) : Except Fault Operation := do
  let fields ← Part.operation.fieldsOf document
  let name ← fields.label "name"
  let method ← fields.label "method"
  let input ← fields.part "input" Input.read
  let output ← fields.part "output" Output.read
  let errors ← fields.parts "errors" readError
  return {
    name
    method
    description := fields.label? "description"
    input
    output
    errors := errors.foldl (fun known error => setError known error.1 error.2) []
    requires := ← fields.conditions "requires"
    ensures := ← fields.conditions "ensures" }

def Resource.read (document : Doc) : Except Fault Resource := do
  let fields ← Part.resource.fieldsOf document
  let name ← fields.label "name"
  let path ← fields.label "path"
  let operations ← (← (Doc.object fields).get "operations").elements
  return {
    name
    path
    operations := ← operations.mapM Operation.read
    bindings := ← fields.parts "inputBindings" NamedBinding.read }

def Owner.read (document : Doc) : Except Fault Owner := do
  let fields ← Part.owner.fieldsOf document
  return {
    name := ← fields.label "name"
    email := ← fields.label "email"
    ownerType := ← fields.label "ownerType" }

def CostModel.read (document : Doc) : Except Fault CostModel := do
  let fields ← Part.costModel.fieldsOf document
  return {
    currency := ← fields.label "currency"
    unitPrice := ← fields.requiredValue "unitPrice"
    requestsPerUnit := ← fields.requiredValue "requestsPerUnit" }

def ServiceLevel.empty : ServiceLevel :=
  { name := none, description := none, availability := .float 0.0, rateLimit := .int 0,
    timeUnit := none, costModel := none }

/-- Read a service level; an absent one promises nothing.  A limit needs its time unit. -/
def ServiceLevel.read : Doc → Except Fault ServiceLevel
  | .null => .ok ServiceLevel.empty
  | document => do
    let fields ← Part.serviceLevel.fieldsOf document
    let name ← fields.label "name"
    let rateLimit := fields.value "rateLimit" (.int 0)
    let timeUnit ←
      if rateLimit.isTruthy then some <$> fields.label "timeUnit" else pure none
    return {
      name := some name
      description := fields.label? "description"
      availability := fields.value "availability" (.float 0.0)
      rateLimit
      timeUnit
      costModel := ← fields.part "costModel" CostModel.read }

def Version.read : Doc → Except Fault Version
  | .null => .ok { id := none, strategy := none }
  | document => do
    let fields ← Part.version.fieldsOf document
    return { id := some (← fields.label "id"), strategy := fields.label? "strategy" }

/-- Read the parts of a description without checking how they fit together. -/
def Api.readParts (document : Doc) : Except Fault Api := do
  let fields ← Part.api.fieldsOf document
  return {
    name := ← fields.label "name"
    description := fields.label? "description"
    base := fields.texts "base"
    categories := fields.texts "categories"
    tags := fields.texts "tags"
    license := fields.label? "license"
    community := fields.label? "community"
    resources := ← fields.parts "resources" Resource.read
    dataTypes := ← fields.parts "dataTypes" NamedTypeDef.read
    ownership := ← fields.parts "ownership" Owner.read
    serviceLevels := ← fields.parts "sla" ServiceLevel.read
    version := ← fields.part "version" Version.read }

end ApiDescription
