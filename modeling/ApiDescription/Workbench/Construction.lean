import ApiDescription.Model.Reader
import ApiDescription.Workbench.Checks

/-!
# Making parts

A part is made either from a document or from single values for some of its attributes, never from
both.
-/

namespace ApiDescription.Workbench

/-- The values that a part is made from, by name. -/
abbrev Arguments := List (String × Slot)

def Arguments.value (arguments : Arguments) (name : String) : Slot :=
  (arguments.lookup name).getD .null

namespace Kind

/-- The single values from which a part can be made, each with the attribute it sets. -/
def values : Kind → List (String × String)
  | field | header => [("name", "name"), ("type", "type")]
  | typeRef => []
  | primitiveRef | containerRef | customRef => [("name", "name")]
  | typeDef => [("fields", "fields")]
  | namedTypeDef => [("name", "name"), ("fields", "fields")]
  | dataType => []
  | inputBinding => [("mode", "mode"), ("name", "name"), ("type", "type")]
  | namedBinding => [("id", "id"), ("mode", "mode"), ("name", "name"), ("type", "type")]
  | parameter => [("binding", "binding")]
  | input => [("content_type", "contentType"), ("type", "type")]
  | output => [("status", "status"), ("content_type", "contentType"), ("type", "type")]
  | operation => [("name", "name"), ("method", "method")]
  | resource => [("name", "name"), ("path", "path")]
  | owner => [("name", "name"), ("email", "email"), ("type", "ownerType")]
  | costModel =>
    [("currency", "currency"), ("unit_price", "unitPrice"), ("requests", "requestsPerUnit")]
  | serviceLevel => [("name", "name")]
  | version => [("id", "id")]
  | api => [("name", "name")]

def takesDocument : Kind → Bool
  | typeRef | primitiveRef | containerRef | customRef => false
  | _ => true

/-- Whether a value must be given when there is no document, and left out when there is one. -/
def isChecked (kind : Kind) (name : String) : Bool :=
  kind != namedBinding || name != "id"

def part? : Kind → Option Part
  | field => some .field
  | typeDef => some .typeDef
  | namedTypeDef => some .namedTypeDef
  | inputBinding | namedBinding => some .inputBinding
  | parameter => some .parameter
  | input => some .input
  | header => some .header
  | output => some .output
  | operation => some .operation
  | resource => some .resource
  | owner => some .owner
  | costModel => some .costModel
  | serviceLevel => some .serviceLevel
  | version => some .version
  | api => some .api
  | typeRef | primitiveRef | containerRef | customRef | dataType => none

end Kind

def placeReference : TypeRef → Work Nat
  | .primitive kind => place { kind := .primitiveRef, attributes := [("name", .text kind.name)] }
  | .container kind item => do
    let inner ← placeReference item
    place {
      kind := .containerRef
      attributes := [("container", .text kind.name), ("type", .part inner)] }
  | .custom name => place { kind := .customRef, attributes := [("name", .plain name)] }

def referTo : Slot → Work Nat
  | .plain name => placeReference (.ofName name)
  | name => place { kind := .customRef, attributes := [("name", name)] }

def makePrimitive (name : Slot) : Work Nat := do
  let spelled ← name.asText
  match Primitive.ofName? spelled with
  | some kind => placeReference (.primitive kind)
  | none => refuse (.unknownPrimitive spelled)

def makeContainer : Slot → Work Nat
  | .plain (.text name) =>
    match TypeRef.splitContainer name.toList with
    | none => throw .badValue
    | some (kind, item) =>
      match Container.ofName? (String.ofList kind) with
      | some container => do
        placeReference (.container container (.ofText (String.ofList item)))
      | none => refuse (.unknownContainer (String.ofList kind))
  | .list items => throw (if isAmong (.text "(") items then .wrongKind else .badValue)
  | _ => throw .noAttribute

/-- Take an attribute of a part from a table.  A list attribute grows, a number or truth value is
replaced by the value as it is, and anything else by the text of the value. -/
def takeAttribute (target table : Slot) (key : String) (isRequired : Bool) : Work Unit := do
  match ← table.field? key with
  | none => if isRequired then refuse (.required key)
  | some value =>
    let changed ←
      match ← attributeOf target key with
      | .list items => do
        match ← value.label with
        | .list added => pure (Slot.list (items ++ added))
        | added => pure (Slot.list (items ++ [added]))
      | .plain (.bool _) | .plain (.int _) | .plain (.float _) => pure value
      | _ => value.label
    if let .part number := target then assign number key changed

def labelsOf (table : Slot) (key : String) : Work Slot := do
  match ← table.field? key with
  | none => return .list []
  | some listed => return .list (← (← listed.elements).mapM fun value => value.label)

/-- Set the cause for a status: a status that is there keeps its place. -/
def putCause (entries : List (Int × Slot)) (status : Int) (cause : Slot) : List (Int × Slot) :=
  match entries with
  | [] => [(status, cause)]
  | (number, old) :: rest =>
    if number = status then (number, cause) :: rest
    else (number, old) :: putCause rest status cause

def setValues (kind : Kind) (number : Nat) (arguments : Arguments) : Work Unit := do
  for (name, target) in kind.values do
    assign number target (arguments.value name)

def makeByHand (kind : Kind) (part : Part) (arguments : Arguments) : Work Nat := do
  let needed := (kind.values.filter fun value => kind.isChecked value.1).map fun value =>
    arguments.value value.1
  let number ← place { kind, attributes := kind.blank }
  match kind with
  | .output => setValues kind number arguments
  | .input =>
    if (arguments.value "type").isNull then refuse (.underspecified part)
    assign number "type" (arguments.value "type")
    match arguments.value "content_type" with
    | .plain .null => pure ()
    | .list items => assign number "contentType" (.list items)
    | value => assign number "contentType" (.list [value])
  | .serviceLevel | .version =>
    if needed.any fun value => !value.isNull then refuse (.underspecified part)
  | _ =>
    if needed.any Slot.isNull then refuse (.underspecified part)
    setValues kind number arguments
  return number

/-- How the parts inside a document are made. -/
abbrev Nested := Kind → Slot → Work Slot

namespace Nested

def under (nested : Nested) (table : Slot) (key : String) (kind : Kind) : Work Slot := do
  match ← table.field? key with
  | none => return .null
  | some value => nested kind value

def listed (nested : Nested) (table : Slot) (key : String) (kind : Kind) : Work Slot := do
  match ← table.field? key with
  | none => return .list []
  | some value => return .list (← (← value.elements).mapM (nested kind))

def fillType (nested : Nested) (number : Nat) (data : Slot) : Work Unit := do
  assign number "type" (← nested .dataType data)

def fillType? (nested : Nested) (number : Nat) (data : Slot) : Work Unit := do
  if (← data.field? "type").isSome then nested.fillType number data

def fillTypeDef (nested : Nested) (number : Nat) (data : Slot) : Work Unit := do
  let fields ← (← data.field "fields").elements
  assign number "fields" (.list (← fields.mapM (nested .field)))
  takeAttribute (.part number) data "description" false
  assign number "constraints" (← labelsOf data "constraints")

def fillBinding (nested : Nested) (number : Nat) (data : Slot) : Work Unit := do
  takeAttribute (.part number) data "mode" true
  takeAttribute (.part number) data "name" true
  nested.fillType number data

/-- The causes of errors listed in a table; the cause of an error is looked up before its status. -/
def causesIn (data : Slot) : Work Slot := do
  let mut causes := []
  if let some errors ← data.field? "errors" then
    for error in ← errors.elements do
      let cause ← (← error.field "cause").label
      let status ← statusNumber (← (← error.field "status").toDoc)
      causes := putCause causes status cause
  return .causes causes

def fill (nested : Nested) (kind : Kind) (number : Nat) (data : Slot) : Work Unit := do
  let required (key : String) := takeAttribute (.part number) data key true
  let optional (key : String) := takeAttribute (.part number) data key false
  match kind with
  | .field =>
    required "name"
    ["description", "optional"].forM optional
    nested.fillType number data
  | .typeDef => nested.fillTypeDef number data
  | .namedTypeDef =>
    nested.fillTypeDef number data
    assign number "name" (← data.field "name")
  | .inputBinding => nested.fillBinding number data
  | .namedBinding =>
    nested.fillBinding number data
    required "id"
  | .parameter =>
    if (← data.field? "binding").isSome then optional "binding"
    else assign number "binding" (← nested .inputBinding data)
    ["description", "optional"].forM optional
  | .input =>
    ["contentType", "description"].forM optional
    assign number "params" (← nested.listed data "params" .parameter)
    nested.fillType? number data
  | .header =>
    required "name"
    optional "description"
    nested.fillType number data
  | .output =>
    required "status"
    ["contentType", "description"].forM optional
    nested.fillType? number data
    assign number "headers" (← nested.listed data "headers" .header)
  | .operation =>
    ["name", "method"].forM required
    optional "description"
    assign number "input" (← nested.under data "input" .input)
    assign number "output" (← nested.under data "output" .output)
    assign number "errors" (← causesIn data)
    assign number "requires" (← labelsOf data "requires")
    assign number "ensures" (← labelsOf data "ensures")
  | .resource =>
    ["name", "path"].forM required
    let operations ← (← data.field "operations").elements
    assign number "operations" (.list (← operations.mapM (nested .operation)))
    assign number "input_bindings" (← nested.listed data "inputBindings" .namedBinding)
  | .owner => ["name", "email", "ownerType"].forM required
  | .costModel => ["currency", "unitPrice", "requestsPerUnit"].forM required
  | .serviceLevel =>
    required "name"
    ["description", "availability", "rateLimit"].forM optional
    if (← attributeOf (.part number) "rateLimit").isTruthy then required "timeUnit"
    assign number "costModel" (← nested.under data "costModel" .costModel)
  | .version =>
    required "id"
    optional "strategy"
  | .api =>
    required "name"
    ["description", "base", "categories", "tags", "license", "community"].forM optional
    assign number "resources" (← nested.listed data "resources" .resource)
    assign number "data_types" (← nested.listed data "dataTypes" .namedTypeDef)
    assign number "ownership" (← nested.listed data "ownership" .owner)
    assign number "sla" (← nested.listed data "sla" .serviceLevel)
    assign number "version" (← nested.under data "version" .version)
    validate depthLimit (.part number) []
  | .typeRef | .primitiveRef | .containerRef | .customRef | .dataType => return ()

def makeDataType (nested : Nested) (data : Slot) : Work Nat := do
  match ← data.field "type" with
  | .table fields =>
    let definition ← nested .typeDef (.table fields)
    place { kind := .dataType, attributes := [("ref", .null), ("type", definition)] }
  | name =>
    let reference ← referTo name
    let link := (← data.field? "ref").getD .null
    place { kind := .dataType, attributes := [("ref", link), ("type", .part reference)] }

/-- Make a part that is not refused for the number of values it is made from. -/
def makeOther (nested : Nested) (kind : Kind) (arguments : Arguments) : Work Nat :=
  match kind, arguments.lookup "name" with
  | .dataType, _ => nested.makeDataType (arguments.value "data")
  | .primitiveRef, some name => makePrimitive name
  | .containerRef, some name => makeContainer name
  | .customRef, some name => place { kind, attributes := [("name", name)] }
  | .typeRef, _ => place { kind, attributes := [] }
  | _, _ => throw .wrongKind

end Nested

def make : Nat → Kind → Arguments → Work Nat
  | 0, _, _ => throw .tooDeep
  | depth + 1, kind, arguments => do
    let nested : Nested := fun kind data => do return .part (← make depth kind [("data", data)])
    let names := (if kind.takesDocument then ["data"] else []) ++ kind.values.map (·.1)
    if arguments.any fun argument => !names.contains argument.1 then throw .wrongKind
    match kind.part? with
    | none => nested.makeOther kind arguments
    | some part =>
      let data := arguments.value "data"
      if data.isNull then makeByHand kind part arguments
      else
        let given := kind.values.any fun value =>
          kind.isChecked value.1 && !(arguments.value value.1).isNull
        if given then refuse (.overspecified part)
        let number ← place { kind, attributes := kind.blank }
        nested.fill kind number data
        return number

end ApiDescription.Workbench
