import ApiDescription.Model.Validation

/-!
# Writing descriptions

A description is written as a document in a fixed order of keys, with what is empty left out, so
that the order in which an author gave the parts of an object does not matter.
-/

namespace ApiDescription

/-- A field for a label; nothing is written for a label that is absent or an empty list. -/
def Label.field (key : String) : Option Label → Doc.Fields
  | none => []
  | some (.texts []) => []
  | some label => [(key, label.toDoc)]

def Label.toDoc? : Option Label → Doc
  | none => .null
  | some label => label.toDoc

def listField (key : String) (items : List Doc) : Doc.Fields :=
  if items.isEmpty then [] else [(key, .list items)]

def textsField (key : String) (texts : List String) : Doc.Fields :=
  listField key (texts.map .text)

def presentField (key : String) (value : Doc) : Doc.Fields :=
  if value.isTruthy then [(key, value)] else []

mutual

def DataType.write : DataType → Doc
  | .reference target _ => target.referenceName
  | .inline definition => .object definition.writeFields

def TypeDef.writeFields : TypeDef → Doc.Fields
  | ⟨fields, constraints, description⟩ =>
    Label.field "description" description ++ [("fields", .list (Field.writeAll fields))] ++
      listField "constraints" (constraints.map Label.toDoc?)

def Field.writeAll : List Field → List Doc
  | [] => []
  | field :: rest => field.write :: Field.writeAll rest

def Field.write : Field → Doc
  | ⟨name, description, optional, type⟩ =>
    .object ([("name", name.toDoc)] ++ Label.field "description" description ++
      presentField "optional" optional ++ [("type", type.write)])

end

def DataType.link : DataType → Doc
  | .reference _ link => link
  | .inline _ => .null

def NamedTypeDef.write (type : NamedTypeDef) : Doc :=
  .object (("name", type.name) :: type.definition.writeFields)

def NamedBinding.write (binding : NamedBinding) : Doc :=
  .object [("id", binding.id.toDoc), ("mode", binding.mode.toDoc), ("name", binding.name.toDoc),
    ("type", binding.type.write)]

def Parameter.Source.writeFields : Parameter.Source → Doc.Fields
  | .shared id => [("binding", id.toDoc)]
  | .inline binding | .own binding =>
    [("name", binding.name.toDoc), ("mode", binding.mode.toDoc), ("type", binding.type.write)]

def Parameter.write (parameter : Parameter) : Doc :=
  .object (parameter.source.writeFields ++ Label.field "description" parameter.description ++
    if parameter.optional.isTruthy then [("optional", .bool true)] else [])

def DataType.field : Option DataType → Doc.Fields
  | none => []
  | some type => [("type", type.write)]

def Input.writeFields (input : Input) : Doc.Fields :=
  listField "params" (input.params.map Parameter.write) ++
    textsField "contentType" input.contentType ++ DataType.field input.type ++
    Label.field "description" input.description

def Header.write (header : Header) : Doc :=
  .object ([("name", header.name.toDoc)] ++ Label.field "description" header.description ++
    [("type", header.type.write)] ++ presentField "ref" header.type.link)

def Output.typeFields : Option DataType → Doc.Fields
  | none => []
  | some type => [("type", type.write)] ++ presentField "ref" type.link

def Output.writeFields (output : Output) : Doc.Fields :=
  let contentType :=
    match output.contentType with
    | none => Doc.null
    | some types => .list (types.map .text)
  [("status", output.status), ("contentType", contentType)] ++ Output.typeFields output.type ++
    Label.field "description" output.description ++
    listField "headers" (output.headers.map Header.write)

def writeError (error : Int × Label) : Doc :=
  .object [("status", .int error.1), ("cause", error.2.toDoc)]

/-- A field for a part, unless nothing is written for it. -/
def partField (key : String) (fields : Doc.Fields) : Doc.Fields :=
  if fields.isEmpty then [] else [(key, .object fields)]

def Operation.write (operation : Operation) : Doc :=
  .object ([("name", operation.name.toDoc), ("method", operation.method.toDoc)] ++
    Label.field "description" operation.description ++
    (operation.input.elim [] fun input => partField "input" input.writeFields) ++
    (operation.output.elim [] fun output => partField "output" output.writeFields) ++
    listField "errors" (operation.errors.map writeError) ++
    listField "requires" (operation.requires.map Label.toDoc?) ++
    listField "ensures" (operation.ensures.map Label.toDoc?))

def Resource.write (resource : Resource) : Doc :=
  .object (listField "inputBindings" (resource.bindings.map NamedBinding.write) ++
    [("name", resource.name.toDoc), ("path", resource.path.toDoc),
      ("operations", .list (resource.operations.map Operation.write))])

def Owner.write (owner : Owner) : Doc :=
  .object [("name", owner.name.toDoc), ("email", owner.email.toDoc),
    ("ownerType", owner.ownerType.toDoc)]

def CostModel.write (cost : CostModel) : Doc :=
  .object [("currency", cost.currency.toDoc), ("unitPrice", cost.unitPrice),
    ("requestsPerUnit", cost.requestsPerUnit)]

def ServiceLevel.write (level : ServiceLevel) : Doc :=
  .object ([("name", Label.toDoc? level.name)] ++ Label.field "description" level.description ++
    presentField "availability" level.availability ++
    (if level.rateLimit.isTruthy then
      [("rateLimit", level.rateLimit), ("timeUnit", Label.toDoc? level.timeUnit)]
    else []) ++
    level.costModel.elim [] fun cost => [("costModel", cost.write)])

def Version.write (version : Version) : Doc :=
  .object ([("id", Label.toDoc? version.id)] ++ Label.field "strategy" version.strategy)

def Api.write (api : Api) : Doc :=
  .object ([("name", api.name.toDoc)] ++ Label.field "description" api.description ++
    textsField "base" api.base ++ textsField "categories" api.categories ++
    textsField "tags" api.tags ++ Label.field "license" api.license ++
    Label.field "community" api.community ++
    [("resources", .list (api.resources.map Resource.write))] ++
    listField "dataTypes" (api.dataTypes.map NamedTypeDef.write) ++
    listField "ownership" (api.ownership.map Owner.write) ++
    listField "sla" (api.serviceLevels.map ServiceLevel.write) ++
    api.version.elim [] fun version => [("version", version.write)])

def Api.toText (api : Api) : String :=
  api.write.pretty

/-- Read a description from a text.  A description that breaks a rule is refused as it is; any other
fault makes the text unreadable. -/
def Api.ofText (text : String) : Except Fault Api :=
  match (Doc.read text).bind Api.ofDoc with
  | .ok api => .ok api
  | .error (.refused why) => .error (.refused why)
  | .error cause => .error (.unreadable cause)

/-- Read a description from a file, given its content if the file exists. -/
def Api.ofFile : Option String → Except Fault Api
  | some text => Api.ofText text
  | none => .error (.unreadable .noSuchFile)

end ApiDescription
