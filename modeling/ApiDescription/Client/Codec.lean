import ApiDescription.Client.State
import ApiDescription.Model.Schema

/-!
# Codecs

Functions of the generated client that turn values into text of a media type and back.  There is one
function per type; it calls those of its items and fields.
-/

namespace ApiDescription.Client

open Code (Line Method Fragment)

def codecName (stem : String) (type : Doc) (media : String) : Except Fault String := do
  return stem ++ "_" ++ (← NameStyle.function.stem type) ++ "_" ++ media

/-- The name of the function for a referenced type.  The name of a container is built from the type
that its item leads to. -/
def referenceCodecName (api : Api) (media : String) : String → TypeRef → Except Fault String
  | stem, .container kind item =>
    let stem := stem ++ "_" ++ kind.name
    match api.lookup item.referenceName with
    | some (.named type) => codecName stem type.name media
    | some (.reference _) => referenceCodecName api media stem item
    | some (.anonymous _) | none => .error .noAttribute
  | stem, .primitive kind => codecName stem (.text kind.name) media
  | stem, .custom name => codecName stem name media

def schemaCodecName (api : Api) (media stem : String) : Option Schema → Except Fault String
  | some (.reference target) => referenceCodecName api media stem target
  | some (.named type) => codecName stem type.name media
  | some (.anonymous _) | none => .error .noAttribute

/-- The ways to write and read values. -/
inductive Codec where
  | json
  | form
  /-- A media type for which functions are generated that cannot do their work. -/
  | unsupported (media : String)
  | undefined
  deriving DecidableEq, Repr

namespace Codec

def ofMedia (media : String) : Codec :=
  if media = "json" then json else if media = "form" then form else unsupported media

def function (name : String) (body : Method → Method) : Method :=
  body ((Method.empty .static name).addArgument (.plain "obj"))

def refusal (name : String) : Method :=
  function name fun method => method.addLine "raise NotImplementedError"

/-- Formats whose functions do their work. -/
inductive Format where
  | json
  | form
  deriving DecidableEq, Repr

namespace Format

def media : Format → String
  | json => "json"
  | form => "form"

/-- The function that writes the prepared value as text. -/
def final : Format → Method
  | json => function "serialize_final_json" (·.addLine "return json.dumps(obj)")
  | form => function "serialize_final_form" (·.addLine "return urllib.urlencode(obj)")

def plainLine : Format → String
  | json => "return obj"
  | form => "return [ ('value',obj) ]"

end Format

/-- The function that writes the prepared value as text. -/
def finalFunction : Codec → Except Fault Method
  | json => .ok Format.json.final
  | form => .ok Format.form.final
  | unsupported media => .ok (refusal ("serialize_final_" ++ media))
  | undefined => .error .notSupported

def lastName (functions : List Method) : Except Fault String :=
  match functions.getLast? with
  | some function => .ok function.name
  | none => .error .outOfBounds

def known : Option String → Except Fault String
  | some parameter => .ok parameter
  | none => .error .wrongKind

/-- Whether values of the type are written as they are: built-in types and containers of them. -/
def isPlain : DataType → Bool
  | .reference (.primitive _) _ => true
  | .reference (.container _ (.primitive _)) _ => true
  | _ => false

/-- The data type that stands for the type of a field when that is written on the spot. -/
def fieldType (owner : Doc) (field : Field) (definition : TypeDef) :
    Except Fault NamedTypeDef := do
  return .standIn ((← owner.asText) ++ "_" ++ (← field.name.asText)) definition

/-- The schema for the type of a field; only the first format can name a type written on the
spot. -/
def fieldSchema (format : Format) (owner : Doc) (field : Field) : Except Fault Schema :=
  match format, field.type with
  | .json, .inline definition => do return .named (← fieldType owner field definition)
  | _, type => .ok type.schema

/-- A field inside a function for a record: its key, the constructor argument that stands for it,
and the function that its value is handed to unless it is plain. -/
structure FieldPart where
  key : String
  parameter : String
  callee : Option String
  optional : Bool

/-- The functions for the type of a field and the one of them that its value is handed to;
`functionsFor` gives the functions for a schema. -/
def handOver (format : Format) (functionsFor : Option Schema → Except Fault (List Method))
    (owner : Doc) (field : Field) : Except Fault (List Method × Option String) :=
  if isPlain field.type then .ok ([], none)
  else do
    let inner ← functionsFor (some (← fieldSchema format owner field))
    return (inner, some (← lastName inner))

def fieldPart (state : State) (format : Format)
    (functionsFor : Option Schema → Except Fault (List Method)) (owner : Doc) (field : Field) :
    Except Fault (List Method × FieldPart) := do
  let parameter ← state.parameter owner field.name.toDoc
  let (inner, callee) ← handOver format functionsFor owner field
  let parameter ← known parameter
  let key ← field.name.asText
  return (inner, { key, parameter, callee, optional := field.optional.isTruthy })

def FieldPart.prepared (part : FieldPart) : List Fragment :=
  match part.callee with
  | none => ["obj.", part.parameter]
  | some callee => [callee, "(obj.", part.parameter, ")"]

/-- The lines that write a field; one that may be left out is written only if it is there. -/
def FieldPart.writeLines (part : FieldPart) : List Line :=
  let line : Line := .code ("output[" :: .quoted part.key :: "] = " :: part.prepared)
  if part.optional then [.code ["if obj.", part.parameter, ":"], .indent, line, .dedent] else [line]

def plainWriter (format : Format) (name : String) : Method :=
  function name (·.addLine format.plainLine)

/-- The function that writes a container: every item is handed to `callee`. -/
def itemsWriter (name callee : String) : Method :=
  function name fun method =>
    ((method.addLines ["output = list()", "for item in obj:"]).addBlock
      [.code ["output.append(", callee, "(item))"]]).addLine "return output"

def recordWriter (name : String) (parts : List FieldPart) : Method :=
  function name fun method =>
    ((method.addLine "output = dict()").addLines (parts.flatMap FieldPart.writeLines)).addLine
      "return output"

/-- The function of the given name that writes values of a type, after those of the types it is made
of. -/
def writersFor (state : State) (api : Api) (format : Format)
    (functionsFor : Option Schema → Except Fault (List Method)) (name : String) :
    Option Schema → Except Fault (List Method)
  | some (.reference (.primitive _)) => .ok [plainWriter format name]
  | some (.reference (.container _ (.primitive _))) => .ok [plainWriter format name]
  | some (.reference (.container _ item)) => do
    let inner ← functionsFor (some (.reference item))
    return inner ++ [itemsWriter name (← lastName inner)]
  | some (.named type) => do
    let parts ← type.definition.fields.mapM (fieldPart state format functionsFor type.name)
    return (parts.map Prod.fst).flatten ++ [recordWriter name (parts.map Prod.snd)]
  | some (.reference (.custom target)) => functionsFor (api.lookup target)
  | some (.anonymous _) | none => .error .noAttribute

/-- The functions that write values of a type.  Following a type into itself runs out of fuel. -/
def writersWithin (state : State) (api : Api) (format : Format) :
    Nat → Option Schema → Except Fault (List Method)
  | 0, _ => .error .tooDeep
  | fuel + 1, schema => do
    let name ← schemaCodecName api format.media "serialize" schema
    let functions ← writersFor state api format (writersWithin state api format fuel) name schema
    return functions ++ [format.final]

def FieldPart.readLine (part : FieldPart) : Line :=
  match part.callee with
  | none => .code [part.parameter, " = data.get(", .quoted part.key, ")"]
  | some callee => .code [part.parameter, " = ", callee, "(data.get(", .quoted part.key, "))"]

def reader (name : String) (body : Method → Method) : Method :=
  function name fun method => body ((method.addLine "if obj is None:").addBlock ["return None"])

/-- The lines that take the value as it is or read it from text. -/
def readerData (kind : String) (method : Method) : Method :=
  (((method.addLine (.code ["if isinstance(obj, ", kind, "):"])).addBlock ["data = obj"]).addLine
    "else:").addBlock ["data = json.loads(obj)"]

def plainReader (name : String) : Method :=
  reader name fun method =>
    ((method.addLine "if isinstance(obj, str):").addBlock ["return json.loads(obj)"]).addLine
      "return obj"

/-- The function that reads a container: every item is handed to `callee` unless it is plain. -/
def itemsReader (kind : Container) (name : String) (callee : Option String) : Method :=
  let line : Line :=
    match callee with
    | none => "container.append(item)"
    | some callee => .code ["container.append(", callee, "(item))"]
  reader name fun method =>
    (((readerData "list" method).addLines ["container = []", "for item in data:"]).addBlock
      [line]).addLine (.code ["return ", kind.name, "(container)"])

/-- A function that reads an object and returns what `result` says of it. -/
def objectReader (name : String) (result : List Line) : Method :=
  reader name fun method => (readerData "dict" method).addLines result

def recordReader (name className : String) (parts : List FieldPart) : Method :=
  let arguments := Text.join ", " (parts.map fun part => part.parameter ++ "=" ++ part.parameter)
  let result : Line := .code ["result = ", className, "(", arguments, ")"]
  objectReader name (parts.map FieldPart.readLine ++ [result, .ofText "return result"])

/-- The function that reads values of a data type, after those of the types it is made of.  The
description itself and data types that go by the name of a built-in type are taken as they are. -/
def recordReaders (state : State)
    (functionsFor : Option Schema → Except Fault (List Method)) (name : String)
    (type : NamedTypeDef) : Except Fault (List Method) :=
  if (TypeRef.ofName type.name matches .primitive _) then
    .ok [objectReader name ["return data"]]
  else if type.name.same (.text TypeRef.apiName) then
    .ok [objectReader name ["return API(data)"]]
  else do
    let className ← state.className type.name
    let parts ← type.definition.fields.mapM (fieldPart state .json functionsFor type.name)
    return (parts.map Prod.fst).flatten ++ [recordReader name className (parts.map Prod.snd)]

/-- The function of the given name that reads values of a type from text, after those of the types
it is made of. -/
def readersFor (state : State) (api : Api)
    (functionsFor : Option Schema → Except Fault (List Method)) (name : String) :
    Option Schema → Except Fault (List Method)
  | some (.reference (.primitive _)) => .ok [plainReader name]
  | some (.reference (.container kind (.primitive _))) => .ok [itemsReader kind name none]
  | some (.reference (.container kind item)) => do
    let inner ← functionsFor (some (.reference item))
    return inner ++ [itemsReader kind name (some (← lastName inner))]
  | some (.named type) => recordReaders state functionsFor name type
  | some (.reference (.custom target)) => functionsFor (api.lookup target)
  | some (.anonymous _) | none => .error .noAttribute

/-- The functions that read values of a type from text.  Following a type into itself runs out of
fuel. -/
def readersWithin (state : State) (api : Api) : Nat → Option Schema → Except Fault (List Method)
  | 0, _ => .error .tooDeep
  | fuel + 1, schema => do
    let name ← schemaCodecName api Format.json.media "deserialize" schema
    readersFor state api (readersWithin state api fuel) name schema

/-- A number of steps that is enough for every type that does not contain itself. -/
def reach (api : Api) : Option Schema → Nat
  | some schema => api.reach schema
  | none => 1

def writers (codec : Codec) (state : State) (api : Api) (schema : Option Schema) :
    Except Fault (List Method) :=
  match codec with
  | json => writersWithin state api .json (reach api schema) schema
  | form => writersWithin state api .form (reach api schema) schema
  | unsupported media => do
    let name ← schemaCodecName api media "serialize" schema
    return [refusal name, refusal ("serialize_final_" ++ media)]
  | undefined => .error .notSupported

def readers (codec : Codec) (state : State) (api : Api) (schema : Option Schema) :
    Except Fault (List Method) :=
  match codec with
  | json => readersWithin state api (reach api schema) schema
  | unsupported media => do
    return [refusal (← schemaCodecName api media "deserialize" schema)]
  | form | undefined => .error .notSupported

end Codec

end ApiDescription.Client
