import ApiDescription.Client.Codec
import ApiDescription.Client.DataTypes
import ApiDescription.Model.Validation

/-!
# Methods for operations

An operation becomes a method of the client of its resource: it takes the parameters and the
payload, puts together a request, checks the answer and reads it.  The steps write into one method,
which keeps what was written when a later step fails.
-/

namespace ApiDescription.Client

open Code (ClassDef Line Method Argument)

/-- A statement in the body of the method for an operation. -/
inductive Statement where
  | queryStart
  | queryData
  | queryValue (argument key : String) (isBoolean : Bool)
  | queryEnd
  | connect
  | payload (contentType media function argument : String)
  | request (method path : String) (entity : Bool)
  | response
  | answer (status errors : String)
  | result (function : String)

def Statement.lines : Statement → List Line
  | queryStart => ["query = ''"]
  | queryData => ["query_data = dict()"]
  | queryValue argument key true =>
    [.code ["if ", argument, " is not None:"], .indent,
      .code ["query_data[", .quoted key, "] = str(bool(", argument, ")).lower()"], .dedent]
  | queryValue argument key false =>
    [.code ["if ", argument, ":"], .indent,
      .code ["query_data[", .quoted key, "] = str(", argument, ")"], .dedent]
  | queryEnd =>
    ["if query_data:", .indent, "query = '?' + urllib.urlencode(query_data)", .dedent]
  | connect => ["conn = self.get_connection()"]
  | payload contentType media function argument =>
    [.code ["headers = \x7b 'Content-type' : ", .quoted contentType, " \x7d"],
      .code ["payload = serialize_final_", media, "(", function, "(", argument, "))"]]
  | request method path entity =>
    [.code ["conn.request(", .quoted method, ", self.get_path() + ", .value path,
      if entity then " + query, payload, headers)" else " + query)"]]
  | response => ["response = conn.getresponse()"]
  | answer status errors =>
    [.code ["expected_status = ", .value status], .code ["errors = ", .value errors],
      "payload = self.get_output(response, expected_status, errors)", "conn.close()",
      "if self.debug:", .indent, "print 'payload:', payload", .dedent]
  | result function => [.code ["return ", function, "(payload)"]]

/-- A method under construction beside the client it belongs to. -/
structure Draft where
  client : State
  method : Method

/-- Work on a method under construction. -/
abbrev Drafting := ExceptT Fault (StateM Draft)

namespace Drafting

def build {α : Type} (work : Build α) : Drafting α := do
  let draft ← get
  let (result, client) := (work.run).run draft.client
  set { draft with client }
  result

def change (step : Method → Method) : Drafting Unit :=
  modify fun draft => { draft with method := step draft.method }

def write (statement : Statement) : Drafting Unit :=
  change (·.addLines statement.lines)

/-- The argument that a name of the service is mapped to. -/
def mapping (key : Doc) : Drafting String := do
  (← get).method.mapping key

def argument (key type : Doc) (default : Option String) : Drafting Unit := do
  let name ← argumentName (← get).method key
  change (·.addArgument { name, type, default })
  let method ← (← get).method.map key name
  change fun _ => method

end Drafting

/-- The name of a type at the place where it is used; a type written on the spot has none. -/
def typeName : DataType → Except Fault Doc
  | .reference target _ => .ok target.referenceName
  | .inline _ => .error .noAttribute

/-- The bindings that a parameter stands for: those of the resource that have its identifier, or its
own.  A parameter that names no binding has to say itself what it is, and a binding written on the
spot is not looked at. -/
def bindingsOf (resource : Resource) (parameter : Parameter) : Except Fault (List InputBinding) :=
  match parameter.source with
  | .shared id =>
    if id.isTruthy then
      .ok ((resource.bindings.filter fun binding => binding.id == id).map (·.toInputBinding))
    else .error .noAttribute
  | .inline _ => .ok []
  | .own binding => .ok [binding]

def Operation.parameters (operation : Operation) : List Parameter :=
  operation.input.elim [] (·.params)

def generateFunctions (functionsOf : Codec → State → Except Fault (List Method))
    (contentTypes : List String) : Build Unit :=
  contentTypes.forM fun contentType => do
    let media ← mediaName contentType
    let functions ← functionsOf (Codec.ofMedia media) (← get)
    functions.forM Build.addFunction

/-- Add the functions that write values of a type for all content types. -/
def generateWriters (api : Api) (schema : Option Schema) : List String → Build Unit :=
  generateFunctions fun codec state => codec.writers state api schema

/-- Add the functions that read values of a type for all content types. -/
def generateReaders (api : Api) (schema : Option Schema) : List String → Build Unit :=
  generateFunctions fun codec state => codec.readers state api schema

/-- The name of the data type that stands for a type written on the spot in an operation. -/
def operationTypeName (resource : Resource) (operation : Operation) (ending : String) :
    Except Fault String := do
  return (← resource.name.asText) ++ "_" ++ (← operation.name.asText) ++ "_" ++ ending

def containerPayload (kind : Container) (item : TypeRef) : Doc :=
  .text (item.spelling ++ "_" ++ kind.name)

def declarePayload (api : Api) (resource : Resource) (operation : Operation) (input : Input) :
    DataType → Drafting Unit
  | .inline definition => do
    let name ← operationTypeName resource operation "InputType"
    let type := NamedTypeDef.standIn name definition
    Drafting.build (generateDataType type)
    Drafting.build (generateWriters api (some (.named type)) input.contentType)
    Drafting.argument (.text "request") (.text ("An instance of the " ++ name ++ " class")) none
  | .reference (.container kind item) _ =>
    Drafting.argument (containerPayload kind item)
      (.text ("A " ++ kind.name ++ " of " ++ (TypeRef.container kind item).spelling ++ " objects"))
      none
  | .reference target _ => do
    let name := target.referenceName
    Drafting.build (generateWriters api (api.lookup name) input.contentType)
    let type := "An instance of the " ++ (← name.asText) ++ " class"
    Drafting.argument name (.text type) none

def declareParameter (resource : Resource) (parameter : Parameter) : Drafting Unit := do
  match ← bindingsOf resource parameter with
  | [] => return ()
  | binding :: _ =>
    Drafting.argument binding.name.toDoc (← typeName binding.type)
      (optionalDefault parameter.optional)

def declareInput (api : Api) (resource : Resource) (operation : Operation) (input : Input) :
    Drafting Unit := do
  input.params.forM (declareParameter resource)
  if let some type := input.type then declarePayload api resource operation input type

/-- Add the arguments of an operation that takes something. -/
def declareArguments (api : Api) (resource : Resource) (operation : Operation) : Drafting Unit :=
  match operation.input with
  | some input => declareInput api resource operation input
  | none => return ()

/-- Begin the method for an operation: its name, arguments and documentation. -/
def declareOperation (api : Api) (resource : Resource) (operation : Operation) (type : ClassDef) :
    Drafting Unit := do
  let name ← methodName type operation.name.toDoc
  Drafting.change fun _ => Method.empty .bound name
  declareArguments api resource operation
  match operation.description with
  | some description =>
    if description.isTruthy then
      Drafting.change fun method => { method with doc := some description }
  | none => pure ()

/-- Whether a value goes into the query of a request. -/
def InputBinding.isQuery (binding : InputBinding) : Bool :=
  binding.mode == .text "query"

/-- Whether some parameter goes into the query; the search stops at the first that does. -/
def anyQuery (resource : Resource) : List Parameter → Except Fault Bool
  | [] => .ok false
  | parameter :: rest => do
    if (← bindingsOf resource parameter).any InputBinding.isQuery then return true
    else anyQuery resource rest

def hasQuery (resource : Resource) (operation : Operation) : Except Fault Bool :=
  anyQuery resource (Operation.parameters operation)

def writeQueryValue (binding : InputBinding) : Drafting Unit := do
  let argument ← Drafting.mapping binding.name.toDoc
  let isBoolean := (← typeName binding.type).same (.text "boolean")
  Drafting.write (.queryValue argument (← binding.name.asText) isBoolean)

def writeQueryParameter (resource : Resource) (parameter : Parameter) : Drafting Unit := do
  ((← bindingsOf resource parameter).filter InputBinding.isQuery).forM writeQueryValue

def writeQuery (resource : Resource) (operation : Operation) : Drafting Unit := do
  Drafting.write .queryStart
  if ← hasQuery resource operation then
    Drafting.write .queryData
    (Operation.parameters operation).forM (writeQueryParameter resource)
    Drafting.write .queryEnd

def fillPath (path : Label) (name : Label) (argument : String) : Except Fault Label :=
  match path with
  | .text path => do
    return .text (Text.replaceAll path ("\x7b" ++ (← name.asText) ++ "\x7d")
      ("' + str(" ++ argument ++ ") + '"))
  | .texts _ => .error .noAttribute

def hasPlaces : Label → Bool
  | .text path => path.toList.contains '\x7b'
  | .texts pieces => pieces.contains "\x7b"

def fillPlaces (method : Method) (path : Label) : List InputBinding → Except Fault Label
  | [] => .ok path
  | binding :: rest => do
    let argument ← method.mapping binding.name.toDoc
    fillPlaces method (← fillPath path binding.name argument) rest

def fillParameters (resource : Resource) (method : Method) (path : Label) :
    List Parameter → Except Fault Label
  | [] => .ok path
  | parameter :: rest => do
    let filled ← fillPlaces method path (← bindingsOf resource parameter)
    fillParameters resource method filled rest

/-- The path of a request, its places filled with the values of parameters. -/
def filledPath (resource : Resource) (operation : Operation) (method : Method) :
    Except Fault Label :=
  if hasPlaces resource.path then
    match operation.input with
    | none => .error .noAttribute
    | some input => fillParameters resource method resource.path input.params
  else .ok resource.path

def pathExpression (resource : Resource) (operation : Operation) (method : Method) :
    Except Fault String := do
  let path ← filledPath resource operation method
  return Text.replaceAll ("'" ++ (← path.asText) ++ "'") "+ ''" ""

def errorsLiteral (errors : List (Int × Label)) : String :=
  "\x7b" ++ Text.join ", " (errors.map fun error =>
    Decimal.intText error.1 ++ ": " ++ error.2.toDoc.literal) ++ "\x7d"

def schemaName : Option Schema → Except Fault Doc
  | some (.named type) => .ok type.name
  | some (.reference (.primitive kind)) => .ok (.text kind.name)
  | some (.reference (.custom name)) => .ok name
  | some (.reference (.container _ _)) | some (.anonymous _) | none => .error .noAttribute

def payloadArgument (api : Api) : DataType → Drafting String
  | .inline _ => Drafting.mapping (.text "request")
  | .reference (.container kind item) _ => Drafting.mapping (containerPayload kind item)
  | .reference target _ => do Drafting.mapping (← schemaName (api.lookup target.referenceName))

def firstContentType (input : Input) : Except Fault String :=
  match input.contentType with
  | first :: _ => .ok first
  | [] => .error .outOfBounds

/-- Write the statements that send a request with its payload. -/
def writePayload (api : Api) (operation : Operation) (path : String) : Drafting Unit := do
  let some input := operation.input | throw .noAttribute
  let contentType ← firstContentType input
  let some type := input.type | throw .noAttribute
  let argument ← payloadArgument api type
  Drafting.build (generateWriters api (some type.schema) input.contentType)
  let media ← mediaName contentType
  let function ← schemaCodecName api media "serialize" (some type.schema)
  Drafting.write (.payload contentType media function argument)
  Drafting.write (.request (← operation.method.asText) path true)

def writeRequest (api : Api) (operation : Operation) (path : String) : Drafting Unit :=
  if enclosesEntity operation.method then writePayload api operation path
  else do Drafting.write (.request (← operation.method.asText) path false)

/-- Write the statements that send the request of an operation and check the answer. -/
def writeInvocation (api : Api) (operation : Operation) (path : String) : Drafting Unit := do
  Drafting.write .connect
  writeRequest api operation path
  Drafting.write .response
  let some output := operation.output | throw .noAttribute
  Drafting.write (.answer output.status.words (errorsLiteral operation.errors))

def resultType (schema : Option Schema) : TypeRef → Except Fault String
  | .container kind item => .ok ("A " ++ kind.name ++ " of " ++ item.spelling ++ " objects")
  | _ => do
    let name ← schemaName schema
    if name.same (.text TypeRef.apiName) then return "An instance of the API class"
    return "An instance of the " ++ (← name.asText) ++ " class"

def setReturnType (type : String) : Drafting Unit :=
  Drafting.change fun method => { method with returnType := some type }

/-- The schema of the result; a type written on the spot gets a class. -/
def declareResult (api : Api) (resource : Resource) (operation : Operation) :
    DataType → Drafting (Option Schema)
  | .inline definition => do
    let name ← operationTypeName resource operation "OutputType"
    let type := NamedTypeDef.standIn name definition
    Drafting.build (generateDataType type)
    setReturnType ("An instance of the " ++ name ++ " class")
    return some (.named type)
  | .reference target _ => do
    let schema := api.lookup target.referenceName
    setReturnType (← resultType schema target)
    return schema

/-- Write the statement that reads the answer, if the operation has one to read. -/
def writeResult (api : Api) (resource : Resource) (operation : Operation)
    (preference : Option String) : Drafting Unit := do
  let some output := operation.output | throw .noAttribute
  match output.type with
  | none => return ()
  | some type =>
    let schema ← declareResult api resource operation type
    let some contentTypes := output.contentType | throw .wrongKind
    Drafting.build (generateReaders api schema contentTypes)
    let media ← selectMedia contentTypes preference
    Drafting.write (.result (← schemaCodecName api media "deserialize" schema))

end ApiDescription.Client
