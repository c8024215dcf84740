import ApiDescription.Client.Operation

/-!
# Client programs

The whole client of a service: imports, the addresses of the service, the functions that write and
read values, a class per data type and a class per resource.
-/

namespace ApiDescription.Client

open Code (ClassDef Method Argument Writing)

def imports : Writing Unit := do
  Writing.writeLine "import sys"
  Writing.writeLine "sys.path.append('../python-lib')"
  Writing.writeLine "from api import *"
  Writing.writeLine "from urlparse import urlparse"
  Writing.writeLine "import httplib"
  Writing.writeLine "import json"
  Writing.writeLine "import urllib"

def endpoints (addresses : List String) : Writing Unit := do
  Writing.writeLine "BASE_URL = ["
  Writing.block do
    for address in addresses do
      Writing.writeLine ("'" ++ address ++ "',")
  Writing.writeLine "]"

def exceptionMethods : List Method :=
  [Method.addLines
    { Method.empty .bound Method.constructorName with
      arguments := [.plain "status", .plain "cause", .plain "details"] }
    ["Exception.__init__(self, cause)", "self.status = status", "self.details = details"]]

def generateException : Build ClassDef := do
  let name ← Build.className (.text "RemoteException")
  return { name, parent := some "Exception", methods := exceptionMethods }

def parentConstructor : Method :=
  let constructor :=
    { Method.empty .bound Method.constructorName with
      arguments := [.plain "endpoint", .plain "debug"] }
  ((((constructor.addLine "if endpoint is not None:").addBlock ["self.endpoint = endpoint"]).addLine
    "else:").addBlock ["self.endpoint = BASE_URL[0]"]).addLine "self.debug = debug"

def parentMethod (name : String) : Method :=
  { Method.empty .bound name with documented := false }

def connectionMethod : Method :=
  ((((((((parentMethod "get_connection").addLines
    ["result = urlparse(self.endpoint)", "ssl = result.scheme == 'https'", "if ssl:"]).addBlock
    ["conn = httplib.HTTPSConnection(result.netloc)"]).addLine
    "else:").addBlock
    ["conn = httplib.HTTPConnection(result.netloc)"]).addLine
    "if self.debug:").addBlock
    ["conn.set_debuglevel(1)"]).addLine
    "return conn")

def pathMethod : Method :=
  (parentMethod "get_path").addLines ["result = urlparse(BASE_URL[0])", "return result.path"]

def outputMethod : Method :=
  let method :=
    { parentMethod "get_output" with
      arguments := [.plain "response", .plain "expected", .plain "errors"] }
  (((((method.addLines
    ["status = response.status", "payload = response.read()",
      "if not errors and errors.has_key(status):"]).addBlock
    ["raise RemoteException(status, errors[status], payload)"]).addLine
    "elif status != expected:").addBlock
    ["raise RemoteException(status, 'Unexpected return status: ' + str(status), payload)"]).addLine
    "return payload")

/-- The methods of the class that all resource clients extend. -/
def parentMethods : List Method :=
  [parentConstructor, connectionMethod, pathMethod, outputMethod]

def generateParent : Build ClassDef := do
  let name ← Build.className (.text "AbstractResourceClient")
  return { name, parent := none, methods := parentMethods }

def clientConstructor : Method :=
  { Method.empty .bound Method.constructorName with
    arguments := [
      { name := "endpoint", type := .null, default := some "None" },
      { name := "debug", type := .null, default := some "False" }]
    body := ["AbstractResourceClient.__init__(self, endpoint, debug)"] }

def draftOperation (api : Api) (resource : Resource) (type : ClassDef) (preference : Option String)
    (operation : Operation) : Drafting Unit := do
  declareOperation api resource operation type
  writeQuery resource operation
  let path ← pathExpression resource operation (← get).method
  writeInvocation api operation path
  writeResult api resource operation preference

def Drafting.newMethod (work : Drafting Unit) : Build Method := do
  let (result, draft) := (work.run).run { client := ← get, method := Method.empty .bound "" }
  set draft.client
  let _ ← result
  return draft.method

def generateOperations (api : Api) (resource : Resource) (preference : Option String)
    (type : ClassDef) : List Operation → Build ClassDef
  | [] => return type
  | operation :: rest => do
    let method ← (draftOperation api resource type preference operation).newMethod
    generateOperations api resource preference (type.addMethod method) rest

def generateResource (api : Api) (parent : ClassDef) (preference : Option String)
    (resource : Resource) : Build ClassDef := do
  let name ← Build.className (.text ((← resource.name.asText) ++ "Client"))
  let type : ClassDef := { name, parent := some parent.name, methods := [clientConstructor] }
  generateOperations api resource preference type resource.operations

/-- The classes that every client has and those of data types; what comes next needs the class that
resource clients extend. -/
def generateTypes (types : List NamedTypeDef) : Build ClassDef := do
  Build.addClass (← generateException)
  let parent ← generateParent
  Build.addClass parent
  types.forM generateDataType
  return parent

def generateResources (api : Api) (preference : Option String) (parent : ClassDef) : Build Unit :=
  api.resources.forM fun resource => do
    Build.addClass (← generateResource api parent preference resource)

/-- All classes and functions of the client of a service. -/
def generate (api : Api) (preference : Option String) : Build Unit := do
  generateResources api preference (← generateTypes api.dataTypes)

end ApiDescription.Client
