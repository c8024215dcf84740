/-!
# Faults

Everything that can go wrong while a description is read, checked or turned into code or
documentation.  A fault names its cause; the wording of a refusal stands in one function,
`Refusal.message`.
-/

namespace ApiDescription

inductive Part where
  | field | typeDef | namedTypeDef | inputBinding | parameter | input | header | output
  | operation | resource | owner | costModel | serviceLevel | version | api
  deriving DecidableEq, Repr

/-- The attributes of a part that must be left out when a document is given. -/
def Part.overspecified : Part → String
  | .field | .header =>
    "name and type attributes must be None when the data field is provided"
  | .typeDef => "fields attribute must be None when the data field is provided"
  | .namedTypeDef => "name and fields attributes must be None when the data field is provided"
  | .inputBinding =>
    "mode, name and type attributes must be None when the data field is provided"
  | .parameter => "binding attribute must be None when the data field is provided"
  | .input => "content_type and types attributes must be None when the data field is provided"
  | .output =>
    "status, content_type and type attributes must be None when the data field is provided"
  | .operation => "name and method attributes must be None when the data field is provided"
  | .resource => "name and path attributes must be None when data field is provided"
  | .owner => "name, email and type attributes must be None when the data field is provided"
  | .costModel =>
    "currency, unit_price and requests attributes must be None when the data field is provided"
  | .serviceLevel | .api => "name attribute must be None when the data field is provided"
  | .version => "id attribute must be None when the data field is provided"

def Part.underspecified : Part → String
  | .field | .header =>
    "name and type attributes must not be None when the data field is not provided"
  | .typeDef => "fields attribute must not be None when the data field is not provided"
  | .namedTypeDef =>
    "name and fields attributes must not be None when the data field is not Provided"
  | .inputBinding =>
    "mode, name and type attributes must not be None when the data field is not provided"
  | .parameter => "binding attribute must not be None when the data field is not provided"
  | .input | .output => "type attribute must not be None when the data field is not provided"
  | .operation =>
    "name and method attributes must not be None when the data field is not provided"
  | .resource => "name and path attributes must not be None when the data field is not provided"
  | .owner => "name, email and type attributes must not be None when the data field is provided"
  | .costModel =>
    "currency, unit_price and requests attributes must not be None when the data field is not provided"
  | .serviceLevel | .api => "name attribute must not be None when the data field is not provided"
  | .version => "id attribute must not be None when the data field is not provided"

inductive Refusal where
  | required (key : String)
  | overspecified (part : Part)
  /-- Neither a document nor all needed attributes were given for a part. -/
  | underspecified (part : Part)
  | unknownPrimitive (name : String)
  | unknownContainer (name : String)
  | unknownType (name : String)
  | strayTarget (target : String)
  | unknownBinding (id : String)
  | missingInput
  | duplicateType (name : String)
  | duplicateField (name : String)
  | duplicateOperation (operation resource : String)
  deriving DecidableEq, Repr

def Refusal.message : Refusal → String
  | .required key => "Attribute " ++ key ++ " is required"
  | .overspecified part => part.overspecified
  | .underspecified part => part.underspecified
  | .unknownPrimitive name => "Invalid primitive type name: " ++ name
  | .unknownContainer name => "Invalid container type: " ++ name
  | .unknownType name => "Reference to unknown data type: " ++ name
  | .strayTarget target => "Invalid reference to: " ++ target ++ " from non href type"
  | .unknownBinding id => "Reference to unknown binding: " ++ id
  | .missingInput => "input field undefined for entity enclosing request"
  | .duplicateType name => "Duplicate type definitions for " ++ name
  | .duplicateField name => "Duplicate field " ++ name ++ " in type"
  | .duplicateOperation operation resource =>
    "Duplication operation " ++ operation ++ " in resource " ++ resource

inductive Fault where
  | refused (why : Refusal)
  | unreadable (cause : Fault)
  | missingKey (key : String)
  | wrongKind
  | noAttribute
  /-- A value of the right kind that the operation does not accept. -/
  | badValue
  /-- A position beyond the end of a sequence. -/
  | outOfBounds
  | divisionByZero
  /-- A number too large for its representation. -/
  | overflow
  | badExpression
  /-- A block of generated code is closed that was never opened. -/
  | unbalancedIndentation
  /-- The behaviour is left to more specific kinds of the value. -/
  | notSupported
  /-- A type that contains itself was followed without end. -/
  | tooDeep
  | noSuchFile
  | badDocument
  deriving DecidableEq, Repr

def refuse {α : Type} (why : Refusal) : Except Fault α :=
  .error (.refused why)

end ApiDescription
