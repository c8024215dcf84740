import ApiDescription.Docs.Sample
import ApiDescription.Model.Validation
import ApiDescription.Text.Case

/-!
# Pages about resources and types

Pages are written in a plain markup: titles are underlined, and types are links to their pages.  A
type written on the spot gets a name, and is remembered so that a page can be written for it.  A
page is made of sections; what a section cannot show, the page cannot either.
-/

namespace ApiDescription.Docs

/-- Work that remembers types for which a page is still to be written. -/
abbrev Paging := ExceptT Fault (StateM (List NamedTypeDef))

def textOfLines (lines : List String) : String :=
  Text.join "" (lines.map fun line => line ++ "\n")

def title (underline : Char) (text : String) : List String :=
  [text, String.ofList (List.replicate text.length underline), ""]

/-- The name in small letters, where only a text will do. -/
def lowerName : Doc → Except Fault String
  | .text name => .ok (Text.lower name)
  | _ => .error .noAttribute

def typePage (name : Doc) : Except Fault String := do
  return "data_type_" ++ (← lowerName name)

/-! ## Lines -/

/-- How a type is shown: by a word, as a link to a page, or as the items of a container. -/
inductive Link where
  | word (text : String)
  | page (target : String)
  | items (kind : Container) (item : Link)

def Link.text : Link → String
  | word text => text
  | page target => ":doc:\x60" ++ target ++ "\x60"
  | items kind item => kind.name ++ "(" ++ item.text ++ ")"

def referenceLink : TypeRef → Except Fault Link
  | .container kind item => do return .items kind (← referenceLink item)
  | .primitive kind => .ok (.word kind.name)
  | .custom name => do
    if name.same (.text TypeRef.apiName) then return .word "API Description"
    else return .page (← typePage name)

def schemaLink : Schema → Except Fault Link
  | .named type => do return .page (← typePage type.name)
  | .reference target => referenceLink target
  | .anonymous _ => .error .noAttribute

def typeLink (schema : Schema) : Except Fault String := do
  return (← schemaLink schema).text

inductive Line where
  | plain (text : String)
  | shown (label : String) (schema : Schema) (link : Link)
  | entry (page : String)

namespace Line

def text : Line → String
  | plain text => text
  | shown label _ link => label ++ link.text
  | entry page => "   " ++ page

def remembered : Line → List NamedTypeDef
  | shown _ (.named type) _ => [type]
  | _ => []

end Line

def plainLines (texts : List String) : List Line :=
  texts.map .plain

def linkedLines (front : List String) (label : String) (schema : Schema) (back : List String) :
    Except Fault (List Line) := do
  return plainLines front ++ .shown label schema (← schemaLink schema) :: plainLines back

def writeSection (section? : Except Fault (List Line)) : Paging (List String) := do
  let lines ← section?
  modify (· ++ lines.flatMap Line.remembered)
  return lines.map Line.text

/-- The text of a page.  What a section shows is remembered also where a later one fails. -/
def pageText (sections : List (Except Fault (List Line))) : Paging String := do
  return textOfLines (← sections.mapM writeSection).flatten

/-! ## Pages of types -/

/-- What is shown for a type: one written on the spot goes by a name made up for it. -/
def shownSchema (name : String) : DataType → Schema
  | .inline definition => .named (.standIn name definition)
  | .reference target _ => .reference target

def descriptionLines (indent : String) : Option Label → Except Fault (List String)
  | some description => do
    if description.isTruthy then return [indent ++ (← description.asText)] else return []
  | none => .ok []

def fieldLines (owner : String) (field : Field) : Except Fault (List Line) := do
  let name ← field.name.asText
  let description ← descriptionLines "      " field.description
  linkedLines (title '^' name ++ if description.isEmpty then [] else description ++ [""])
    "      **Type**: " (shownSchema (owner ++ "_" ++ name) field.type)
    ["", "      **Required**: " ++ (if field.optional.isTruthy then "No" else "Yes"), ""]

def typeHeading (type : NamedTypeDef) : Except Fault (List Line) := do
  let name ← type.name.asText
  let description ← descriptionLines "" type.definition.description
  return plainLines (title '=' name ++ description ++ [""] ++ title '-' "Fields")

def typeSections (type : NamedTypeDef) : List (Except Fault (List Line)) :=
  typeHeading type :: type.definition.fields.map (fieldLines type.name.words) ++
    [.ok (plainLines [""])]

def typePageText (type : NamedTypeDef) : Paging String :=
  pageText (typeSections type)

/-! ## Pages of resources -/

def statusNames : List (Int × String) :=
  [(200, "OK"), (201, "Created"), (404, "Not Found"), (500, "Internal Server Error")]

def statusName (status : Int) : String :=
  match statusNames.lookup status with
  | some name => " " ++ name
  | none => ""

/-- The name behind a status as it was given; a list or an object cannot be looked up. -/
def givenStatusName : Doc → Except Fault String
  | .list _ | .object _ => .error .wrongKind
  | status =>
    match statusNames.find? fun entry => status.same (.int entry.1) with
    | some (_, name) => .ok (" " ++ name)
    | none => .ok ""

def inputContentType (operation : Operation) : Except Fault String :=
  match operation.input with
  | none => .error .noAttribute
  | some input =>
    match input.contentType with
    | first :: _ => .ok first
    | [] => .error .outOfBounds

def methodOptions (operation : Operation) : Except Fault String := do
  let isPost := operation.method == .text "POST"
  if operation.method == .text "GET" then return ""
  if isPost then
    if (← inputContentType operation) == "application/x-www-form-urlencoded" then
      return "-d @input.txt "
  let method ← operation.method.asText
  if enclosesEntity operation.method then
    return "-X " ++ method ++ " -d @input.txt -H \"Content-type: " ++
      (← inputContentType operation) ++ "\" "
  return "-X " ++ method ++ " "

def curlCommand (api : Api) (resource : Resource) (operation : Operation) :
    Except Fault String := do
  let some base := api.base.head? | .error .outOfBounds
  let secure := if Text.startsWith base "https://" then "-k " else ""
  let options ← methodOptions operation
  let path ← if resource.path == .text "/" then pure "" else resource.path.asText
  return "curl -v " ++ secure ++ options ++ base ++ path

def sampleLines (api : Api) (heading : String) (schema : Schema) : Except Fault (List String) := do
  let value ← sample api schema
  let lines := Text.split value.pretty '\n'
  return ["   **Sample " ++ heading ++ "**:: ", ""] ++ lines.map (fun line => "      " ++ line) ++
    [""]

def mediaLines (heading : String) (contentTypes : List String) : List String :=
  ["   **Supported " ++ heading ++ " Media Types**: "] ++
    contentTypes.map (fun contentType => "      * " ++ contentType) ++ [""]

def sampleContentType : String := "application/json"

def wantedSample (wanted : Bool) (api : Api) (heading : String) (schema : Schema) :
    Except Fault (List String) :=
  if wanted then sampleLines api heading schema else .ok []

/-- What is sent by an operation, when `owner` is the name of its resource. -/
def requestSections (api : Api) (owner : String) (operation : Operation) :
    List (Except Fault (List Line)) :=
  if enclosesEntity operation.method then
    match operation.input.bind (·.type) with
    | some type =>
      let schema := shownSchema (owner ++ "_" ++ operation.name.words ++ "_" ++ "InputType") type
      let contentTypes := operation.input.elim [] (·.contentType)
      [linkedLines [] "   **Request Type**: " schema ("" :: mediaLines "Request" contentTypes),
        plainLines <$> wantedSample (contentTypes.contains sampleContentType) api "Request" schema]
    | none => [.error .noAttribute]
  else []

/-- Whether a sample of the answer is shown: not for built-in types and not for the description
itself. -/
def showsSample : Schema → Bool
  | .reference (.primitive _) => false
  | .reference (.custom name) => !name.same (.text TypeRef.apiName)
  | _ => true

def answerLines (api : Api) (schema : Schema) (operation : Operation) :
    Except Fault (List Line) := do
  let some output := operation.output | .error .noAttribute
  let some contentTypes := output.contentType | .error .wrongKind
  let sample ← wantedSample (contentTypes.contains sampleContentType && showsSample schema) api
    "Response" schema
  let status := output.status.words ++ (← givenStatusName output.status)
  return plainLines (mediaLines "Response" contentTypes ++ sample ++
    ["   **Return HTTP Status**: " ++ status, ""])

def responseSections (api : Api) (owner : String) (operation : Operation) :
    List (Except Fault (List Line)) :=
  match operation.output.bind (·.type) with
  | some type =>
    let schema := shownSchema (owner ++ "_" ++ operation.name.words ++ "_" ++ "OutputType") type
    [linkedLines [] "   **Response Type**: " schema [""], answerLines api schema operation]
  | none => [.error .noAttribute]

def errorLines (errors : List (Int × Label)) : Except Fault (List String) := do
  if errors.isEmpty then return []
  let lines ← errors.mapM fun (status, cause) => do
    return "      * " ++ Decimal.intText status ++ statusName status ++ " - " ++ (← cause.asText)
  return ["   **Errors**:"] ++ lines ++ [""]

def operationHeading (operation : Operation) : Except Fault (List Line) := do
  let heading := (← operation.name.asText) ++ " (" ++ (← operation.method.asText) ++ ")"
  let description ← descriptionLines "   " operation.description
  return plainLines (title '-' heading ++
    (if description.isEmpty then ["   No description available"] else description) ++ [""])

/-- What comes behind the request and the answer of an operation. -/
def closingLines (api : Api) (resource : Resource) (operation : Operation) :
    Except Fault (List Line) := do
  let errors ← errorLines operation.errors
  let curl ← curlCommand api resource operation
  return plainLines (errors ++ ["   **Example Curl Command**::", "", "      " ++ curl, ""])

def operationSections (api : Api) (resource : Resource) (operation : Operation) :
    List (Except Fault (List Line)) :=
  operationHeading operation :: requestSections api resource.name.words operation ++
    responseSections api resource.name.words operation ++ [closingLines api resource operation]

def resourceHeading (api : Api) (resource : Resource) : Except Fault (List Line) := do
  let name ← resource.name.asText
  let addresses ← api.base.mapM fun address => do
    return "   * " ++ address ++ (← resource.path.asText)
  return plainLines (title '=' name ++
    ["This resource can be accessed via following URLs.", ""] ++ addresses ++ [""])

def resourceSections (api : Api) (resource : Resource) : List (Except Fault (List Line)) :=
  resourceHeading api resource :: resource.operations.flatMap (operationSections api resource)

def resourcePageText (api : Api) (resource : Resource) : Paging String :=
  pageText (resourceSections api resource)

end ApiDescription.Docs
