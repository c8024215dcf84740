import ApiDescription.Code.Writer
import ApiDescription.Model.Basic

/-!
# Methods

A method is put together from its arguments and the lines of its body; blocks of the body are marked
by lines of their own.  A line is made of fragments, so that what the description says can be told
from the code around it.  A bound method is written inside a class and takes `self`; a static one
stands alone.
-/

namespace ApiDescription.Code

structure Argument where
  name : String
  type : Doc
  default : Option String

namespace Argument

def plain (name : String) : Argument :=
  { name, type := .null, default := none }

def default? (argument : Argument) : Option String :=
  argument.default.filter fun value => !value.isEmpty

end Argument

/-- A piece of a line of code. -/
inductive Fragment where
  | code (text : String)
  | quoted (text : String)
  | value (text : String)
  deriving DecidableEq, Repr

namespace Fragment

instance : Coe String Fragment := ⟨code⟩

def text : Fragment → String
  | code text => text
  | quoted text => "'" ++ text ++ "'"
  | value text => text

end Fragment

inductive Line where
  | code (fragments : List Fragment)
  | indent
  | dedent
  deriving DecidableEq, Repr

namespace Line

/-- A line of text; two texts are the marks of a block. -/
def ofText (text : String) : Line :=
  if text = "__indent" then indent else if text = "__dedent" then dedent else code [text]

instance : Coe String Line := ⟨ofText⟩

end Line

inductive Placement where
  | bound
  | static
  deriving DecidableEq, Repr

/-- A method of generated code.  Mappings lead from names of the described service to names of
arguments. -/
structure Method where
  name : String
  placement : Placement
  arguments : List Argument
  body : List Line
  mappings : List (Doc × String)
  doc : Option Label
  returnType : Option String
  documented : Bool

namespace Method

def empty (placement : Placement) (name : String) : Method :=
  { name, placement, arguments := [], body := [], mappings := [], doc := none, returnType := none,
    documented := true }

def constructorName : String := "__init__"

/-- Whether a value can be looked up; lists and objects cannot. -/
def isKey : Doc → Bool
  | .list _ | .object _ => false
  | _ => true

/-- Set the value of a key: a key that is there keeps its place. -/
def putMapping (key : Doc) (value : String) : List (Doc × String) → List (Doc × String)
  | [] => [(key, value)]
  | (name, old) :: rest =>
    if name.same key then (name, value) :: rest else (name, old) :: putMapping key value rest

def map (method : Method) (key : Doc) (value : String) : Except Fault Method :=
  if isKey key then .ok { method with mappings := putMapping key value method.mappings }
  else .error .wrongKind

/-- The argument that a name of the service is mapped to. -/
def mapping (method : Method) (key : Doc) : Except Fault String :=
  if isKey key then
    match method.mappings.find? fun entry => entry.1.same key with
    | some (_, value) => .ok value
    | none => .error (.missingKey key.words)
  else .error .wrongKind

def hasArgument (method : Method) (name : String) : Bool :=
  method.arguments.any fun argument => argument.name == name

def addArgument (method : Method) (argument : Argument) : Method :=
  { method with arguments := method.arguments ++ [argument] }

def addLine (method : Method) (line : Line) : Method :=
  { method with body := method.body ++ [line] }

def addBlock (method : Method) (lines : List Line) : Method :=
  { method with body := method.body ++ .indent :: lines ++ [.dedent] }

def addLines (method : Method) (lines : List Line) : Method :=
  { method with body := method.body ++ lines }

end Method

namespace Line

def write : Line → Writing Unit
  | code fragments => Writing.writeLine (Text.join "" (fragments.map Fragment.text))
  | indent => Writing.indent
  | dedent => Writing.dedent

end Line

/-- Break a text into lines: line breaks count as blanks, and a blank ends a line once more than
seventy characters stand before it.  `count` is the number of characters on the current line. -/
def wrapFrom (count : Nat) : List Char → List Char
  | [] => []
  | character :: rest =>
    let character := if character == '\n' then ' ' else character
    if character == ' ' && count > 70 then '\n' :: wrapFrom 1 rest
    else character :: wrapFrom (count + 1) rest

def wrap (text : String) : List String :=
  Text.split (String.ofList (wrapFrom 0 text.toList)) '\n'

namespace Method

def writeBody (method : Method) : Writing Unit :=
  if method.body.isEmpty then Writing.writeLine "pass" else method.body.forM Line.write

def hasDoc (method : Method) : Bool :=
  method.doc.any Label.isTruthy

def returnType? (method : Method) : Option String :=
  method.returnType.filter fun value => !value.isEmpty

def writeArgumentDocs (method : Method) : Writing Unit := do
  if method.arguments.isEmpty then return ()
  if method.hasDoc then Writing.writeLine ""
  Writing.writeLine "Args:"
  Writing.block do
    for argument in method.arguments do
      if argument.type.isTruthy then
        let type ← argument.type.asText
        Writing.writeLine (argument.name ++ " " ++ type)
      else Writing.writeLine argument.name

def writeReturnDoc (method : Method) : Writing Unit := do
  match method.returnType? with
  | none => return ()
  | some type =>
    if method.hasDoc || !method.arguments.isEmpty then Writing.writeLine ""
    Writing.writeLine "Returns:"
    Writing.block (Writing.writeLine type)

/-- Whether the method gets a documentation string: constructors get none, nor do methods about
which nothing is said. -/
def isDocumented (method : Method) : Bool :=
  method.documented && method.name != constructorName &&
    (!method.arguments.isEmpty || method.returnType?.isSome || method.hasDoc)

def writeDoc (method : Method) : Writing Unit := do
  if method.isDocumented then
    Writing.writeLine "\"\"\""
    if method.hasDoc then
      match method.doc with
      | some (.text text) => (wrap text).forM Writing.writeLine
      | _ => throw .noAttribute
    method.writeArgumentDocs
    method.writeReturnDoc
    Writing.writeLine "\"\"\""

def boundSignature (method : Method) : String :=
  let required := method.arguments.filter fun argument => argument.default?.isNone
  let optional := method.arguments.filterMap fun argument =>
    argument.default?.map fun value => ", " ++ argument.name ++ "=" ++ value
  "def " ++ method.name ++ "(self" ++
    Text.join "" (required.map fun argument => ", " ++ argument.name) ++
    Text.join "" optional ++ "):"

def staticSignature (method : Method) : String :=
  let argument (argument : Argument) : String :=
    match argument.default? with
    | some value => argument.name ++ "=" ++ value
    | none => argument.name
  "def " ++ method.name ++ "(" ++ Text.join ", " (method.arguments.map argument) ++ "):"

def writeBound (method : Method) : Writing Unit :=
  Writing.block do
    Writing.writeLine method.boundSignature
    Writing.block do
      method.writeDoc
      method.writeBody

def renderStatic (method : Method) : Except Fault String :=
  Writing.render do
    Writing.writeLine method.staticSignature
    Writing.block method.writeBody

/-- Write a method where a class has it; a static method leaves no text there. -/
def writeMember (method : Method) : Writing Unit :=
  match method.placement with
  | .bound => method.writeBound
  | .static => do
    let _ ← method.renderStatic
    return ()

end Method

end ApiDescription.Code
