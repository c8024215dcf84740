import ApiDescription.Code.Method

/-!
# Classes

A class of generated code with its methods in order.
-/

namespace ApiDescription.Code

structure ClassDef where
  name : String
  parent : Option String
  methods : List Method

namespace ClassDef

def empty (name : String) (parent : Option String) : ClassDef :=
  { name, parent, methods := [] }

def hasMethod (type : ClassDef) (name : String) : Bool :=
  type.methods.any fun method => method.name == name

def constructor? (type : ClassDef) : Option Method :=
  type.methods.find? fun method => method.name == Method.constructorName

def addMethod (type : ClassDef) (method : Method) : ClassDef :=
  { type with methods := type.methods ++ [method] }

def announcement (type : ClassDef) : String :=
  "Generating code for the " ++ type.name ++ " class..."

def signature (type : ClassDef) : String :=
  match type.parent.filter fun name => !name.isEmpty with
  | some parent => "class " ++ type.name ++ "(" ++ parent ++ "):"
  | none => "class " ++ type.name ++ ":"

/-- Write methods with an empty line between neighbours. -/
def writeMethods : List Method → Writing Unit
  | [] => return ()
  | [method] => method.writeMember
  | method :: rest => do
    method.writeMember
    Writing.writeLine ""
    writeMethods rest

def render (type : ClassDef) : Except Fault String :=
  Writing.render do
    Writing.writeLine type.signature
    if type.methods.isEmpty then Writing.block (Writing.writeLine "pass")
    else writeMethods type.methods

end ClassDef

end ApiDescription.Code
