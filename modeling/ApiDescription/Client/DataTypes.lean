import ApiDescription.Client.State
import ApiDescription.Model.Schema

/-!
# Classes for data types

A data type becomes a class whose constructor takes one argument per field.  A type written on the
spot becomes a class of its own, named after the class and the field that use it, before the class
that uses it.
-/

namespace ApiDescription.Client

open Code (ClassDef Method Argument)

/-- The default of an argument that may be left out. -/
def optionalDefault (optional : Doc) : Option String :=
  if optional.isTruthy then some "None" else none

mutual

def generateRecord (name : Doc) : TypeDef → Build Unit
  | ⟨fields, _, _⟩ => do
    let className ← Build.className name
    let constructor ←
      generateFields className (Method.empty .bound Method.constructorName) fields
    Build.addClass { name := className, parent := none, methods := [constructor] }

def generateFields (className : String) (constructor : Method) : List Field → Build Method
  | [] => return constructor
  | ⟨name, _, optional, type⟩ :: rest => do
    let argument ← argumentName constructor name.toDoc
    let extended := constructor.addArgument
      { name := argument, type := .null, default := optionalDefault optional }
    let mapped ← extended.map name.toDoc argument
    generateInline className name type
    generateFields className (mapped.addLine (.code ["self.", argument, " = ", argument])) rest

def generateInline (className : String) (field : Label) : DataType → Build Unit
  | .reference _ _ => return ()
  | .inline definition => do
    generateRecord (.text (className ++ "_" ++ (← field.asText))) definition

end

def generateDataType (type : NamedTypeDef) : Build Unit :=
  generateRecord type.name type.definition

end ApiDescription.Client
