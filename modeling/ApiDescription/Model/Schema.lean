import ApiDescription.Model.Basic

/-!
# Following references

A schema is whatever can stand for a type while a description is worked on: a reference, a
definition written on the spot, or a data type.  Names are looked up among the data types first, so
that a data type hides a built-in type of the same name.
-/

namespace ApiDescription

/-- A type under its various guises. -/
inductive Schema where
  | reference (target : TypeRef)
  | anonymous (definition : TypeDef)
  | named (type : NamedTypeDef)
  deriving Inhabited

def DataType.schema : DataType → Schema
  | .reference target _ => .reference target
  | .inline definition => .anonymous definition

/-- A data type with the fields of a type written on the spot, under a name made up for it. -/
def NamedTypeDef.standIn (name : String) (definition : TypeDef) : NamedTypeDef :=
  { name := .text name,
    definition := { fields := definition.fields, constraints := [], description := none } }

def NamedTypeDef.api : NamedTypeDef :=
  .standIn TypeRef.apiName { fields := [], constraints := [], description := none }

def TypeRef.builtIn? (name : Doc) : Option TypeRef :=
  match TypeRef.ofName name with
  | .custom _ => none
  | reference => some reference

def Api.dataType? (api : Api) (name : Doc) : Option NamedTypeDef :=
  api.dataTypes.find? fun type => type.name.same name

def Api.lookup (api : Api) (name : Doc) : Option Schema :=
  match api.dataType? name with
  | some type => some (.named type)
  | none =>
    match TypeRef.builtIn? name with
    | some reference => some (.reference reference)
    | none => if name.same (.text TypeRef.apiName) then some (.named .api) else none

def Resource.binding? (resource : Resource) (id : Doc) : Option NamedBinding :=
  resource.bindings.find? fun binding => binding.id.toDoc.same id

/-- The number of steps it takes to go down a reference. -/
def TypeRef.weight : TypeRef → Nat
  | .container _ item => item.weight + 1
  | _ => 1

mutual

/-- The number of steps it can take to go down a type without leaving it. -/
def DataType.weight : DataType → Nat
  | .reference target _ => target.weight
  | .inline definition => definition.weight

/-- The number of steps it can take to go down a record type without leaving it. -/
def TypeDef.weight : TypeDef → Nat
  | ⟨fields, _, _⟩ => Field.weightAll fields + 1

def Field.weightAll : List Field → Nat
  | [] => 0
  | field :: rest => field.weight + Field.weightAll rest

def Field.weight : Field → Nat
  | ⟨_, _, _, type⟩ => type.weight

end

/-- The number of steps it can take to go down a schema without leaving it. -/
def Schema.weight : Schema → Nat
  | .reference target => target.weight
  | .anonymous definition => definition.weight
  | .named type => type.definition.weight

/-- A number of steps that is enough to follow every chain of references in which no data type
occurs twice. -/
def Api.reach (api : Api) (start : Schema) : Nat :=
  start.weight + (api.dataTypes.map fun type => type.definition.weight + 1).foldr (· + ·) 0 + 1

end ApiDescription
