import ApiDescription.Expression.Parser
import ApiDescription.Model.Reader

/-!
# Valid descriptions

A description is valid when its names are unambiguous, its references lead somewhere and its
conditions are expressions.  Checks run in a fixed order and the first fault is reported.  A message
that has to name something which is not a text turns into a fault of its own.
-/

namespace ApiDescription

mutual

/-- Check a type at the place where it is used; only a link has a target. -/
def DataType.validate (types : List Doc) : DataType → Except Fault Unit
  | .inline definition => definition.validate types
  | .reference target link => do
    target.validate types
    match link with
    | .null => return ()
    | link =>
      if target.isLink then return ()
      refuse (.strayTarget (← link.asText))

def TypeDef.validate (types : List Doc) : TypeDef → Except Fault Unit
  | ⟨fields, _, _⟩ => Field.validateAll types [] fields

/-- Check fields in order; `seen` are the names of those before. -/
def Field.validateAll (types : List Doc) (seen : List Label) : List Field → Except Fault Unit
  | [] => .ok ()
  | field :: rest => do
    field.validate types
    let name := field.name
    if seen.contains name then refuse (.duplicateField (← name.asText))
    Field.validateAll types (seen ++ [name]) rest

def Field.validate (types : List Doc) : Field → Except Fault Unit
  | ⟨_, _, _, type⟩ => type.validate types

end

/-- Check a parameter against the data types and the identifiers of the bindings around it. -/
def Parameter.validate (types : List Doc) (bindings : List Label) (parameter : Parameter) :
    Except Fault Unit :=
  match parameter.source with
  | .inline binding | .own binding => binding.type.validate types
  | .shared id => do
    if bindings.contains id then return ()
    refuse (.unknownBinding (← id.asText))

def Input.validate (types : List Doc) (bindings : List Label) (input : Input) :
    Except Fault Unit := do
  if let some type := input.type then type.validate types
  input.params.forM (Parameter.validate types bindings)

def Output.validate (types : List Doc) (output : Output) : Except Fault Unit := do
  if let some type := output.type then type.validate types

def Condition.asText : Condition → Except Fault String
  | some label => label.asText
  | none => .error .wrongKind

def Condition.parse (condition : Condition) : Except Fault Expr := do
  Expr.parse (← condition.asText)

def Condition.validate (condition : Condition) : Except Fault Unit := do
  let _ ← condition.parse
  return ()

def enclosesEntity (method : Label) : Bool :=
  method == .text "POST" || method == .text "PUT"

def Operation.validate (types : List Doc) (bindings : List Label) (operation : Operation) :
    Except Fault Unit := do
  if enclosesEntity operation.method && operation.input.isNone then refuse .missingInput
  if let some input := operation.input then input.validate types bindings
  match operation.output with
  | some output => output.validate types
  | none => .error .noAttribute
  operation.requires.forM Condition.validate
  operation.ensures.forM Condition.validate

/-- Check operations in order; `seen` are the names of those before. -/
def Resource.validateOperations (types : List Doc) (bindings : List Label) (resource : Label)
    (seen : List Label) : List Operation → Except Fault Unit
  | [] => .ok ()
  | operation :: rest => do
    operation.validate types bindings
    if seen.contains operation.name then
      refuse (.duplicateOperation (← operation.name.asText) (← resource.asText))
    Resource.validateOperations types bindings resource (seen ++ [operation.name]) rest

def Resource.validate (types : List Doc) (resource : Resource) : Except Fault Unit := do
  resource.bindings.forM fun binding => binding.type.validate types
  Resource.validateOperations types (resource.bindings.map (·.id)) resource.name []
    resource.operations

/-- The names of data types, each of which may be used once. -/
def Api.uniqueNames (seen : List Doc) : List NamedTypeDef → Except Fault (List Doc)
  | [] => .ok seen
  | type :: rest => do
    if type.name.isAmong seen then refuse (.duplicateType (← type.name.asText))
    Api.uniqueNames (seen ++ [type.name]) rest

def Api.validate (api : Api) : Except Fault Unit := do
  let types ← Api.uniqueNames [] api.dataTypes
  api.dataTypes.forM fun type => type.definition.validate types
  api.resources.forM (Resource.validate types)

def Api.ofDoc (document : Doc) : Except Fault Api := do
  let api ← Api.readParts document
  api.validate
  return api

end ApiDescription
