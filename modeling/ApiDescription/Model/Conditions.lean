import ApiDescription.Expression.Rename
import ApiDescription.Model.Schema
import ApiDescription.Model.Validation

/-!
# Conditions of operations

What has to hold before and after an operation: its own conditions, and the constraints of the types
of its input and output, rephrased for the place at which a value of the type occurs.  Constraints
of items of a container hold for all items.
-/

namespace ApiDescription

def Condition.about (subject : String) (condition : Condition) : Except Fault Condition := do
  return (← Expr.changeSubject (← condition.asText) "self" subject).map Label.text

/-- The variable that runs over the items of a container found at `place`. -/
def itemVariable (place : String) : String :=
  if Text.endsWith place "_item" then "_" ++ place
  else if Text.startsWith place "_item." then "_" ++ Text.replaceAll place "." "_"
  else "_item"

def Condition.forAll (item place : String) (condition : Condition) :
    Except Fault Condition := do
  let body ← condition.asText
  return some (.text ("forall(" ++ item ++ ", " ++ place ++ ", " ++ body ++ ")"))

/-- The constraints that a type puts on a value at `place`.  Following a type into itself runs out
of `fuel`. -/
def Schema.constraintsAt (api : Api) : Nat → Option Schema → String → Except Fault (List Condition)
  | 0, _, _ => .error .tooDeep
  | _, none, _ => .ok []
  | fuel + 1, some schema, place =>
    let record (definition : TypeDef) : Except Fault (List Condition) := do
      let ofFields ← definition.fields.mapM fun field => do
        let name ← field.name.asText
        let inner ← constraintsAt api fuel (some field.type.schema) (place ++ "." ++ name)
        inner.mapM (Condition.about ("self." ++ name))
      return definition.constraints ++ ofFields.flatten
    match schema with
    | .anonymous definition => record definition
    | .named type => record type.definition
    | .reference (.custom name) => do
      (← constraintsAt api fuel (api.lookup name) place).mapM (Condition.about place)
    | .reference (.container _ item) => do
      let variableName := itemVariable place
      (← constraintsAt api fuel (some (.reference item)) variableName).mapM
        (Condition.forAll variableName place)
    | .reference (.primitive _) => .ok []

def Api.constraintsAt (api : Api) (type : DataType) (place : String) :
    Except Fault (List Condition) :=
  Schema.constraintsAt api (api.reach type.schema) (some type.schema) place

def Operation.preConditions (operation : Operation) (api : Api) : Except Fault (List Condition) :=
  match operation.input.bind (·.type) with
  | some type => do return operation.requires ++ (← api.constraintsAt type "input")
  | none => .ok operation.requires

def Operation.postConditions (operation : Operation) (api : Api) :
    Except Fault (List Condition) :=
  match operation.output with
  | none => .error .noAttribute
  | some output =>
    match output.type with
    | some type => do return operation.ensures ++ (← api.constraintsAt type "output")
    | none => .ok operation.ensures

end ApiDescription
