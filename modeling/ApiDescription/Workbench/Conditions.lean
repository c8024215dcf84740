import ApiDescription.Model.Conditions
import ApiDescription.Workbench.Construction

/-!
# Conditions of parts

What has to hold before and after an operation that was put together by hand, given the description
in which the types of its input and output are looked up.
-/

namespace ApiDescription.Workbench

def typeByName (api name : Slot) : Work Slot := do
  let item ← itemOf api
  item.expect .typeByName 1
  for type in ← (← item.get "data_types").elements do
    if (← attributeOf type "name").same name then return type
  match name with
  | .plain spelled =>
    match TypeRef.builtIn? spelled with
    | some reference => return .part (← placeReference reference)
    | none =>
      if spelled.same (.text TypeRef.apiName) then
        let number ← makeByHand .namedTypeDef .namedTypeDef
          [("name", .text TypeRef.apiName), ("fields", .list [])]
        return .part number
      else return .null
  | _ => return .null

def about (subject : String) (condition : Slot) : Work Slot := do
  match ← Expr.changeSubject (← condition.asText) "self" subject with
  | some text => return .text text
  | none => return .null

/-- The constraints that a type puts on a value at `place`; `depth` bounds the chain of types. -/
def constraintsAt (api : Slot) : Nat → Slot → String → Work (List Slot)
  | 0, _, _ => throw .tooDeep
  | depth + 1, type, place => do
    match ← kindOf? type with
    | some .typeDef | some .namedTypeDef =>
      let mut found ← (← attributeOf type "constraints").elements
      for field in ← (← attributeOf type "fields").elements do
        let inner ← attributeOf (← attributeOf field "type") "type"
        let name ← (← attributeOf field "name").asText
        let ofField ← constraintsAt api depth inner (place ++ "." ++ name)
        found := found ++ (← ofField.mapM (about ("self." ++ name)))
      return found
    | some .customRef =>
      let definition ← typeByName api (← referenceName depthLimit type)
      (← constraintsAt api depth definition place).mapM (about place)
    | some .containerRef =>
      let variableName := itemVariable place
      let ofItem ← constraintsAt api depth (← attributeOf type "type") variableName
      ofItem.mapM fun constraint => do
        let body ← constraint.asText
        return .text ("forall(" ++ variableName ++ ", " ++ place ++ ", " ++ body ++ ")")
    | _ => return []

def conditionsOf (item : Item) (key : String) (exchanged : Slot) (place : String) (api : Slot) :
    Work Slot := do
  let own ← (← item.get key).elements
  let type ← attributeOf exchanged "type"
  if type.isTruthy then
    let constraints ← constraintsAt api depthLimit (← attributeOf type "type") place
    return .list (own ++ constraints)
  else return .list own

def preConditions (item : Item) (api : Slot) : Work Slot := do
  let input ← item.get "input"
  if input.isTruthy then conditionsOf item "requires" input "input" api
  else return .list (← (← item.get "requires").elements)

/-- What holds after an operation, which has to have an output. -/
def postConditions (item : Item) (api : Slot) : Work Slot := do
  conditionsOf item "ensures" (← item.get "output") "output" api

end ApiDescription.Workbench
