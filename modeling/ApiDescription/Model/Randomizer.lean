import ApiDescription.Expression.Randomizer
import ApiDescription.Model.Schema
import ApiDescription.Model.Writer

/-!
# Random variants of descriptions

A variant has another name and the same parts, but some of its conditions are replaced by random
variants of themselves: the conditions of operations, and the constraints of data types that an
operation takes or gives directly.
-/

namespace ApiDescription

abbrev Drawing := StateT Script (Except Fault)

namespace Drawing

def draw (low high : Nat) : Drawing Nat := do
  let (number, script) := (← get).next
  set script
  return low + number % (high - low + 1)

/-- Replace a condition by a random variant one time in three. -/
def condition (given : Condition) : Drawing Condition := do
  if (← draw 0 2) == 1 then
    let source ← given.asText
    let (variant, script) ← Expr.randomizeText source (← get)
    set script
    return variant.map Label.text
  else return given

def conditions (given : List Condition) : Drawing (List Condition) :=
  given.mapM condition

end Drawing

def NamedTypeDef.setConstraints (name : Doc) (constraints : List Condition) :
    List NamedTypeDef → List NamedTypeDef
  | [] => []
  | type :: rest =>
    if type.name.same name then
      { type with definition := { type.definition with constraints } } :: rest
    else type :: setConstraints name constraints rest

namespace Api

def randomizeType (api : Api) : Option DataType → Drawing Api
  | some (.reference (.custom name) _) =>
    match api.lookup name with
    | some (.named type) => do
      let constraints ← Drawing.conditions type.definition.constraints
      return { api with dataTypes := NamedTypeDef.setConstraints name constraints api.dataTypes }
    | some (.anonymous _) | some (.reference _) | none => throw .noAttribute
  | _ => return api

/-- Randomize an operation and the data types it refers to directly. -/
def randomizeOperation (api : Api) (operation : Operation) : Drawing (Api × Operation) := do
  let api ← api.randomizeType (operation.input.bind (·.type))
  let api ←
    match operation.output with
    | some output => api.randomizeType output.type
    | none => throw .noAttribute
  let requires ← Drawing.conditions operation.requires
  let ensures ← Drawing.conditions operation.ensures
  return (api, { operation with requires, ensures })

/-- Randomize parts of a description one after the other, each in the description that the ones
before it left. -/
def randomizeEach {α : Type} (randomizePart : Api → α → Drawing (Api × α)) (api : Api) :
    List α → Drawing (Api × List α)
  | [] => return (api, [])
  | part :: rest => do
    let (api, part) ← randomizePart api part
    let (api, rest) ← randomizeEach randomizePart api rest
    return (api, part :: rest)

def randomizeResource (api : Api) (resource : Resource) : Drawing (Api × Resource) := do
  let (api, operations) ← api.randomizeEach randomizeOperation resource.operations
  return (api, { resource with operations })

/-- A random variant of a description under a new name. -/
def randomize (api : Api) (name : String) : Drawing Api := do
  let (api, resources) ← { api with name := .text name }.randomizeEach randomizeResource
    api.resources
  return { api with resources }

end Api

end ApiDescription
