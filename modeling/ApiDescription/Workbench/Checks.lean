import ApiDescription.Expression.Parser
import ApiDescription.Workbench.Serialization

/-!
# Checking parts

The rules that make a description valid, checked on parts that were put together by hand.  A part
may turn out not to be one, or to be of a kind that has other rules, which is a fault as well.
-/

namespace ApiDescription.Workbench

def isAmong (slot : Slot) (known : List Slot) : Bool :=
  known.any fun other => other.same slot

def isLink (type : Slot) : Work Bool := do
  if ← holds type (· == .primitiveRef) then
    return (← referenceName depthLimit type).same (.text Primitive.href.name)
  else return false

/-- Check a part against the names and identifiers given with it; `depth` bounds the chain of parts
inside of parts. -/
def validate : Nat → Slot → List Slot → Work Unit
  | 0, _, _ => throw .tooDeep
  | depth + 1, target, arguments => do
    let item ← itemOf target
    item.expect .validate arguments.length
    let types := arguments.headD .null
    let bindings := (arguments.drop 1).headD .null
    match item.kind with
    | .typeRef => throw .notSupported
    | .primitiveRef => return ()
    | .field | .inputBinding | .namedBinding | .containerRef =>
      validate depth (← item.get "type") [types]
    | .customRef =>
      let name ← item.get "name"
      if name.same (.text TypeRef.apiName) || name.same (.text TypeRef.noneName) then return ()
      if (← types.elements).any fun type => type.same name then return ()
      refuse (.unknownType (← name.asText))
    | .typeDef | .namedTypeDef =>
      let mut seen := []
      for field in ← (← item.get "fields").elements do
        validate depth field [types]
        let name ← attributeOf field "name"
        if isAmong name seen then refuse (.duplicateField (← name.asText))
        seen := seen ++ [name]
    | .dataType =>
      let type ← item.get "type"
      validate depth type [types]
      let link ← item.get "ref"
      unless link.isNull do
        unless ← isLink type do refuse (.strayTarget (← link.asText))
    | .parameter =>
      let binding ← item.get "binding"
      if ← holds binding Kind.isBinding then validate depth binding [types]
      else if (← bindings.elements).any fun known => known.same binding then return ()
      else refuse (.unknownBinding (← binding.asText))
    | .input =>
      let type ← item.get "type"
      if type.isTruthy then validate depth type [types]
      for param in ← (← item.get "params").elements do
        validate depth param [types, bindings]
    | .output =>
      let type ← item.get "type"
      if type.isTruthy then validate depth type [types]
    | .operation =>
      let method ← item.get "method"
      let input ← item.get "input"
      if method.same (.text "POST") || method.same (.text "PUT") then
        unless input.isTruthy do refuse .missingInput
      if input.isTruthy then validate depth input [types, bindings]
      validate depth (← item.get "output") [types]
      for key in ["requires", "ensures"] do
        for condition in ← (← item.get key).elements do
          let _ ← Expr.parse (← condition.asText)
    | .resource =>
      let mut ids := []
      for binding in ← (← item.get "input_bindings").elements do
        validate depth binding [types]
        ids := ids ++ [← attributeOf binding "id"]
      let mut seen := []
      for operation in ← (← item.get "operations").elements do
        validate depth operation [types, .list ids]
        let name ← attributeOf operation "name"
        if isAmong name seen then
          refuse (.duplicateOperation (← name.asText) (← (← item.get "name").asText))
        seen := seen ++ [name]
    | .api =>
      let dataTypes ← (← item.get "data_types").elements
      let mut names := []
      for type in dataTypes do
        let name ← attributeOf type "name"
        if isAmong name names then refuse (.duplicateType (← name.asText))
        names := names ++ [name]
      for type in dataTypes do
        validate depth type [.list names]
      for resource in ← (← item.get "resources").elements do
        validate depth resource [.list names]
    | .header | .owner | .costModel | .serviceLevel | .version => throw .noAttribute

end ApiDescription.Workbench
