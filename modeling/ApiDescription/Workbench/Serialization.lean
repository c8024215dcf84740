import ApiDescription.Workbench.Bench

/-!
# Writing parts

What a part is written as, given what its attributes hold at the moment.  Attributes that a part of
its kind should have but which hold something else show up as faults, or are written as they are.
-/

namespace ApiDescription.Workbench

/-- A field for an attribute, unless it holds nothing or an empty list. -/
def heldField (item : Item) (name : String) : Except Fault (List (String × Slot)) := do
  match ← item.get name with
  | .plain .null | .list [] => return []
  | slot => return [(name, slot)]

def referenceName : Nat → Slot → Work Slot
  | 0, _ => throw .tooDeep
  | depth + 1, target => do
    let item ← itemOf target
    item.expect .referenceName 0
    match item.kind with
    | .containerRef =>
      let container ← (← item.get "container").asText
      let inner ← (← referenceName depth (← item.get "type")).asText
      return .text (container ++ "(" ++ inner ++ ")")
    | .primitiveRef | .customRef => item.get "name"
    | _ => throw .notSupported

def causesOf : Slot → Except Fault (List (Slot × Slot))
  | .causes entries => .ok (entries.map fun entry => (.plain (.int entry.1), entry.2))
  | .table fields => .ok (fields.map fun field => (.text field.1, field.2))
  | _ => .error .noAttribute

/-- A field that lists what an attribute holds, unless its condition is false. -/
def listedField (key : String) (slot : Slot) (write : Slot → Work Slot) :
    Work (List (String × Slot)) := do
  if slot.isTruthy then
    let elements ← slot.elements
    return [(key, .list (← elements.mapM write))]
  else return []

/-- Write a part; `depth` bounds the chain of parts inside of parts. -/
def serialize : Nat → Slot → Work Slot
  | 0, _ => throw .tooDeep
  | depth + 1, target => do
    let item ← itemOf target
    item.expect .serialize 0
    let typeField : Work (List (String × Slot)) := do
      return [("type", ← serialize depth (← item.get "type"))]
    let targetField : Work (List (String × Slot)) := do
      let link ← attributeOf (← item.get "type") "ref"
      return if link.isTruthy then [("ref", link)] else []
    let typeDefFields : Work (List (String × Slot)) := do
      let description ← heldField item "description"
      let fields ← (← (← item.get "fields").elements).mapM (serialize depth)
      let constraints ← listedField "constraints" (← item.get "constraints") pure
      return description ++ [("fields", .list fields)] ++ constraints
    match item.kind with
    | .field =>
      let optional ← item.get "optional"
      return .table ([("name", ← item.get "name")] ++ (← heldField item "description") ++
        (if optional.isTruthy then [("optional", optional)] else []) ++ (← typeField))
    | .typeDef => return .table (← typeDefFields)
    | .namedTypeDef => return .table (("name", ← item.get "name") :: (← typeDefFields))
    | .dataType =>
      let type ← item.get "type"
      if ← holds type Kind.isTypeDef then serialize depth type else referenceName depthLimit type
    | .namedBinding =>
      return .table ([("id", ← item.get "id"), ("mode", ← item.get "mode"),
        ("name", ← item.get "name")] ++ (← typeField))
    | .parameter =>
      let binding ← item.get "binding"
      let source ←
        if ← holds binding Kind.isBinding then do
          let type ← serialize depth (← attributeOf binding "type")
          pure [("name", ← attributeOf binding "name"), ("mode", ← attributeOf binding "mode"),
            ("type", type)]
        else pure [("binding", binding)]
      return .table (source ++ (← heldField item "description") ++
        if (← item.get "optional").isTruthy then [("optional", .bool true)] else [])
    | .input =>
      let params ← listedField "params" (← item.get "params") (serialize depth)
      let contentType ← heldField item "contentType"
      let type ← if (← item.get "type").isTruthy then typeField else pure []
      return .table (params ++ contentType ++ type ++ (← heldField item "description"))
    | .header =>
      return .table ([("name", ← item.get "name")] ++ (← heldField item "description") ++
        (← typeField) ++ (← targetField))
    | .output =>
      let type ←
        if (← item.get "type").isTruthy then do pure ((← typeField) ++ (← targetField))
        else pure []
      let headers ← listedField "headers" (← item.get "headers") (serialize depth)
      return .table ([("status", ← item.get "status"), ("contentType", ← item.get "contentType")] ++
        type ++ (← heldField item "description") ++ headers)
    | .operation =>
      let exchanged (key : String) : Work (List (String × Slot)) := do
        let part ← item.get key
        if part.isTruthy then
          let written ← serialize depth part
          return if written.isTruthy then [(key, written)] else []
        else return []
      let input ← exchanged "input"
      let output ← exchanged "output"
      let known ← item.get "errors"
      let errors ←
        if known.isTruthy then do
          let entries ← causesOf known
          pure [("errors", .list (entries.map fun entry =>
            .table [("status", entry.1), ("cause", entry.2)]))]
        else pure []
      let requires ← listedField "requires" (← item.get "requires") pure
      let ensures ← listedField "ensures" (← item.get "ensures") pure
      return .table ([("name", ← item.get "name"), ("method", ← item.get "method")] ++
        (← heldField item "description") ++ input ++ output ++ errors ++ requires ++ ensures)
    | .resource =>
      let bindings ← listedField "inputBindings" (← item.get "input_bindings") (serialize depth)
      let operations ← (← (← item.get "operations").elements).mapM (serialize depth)
      return .table (bindings ++ [("name", ← item.get "name"), ("path", ← item.get "path"),
        ("operations", .list operations)])
    | .owner =>
      return .table [("name", ← item.get "name"), ("email", ← item.get "email"),
        ("ownerType", ← item.get "ownerType")]
    | .costModel =>
      return .table [("currency", ← item.get "currency"), ("unitPrice", ← item.get "unitPrice"),
        ("requestsPerUnit", ← item.get "requestsPerUnit")]
    | .serviceLevel =>
      let availability ← item.get "availability"
      let rateLimit ← item.get "rateLimit"
      let timeUnit ← item.get "timeUnit"
      let costModel ← item.get "costModel"
      let cost ←
        if costModel.isTruthy then do pure [("costModel", ← serialize depth costModel)]
        else pure []
      return .table ([("name", ← item.get "name")] ++ (← heldField item "description") ++
        (if availability.isTruthy then [("availability", availability)] else []) ++
        (if rateLimit.isTruthy then [("rateLimit", rateLimit), ("timeUnit", timeUnit)] else []) ++
        cost)
    | .version =>
      return .table ([("id", ← item.get "id")] ++ (← heldField item "strategy"))
    | .api =>
      let listed (key name : String) : Work (List (String × Slot)) := do
        listedField key (← item.get name) (serialize depth)
      let labels ← ["description", "base", "categories", "tags", "license", "community"].mapM
        fun name => heldField item name
      let resources ← (← (← item.get "resources").elements).mapM (serialize depth)
      let dataTypes ← listed "dataTypes" "data_types"
      let ownership ← listed "ownership" "ownership"
      let levels ← listed "sla" "sla"
      let known ← item.get "version"
      let version ←
        if known.isTruthy then do pure [("version", ← serialize depth known)] else pure []
      return .table ([("name", ← item.get "name")] ++ labels.flatten ++
        [("resources", .list resources)] ++ dataTypes ++ ownership ++ levels ++ version)
    | .typeRef | .primitiveRef | .containerRef | .customRef | .inputBinding => throw .noAttribute

end ApiDescription.Workbench
