import ApiDescription.Model.Schema

/-!
# Sample values

A value that shows what a type looks like: a fixed value for every built-in type, a short list for a
container, and an object with the required fields for a record type.
-/

namespace ApiDescription.Docs

def primitiveSample : Primitive → Doc
  | .string => .text "string"
  | .int | .long | .short => .int 12345
  | .boolean => .bool true
  | .href => .text "http://example.com"
  | .double => .float 12.345
  | .byte => .int 97
  | .binary => .text "A1B2C3D4E5"

def primitiveSamples : Primitive → List Doc
  | .string => [.text "string1", .text "string2", .text "string3"]
  | .int | .long | .short => [.int 100001, .int 200002, .int 300003]
  | .boolean => [.bool true, .bool false, .bool true]
  | .href => [.text "http://example1.com", .text "http://example2.com", .text "http://example3.com"]
  | .double => [.float 100.001, .float 200.002, .float 300.003]
  | .byte => [.int 97, .int 98, .int 99]
  | .binary => [.text "A1B2C3D4E5_1", .text "A1B2C3D4E5_2", .text "A1B2C3D4E5_3"]

/-- A sample of a type.  Following a type into itself runs out of fuel. -/
def sampleWithin (api : Api) : Nat → Schema → Except Fault Doc
  | 0, _ => .error .tooDeep
  | fuel + 1, schema =>
    let record (definition : TypeDef) : Except Fault Doc := do
      let required := definition.fields.filter fun field => !field.optional.isTruthy
      let samples ← required.mapM fun field => do
        let value ← sampleWithin api fuel field.type.schema
        return (← field.name.asText, value)
      return .object (samples.foldl (fun fields sample => Doc.Fields.put fields sample.1 sample.2)
        [])
    match schema with
    | .reference (.primitive kind) => .ok (primitiveSample kind)
    | .reference (.container _ (.primitive kind)) => .ok (.list (primitiveSamples kind))
    | .reference (.container _ item) => do
      let value ← sampleWithin api fuel (.reference item)
      return .list [value, value]
    | .anonymous definition => record definition
    | .named type => record type.definition
    | .reference (.custom name) =>
      match api.lookup name with
      | some (.named type) => record type.definition
      | some (.anonymous definition) => record definition
      | some (.reference _) | none => .error .noAttribute

def sample (api : Api) (schema : Schema) : Except Fault Doc :=
  sampleWithin api (api.reach schema) schema

end ApiDescription.Docs
