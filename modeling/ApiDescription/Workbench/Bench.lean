import ApiDescription.Model.TypeRef
import ApiDescription.Workbench.Slot

/-!
# The workbench

The parts that have been made so far, each with its attributes.  The workbench only grows: a part
keeps its number, and numbers are how parts refer to each other.
-/

namespace ApiDescription.Workbench

/-- The kinds of parts that can be made. -/
inductive Kind where
  | field | typeRef | primitiveRef | containerRef | customRef | typeDef | namedTypeDef | dataType
  | inputBinding | namedBinding | parameter | input | header | output | operation | resource
  | owner | costModel | serviceLevel | version | api
  deriving DecidableEq, Repr, Inhabited

namespace Kind

/-- The attributes of a part that nothing has been said about. -/
def blank : Kind → List (String × Slot)
  | field => [("name", .null), ("description", .null), ("type", .null), ("optional", .bool false)]
  | typeRef | primitiveRef | containerRef | customRef => []
  | typeDef | namedTypeDef =>
    [("fields", .list []), ("constraints", .list []), ("description", .null)]
  | dataType => [("ref", .null)]
  | inputBinding => [("mode", .null), ("name", .null), ("type", .null)]
  | namedBinding => [("mode", .null), ("name", .null), ("type", .null), ("id", .null)]
  | parameter => [("binding", .null), ("optional", .bool false), ("description", .null)]
  | input =>
    [("contentType", .list []), ("type", .null), ("params", .list []), ("description", .null)]
  | header => [("name", .null), ("description", .null), ("type", .null)]
  | output =>
    [("status", .plain (.int (-1))), ("contentType", .list []), ("type", .null),
      ("headers", .list []), ("description", .null)]
  | operation =>
    [("name", .null), ("method", .null), ("input", .null), ("output", .null),
      ("errors", .causes []), ("description", .null), ("requires", .list []), ("ensures", .list [])]
  | resource =>
    [("name", .null), ("path", .null), ("input_bindings", .list []), ("operations", .list [])]
  | owner => [("name", .null), ("email", .null), ("ownerType", .null)]
  | costModel =>
    [("currency", .null), ("unitPrice", .plain (.float 0.0)), ("requestsPerUnit", .plain (.int 0))]
  | serviceLevel =>
    [("name", .null), ("description", .null), ("availability", .plain (.float 0.0)),
      ("rateLimit", .plain (.int 0)), ("timeUnit", .null), ("costModel", .null)]
  | version => [("id", .null), ("strategy", .null)]
  | api =>
    [("name", .null), ("base", .list []), ("description", .null), ("version", .null),
      ("resources", .list []), ("data_types", .list []), ("ownership", .list []), ("sla", .list []),
      ("license", .null), ("categories", .list []), ("tags", .list []), ("security", .null),
      ("community", .null)]

/-- What can be asked of every part of a kind, whatever its attributes. -/
def shared : Kind → List (String × Slot)
  | primitiveRef => [("PRIMITIVES", .names (Primitive.all.map Primitive.name))]
  | containerRef => [("CONTAINERS", .names (Container.all.map Container.name))]
  | _ => []

def isTypeDef : Kind → Bool
  | typeDef | namedTypeDef => true
  | _ => false

def isBinding : Kind → Bool
  | inputBinding | namedBinding => true
  | _ => false

end Kind

/-- What a part can be told to do. -/
inductive Method where
  | serialize | serializeText | validate | referenceName | isLink | constraints | preConditions
  | postConditions | bindingById | typeByName
  deriving DecidableEq, Repr

/-- What a part of a kind can be told to do, with the number of arguments it takes. -/
def Kind.methods : Kind → List (Method × Nat)
  | .field => [(.serialize, 0), (.validate, 1)]
  | .typeRef | .primitiveRef | .containerRef | .customRef => [(.referenceName, 0), (.validate, 1)]
  | .typeDef | .namedTypeDef => [(.serialize, 0), (.validate, 1), (.constraints, 1)]
  | .dataType => [(.serialize, 0), (.validate, 1), (.isLink, 0)]
  | .inputBinding => [(.validate, 1)]
  | .namedBinding => [(.serialize, 0), (.validate, 1)]
  | .parameter | .input => [(.serialize, 0), (.validate, 2)]
  | .output => [(.serialize, 0), (.validate, 1)]
  | .operation =>
    [(.serialize, 0), (.validate, 2), (.preConditions, 1), (.postConditions, 1)]
  | .resource => [(.serialize, 0), (.validate, 1), (.bindingById, 1)]
  | .header | .owner | .costModel | .serviceLevel | .version => [(.serialize, 0)]
  | .api => [(.serialize, 0), (.serializeText, 0), (.validate, 0), (.typeByName, 1)]

structure Item where
  kind : Kind
  attributes : List (String × Slot)
  deriving Inhabited

namespace Item

def get? (item : Item) (name : String) : Option Slot :=
  (item.attributes.lookup name).or (item.kind.shared.lookup name)

def get (item : Item) (name : String) : Except Fault Slot :=
  match item.get? name with
  | some slot => .ok slot
  | none => .error .noAttribute

/-- Set an attribute: one that is there keeps its place, a new one comes last. -/
def putIn (attributes : List (String × Slot)) (name : String) (slot : Slot) :
    List (String × Slot) :=
  match attributes with
  | [] => [(name, slot)]
  | (known, old) :: rest =>
    if known = name then (known, slot) :: rest else (known, old) :: putIn rest name slot

def put (item : Item) (name : String) (slot : Slot) : Item :=
  { item with attributes := putIn item.attributes name slot }

/-- Check that a part can be told to do something. -/
def offers (item : Item) (method : Method) : Except Fault Unit :=
  if (item.kind.methods.lookup method).isSome then .ok () else .error .noAttribute

/-- Check that a part can be told to do something with some number of arguments. -/
def expect (item : Item) (method : Method) (arguments : Nat) : Except Fault Unit :=
  match item.kind.methods.lookup method with
  | some needed => if needed = arguments then .ok () else .error .wrongKind
  | none => .error .noAttribute

end Item

/-- The parts made so far, by number, and the names that some of them were given. -/
structure Bench where
  items : Array Item := #[]
  known : List (String × Nat) := []
  deriving Inhabited

abbrev Work := StateT Bench (Except Fault)

/-- How far parts are followed from one to the next before it is assumed that they go round. -/
def depthLimit : Nat := 1000

def place (item : Item) : Work Nat := do
  let bench ← get
  set { bench with items := bench.items.push item }
  return bench.items.size

def itemAt (number : Nat) : Work Item := do
  match (← get).items[number]? with
  | some item => return item
  | none => throw .noAttribute

/-- The part that is held; a plain value has no attributes. -/
def itemOf : Slot → Work Item
  | .part number => itemAt number
  | _ => throw .noAttribute

def assign (number : Nat) (name : String) (slot : Slot) : Work Unit :=
  modify fun bench =>
    { bench with items := bench.items.modify number fun item => item.put name slot }

def attributeOf (slot : Slot) (name : String) : Work Slot := do
  (← itemOf slot).get name

def kindOf? (slot : Slot) : Work (Option Kind) := do
  match slot with
  | .part number => return (← get).items[number]?.map (·.kind)
  | _ => return none

def holds (slot : Slot) (test : Kind → Bool) : Work Bool := do
  return (← kindOf? slot).any test

end ApiDescription.Workbench
