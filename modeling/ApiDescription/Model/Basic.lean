import ApiDescription.Model.TypeRef

/-!
# Descriptions of services

What a description is made of: data types with their fields, resources with their operations, and
what is said about owners, service levels and versions.  Parts keep the order in which they were
given.

Values whose kind a description does not fix (truth of `optional`, a status, a price) are kept as
they were given.

A label is a text that an author gave to a part of a description.  An author who gives a list
instead gets a list of texts, and one who gives any other value gets its wording.
-/

namespace ApiDescription

/-- A text of a description, or a list of texts where the author gave a list. -/
inductive Label where
  | text (value : String)
  | texts (values : List String)
  deriving DecidableEq, Repr, Inhabited

namespace Label

instance : Coe String Label := ⟨text⟩

def ofDoc : Doc → Label
  | .list items => .texts (items.map Doc.words)
  | value => .text value.words

def toDoc : Label → Doc
  | text value => .text value
  | texts values => .list (values.map Doc.text)

def asText : Label → Except Fault String
  | text value => .ok value
  | texts _ => .error .wrongKind

def words (label : Label) : String :=
  label.toDoc.words

def isTruthy : Label → Bool
  | text value => !value.isEmpty
  | texts values => !values.isEmpty

end Label

/-- A condition as its author gave it; a condition that was derived and has no text is absent. -/
abbrev Condition := Option Label

mutual

/-- A type at the place where it is used: a reference, with the target of a link beside it, or a
definition written on the spot. -/
inductive DataType where
  | reference (target : TypeRef) (link : Doc)
  | inline (definition : TypeDef)

/-- A record type with the constraints its values obey. -/
structure TypeDef where
  fields : List Field
  constraints : List Condition
  description : Option Label

structure Field where
  name : Label
  description : Option Label
  optional : Doc
  type : DataType

end

instance : Inhabited TypeDef := ⟨⟨[], [], none⟩⟩

instance : Inhabited DataType := ⟨.inline default⟩

/-- A data type of a description; any value may be its name. -/
structure NamedTypeDef where
  name : Doc
  definition : TypeDef
  deriving Inhabited

/-- How a value reaches an operation: where it is put (`mode`), under which name, and its type. -/
structure InputBinding where
  mode : Label
  name : Label
  type : DataType
  deriving Inhabited

/-- A binding that operations of a resource share by its identifier. -/
structure NamedBinding extends InputBinding where
  id : Label
  deriving Inhabited

inductive Parameter.Source where
  | shared (id : Label)
  | inline (binding : InputBinding)
  /-- The parameter itself says mode, name and type. -/
  | own (binding : InputBinding)

structure Parameter where
  source : Parameter.Source
  optional : Doc := .bool false
  description : Option Label := none

/-- What an operation takes. -/
structure Input where
  contentType : List String := []
  description : Option Label := none
  params : List Parameter := []
  type : Option DataType := none

structure Header where
  name : Label
  description : Option Label := none
  type : DataType

/-- What an operation gives; an output that is present but empty has no content types at all. -/
structure Output where
  status : Doc
  contentType : Option (List String) := some []
  type : Option DataType := none
  headers : List Header := []
  description : Option Label := none

/-- An operation on a resource.  Errors are listed by status in the order in which each status was
first given. -/
structure Operation where
  name : Label
  method : Label
  description : Option Label := none
  input : Option Input := none
  output : Option Output := none
  errors : List (Int × Label) := []
  requires : List Condition := []
  ensures : List Condition := []

structure Resource where
  name : Label
  path : Label
  operations : List Operation := []
  bindings : List NamedBinding := []

/-- Who answers for the service. -/
structure Owner where
  name : Label
  email : Label
  ownerType : Label

structure CostModel where
  currency : Label
  unitPrice : Doc
  requestsPerUnit : Doc

/-- What a provider promises. -/
structure ServiceLevel where
  name : Option Label
  description : Option Label
  availability : Doc
  rateLimit : Doc
  timeUnit : Option Label
  costModel : Option CostModel

structure Version where
  id : Option Label
  strategy : Option Label

structure Api where
  name : Label
  description : Option Label := none
  base : List String := []
  categories : List String := []
  tags : List String := []
  license : Option Label := none
  community : Option Label := none
  resources : List Resource := []
  dataTypes : List NamedTypeDef := []
  ownership : List Owner := []
  serviceLevels : List ServiceLevel := []
  version : Option Version := none

end ApiDescription
