import ApiDescription.Fault

/-!
# Documents

A document is a tree of plain values: what a JSON text denotes.  Fields of an object keep the order
in which their keys first occurred.  The accessors state what happens on a value of another kind.
-/

namespace ApiDescription

inductive Doc where
  | null
  | bool (value : Bool)
  | int (value : Int)
  | float (value : Float)
  | text (value : String)
  | list (items : List Doc)
  | object (fields : List (String × Doc))
  deriving Inhabited, Repr

namespace Doc

instance : Coe String Doc := ⟨text⟩

abbrev Fields := List (String × Doc)

/-- Set a field: a key that is there keeps its place, a new one comes last. -/
def Fields.put (fields : Fields) (key : String) (value : Doc) : Fields :=
  match fields with
  | [] => [(key, value)]
  | (name, old) :: rest =>
    if name = key then (name, value) :: rest else (name, old) :: Fields.put rest key value

def hasKey (document : Doc) (key : String) : Except Fault Bool :=
  match document with
  | object fields => .ok (fields.any fun field => field.1 == key)
  | _ => .error .noAttribute

def get (document : Doc) (key : String) : Except Fault Doc :=
  match document with
  | object fields =>
    match fields.lookup key with
    | some value => .ok value
    | none => .error (.missingKey key)
  | _ => .error .wrongKind

def get? (document : Doc) (key : String) : Except Fault (Option Doc) := do
  if ← document.hasKey key then return some (← document.get key) else return none

/-- What a loop over the value runs through: the items of a list, the keys of an object, the
characters of a text. -/
def elements : Doc → Except Fault (List Doc)
  | list items => .ok items
  | object fields => .ok (fields.map fun field => text field.1)
  | text value => .ok (value.toList.map fun character => text (String.ofList [character]))
  | _ => .error .wrongKind

/-- Whether a condition on the value holds: zero, empty and absent values do not. -/
def isTruthy : Doc → Bool
  | null => false
  | bool value => value
  | int value => value != 0
  | float value => !(value == 0.0)
  | text value => !value.isEmpty
  | list items => !items.isEmpty
  | object fields => !fields.isEmpty

def asText : Doc → Except Fault String
  | text value => .ok value
  | _ => .error .wrongKind

end Doc

end ApiDescription
