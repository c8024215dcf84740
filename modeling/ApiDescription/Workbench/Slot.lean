import ApiDescription.Document.Equality
import ApiDescription.Document.Printer

/-!
# What an attribute can hold

A description can be put together by hand, one part and one attribute at a time.  Nothing is checked
while that goes on, so an attribute may hold any plain value, another part, or a list or table of
either.  Parts are held by their number, which makes two attributes share a part when they hold the
same number.
-/

namespace ApiDescription.Workbench

/-- What an attribute holds.  Lists and tables are never inside `plain`. -/
inductive Slot where
  | plain (value : Doc)
  | list (items : List Slot)
  | table (fields : List (String × Slot))
  | causes (entries : List (Int × Slot))
  | names (items : List String)
  | part (number : Nat)
  deriving Inhabited

namespace Slot

def null : Slot := plain .null

def text (value : String) : Slot := plain (.text value)

def bool (value : Bool) : Slot := plain (.bool value)

def isNull : Slot → Bool
  | plain .null => true
  | _ => false

def isList : Slot → Bool
  | list _ => true
  | _ => false

mutual

/-- The document that is held.  Parts, and lists and tables with parts in them, are no documents. -/
def toDoc : Slot → Except Fault Doc
  | plain value => .ok value
  | list items => do return .list (← toDocs items)
  | table fields => do return .object (← toFields fields)
  | causes _ => .error .wrongKind
  | names items => .ok (.list (items.map .text))
  | part _ => .error .wrongKind

def toDocs : List Slot → Except Fault (List Doc)
  | [] => .ok []
  | item :: rest => do return (← toDoc item) :: (← toDocs rest)

def toFields : List (String × Slot) → Except Fault Doc.Fields
  | [] => .ok []
  | (key, value) :: rest => do return (key, ← toDoc value) :: (← toFields rest)

end

mutual

def same : Slot → Slot → Bool
  | plain left, plain right => left.same right
  | list left, list right => sameItems left right
  | table left, table right => left.length == right.length && sameFields left right
  | part left, part right => left == right
  | _, _ => false

/-- Whether two lists hold the same in the same order. -/
def sameItems : List Slot → List Slot → Bool
  | [], [] => true
  | left :: lefts, right :: rights => same left right && sameItems lefts rights
  | _, _ => false

/-- Whether every field on the left is the same on the right. -/
def sameFields : List (String × Slot) → List (String × Slot) → Bool
  | [], _ => true
  | (key, value) :: rest, fields =>
    (match fields.lookup key with
      | some other => same value other
      | none => false) && sameFields rest fields

end

def isTruthy : Slot → Bool
  | plain value => value.isTruthy
  | list items => !items.isEmpty
  | table fields => !fields.isEmpty
  | causes entries => !entries.isEmpty
  | names items => !items.isEmpty
  | part _ => true

def elements : Slot → Except Fault (List Slot)
  | plain value => do return (← value.elements).map plain
  | list items => .ok items
  | table fields => .ok (fields.map fun field => text field.1)
  | causes entries => .ok (entries.map fun entry => plain (.int entry.1))
  | names items => .ok (items.map text)
  | part _ => .error .wrongKind

def asText : Slot → Except Fault String
  | plain value => value.asText
  | _ => .error .wrongKind

def words (slot : Slot) : Except Fault String := do
  return (← slot.toDoc).words

def label : Slot → Except Fault Slot
  | list items => do return list ((← items.mapM words).map text)
  | slot => do return text (← slot.words)

def field? (slot : Slot) (key : String) : Except Fault (Option Slot) :=
  match slot with
  | table fields => .ok (fields.lookup key)
  | _ => .error .noAttribute

def field (slot : Slot) (key : String) : Except Fault Slot :=
  match slot with
  | table fields =>
    match fields.lookup key with
    | some value => .ok value
    | none => .error (.missingKey key)
  | _ => .error .wrongKind

end Slot

end ApiDescription.Workbench
