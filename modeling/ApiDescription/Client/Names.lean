import ApiDescription.Code.ClassDef
import ApiDescription.Text.Case

/-!
# Names in generated code

A name of the described service becomes a name of the generated code: characters that no name may
have are dropped, a name that would start with a digit gets a word in front of it, and a name that
is taken gets the first number that makes it free.  Content types go by short names of their own.
-/

namespace ApiDescription.Client

def isNameChar (character : Char) : Bool :=
  Text.isAlphanumeric character || character == '_'

/-- Whether a text taken as a whole may stand in a name. -/
def isNamePiece (piece : String) : Bool :=
  (!piece.isEmpty && piece.all Text.isAlphanumeric) || piece == "_"

def pieceText : Doc → Except Fault String
  | .text value => .ok value
  | _ => .error .noAttribute

/-- What is left of a name when everything is dropped that no name may have.  A list or an object is
taken piece by piece. -/
def cleaned : Doc → Except Fault String
  | .text value => .ok (String.ofList (value.toList.filter isNameChar))
  | .list items => do
    return Text.join "" ((← items.mapM pieceText).filter isNamePiece)
  | .object fields => .ok (Text.join "" ((fields.map Prod.fst).filter isNamePiece))
  | _ => .error .wrongKind

/-- How names of one kind begin. -/
structure NameStyle where
  nameless : String
  beforeDigit : String
  start : String → String

namespace NameStyle

def type : NameStyle := ⟨"DataType", "DataType", Text.upperFirst⟩

def method : NameStyle := ⟨"method", "method_", Text.lowerFirst⟩

def argument : NameStyle := ⟨"param", "param_", Text.lowerFirst⟩

def function : NameStyle := ⟨"method", "method_", id⟩

def ofCleaned (style : NameStyle) (name : String) : String :=
  match name.toList with
  | [] => style.start style.nameless
  | first :: _ =>
    style.start (if Text.isDigit first then style.beforeDigit ++ name else name)

/-- The name before it is checked against others. -/
def stem (style : NameStyle) (name : Doc) : Except Fault String := do
  return style.ofCleaned (← cleaned name)

end NameStyle

/-- The name to try after one that ends with `number`: the next number stands in its place.  Number
zero is not written. -/
def nextName (name : String) (number : Nat) : String :=
  let written := if number = 0 then 0 else (Decimal.natText number).length
  String.ofList (name.toList.take (name.length - written)) ++ Decimal.natText (number + 1)

/-- The first name from `name` on, which ends with `number`, that is not taken; `fuel` bounds the
search. -/
def firstFreeFrom (taken : List String) : Nat → Nat → String → String
  | 0, _, name => name
  | fuel + 1, number, name =>
    if taken.contains name then firstFreeFrom taken fuel (number + 1) (nextName name number)
      else name

def firstFree (taken : List String) (stem : String) : String :=
  firstFreeFrom taken taken.length 0 stem

def methodName (type : Code.ClassDef) (name : Doc) : Except Fault String := do
  return firstFree (type.methods.map (·.name)) (← NameStyle.method.stem name)

def argumentName (method : Code.Method) (name : Doc) : Except Fault String := do
  return firstFree (method.arguments.map (·.name)) (← NameStyle.argument.stem name)

def contentTypes : List (String × String) :=
  [("application/json", "json"), ("application/x-www-form-urlencoded", "form"), ("_ANY_", "_any_")]

def afterSlash (characters : List Char) : Option (List Char) :=
  if characters.contains '/' then some (characters.reverse.takeWhile (· != '/')).reverse else none

def mediaName (contentType : String) : Except Fault String :=
  match contentTypes.lookup contentType with
  | some name => .ok name
  | none =>
    match afterSlash contentType.toList with
    | some characters => .ok (String.ofList (characters.filter isNameChar))
    | none => .error .badValue

def hasMedia (preference : String) : List String → Except Fault Bool
  | [] => .ok false
  | contentType :: rest => do
    if (← mediaName contentType) == preference then return true else hasMedia preference rest

def firstMedia : List String → Except Fault String
  | first :: _ => mediaName first
  | [] => .error .outOfBounds

/-- The short name to use: the preferred one if it is there, else that of the first content type. -/
def selectMedia (contentTypes : List String) : Option String → Except Fault String
  | some name => do
    if ← hasMedia name contentTypes then return name else firstMedia contentTypes
  | none => firstMedia contentTypes

end ApiDescription.Client
