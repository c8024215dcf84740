import ApiDescription.Document.Equality
import ApiDescription.Document.Printer

/-!
# References to types

A type is referred to by its name.  Some names are built in, `list(…)` and `set(…)` make containers
of the type named inside, and every other name is that of a data type which the description has to
define.
-/

namespace ApiDescription

inductive Primitive where
  | short | int | long | string | boolean | double | byte | binary | href
  deriving DecidableEq, Repr, Inhabited

namespace Primitive

def name : Primitive → String
  | short => "short"
  | int => "int"
  | long => "long"
  | string => "string"
  | boolean => "boolean"
  | double => "double"
  | byte => "byte"
  | binary => "binary"
  | href => "href"

def all : List Primitive :=
  [short, int, long, string, boolean, double, byte, binary, href]

def ofName? (name : String) : Option Primitive :=
  all.find? fun kind => kind.name == name

end Primitive

inductive Container where
  | list | set
  deriving DecidableEq, Repr, Inhabited

namespace Container

def name : Container → String
  | list => "list"
  | set => "set"

def all : List Container :=
  [list, set]

def ofName? (name : String) : Option Container :=
  all.find? fun kind => kind.name == name

end Container

/-- A reference to a type.  The name of a data type is normally a text, but a description may use
any value for it. -/
inductive TypeRef where
  | primitive (kind : Primitive)
  | container (kind : Container) (item : TypeRef)
  | custom (name : Doc)
  deriving Inhabited, Repr

namespace TypeRef

/-- The two parts of the name of a container type: what stands before the first parenthesis, and
what stands after it up to the last character.  The last character is taken for the closing
parenthesis. -/
def splitContainer (name : List Char) : Option (List Char × List Char) :=
  match name.dropWhile (· != '(') with
  | [] => none
  | _ :: rest => some (name.takeWhile (· != '('), rest.dropLast)

/-- The reference that the characters of a name spell; `depth` bounds the nesting of containers. -/
def ofChars (depth : Nat) (name : List Char) : TypeRef :=
  let spelled := String.ofList name
  match Primitive.ofName? spelled, depth with
  | some kind, _ => primitive kind
  | none, 0 => custom (.text spelled)
  | none, depth + 1 =>
    match splitContainer name with
    | none => custom (.text spelled)
    | some (kind, item) =>
      match Container.ofName? (String.ofList kind) with
      | some kind => container kind (ofChars depth item)
      | none => custom (.text spelled)

def ofText (name : String) : TypeRef :=
  ofChars name.length name.toList

/-- The reference that a value gives: any value but a text is the name of a data type. -/
def ofName : Doc → TypeRef
  | .text name => ofText name
  | name => custom name

def spelling : TypeRef → String
  | primitive kind => kind.name
  | container kind item => kind.name ++ "(" ++ item.spelling ++ ")"
  | custom name => name.words

def referenceName : TypeRef → Doc
  | custom name => name
  | reference => .text reference.spelling

def isLink : TypeRef → Bool
  | primitive .href => true
  | _ => false

def apiName : String := "_API_"

def noneName : String := "_NONE_"

/-- Check that a reference leads to a built-in or reserved name or to one that `known` accepts. -/
def validateBy (known : Doc → Except Fault Bool) : TypeRef → Except Fault Unit
  | primitive _ => .ok ()
  | container _ item => item.validateBy known
  | custom name => do
    if name.same (.text apiName) || name.same (.text noneName) then return ()
    if ← known name then return ()
    refuse (.unknownType (← name.asText))

/-- Check a reference against the names of the data types. -/
def validate (reference : TypeRef) (types : List Doc) : Except Fault Unit :=
  reference.validateBy fun name => .ok (types.any fun type => type.same name)

end TypeRef

end ApiDescription
