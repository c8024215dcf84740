import ApiDescription.Document.Basic
import ApiDescription.Decimal.Shortest
import ApiDescription.Text.Printable

/-!
# Printing documents

Two layouts of a document as JSON text: on one line, or with one value a line and four blanks a
level.  Both write plain ASCII.

Where a description expects a text and finds another value, the value is worded: a text is itself,
and anything else is written as a literal of the expression language.
-/

namespace ApiDescription.Doc

def floatLiteral (value : Float) : String :=
  if value.isNaN then "NaN"
  else if value.isInf then if Decimal.isNegative value then "-Infinity" else "Infinity"
  else Decimal.floatText value

def escapeUnit (unit : Nat) : List Char :=
  '\\' :: 'u' :: Text.hexDigits 4 unit

/-- A character inside a JSON string: printable ASCII stands for itself. -/
def escapeChar (character : Char) : List Char :=
  let point := character.toNat
  if character == '"' then ['\\', '"']
  else if character == '\\' then ['\\', '\\']
  else if character == '\n' then ['\\', 'n']
  else if character == '\r' then ['\\', 'r']
  else if character == '\t' then ['\\', 't']
  else if point = 0x0c then ['\\', 'f']
  else if point = 0x08 then ['\\', 'b']
  else if 0x20 ≤ point ∧ point < 0x7f then [character]
  else if point < 0x10000 then escapeUnit point
  else
    escapeUnit (0xd800 + (point - 0x10000) / 0x400) ++
      escapeUnit (0xdc00 + (point - 0x10000) % 0x400)

def quote (value : String) : String :=
  "\"" ++ String.ofList (value.toList.flatMap escapeChar) ++ "\""

mutual

def compact : Doc → String
  | null => "null"
  | bool value => if value then "true" else "false"
  | int value => Decimal.intText value
  | float value => floatLiteral value
  | text value => quote value
  | list items => "[" ++ compactItems items ++ "]"
  | object fields => "\x7b" ++ compactFields fields ++ "\x7d"

def compactItems : List Doc → String
  | [] => ""
  | [item] => compact item
  | item :: rest => compact item ++ ", " ++ compactItems rest

def compactFields : List (String × Doc) → String
  | [] => ""
  | [(key, value)] => quote key ++ ": " ++ compact value
  | (key, value) :: rest => quote key ++ ": " ++ compact value ++ ", " ++ compactFields rest

end

/-- The end of a line and the blanks before the next value. -/
def newLine (level : Nat) : String :=
  "\n" ++ String.ofList (List.replicate (4 * level) ' ')

mutual

/-- The document with one value a line, nested `level` deep. -/
def prettyAt (level : Nat) : Doc → String
  | null => "null"
  | bool value => if value then "true" else "false"
  | int value => Decimal.intText value
  | float value => floatLiteral value
  | text value => quote value
  | list [] => "[]"
  | list (item :: items) =>
    "[" ++ newLine (level + 1) ++ prettyAt (level + 1) item ++ prettyItems (level + 1) items ++
      newLine level ++ "]"
  | object [] => "\x7b\x7d"
  | object ((key, value) :: fields) =>
    "\x7b" ++ newLine (level + 1) ++ quote key ++ ": " ++ prettyAt (level + 1) value ++
      prettyFields (level + 1) fields ++ newLine level ++ "\x7d"

def prettyItems (level : Nat) : List Doc → String
  | [] => ""
  | item :: rest => "," ++ newLine level ++ prettyAt level item ++ prettyItems level rest

def prettyFields (level : Nat) : List (String × Doc) → String
  | [] => ""
  | (key, value) :: rest =>
    "," ++ newLine level ++ quote key ++ ": " ++ prettyAt level value ++ prettyFields level rest

end

def pretty (document : Doc) : String :=
  prettyAt 0 document

mutual

def literal : Doc → String
  | null => "None"
  | bool value => if value then "True" else "False"
  | int value => Decimal.intText value
  | float value => Decimal.floatText value
  | text value => Text.quoted value
  | list items => "[" ++ literalItems items ++ "]"
  | object fields => "\x7b" ++ literalFields fields ++ "\x7d"

def literalItems : List Doc → String
  | [] => ""
  | [item] => literal item
  | item :: rest => literal item ++ ", " ++ literalItems rest

def literalFields : List (String × Doc) → String
  | [] => ""
  | [(key, value)] => Text.quoted key ++ ": " ++ literal value
  | (key, value) :: rest =>
    Text.quoted key ++ ": " ++ literal value ++ ", " ++ literalFields rest

end

def words : Doc → String
  | text value => value
  | other => literal other

end ApiDescription.Doc
