import ApiDescription.Document.Basic
import ApiDescription.Decimal.Double

/-!
# Reading documents

The reader of JSON text.  Beyond the standard it takes `NaN` and the infinities; a number with a
fraction or an exponent is a double and any other one an integer of any size; of several fields with
one key the last value stays, in the first one's place.
-/

namespace ApiDescription.Doc

def skipBlanks (characters : List Char) : List Char :=
  characters.dropWhile fun character =>
    character == ' ' || character == '\t' || character == '\n' || character == '\r'

def hexValue? (character : Char) : Option Nat :=
  if '0' ≤ character ∧ character ≤ '9' then some (character.toNat - 0x30)
  else if 'a' ≤ character ∧ character ≤ 'f' then some (character.toNat - 0x57)
  else if 'A' ≤ character ∧ character ≤ 'F' then some (character.toNat - 0x37)
  else none

def readUnit : List Char → Option (Nat × List Char)
  | a :: b :: c :: d :: rest => do
    let a ← hexValue? a
    let b ← hexValue? b
    let c ← hexValue? c
    let d ← hexValue? d
    return (((a * 16 + b) * 16 + c) * 16 + d, rest)
  | _ => none

/-- A character given by one unit of sixteen bits, or by two that form a pair. -/
def readEscapedUnit (characters : List Char) : Option (Char × List Char) := do
  let (first, rest) ← readUnit characters
  if 0xd800 ≤ first ∧ first < 0xdc00 then
    match rest with
    | '\\' :: 'u' :: tail =>
      match readUnit tail with
      | some (second, after) =>
        if 0xdc00 ≤ second ∧ second < 0xe000 then
          return (Char.ofNat (0x10000 + (first - 0xd800) * 0x400 + (second - 0xdc00)), after)
        else return (Char.ofNat 0xfffd, rest)
      | none => return (Char.ofNat 0xfffd, rest)
    | _ => return (Char.ofNat 0xfffd, rest)
  else if 0xdc00 ≤ first ∧ first < 0xe000 then return (Char.ofNat 0xfffd, rest)
  else return (Char.ofNat first, rest)

/-- The characters of a string up to its closing quote, in reverse order before `gathered`. -/
def readString (gathered : List Char) : Nat → List Char → Option (String × List Char)
  | 0, _ => none
  | _ + 1, [] => none
  | _ + 1, '"' :: rest => some (String.ofList gathered.reverse, rest)
  | fuel + 1, '\\' :: rest =>
    match rest with
    | '"' :: tail => readString ('"' :: gathered) fuel tail
    | '\\' :: tail => readString ('\\' :: gathered) fuel tail
    | '/' :: tail => readString ('/' :: gathered) fuel tail
    | 'b' :: tail => readString (Char.ofNat 0x08 :: gathered) fuel tail
    | 'f' :: tail => readString (Char.ofNat 0x0c :: gathered) fuel tail
    | 'n' :: tail => readString ('\n' :: gathered) fuel tail
    | 'r' :: tail => readString ('\r' :: gathered) fuel tail
    | 't' :: tail => readString ('\t' :: gathered) fuel tail
    | 'u' :: tail =>
      match readEscapedUnit tail with
      | some (character, after) => readString (character :: gathered) fuel after
      | none => none
    | _ => none
  | fuel + 1, character :: rest =>
    if character.toNat < 0x20 then none else readString (character :: gathered) fuel rest

def digitsValue (digits : List Char) : Nat :=
  digits.foldl (fun value digit => value * 10 + (digit.toNat - 0x30)) 0

def takeDigits (characters : List Char) : List Char × List Char :=
  (characters.takeWhile Char.isDigit, characters.dropWhile Char.isDigit)

/-- The fraction of a number: its digits, if the point is followed by one. -/
def readFraction : List Char → Option (List Char) × List Char
  | '.' :: rest =>
    match takeDigits rest with
    | ([], _) => (none, '.' :: rest)
    | (digits, after) => (some digits, after)
  | characters => (none, characters)

def readExponent (characters : List Char) : Option Int × List Char :=
  match characters with
  | mark :: rest =>
    if mark == 'e' || mark == 'E' then
      let (negative, digitsFrom) :=
        match rest with
        | '-' :: tail => (true, tail)
        | '+' :: tail => (false, tail)
        | tail => (false, tail)
      match takeDigits digitsFrom with
      | ([], _) => (none, characters)
      | (digits, after) =>
        let value : Int := digitsValue digits
        (some (if negative then -value else value), after)
    else (none, characters)
  | [] => (none, [])

def readNumber (negative : Bool) (characters : List Char) : Option (Doc × List Char) :=
  let whole :=
    match characters with
    | '0' :: rest => (['0'], rest)
    | _ => takeDigits characters
  if whole.1.isEmpty then none
  else
    let (fraction, afterFraction) := readFraction whole.2
    let (exponent, rest) := readExponent afterFraction
    match fraction, exponent with
    | none, none =>
      let value : Int := digitsValue whole.1
      some (int (if negative then -value else value), rest)
    | _, _ =>
      let places := fraction.getD []
      let digits := digitsValue (whole.1 ++ places)
      let magnitude := Decimal.ofScientific digits (exponent.getD 0 - places.length)
      some (float (if negative then -magnitude else magnitude), rest)

def readWord (characters : List Char) : Option (Doc × List Char) :=
  match characters with
  | 'n' :: 'u' :: 'l' :: 'l' :: rest => some (null, rest)
  | 't' :: 'r' :: 'u' :: 'e' :: rest => some (bool true, rest)
  | 'f' :: 'a' :: 'l' :: 's' :: 'e' :: rest => some (bool false, rest)
  | 'N' :: 'a' :: 'N' :: rest => some (float (0.0 / 0.0), rest)
  | 'I' :: 'n' :: 'f' :: 'i' :: 'n' :: 'i' :: 't' :: 'y' :: rest => some (float (1.0 / 0.0), rest)
  | '-' :: 'I' :: 'n' :: 'f' :: 'i' :: 'n' :: 'i' :: 't' :: 'y' :: rest =>
    some (float (-1.0 / 0.0), rest)
  | _ => none

mutual

/-- One value at the front of the characters; `limit` bounds the length of every string. -/
def readValue (limit : Nat) : Nat → List Char → Option (Doc × List Char)
  | 0, _ => none
  | fuel + 1, characters =>
    match characters with
    | '"' :: rest => (readString [] limit rest).map fun (value, after) => (text value, after)
    | '[' :: rest =>
      match skipBlanks rest with
      | ']' :: after => some (list [], after)
      | items => readItems limit fuel [] items
    | '\x7b' :: rest =>
      match skipBlanks rest with
      | '\x7d' :: after => some (object [], after)
      | fields => readFields limit fuel [] fields
    | _ =>
      match readWord characters with
      | some result => some result
      | none =>
        match characters with
        | '-' :: rest => readNumber true rest
        | _ => readNumber false characters

/-- The items of a list up to its closing bracket; `gathered` holds earlier ones in reverse. -/
def readItems (limit : Nat) : Nat → List Doc → List Char → Option (Doc × List Char)
  | 0, _, _ => none
  | fuel + 1, gathered, characters =>
    match readValue limit fuel characters with
    | none => none
    | some (value, rest) =>
      match skipBlanks rest with
      | ',' :: after => readItems limit fuel (value :: gathered) (skipBlanks after)
      | ']' :: after => some (list (value :: gathered).reverse, after)
      | _ => none

/-- The fields of an object up to its closing brace. -/
def readFields (limit : Nat) : Nat → Fields → List Char → Option (Doc × List Char)
  | 0, _, _ => none
  | fuel + 1, gathered, characters =>
    match characters with
    | '"' :: keyFrom =>
      match readString [] limit keyFrom with
      | none => none
      | some (key, afterKey) =>
        match skipBlanks afterKey with
        | ':' :: valueFrom =>
          match readValue limit fuel (skipBlanks valueFrom) with
          | none => none
          | some (value, rest) =>
            match skipBlanks rest with
            | ',' :: after =>
              readFields limit fuel (gathered.put key value) (skipBlanks after)
            | '\x7d' :: after => some (object (gathered.put key value), after)
            | _ => none
        | _ => none
    | _ => none

end

def read (source : String) : Except Fault Doc :=
  let characters := source.toList
  let limit := characters.length + 1
  match readValue limit limit (skipBlanks characters) with
  | some (document, rest) =>
    if (skipBlanks rest).isEmpty then .ok document else .error .badDocument
  | none => .error .badDocument

end ApiDescription.Doc
