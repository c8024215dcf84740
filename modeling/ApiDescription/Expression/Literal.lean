import ApiDescription.Document.Reader
import ApiDescription.Expression.Number
import ApiDescription.Text.Identifier

/-!
# Literals in expression text

Number literals in the four bases, with underscores between digits, and the bodies of string
literals with their escapes.
-/

namespace ApiDescription.Literal

/-- A character that can be part of a name, before the finer rules for other scripts are applied. -/
def isWordChar (character : Char) : Bool :=
  character.isAlphanum || character == '_' || 0x80 ≤ character.toNat

def beginsWithWord (word : String) (characters : List Char) : Bool :=
  word.toList.isPrefixOf characters &&
    match characters.drop word.length with
    | next :: _ => !isWordChar next
    | [] => true

/-- Whether a number may end before these characters: they do not continue a name, unless they begin
a word that can follow an operand. -/
def endsNumber (characters : List Char) : Bool :=
  match characters with
  | [] => true
  | first :: rest =>
    !isWordChar first ||
      ["and", "else", "for", "or", "not"].any (beginsWithWord · characters) ||
      (first == 'i' && match rest with
        | second :: _ => second == 'f' || second == 'n' || second == 's'
        | [] => false)

/-- Digits in groups divided by single underscores, from a digit on: their values in reverse before
`gathered`, and the rest.  An underscore must be followed by a digit. -/
def digitGroups (isBaseDigit : Char → Bool) (gathered : List Char) :
    List Char → Option (List Char × List Char)
  | [] => some (gathered.reverse, [])
  | '_' :: digit :: rest =>
    if isBaseDigit digit then digitGroups isBaseDigit (digit :: gathered) rest else none
  | ['_'] => none
  | character :: rest =>
    if isBaseDigit character then digitGroups isBaseDigit (character :: gathered) rest
    else some (gathered.reverse, character :: rest)

def valueInBase (base : Nat) (digits : List Char) : Nat :=
  digits.foldl (fun value digit => value * base + (Doc.hexValue? digit).getD 0) 0

/-- An integer in a base other than ten, after its base mark. -/
def readBased (base : Nat) (isBaseDigit : Char → Bool) (characters : List Char) :
    Option (Number × List Char) := do
  let characters :=
    match characters with
    | '_' :: rest => rest
    | _ => characters
  match characters with
  | first :: _ => if !isBaseDigit first then none
  | [] => none
  let (digits, rest) ← digitGroups isBaseDigit [] characters
  match rest with
  | next :: _ => if next.isDigit then none
  | [] => pure ()
  if endsNumber rest then return (.int (valueInBase base digits), rest) else none

def readFraction (afterWhole : List Char) : Option (Option (List Char) × List Char) :=
  match afterWhole with
  | '.' :: rest =>
    match rest with
    | digit :: _ =>
      if digit.isDigit then (digitGroups Char.isDigit [] rest).map fun (digits, after) =>
        (some digits, after)
      else some (some [], rest)
    | [] => some (some [], [])
  | _ => some (none, afterWhole)

def readExponent (afterFraction : List Char) : Option (Option Int × List Char) :=
  match afterFraction with
  | mark :: rest =>
    if mark == 'e' || mark == 'E' then
      match rest with
      | sign :: digits =>
        if sign == '+' || sign == '-' then
          match digits with
          | digit :: _ =>
            if digit.isDigit then
              (digitGroups Char.isDigit [] digits).map fun (places, after) =>
                (some (if sign == '-' then -(Doc.digitsValue places : Int)
                  else (Doc.digitsValue places : Int)), after)
            else none
          | [] => none
        else if sign.isDigit then
          (digitGroups Char.isDigit [] rest).map fun (places, after) =>
            (some (Doc.digitsValue places : Int), after)
        else if endsNumber afterFraction then some (none, afterFraction)
        else none
      | [] => none
    else some (none, afterFraction)
  | [] => some (none, [])

/-- A number in base ten: whole digits, and what follows them. -/
def readDecimal (whole : List Char) (afterWhole : List Char) : Option (Number × List Char) := do
  let (fraction, afterFraction) ← readFraction afterWhole
  let (exponent, afterExponent) ← readExponent afterFraction
  let isWhole := fraction.isNone && exponent.isNone
  let places := fraction.getD []
  let magnitude : Float :=
    Decimal.ofScientific (Doc.digitsValue (whole ++ places)) (exponent.getD 0 - places.length)
  match afterExponent with
  | mark :: rest =>
    if mark == 'j' || mark == 'J' then
      if endsNumber rest then return (.complex 0.0 magnitude, rest) else none
  | [] => pure ()
  if !endsNumber afterExponent then none
  else if isWhole then
    if whole.head? == some '0' && whole.any (· != '0') then none
    else if Number.maxDigits < whole.length then none
    else return (.int (Doc.digitsValue whole), afterExponent)
  else return (.float magnitude, afterExponent)

def readNumber (characters : List Char) : Option (Number × List Char) :=
  match characters with
  | '0' :: mark :: rest =>
    if mark == 'x' || mark == 'X' then readBased 16 (fun digit => (Doc.hexValue? digit).isSome) rest
    else if mark == 'o' || mark == 'O' then
      readBased 8 (fun digit => '0' ≤ digit && digit ≤ '7') rest
    else if mark == 'b' || mark == 'B' then
      readBased 2 (fun digit => digit == '0' || digit == '1') rest
    else do
      let (whole, after) ← digitGroups Char.isDigit [] characters
      readDecimal whole after
  | _ => do
    let (whole, after) ← digitGroups Char.isDigit [] characters
    readDecimal whole after

/-- The body of a string between its quotes and what follows the closing quote.  A backslash
protects the next character; a short string ends with its line. -/
def stringBody (quote : Char) (long : Bool) (gathered : List Char) :
    List Char → Option (List Char × List Char)
  | [] => none
  | '\\' :: character :: rest => stringBody quote long (character :: '\\' :: gathered) rest
  | character :: rest =>
    if character == quote then
      if long then
        match rest with
        | second :: third :: after =>
          if second == quote && third == quote then some (gathered.reverse, after)
          else stringBody quote long (character :: gathered) rest
        | _ => none
      else some (gathered.reverse, rest)
    else if character == '\n' && !long then none
    else stringBody quote long (character :: gathered) rest

def readHex (count : Nat) (characters : List Char) : Option (Nat × List Char) := do
  let digits := characters.take count
  if digits.length < count then none
  let values ← digits.mapM Doc.hexValue?
  return (values.foldl (fun value digit => value * 16 + digit) 0, characters.drop count)

def readOctal (characters : List Char) : Nat × List Char :=
  let digits := (characters.take 3).takeWhile fun digit => '0' ≤ digit && digit ≤ '7'
  (digits.foldl (fun value digit => value * 8 + (digit.toNat - 0x30)) 0,
    characters.drop digits.length)

/-- The character with a code point, if the range has it. -/
def charOf? (point : Nat) : Option Char :=
  if point < 0x110000 then
    if 0xd800 ≤ point ∧ point < 0xe000 then some (Char.ofNat 0xfffd) else some (Char.ofNat point)
  else none

/-- Replace the escapes of a string body.  An escape that means nothing stays as it is; an
unfinished numeric escape is an error. -/
def unescape (gathered : List Char) : Nat → List Char → Option (List Char)
  | 0, _ => none
  | _ + 1, [] => some gathered.reverse
  | fuel + 1, '\\' :: rest =>
    match rest with
    | [] => none
    | mark :: after =>
      match mark with
      | '\n' => unescape gathered fuel after
      | '\\' => unescape ('\\' :: gathered) fuel after
      | '\x27' => unescape ('\x27' :: gathered) fuel after
      | '"' => unescape ('"' :: gathered) fuel after
      | 'a' => unescape (Char.ofNat 0x07 :: gathered) fuel after
      | 'b' => unescape (Char.ofNat 0x08 :: gathered) fuel after
      | 'f' => unescape (Char.ofNat 0x0c :: gathered) fuel after
      | 'n' => unescape ('\n' :: gathered) fuel after
      | 'r' => unescape ('\r' :: gathered) fuel after
      | 't' => unescape ('\t' :: gathered) fuel after
      | 'v' => unescape (Char.ofNat 0x0b :: gathered) fuel after
      | 'x' => do
        let (point, after) ← readHex 2 after
        unescape (Char.ofNat point :: gathered) fuel after
      | 'u' => do
        let (point, after) ← readHex 4 after
        let character ← charOf? point
        unescape (character :: gathered) fuel after
      | 'U' => do
        let (point, after) ← readHex 8 after
        let character ← charOf? point
        unescape (character :: gathered) fuel after
      | 'N' => none
      | _ =>
        if '0' ≤ mark && mark ≤ '7' then
          let (point, after) := readOctal rest
          unescape (Char.ofNat point :: gathered) fuel after
        else unescape (mark :: '\\' :: gathered) fuel after
  | fuel + 1, character :: rest => unescape (character :: gathered) fuel rest

def bodyText (raw : Bool) (body : List Char) : Option String :=
  if raw then some (String.ofList body)
  else (unescape [] (body.length + 1) body).map String.ofList

/-- Whether the body of a byte string is well formed: ASCII only, complete numeric escapes. -/
def isByteBody (raw : Bool) : List Char → Bool
  | [] => true
  | '\\' :: 'x' :: rest =>
    (raw || (readHex 2 rest).isSome) && isByteBody raw rest
  | '\\' :: character :: rest => character.toNat < 0x80 && isByteBody raw rest
  | character :: rest => character.toNat < 0x80 && isByteBody raw rest

end ApiDescription.Literal
