import ApiDescription.Text.Search

/-!
# Tables of code points

Character properties that reach beyond ASCII are kept as tables of inclusive ranges.  A table lists
only code points above `0x7f`; below that each property states its own rule.

Larger tables are texts of entries that are divided by blanks.  An entry is a code point or a span
of code points, and in most tables a colon and what the table says of it.  All numbers are
hexadecimal.
-/

namespace ApiDescription.Text

/-- Membership of a code point in a table of inclusive ranges. -/
def inRanges (table : List (Nat × Nat)) (point : Nat) : Bool :=
  table.any fun range => range.1 ≤ point && point ≤ range.2

def one (character : Char) : String :=
  String.ofList [character]

def hexDigit (digit : Char) : Nat :=
  if digit.isDigit then digit.toNat - '0'.toNat else digit.toNat - 'a'.toNat + 10

def hexValue (digits : List Char) : Nat :=
  digits.foldl (fun value digit => 16 * value + hexDigit digit) 0

/-- A code point and how many more there are in a span: `first-more`, or `first` alone. -/
def hexSpan (characters : List Char) : Nat × Nat :=
  match splitAtEvery '-' characters with
  | [first, more] => (hexValue first, hexValue more)
  | _ => (hexValue characters, 0)

/-- The ranges of spans that are told one after another, each by its distance from the end of the
one before. -/
def rangesFrom (start : Nat) : List (Nat × Nat) → List (Nat × Nat)
  | [] => []
  | (distance, more) :: rest =>
    (start + distance, start + distance + more) :: rangesFrom (start + distance + more) rest

def blankWords (text : String) : List (List Char) :=
  ((splitAtEvery '\n' text.toList).flatMap (splitAtEvery ' ')).filter fun word => !word.isEmpty

def hexRanges (text : String) : List (Nat × Nat) :=
  rangesFrom 0 ((blankWords text).map hexSpan)

def hexTable (text : String) : List ((Nat × Nat) × List Char) :=
  (blankWords text).map fun word =>
    (hexSpan (word.takeWhile (· != ':')), (word.dropWhile (· != ':')).drop 1)

end ApiDescription.Text
