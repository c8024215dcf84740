import ApiDescription.Text.Alphanumeric

/-!
# Identifiers

The characters that start and continue an identifier, by Unicode 14's default identifier rule with
the underscore added.
-/

namespace ApiDescription.Text

/-- Characters beyond ASCII that start an identifier. -/
def identifierStartRanges : List (Nat × Nat) := alphabetRanges ++ letterRanges ++ hexRanges "
  1885-1 87c 5 3-9 2 3-5 7 2 2 2-4 e-3 6-4 5
"

/-- Other characters beyond ASCII that continue an identifier. -/
def identifierPartRanges : List (Nat × Nat) := decimalRanges ++ hexRanges "
  b7 249-6f 18 fc-4 10a-2c 2 2-1 2-1 2 49-a 31-14 11 66-6 3-5 3-1 2-3 24 1f-1a 5c-a 3b-8 a 19-3 2-8
    2-2 2-4 2c-2
  3d-7 2b-17 2-20 37-2 2-11 2-6 b-1 1e-2 39 2-6 3-1 3-2 a b-1 1b 3-2 39 2-4 5-1 3-2 4 1f-1 4 c-2 39
    2-7 2-2 2-2 15-1
  17-5 2-2 39 2-6 3-1 3-2 8-2 b-1 1f 3c-4 4-2 2-3 a 29-4 38 2-6 2-2 2-3 8-1 c-1 1e-2 39 2-6 2-2 2-3
    8-1 c-1 1d-3
  38-1 2-6 2-2 2-3 a b-1 1e-2 47 5-5 2 2-7 13-1 3e 2-7 d-7 63 2-9 c-5 4b-1 1c 2 2 5-1 32-13 2-1 6-a
    2-23 a 65-13
  18-3 5-2 2-2 3-6 4-3 e-b 2 b-3 2c0-2 a-8 3a1-3 1d-2 1e-1 1f-1 41-1f a 2e-2 2 9a 77-b 5-b 9f 3d-4
    3a-9 2-1c 3 31-d
  2-f 32-4 30-10 27-8 d-2 1f-c 39-d 31-13 99-2 2-14 5 7 3-2 c7-3f 240-1 14 7c-c 5 4-b bff-2 8e 61-1f
    22b-5 6a-1 75d5
  5-9 21-1 51-1 111 4 5 18-4 5 54-1 33-11 1b-11 e 27-7 1a-c 2d-3 30-d 25 44-d d 9-1 2e-2 33 2-2 3-1
    6-1 2 2a-4 6-1
  ed-7 2-1 4f31 2e2-f 11-f 4-1 19-2 f0 5f-1 25e e3 96-4 687-2 2-1 6-3 29-2 5 a6-1 23e-3 184-1 9a-a
    32-3 7b-2 36-e 2a
  3-1 b-3 2e-a 8 3e-2 25-d 11-1 2d d-2 31-d 9-3 2-1 5d-b 7 a1-b 16-3 38-1 2-6 3-1 3-2 a b-1 3-6 4-4
    c1-11 18 52-13
  ec-6 3-8 1c-1 53-10 6b-c 66-e 101-e f6-5 2-1 3-3 2 2-1 8e-6 3-6 4 1d-9 29-6 2-3 9 a-a 2f-f 196-7
    2-7 53-15 2-d
  7b-5 4 2-1 2-6 2 43-4 2-1 2-4 15c-3 4bfa-4 3c-6 419 2-36 8-3 52 c-1 4cac-1 1262-2d 3-16 21f-4 4-5
    9-7 3-6 1f-3
  95-2 7bc-36 5-31 9 f 17-4 2-e 551-6 2-10 3-6 2-1 2-4 106-6 178 3e-3 5e1-6 6e-6 c17b6-ef
"

def isIdentifierStart (character : Char) : Bool :=
  if character.toNat < 0x80 then character.isAlpha || character == '_'
  else inRanges identifierStartRanges character.toNat

/-- Whether the character may follow the first one of an identifier. -/
def isIdentifierPart (character : Char) : Bool :=
  if character.toNat < 0x80 then character.isAlphanum || character == '_'
  else inRanges identifierStartRanges character.toNat ||
    inRanges identifierPartRanges character.toNat

end ApiDescription.Text
