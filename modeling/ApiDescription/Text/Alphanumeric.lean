import ApiDescription.Text.Hexadecimal

/-!
# Letters, digits and decimal values

Two character classes of Unicode 14: the characters of words (letters and numeric characters of
every kind, such as `½` and `²`) and the digits (including superscripts).  Decimal digits of every
script also have a value.
-/

namespace ApiDescription.Text

/-- The alphabets beyond ASCII that have capital letters. -/
def alphabetRanges : List (Nat × Nat) := rangesFrom 0
  [(0xc0, 0x16), (2, 0x1e), (2, 0x1c9), (0xaf, 4), (2, 1), (8, 0), (7, 0), (2, 2), (2, 0),
    (2, 0x13), (2, 0x52),
   (2, 0x8a), (9, 0xa5), (2, 0x25), (0xb4a, 0x25), (2, 0), (6, 0), (0x2d3, 0x55), (0x89b, 0x2a),
   (3, 2),
   (0x141, 0x115), (3, 5), (3, 0x25), (3, 5), (0xc, 0), (2, 0), (2, 0), (2, 0x1e), (0x39, 6),
   (0xa, 6), (0xa, 5),
   (5, 0xc), (0xa, 6), (0x133, 0xa), (0x27, 0x28), (0xa78, 0xe4), (7, 3), (4, 1), (0x794d, 0x2e),
   (0x11, 0x1e),
   (0x85, 0x66), (3, 0x3f), (6, 1), (4, 4), (0x19, 0xf), (0x5720, 0x19), (0x4c6, 0x9d),
   (0x13, 0x23), (0x9d, 0xa),
   (2, 0xe), (2, 6), (2, 1), (0x6eb, 0x32), (0xbee, 0x3f), (0x5561, 0x3f), (0x7a81, 0x43)]

/-- Other letters and numeric characters among the symbols, from U+2100 to U+2BFF. -/
def symbolRanges : List (Nat × Nat) := rangesFrom 0
  [(0x2102, 0), (5, 0), (3, 9), (2, 0), (4, 4), (7, 0), (2, 0), (2, 0), (2, 3), (0xf, 3), (6, 4),
    (5, 0), (2, 0xf),
   (0x2a, 0), (0x2d7, 0x3b), (0x4f, 0x15), (0x277, 0x1d)]

/-- Other letters elsewhere, and the numerals that count as letters. -/
def letterRanges : List (Nat × Nat) := hexRanges "
  aa b 5 20c-b f-4 8 2 8d-2 1dc 7-28 48-1a 5-3 2e-2a 24-1 2-62 2 10-1 8-1 b-2 3 11 2-1d 1e-58 c
    19-20 a-1 5 6-15 5 a
  4 18-18 8-a 6-17 2-5 12-29 3b-35 4 13 8-9 10-f 5-7 3-1 3-15 2-6 2 4-3 4 11 e-1 2-2 f-1 b 9-5 5-1
    3-15 2-6 2-1 2-1
  2-1 20-3 2 14-2 11-8 2-2 2-15 2-6 2-1 2-4 4 13 10-1 18 c-7 3-1 3-15 2-6 2-1 2-4 4 1f-1 2-2 10 12
    2-5 4-2 2-3 4-1 2
  2-1 4-1 4-2 4-b 17 35-7 2-2 2-16 2-f 4 1b-2 3 3-1 1f 5-7 2-2 2-16 2-9 2-4 4 20-1 2-1 10-1 12-8 2-2
    2-28 3 11 6-2
  9-2 19-5 6-11 4-17 2-8 2 3-6 3b-2f 2 e-6 3b-1 2 2-4 2-17 2 2-9 2 b 3-4 2 16-3 21 40-7 2-23 1c-4
    74-2a 15 11-5 5-3
  4 4-1 8-2 5-c d 42-2a 2-14c 2-3 3-6 2 2-3 3-28 2-3 3-20 2-3 3-6 2 2-3 3-e 2-38 2-3 3-42 26-f 69-5
    4-26b 3-10 2-19
  6-4a 4-a 8-11 e-12 f-11 f-c 2-2 10-33 24 5 44-58 8-4 3-21 2 6-45 b-1e 32-1d 3-4 c-2b 5-19 37-16
    a-34 53 5e-2e 12-7
  37-1d e-1 b-2b 1b-23 2a-2 b-23 3-8 61-3 2-5 2-1 4 6-bf 191-7 29-34 a 4-2 c-3 1f-2 7d e 11-c c64-25
    2 6 3-37 8
  11-16 a-6 2-6 2-6 2-6 2-6 2-6 2-6 2-6 227-2 1a-8 8-4 3-4 5-55 7-2 2-59 2-3 6-2a 2-5d 12-1f 31-f
    201-19bf 41-568c
  44-2d 3-10c 4-f b-1 75-4f 28-8 b4 30-2 2-3 2-16 1e-33 f-31 3f-5 4 2-1 c-1b b-16 1a-1c 8-2e 1d 11-4
    2-9 b-4 2-28
  18-2 2-7 15-16 4 4-31 2 4-1 3-4 3 2 19-2 3-a 8-2 d-5 3-5 3-5 a-6 2-6 2-2a 2-d 7-72 1e-2ba3 d-16
    5-30 2105-16d 3-69
  27-6 d-4 6 2-9 2-c 2-4 2 2-1 2-1 2-6b 22-8a 7-d9 13-3f 3-35 29-9 78 2 4 2 2 2 2-7d 45-19 c-37 3-1e
    4-5 3-5 3-5 3-2
  24-b 2-19 2-12 2-1 2-e 3-d 23-7a 46-34 10c-1c 4-30 30-1f e-1d 6-25 b-1d 3-23 5-7 2-4 103-23 5-27
    9-33 34-a 2-e 2-6
  2-1 44-136 a-15 b-7 19-5 2-29 2-8 46-5 3 2-2b 2-1 4 3-16 b-16 a-1e 42-12 2-1 b-15 b-19 47-37 7-1
    41 10-3 2-2 2-1c
  2b-1c 4-1c 24-7 2-1b 1c-35 b-15 b-12 e-11 6f-48 78-32 e-23 15d-29 7-1 4f-1c b 9-15 2b-11 2f-14
    1c-16 d-34 3a-1 3
  e-2c 21-18 1b-23 1e 3 9-22 4 d-2f f-3 16 2 24-11 2-18 55-6 2 2-3 2-e 2-9 8-2e 27-7 3-1 3-15 2-6
    2-1 2-4 4 13 d-4
  9f-34 13-3 15-2 1f-2f 15-1 2 b9-2e 2a-3 25-2f 15 3c-2a e 48-1a 26-6 ba-2b d4-7 3 3-7 2-1 2-17 10 2
    5f-7 3-26 11 2
  1d b-27 8 16 c-2d 14 13-48 108-8 2-24 12 32-1d 71-6 2-1 2-25 16 1a-5 2-1 2-1f f 148-12 be 50-399
    67-6e 12-c3
  a4d-60 10-42e fd2-246 21ba-238 8-1e 12-4e 12-1d 13-2f 11-3 20-14 6-12 371-4a 6 43-c 41-1 2 1d-17f7
    9-4d5 2b-8
  22e8-3 2-6 2-1 2-122 2e-2 12-3 9-18b 905-6a 6-c 4-8 8-9 1767-54 2-46 2-1 3 3-1 3-3 2-b 2 2-6 2-40
    2-3 3-7 2-6 2-1b
  2-3 2-4 2 4-6 2-153 3-18 2-18 2-1e 2-18 2-1e 2-18 2-1e 2-18 2-1e 2-18 2-7 735-1e 1e2-2c b-6 11
    142-1d 13-2b 4f5-6
  2-3 2-1 2-e 2-c4 87 4b5-3 2-1a 2-1 2 3 2-9 2-3 2 2 7 5 2 2 2-2 2-1 2 3 2 2 2 2 2-1 2 3-3 2-6 2-3
    2-3 2 2-9 2-10
  6-2 2-4 2-10 1145-a6df 21-1038 8-dd 3-1681 f-1d30 c20-21d 5e3-134a
"

/-- The zeros of the decimal digits beyond ASCII; the nine digits that follow each have values one
to nine. -/
def decimalZeros : List Nat :=
  [0x660, 0x6f0, 0x7c0, 0x966, 0x9e6, 0xa66, 0xae6, 0xb66, 0xbe6, 0xc66, 0xce6, 0xd66, 0xde6, 0xe50,
    0xed0,
   0xf20, 0x1040, 0x1090, 0x17e0, 0x1810, 0x1946, 0x19d0, 0x1a80, 0x1a90, 0x1b50, 0x1bb0, 0x1c40,
   0x1c50,
   0xa620, 0xa8d0, 0xa900, 0xa9d0, 0xa9f0, 0xaa50, 0xabf0, 0xff10, 0x104a0, 0x10d30, 0x11066,
   0x110f0, 0x11136,
   0x111d0, 0x112f0, 0x11450, 0x114d0, 0x11650, 0x116c0, 0x11730, 0x118e0, 0x11950, 0x11c50,
   0x11d50, 0x11da0,
   0x16a60, 0x16ac0, 0x16b50, 0x1d7ce, 0x1d7d8, 0x1d7e2, 0x1d7ec, 0x1d7f6, 0x1e140, 0x1e2f0,
   0x1e950, 0x1fbf0]

def decimalRanges : List (Nat × Nat) :=
  decimalZeros.map fun first => (first, first + 9)

/-- Other numeric characters elsewhere, and letters whose normal form begins with a blank or a
mark. -/
def numeralRanges : List (Nat × Nat) := hexRanges "
  b2-1 6 3-2 2bc 67a-5 179-5 79-2 86-6 da-6 12-8 bb 80 77-9 436-13 474-9 1e1 696 4-5 7-9 c74 132
    363-3 8b-9 1f-7 2-e
  21-9 28-e 7571-5 5429-5 197-1 75 2 2 2 2 2 2 2 120-1 168-2c 42-3 12-1 156-1a 25-3 535-7 1a-6 28-8
    4c-4 17-5 a1-1
  3-f 3-2d 41-8 35-1 1f-2 4c-4 69-7 19-7 2a-6 14b-5 161-1e 9f-9 2b-3 71-6 87-13 17c-13 546-1 1af-8
    368-12 354-14
  4b87-6 31f-16 644a-13 6d-18 154f-8 3a2-3a 2-2 2-3 4d-2c 2-e 3c3-c
"

/-- Digits beyond ASCII: decimal ones, and those that are raised, lowered, circled or bracketed. -/
def digitRanges : List (Nat × Nat) := decimalRanges ++ hexRanges "
  b2-1 6 12b0-8 669 696 4-5 7-9 3d7-8 c-8 c-8 5a b-8 2 277-8 2-8 2-8 e2ae-3 41d-8 1ea-8 e0a6-a
"

def isAlphanumeric (character : Char) : Bool :=
  if character.toNat < 0x80 then character.isAlphanum
  else if inRanges alphabetRanges character.toNat then true
  else if 0x2100 ≤ character.toNat && character.toNat <
    0x2c00 then inRanges symbolRanges character.toNat
  else inRanges (letterRanges ++ decimalRanges ++ numeralRanges) character.toNat

def isDigit (character : Char) : Bool :=
  if character.toNat < 0x80 then character.isDigit
  else inRanges digitRanges character.toNat

def decimalValue? (character : Char) : Option Nat :=
  if character.toNat < 0x80 then
    if character.isDigit then some (character.toNat - 0x30) else none
  else
    (decimalZeros.find? fun first => first ≤ character.toNat && character.toNat ≤ first + 9).map
      fun first => character.toNat - first

end ApiDescription.Text
