import ApiDescription.Text.Hexadecimal

/-!
# Letter case

Upper and lower case by the full case mappings of Unicode 14.  A mapping may lengthen the text (`ß`
becomes `SS`), and a capital sigma at the end of a word becomes `ς`.
-/

namespace ApiDescription.Text

/-- Code points from `first` to `last` in steps of `step`, each shifted by `shift`. -/
abbrev CaseRun := Nat × Nat × Nat × Int

/-- Alphabets in which every capital letter comes right before its small letter. -/
def alternatingLetters : List (Nat × Nat) := rangesFrom 0
  [(0x100, 0x2f), (3, 5), (2, 0xf), (2, 0x2d), (2, 5), (4, 3), (2, 1), (3, 1), (5, 1), (6, 1),
    (7, 5), (2, 1), (4, 1),
   (2, 1), (3, 3), (2, 1), (3, 1), (0x10, 0xf), (2, 0x11), (5, 1), (3, 0x27), (3, 0x11), (8, 1),
   (5, 1), (4, 9),
   (0x121, 3), (3, 1), (0x61, 0x17), (8, 1), (2, 1), (0x65, 0x21), (9, 0x35), (2, 0xd), (2, 0x5f),
   (0x18d1, 0x95),
   (0xb, 0x5f), (0x284, 1), (0xadc, 1), (6, 5), (6, 1), (2, 1), (0xa, 0x63), (8, 3), (4, 1),
   (0x794d, 0x2d),
   (0x13, 0x1b), (0x87, 0xd), (3, 0x3d), (0xa, 3), (2, 9), (4, 1), (4, 3), (3, 0x13), (0xb, 0xf),
   (4, 3), (6, 1), (5, 3), (0x1c, 1)]

/-- Capital letters in a row, and the small letter of the first one. -/
def capitalRows : List (Nat × Nat × Nat) :=
  [(0xc0, 0xd6, 0xe0), (0xd8, 0xde, 0xf8), (0x189, 0x18a, 0x256), (0x1b1, 0x1b2, 0x28a),
    (0x388, 0x38a, 0x3ad),
   (0x38e, 0x38f, 0x3cd), (0x391, 0x3a1, 0x3b1), (0x3a3, 0x3ab, 0x3c3), (0x3fd, 0x3ff, 0x37b),
   (0x400, 0x40f, 0x450), (0x410, 0x42f, 0x430), (0x531, 0x556, 0x561), (0x10a0, 0x10c5, 0x2d00),
   (0x13a0, 0x13ef, 0xab70), (0x13f0, 0x13f5, 0x13f8), (0x1c90, 0x1cba, 0x10d0),
   (0x1cbd, 0x1cbf, 0x10fd),
   (0x1f08, 0x1f0f, 0x1f00), (0x1f18, 0x1f1d, 0x1f10), (0x1f28, 0x1f2f, 0x1f20),
   (0x1f38, 0x1f3f, 0x1f30),
   (0x1f48, 0x1f4d, 0x1f40), (0x1f68, 0x1f6f, 0x1f60), (0x1fb8, 0x1fb9, 0x1fb0),
   (0x1fba, 0x1fbb, 0x1f70),
   (0x1fc8, 0x1fcb, 0x1f72), (0x1fd8, 0x1fd9, 0x1fd0), (0x1fda, 0x1fdb, 0x1f76),
   (0x1fe8, 0x1fe9, 0x1fe0),
   (0x1fea, 0x1feb, 0x1f7a), (0x1ff8, 0x1ff9, 0x1f78), (0x1ffa, 0x1ffb, 0x1f7c),
   (0x2160, 0x216f, 0x2170),
   (0x24b6, 0x24cf, 0x24d0), (0x2c00, 0x2c2f, 0x2c30), (0x2c7e, 0x2c7f, 0x23f),
   (0xff21, 0xff3a, 0xff41),
   (0x10400, 0x10427, 0x10428), (0x104b0, 0x104d3, 0x104d8), (0x10570, 0x1057a, 0x10597),
   (0x1057c, 0x1058a, 0x105a3), (0x1058c, 0x10592, 0x105b3), (0x10594, 0x10595, 0x105bb),
   (0x10c80, 0x10cb2, 0x10cc0), (0x118a0, 0x118bf, 0x118c0), (0x16e40, 0x16e5f, 0x16e60),
   (0x1e900, 0x1e921, 0x1e922)]

def capitalPairs : List (Nat × Nat) :=
  [(0x178, 0xff), (0x181, 0x253), (0x186, 0x254), (0x18e, 0x1dd), (0x18f, 0x259), (0x190, 0x25b),
   (0x193, 0x260), (0x194, 0x263), (0x196, 0x269), (0x197, 0x268), (0x19c, 0x26f), (0x19d, 0x272),
   (0x19f, 0x275), (0x1a6, 0x280), (0x1a9, 0x283), (0x1ae, 0x288), (0x1b7, 0x292), (0x1c4, 0x1c6),
   (0x1c7, 0x1c9), (0x1ca, 0x1cc), (0x1f1, 0x1f3), (0x1f6, 0x195), (0x1f7, 0x1bf), (0x220, 0x19e),
   (0x23a, 0x2c65), (0x23d, 0x19a), (0x23e, 0x2c66), (0x243, 0x180), (0x244, 0x289), (0x245, 0x28c),
   (0x37f, 0x3f3), (0x386, 0x3ac), (0x38c, 0x3cc), (0x3cf, 0x3d7), (0x3f9, 0x3f2), (0x4c0, 0x4cf),
   (0x10c7, 0x2d27), (0x10cd, 0x2d2d), (0x1f59, 0x1f51), (0x1f5b, 0x1f53), (0x1f5d, 0x1f55),
   (0x1f5f, 0x1f57),
   (0x1fec, 0x1fe5), (0x2132, 0x214e), (0x2c62, 0x26b), (0x2c63, 0x1d7d), (0x2c64, 0x27d),
   (0x2c6d, 0x251),
   (0x2c6e, 0x271), (0x2c6f, 0x250), (0x2c70, 0x252), (0xa77d, 0x1d79), (0xa78d, 0x265),
   (0xa7aa, 0x266),
   (0xa7ab, 0x25c), (0xa7ac, 0x261), (0xa7ad, 0x26c), (0xa7ae, 0x26a), (0xa7b0, 0x29e),
   (0xa7b1, 0x287),
   (0xa7b2, 0x29d), (0xa7b3, 0xab53), (0xa7c4, 0xa794), (0xa7c5, 0x282), (0xa7c6, 0x1d8e)]

/-- Code points in a row, shifted so that the first one becomes `image`. -/
def CaseRun.row (first last image : Nat) : CaseRun :=
  (first, last, 1, (image : Int) - first)

/-- One code point that becomes another. -/
def CaseRun.single (pair : Nat × Nat) : CaseRun :=
  .row pair.1 pair.1 pair.2

def upperRuns : List CaseRun :=
  (alternatingLetters.map fun (first, last) => (first + 1, last, 2, (-1 : Int))) ++
    (capitalRows.map fun (first, last, small) => CaseRun.row small (small + (last - first))
      first) ++
    (capitalPairs.map fun (capital, small) => CaseRun.single (small, capital)) ++
    List.map CaseRun.single
      [(0xb5, 0x39c), (0x131, 0x49), (0x17f, 0x53), (0x1c5, 0x1c4), (0x1c8, 0x1c7), (0x1cb, 0x1ca),
       (0x1f2, 0x1f1), (0x345, 0x399), (0x3c2, 0x3a3), (0x3d0, 0x392), (0x3d1, 0x398),
       (0x3d5, 0x3a6),
       (0x3d6, 0x3a0), (0x3f0, 0x39a), (0x3f1, 0x3a1), (0x3f5, 0x395), (0x1c80, 0x412),
       (0x1c81, 0x414),
       (0x1c82, 0x41e), (0x1c83, 0x421), (0x1c84, 0x422), (0x1c85, 0x422), (0x1c86, 0x42a),
       (0x1c87, 0x462), (0x1c88, 0xa64a), (0x1e9b, 0x1e60), (0x1fbe, 0x399)]

def lowerRuns : List CaseRun :=
  (alternatingLetters.map fun (first, last) => (first, last - 1, 2, (1 : Int))) ++
    (capitalRows.map fun (first, last, small) => CaseRun.row first last small) ++
    capitalPairs.map CaseRun.single ++
    [CaseRun.row 0x1f88 0x1f8f 0x1f80, CaseRun.row 0x1f98 0x1f9f 0x1f90,
      CaseRun.row 0x1fa8 0x1faf 0x1fa0] ++
    List.map CaseRun.single
      [(0x1c5, 0x1c6), (0x1c8, 0x1c9), (0x1cb, 0x1cc), (0x1f2, 0x1f3), (0x3f4, 0x3b8),
        (0x1e9e, 0xdf),
       (0x1fbc, 0x1fb3), (0x1fcc, 0x1fc3), (0x1ffc, 0x1ff3), (0x2126, 0x3c9), (0x212a, 0x6b),
       (0x212b, 0xe5)]

/-- Eight letters in a row with a subscript iota, and the capital letter of the first one without
it. -/
def iotaRows : List (Nat × Nat) :=
  [(0x1f80, 0x1f08), (0x1f88, 0x1f08), (0x1f90, 0x1f28), (0x1f98, 0x1f28), (0x1fa0, 0x1f68),
    (0x1fa8, 0x1f68)]

def upperExpansions : List (Nat × List Nat) :=
  (iotaRows.flatMap fun (first, capital) =>
    (List.range 8).map fun offset => (first + offset, [capital + offset, 0x399])) ++
    [(0xdf, [0x53, 0x53]), (0x149, [0x2bc, 0x4e]), (0x1f0, [0x4a, 0x30c]),
      (0x390, [0x399, 0x308, 0x301]),
     (0x3b0, [0x3a5, 0x308, 0x301]), (0x587, [0x535, 0x552]), (0x1e96, [0x48, 0x331]),
     (0x1e97, [0x54, 0x308]),
     (0x1e98, [0x57, 0x30a]), (0x1e99, [0x59, 0x30a]), (0x1e9a, [0x41, 0x2be]),
     (0x1f50, [0x3a5, 0x313]),
     (0x1f52, [0x3a5, 0x313, 0x300]), (0x1f54, [0x3a5, 0x313, 0x301]),
     (0x1f56, [0x3a5, 0x313, 0x342]),
     (0x1fb2, [0x1fba, 0x399]), (0x1fb3, [0x391, 0x399]), (0x1fb4, [0x386, 0x399]),
     (0x1fb6, [0x391, 0x342]),
     (0x1fb7, [0x391, 0x342, 0x399]), (0x1fbc, [0x391, 0x399]), (0x1fc2, [0x1fca, 0x399]),
     (0x1fc3, [0x397, 0x399]), (0x1fc4, [0x389, 0x399]), (0x1fc6, [0x397, 0x342]),
     (0x1fc7, [0x397, 0x342, 0x399]), (0x1fcc, [0x397, 0x399]), (0x1fd2, [0x399, 0x308, 0x300]),
     (0x1fd3, [0x399, 0x308, 0x301]), (0x1fd6, [0x399, 0x342]), (0x1fd7, [0x399, 0x308, 0x342]),
     (0x1fe2, [0x3a5, 0x308, 0x300]), (0x1fe3, [0x3a5, 0x308, 0x301]), (0x1fe4, [0x3a1, 0x313]),
     (0x1fe6, [0x3a5, 0x342]), (0x1fe7, [0x3a5, 0x308, 0x342]), (0x1ff2, [0x1ffa, 0x399]),
     (0x1ff3, [0x3a9, 0x399]), (0x1ff4, [0x38f, 0x399]), (0x1ff6, [0x3a9, 0x342]),
     (0x1ff7, [0x3a9, 0x342, 0x399]), (0x1ffc, [0x3a9, 0x399]), (0xfb00, [0x46, 0x46]),
     (0xfb01, [0x46, 0x49]),
     (0xfb02, [0x46, 0x4c]), (0xfb03, [0x46, 0x46, 0x49]), (0xfb04, [0x46, 0x46, 0x4c]),
     (0xfb05, [0x53, 0x54]),
     (0xfb06, [0x53, 0x54]), (0xfb13, [0x544, 0x546]), (0xfb14, [0x544, 0x535]),
     (0xfb15, [0x544, 0x53b]), (0xfb16, [0x54e, 0x546]), (0xfb17, [0x544, 0x53d])]

def lowerExpansions : List (Nat × List Nat) :=
  [(0x130, [0x69, 0x307])]

/-- Letters that have a case and are not passed over when a word ending is looked for. -/
def casedRanges : List (Nat × Nat) := hexRanges "
  41-19 7-19 30 b 5 6-16 2-1e 2-c2 2-3 5-cf 2-1a c1-3 3-1 4-2 2 7 2-2 2 2-13 2-52 2-8a 9-a5 2-25
    a-28 b18-25 2 6
  3-2a 3-2 2a1-55 3-5 883-8 8-2a 3-2 41-2b 40-c 2-21 66-115 3-5 3-25 3-5 3-7 2 2 2 2-1e 3-34 2-6 2
    4-2 2-6 4-3 3-5
  5-c 6-2 2-6 106 5 3-9 2 4-4 7 2 2 2-3 2-5 5 3-3 6-4 5 12-1f 4-1 332-33 717-7b 3-66 7-3 4-1 d-25 2
    6 7913-2d 13-1b
  87-4d 2-16 4-3 2-3a 6-1 2 2-4 1c-1 4 336-2a 6-8 8-4f 4f41-6 d-4 40a-19 7-19 4a6-4f 61-23 5-23 75-a
    2-e 2-6 2-1 2-a
  2-e 2-6 2-1 6c4-32 e-32 bae-3f 5561-3f 6581-54 2-46 2-1 3 3-1 3-3 2-b 2 2-6 2-40 2-3 3-7 2-6 2-1b
    2-3 2-4 2 4-6
  2-153 3-18 2-18 2-1e 2-18 2-1e 2-18 2-1e 2-18 2-1e 2-18 2-7 735-9 2-13 9e2-43 7ed-19 7-19 7-19
"

/-- Characters passed over when a word ending is looked for. -/
def caseIgnorableRanges : List (Nat × Nat) := hexRanges "
  27 7 c 24 2 48 5 2 5 3-1 1f8-bf 5-1 5 a-1 2 fc-6 d0 6 32-2c 2 2-1 2-1 2 2d c-5 b-a 2 24 b-14 11
    66-7 2-9 2-3 22 2
  1f-1a 5c-a 3b-a 5 3 19-17 2c-2 2d 8-1 7-7 2a-39 38 2 5-7 5 4-6 b-1 e 10 3b 5-3 9 15-1 1b 3-1 3a
    5-1 5-1 3-2 4 1f-1
  4 c-1 3a 5-4 2-1 5 15-1 17-5 2 3b 3 2-3 9 8-1 c-1 1f 3e d 33 4 38 2-2 6-2 2-3 8-1 c-1 1e 3b 3 7
    6-1 15-1 1d-1 3a-1
  5-3 9 15-1 1e 49 8-2 2 5b 3-6 c-8 63 3-8 a 2-5 4b-1 1c 2 2 38-d 2-4 2-1 6-a 2-23 a 67-3 2-5 2-1
    3-1 1a-1 5-2 11-3
  e 3-1 7 10 5f 261-2 3b3-2 1e-1 1f-1 1f-1 41-1 2-6 9 3-a 4 6 2e-4 34 42-1 23 77-2 5-1 a 7-2 dc-1 3
    3b 2-6 2 2 3-7
  7-9 3 28 9-1e 32-3 31 2-4 2 6 29-8 d-1 21-3 3-1 2-2 39 2-1 4 2-2 3b-7 3-1 41-5 53-2 2-c 2-6 5 7
    4-1 33-3e e 23-64
  1be 2-2 c-2 e-2 e-2 e-1 d-4 9-1 b 3 3-4 32-4 2-9 2 e 11-c 34-20 b8c-1 72-2 7e 10 61-1f 30 1d6 25-3
    4-4 6 5e-5 5e-2
  6f17 4e3-5 10f 63-3 2-9 2 1d-3 51-1 f-21 4f 18-2 68-2 4-1 9 4 5 1a-1 6 98-1 1b-11 e 27-7 1a-a 2f-2
    31 3-3 3-1 12
  16-1 43-5 3-1 3-1 d 9 24 c 34 2-2 3-1 6-1 2 1c f-1 6-1 2 65-4 a-2 7a 3 5 4f31 94-10 23e-f 4 d-f 23
    3 aa 8 7 c 24 2
  30 2e-1 44 16-2 202 e3 96-4 406-5 2-29 2-8 247-2 2-1 6-3 29-2 5 a6-1 23e-3 184-1 9a-a 32-3 7c 37-e
    2a 3-1 b-2 32-3
  3-1 3 5 b 33-2 25-4 2-7 3f d-1 35-8 b-3 3 60-2 3 2-1 7 a1 4-7 16-1 3a-1 4 26-6 4-4 c4-7 3-2 2 18
    55-5 2 5-1 2-1
  ef-3 7-1 2-1 1c-1 56-7 3 2-1 6b 2 3-5 2 66-2 3-3 2-4 104-8 2-1 101-1 2 5 91-3 3-1 5 21-9 29-5 3-3
    9 a-5 3-2 2f-c
  2-1 197-6 2-5 2 53-15 3-6 2-1 2-1 7b-5 4 2-1 2-6 2 49-1 4 2 15c-1 153c-8 36b8-4 3c-6 a-3 40c 40-10
    41-1 2-1 400c-3
  2-6 2-1 c9f-1 2-3 125d-2d 3-16 221-2 a-f 3-6 1f-3 95-2 7bc-36 5-31 9 f 17-4 2-e 551-6 2-10 3-6 2-1
    2-4 106-d 171
  3e-3 5e1-6 6e-7 ab0-4 c0c02 1f-5f 81-ef
"

/-- Apply the run that covers a code point, if there is one. -/
def shiftByRun (runs : List CaseRun) (point : Nat) : Option Nat :=
  (runs.find? fun (first, last, step, _) =>
      first ≤ point && point ≤ last && (point - first) % step == 0).map
    fun (_, _, _, shift) => (point + shift : Int).toNat

def mapCase (expansions : List (Nat × List Nat)) (runs : List CaseRun) (character : Char) :
    List Char :=
  match expansions.lookup character.toNat with
  | some points => points.map Char.ofNat
  | none =>
    match shiftByRun runs character.toNat with
    | some point => [Char.ofNat point]
    | none => [character]

def upperChar (character : Char) : List Char :=
  if character.toNat < 0x80 then [character.toUpper]
  else mapCase upperExpansions upperRuns character

def lowerChar (character : Char) : List Char :=
  if character.toNat < 0x80 then [character.toLower]
  else mapCase lowerExpansions lowerRuns character

/-- Whether a letter with case comes first, after characters that are passed over. -/
def casedFirst : List Char → Bool
  | [] => false
  | character :: rest =>
    if inRanges caseIgnorableRanges character.toNat then casedFirst rest
    else inRanges casedRanges character.toNat

def lowerAfter (before : List Char) : List Char → List Char
  | [] => []
  | character :: rest =>
    let image :=
      if character == 'Σ' then
        if casedFirst before && !casedFirst rest then ['ς'] else ['σ']
      else lowerChar character
    image ++ lowerAfter (character :: before) rest

def lower (text : String) : String :=
  String.ofList (lowerAfter [] text.toList)

def upperFirst (text : String) : String :=
  match text.toList with
  | [] => ""
  | first :: rest => String.ofList (upperChar first ++ rest)

def lowerFirst (text : String) : String :=
  match text.toList with
  | [] => ""
  | first :: rest => String.ofList (lowerChar first ++ rest)

end ApiDescription.Text
