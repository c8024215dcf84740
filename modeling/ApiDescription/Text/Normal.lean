import ApiDescription.Text.Composition
import ApiDescription.Text.Decomposition

/-!
# Normal form of names

Names that look alike are the same name: a name stands for its compatibility normal form.
Characters are taken apart, combining characters are put in order, and what composes is put together
again.
-/

namespace ApiDescription.Text

/-! ### Syllables of Hangul -/

/-- The parts of a syllable: a leading consonant, a vowel, and a trailing consonant if there is
one. -/
def syllableParts? (point : Nat) : Option (List Nat) :=
  if 0xac00 ≤ point && point ≤ 0xd7a3 then
    let index := point - 0xac00
    let trailing := index % 28
    some ([0x1100 + index / 588, 0x1161 + index % 588 / 28] ++
      if trailing = 0 then [] else [0x11a7 + trailing])
  else none

/-- The syllable of a leading consonant and a vowel, or of an open syllable and a trailing
consonant. -/
def syllable? (first second : Nat) : Option Nat :=
  if 0x1100 ≤ first && first ≤ 0x1112 && 0x1161 ≤ second && second ≤ 0x1175 then
    some (0xac00 + (first - 0x1100) * 588 + (second - 0x1161) * 28)
  else if 0xac00 ≤ first && first ≤ 0xd7a3 && (first - 0xac00) % 28 = 0 &&
      0x11a8 ≤ second && second ≤ 0x11c2 then
    some (first + (second - 0x11a7))
  else none

/-! ### Taking apart and putting together -/

def pointParts (point : Nat) : List Nat :=
  (((syllableParts? point).or (parts? point)).or (composedParts.lookup point)).getD [point]

/-- Put a code point behind others that are in order, last one first.  A combining character goes
before those of a higher class. -/
def insertPoint (point : Nat) : List Nat → List Nat
  | [] => [point]
  | last :: earlier =>
    if combiningClass point ≠ 0 && combiningClass point < combiningClass last then
      last :: insertPoint point earlier
    else point :: last :: earlier

/-- Code points with their combining characters in order. -/
def orderPoints (points : List Nat) : List Nat :=
  (points.foldl (fun ordered point => insertPoint point ordered) []).reverse

/-- Put code points together.  `starter` is the last one that others can be joined to and `marks`
are those after it that were not, last one first. -/
def composeFrom (starter : Nat) (marks : List Nat) : List Nat → List Nat
  | [] => starter :: marks.reverse
  | point :: rest =>
    let joined :=
      if marks.all fun mark => combiningClass mark < combiningClass point then
        (syllable? starter point).or (composite? starter point)
      else none
    match joined with
    | some whole => composeFrom whole marks rest
    | none =>
      if combiningClass point = 0 then starter :: marks.reverse ++ composeFrom point [] rest
      else composeFrom starter (point :: marks) rest

/-- Put code points together where they compose; combining characters at the front have nothing to
be joined to. -/
def composePoints : List Nat → List Nat
  | [] => []
  | point :: rest =>
    if combiningClass point = 0 then composeFrom point [] rest else point :: composePoints rest

def normalize (name : String) : String :=
  if name.toList.all fun character => character.toNat < 0x80 then name
  else
    let points := name.toList.flatMap fun character => pointParts character.toNat
    String.ofList ((composePoints (orderPoints points)).map Char.ofNat)

end ApiDescription.Text
