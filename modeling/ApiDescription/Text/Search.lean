/-!
# Searching and replacing

Text operations over characters that the generators share: occurrences of one text in another,
replacement of every occurrence, and division into lines.
-/

namespace ApiDescription.Text

def occursIn (pattern : List Char) : List Char → Bool
  | [] => pattern.isEmpty
  | character :: rest => pattern.isPrefixOf (character :: rest) || occursIn pattern rest

/-- Replace every occurrence of a non-empty pattern, from left to right and without overlap; `skip`
counts the characters still covered by the last occurrence. -/
def replaceFrom (pattern image : List Char) (skip : Nat) : List Char → List Char
  | [] => []
  | character :: rest =>
    match skip with
    | covered + 1 => replaceFrom pattern image covered rest
    | 0 =>
      if pattern.isPrefixOf (character :: rest) then
        image ++ replaceFrom pattern image (pattern.length - 1) rest
      else character :: replaceFrom pattern image 0 rest

/-- Replace every occurrence of a non-empty pattern. -/
def replaceAll (text pattern image : String) : String :=
  if pattern.isEmpty then text
  else String.ofList (replaceFrom pattern.toList image.toList 0 text.toList)

def contains (text pattern : String) : Bool :=
  occursIn pattern.toList text.toList

def startsWith (text start : String) : Bool :=
  start.toList.isPrefixOf text.toList

def endsWith (text ending : String) : Bool :=
  ending.toList.isSuffixOf text.toList

def splitAtEvery (separator : Char) : List Char → List (List Char)
  | [] => [[]]
  | character :: rest =>
    let pieces := splitAtEvery separator rest
    if character == separator then [] :: pieces
    else
      match pieces with
      | [] => [[character]]
      | piece :: others => (character :: piece) :: others

/-- The pieces of a text between occurrences of a separator. -/
def split (text : String) (separator : Char) : List String :=
  (splitAtEvery separator text.toList).map String.ofList

def join (separator : String) (texts : List String) : String :=
  separator.intercalate texts

def repeated (text : String) (count : Nat) : String :=
  String.ofList (List.replicate count text.toList).flatten

end ApiDescription.Text
