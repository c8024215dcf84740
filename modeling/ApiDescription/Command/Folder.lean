import ApiDescription.Text.Search

/-!
# Files and directories

The part of a file system that a command works on.  A place is the list of names that lead to it
from the top; a path is followed from a directory, name by name.
-/

namespace ApiDescription.Command

abbrev Place := List String

/-- The places on the way from the top to a place, both included. -/
def Place.way : Place → List Place
  | [] => [[]]
  | name :: rest => [] :: (way rest).map (name :: ·)

/-- Files with their contents, and directories; `here` is the one that a command works in. -/
structure Folder where
  here : Place
  files : List (Place × String)
  directories : List Place

namespace Folder

def empty (here : Place) : Folder :=
  { here, files := [], directories := Place.way here }

def isDirectory (folder : Folder) (place : Place) : Bool :=
  folder.directories.contains place

def content? (folder : Folder) (place : Place) : Option String :=
  folder.files.lookup place

def exists? (folder : Folder) (place : Place) : Bool :=
  folder.isDirectory place || (folder.content? place).isSome

/-- Follow the names of a path, all of which have to be directories. -/
def walk (folder : Folder) (start : Place) : List String → Option Place
  | [] => some start
  | name :: rest =>
    if name == "" || name == "." then folder.walk start rest
    else if name == ".." then folder.walk start.dropLast rest
    else
      let next := start ++ [name]
      if folder.isDirectory next then folder.walk next rest else none

def pathNames (start : Place) (path : String) : Place × List String :=
  (if Text.startsWith path "/" then [] else start, Text.split path '/')

/-- The place that a path leads to from a directory; only its last name need not be there. -/
def locate (folder : Folder) (start : Place) (path : String) : Option Place := do
  let (start, names) := pathNames start path
  let last := names.getLast?.getD ""
  let parent ← folder.walk start names.dropLast
  if last == "" || last == "." then return parent
  else if last == ".." then return parent.dropLast
  else return parent ++ [last]

def putFile (folder : Folder) (place : Place) (content : String) : Folder :=
  let rec put : List (Place × String) → List (Place × String)
    | [] => [(place, content)]
    | (name, old) :: rest => if name == place then (name, content) :: rest else (name, old) ::
        put rest
  { folder with files := put folder.files }

def putDirectory (folder : Folder) (place : Place) : Folder :=
  if folder.isDirectory place then folder
  else { folder with directories := folder.directories ++ [place] }

/-- Make the directories along a path; a file in the way stops it. -/
def makePath (folder : Folder) (start : Place) : List String → Option (Folder × Place)
  | [] => some (folder, start)
  | name :: rest =>
    if name == "" || name == "." then folder.makePath start rest
    else if name == ".." then folder.makePath start.dropLast rest
    else
      let next := start ++ [name]
      if (folder.content? next).isSome then none
      else (folder.putDirectory next).makePath next rest

/-- Put a file where its path says, with the directories on the way. -/
def addFile (folder : Folder) (path content : String) : Folder :=
  let (start, names) := pathNames folder.here path
  match folder.makePath start names.dropLast with
  | some (folder, parent) => folder.putFile (parent ++ [names.getLast?.getD ""]) content
  | none => folder

def removeTree (folder : Folder) (place : Place) : Folder :=
  { folder with
    files := folder.files.filter fun file => !place.isPrefixOf file.1
    directories := folder.directories.filter fun directory => !place.isPrefixOf directory }

/-- Remove the files of a directory whose names have an ending; hidden files stay. -/
def removeEnding (folder : Folder) (place : Place) (ending : String) : Folder :=
  { folder with files := folder.files.filter fun (file, _) =>
      !(file.dropLast == place && file.length == place.length + 1 &&
        file.getLast?.any fun name => Text.endsWith name ending && !Text.startsWith name ".") }

end Folder

end ApiDescription.Command
