import ApiDescription.Command.ClientCommand
import ApiDescription.Command.ManualCommand

/-!
# The program

The first word of the command line says what to generate, `client` or `manual`, and the other words
are options.  The command works on a copy of the files it names, and what it changed there is
written back at the end.  A description that is to come from a server is read from the standard
input.
-/

namespace ApiDescription.Command

def placeOf (path : String) : Place :=
  (Text.split path '/').filter fun name => !name.isEmpty

def pathOf (place : Place) : String :=
  "/" ++ Text.join "/" place

def copyIn (folder : Folder) (place : Place) : Nat → IO Folder
  | 0 => return folder
  | depth + 1 => do
    try
      let path ← IO.FS.realPath (pathOf place)
      if ← path.isDir then
        let mut copied := folder.putDirectory place
        for entry in ← path.readDir do
          copied ← copyIn copied (place ++ [entry.fileName]) depth
        return copied
      else if ← path.pathExists then
        return folder.putFile place (← IO.FS.readFile path)
      else return folder
    catch _ => return folder

def copyWay (folder : Folder) (place : Place) : IO Folder :=
  (Place.way place).foldlM (fun folder place => copyIn folder place 1) folder

def placeFrom (here : Place) (path : String) : Place :=
  let (start, names) := Folder.pathNames here path
  names.foldl (fun place name =>
    if name == "" || name == "." then place
    else if name == ".." then place.dropLast
    else place ++ [name]) start

def namedPlaces (here : Place) (specs : List OptionSpec) (words : List String) : List Place :=
  match readOptions specs [] words with
  | .run options =>
    [OptionName.file, .output].filterMap fun name => (options.value? name).map (placeFrom here)
  | _ => []

/-- What went wrong, for the person who ran the command. -/
def explain : Fault → String
  | .refused why => why.message
  | .unreadable cause => "The description cannot be read. " ++ explain cause
  | .missingKey key => "There is no entry " ++ key ++ "."
  | .wrongKind => "A value is of the wrong kind."
  | .noAttribute => "A value has no such attribute."
  | .badValue => "A value is not accepted."
  | .outOfBounds => "A list is too short."
  | .divisionByZero => "A number is divided by zero."
  | .overflow => "A number is too large."
  | .badExpression => "A condition is no expression."
  | .unbalancedIndentation => "Generated code is not balanced."
  | .notSupported => "This is not supported."
  | .tooDeep => "A type contains itself."
  | .noSuchFile => "There is no such file or directory."
  | .badDocument => "The text is no document."

def writeBack (before after : Folder) : IO Unit := do
  for (place, _) in before.files do
    if (after.content? place).isNone then IO.FS.removeFile (pathOf place)
  for place in before.directories do
    if !after.isDirectory place && after.isDirectory place.dropLast then
      IO.FS.removeDirAll (pathOf place)
  for place in after.directories do
    unless before.isDirectory place do IO.FS.createDirAll (pathOf place)
  for (place, content) in after.files do
    unless before.content? place == some content do IO.FS.writeFile (pathOf place) content

/-- The year that a day is in, the days being counted from the first of `year`. -/
def yearOfDay (year day : Nat) : Nat :=
  let length := if year % 4 = 0 ∧ (year % 100 ≠ 0 ∨ year % 400 = 0) then 366 else 365
  if day < length then year else yearOfDay (year + 1) (day - length)
termination_by day
decreasing_by grind

/-- The year at the moment, by the clock that dates new files. -/
def currentYear : IO Nat := do
  let (_, path) ← IO.FS.createTempFile
  let moment := (← path.metadata).modified.sec
  IO.FS.removeFile path
  return yearOfDay 1970 (moment.toNat / 86400)

def runCommand (specs : List OptionSpec) (command : List String → String → Running Unit)
    (words : List String) : IO UInt32 := do
  let here := placeOf (← IO.currentDir).toString
  let mut folder := Folder.empty here
  for place in namedPlaces here specs words do
    folder ← copyIn (← copyWay folder place) place 8
  let asksServer := match readOptions specs [] words with
    | .run options => (options.value? .file).isNone && (options.value? .url).isSome
    | _ => false
  let answer ← if asksServer then (← IO.getStdin).readToEnd else pure ""
  let (result, session) := ((command words answer).run).run { folder, report := [], traffic := [] }
  for line in session.report do IO.println line
  writeBack folder session.folder
  match result with
  | .ok () => return 0
  | .error (.status code) => return code.toUInt32
  | .error (.fault cause) =>
    IO.eprintln (explain cause)
    return 1

end ApiDescription.Command

open ApiDescription.Command in
def main (words : List String) : IO UInt32 := do
  match words with
  | "client" :: rest => runCommand (optionSpecs 'd' "deserializer") clientCommand rest
  | "manual" :: rest =>
    runCommand (optionSpecs 'e' "export") (manualCommand (toString (← currentYear))) rest
  | _ =>
    IO.eprintln "The first word has to be client or manual."
    return 2
