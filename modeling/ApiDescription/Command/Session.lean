import ApiDescription.Command.Address
import ApiDescription.Command.Folder
import ApiDescription.Command.Options
import ApiDescription.Model.Writer

/-!
# Runs of commands

A command reports lines, works on files and may ask a server for a description.  It ends by itself,
with a status, or with a fault; what it did before stays done.
-/

namespace ApiDescription.Command

/-- Why a command ends early. -/
inductive Stop where
  | status (code : Nat)
  | fault (cause : Fault)

/-- What a command has done so far. -/
structure Session where
  folder : Folder
  report : List String
  /-- What was said to a server, event by event. -/
  traffic : List (List String)

abbrev Running := ExceptT Stop (StateM Session)

namespace Running

def print (line : String) : Running Unit :=
  modify fun session => { session with report := session.report ++ [line] }

def exit {α : Type} (code : Nat) : Running α :=
  throw (.status code)

def refuse {α : Type} (message : String) : Running α := do
  print message
  exit 1

def attempt {α : Type} : Except Fault α → Running α
  | .ok value => return value
  | .error cause => throw (.fault cause)

def event (words : List String) : Running Unit :=
  modify fun session => { session with traffic := session.traffic ++ [words] }

def read (path : String) : Running (Option String) := do
  let folder := (← get).folder
  return (folder.locate folder.here path).bind folder.content?

def create (start : Place) (path : String) : Running Place := do
  if path.contains '\x00' then throw (.fault .badValue)
  let folder := (← get).folder
  match folder.locate start path with
  | none => throw (.fault .noSuchFile)
  | some place =>
    if folder.isDirectory place then throw (.fault .noSuchFile)
    modify fun session => { session with folder := session.folder.putFile place "" }
    return place

def append (place : Place) (text : String) : Running Unit :=
  modify fun session =>
    { session with folder :=
        session.folder.putFile place ((session.folder.content? place).getD "" ++ text) }

end Running

def fetchApi (options : Options) (url answer : String) : Running Api := do
  let method := (options.value? .method).getD "OPTIONS"
  let address ← Running.attempt (Address.ofText url)
  if address.scheme == "https" then Running.event ["HTTPSConnection", address.host]
  else
    if address.scheme != "http" then
      Running.refuse "Invalid protocol in the URL (must be http or https)"
    Running.event ["HTTPConnection", address.host]
  Running.event [method, address.path]
  let document ← Running.attempt (Doc.read answer)
  Running.event ["close"]
  Running.attempt (Api.ofDoc document)

/-- Load the description that the options name, from a file or else from a server. -/
def loadApi (options : Options) (answer : String) : Running Api := do
  match options.value? .file, options.value? .url with
  | some path, _ =>
    let api ← Running.attempt (Api.ofFile (← Running.read path))
    Running.print ("API description loaded from " ++ path)
    return api
  | none, some url =>
    let api ← fetchApi options url answer
    Running.print ("API description loaded from " ++ url)
    return api
  | none, none =>
    Running.refuse "Please specify the path or the URL of the input API description file"

def withOptions (specs : List OptionSpec) (help words : List String)
    (command : Options → Running Unit) : Running Unit := do
  match readOptions specs [] words with
  | .run options => command options
  | .help =>
    help.forM Running.print
    Running.exit 0
  | .invalid => Running.exit 2

end ApiDescription.Command
