import ApiDescription.Command.Session
import ApiDescription.Docs.Settings

/-!
# The command that generates a manual

The manual of the described service is written to a directory: its settings, a first page, a page
per resource and a page per type.
-/

namespace ApiDescription.Command

def manualHelp : List String :=
  ["Usage: docgen.py [options]",
    "",
    "Options:",
    "  -h, --help            show this help message and exit",
    "  -f FILE, --file=FILE  Path to the input API description file",
    "  -u URL, --url=URL     URL of the input API description",
    "  -m METHOD, --method=METHOD",
    "                        The HTTP method that should be used to pull the input",
    "                        API description from the input URL (defaults to",
    "                        OPTIONS)",
    "  -o OUTPUT, --output=OUTPUT",
    "                        Output directory",
    "  -e EXPORT, --export=EXPORT",
    "                        Export format (defaults to html)"]

def freshDirectories : List String := ["_build", "_static", "_templates"]

/-- Make the directory of a manual and clear it of what an earlier run left. -/
def prepareDirectory (path : String) : Running Place := do
  let folder := (← get).folder
  let present := folder.locate folder.here path
  if present.any fun place => folder.exists? place && !folder.isDirectory place then
    Running.refuse ("Specified output location: " ++ path ++ " is not a directory")
  let (start, names) := Folder.pathNames folder.here path
  match folder.makePath start names with
  | none => throw (.fault .noSuchFile)
  | some (folder, root) =>
    let renewed := freshDirectories.foldl
      (fun folder name => (folder.removeTree (root ++ [name])).putDirectory (root ++ [name])) folder
    let cleared := (renewed.removeEnding root ".rst").removeEnding root ".html"
    modify fun session => { session with folder := cleared }
    return root

/-- Write a page, whose file is there before its text is known. -/
def writePage (root : Place) (name : String) (text : Running String) : Running Unit := do
  let place ← Running.create root name
  Running.append place (← text)

def writePaging (root : Place) (name : String) (page : Docs.Paging String)
    (pending : List NamedTypeDef) : Running (List NamedTypeDef) := do
  let place ← Running.create root name
  let (text, pending) := (page.run).run pending
  Running.append place (← Running.attempt text)
  return pending

def pageFile (name : String) : String :=
  name ++ ".rst"

/-- Write the page of a type; what it remembers comes after `pending`. -/
def writeTypePage (root : Place) (type : NamedTypeDef) (pending : List NamedTypeDef) :
    Running (List NamedTypeDef) := do
  let name ← Running.attempt (Docs.typePage type.name)
  writePaging root (pageFile name) (Docs.typePageText type) pending

/-- The number of types written on the spot inside a type. -/
def inlineCount (type : NamedTypeDef) : Nat :=
  type.definition.weight

/-- Write pages for remembered types, including those that are remembered on the way; `fuel` bounds
their number. -/
def writePending (root : Place) : Nat → List NamedTypeDef → Running Unit
  | 0, _ => return ()
  | _, [] => return ()
  | fuel + 1, type :: rest => do
    let pending ← writeTypePage root type rest
    writePending root fuel pending

/-- The number of pages that remembered types can lead to. -/
def pendingPages (types : List NamedTypeDef) : Nat :=
  (types.map inlineCount).foldr (· + ·) 0

def writeManual (year : String) (api : Api) (root : Place) : Running Unit := do
  let info ← Running.attempt (Docs.Info.ofApi api year)
  let settings ← Running.attempt (Docs.settingsText info)
  writePage root "conf.py" (return settings)
  writePage root "index.rst" (Running.attempt (Docs.indexText api info))
  let mut pending : List NamedTypeDef := []
  for resource in api.resources do
    let name ← Running.attempt (Docs.resourcePage resource)
    pending ← writePaging root (pageFile name) (Docs.resourcePageText api resource) pending
  for type in api.dataTypes do
    pending ← writeTypePage root type pending
  writePending root (pendingPages pending) pending

def generateManual (year answer : String) (options : Options) : Running Unit := do
  let api ← loadApi options answer
  match options.value? .output with
  | none => Running.refuse "Please specify the output directory"
  | some path =>
    let format := (options.value? .special).getD "html"
    let root ← prepareDirectory path
    writeManual year api root
    Running.print "Running Sphinx doc engine"
    Running.print ("sphinx: sphinx-build -b " ++ ((Text.split format ' ').find? (!·.isEmpty)).getD
      "")

def manualCommand (year : String := Docs.usualYear) (words : List String) (answer : String) :
    Running Unit :=
  withOptions (optionSpecs 'e' "export") manualHelp words (generateManual year answer)

end ApiDescription.Command
