import ApiDescription.Client.Program
import ApiDescription.Command.Session

/-!
# The command that generates a client

The client of the described service is written to one file.
-/

namespace ApiDescription.Command

open Code (ClassDef Method)

def clientHelp : List String :=
  ["Usage: codegen.py [options]",
    "",
    "Options:",
    "  -h, --help            show this help message and exit",
    "  -f FILE, --file=FILE  Path to the input API description file",
    "  -u URL, --url=URL     URL of the input API description",
    "  -m METHOD, --method=METHOD",
    "                        The HTTP method that should be used to pull the input",
    "                        API description from the input URL (defaults to",
    "                        OPTIONS)",
    "  -o OUTPUT, --output=OUTPUT",
    "                        Path to the output Python file to be generated",
    "  -d DESERIALIZER, --deserializer=DESERIALIZER",
    "                        Preferred output deserializer (used for all operations",
    "                        that support this content type)"]

/-- The preferred way to read answers, if the client knows it. -/
def outputPreference (options : Options) : Running (Option String) := do
  match options.value? .special with
  | none => return none
  | some name =>
    if (Client.contentTypes.map Prod.snd).contains name then return some name
    Running.print (name ++ " is not supported as an output format - Ignoring...")
    return none

def writeClient (api : Api) (client : Client.State) (path : String) : Running Unit := do
  let place ← Running.create (← get).folder.here path
  Running.append place (← Running.attempt Client.imports.render)
  Running.append place "\n"
  Running.append place (← Running.attempt (Client.endpoints api.base).render)
  Running.append place "\n"
  for function in client.functions do
    Running.append place (← Running.attempt function.renderStatic)
    Running.append place "\n"
  for type in client.classes do
    Running.print type.announcement
    Running.append place (← Running.attempt type.render)
    Running.append place "\n"

def generateClient (answer : String) (options : Options) : Running Unit := do
  let api ← loadApi options answer
  match options.value? .output with
  | none => Running.refuse "Please specify the output file name"
  | some path =>
    let preference ← outputPreference options
    let (result, client) := ((Client.generate api preference).run).run Client.State.empty
    Running.attempt result
    writeClient api client path
    Running.print "Client stubs generated SUCCESSFULLY"

def clientCommand (words : List String) (answer : String) : Running Unit :=
  withOptions (optionSpecs 'd' "deserializer") clientHelp words (generateClient answer)

end ApiDescription.Command
