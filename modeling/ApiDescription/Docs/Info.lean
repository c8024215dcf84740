import ApiDescription.Docs.Page

/-!
# What a manual says about a service as a whole

The title, authors and version of a manual, and its first page.
-/

namespace ApiDescription.Docs

/-- What is known about a manual. -/
structure Info where
  projectName : String
  year : String
  authors : String
  version : Option Label
  fileName : String

/-- The year of a manual for which none is given. -/
def usualYear : String := "2013"

/-- Names of owners with commas between them; as long as nothing was said no comma is needed. -/
def joinAuthors (known : String) : List Label → Except Fault String
  | [] => .ok known
  | name :: rest => do
    joinAuthors ((if known.isEmpty then known else known ++ ", ") ++ (← name.asText)) rest

def projectName (name : String) : String :=
  if Text.endsWith name "API" || Text.endsWith name "api" then name else name ++ " API"

/-- What is known about the manual of a service. -/
def Info.ofApi (api : Api) (year : String := usualYear) : Except Fault Info := do
  let .text name := api.name | .error .noAttribute
  let authors ← joinAuthors "" (api.ownership.map (·.name))
  return {
    projectName := Docs.projectName name
    year
    authors
    version := match api.version with
      | some version => version.id
      | none => some (.text "0.0")
    fileName := Text.lower (Text.replaceAll name " " "_") }

def licensePages : List (String × String) :=
  [("apache2", "http://www.apache.org/licenses/LICENSE-2.0.html"),
    ("gpl", "http://www.gnu.org/licenses/gpl.html")]

def licenseLines : Option Label → Except Fault (List String)
  | none => .ok []
  | some license => do
    if license.isTruthy then
      let name ← license.asText
      let sentence :=
        match licensePages.lookup name with
        | some page =>
          "This API is made available under the \x60" ++ name ++ " <" ++ page ++ ">\x60_ license."
        | none => "This API is made available under the " ++ name ++ " license"
      return title '-' "License" ++ [sentence, ""]
    else return []

def listing (depth : String) (pages : List String) : List Line :=
  plainLines [".. toctree::", "   :maxdepth: " ++ depth, ""] ++ pages.map .entry ++ plainLines [""]

def resourcePage (resource : Resource) : Except Fault String :=
  lowerName resource.name.toDoc

def indexLines (api : Api) (info : Info) : Except Fault (List Line) := do
  let description ← descriptionLines "" api.description
  let resources ← api.resources.mapM resourcePage
  let types ← api.dataTypes.mapM fun type => typePage type.name
  let license ← licenseLines api.license
  return plainLines (title '=' ("Welcome to the Documentation of " ++ info.projectName) ++
      (if description.isEmpty then [] else title '-' "Description" ++ description ++ [""]) ++
      title '-' "Available Operations") ++
    listing "2" resources ++
    (if types.isEmpty then [] else plainLines (title '-' "Data Models") ++ listing "1" types) ++
    plainLines (title '-' "Endpoints" ++ ["This API can be accessed via following URLs.", ""] ++
      api.base.map (fun address => "   * " ++ address) ++ [""] ++ license)

def indexText (api : Api) (info : Info) : Except Fault String := do
  return textOfLines ((← indexLines api info).map Line.text)

end ApiDescription.Docs
