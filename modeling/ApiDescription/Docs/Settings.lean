import ApiDescription.Docs.Info
import ApiDescription.Docs.Template
import ApiDescription.Expression.Evaluator

/-!
# Settings of a manual

The places of the settings file are filled with what is known about a manual, one after the other,
so that what fills a place may bring in places that are filled later.  A setting is then the value
of its expression.
-/

namespace ApiDescription.Docs

def fillPlace (place value text : String) : String :=
  Text.replaceAll text ("\x7b__" ++ place ++ "__\x7d") value

def Info.fill (info : Info) (version text : String) : String :=
  fillPlace "base" info.fileName
    (fillPlace "version" version
      (fillPlace "authors" info.authors
        (fillPlace "year" info.year (fillPlace "project" info.projectName text))))

def Info.versionText (info : Info) : Except Fault String :=
  match info.version with
  | some version => version.asText
  | none => .error .wrongKind

/-- The text of the settings file before its places are filled. -/
def templateText : String :=
  textOfLines (template.flatMap Entry.lines)

def settingsText (info : Info) : Except Fault String := do
  return info.fill (← info.versionText) templateText

def settingValues (fill : String → String) : List Entry → Except Fault (List (String × Value))
  | [] => .ok []
  | .remark _ :: rest => settingValues fill rest
  | .setting name source :: rest => do
    let tree ← Expr.parse (fill (Text.join "\n" source))
    let others ← settingValues fill rest
    return (name, ← tree.evaluate) :: others

/-- The settings of the file before its places are filled. -/
def templateSettings : Except Fault (List (String × Value)) :=
  settingValues id template

def settings (info : Info) : Except Fault (List (String × Value)) := do
  settingValues (info.fill (← info.versionText)) template

end ApiDescription.Docs
