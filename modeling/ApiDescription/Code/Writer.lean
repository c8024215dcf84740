import ApiDescription.Fault
import ApiDescription.Text.Search

/-!
# Indented text

Code is written line by line at a level of indentation.  What was written stays written when a later
step fails.
-/

namespace ApiDescription.Code

/-- Code under construction: `level` times `tab` stands in front of everything that is written. -/
structure Writer where
  tab : String
  level : Nat
  text : String

abbrev Writing := ExceptT Fault (StateM Writer)

namespace Writer

def empty (tab : String) : Writer :=
  { tab, level := 0, text := "" }

def moduleTab : String := "  "

end Writer

namespace Writing

def write (piece : String) : Writing Unit :=
  modify fun writer =>
    { writer with text := writer.text ++ Text.repeated writer.tab writer.level ++ piece }

def writeLine (line : String) : Writing Unit :=
  write (line ++ "\n")

def indent : Writing Unit :=
  modify fun writer => { writer with level := writer.level + 1 }

def dedent : Writing Unit := do
  match (← get).level with
  | 0 => throw .unbalancedIndentation
  | level + 1 => modify fun writer => { writer with level }

def block (work : Writing Unit) : Writing Unit := do
  indent
  work
  dedent

def render (work : Writing Unit) : Except Fault String :=
  let (result, writer) := (work.run).run (Writer.empty Writer.moduleTab)
  result.map fun _ => writer.text

end Writing

end ApiDescription.Code
