import ApiDescription.Client.Names

/-!
# Clients under construction

The classes and functions generated so far, the class names in use, and which class stands for which
type.  What was generated stays generated when a later step fails.
-/

namespace ApiDescription.Client

open Code (ClassDef Method)

/-- A client under construction. -/
structure State where
  classes : List ClassDef
  classNames : List String
  classOf : List (String × String)
  functions : List Method

def State.empty : State :=
  { classes := [], classNames := [], classOf := [], functions := [] }

abbrev Build := ExceptT Fault (StateM State)

/-- Set the class of a type name: a name that is there keeps its place. -/
def State.putClass (name className : String) : List (String × String) → List (String × String)
  | [] => [(name, className)]
  | (key, old) :: rest =>
    if key = name then (key, className) :: rest else (key, old) :: putClass name className rest

def State.className (state : State) (type : Doc) : Except Fault String :=
  match type with
  | .list _ | .object _ => .error .wrongKind
  | .text name =>
    match state.classOf.lookup name with
    | some className => .ok className
    | none => .error (.missingKey name)
  | other => .error (.missingKey other.words)

/-- The constructor argument for a field of a type; there is none when its class is not
generated. -/
def State.parameter (state : State) (type key : Doc) : Except Fault (Option String) := do
  let className ← state.className type
  match state.classes.find? fun type => type.name == className with
  | none => return none
  | some found =>
    match found.constructor? with
    | none => .error .noAttribute
    | some constructor => return some (← constructor.mapping key)

namespace Build

/-- Name a class after a type and remember which type it stands for.  The name is used up even when
the type has no name to remember it by. -/
def className (type : Doc) : Build String := do
  let stem ← NameStyle.type.stem type
  let name := firstFree (← get).classNames stem
  modify fun state => { state with classNames := state.classNames ++ [name] }
  match type with
  | .text key => modify fun state => { state with classOf := State.putClass key name state.classOf }
  | _ => throw .wrongKind
  return name

def functionName (name : Doc) : Build (Option String) := do
  let stem ← NameStyle.method.stem name
  return if (← get).functions.any fun function => function.name == stem then none else some stem

def addClass (type : ClassDef) : Build Unit :=
  modify fun state => { state with classes := state.classes ++ [type] }

def addFunction (function : Method) : Build Unit := do
  if (← functionName (.text function.name)).isSome then
    modify fun state => { state with functions := state.functions ++ [function] }

end Build

end ApiDescription.Client
