import ApiDescription.Workbench.Conditions

/-!
# Scripts

A script works on a bench step by step: it makes parts and names them, reads and sets their
attributes and tells them what to do.  A step that fails leaves the bench as it was.
-/

namespace ApiDescription.Workbench

/-- What can be done without a part. -/
inductive Function where
  | label
  /-- Make a reference to a type from its name. -/
  | referTo
  | takeAttribute
  | writeAttribute
  deriving DecidableEq, Repr

/-- What a part is asked for: one of the things its kind can do, or an attribute by name. -/
inductive Request where
  | method (method : Method)
  | named (name : String)

/-- One step of a script.  Values are documents in which `{"$": name}` stands for the part of that
name. -/
inductive Step where
  | make (kind : Kind) (name : String) (arguments : Doc.Fields)
  | call (request : Request) (target : String) (arguments : List Doc)
  | read (key target : String)
  | assign (key target : String) (value : Doc)
  | push (key target : String) (value : Doc)
  | apply (function : Function) (arguments : List Doc)

/-- What a step gives. -/
inductive Outcome where
  | made (kind : Kind)
  | value (slot : Slot)

def numberOf (name : String) : Work Nat := do
  match (← get).known.lookup name with
  | some number => return number
  | none => throw (.missingKey name)

mutual

def slotOf : Doc → Work Slot
  | .list items => do return .list (← slotsOf items)
  | .object fields =>
    match fields with
    | [("$", .text name)] => do return .part (← numberOf name)
    | fields => do return .table (← fieldsOf fields)
  | value => return .plain value

def slotsOf : List Doc → Work (List Slot)
  | [] => return []
  | item :: rest => do return (← slotOf item) :: (← slotsOf rest)

def fieldsOf : List (String × Doc) → Work (List (String × Slot))
  | [] => return []
  | (key, value) :: rest => do return (key, ← slotOf value) :: (← fieldsOf rest)

end

def perform (number : Nat) (method : Method) (arguments : List Slot) : Work Slot := do
  let item ← itemAt number
  let target := Slot.part number
  item.expect method arguments.length
  let argument := arguments.headD .null
  match method with
  | .serialize => serialize depthLimit target
  | .serializeText => do return .text (← (← serialize depthLimit target).toDoc).pretty
  | .validate => do
    validate depthLimit target arguments
    return .null
  | .referenceName => referenceName depthLimit target
  | .isLink => do return .bool (← isLink (← item.get "type"))
  | .constraints => do return .list (← (← item.get "constraints").elements)
  | .preConditions => preConditions item argument
  | .postConditions => postConditions item argument
  | .bindingById => do
    for binding in ← (← item.get "input_bindings").elements do
      if (← attributeOf binding "id").same argument then return binding
    return .null
  | .typeByName => typeByName target argument

def applyFunction (function : Function) (arguments : List Slot) : Work Slot := do
  match function, arguments with
  | .label, [value] => value.label
  | .referTo, [name] => return .part (← referTo name)
  | .takeAttribute, target :: table :: key :: rest =>
    let isRequired ← match rest with
      | [] => pure false
      | [value] => pure value.isTruthy
      | _ => throw .wrongKind
    takeAttribute target table (← key.asText) isRequired
    return .null
  | .writeAttribute, [target, table, key] =>
    let key ← key.asText
    let held ← match target with
      | .part number => do pure (((← itemAt number).get? key).getD .null)
      | _ => pure .null
    match held, table with
    | .plain .null, _ | .list [], _ | _, .table _ => return .null
    | _, _ => throw .wrongKind
  | _, _ => throw .wrongKind

def Step.run : Step → Work Outcome
  | make kind name arguments => do
    let number ← Workbench.make depthLimit kind (← fieldsOf arguments)
    modify fun bench => { bench with known := (name, number) :: bench.known }
    return .made kind
  | call request target arguments => do
    let number ← numberOf target
    match request with
    | .method method => do
      (← itemAt number).offers method
      return .value (← perform number method (← slotsOf arguments))
    | .named name => do
      let _ ← (← itemAt number).get name
      throw .wrongKind
  | read key target => do
    return .value (← (← itemAt (← numberOf target)).get key)
  | assign key target value => do
    Workbench.assign (← numberOf target) key (← slotOf value)
    return .value .null
  | push key target value => do
    let number ← numberOf target
    match ← (← itemAt number).get key with
    | .list items => do
      Workbench.assign number key (.list (items ++ [← slotOf value]))
      return .value .null
    | _ => throw .noAttribute
  | apply function arguments => do
    return .value (← applyFunction function (← slotsOf arguments))

end ApiDescription.Workbench
