import ApiDescription.Model.Validation
import ApiDescription.Proofs.Outcome

/-!
# What the checks of a description ask for

One statement for each check: it succeeds exactly when the conditions hold that its part of a
description has to meet.  Each statement opens one check and leaves the checks of smaller parts as
they are, so that a change of one rule touches one statement.
-/

namespace ApiDescription

open Outcome List Resource TypeRef

variable {types : List Doc} {bindings : List Label}

/-! ## Values as names -/

@[simp] theorem Doc.same_text_right (value : Doc) (text : String) :
    value.same (.text text) = true ↔ value = .text text := by
  cases value <;> simp [Doc.same]

@[simp] theorem Doc.same_text_left (text : String) (value : Doc) :
    (Doc.text text).same value = true ↔ value = .text text := by
  cases value with
  | text other =>
    rw [Doc.same_text_right]
    exact eq_comm
  | null | bool | int | float | list | object => simp [Doc.same]

/-- Whether two values cannot both be names of data types. -/
def Doc.Alike (left right : Doc) : Prop :=
  Doc.bothNaN left right = true ∨ left.same right = true

theorem Doc.isAmong_eq_true {value : Doc} {values : List Doc} :
    value.isAmong values = true ↔ ∃ other ∈ values, other.Alike value := by
  simp [Doc.isAmong, Doc.Alike]

/-! ## Names that are used once -/

/-- Names that differ from one another and from those seen before. -/
def Apart {α : Type} (Different : α → α → Prop) (seen names : List α) : Prop :=
  names.Pairwise Different ∧ ∀ earlier ∈ seen, ∀ later ∈ names, Different earlier later

theorem apart_cons {α : Type} {Different : α → α → Prop} {seen rest : List α} {name : α} :
    Apart Different seen (name :: rest) ↔
      (∀ earlier ∈ seen, Different earlier name) ∧ Apart Different (seen ++ [name]) rest := by
  simp only [Apart, pairwise_cons, forall_mem_cons, forall_mem_append]
  constructor
  · rintro ⟨⟨first, others⟩, before⟩
    exact ⟨fun earlier member => (before earlier member).1, others,
      fun earlier member => (before earlier member).2, first, by simp⟩
  · rintro ⟨before, others, beforeOthers, first, -⟩
    exact ⟨⟨first, others⟩, fun earlier member =>
      ⟨before earlier member, beforeOthers earlier member⟩⟩

theorem apart_nil {α : Type} {Different : α → α → Prop} {names : List α} :
    Apart Different [] names ↔ names.Pairwise Different := by
  simp [Apart]

/-! ## References -/

/-- The name of a data type that a reference leads to through its containers. -/
def TypeRef.customName? : TypeRef → Option Doc
  | .primitive _ => none
  | .container _ item => item.customName?
  | .custom name => some name

/-- A name that a reference may lead to when `types` are the names of the data types. -/
def Doc.IsTypeName (types : List Doc) (name : Doc) : Prop :=
  name = .text apiName ∨ name = .text noneName ∨ ∃ type ∈ types, type.same name

theorem TypeRef.validate_eq_ok (reference : TypeRef) :
    reference.validate types = .ok () ↔
      ∀ name, reference.customName? = some name → name.IsTypeName types := by
  unfold validate
  induction reference with
  | primitive kind => simp [validateBy, customName?]
  | container kind item ih => simpa [validateBy, customName?] using ih
  | custom name =>
    simp only [customName?, Option.some.injEq, forall_eq', Doc.IsTypeName, ← or_assoc]
    rw [validateBy]
    by_cases reserved : name = .text apiName ∨ name = .text noneName
    · have same : (name.same (.text apiName) || name.same (.text noneName)) := by
        simpa using reserved
      simp [same, reserved]
    · have different :
          (name.same (.text apiName) || name.same (.text noneName)) = false := by
        simpa [← Bool.not_eq_true] using reserved
      by_cases known : ∃ type ∈ types, type.same name
      · have found : (types.any fun type => type.same name) = true := by simpa using known
        simp [different, found, known]
      · have absent : (types.any fun type => type.same name) = false := by
          simpa [← Bool.not_eq_true] using known
        simp [different, absent, known, reserved, bind_eq_ok]

/-! ## Types -/

theorem TypeRef.isLink_eq_true (reference : TypeRef) :
    reference.isLink = true ↔ reference = .primitive .href := by
  unfold isLink
  split <;> simp_all

theorem DataType.validate_reference (target : TypeRef) (link : Doc) :
    (DataType.reference target link).validate types = .ok () ↔
      target.validate types = .ok () ∧ (link ≠ .null → target = .primitive .href) := by
  rw [← isLink_eq_true]
  cases link with
  | null => simp [DataType.validate, check_bind_eq_ok]
  | bool | int | float | text | list | object =>
    simp only [DataType.validate, check_bind_eq_ok]
    cases target.isLink <;> simp [bind_eq_ok]

theorem DataType.validate_inline (definition : TypeDef) :
    (DataType.inline definition).validate types = .ok () ↔ definition.validate types = .ok () := by
  rw [DataType.validate]

theorem Field.validateAll_eq_ok (seen : List Label) (fields : List Field) :
    Field.validateAll types seen fields = .ok () ↔
      (∀ field ∈ fields, field.type.validate types = .ok ()) ∧
        Apart (· ≠ ·) seen (fields.map (·.name)) := by
  induction fields generalizing seen with
  | nil => simp [Field.validateAll, Apart]
  | cons field rest ih =>
    obtain ⟨name, description, optional, type⟩ := field
    rw [Field.validateAll, check_bind_eq_ok, Field.validate, map_cons, apart_cons, forall_mem_ne',
      forall_mem_cons]
    by_cases repeated : name ∈ seen
    · simp [bind_eq_ok, repeated]
    · simp [ih, repeated, and_assoc]

theorem TypeDef.validate_eq_ok (definition : TypeDef) :
    definition.validate types = .ok () ↔
      (∀ field ∈ definition.fields, field.type.validate types = .ok ()) ∧
        (definition.fields.map (·.name)).Nodup := by
  obtain ⟨fields, constraints, description⟩ := definition
  rw [TypeDef.validate, Field.validateAll_eq_ok, apart_nil]
  rfl

/-! ## Parts of operations -/

theorem Parameter.validate_eq_ok (parameter : Parameter) :
    parameter.validate types bindings = .ok () ↔
      match parameter.source with
      | .inline binding | .own binding => binding.type.validate types = .ok ()
      | .shared id => id ∈ bindings := by
  unfold Parameter.validate
  cases parameter.source with
  | inline binding => rfl
  | own binding => rfl
  | shared id =>
    by_cases known : id ∈ bindings <;> simp [known, bind_eq_ok]

theorem Input.validate_eq_ok (input : Input) :
    input.validate types bindings = .ok () ↔
      (∀ type, input.type = some type → type.validate types = .ok ()) ∧
        ∀ parameter ∈ input.params, parameter.validate types bindings = .ok () := by
  unfold Input.validate
  cases input.type with
  | none => simp [forM_eq_ok]
  | some type => simp [check_bind_eq_ok, forM_eq_ok]

theorem Output.validate_eq_ok (output : Output) :
    output.validate types = .ok () ↔
      ∀ type, output.type = some type → type.validate types = .ok () := by
  unfold Output.validate
  cases output.type with
  | none => simp
  | some type => simp

theorem Condition.validate_eq_ok (condition : Condition) :
    condition.validate = .ok () ↔
      ∃ text tree, condition = some (.text text) ∧ Expr.parse text = .ok tree := by
  unfold Condition.validate Condition.parse
  cases condition with
  | none => simp [Condition.asText]
  | some label =>
    cases label with
    | texts values => simp [Condition.asText, Label.asText]
    | text text => simp [Condition.asText, Label.asText, bind_eq_ok]

theorem enclosesEntity_eq_true (method : Label) :
    enclosesEntity method = true ↔ method = .text "POST" ∨ method = .text "PUT" := by
  simp [enclosesEntity]

theorem Operation.validate_eq_ok (operation : Operation) :
    operation.validate types bindings = .ok () ↔
      (enclosesEntity operation.method → operation.input.isSome) ∧
      (∀ input, operation.input = some input → input.validate types bindings = .ok ()) ∧
      (∃ output, operation.output = some output ∧ output.validate types = .ok ()) ∧
      (∀ condition ∈ operation.requires, condition.validate = .ok ()) ∧
      (∀ condition ∈ operation.ensures, condition.validate = .ok ()) := by
  unfold Operation.validate
  cases entity : enclosesEntity operation.method <;> cases operation.input <;>
    cases operation.output <;>
    simp [check_bind_eq_ok, forM_eq_ok]

/-! ## Resources and descriptions -/

theorem Resource.validateOperations_eq_ok {resource : Label} (seen : List Label)
    (operations : List Operation) :
    validateOperations types bindings resource seen operations = .ok () ↔
      (∀ operation ∈ operations, operation.validate types bindings = .ok ()) ∧
        Apart (· ≠ ·) seen (operations.map (·.name)) := by
  induction operations generalizing seen with
  | nil => simp [validateOperations, Apart]
  | cons operation rest ih =>
    rw [validateOperations, check_bind_eq_ok, map_cons, apart_cons, forall_mem_ne', forall_mem_cons]
    by_cases repeated : operation.name ∈ seen
    · simp [bind_eq_ok, repeated]
    · simp [ih, repeated, and_assoc]

theorem Resource.validate_eq_ok (resource : Resource) :
    resource.validate types = .ok () ↔
      (∀ binding ∈ resource.bindings, binding.type.validate types = .ok ()) ∧
      (∀ operation ∈ resource.operations,
        operation.validate types (resource.bindings.map (·.id)) = .ok ()) ∧
      (resource.operations.map (·.name)).Nodup := by
  unfold validate
  rw [check_bind_eq_ok, validateOperations_eq_ok, apart_nil]
  simp only [forM_eq_forM, forM_eq_ok]
  rfl

theorem Api.uniqueNames_eq_ok {names : List Doc} (seen : List Doc) (types : List NamedTypeDef) :
    Api.uniqueNames seen types = .ok names ↔
      Apart (fun earlier later => ¬ earlier.Alike later) seen (types.map (·.name)) ∧
        names = seen ++ types.map (·.name) := by
  induction types generalizing seen with
  | nil => simp [Api.uniqueNames, Apart, eq_comm]
  | cons type rest ih =>
    rw [Api.uniqueNames, map_cons, apart_cons]
    by_cases repeated : type.name.isAmong seen
    · obtain ⟨other, member, alike⟩ := Doc.isAmong_eq_true.mp repeated
      simp only [repeated, if_true, bind_eq_ok]
      constructor
      · rintro ⟨_, _, _, impossible, _⟩
        simp at impossible
      · rintro ⟨⟨different, _⟩, _⟩
        exact absurd alike (different other member)
    · have different : ∀ earlier ∈ seen, ¬ earlier.Alike type.name :=
        fun earlier member alike =>
          repeated (Doc.isAmong_eq_true.mpr ⟨earlier, member, alike⟩)
      simp only [repeated, Bool.false_eq_true, if_false, ih, append_assoc, singleton_append]
      exact ⟨fun read => ⟨⟨different, read.1⟩, read.2⟩, fun read => ⟨read.1.2, read.2⟩⟩

theorem Api.validate_eq_ok (api : Api) :
    api.validate = .ok () ↔
      (api.dataTypes.map (·.name)).Pairwise (fun earlier later => ¬ earlier.Alike later) ∧
      (∀ type ∈ api.dataTypes,
        type.definition.validate (api.dataTypes.map (·.name)) = .ok ()) ∧
      (∀ resource ∈ api.resources,
        resource.validate (api.dataTypes.map (·.name)) = .ok ()) := by
  unfold Api.validate
  rw [bind_eq_ok]
  simp only [Api.uniqueNames_eq_ok, apart_nil, nil_append, check_bind_eq_ok, forM_eq_forM,
    forM_eq_ok]
  constructor
  · rintro ⟨names, ⟨different, rfl⟩, typesValid, resourcesValid⟩
    exact ⟨different, typesValid, resourcesValid⟩
  · rintro ⟨different, typesValid, resourcesValid⟩
    exact ⟨_, ⟨different, rfl⟩, typesValid, resourcesValid⟩

/-! ## What is not checked of outputs -/

def Operation.mapOutput (change : Output → Output) (operation : Operation) : Operation :=
  { operation with output := operation.output.map change }

def Resource.mapOutputs (change : Output → Output) (resource : Resource) : Resource :=
  { resource with operations := resource.operations.map (Operation.mapOutput change) }

def Api.mapOutputs (change : Output → Output) (api : Api) : Api :=
  { api with resources := api.resources.map (Resource.mapOutputs change) }

section mapOutputs

variable {types : List Doc} {bindings : List Label} {change : Output → Output}
  (keepsType : ∀ output, (change output).type = output.type)

include keepsType

theorem Operation.validate_mapOutput (operation : Operation) :
    (operation.mapOutput change).validate types bindings = operation.validate types bindings := by
  obtain ⟨name, method, description, input, output, errors, requires, ensures⟩ := operation
  cases output with
  | none => rfl
  | some output =>
    simp only [Operation.mapOutput, Operation.validate, Option.map_some, Output.validate,
      keepsType output]

theorem Resource.validateOperations_mapOutput (resource : Label) (seen : List Label)
    (operations : List Operation) :
    validateOperations types bindings resource seen
        (operations.map (Operation.mapOutput change)) =
      validateOperations types bindings resource seen operations := by
  induction operations generalizing seen with
  | nil => rfl
  | cons operation rest ih =>
    have name : (operation.mapOutput change).name = operation.name := rfl
    rw [map_cons, validateOperations, validateOperations, Operation.validate_mapOutput keepsType,
      name, ih]

theorem Resource.validate_mapOutputs (resource : Resource) :
    (resource.mapOutputs change).validate types = resource.validate types := by
  rw [validate, validate, mapOutputs, validateOperations_mapOutput keepsType]

theorem Api.validate_mapOutputs (api : Api) :
    (api.mapOutputs change).validate = api.validate := by
  simp only [Api.validate, Api.mapOutputs, List.forM_eq_forM, List.forM_map,
    Resource.validate_mapOutputs keepsType]

end mapOutputs

end ApiDescription
