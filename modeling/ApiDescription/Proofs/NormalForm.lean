import ApiDescription.Model.Writer
import ApiDescription.Proofs.Legible
import Mathlib

/-!
# Writing is a normal form

A legible part that is written and read again is a part in normal form: what the document does not
show is gone.  Targets of links are dropped where they are not written, values that count as absent
become their defaults, and an input that says nothing disappears.  Normal forms are written as the
parts they come from, and a valid part has a valid normal form, so that the document of a
description is read as a description with the same document.
-/

namespace ApiDescription

open Outcome DataType Doc.Fields Output Doc List

variable {α : Type} {fields : Fields} {key : String} {types : List Doc} {bindings : List Label}

attribute [local simp] lookup_append lookup_cons textsField

/-! ## Fields of written parts -/

namespace Label

@[simp] theorem ofDoc_toDoc (label : Label) : Label.ofDoc label.toDoc = label := by
  cases label with
  | text value => rfl
  | texts values =>
    have worded : Doc.words ∘ Doc.text = id := rfl
    simp [toDoc, ofDoc, worded]

@[simp] theorem ofDoc_comp_toDoc : Label.ofDoc ∘ Label.toDoc = id :=
  funext ofDoc_toDoc

/-- The label that is left after writing: an empty list of texts is not written. -/
def kept : Option Label → Option Label
  | some (.texts []) => none
  | label => label

@[simp] theorem field_kept (key : String) (label : Option Label) :
    Label.field key (kept label) = Label.field key label := by
  unfold kept
  split <;> rfl

@[simp] theorem lookup_field (key name : String) (label : Option Label) :
    (Label.field name label).lookup key =
      if key == name then (kept label).map toDoc else none := by
  unfold Label.field kept
  split <;> simp_all [apply_ite]
  all_goals split <;> simp_all

@[simp] theorem ofDoc_toDoc?_some (label : Label) :
    Label.ofDoc (Label.toDoc? (some label)) = label := by
  simp [toDoc?]

end Label

@[simp] theorem Doc.isTruthy_bool (value : Bool) : (bool value).isTruthy = value := rfl

@[simp] theorem Doc.isTruthy_zero : (int 0).isTruthy = false := rfl

/-- The value that is left after writing, where only present values are written. -/
def Doc.kept (value absent : Doc) : Doc :=
  if value.isTruthy then value else absent

@[simp] theorem Doc.getD_of_isTruthy (value absent : Doc) :
    (if value.isTruthy then some value else none).getD absent = value.kept absent := by
  unfold kept
  split <;> rfl

theorem presentField_kept (key : String) (value : Doc) {absent : Doc}
    (untrue : absent.isTruthy = false) :
    presentField key (value.kept absent) = presentField key value := by
  unfold presentField kept
  split <;> simp_all

@[simp] theorem lookup_presentField (key name : String) (value : Doc) :
    (presentField name value).lookup key =
      if key == name && value.isTruthy then some value else none := by
  unfold presentField
  split <;> simp_all
  split <;> simp_all

@[simp] theorem lookup_listField (key name : String) (items : List Doc) :
    (listField name items).lookup key =
      if key == name && !items.isEmpty then some (.list items) else none := by
  unfold listField
  split <;> simp_all
  split <;> simp_all

theorem parts_of_lookup_listField {β : Type} {items : List α} {write : α → Doc}
    (read : Doc → Except Fault β) (image : α → β)
    (found : fields.lookup key = (listField key (items.map write)).lookup key)
    (each : ∀ item ∈ items, read (write item) = .ok (image item)) :
    fields.parts key read = .ok (items.map image) := by
  unfold parts
  rw [found, lookup_listField]
  cases items with
  | nil => simp
  | cons item rest =>
    rw [if_pos (by simp)]
    exact mapM_map_of_forall each

theorem conditions_of_lookup_listField {conditions : List Condition} (found : fields.lookup key =
      (listField key (conditions.map Label.toDoc?)).lookup key)
    (given : ∀ condition ∈ conditions, condition.isSome) :
    fields.conditions key = .ok conditions := by
  have read := parts_of_lookup_listField (fun value => .ok (some (Label.ofDoc value))) id found (by
    intro condition member
    obtain ⟨label, rfl⟩ := Option.isSome_iff_exists.mp (given condition member)
    simp)
  simpa [Doc.Fields.conditions] using read

theorem texts_of_lookup_textsField {texts : List String}
    (found : fields.lookup key = (textsField key texts).lookup key) : fields.texts key = texts := by
  have worded : words ∘ text = id := rfl
  unfold Doc.Fields.texts
  rw [found, textsField, lookup_listField]
  cases texts with
  | nil => simp
  | cons text rest => simp [worded, words]

/-! ## Normal forms -/

mutual

def DataType.normal : DataType → DataType
  | .reference target _ => .reference target .null
  | .inline definition => .inline definition.normal

/-- A record type as it is left after writing. -/
def TypeDef.normal : TypeDef → TypeDef
  | ⟨fields, constraints, description⟩ =>
    ⟨Field.normalAll fields, constraints, Label.kept description⟩

/-- Fields as they are left after writing. -/
def Field.normalAll : List Field → List Field
  | [] => []
  | field :: rest => field.normal :: Field.normalAll rest

/-- A field as it is left after writing. -/
def Field.normal : Field → Field
  | ⟨name, description, optional, type⟩ =>
    ⟨name, Label.kept description, optional.kept (.bool false), type.normal⟩

end

def DataType.linked (link : Doc) : DataType → DataType
  | .reference target _ => .reference target link
  | .inline definition => .inline definition

@[simp] theorem DataType.write_linked (link : Doc) (type : DataType) :
    (type.linked link).write = type.write := by
  cases type <;> simp [linked, write]

@[simp] theorem DataType.linked_normal_null (type : DataType) :
    type.normal.linked .null = type.normal := by
  cases type <;> simp [normal, linked]

/-! ## Types -/

mutual

/-- A legible type is read from its document; the target of a link is what the part says. -/
theorem DataType.ofValue_write (part : Fields) :
    (type : DataType) → type.Legible →
    ofValue part type.write = .ok (type.normal.linked (part.value "ref" .null))
  | .reference target link, legible => by
    obtain ⟨made, notObject⟩ := legible
    rw [write, ofValue]
    · simp [normal, linked, made]
    · exact notObject
  | .inline definition, legible => by
    rw [write, ofValue, TypeDef.readFields_writeFields definition legible]
    rfl

theorem TypeDef.readFields_writeFields :
    (definition : TypeDef) → definition.Legible →
    TypeDef.readFields definition.writeFields = .ok definition.normal
  | ⟨fields, constraints, description⟩, legible => by
    obtain ⟨fieldsLegible, given⟩ := legible
    have readConstraints :
        (TypeDef.writeFields ⟨fields, constraints, description⟩).conditions "constraints" =
          .ok constraints := by
      apply conditions_of_lookup_listField _ given
      simp [TypeDef.writeFields]
    rw [TypeDef.readFields, Field.readIn_eq, readConstraints]
    simp [TypeDef.writeFields, Field.readAll, Field.readItems_writeAll fields fieldsLegible,
      label?, TypeDef.normal]

theorem Field.readItems_writeAll :
    (fields : List Field) → Field.AllLegible fields →
    Field.readItems (Field.writeAll fields) = .ok (Field.normalAll fields)
  | [], _ => by
    simp [Field.writeAll, Field.readItems, Field.normalAll]
  | field :: rest, legible => by
    rw [Field.writeAll, Field.readItems, Field.read_write field legible.1,
      ok_bind, Field.readItems_writeAll rest legible.2]
    rfl

theorem Field.read_write :
    (field : Field) → field.Legible → Field.read field.write = .ok field.normal
  | ⟨name, description, optional, type⟩, legible => by
    rw [Field.write, Field.read, DataType.readIn_eq]
    simp [DataType.ofValue_write _ type legible, label?, label, value, Field.normal]

end

mutual

theorem DataType.write_normal : (type : DataType) → type.normal.write = type.write
  | .reference target link => by simp [normal, write]
  | .inline definition => by
    rw [normal, write, write, TypeDef.writeFields_normal definition]

theorem TypeDef.writeFields_normal :
    (definition : TypeDef) → definition.normal.writeFields = definition.writeFields
  | ⟨fields, constraints, description⟩ => by
    rw [TypeDef.normal, TypeDef.writeFields, TypeDef.writeFields, Field.writeAll_normalAll fields,
      Label.field_kept]

theorem Field.writeAll_normalAll :
    (fields : List Field) → Field.writeAll (Field.normalAll fields) = Field.writeAll fields
  | [] => by simp [Field.normalAll]
  | field :: rest => by
    rw [Field.normalAll, Field.writeAll, Field.writeAll, Field.write_normal field,
      Field.writeAll_normalAll rest]

theorem Field.write_normal : (field : Field) → field.normal.write = field.write
  | ⟨name, description, optional, type⟩ => by
    rw [Field.normal, Field.write, Field.write, DataType.write_normal type, Label.field_kept,
      presentField_kept "optional" optional rfl]

end

theorem Field.map_name_normalAll (fields : List Field) :
    (Field.normalAll fields).map (·.name) = fields.map (·.name) := by
  induction fields with
  | nil => simp [Field.normalAll]
  | cons field rest ih =>
    obtain ⟨name, description, optional, type⟩ := field
    simp [Field.normalAll, Field.normal, ih]

mutual

theorem DataType.validate_normal :
    (type : DataType) → type.validate types = .ok () → type.normal.validate types = .ok ()
  | .reference target link, valid => by
    obtain ⟨known, -⟩ := (validate_reference target link).mp valid
    exact (validate_reference target .null).mpr ⟨known, by simp⟩
  | .inline definition, valid => by
    rw [normal, validate_inline]
    exact TypeDef.validate_normal definition ((validate_inline definition).mp valid)

theorem TypeDef.validate_normal :
    (definition : TypeDef) → definition.validate types = .ok () →
    definition.normal.validate types = .ok ()
  | ⟨fields, constraints, description⟩, valid => by
    obtain ⟨fieldsValid, nodup⟩ := (TypeDef.validate_eq_ok _).mp valid
    rw [TypeDef.normal, TypeDef.validate_eq_ok]
    exact ⟨Field.validate_normalAll fields fieldsValid, (Field.map_name_normalAll fields).symm ▸
      nodup⟩

theorem Field.validate_normalAll :
    (fields : List Field) → (∀ field ∈ fields, field.type.validate types = .ok ()) →
    ∀ field ∈ Field.normalAll fields, field.type.validate types = .ok ()
  | [], _ => by simp [Field.normalAll]
  | ⟨name, description, optional, type⟩ :: rest, valid => by
    rw [Field.normalAll, Field.normal, forall_mem_cons]
    rw [forall_mem_cons] at valid
    exact ⟨DataType.validate_normal type valid.1, Field.validate_normalAll rest valid.2⟩

end

/-- A type as it is left where the target of a link is written beside it. -/
def DataType.normalLinked (type : DataType) : DataType :=
  type.normal.linked (type.link.kept .null)

@[simp] theorem DataType.write_normalLinked (type : DataType) :
    type.normalLinked.write = type.write := by
  rw [normalLinked, write_linked, write_normal]

@[simp] theorem DataType.presentField_link_normalLinked (key : String) (type : DataType) :
    presentField key type.normalLinked.link = presentField key type.link := by
  cases type with
  | reference target link => exact presentField_kept key link rfl
  | inline definition => simp [normalLinked, normal, linked, link]

theorem DataType.validate_normalLinked (type : DataType) (valid : type.validate types = .ok ()) :
    type.normalLinked.validate types = .ok () := by
  cases type with
  | reference target link =>
    obtain ⟨known, linked⟩ := (validate_reference target link).mp valid
    refine (validate_reference target _).mpr ⟨known, fun present => linked ?_⟩
    rintro rfl
    exact present rfl
  | inline definition => exact validate_normal _ valid

/-! ## Data types, bindings and parameters -/

/-- A data type as it is left after writing. -/
def NamedTypeDef.normal (type : NamedTypeDef) : NamedTypeDef :=
  { type with definition := type.definition.normal }

theorem NamedTypeDef.read_write (type : NamedTypeDef) (legible : type.definition.Legible) :
    NamedTypeDef.read type.write = .ok type.normal := by
  obtain ⟨name, definition⟩ := type
  have skipped : TypeDef.readFields (("name", name) :: definition.writeFields) =
      TypeDef.readFields definition.writeFields := by
    simp [TypeDef.readFields, Field.readIn, label?, conditions, parts]
  simp [NamedTypeDef.write, NamedTypeDef.read, skipped,
    TypeDef.readFields_writeFields definition legible, Doc.get, NamedTypeDef.normal]

theorem NamedTypeDef.write_normal (type : NamedTypeDef) : type.normal.write = type.write := by
  simp [NamedTypeDef.write, NamedTypeDef.normal, TypeDef.writeFields_normal]

/-- A binding as it is left after writing. -/
def InputBinding.normal (binding : InputBinding) : InputBinding :=
  { binding with type := binding.type.normal }

/-- A shared binding as it is left after writing. -/
def NamedBinding.normal (binding : NamedBinding) : NamedBinding :=
  { binding with type := binding.type.normal }

theorem NamedBinding.read_write (binding : NamedBinding) (legible : binding.type.Legible) :
    NamedBinding.read binding.write = .ok binding.normal := by
  simp [NamedBinding.write, NamedBinding.read, Part.fieldsOf, InputBinding.read, DataType.read,
    DataType.readIn_eq, label, value, DataType.ofValue_write _ _ legible,
    NamedBinding.normal]

theorem NamedBinding.write_normal (binding : NamedBinding) :
    binding.normal.write = binding.write := by
  simp [NamedBinding.write, NamedBinding.normal, DataType.write_normal]

/-- The source of a parameter as it is left after writing. -/
def Parameter.Source.normal : Parameter.Source → Parameter.Source
  | .shared id => .shared id
  | .inline binding => .inline binding.normal
  | .own binding => .inline binding.normal

/-- A parameter as it is left after writing: whether it is optional is a truth value. -/
def Parameter.normal (parameter : Parameter) : Parameter :=
  { source := parameter.source.normal
    optional := .bool parameter.optional.isTruthy
    description := Label.kept parameter.description }

theorem Parameter.read_write (parameter : Parameter) (legible : parameter.source.Legible) :
    Parameter.read parameter.write = .ok parameter.normal := by
  obtain ⟨source, optional, description⟩ := parameter
  cases source with
  | shared id =>
    cases present : optional.isTruthy <;>
      simp [Parameter.write, Parameter.read, Parameter.Source.writeFields, Part.fieldsOf, label?,
        value, present, Parameter.normal, Parameter.Source.normal]
  | inline binding =>
    cases present : optional.isTruthy <;>
      simp [Parameter.write, Parameter.read, Parameter.Source.writeFields, Part.fieldsOf,
        InputBinding.read, DataType.read, DataType.readIn_eq, label, label?, value, present,
        DataType.ofValue_write _ _ legible, Parameter.normal, Parameter.Source.normal,
        InputBinding.normal]
  | own binding => exact absurd legible not_false

theorem Parameter.write_normal (parameter : Parameter) :
    parameter.normal.write = parameter.write := by
  obtain ⟨source, optional, description⟩ := parameter
  cases source <;> cases present : optional.isTruthy <;>
    simp [Parameter.write, Parameter.normal, Parameter.Source.normal, present,
      Parameter.Source.writeFields, InputBinding.normal, DataType.write_normal]

theorem Parameter.validate_normal (parameter : Parameter)
    (valid : parameter.validate types bindings = .ok ()) :
    parameter.normal.validate types bindings = .ok () := by
  obtain ⟨source, optional, description⟩ := parameter
  rw [Parameter.validate_eq_ok] at valid ⊢
  cases source with
  | shared id => exact valid
  | inline binding => exact DataType.validate_normal _ valid
  | own binding => exact DataType.validate_normal _ valid

/-! ## Inputs and outputs -/

/-- An input as it is left after writing. -/
def Input.normal (input : Input) : Input :=
  { contentType := input.contentType
    description := Label.kept input.description
    params := input.params.map Parameter.normal
    type := input.type.map DataType.normal }

@[simp] theorem DataType.lookup_field (key : String) (type : Option DataType) :
    (field type).lookup key = if key == "type" then type.map write else none := by
  cases type <;> simp [field]
  split <;> simp_all

theorem DataType.read?_of_lookup {part : Fields} {type : Option DataType}
    (found : part.lookup "type" = type.map write)
    (legible : ∀ given, type = some given → given.Legible) :
    read? part =
      .ok (type.map fun given => given.normal.linked (part.value "ref" .null)) := by
  unfold read? read
  rw [readIn_eq, found]
  cases type with
  | none => rfl
  | some given => simp [ofValue_write part given (legible given rfl)]

theorem Input.read_write (input : Input) (legible : input.Legible) :
    Input.read (.object input.writeFields) = .ok input.normal := by
  have readParams : input.writeFields.parts "params" Parameter.read =
      .ok (input.params.map Parameter.normal) :=
    parts_of_lookup_listField _ _ (by simp [Input.writeFields]) fun parameter member =>
      parameter.read_write (legible.params parameter member)
  have found : input.writeFields.lookup "type" = input.type.map DataType.write := by
    simp [Input.writeFields]
  have readType := DataType.read?_of_lookup found legible.type
  have noTarget : input.writeFields.value "ref" .null = .null := by
    simp [value, Input.writeFields]
  have readContent : input.writeFields.texts "contentType" = input.contentType :=
    texts_of_lookup_textsField (by simp [Input.writeFields])
  have readDescription : input.writeFields.label? "description" = Label.kept input.description := by
    simp [label?, Input.writeFields]
  simp [Input.read, Part.fieldsOf, readParams, readType, noTarget, readContent, readDescription,
    Input.normal]

theorem Input.writeFields_normal (input : Input) :
    input.normal.writeFields = input.writeFields := by
  obtain ⟨contentType, description, params, type⟩ := input
  cases type <;>
    simp [Input.writeFields, Input.normal, Parameter.write_normal, DataType.field,
      DataType.write_normal, Function.comp_def]

theorem Input.validate_normal (input : Input) (valid : input.validate types bindings = .ok ()) :
    input.normal.validate types bindings = .ok () := by
  obtain ⟨typeValid, paramsValid⟩ := (Input.validate_eq_ok input).mp valid
  refine (Input.validate_eq_ok _).mpr ⟨?_, ?_⟩
  · intro type found
    obtain ⟨given, givenFound, rfl⟩ := Option.map_eq_some_iff.mp found
    exact given.validate_normal (typeValid given givenFound)
  · exact forall_mem_map.mpr fun given member => given.validate_normal (paramsValid given member)

/-- A header as it is left after writing. -/
def Header.normal (header : Header) : Header :=
  { name := header.name
    description := Label.kept header.description
    type := header.type.normalLinked }

theorem Header.read_write (header : Header) (legible : header.type.Legible) :
    Header.read header.write = .ok header.normal := by
  simp [Header.write, Header.read, Part.fieldsOf, DataType.read, DataType.readIn_eq, label,
    label?, value, DataType.ofValue_write _ _ legible, Header.normal,
    DataType.normalLinked]

theorem Header.write_normal (header : Header) : header.normal.write = header.write := by
  simp [Header.write, Header.normal]

/-- An output as it is left after writing. -/
def Output.normal (output : Output) : Output :=
  { status := output.status
    contentType := output.contentType
    description := Label.kept output.description
    type := output.type.map normalLinked
    headers := output.headers.map Header.normal }

@[simp] theorem Output.lookup_type_typeFields (type : Option DataType) :
    (typeFields type).lookup "type" = type.map write := by
  cases type <;> simp [typeFields]

@[simp] theorem Output.lookup_ref_typeFields (type : Option DataType) :
    (typeFields type).lookup "ref" =
      type.bind fun given => if given.link.isTruthy then some given.link else none := by
  cases type <;> simp [typeFields]

theorem Output.lookup_typeFields_of_ne (type : Option DataType) (notType : (key == "type") = false)
    (notTarget : (key == "ref") = false) :
    (typeFields type).lookup key = none := by
  cases type <;> simp [typeFields, notType, notTarget]

theorem Output.read_write (output : Output) (legible : output.Legible) :
    read (.object output.writeFields) = .ok output.normal := by
  obtain ⟨status, contentType, type, headers, description⟩ := output
  obtain ⟨types, rfl⟩ := Option.isSome_iff_exists.mp legible.contentType
  generalize written : writeFields ⟨status, some types, type, headers, description⟩ = fields
  have lookups (key : String) : fields.lookup key =
      (([("status", status), ("contentType", list (types.map .text))].lookup key).or
        ((typeFields type).lookup key)).or
        (((Label.field "description" description).lookup key).or
          ((listField "headers" (headers.map Header.write)).lookup key)) := by
    rw [← written, writeFields]
    simp only [lookup_append, Option.or_assoc]
  have readStatus : fields.requiredValue "status" = .ok status := by
    simp [requiredValue, lookups]
  have readContent : fields.texts "contentType" = types := by
    have worded : words ∘ text = id := rfl
    simp [texts, lookups, worded]
  have readType : read? fields = .ok (type.map normalLinked) := by
    rw [read?_of_lookup (by simp [lookups]) legible.type]
    cases type <;> simp [value, lookups, normalLinked]
  have readHeaders : fields.parts "headers" Header.read = .ok (headers.map Header.normal) := by
    apply parts_of_lookup_listField _ _ _
      (fun header member => header.read_write (legible.headers header member))
    rw [lookups, lookup_typeFields_of_ne type rfl rfl]
    simp
  have readDescription : fields.label? "description" = Label.kept description := by
    rw [label?, lookups, lookup_typeFields_of_ne type rfl rfl]
    simp
  simp [read, Part.fieldsOf, readStatus, readContent, readType, readHeaders, readDescription,
    normal]

theorem Output.writeFields_normal (output : Output) :
    output.normal.writeFields = output.writeFields := by
  obtain ⟨status, contentType, type, headers, description⟩ := output
  cases type <;>
    simp [writeFields, normal, typeFields, Header.write_normal, Function.comp_def]

theorem Output.validate_normal (output : Output) (valid : output.validate types = .ok ()) :
    output.normal.validate types = .ok () := by
  rw [validate_eq_ok] at valid ⊢
  intro type found
  obtain ⟨given, givenFound, rfl⟩ := Option.map_eq_some_iff.mp found
  exact given.validate_normalLinked (valid given givenFound)

/-! ## Operations -/

theorem foldl_setError_of_nodup (errors known : List (Int × Label))
    (nodup : ((known ++ errors).map Prod.fst).Nodup) :
    errors.foldl (fun known error => setError known error.1 error.2) known = known ++ errors := by
  induction errors generalizing known with
  | nil => simp
  | cons error rest ih =>
    obtain ⟨status, cause⟩ := error
    have fresh : ∀ other ∈ known, other.1 ≠ status := by
      intro other member equal
      rw [map_append, nodup_append] at nodup
      exact nodup.2.2 other.1 (mem_map_of_mem member) status (by simp) equal
    have added : setError known status cause = known ++ [(status, cause)] := by
      clear ih nodup
      induction known with
      | nil => rfl
      | cons first others ihKnown =>
        obtain ⟨number, old⟩ := first
        have different : number ≠ status := fresh (number, old) (by simp)
        simp [setError, different, ihKnown fun other member => fresh other (by simp [member])]
    rw [foldl_cons, added, ih (known ++ [(status, cause)]) (by simpa using nodup)]
    simp

theorem readError_writeError (error : Int × Label) : readError (writeError error) = .ok error := by
  simp [writeError, readError, Doc.get, statusNumber]

/-- An input as it is left in an operation: one that says nothing is not written. -/
def Input.kept (input : Option Input) : Option Input :=
  input.bind fun given => if given.writeFields.isEmpty then none else some given.normal

/-- An operation as it is left after writing. -/
def Operation.normal (operation : Operation) : Operation :=
  { operation with
    description := Label.kept operation.description
    input := Input.kept operation.input
    output := operation.output.map Output.normal }

@[simp] theorem lookup_partField (key name : String) (fields : Fields) :
    (partField name fields).lookup key =
      if key == name then if fields.isEmpty then none else some (.object fields) else none := by
  cases equal : key == name <;> by_cases empty : fields = [] <;>
    simp [partField, equal, empty]

@[simp] theorem lookup_elim_partField (key name : String) (part : Option α) (fields : α → Fields) :
    (part.elim [] fun given => partField name (fields given)).lookup key =
      if key == name then
        part.bind fun given => if (fields given).isEmpty then none
          else some (.object (fields given))
      else none := by
  cases part <;> simp

@[simp] theorem lookup_elim_singleton (key name : String) (part : Option α) (write : α → Doc) :
    (part.elim [] fun given => [(name, write given)]).lookup key =
      if key == name then part.map write else none := by
  cases part with
  | none => simp
  | some given => cases equal : key == name <;> simp [equal]

theorem Operation.read_write_of_output {operation : Operation} {image : Output → Output}
    (legible : Operation.Legible { operation with output := none })
    (outputs : ∀ output, operation.output = some output →
      Output.read (.object output.writeFields) = .ok (image output)) :
    Operation.read operation.write =
      .ok { operation.normal with output := operation.output.map image } := by
  obtain ⟨name, method, description, input, output, errors, requires, ensures⟩ := operation
  obtain ⟨fields, written⟩ : ∃ fields : Fields, Operation.write
      ⟨name, method, description, input, output, errors, requires, ensures⟩ = .object fields :=
        ⟨_, rfl⟩
  rw [written]
  rw [Operation.write, object.injEq] at written
  have readInput : fields.part "input" Input.read = .ok (Input.kept input) := by
    unfold part
    rw [← written]
    cases input with
    | none => simp [Input.kept]
    | some given =>
      by_cases empty : given.writeFields = [] <;>
        simp [empty, Input.kept, given.read_write (legible.input given rfl)]
  have readOutput : fields.part "output" Output.read = .ok (output.map image) := by
    unfold part
    rw [← written]
    cases output with
    | none => simp
    | some given =>
      have notEmpty : given.writeFields ≠ [] := by simp [writeFields]
      simp [notEmpty, outputs given rfl]
  have readErrors : fields.parts "errors" readError = .ok (errors.map id) :=
    parts_of_lookup_listField _ _ (by simp [← written]) fun error _ => readError_writeError error
  have readRequires : fields.conditions "requires" = .ok requires :=
    conditions_of_lookup_listField (by simp [← written]) legible.requires
  have readEnsures : fields.conditions "ensures" = .ok ensures :=
    conditions_of_lookup_listField (by simp [← written]) legible.ensures
  have setErrors := foldl_setError_of_nodup errors [] legible.errors
  have readName : fields.label "name" = .ok name := by
    simp [label, ← written]
  have readMethod : fields.label "method" = .ok method := by
    simp [label, ← written]
  have readDescription : fields.label? "description" = Label.kept description := by
    simp [label?, ← written]
  simp only [nil_append] at setErrors
  simp [Operation.read, Part.fieldsOf, readName, readMethod, readDescription, readInput,
    readOutput, readErrors, setErrors, readRequires, readEnsures, Operation.normal]

theorem Operation.read_write (operation : Operation) (legible : operation.Legible) :
    Operation.read operation.write = .ok operation.normal :=
  Operation.read_write_of_output ⟨legible.input, by
    simp, legible.errors, legible.requires, legible.ensures⟩
    fun output given => output.read_write (legible.output output given)

theorem Operation.write_normal (operation : Operation) :
    operation.normal.write = operation.write := by
  obtain ⟨name, method, description, input, output, errors, requires, ensures⟩ := operation
  have inputWritten :
      ((Input.kept input).elim [] fun input => partField "input" input.writeFields) =
      input.elim [] fun input => partField "input" input.writeFields := by
    cases input with
    | none => rfl
    | some given =>
      by_cases empty : given.writeFields = [] <;>
        simp [Input.kept, empty, partField, Input.writeFields_normal]
  have outputWritten :
      ((output.map Output.normal).elim [] fun output => partField "output" output.writeFields) =
        output.elim [] fun output => partField "output" output.writeFields := by
    cases output <;> simp [Output.writeFields_normal]
  simp [Operation.write, Operation.normal, inputWritten, outputWritten]

theorem Operation.validate_normal (operation : Operation)
    (written : enclosesEntity operation.method → ∀ input, operation.input = some input →
      input.writeFields ≠ []) (valid : operation.validate types bindings = .ok ()) :
    operation.normal.validate types bindings = .ok () := by
  obtain ⟨needed, inputValid, ⟨output, found, outputValid⟩, requiresValid, ensuresValid⟩ :=
    (Operation.validate_eq_ok operation).mp valid
  refine (Operation.validate_eq_ok _).mpr ⟨?_, ?_, ?_, requiresValid, ensuresValid⟩
  · intro entity
    obtain ⟨input, given⟩ := Option.isSome_iff_exists.mp (needed entity)
    simp [Operation.normal, Input.kept, given, written entity input given]
  · intro input given
    obtain ⟨original, originalGiven, kept⟩ := Option.bind_eq_some_iff.mp given
    split at kept
    · cases kept
    · cases kept
      exact original.validate_normal (inputValid original originalGiven)
  · exact ⟨output.normal, by simp [Operation.normal, found], output.validate_normal outputValid⟩

/-! ## Resources and the rest of a description -/

/-- A resource as it is left after writing. -/
def Resource.normal (resource : Resource) : Resource :=
  { resource with
    operations := resource.operations.map Operation.normal
    bindings := resource.bindings.map NamedBinding.normal }

theorem Resource.read_write_of_operations {resource : Resource} {image : Operation → Operation}
    (legible : ∀ binding ∈ resource.bindings, binding.type.Legible)
    (each : ∀ operation ∈ resource.operations,
      Operation.read operation.write = .ok (image operation)) :
    Resource.read resource.write =
      .ok { resource.normal with operations := resource.operations.map image } := by
  obtain ⟨name, path, operations, bindings⟩ := resource
  obtain ⟨fields, written⟩ : ∃ fields : Doc.Fields,
      Resource.write ⟨name, path, operations, bindings⟩ = .object fields := ⟨_, rfl⟩
  rw [written]
  rw [Resource.write, Doc.object.injEq] at written
  have readName : fields.label "name" = .ok name := by
    simp [label, ← written]
  have readPath : fields.label "path" = .ok path := by
    simp [label, ← written]
  have found : (Doc.object fields).get "operations" =
      .ok (.list (operations.map Operation.write)) := by
    simp [Doc.get, ← written]
  have readOperations : (operations.map Operation.write).mapM Operation.read =
      .ok (operations.map image) :=
    mapM_map_of_forall each
  have readBindings : fields.parts "inputBindings" NamedBinding.read =
      .ok (bindings.map NamedBinding.normal) :=
    parts_of_lookup_listField _ _ (by simp [← written]) fun binding member =>
      binding.read_write (legible binding member)
  simp [Resource.read, Part.fieldsOf, readName, readPath, found, Doc.elements, readOperations,
    readBindings, Resource.normal]

theorem Resource.read_write (resource : Resource) (legible : resource.Legible) :
    Resource.read resource.write = .ok resource.normal :=
  Resource.read_write_of_operations legible.bindings fun operation member =>
    operation.read_write (legible.operations operation member)

theorem Resource.write_normal (resource : Resource) : resource.normal.write = resource.write := by
  have bindings : NamedBinding.write ∘ NamedBinding.normal = NamedBinding.write :=
    funext NamedBinding.write_normal
  have operations : Operation.write ∘ Operation.normal = Operation.write :=
    funext Operation.write_normal
  simp [Resource.write, Resource.normal, bindings, operations]

/-- The operations of a resource that need an input have one that is written. -/
def Resource.WritesInputs (resource : Resource) : Prop :=
  ∀ operation ∈ resource.operations, enclosesEntity operation.method →
    ∀ input, operation.input = some input → input.writeFields ≠ []

theorem Resource.validate_normal (resource : Resource) (written : resource.WritesInputs)
    (valid : resource.validate types = .ok ()) :
    resource.normal.validate types = .ok () := by
  obtain ⟨bindingsValid, operationsValid, unique⟩ := (Resource.validate_eq_ok resource).mp valid
  refine (Resource.validate_eq_ok _).mpr ⟨?_, ?_, ?_⟩
  · exact forall_mem_map.mpr fun binding member =>
      DataType.validate_normal _ (bindingsValid binding member)
  · have ids : (resource.bindings.map NamedBinding.normal).map (·.id) =
        resource.bindings.map (·.id) := by simp [NamedBinding.normal, Function.comp_def]
    rw [Resource.normal, ids]
    exact forall_mem_map.mpr fun operation member =>
      operation.validate_normal (written operation member) (operationsValid operation member)
  · simpa [Resource.normal, Operation.normal, Function.comp_def] using unique

theorem Owner.read_write (owner : Owner) : Owner.read owner.write = .ok owner := by
  simp [Owner.read, Owner.write, Part.fieldsOf, label]

theorem CostModel.read_write (cost : CostModel) : CostModel.read cost.write = .ok cost := by
  simp [CostModel.read, CostModel.write, Part.fieldsOf, label, requiredValue]

/-- A service level as it is left after writing. -/
def ServiceLevel.normal (level : ServiceLevel) : ServiceLevel :=
  { level with
    description := Label.kept level.description
    availability := level.availability.kept (.float 0.0)
    rateLimit := level.rateLimit.kept (.int 0) }

theorem ServiceLevel.read_write (level : ServiceLevel) (legible : level.Legible) :
    ServiceLevel.read level.write = .ok level.normal := by
  obtain ⟨name, description, availability, rateLimit, timeUnit, costModel⟩ := level
  obtain ⟨given, rfl⟩ := Option.isSome_iff_exists.mp legible.name
  have unit : timeUnit.isSome = rateLimit.isTruthy := legible.timeUnit
  cases limited : rateLimit.isTruthy <;> cases timeUnit <;> simp [limited] at unit <;>
    cases costModel <;>
    simp [ServiceLevel.read, ServiceLevel.write, Part.fieldsOf, label, label?,
      value, part, limited, ServiceLevel.normal, kept, CostModel.read_write]

theorem ServiceLevel.write_normal (level : ServiceLevel) : level.normal.write = level.write := by
  have available : presentField "availability" (level.availability.kept (.float 0.0)) =
      presentField "availability" level.availability := presentField_kept _ _ rfl
  have limit : level.rateLimit.kept (.int 0) = if level.rateLimit.isTruthy then level.rateLimit
    else .int 0 := rfl
  cases limited : level.rateLimit.isTruthy <;>
    simp [ServiceLevel.write, ServiceLevel.normal, available, limit, limited]

/-- A version as it is left after writing. -/
def Version.normal (version : Version) : Version :=
  { version with strategy := Label.kept version.strategy }

theorem Version.read_write (version : Version) (given : version.id.isSome) :
    Version.read version.write = .ok version.normal := by
  obtain ⟨id, strategy⟩ := version
  obtain ⟨id, rfl⟩ := Option.isSome_iff_exists.mp given
  simp [Version.read, Version.write, Part.fieldsOf, label, label?, Version.normal]

theorem Version.write_normal (version : Version) : version.normal.write = version.write := by
  simp [Version.write, Version.normal]

/-- A description as it is left after writing. -/
def Api.normal (api : Api) : Api :=
  { api with
    description := Label.kept api.description
    license := Label.kept api.license
    community := Label.kept api.community
    resources := api.resources.map Resource.normal
    dataTypes := api.dataTypes.map NamedTypeDef.normal
    serviceLevels := api.serviceLevels.map ServiceLevel.normal
    version := api.version.map Version.normal }

theorem Api.readParts_write_of_parts {api : Api} {resourceImage : Resource → Resource}
    {levelImage : ServiceLevel → ServiceLevel} {versionImage : Version → Version}
    (eachResource : ∀ resource ∈ api.resources,
      Resource.read resource.write = .ok (resourceImage resource))
    (legible : ∀ type ∈ api.dataTypes, type.definition.Legible)
    (eachLevel : ∀ level ∈ api.serviceLevels,
      ServiceLevel.read level.write = .ok (levelImage level))
    (readGiven : ∀ version, api.version = some version →
      Version.read version.write = .ok (versionImage version)) :
    Api.readParts api.write = .ok { api.normal with
        resources := api.resources.map resourceImage
        serviceLevels := api.serviceLevels.map levelImage
        version := api.version.map versionImage } := by
  obtain ⟨name, description, base, categories, tags, license, community, resources, dataTypes,
    ownership, serviceLevels, version⟩ := api
  obtain ⟨fields, written⟩ :
      ∃ fields : Fields, Api.write ⟨name, description, base, categories, tags, license, community,
      resources, dataTypes, ownership, serviceLevels, version⟩ = .object fields := ⟨_, rfl⟩
  rw [written]
  rw [Api.write, object.injEq] at written
  have readName : fields.label "name" = .ok name := by
    simp [label, ← written]
  have readDescription : fields.label? "description" = Label.kept description := by
    simp [label?, ← written]
  have readLicense : fields.label? "license" = Label.kept license := by
    simp [label?, ← written]
  have readCommunity : fields.label? "community" = Label.kept community := by
    simp [label?, ← written]
  have readBase : fields.texts "base" = base := texts_of_lookup_textsField (by simp [← written])
  have readCategories : fields.texts "categories" = categories :=
    texts_of_lookup_textsField (by simp [← written])
  have readTags : fields.texts "tags" = tags := texts_of_lookup_textsField (by simp [← written])
  have readResources : fields.parts "resources" Resource.read =
      .ok (resources.map resourceImage) := by
    have found : fields.lookup "resources" = some (.list (resources.map Resource.write)) := by
      simp [← written]
    rw [parts, found]
    exact mapM_map_of_forall eachResource
  have readTypes : fields.parts "dataTypes" NamedTypeDef.read =
      .ok (dataTypes.map NamedTypeDef.normal) :=
    parts_of_lookup_listField _ _ (by simp [← written]) fun type member =>
      type.read_write (legible type member)
  have readOwnership : fields.parts "ownership" Owner.read = .ok (ownership.map id) :=
    parts_of_lookup_listField _ _ (by simp [← written]) fun owner _ => owner.read_write
  have readLevels : fields.parts "sla" ServiceLevel.read = .ok (serviceLevels.map levelImage) :=
    parts_of_lookup_listField _ _ (by simp [← written]) eachLevel
  have readVersion : fields.part "version" Version.read = .ok (version.map versionImage) := by
    have found : fields.lookup "version" = version.map Version.write := by
      simp [← written]
    rw [part, found]
    cases version with
    | none => rfl
    | some given => simp [readGiven given rfl]
  simp [Api.readParts, Part.fieldsOf, readName, readDescription, readBase, readCategories, readTags,
    readLicense, readCommunity, readResources, readTypes, readOwnership, readLevels, readVersion,
    Api.normal]

theorem Api.readParts_write (api : Api) (legible : api.Legible) :
    Api.readParts api.write = .ok api.normal :=
  Api.readParts_write_of_parts (fun resource member =>
    resource.read_write (legible.resources resource member)) legible.dataTypes
    (fun level member => level.read_write (legible.serviceLevels level member))
    fun version given => version.read_write (legible.version version given)

theorem Api.write_normal (api : Api) : api.normal.write = api.write := by
  have resources : Resource.write ∘ Resource.normal = Resource.write :=
    funext Resource.write_normal
  have dataTypes : NamedTypeDef.write ∘ NamedTypeDef.normal = NamedTypeDef.write :=
    funext NamedTypeDef.write_normal
  have levels : ServiceLevel.write ∘ ServiceLevel.normal = ServiceLevel.write :=
    funext ServiceLevel.write_normal
  cases given : api.version <;>
    simp [Api.write, Api.normal, resources, dataTypes, levels, given, Version.write_normal]

theorem Api.validate_normal (api : Api)
    (written : ∀ resource ∈ api.resources, resource.WritesInputs) (valid : api.validate = .ok ()) :
    api.normal.validate = .ok () := by
  obtain ⟨unique, typesValid, resourcesValid⟩ := (Api.validate_eq_ok api).mp valid
  have names : api.normal.dataTypes.map (·.name) = api.dataTypes.map (·.name) := by
    simp [Api.normal, NamedTypeDef.normal, Function.comp_def]
  rw [Api.validate_eq_ok, names]
  exact ⟨unique, forall_mem_map.mpr fun type member =>
    TypeDef.validate_normal _ (typesValid type member), forall_mem_map.mpr fun resource member =>
      resource.validate_normal (written resource member) (resourcesValid resource member)⟩

/-! ## Writing what was read -/

/-- A complete document that is accepted, where every operation that needs an input has one that is
written, is brought to a normal form: what is written is accepted again and is written the same. -/
theorem Api.write_stable {document : Doc} {api : Api} (accepted : Api.ofDoc document = .ok api)
    (complete : document.Complete)
    (inputs : ∀ resource ∈ api.resources, resource.WritesInputs) :
    ∃ again, Api.ofDoc api.write = .ok again ∧ again.write = api.write := by
  obtain ⟨readParts, valid⟩ := Api.ofDoc_eq_ok.mp accepted
  have legible := Api.legible_of_readParts complete readParts
  refine ⟨api.normal, ?_, api.write_normal⟩
  simp [Api.ofDoc, api.readParts_write legible, api.validate_normal inputs valid]

/-- A shop with a nested record type, a malformed container, a status that is given twice and single
values in place of lists and texts. -/
def Doc.shop : Doc :=
  .object [("name", .list ["shop", .int 1]), ("base", "/"),
    ("resources", .list [.object [("name", "orders"), ("path", "/orders"),
      ("operations", .list [.object [("name", "place"), ("method", "POST"),
        ("input", .object [("type", .object [("fields", .list [.object [("name", "item"),
          ("type", "list(string?"), ("optional", .int 1)]])])]),
        ("output", .object [("status", .int 201)]),
        ("errors", .list [.object [("status", "404"), ("cause", "none")],
          .object [("status", .int 404), ("cause", "gone")]])]])]])]

def Api.shop : Api :=
  { name := .texts ["shop", "1"], base := ["/"]
    resources := [
      { name := "orders", path := "/orders"
        operations := [
          { name := "place", method := "POST", input := some
              { type := some (.inline ⟨[⟨"item", none, .int 1,
                  .reference (.container .list (.primitive .string)) .null⟩], [], none⟩) }
            output := some { status := .int 201 }, errors := [(404, "gone")] }] }] }

theorem Api.shop_write_stable :
    Api.ofDoc Doc.shop = .ok Api.shop ∧
      ∃ again, Api.ofDoc Api.shop.write = .ok again ∧ again.write = Api.shop.write := by
  have accepted : Api.ofDoc Doc.shop = .ok Api.shop := by cbv
  have complete : Doc.shop.Complete :=
    { version := by simp [Doc.shop, Doc.get, List.lookup]
      outputs := by simp [Doc.shop, Doc.entries, Doc.get, List.lookup, Doc.elements,
        Except.toOption]
      serviceLevels := by simp [Doc.shop, Doc.entries, Doc.get, List.lookup] }
  have inputs : ∀ resource ∈ Api.shop.resources, resource.WritesInputs := by
    simp [Api.shop, Resource.WritesInputs, Input.writeFields, DataType.field]
  exact ⟨accepted, Api.write_stable accepted complete inputs⟩

end ApiDescription
