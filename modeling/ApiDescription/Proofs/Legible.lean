import ApiDescription.Proofs.Checks
import ApiDescription.Proofs.TypeNames

/-!
# Legible parts

Parts that are read from a document are of a special kind: their references are canonical, none of
their conditions is absent, every status has one cause.  A part of this kind is legible: what is
written for it can be read again.  This module says what it takes for each kind of part and that
reading gives nothing else.

An absent output, service level or version can be read, but is written as a part that says `null`;
the last statements leave these out.
-/

namespace ApiDescription

open Outcome Doc.Fields DataType Operation

variable {fields : Doc.Fields} {key : String} {document : Doc}

mutual

/-- A type whose references are canonical at every depth. -/
def DataType.Legible : DataType → Prop
  | .reference target _ => target.Canonical
  | .inline definition => definition.Legible

/-- A record type with legible fields and no absent constraint. -/
def TypeDef.Legible : TypeDef → Prop
  | ⟨fields, constraints, _⟩ =>
    Field.AllLegible fields ∧ ∀ constraint ∈ constraints, constraint.isSome

def Field.AllLegible : List Field → Prop
  | [] => True
  | field :: rest => field.Legible ∧ Field.AllLegible rest

def Field.Legible : Field → Prop
  | ⟨_, _, _, type⟩ => type.Legible

end

def Parameter.Source.Legible : Parameter.Source → Prop
  | .shared _ => True
  | .inline binding => binding.type.Legible
  | .own _ => False

structure Input.Legible (input : Input) : Prop where
  params : ∀ parameter ∈ input.params, parameter.source.Legible
  type : ∀ type, input.type = some type → type.Legible

structure Output.Legible (output : Output) : Prop where
  contentType : output.contentType.isSome
  type : ∀ type, output.type = some type → type.Legible
  headers : ∀ header ∈ output.headers, header.type.Legible

/-- An operation of legible parts whose conditions are given and whose statuses differ. -/
structure Operation.Legible (operation : Operation) : Prop where
  input : ∀ input, operation.input = some input → input.Legible
  output : ∀ output, operation.output = some output → output.Legible
  errors : (operation.errors.map Prod.fst).Nodup
  requires : ∀ condition ∈ operation.requires, condition.isSome
  ensures : ∀ condition ∈ operation.ensures, condition.isSome

structure Resource.Legible (resource : Resource) : Prop where
  operations : ∀ operation ∈ resource.operations, operation.Legible
  bindings : ∀ binding ∈ resource.bindings, binding.type.Legible

structure ServiceLevel.Legible (level : ServiceLevel) : Prop where
  name : level.name.isSome
  timeUnit : level.timeUnit.isSome = level.rateLimit.isTruthy

/-- A description of legible parts. -/
structure Api.Legible (api : Api) : Prop where
  resources : ∀ resource ∈ api.resources, resource.Legible
  dataTypes : ∀ type ∈ api.dataTypes, type.definition.Legible
  serviceLevels : ∀ level ∈ api.serviceLevels, level.Legible
  version : ∀ version, api.version = some version → version.id.isSome

/-! ## Reading by look-up -/

theorem DataType.readIn_eq (part fields : Doc.Fields) :
    readIn part fields =
      match fields.lookup "type" with
      | some value => ofValue part value
      | none => .error (.missingKey "type") := by
  induction fields with
  | nil => simp [readIn]
  | cons field rest ih =>
    obtain ⟨key, value⟩ := field
    rw [readIn, List.lookup_cons]
    by_cases equal : key = "type"
    · simp [equal]
    · have different : ("type" == key) = false := by simpa using Ne.symm equal
      simp [equal, different, ih]

theorem Field.readIn_eq (fields : Doc.Fields) :
    Field.readIn fields =
      match fields.lookup "fields" with
      | some value => Field.readAll value
      | none => .error (.missingKey "fields") := by
  induction fields with
  | nil => simp [Field.readIn]
  | cons field rest ih =>
    obtain ⟨key, value⟩ := field
    rw [Field.readIn, List.lookup_cons]
    by_cases equal : key = "fields"
    · simp [equal]
    · have different : ("fields" == key) = false := by simpa using Ne.symm equal
      simp [equal, different, ih]

/-- The entries listed under a key of a document; none if nothing can be listed there. -/
def Doc.entries (document : Doc) (key : String) : List Doc :=
  match document.get key with
  | .ok value => (value.elements.toOption).getD []
  | .error _ => []

variable {α : Type} {part : Doc.Fields} {output : Output} {operation : Operation}
  {resource : Resource} {api : Api}

theorem Doc.Fields.exists_of_mem_parts {read : Doc → Except Fault α} {parts : List α}
    (success : fields.parts key read = .ok parts) :
    ∀ part ∈ parts, ∃ item ∈ (Doc.object fields).entries key, read item = .ok part := by
  intro part member
  unfold Doc.Fields.parts at success
  cases found : fields.lookup key with
  | none =>
    simp only [found, Except.ok.injEq] at success
    subst success
    cases member
  | some value =>
    simp only [found] at success
    obtain ⟨items, listed, readItems⟩ := bind_eq_ok.mp success
    obtain ⟨item, inItems, readItem⟩ := exists_of_mem_mapM readItems member
    exact ⟨item, by
      simpa [Doc.entries, Doc.get, found, listed, Except.toOption] using inItems, readItem⟩

theorem Doc.Fields.forall_of_parts {read : Doc → Except Fault α} {parts : List α} {Good : α → Prop}
    (success : fields.parts key read = .ok parts)
    (each : ∀ item part, read item = .ok part → Good part) :
    ∀ part ∈ parts, Good part := by
  intro part member
  obtain ⟨item, -, readItem⟩ := exists_of_mem_parts success part member
  exact each item part readItem

theorem Doc.Fields.isSome_of_conditions {conditions : List Condition}
    (success : fields.conditions key = .ok conditions) :
    ∀ condition ∈ conditions, condition.isSome :=
  forall_of_parts success (by rintro item _ ⟨⟩; rfl)

/-! ## Reading gives legible parts -/

/-- Everything that is read while a type is read is legible.  The induction follows the calls among
the readers: a field, the type in a part, a value as a type, a record type, and its list of
fields. -/
theorem readers_legible :
    (∀ document field, Field.read document = .ok field → field.Legible) ∧
    (∀ part fields type, readIn part fields = .ok type → type.Legible) ∧
    (∀ part value type, ofValue part value = .ok type → type.Legible) ∧
    (∀ fields definition, TypeDef.readFields fields = .ok definition → definition.Legible) ∧
    (∀ fields read, Field.readIn fields = .ok read → Field.AllLegible read) ∧
    (∀ value read, Field.readAll value = .ok read → Field.AllLegible read) ∧
    (∀ items read, Field.readItems items = .ok read → Field.AllLegible read) := by
  apply Field.read.mutual_induct
  case case1 => simp [Field.read]
  case case2 =>
    intro fields ih field success
    rw [Field.read] at success
    obtain ⟨name, readName, success⟩ := bind_eq_ok.mp success
    obtain ⟨type, readType, ⟨⟩⟩ := bind_eq_ok.mp success
    exact ih type readType
  case case3 =>
    intro document notNull notObject
    simp [Field.read]
  case case4 => simp [readIn]
  case case5 =>
    intro part value rest ih
    simpa [readIn] using ih
  case case6 =>
    intro part key value rest different ih
    simpa [readIn, different] using ih
  case case7 =>
    intro part fields ih type success
    rw [ofValue] at success
    obtain ⟨definition, readDefinition, ⟨⟩⟩ := bind_eq_ok.mp success
    exact ih definition readDefinition
  case case8 =>
    intro part name notObject type success
    rw [ofValue] at success
    · cases success
      exact TypeRef.canonical_ofName notObject
    · exact notObject
  case case9 =>
    intro fields ih definition success
    rw [TypeDef.readFields] at success
    obtain ⟨read, readFields, success⟩ := bind_eq_ok.mp success
    obtain ⟨constraints, readConstraints, ⟨⟩⟩ := bind_eq_ok.mp success
    exact ⟨ih read readFields, isSome_of_conditions readConstraints⟩
  case case10 => simp [Field.readIn]
  case case11 =>
    intro value rest ih
    simpa [Field.readIn] using ih
  case case12 =>
    intro key value rest different ih
    simpa [Field.readIn, different] using ih
  case case13 =>
    intro items ih
    simpa [Field.readAll] using ih
  case case14 | case16 =>
    intro given empty
    simp [Field.readAll, empty, Field.AllLegible]
  case case15 | case17 =>
    intro given notEmpty
    simp [Field.readAll, notEmpty]
  case case18 =>
    intro value notList notObject notText
    simp [Field.readAll]
  case case19 => simp [Field.readItems, Field.AllLegible]
  case case20 =>
    intro item rest ihItem ihRest read success
    rw [Field.readItems] at success
    obtain ⟨field, readItem, success⟩ := bind_eq_ok.mp success
    obtain ⟨others, readRest, ⟨⟩⟩ := bind_eq_ok.mp success
    exact ⟨ihItem field readItem, ihRest others readRest⟩

theorem DataType.legible_of_read {type : DataType} (success : read part = .ok type) :
    type.Legible :=
  readers_legible.2.1 part part type success

theorem TypeDef.legible_of_readFields {definition : TypeDef}
    (success : TypeDef.readFields fields = .ok definition) : definition.Legible :=
  readers_legible.2.2.2.1 fields definition success

theorem DataType.legible_of_read? {found : Option DataType} (success : read? part = .ok found) :
    ∀ type, found = some type → type.Legible := by
  intro type equal
  subst equal
  unfold read? at success
  split at success
  · obtain ⟨value, readValue, equal⟩ := map_eq_ok.mp success
    cases equal
    exact legible_of_read readValue
  · cases success

theorem NamedTypeDef.legible_of_read {type : NamedTypeDef}
    (success : NamedTypeDef.read document = .ok type) :
    type.definition.Legible := by
  unfold NamedTypeDef.read at success
  split at success
  · simp at success
  · simp only [bind_eq_ok] at success
    obtain ⟨definition, readDefinition, _, -, ⟨⟩⟩ := success
    exact TypeDef.legible_of_readFields readDefinition
  · cases success

theorem InputBinding.legible_of_read {binding : InputBinding}
    (success : InputBinding.read fields = .ok binding) :
    binding.type.Legible := by
  simp only [InputBinding.read, bind_eq_ok] at success
  obtain ⟨_, -, _, -, type, readType, ⟨⟩⟩ := success
  exact DataType.legible_of_read readType

theorem NamedBinding.legible_of_read {binding : NamedBinding}
    (success : NamedBinding.read document = .ok binding) :
    binding.type.Legible := by
  simp only [NamedBinding.read, bind_eq_ok] at success
  obtain ⟨_, -, base, readBase, _, -, ⟨⟩⟩ := success
  exact InputBinding.legible_of_read readBase

theorem Parameter.legible_of_read {parameter : Parameter}
    (success : Parameter.read document = .ok parameter) :
    parameter.source.Legible := by
  unfold Parameter.read at success
  obtain ⟨fields, _, success⟩ := bind_eq_ok.mp success
  cases given : fields.label? "binding" with
  | some id =>
    simp only [given, pure_eq_ok, ok_bind, Except.ok.injEq] at success
    simp [← success, Parameter.Source.Legible]
  | none =>
    simp only [given, bind_eq_ok, map_eq_ok] at success
    obtain ⟨_, ⟨binding, readBinding, rfl⟩, ⟨⟩⟩ := success
    exact InputBinding.legible_of_read readBinding

theorem Input.legible_of_read {input : Input} (success : Input.read document = .ok input) :
    input.Legible := by
  simp only [Input.read, bind_eq_ok] at success
  obtain ⟨fields, -, params, readParams, type, readType, ⟨⟩⟩ := success
  exact ⟨forall_of_parts readParams fun _ _ => Parameter.legible_of_read,
    legible_of_read? readType⟩

theorem Header.legible_of_read {header : Header} (success : Header.read document = .ok header) :
    header.type.Legible := by
  simp only [Header.read, bind_eq_ok] at success
  obtain ⟨_, -, _, -, type, readType, ⟨⟩⟩ := success
  exact DataType.legible_of_read readType

theorem Output.empty_or_legible_of_read (success : Output.read document = .ok output) :
    document = .null ∧ output = Output.empty ∨ output.Legible := by
  unfold Output.read at success
  split at success
  · cases success
    exact .inl ⟨rfl, rfl⟩
  · simp only [bind_eq_ok] at success
    obtain ⟨fields, -, _, -, type, readType, headers, readHeaders, ⟨⟩⟩ := success
    exact .inr ⟨rfl, legible_of_read? readType,
      forall_of_parts readHeaders fun _ _ => Header.legible_of_read⟩

theorem Output.legible_type_of_read (success : Output.read document = .ok output) :
    ∀ type, output.type = some type → type.Legible := by
  rcases Output.empty_or_legible_of_read success with ⟨-, rfl⟩ | legible
  · simp [Output.empty]
  · exact legible.type

theorem Output.legible_of_read (given : document ≠ .null)
    (success : Output.read document = .ok output) :
    output.Legible :=
  (Output.empty_or_legible_of_read success).resolve_left fun empty => given empty.1

/-! ### Statuses -/

theorem statuses_setError (errors : List (Int × Label)) (status : Int) (cause : Label) :
    (setError errors status cause).map Prod.fst =
      if status ∈ errors.map Prod.fst then errors.map Prod.fst
      else errors.map Prod.fst ++ [status] := by
  induction errors with
  | nil => simp [setError]
  | cons error rest ih =>
    obtain ⟨number, old⟩ := error
    by_cases equal : number = status
    · simp [setError, equal]
    · have different : ¬ status = number := fun same => equal same.symm
      simp only [setError, equal, if_false, List.map_cons, ih, List.mem_cons, different, false_or]
      split <;> simp

theorem statuses_nodup (errors known : List (Int × Label)) (nodup : (known.map Prod.fst).Nodup) :
    ((errors.foldl (fun known error => setError known error.1 error.2) known).map
      Prod.fst).Nodup := by
  induction errors generalizing known with
  | nil => exact nodup
  | cons error rest ih =>
    apply ih
    rw [statuses_setError]
    split
    · exact nodup
    · rename_i fresh
      exact List.nodup_append.mpr ⟨nodup, by simp, by
        intro status old other new equal
        rw [List.mem_singleton.mp new] at equal
        exact fresh (equal ▸ old)⟩

/-! ### Operations, resources and descriptions -/

theorem Part.eq_object_of_fieldsOf {part : Part} (success : part.fieldsOf document = .ok fields) :
    document = .object fields := by
  cases document with
  | object found =>
    simp only [Part.fieldsOf, Except.ok.injEq] at success
    rw [success]
  | null => simp [Part.fieldsOf] at success
  | bool | int | float | text | list => cases success

theorem Doc.Fields.exists_of_part_eq_some {read : Doc → Except Fault α} {part : α}
    (success : fields.part key read = .ok (some part)) :
    ∃ value, fields.lookup key = some value ∧ read value = .ok part := by
  unfold Doc.Fields.part at success
  cases found : fields.lookup key with
  | none => simp [found] at success
  | some value =>
    simp only [found] at success
    obtain ⟨read, readValue, equal⟩ := bind_eq_ok.mp success
    cases equal
    exact ⟨value, rfl, readValue⟩

/-- What is known of an operation that was read: it is legible apart from its output, which was read
from the value under its key. -/
structure Operation.ReadFrom (document : Doc) (operation : Operation) : Prop where
  apart : Legible { operation with output := none }
  output : ∀ output, operation.output = some output →
    ∃ value, document.get "output" = .ok value ∧ Output.read value = .ok output

theorem Operation.readFrom_of_read (success : read document = .ok operation) :
    operation.ReadFrom document := by
  simp only [read, bind_eq_ok] at success
  obtain ⟨fields, readFields, _, -, _, -, input, readInput, output, readOutput, errors, -, requires,
    readRequires, ensures, readEnsures, ⟨⟩⟩ := success
  cases Part.eq_object_of_fieldsOf readFields
  refine ⟨⟨?_, by simp, statuses_nodup errors [] (by simp), isSome_of_conditions readRequires,
    isSome_of_conditions readEnsures⟩, ?_⟩
  · rintro input rfl
    obtain ⟨value, _, readValue⟩ := exists_of_part_eq_some readInput
    exact Input.legible_of_read readValue
  · rintro output rfl
    obtain ⟨value, found, readValue⟩ := exists_of_part_eq_some readOutput
    exact ⟨value, by simp [Doc.get, found], readValue⟩

theorem Operation.legible_of_read (given : document.get "output" ≠ .ok .null)
    (success : read document = .ok operation) : operation.Legible := by
  obtain ⟨apart, readOutput⟩ := readFrom_of_read success
  refine ⟨apart.input, fun output hasOutput => ?_, apart.errors, apart.requires, apart.ensures⟩
  obtain ⟨value, found, readValue⟩ := readOutput output hasOutput
  refine Output.legible_of_read ?_ readValue
  rintro rfl
  exact given found

/-- What is known of a resource that was read: each operation was read from an entry under their
key, and the types of bindings are legible. -/
structure Resource.ReadFrom (document : Doc) (resource : Resource) : Prop where
  operations : ∀ operation ∈ resource.operations,
    ∃ item ∈ document.entries "operations", Operation.read item = .ok operation
  bindings : ∀ binding ∈ resource.bindings, binding.type.Legible

theorem Resource.readFrom_of_read (success : Resource.read document = .ok resource) :
    resource.ReadFrom document := by
  simp only [Resource.read, bind_eq_ok] at success
  obtain ⟨fields, readFields, _, -, _, -, value, readValue, items, listed, operations,
    readOperations, bindings, readBindings, ⟨⟩⟩ := success
  refine ⟨fun operation member => ?_, forall_of_parts readBindings fun _ _ =>
    NamedBinding.legible_of_read⟩
  obtain ⟨item, inItems, readItem⟩ := exists_of_mem_mapM readOperations member
  refine ⟨item, ?_, readItem⟩
  rw [Part.eq_object_of_fieldsOf readFields]
  simpa [Doc.entries, readValue, listed, Except.toOption] using inItems

theorem Resource.legible_of_read
    (given : ∀ operation ∈ document.entries "operations", operation.get "output" ≠ .ok .null)
    (success : Resource.read document = .ok resource) : resource.Legible := by
  obtain ⟨readOperations, bindings⟩ := Resource.readFrom_of_read success
  refine ⟨fun operation member => ?_, bindings⟩
  obtain ⟨item, inEntries, readItem⟩ := readOperations operation member
  exact Operation.legible_of_read (given item inEntries) readItem

theorem ServiceLevel.legible_of_read {level : ServiceLevel} (given : document ≠ .null)
    (success : ServiceLevel.read document = .ok level) :
    level.Legible := by
  unfold ServiceLevel.read at success
  split at success
  · exact absurd rfl given
  · obtain ⟨fields, _, success⟩ := bind_eq_ok.mp success
    obtain ⟨name, readName, success⟩ := bind_eq_ok.mp success
    simp only at success
    split at success
    all_goals
      rename_i limited
      obtain ⟨timeUnit, readUnit, success⟩ := bind_eq_ok.mp success
      obtain ⟨costModel, readCost, success⟩ := bind_eq_ok.mp success
      cases success
      refine ⟨rfl, ?_⟩
    · obtain ⟨unit, readLabel, equal⟩ := map_eq_ok.mp readUnit
      simp [← equal, limited]
    · cases readUnit
      simp [limited]

theorem Version.isSome_id_of_read {version : Version} (given : document ≠ .null)
    (success : Version.read document = .ok version) : version.id.isSome := by
  unfold Version.read at success
  split at success
  · exact absurd rfl given
  · simp only [bind_eq_ok] at success
    obtain ⟨_, -, _, -, ⟨⟩⟩ := success
    rfl

/-- A document that gives no version, no output of an operation and no service level as absent. -/
structure Doc.Complete (document : Doc) : Prop where
  version : document.get "version" ≠ .ok .null
  outputs : ∀ resource ∈ document.entries "resources",
    ∀ operation ∈ resource.entries "operations", operation.get "output" ≠ .ok .null
  serviceLevels : ∀ level ∈ document.entries "sla", level ≠ .null

/-- What is known of a description that was read: its types are legible, and its other parts were
read from the values under their keys. -/
structure Api.ReadFrom (document : Doc) (api : Api) : Prop where
  resources : ∀ resource ∈ api.resources,
    ∃ item ∈ document.entries "resources", Resource.read item = .ok resource
  dataTypes : ∀ type ∈ api.dataTypes, type.definition.Legible
  serviceLevels : ∀ level ∈ api.serviceLevels,
    ∃ item ∈ document.entries "sla", ServiceLevel.read item = .ok level
  version : ∀ version, api.version = some version →
    ∃ value, document.get "version" = .ok value ∧ Version.read value = .ok version

theorem Api.readFrom_of_readParts (success : Api.readParts document = .ok api) :
    api.ReadFrom document := by
  simp only [Api.readParts, bind_eq_ok] at success
  obtain ⟨fields, readFields, _, -, resources, readResources, dataTypes, readTypes, _, -, levels,
    readLevels, version, readVersion, ⟨⟩⟩ := success
  cases Part.eq_object_of_fieldsOf readFields
  refine ⟨exists_of_mem_parts readResources,
    forall_of_parts readTypes fun _ _ => NamedTypeDef.legible_of_read,
    exists_of_mem_parts readLevels, ?_⟩
  rintro version rfl
  obtain ⟨value, found, readValue⟩ := exists_of_part_eq_some readVersion
  exact ⟨value, by simp [Doc.get, found], readValue⟩

theorem Api.legible_of_readParts (complete : document.Complete)
    (success : Api.readParts document = .ok api) :
    api.Legible := by
  obtain ⟨resources, dataTypes, levels, version⟩ := Api.readFrom_of_readParts success
  constructor
  · intro resource member
    obtain ⟨item, inEntries, readItem⟩ := resources resource member
    exact Resource.legible_of_read (complete.outputs item inEntries) readItem
  · exact dataTypes
  · intro level member
    obtain ⟨item, inEntries, readItem⟩ := levels level member
    exact ServiceLevel.legible_of_read (complete.serviceLevels item inEntries) readItem
  · intro given hasVersion
    obtain ⟨value, found, readValue⟩ := version given hasVersion
    refine Version.isSome_id_of_read ?_ readValue
    rintro rfl
    exact complete.version found

theorem Api.ofDoc_eq_ok :
    Api.ofDoc document = .ok api ↔ Api.readParts document = .ok api ∧ api.validate = .ok () := by
  constructor
  · intro accepted
    obtain ⟨parts, readParts, checked⟩ := bind_eq_ok.mp accepted
    obtain ⟨valid, same⟩ := check_bind_eq_ok.mp checked
    cases same
    exact ⟨readParts, valid⟩
  · rintro ⟨readParts, valid⟩
    rw [Api.ofDoc, readParts, ok_bind, valid]
    rfl

theorem Api.exists_readFrom (accepted : Api.ofDoc document = .ok api)
    (inApi : resource ∈ api.resources) (inResource : operation ∈ resource.operations) :
    ∃ item, operation.ReadFrom item := by
  have readFrom := Api.readFrom_of_readParts (Api.ofDoc_eq_ok.mp accepted).1
  obtain ⟨_, -, readResource⟩ := readFrom.resources resource inApi
  obtain ⟨item, -, readOperation⟩ :=
    (Resource.readFrom_of_read readResource).operations operation inResource
  exact ⟨item, readFrom_of_read readOperation⟩

end ApiDescription
