import ApiDescription.Proofs.ClassTable
import ApiDescription.Proofs.HelperNames

/-!
# Types whose functions can be generated

The functions that write and read a type come with those of every type it is made of, so that
generating them fails as soon as one of these has no name, no class or no argument for a field, or
leads back to itself. `Codable` says of a single type what is needed of it; a type that is codable
is made of codable types, and where no data type leads back to itself all functions of a codable
type are generated.
-/

namespace ApiDescription

open Outcome

theorem EndsWithin.standIn {api : Api} {bound : Nat} {definition : TypeDef}
    (within : api.Within bound (.anonymous definition)) (name : String) :
    api.Within bound (.named (.standIn name definition)) := by
  cases bound with
  | zero => exact within
  | succ bound =>
    intro next leads
    cases leads with
    | field isRecord declared =>
      cases isRecord
      exact within _ (.field rfl declared)

namespace Client.Codec

open Code (Method)

variable {type : NamedTypeDef} {target : TypeRef} {name : Doc} {field : Field}
  {part schema : Schema} {functionsFor : Option Schema → Except Fault (List Method)} {fuel : Nat}

/-! ## Codable types -/

/-- A type that functions can be generated for: a reference leads to a data type, and a data type
has its place in the table of classes and refers to nothing that is not found.  Nothing can be
generated for a type that is written on the spot before a data type stands for it. -/
def Codable (state : State) (api : Api) : Schema → Prop
  | .reference target => Finds api target
  | .named type => type = .api ∨ ∃ key, type.name = .text key ∧
      Tabled state key type.definition.fields ∧
      ∀ field ∈ type.definition.fields, ∀ target link,
        (DataType.reference target link).Within field.type → Finds api target
  | .anonymous _ => False

variable {state : State} {api : Api}

theorem codable_api : Codable state api (.named .api) :=
  Or.inl rfl

theorem Codable.exists_key (codable : Codable state api (.named type)) :
    ∃ key, type.name = .text key := by
  rcases codable with rfl | ⟨key, isText, -, -⟩
  · exact ⟨TypeRef.apiName, rfl⟩
  · exact ⟨key, isText⟩

/-- The schema of a field: what it refers to, or the data type that stands for its type. -/
theorem exists_of_fieldSchema {owner : Doc} (found : fieldSchema .json owner field = .ok part) :
    (∃ target link, field.type = .reference target link ∧ part = .reference target) ∨
      ∃ definition key label, field.type = .inline definition ∧ owner = .text key ∧
        field.name = .text label ∧ part = .named (.standIn (key ++ "_" ++ label) definition) := by
  obtain ⟨name, description, optional, type⟩ := field
  cases type with
  | reference target link =>
    cases found
    exact .inl ⟨target, link, rfl, rfl⟩
  | inline definition =>
    obtain ⟨type, isType, equal⟩ := bind_eq_ok.mp found
    cases equal
    obtain ⟨key, isKey, rest⟩ := bind_eq_ok.mp isType
    obtain ⟨label, isLabel, equal⟩ := bind_eq_ok.mp rest
    cases equal
    cases owner with
    | text key =>
      cases isKey
      cases name with
      | text label =>
        cases isLabel
        exact .inr ⟨definition, key, label, rfl, rfl, rfl, rfl⟩
      | texts labels => cases isLabel
    | null | bool | int | float | list | object => cases isKey

theorem exists_fieldSchema (key : String) {label : String} (named : field.name = .text label) :
    ∃ part, fieldSchema .json (.text key) field = .ok part := by
  obtain ⟨name, description, optional, type⟩ := field
  cases named
  cases type with
  | reference target link => exact ⟨_, rfl⟩
  | inline definition => exact ⟨_, rfl⟩

/-- Chains from a part of a type are shorter than those from the type, unless the part is the
description itself. -/
theorem Codable.within_of_needs {bound : Nat} (codable : Codable state api schema)
    (within : api.Within (bound + 1) schema) (needs : Needs api .json schema part) :
    api.Within bound part ∨ part = .named .api := by
  cases needs with
  | target found =>
    obtain ⟨type, isType⟩ := Finds.found codable _ rfl
    cases found.symm.trans isType
    rcases Api.dataType?_of_lookup isType with isType | ⟨rfl, -⟩
    · exact .inl (within _ (.name isType))
    · exact .inr rfl
  | part handed =>
    refine .inl ?_
    cases handed with
    | item composed => exact within _ .item
    | @field type field _ declared composed found =>
      have below := within _ (.field rfl declared)
      rcases exists_of_fieldSchema found with
        ⟨target, link, isReference, rfl⟩ | ⟨definition, key, label, isInline, -, -, rfl⟩
      · rw [isReference] at below
        exact below
      · rw [isInline] at below
        exact below.standIn (key ++ "_" ++ label)

def Gives (functionsFor : Option Schema → Except Fault (List Method)) (schema : Schema) : Prop :=
  ∃ functions callee, functionsFor (some schema) = .ok functions ∧ lastName functions = .ok callee

theorem exists_fieldPart {key : String} (isText : type.name = .text key)
    (table : Tabled state key type.definition.fields) (declared : field ∈ type.definition.fields)
    (each : ∀ part, HandsOver .json (.named type) part → Gives functionsFor part) :
    ∃ part, fieldPart state .json functionsFor type.name field = .ok part := by
  obtain ⟨-, parameters, -⟩ := table
  obtain ⟨label, parameter, named, located⟩ := parameters field declared
  rw [← isText] at located
  cases plain : isPlain field.type with
  | true =>
    refine ⟨([], ⟨label, parameter, none, field.optional.isTruthy⟩), ?_⟩
    apply fieldPart_eq_ok.mpr
    constructor
    · constructor <;> simp [named, Label.asText, Label.toDoc, located, plain]
    · intro _
      rfl
  | false =>
    obtain ⟨part, found⟩ : ∃ part, fieldSchema .json type.name field = .ok part := by
      rw [isText]
      exact exists_fieldSchema key named
    obtain ⟨inner, callee, generated, isLast⟩ := each part (.field declared plain found)
    refine ⟨(inner, ⟨label, parameter, some callee, field.optional.isTruthy⟩), ?_⟩
    apply fieldPart_eq_ok.mpr
    constructor
    · constructor
      · rw [named, Label.asText]
      · rw [named]
        exact located
      · rfl
      · simp [plain]
      · intro _
        exact ⟨part, callee, found, rfl, generated, isLast⟩
    · simp [plain]

theorem exists_fieldParts {key : String} (isText : type.name = .text key)
    (table : Tabled state key type.definition.fields)
    (each : ∀ part, HandsOver .json (.named type) part → Gives functionsFor part) :
    ∃ parts, type.definition.fields.mapM (fieldPart state .json functionsFor type.name) =
      .ok parts :=
  exists_mapM_of_forall fun _ declared => exists_fieldPart isText table declared each

section Names

variable (names : ∀ type ∈ api.dataTypes, ∃ key, type.name = .text key)

include names

theorem exists_schemaCodecName (media stem : String) (codable : Codable state api schema) :
    ∃ name, schemaCodecName api media stem (some schema) = .ok name := by
  cases schema with
  | reference target => exact exists_referenceCodecName names media stem codable
  | named type =>
    obtain ⟨key, isText⟩ := codable.exists_key
    rw [schemaCodecName, isText]
    exact ⟨_, rfl⟩
  | anonymous definition => exact codable.elim

end Names

section Total

variable (types : ∀ type ∈ api.dataTypes, Codable state api (.named type))

include types

theorem codable_of_lookup (found : api.lookup name = some (.named type)) :
    Codable state api (.named type) := by
  rcases Api.dataType?_of_lookup found with isType | ⟨isApi, -⟩
  · exact types type (List.mem_of_find?_eq_some isType)
  · exact isApi ▸ codable_api

theorem Finds.exists_codable (finds : Finds api target) :
    ∃ schema, api.lookup target.referenceName = some schema ∧ Codable state api schema := by
  rcases finds.lookup with ⟨type, found⟩ | found
  · exact ⟨_, found, codable_of_lookup types found⟩
  · exact ⟨_, found, finds⟩

theorem Codable.needs (codable : Codable state api schema) (needs : Needs api .json schema part) :
    Codable state api part := by
  cases needs with
  | target found =>
    obtain ⟨type, isType⟩ := Finds.found codable _ rfl
    cases found.symm.trans isType
    exact codable_of_lookup types isType
  | part handed =>
    cases handed with
    | item composed => exact Finds.item codable
    | @field type field _ declared composed found =>
      rcases codable with rfl | ⟨key, isText, table, finds⟩
      · cases declared
      · rcases exists_of_fieldSchema found with
          ⟨target, link, isReference, rfl⟩ | ⟨definition, key', label, isInline, isKey, named, rfl⟩
        · exact finds field declared target link (isReference ▸ .self)
        · cases isText.symm.trans isKey
          obtain ⟨-, -, inner⟩ := table
          refine .inr ⟨key ++ "_" ++ label, rfl,
            inner field declared definition label isInline named, ?_⟩
          intro inner innerDeclared target link within
          apply finds field declared target link
          rw [isInline]
          exact .field innerDeclared within

/-! ## Generating functions returns -/

omit types in
theorem exists_writersFor (codable : Codable state api schema) (name : String)
    (each : ∀ part, Needs api .json schema part → Gives functionsFor part) :
    ∃ functions, writersFor state api .json functionsFor name (some schema) = .ok functions := by
  match schema with
  | .reference (.primitive _) | .reference (.container _ (.primitive _)) => exact ⟨_, rfl⟩
  | .reference (.container _ (.custom _)) | .reference (.container _ (.container _ _)) =>
    obtain ⟨inner, callee, generated, isLast⟩ := each _ (.part (.item (by simp)))
    simp [writersFor, generated, isLast]
  | .reference (.custom target) =>
    obtain ⟨type, found⟩ := Finds.found codable target rfl
    obtain ⟨functions, -, generated, -⟩ := each _ (.target found)
    exact ⟨functions, by rw [writersFor, found, generated]⟩
  | .named type =>
    rcases codable with rfl | ⟨key, isText, table, -⟩
    · exact ⟨_, rfl⟩
    · obtain ⟨parts, found⟩ := exists_fieldParts isText table fun part handed =>
        each part (.part handed)
      simp [writersFor, found]
  | .anonymous definition => exact codable.elim

omit types in
theorem exists_recordReaders (codable : Codable state api (.named type)) (name : String)
    (each : ∀ part, HandsOver .json (.named type) part → Gives functionsFor part) :
    ∃ functions, recordReaders state functionsFor name type = .ok functions := by
  unfold recordReaders
  split_ifs with isBuiltIn isApi
  · exact ⟨_, rfl⟩
  · exact ⟨_, rfl⟩
  · rcases codable with rfl | ⟨key, isText, table, -⟩
    · exact absurd rfl isApi
    · obtain ⟨parts, found⟩ := exists_fieldParts isText table each
      obtain ⟨className, isClass⟩ := table.exists_className
      rw [← isText] at isClass
      simp only [isClass, found, ok_bind]
      exact ⟨_, rfl⟩

omit types in
theorem exists_readersFor (codable : Codable state api schema) (name : String)
    (each : ∀ part, Needs api .json schema part → Gives functionsFor part) :
    ∃ functions callee, readersFor state api functionsFor name (some schema) = .ok functions ∧
      lastName functions = .ok callee := by
  have direct : (∀ target, schema ≠ .reference (.custom target)) →
      (∃ functions, readersFor state api functionsFor name (some schema) = .ok functions) →
      ∃ functions callee, readersFor state api functionsFor name (some schema) = .ok functions ∧
        lastName functions = .ok callee := by
    rintro isDirect ⟨functions, generated⟩
    exact ⟨functions, name, generated, lastName_of_readersFor generated isDirect⟩
  match schema with
  | .reference (.primitive _) | .reference (.container _ (.primitive _)) =>
    exact direct (by simp) ⟨_, rfl⟩
  | .reference (.container _ (.custom _)) | .reference (.container _ (.container _ _)) =>
    obtain ⟨inner, callee, generated, isLast⟩ := each _ (.part (.item (by simp)))
    exact direct (by simp) (by simp [readersFor, generated, isLast])
  | .reference (.custom target) =>
    obtain ⟨type, found⟩ := Finds.found codable target rfl
    obtain ⟨functions, callee, generated, isLast⟩ := each _ (.target found)
    exact ⟨functions, callee, by rw [readersFor, found, generated], isLast⟩
  | .named type =>
    exact direct (by simp) (exists_recordReaders codable name fun part handed =>
      each part (.part handed))
  | .anonymous definition => exact codable.elim

/-- Functions for a type are given within the number of types in a chain from it, when each step
gives those of a type from those of its parts.  The description itself is outside of all chains and
has no parts. -/
theorem gives_of_step (functionsWithin : Nat → Option Schema → Except Fault (List Method))
    (step : ∀ fuel schema, Codable state api schema →
      (∀ part, Needs api .json schema part → Gives (functionsWithin fuel) part) →
      Gives (functionsWithin (fuel + 1)) schema) {bound : Nat} (codable : Codable state api schema)
    (within : api.Within bound schema) (enough : bound < fuel) :
    Gives (functionsWithin fuel) schema := by
  have ofApi : ∀ fuel, Gives (functionsWithin (fuel + 1)) (.named .api) := by
    intro fuel
    apply step fuel _ codable_api
    intro part needs
    cases needs with
    | part handed =>
      obtain ⟨field, declared, -⟩ := handed.exists_field
      cases declared
  induction fuel generalizing bound schema with
  | zero => exact absurd enough (Nat.not_lt_zero bound)
  | succ fuel ih =>
    cases bound with
    | zero => exact within.elim
    | succ bound =>
      have below : bound < fuel := Nat.lt_of_succ_lt_succ enough
      apply step fuel schema codable
      intro part needs
      rcases codable.within_of_needs within needs with shorter | rfl
      · exact ih (codable.needs types needs) shorter below
      · obtain ⟨fuel, rfl⟩ := Nat.exists_eq_succ_of_ne_zero (Nat.ne_zero_of_lt below)
        exact ofApi fuel

theorem gives_writersWithin (codable : Codable state api schema)
    (each : ∀ part, Needs api .json schema part → Gives (writersWithin state api .json fuel) part) :
    Gives (writersWithin state api .json (fuel + 1)) schema := by
  obtain ⟨name, named⟩ := exists_schemaCodecName (fun type member => (types type member).exists_key)
    Format.json.media "serialize" codable
  obtain ⟨functions, generated⟩ := exists_writersFor codable name each
  have found : writersWithin state api .json (fuel + 1) (some schema) =
      .ok (functions ++ [Format.json.final]) := by
    simp [writersWithin, named, generated]
  exact ⟨_, _, found, lastName_of_writersWithin found⟩

theorem gives_readersWithin (codable : Codable state api schema)
    (each : ∀ part, Needs api .json schema part → Gives (readersWithin state api fuel) part) :
    Gives (readersWithin state api (fuel + 1)) schema := by
  obtain ⟨name, named⟩ := exists_schemaCodecName (fun type member => (types type member).exists_key)
    Format.json.media "deserialize" codable
  obtain ⟨functions, callee, generated, isLast⟩ := exists_readersFor codable name each
  refine ⟨functions, callee, ?_, isLast⟩
  rw [readersWithin, named, ok_bind, generated]

variable (acyclic : ∀ type ∈ api.dataTypes, api.Acyclic (.named type))

include acyclic

theorem exists_writers (codable : Codable state api schema) :
    ∃ functions, Codec.json.writers state api (some schema) = .ok functions := by
  obtain ⟨bound, isReach, within⟩ := Api.within_reach (Api.acyclic_of_dataTypes acyclic schema)
  obtain ⟨functions, -, generated, -⟩ := gives_of_step types
    (writersWithin state api .json) (fun _ _ => gives_writersWithin types) codable within
      (Nat.lt_succ_self bound)
  refine ⟨functions, ?_⟩
  rw [writers, reach, isReach, generated]

theorem exists_readers (codable : Codable state api schema) :
    ∃ functions, Codec.json.readers state api (some schema) = .ok functions := by
  obtain ⟨bound, isReach, within⟩ := Api.within_reach (Api.acyclic_of_dataTypes acyclic schema)
  obtain ⟨functions, -, generated, -⟩ := gives_of_step types
    (readersWithin state api) (fun _ _ => gives_readersWithin types) codable within
      (Nat.lt_succ_self bound)
  refine ⟨functions, ?_⟩
  rw [readers, reach, isReach, generated]

end Total

end Client.Codec

end ApiDescription
