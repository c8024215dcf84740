import ApiDescription.Proofs.Codable

/-!
# Where reading functions hand values over

The functions that read a type are listed one behind the other, and what a function calls stands
before it.  A value is handed to the function that is named for its type; if the type is a
reference, that is the function of the data type it leads to, which goes by the same name.
-/

namespace ApiDescription.Client.Codec

open List
open Code (Method)

variable {state : State} {api : Api} {name media stem : String} {target : Doc}
  {schema part : Schema} {functions earlier more : List Method} {function : Method}

/-! ## Names of references -/

abbrev readerName (api : Api) (schema : Schema) : Except Fault String :=
  schemaCodecName api Format.json.media "deserialize" (some schema)

/-- A function that reads a type by handing each part to the function that is named for it and
stands earlier. -/
def Dispatches (state : State) (api : Api) (earlier : List Method) (schema : Schema)
    (function : Method) : Prop :=
  ∃ name, readerName api schema = .ok name ∧
    Reader state (fun part callee => readerName api part = .ok callee ∧
      callee ∈ earlier.map (·.name)) name schema function

theorem Dispatches.mono (dispatches : Dispatches state api earlier schema function)
    (grown : earlier ⊆ more) :
    Dispatches state api more schema function := by
  obtain ⟨name, named, reader⟩ := dispatches
  exact ⟨name, named, reader.mono fun _ _ _ called => ⟨called.1, map_subset _ grown called.2⟩⟩

theorem HandsOver.legible (handed : HandsOver .json schema part) (legible : schema.Legible) :
    part.Legible := by
  cases handed with
  | item => exact TypeRef.Canonical.item legible
  | @field type field _ member composed found =>
    obtain ⟨name, fields, constraints, description⟩ := type
    rw [Schema.Legible, TypeDef.Legible] at legible
    have ofField := Field.legible_of_mem legible.1 member
    rcases exists_of_fieldSchema found with ⟨target, link, isType, rfl⟩ | ⟨definition, key, label,
      isType, -, -, rfl⟩
    · rwa [isType, DataType.Legible] at ofField
    · obtain ⟨fields, constraints, description⟩ := definition
      rw [isType, DataType.Legible, TypeDef.Legible] at ofField
      exact ⟨ofField.1, by simp⟩

end ApiDescription.Client.Codec
