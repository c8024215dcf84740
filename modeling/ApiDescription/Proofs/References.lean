import ApiDescription.Proofs.Validity

/-!
# Where references are defined

A reference is defined when the name it leads to through its containers is built in, reserved, or
the name of a data type.  In an accepted description every reference is defined that stands anywhere
but in a header of an output: no check looks at headers, whatever their types are.
-/

namespace ApiDescription

/-- A reference that leads to a built-in type, a reserved name or a data type of the description. -/
def Api.Defines (api : Api) (target : TypeRef) : Prop :=
  ∀ name, target.customName? = some name → name.IsTypeName (api.dataTypes.map (·.name))

/-- The types that occur in the headers of outputs, at any depth. -/
def Api.UsesInHeader (api : Api) (inner : DataType) : Prop :=
  ∃ resource ∈ api.resources, ∃ operation ∈ resource.operations,
    ∃ output, operation.output = some output ∧ ∃ header ∈ output.headers, inner.Within header.type

def Api.Mentions (api : Api) (inner : DataType) : Prop :=
  api.Uses inner ∨ api.UsesInHeader inner

def Output.retypeHeaders (retype : DataType → DataType) (output : Output) : Output :=
  { output with
    headers := output.headers.map fun header => { header with type := retype header.type } }

theorem Output.type_retypeHeaders (retype : DataType → DataType) (output : Output) :
    (output.retypeHeaders retype).type = output.type := rfl

/-- Only headers can hold a reference that is not defined.  Outside of them every reference of an
accepted description is defined, so that all of its references are as soon as those in headers are;
and with any other types in its headers it is accepted as well. -/
theorem Api.undefined_only_in_headers {document : Doc} {api : Api}
    (accepted : Api.ofDoc document = .ok api) :
    (∀ target link, api.Uses (.reference target link) → api.Defines target) ∧
      ((∀ target link, api.Mentions (.reference target link) → api.Defines target) ↔
        ∀ target link, api.UsesInHeader (.reference target link) → api.Defines target) ∧
      ∀ retype, (api.mapOutputs (Output.retypeHeaders retype)).validate = .ok () := by
  obtain ⟨parts, -, checked⟩ := Outcome.bind_eq_ok.mp accepted
  obtain ⟨valid, same⟩ := Outcome.check_bind_eq_ok.mp checked
  cases same
  have references := (Api.valid_of_validate valid).references
  refine ⟨references, ⟨fun everywhere target link inHeader =>
    everywhere target link (.inr inHeader), ?_⟩, fun retype =>
    (Api.validate_mapOutputs (Output.type_retypeHeaders retype) api).trans valid⟩
  rintro inHeaders target link (uses | inHeader)
  · exact references target link uses
  · exact inHeaders target link inHeader

/-- A document with one operation, whose answer has one header of the type that `name` gives. -/
def Doc.tracked (name : String) : Doc :=
  .object [("name", "orders"), ("resources", .list [.object [("name", "order"),
    ("path", "/order"), ("operations", .list [.object [("name", "get"),
      ("method", "GET"), ("output", .object [("status", .int 200),
        ("type", "list(Order)"),
        ("headers", .list [.object [("name", "Tracking"), ("type", .text name)]])])]])]]),
    ("dataTypes", .list [.object [("name", "Order"), ("fields", .list [])]])]

def Api.tracked (target : TypeRef) : Api :=
  { name := "orders"
    resources := [
      { name := "order", path := "/order"
        operations := [
          { name := "get", method := "GET", output := some
              { status := .int 200
                type := some (.reference (.container .list (.custom "Order")) .null)
                headers := [⟨"Tracking", none, .reference target .null⟩] } }] }]
    dataTypes := [⟨"Order", ⟨[], [], none⟩⟩] }

/-- The document is accepted whatever type the header names. -/
theorem Api.ofDoc_tracked (name : String) :
    Api.ofDoc (Doc.tracked name) = .ok (Api.tracked (.ofName name)) := by
  have answer : TypeRef.ofName "list(Order)" = .container .list (.custom "Order") := by cbv
  have read : Api.readParts (Doc.tracked name) = .ok (Api.tracked (.ofName name)) := by
    simp [Doc.tracked, Api.tracked, answer, Api.readParts, Resource.read, Operation.read,
      Output.read, Header.read, NamedTypeDef.read, TypeDef.readFields, Field.readIn, Field.readAll,
      Field.readItems, DataType.read, DataType.read?, DataType.readIn, DataType.ofValue,
      Part.fieldsOf, Doc.get, Doc.elements, Label.ofDoc, Doc.Fields.label, Doc.Fields.label?,
      Doc.Fields.texts, Doc.Fields.value, Doc.Fields.requiredValue, Doc.Fields.part,
      Doc.Fields.parts, Doc.Fields.conditions, Doc.words, List.lookup_cons]
  have valid : (Api.tracked (.ofName name)).validate = .ok () := rfl
  simp [Api.ofDoc, read, valid]

theorem Api.tracked_undefined_only_in_headers :
    Api.ofDoc (Doc.tracked "Order") = .ok (Api.tracked (.custom "Order")) ∧
      (∀ target link, (Api.tracked (.custom "Order")).Uses (.reference target link) →
        (Api.tracked (.custom "Order")).Defines target) ∧
      ∀ retype, ((Api.tracked (.custom "Order")).mapOutputs
        (Output.retypeHeaders retype)).validate = .ok () := by
  have accepted : Api.ofDoc (Doc.tracked "Order") = .ok (Api.tracked (.custom "Order")) :=
    (Api.ofDoc_tracked _).trans (by cbv)
  obtain ⟨outside, -, others⟩ := Api.undefined_only_in_headers accepted
  exact ⟨accepted, outside, others⟩

/-- A header can refer to a type that no data type defines. -/
theorem Api.undefined_in_accepted_header :
    Api.ofDoc (Doc.tracked "Missing") = .ok (Api.tracked (.custom "Missing")) ∧
      (Api.tracked (.custom "Missing")).Mentions
        (.reference (.custom "Missing") .null) ∧
      ¬ (Api.tracked (.custom "Missing")).Defines (.custom "Missing") := by
  refine ⟨(Api.ofDoc_tracked _).trans (by cbv), .inr ⟨_, List.mem_singleton_self _, _,
    List.mem_singleton_self _, _, rfl, _, List.mem_singleton_self _, .self⟩, fun defined => ?_⟩
  have named := defined (.text "Missing") rfl
  simp [Doc.IsTypeName, Api.tracked, TypeRef.apiName, TypeRef.noneName] at named

end ApiDescription
