import ApiDescription.Proofs.ClassEntries

/-!
# Constructors of record classes

The class of a record type has one method, a constructor, which takes what the fields of the record
hold and sets it on the object.  Classes are added one behind the other: those of the records that
are written on the spot inside a record, at every depth, come before its own.
-/

namespace ApiDescription.Client

open Code (Argument ClassDef Line Method)

variable {fields : List Field}

def assignment (argument : Argument) : Line :=
  .code ["self.", argument.name, " = ", argument.name]

/-- A constructor with one argument for each field in their order, which can be left out exactly if
the field can. -/
structure Mirrors (fields : List Field) (constructor : Method) : Prop where
  name : constructor.name = Method.constructorName
  defaults : constructor.arguments.map (·.default) =
    fields.map fun field => if field.optional.isTruthy then some "None" else none
  body : constructor.body = constructor.arguments.map assignment
  distinct : (constructor.arguments.map (·.name)).Nodup
  mappings : (fields.map (·.name)).Nodup →
    constructor.mappings = (fields.map (·.name.toDoc)).zip (constructor.arguments.map (·.name))

/-- The classes for the records that are written on the spot among fields. -/
inductive Mirrored : List Field → List ClassDef → Prop
  | nil : Mirrored [] []
  | reference {field : Field} {target : TypeRef} {link : Doc} {rest : List Field}
      {classes : List ClassDef}
    (isReference : field.type = .reference target link) (others : Mirrored rest classes) :
    Mirrored (field :: rest) classes
  | inline {field : Field} {definition : TypeDef} {rest : List Field}
      {inner classes : List ClassDef} (name : String)
    {constructor : Method} (isInline : field.type = .inline definition)
    (inside : Mirrored definition.fields inner)
    (mirrors : Mirrors definition.fields constructor) (others : Mirrored rest classes) :
    Mirrored (field :: rest) (inner ++ [⟨name, none, [constructor]⟩] ++ classes)

theorem putMapping_of_not_mem {label argument : String} {mappings : List (Doc × String)}
    (absent : Doc.text label ∉ mappings.map Prod.fst) :
    Method.putMapping (.text label) argument mappings = mappings ++ [(.text label, argument)] := by
  induction mappings with
  | nil => rfl
  | cons entry rest ih =>
    obtain ⟨name, old⟩ := entry
    rw [List.map_cons, List.mem_cons, not_or] at absent
    have differs : ¬ name.same (.text label) = true :=
      fun same => absent.1 ((Doc.same_text_right _ _).mp same).symm
    rw [Method.putMapping, if_neg differs, ih absent.2, List.cons_append]

theorem mirrors_constructorFor (texts : ∀ field ∈ fields, ∃ label, field.name = .text label) :
    Mirrors fields (constructorFor fields) := by
  induction fields using List.reverseRecOn with
  | nil => constructor <;> simp [constructorFor, Method.empty]
  | append_singleton fields field ih =>
    rw [List.forall_mem_append] at texts
    obtain ⟨label, named⟩ := texts.2 field (by simp)
    have mirrors := ih texts.1
    have arguments :
        (withField (constructorFor fields) field).arguments = (constructorFor fields).arguments ++
        [⟨nextArgument (constructorFor fields) field.name.toDoc.textOrEmpty, .null,
          optionalDefault field.optional⟩] := rfl
    have lengths :
        (fields.map (·.name.toDoc)).length =
          ((constructorFor fields).arguments.map (·.name)).length := by
      simpa using (congrArg List.length mirrors.defaults).symm
    rw [constructorFor_append]
    exact {
      name := mirrors.name
      defaults := by simp [arguments, mirrors.defaults, optionalDefault]
      body := by
        rw [arguments, List.map_append, ← mirrors.body]
        rfl
      distinct := by
        rw [arguments, List.map_append]
        exact mirrors.distinct.append (by simp)
          (List.disjoint_singleton.mpr (firstFree_not_mem _ _))
      mappings := by
        intro distinct
        rw [List.map_append, List.nodup_append'] at distinct
        have known := mirrors.mappings distinct.1
        have absent : Doc.text label ∉ (constructorFor fields).mappings.map Prod.fst := by
          rw [known, List.map_fst_zip (Nat.le_of_eq lengths)]
          intro member
          obtain ⟨other, inFields, same⟩ := List.mem_map.mp member
          obtain ⟨own, isOwn⟩ := texts.1 other inFields
          rw [isOwn, Label.toDoc, Doc.text.injEq] at same
          exact distinct.2.2 (List.mem_map.mpr ⟨other, inFields, by rw [isOwn, same, ← named]⟩)
            (by simp)
        rw [arguments, List.map_append, List.map_append, List.zip_append lengths, ← known]
        simpa [withField, declare, Method.addLine, named, Label.toDoc, Doc.textOrEmpty] using
          putMapping_of_not_mem absent }

theorem mirrored_fieldClasses (taken : List String) (owner : String) :
    ∀ fields : List Field, (∀ field ∈ fields, field.type.Spelled) →
      Mirrored fields (fieldClasses taken owner fields)
  | [], _ => by
    rw [fieldClasses]
    exact .nil
  | ⟨name, _, _, .reference target link⟩ :: rest, spelled => by
    rw [List.forall_mem_cons] at spelled
    rw [fieldClasses, inlineClasses]
    exact .reference rfl (mirrored_fieldClasses _ owner rest spelled.2)
  | ⟨name, _, _, .inline ⟨fields, _, _⟩⟩ :: rest, spelled => by
    rw [List.forall_mem_cons, DataType.spelled_inline] at spelled
    rw [fieldClasses, inlineClasses, recordClasses]
    exact .inline _ rfl (mirrored_fieldClasses _ _ fields fun field declared =>
      (spelled.1 field declared).2)
      (mirrors_constructorFor fun field declared => (spelled.1 field declared).1)
      (mirrored_fieldClasses _ owner rest spelled.2)

/-- Generating a data type adds a class that mirrors it behind those for the records inside it, and
leaves the classes that were there. -/
def AddsMirror (type : NamedTypeDef) (before : State) : Prop :=
  ∃ after inner name constructor, Returns (generateDataType type) before () after ∧
    after.classes = before.classes ++ inner ++ [⟨name, none, [constructor]⟩] ∧
    Mirrored type.definition.fields inner ∧ Mirrors type.definition.fields constructor ∧
    constructor.mappings =
      (type.definition.fields.map (·.name.toDoc)).zip (constructor.arguments.map (·.name))

/-- A data type whose fields go by different texts gets its class in every client. -/
theorem generateDataType_mirrors {type : NamedTypeDef} {key : String}
    (named : type.name = .text key) (spelled : (DataType.inline type.definition).Spelled)
    (distinct : (type.definition.fields.map (·.name)).Nodup) (before : State) :
    AddsMirror type before := by
  obtain ⟨name, fields, constraints, description⟩ := type
  let className := firstFree before.classNames (classStem key)
  have ran := (@returns_generateRecord name before _ ⟨fields, constraints, description⟩).mpr
    ⟨key, named, spelled, rfl⟩
  rw [DataType.spelled_inline] at spelled
  have mirrors := mirrors_constructorFor fun field declared => (spelled field declared).1
  refine ⟨_, fieldClasses (before.classNames ++ [className]) className fields, className, _, ran,
    ?_, mirrored_fieldClasses _ _ fields fun field declared => (spelled field declared).2, mirrors,
    mirrors.mappings distinct⟩
  simp [State.withRecords, recordClasses, classFor, className]

/-- An order is shipped to an address that is described on the spot; two of its fields clean to one
name. -/
def shippedOrder : NamedTypeDef :=
  { name := "order"
    definition := ⟨[⟨"ship-to", none, .bool true,
        .inline ⟨[⟨"street", none, .bool false, .reference (.primitive .string) .null⟩], [], none⟩⟩,
      ⟨"shipto", none, .bool false, .reference (.primitive .string) .null⟩], [], none⟩ }

theorem shippedOrder_mirrors :
    shippedOrder.name = .text "order" ∧ (DataType.inline shippedOrder.definition).Spelled ∧
      (shippedOrder.definition.fields.map (·.name)).Nodup ∧
      AddsMirror shippedOrder State.empty := by
  have spelled : (DataType.inline shippedOrder.definition).Spelled := by simp [shippedOrder]
  have distinct : (shippedOrder.definition.fields.map (·.name)).Nodup := by simp [shippedOrder]
  exact ⟨rfl, spelled, distinct, generateDataType_mirrors rfl spelled distinct State.empty⟩

end ApiDescription.Client
