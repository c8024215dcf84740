import ApiDescription.Client.Codec
import ApiDescription.Client.DataTypes
import ApiDescription.Proofs.Outcome
import Mathlib

/-!
# Functions that write values

The functions that write a type come with those of every type it is made of.  A function that writes
a container or a record hands its items and fields to another function.  `Writer` says which
function writes a type and is open about what it calls, so that what it should call and what it
calls can be told apart: it should call the function of the item or field, and it calls the one that
turns the prepared value into text.
-/

namespace ApiDescription.Client.Codec

open Outcome List FieldPart

open Code (Line Method)
open Relation (ReflTransGen)

variable {state : State} {api : Api} {format : Format}

variable {name : String} {schema : Schema} {part : FieldPart} {Callee : Schema → String → Prop}

/-! ## The parts of a type -/

/-- A part of a type whose values are handed to a function of their own. -/
inductive HandsOver (format : Format) : Schema → Schema → Prop
  | item {kind : Container} {item : TypeRef} (composed : ∀ primitive, item ≠ .primitive primitive) :
      HandsOver format (.reference (.container kind item)) (.reference item)
  | field {type : NamedTypeDef} {field : Field} {part : Schema}
      (member : field ∈ type.definition.fields) (composed : isPlain field.type = false)
      (found : fieldSchema format type.name field = .ok part) :
      HandsOver format (.named type) part

variable {type : NamedTypeDef} {Other : Schema → String → Prop} {owner : Doc} {field : Field}
  {function : Method} {functionsFor : Option Schema → Except Fault (List Method)}
  {inner : List Method} {fuel : Nat} {name' : String} {part' : FieldPart}
  {parts parts' : List FieldPart}

theorem HandsOver.exists_field {part : Schema} (handed : HandsOver format (.named type) part) :
    ∃ field ∈ type.definition.fields, isPlain field.type = false ∧
      fieldSchema format type.name field = .ok part := by
  cases handed with
  | field member composed found => exact ⟨_, member, composed, found⟩

/-- A type whose functions come along with those of a type. -/
inductive Needs (api : Api) (format : Format) : Schema → Schema → Prop
  | part {schema part : Schema} (handed : HandsOver format schema part) :
      Needs api format schema part
  | target {name : Doc} {schema : Schema} (found : api.lookup name = some schema) :
      Needs api format (.reference (.custom name)) schema

/-- The part that a field has in the function of its owner: `Callee schema name` says that values of
`schema` are handed to `name`. -/
structure FieldPart.Describes (state : State) (format : Format) (Callee : Schema → String → Prop)
    (owner : Doc) (field : Field) (part : FieldPart) : Prop where
  key : field.name.asText = .ok part.key
  parameter : state.parameter owner field.name.toDoc = .ok (some part.parameter)
  optional : part.optional = field.optional.isTruthy
  plain : isPlain field.type = true → part.callee = none
  composed : isPlain field.type = false → ∃ schema callee,
    fieldSchema format owner field = .ok schema ∧ part.callee = some callee ∧ Callee schema callee

theorem FieldPart.Describes.mono (described : part.Describes state format Callee owner field)
    (weaker : ∀ schema callee, isPlain field.type = false →
      fieldSchema format owner field = .ok schema → Callee schema callee → Other schema callee) :
    part.Describes state format Other owner field where
  key := described.key
  parameter := described.parameter
  optional := described.optional
  plain := described.plain
  composed composed := by
    obtain ⟨schema, callee, found, called, handed⟩ := described.composed composed
    exact ⟨schema, callee, found, called, weaker schema callee composed found handed⟩

/-- The function that writes a type, when values are handed over as `Callee` says. -/
inductive Writer (state : State) (api : Api) (format : Format) (Callee : Schema → String → Prop) :
    Schema → Method → Prop
  | primitive {primitive : Primitive} {name : String}
      (named : schemaCodecName api format.media "serialize"
        (some (.reference (.primitive primitive))) = .ok name) :
      Writer state api format Callee (.reference (.primitive primitive)) (plainWriter format name)
  | primitives {kind : Container} {primitive : Primitive} {name : String}
      (named : schemaCodecName api format.media "serialize"
        (some (.reference (.container kind (.primitive primitive)))) = .ok name) :
      Writer state api format Callee (.reference (.container kind (.primitive primitive)))
        (plainWriter format name)
  | items {kind : Container} {item : TypeRef} {name callee : String}
      (composed : ∀ primitive, item ≠ .primitive primitive)
      (named : schemaCodecName api format.media "serialize"
        (some (.reference (.container kind item))) = .ok name)
      (called : Callee (.reference item) callee) :
      Writer state api format Callee (.reference (.container kind item)) (itemsWriter name callee)
  | record {type : NamedTypeDef} {name : String} {parts : List FieldPart}
      (named : schemaCodecName api format.media "serialize" (some (.named type)) = .ok name)
      (fields : Forall₂ (Describes state format Callee type.name)
        type.definition.fields parts) :
      Writer state api format Callee (.named type) (recordWriter name parts)

theorem Writer.named (writer : Writer state api format Callee schema function) :
    schemaCodecName api format.media "serialize" (some schema) = .ok function.name := by
  cases writer with
  | primitive named | primitives named => exact named
  | items _ named _ => exact named
  | record named _ => exact named

theorem Writer.mono (writer : Writer state api format Callee schema function)
    (weaker : ∀ part callee, HandsOver format schema part → Callee part callee →
      Other part callee) :
    Writer state api format Other schema function := by
  cases writer with
  | primitive named => exact .primitive named
  | primitives named => exact .primitives named
  | items composed named called => exact .items composed named (weaker _ _ (.item composed) called)
  | record named fields =>
    refine .record named (((forall₂_and_left _ _).mpr ⟨fun _ => id, fields⟩).imp ?_)
    rintro field part ⟨member, described⟩
    exact described.mono fun schema callee composed found =>
      weaker schema callee (.field member composed found)

theorem Writer.exists_callee {kind : Container} {item : TypeRef}
    (writer : Writer state api format Callee (.reference (.container kind item)) function)
    (composed : ∀ primitive, item ≠ .primitive primitive) :
    ∃ name callee, function = itemsWriter name callee ∧ Callee (.reference item) callee := by
  cases writer with
  | primitives => exact absurd rfl (composed _)
  | items _ _ called => exact ⟨_, _, rfl, called⟩

theorem Writer.exists_parts (writer : Writer state api format Callee (.named type) function) :
    ∃ name parts, function = recordWriter name parts ∧
      Forall₂ (Describes state format Callee type.name) type.definition.fields
        parts := by
  cases writer with
  | record _ fields => exact ⟨_, _, rfl, fields⟩

/-! ## Fields in functions -/

theorem lastName_eq_ok {functions : List Method} :
    lastName functions = .ok name ↔ ∃ front last, functions = front ++ [last] ∧
      last.name = name := by
  unfold lastName
  induction functions using reverseRecOn with
  | nil => simp
  | append_singleton front last _ =>
    simp only [getLast?_append, getLast?_singleton, Option.some_or, Except.ok.injEq]
    constructor
    · intro equal
      exact ⟨front, last, rfl, equal⟩
    · rintro ⟨front', last', equal, named⟩
      obtain ⟨-, rfl⟩ := append_singleton_inj.mp equal
      exact named

theorem known_eq_ok {parameter : Option String} :
    known parameter = .ok name ↔ parameter = some name := by
  cases parameter <;> simp [known]

/-- A field has its part when its values are plain or its type has functions, the last of which is
called. -/
theorem fieldPart_eq_ok :
    fieldPart state format functionsFor owner field = .ok (inner, part) ↔
      Describes state format (fun schema callee =>
        functionsFor (some schema) = .ok inner ∧ lastName inner = .ok callee) owner field part ∧
      (isPlain field.type = true → inner = []) := by
  unfold fieldPart
  simp only [bind_eq_ok, known_eq_ok, pure_eq_ok, Except.ok.injEq, Prod.mk.injEq]
  constructor
  · rintro ⟨_, located, ⟨_, callee⟩, handed, parameter, rfl, key, written, rfl, rfl⟩
    unfold handOver at handed
    cases plain : isPlain field.type with
    | true =>
      simp only [plain, if_true, Except.ok.injEq, Prod.mk.injEq] at handed
      obtain ⟨rfl, rfl⟩ := handed
      exact ⟨⟨written, located, rfl, fun _ => rfl, by simp [plain]⟩, fun _ => rfl⟩
    | false =>
      simp only [plain, Bool.false_eq_true, if_false, bind_eq_ok, pure_eq_ok,
        Except.ok.injEq, Prod.mk.injEq] at handed
      obtain ⟨schema, found, inner', generated, last, isLast, rfl, rfl⟩ := handed
      exact ⟨⟨written, located, rfl, by simp [plain],
        fun _ => ⟨schema, last, found, rfl, generated, isLast⟩⟩, by simp⟩
  · rintro ⟨described, isEmpty⟩
    refine ⟨_, described.parameter, (inner, part.callee), ?_, part.parameter, rfl, part.key,
      described.key, rfl, ?_⟩
    · unfold handOver
      cases plain : isPlain field.type with
      | true => simp [isEmpty plain, described.plain plain]
      | false =>
        obtain ⟨schema, callee, found, called, generated, isLast⟩ := described.composed plain
        simp [found, generated, isLast, called]
    · rw [← described.optional]

theorem FieldPart.Describes.callee_eq (described : part.Describes state format Callee owner field)
    (other : part.Describes state format Other owner field) (composed : isPlain field.type = false)
    (found : fieldSchema format owner field = .ok schema) :
    ∃ callee, Callee schema callee ∧ Other schema callee := by
  obtain ⟨first, callee, isFirst, called, handed⟩ := described.composed composed
  obtain ⟨second, callee', isSecond, called', handed'⟩ := other.composed composed
  cases isFirst.symm.trans found
  cases isSecond.symm.trans found
  cases called.symm.trans called'
  exact ⟨callee, handed, handed'⟩

/-! ## The functions of parts -/

section Parts

variable {functionsFor : Option Schema → Except Fault (List Method)} {functions : List Method}

/-- Lists of functions for the parts of a type: there are no others, and every part has its list. -/
structure Parts (format : Format) (functionsFor : Option Schema → Except Fault (List Method))
    (schema : Schema) (inner : List (List Method)) : Prop where
  sound : ∀ functions ∈ inner, functions = [] ∨
    ∃ part, HandsOver format schema part ∧ functionsFor (some part) = .ok functions
  complete : ∀ part, HandsOver format schema part →
    ∃ functions ∈ inner, functionsFor (some part) = .ok functions

def LastOf (functionsFor : Option Schema → Except Fault (List Method)) (inner : List (List Method))
    (part : Schema) (callee : String) : Prop :=
  ∃ functions ∈ inner, functionsFor (some part) = .ok functions ∧ lastName functions = .ok callee

theorem parts_nil (alone : ∀ part, ¬ HandsOver format schema part) :
    Parts format functionsFor schema [] :=
  ⟨by simp, fun part handed => absurd handed (alone part)⟩

theorem parts_of_item {kind : Container} {item : TypeRef}
    (composed : ∀ primitive, item ≠ .primitive primitive)
    (generated : functionsFor (some (.reference item)) = .ok functions) :
    Parts format functionsFor (.reference (.container kind item)) [functions] where
  sound := by simpa using .inr ⟨_, .item composed, generated⟩
  complete := by
    rintro _ ⟨⟩
    exact ⟨functions, by simp, generated⟩

theorem parts_of_fields {type : NamedTypeDef} {parts : List (List Method × FieldPart)}
    (found : type.definition.fields.mapM (fieldPart state format functionsFor type.name) =
      .ok parts) :
    Parts format functionsFor (.named type) (parts.map Prod.fst) ∧
      Forall₂ (Describes state format (LastOf functionsFor (parts.map Prod.fst)) type.name)
        type.definition.fields (parts.map Prod.snd) := by
  refine ⟨⟨?_, ?_⟩, ?_⟩
  · rw [forall_mem_map]
    rintro ⟨inner, part⟩ inParts
    obtain ⟨field, declared, isPart⟩ := exists_of_mem_mapM found inParts
    obtain ⟨described, isEmpty⟩ := fieldPart_eq_ok.mp isPart
    cases composed : isPlain field.type with
    | true => exact .inl (isEmpty composed)
    | false =>
      obtain ⟨schema, callee, isSchema, -, generated, -⟩ := described.composed composed
      exact .inr ⟨schema, .field declared composed isSchema, generated⟩
  · intro next handed
    obtain ⟨field, declared, composed, isNext⟩ := handed.exists_field
    obtain ⟨⟨inner, part⟩, inParts, isPart⟩ := exists_mem_of_mapM found declared
    obtain ⟨schema, callee, isSchema, -, generated, -⟩ :=
      (fieldPart_eq_ok.mp isPart).1.composed composed
    cases isNext.symm.trans isSchema
    exact ⟨inner, mem_map_of_mem (f := Prod.fst) inParts, generated⟩
  · rw [forall₂_map_right_iff]
    refine ((forall₂_and_left _ _).mpr ⟨fun _ => id, (mapM_eq_ok.mp found).flip⟩).flip.imp ?_
    rintro field ⟨inner, part⟩ ⟨inParts, isPart⟩
    refine (fieldPart_eq_ok.mp isPart).1.mono ?_
    rintro schema callee - - ⟨generated, isLast⟩
    exact ⟨inner, mem_map_of_mem (f := Prod.fst) inParts, generated, isLast⟩

/-- The function that writes a type comes behind those of its parts, and hands each part to the last
of them.  A reference to a data type has the functions of that. -/
theorem exists_of_writersFor
    (named : schemaCodecName api format.media "serialize" (some schema) = .ok name)
    (found : writersFor state api format functionsFor name (some schema) = .ok functions) :
    (∃ target, schema = .reference (.custom target) ∧
      functionsFor (api.lookup target) = .ok functions) ∨
      ∃ inner function, functions = inner.flatten ++ [function] ∧
        Parts format functionsFor schema inner ∧
        Writer state api format (LastOf functionsFor inner) schema function := by
  match schema with
  | .anonymous _ => cases found
  | .named type =>
    obtain ⟨parts, divided, ⟨⟩⟩ := bind_eq_ok.mp found
    obtain ⟨all, fields⟩ := parts_of_fields divided
    exact .inr ⟨_, _, rfl, all, .record named fields⟩
  | .reference (.custom target) => exact .inl ⟨target, rfl, found⟩
  | .reference (.primitive _) =>
    cases found
    exact .inr ⟨[], _, rfl, parts_nil (by rintro _ ⟨⟩), .primitive named⟩
  | .reference (.container kind (.primitive _)) =>
    cases found
    exact .inr ⟨[], _, rfl, parts_nil (by rintro _ ⟨_⟩; simp_all), .primitives named⟩
  | .reference (.container kind (.custom _)) | .reference (.container kind (.container _ _)) =>
    obtain ⟨inner, within, rest⟩ := bind_eq_ok.mp found
    obtain ⟨callee, isLast, ⟨⟩⟩ := bind_eq_ok.mp rest
    exact .inr ⟨[inner], _, by simp, parts_of_item (by simp) within,
      .items (by simp) named ⟨inner, by simp, within, isLast⟩⟩

end Parts

/-! ## All functions of a type -/

theorem exists_of_writersWithin {schema : Option Schema} {functions : List Method}
    (found : writersWithin state api format fuel schema = .ok functions) :
    ∃ own, functions = own ++ [format.final] := by
  cases fuel with
  | zero => cases found
  | succ fuel =>
    obtain ⟨name, -, rest⟩ := bind_eq_ok.mp found
    obtain ⟨own, -, equal⟩ := bind_eq_ok.mp rest
    cases equal
    exact ⟨own, rfl⟩

theorem lastName_of_writersWithin {schema : Option Schema} {functions : List Method}
    (found : writersWithin state api format fuel schema = .ok functions) :
    lastName functions = .ok format.final.name := by
  obtain ⟨own, rfl⟩ := exists_of_writersWithin found
  exact lastName_eq_ok.mpr ⟨own, format.final, rfl, rfl⟩

/-- What a function is called for and what it calls: always the function that turns the prepared
value into text. -/
abbrev WriterOf (state : State) (api : Api) (format : Format) : Schema → Method → Prop :=
  Writer state api format fun _ callee => callee = format.final.name

/-- The functions write a type and all types that it needs, and nothing else. -/
structure Cover (state : State) (api : Api) (format : Format) (schema : Schema)
    (functions : List Method) : Prop where
  sound : ∀ function ∈ functions, function = format.final ∨
    ∃ written, ReflTransGen (Needs api format) schema written ∧
      WriterOf state api format written function
  complete : ∀ written, ReflTransGen (Needs api format) schema written →
    (∃ name, written = .reference (.custom name)) ∨
      ∃ function ∈ functions, WriterOf state api format written function

/-- Functions write a type and all it needs when its own function is among them, with the functions
of the types that it needs at once. -/
theorem Cover.of_needs {functions : List Method}
    (needed : ∀ next, Needs api format schema next → ∃ inner ⊆ functions,
      Cover state api format next inner)
    (sound : ∀ function ∈ functions, function = format.final ∨
      WriterOf state api format schema function ∨ ∃ next inner, Needs api format schema next ∧
        Cover state api format next inner ∧ function ∈ inner)
    (own : (∃ name, schema = .reference (.custom name)) ∨ ∃ function ∈ functions,
      WriterOf state api format schema function) :
    Cover state api format schema functions where
  sound function member := by
    rcases sound function member with final | writer | ⟨next, inner, needs, cover, inInner⟩
    · exact .inl final
    · exact .inr ⟨schema, .refl, writer⟩
    · refine (cover.sound function inInner).imp_right ?_
      rintro ⟨written, reached, writer⟩
      exact ⟨written, .head needs reached, writer⟩
  complete written reached := by
    cases reached.cases_head with
    | inl same => exact same ▸ own
    | inr step =>
      obtain ⟨next, needs, later⟩ := step
      obtain ⟨inner, included, cover⟩ := needed next needs
      refine (cover.complete written later).imp_right ?_
      rintro ⟨function, inInner, writer⟩
      exact ⟨function, included inInner, writer⟩

theorem Cover.of_parts {inner : List (List Method)} (parts : Parts format functionsFor schema inner)
    (writer : WriterOf state api format schema function)
    (cover : ∀ part functions, functionsFor (some part) = .ok functions →
      Cover state api format part functions) :
    Cover state api format schema (inner.flatten ++ [function] ++ [format.final]) := by
  apply Cover.of_needs
  · rintro next (handed | found)
    · obtain ⟨functions, inInner, generated⟩ := parts.complete next handed
      refine ⟨functions, fun other inFunctions => ?_, cover next functions generated⟩
      simp only [append_assoc, mem_append, mem_flatten]
      exact .inl ⟨functions, inInner, inFunctions⟩
    · cases writer
  · intro other member
    simp only [append_assoc, mem_append, mem_flatten, mem_singleton] at member
    rcases member with ⟨functions, inInner, inFunctions⟩ | rfl | rfl
    · rcases parts.sound functions inInner with rfl | ⟨part, handed, generated⟩
      · cases inFunctions
      · exact .inr (.inr ⟨part, functions, .part handed, cover part functions generated,
          inFunctions⟩)
    · exact .inr (.inl writer)
    · exact .inl rfl
  · exact .inr ⟨function, by simp, writer⟩

theorem Cover.of_target {name : Doc} (found : api.lookup name = some schema)
    (cover : Cover state api format schema inner) :
    Cover state api format (.reference (.custom name)) (inner ++ [format.final]) := by
  apply Cover.of_needs
  · rintro next (⟨⟨⟩⟩ | isNext)
    cases isNext.symm.trans found
    exact ⟨inner, by simp, cover⟩
  · intro function member
    simp only [mem_append, mem_singleton] at member
    rcases member with inInner | rfl
    · exact .inr (.inr ⟨schema, inner, .target found, cover, inInner⟩)
    · exact .inl rfl
  · exact .inl ⟨name, rfl⟩

theorem writersWithin_none (fuel : Nat) (functions : List Method) :
    writersWithin state api format fuel none ≠ .ok functions := by
  cases fuel <;> simp [writersWithin, schemaCodecName]

/-- The functions that are generated for a type write it and all types that it needs. -/
theorem cover_of_writersWithin {functions : List Method}
    (found : writersWithin state api format fuel (some schema) = .ok functions) :
    Cover state api format schema functions := by
  induction fuel generalizing schema functions with
  | zero => cases found
  | succ fuel ih =>
    obtain ⟨name, named, rest⟩ := bind_eq_ok.mp found
    obtain ⟨own, generated, ⟨⟩⟩ := bind_eq_ok.mp rest
    rcases exists_of_writersFor named generated with
      ⟨target, rfl, led⟩ | ⟨inner, function, rfl, parts, writer⟩
    · cases isSchema : api.lookup target with
      | none =>
        rw [isSchema] at led
        exact absurd led (writersWithin_none fuel own)
      | some schema =>
        rw [isSchema] at led
        exact .of_target isSchema (ih led)
    · refine .of_parts parts (writer.mono ?_) fun _ _ => ih
      rintro part callee - ⟨functions, -, generated, isLast⟩
      exact Except.ok.inj (isLast.symm.trans (lastName_of_writersWithin generated))

/-! ## What is called and what should be called -/

theorem itemsWriter_injective {callee callee' : String}
    (equal : itemsWriter name callee = itemsWriter name' callee') : callee = callee' := by
  have body := congrArg Method.body equal
  simpa [itemsWriter, function, Method.addLines, Method.addBlock, Method.addLine,
    Method.addArgument, Method.empty] using body

theorem prepared_injective (equal : part.prepared = part'.prepared) :
    part.callee = part'.callee ∧ part.parameter = part'.parameter := by
  unfold prepared at equal
  cases callee : part.callee <;> cases callee' : part'.callee <;> simp_all

theorem writeLines_append_injective {rest rest' : List Line}
    (equal : part.writeLines ++ rest = part'.writeLines ++ rest') :
    part = part' ∧ rest = rest' := by
  obtain ⟨key, parameter, callee, optional⟩ := part
  obtain ⟨key', parameter', callee', optional'⟩ := part'
  cases optional <;> cases optional' <;>
    simp only [writeLines, Bool.false_eq_true, if_false, if_true, cons_append,
      nil_append, cons.injEq, Line.code.injEq, Code.Fragment.quoted.injEq,
      Code.Fragment.code.injEq, reduceCtorEq, true_and, and_true, and_false, false_and] at equal
  · obtain ⟨⟨rfl, written⟩, rfl⟩ := equal
    obtain ⟨rfl, rfl⟩ := prepared_injective written
    exact ⟨rfl, rfl⟩
  · obtain ⟨rfl, ⟨rfl, written⟩, rfl⟩ := equal
    obtain ⟨rfl, -⟩ := prepared_injective written
    exact ⟨rfl, rfl⟩

theorem writeLines_injective (equal : parts.flatMap writeLines = parts'.flatMap writeLines) :
    parts = parts' := by
  have nonempty : ∀ part : FieldPart, part.writeLines ≠ [] := by
    intro part
    unfold writeLines
    split <;> simp
  induction parts generalizing parts' with
  | nil =>
    cases parts' with
    | nil => rfl
    | cons part' rest' => simp [nonempty part'] at equal
  | cons part rest ih =>
    cases parts' with
    | nil => simp [nonempty part] at equal
    | cons part' rest' =>
      obtain ⟨rfl, equalRest⟩ := writeLines_append_injective equal
      rw [ih equalRest]

theorem recordWriter_injective (equal : recordWriter name parts = recordWriter name' parts') :
    parts = parts' := by
  have body := congrArg Method.body equal
  apply writeLines_injective
  simpa [recordWriter, function, Method.addLines, Method.addLine, Method.addArgument, Method.empty]
    using body

/-- The function that values of a type should be handed to. -/
def Intended (api : Api) (format : Format) (schema : Schema) (name : String) : Prop :=
  schemaCodecName api format.media "serialize" (some schema) = .ok name

/-- A function that hands everything to one function hands it where it should exactly when that is
the function of every part. -/
theorem writer_intended_iff (writer : WriterOf state api format schema function) :
    Writer state api format (Intended api format) schema function ↔
      ∀ part, HandsOver format schema part → Intended api format part format.final.name := by
  constructor
  · intro right part handed
    cases handed with
    | item composed =>
      obtain ⟨name, callee, rfl, rfl⟩ := writer.exists_callee composed
      obtain ⟨name', callee', same, intended⟩ := right.exists_callee composed
      cases itemsWriter_injective same
      exact intended
    | field member composed found =>
      obtain ⟨name, parts, rfl, fields⟩ := writer.exists_parts
      obtain ⟨name', parts', same, fields'⟩ := right.exists_parts
      cases recordWriter_injective same
      obtain ⟨part, -, described, described'⟩ :=
        exists_result_of_mem (fields.mp (fun _ _ => And.intro) fields') member
      obtain ⟨callee, rfl, intended⟩ := described.callee_eq described' composed found
      exact intended
  · intro right
    refine writer.mono ?_
    rintro part _ handed rfl
    exact right part handed

def Format.codec : Format → Codec
  | json => .json
  | form => .form

/-- The functions for a type are those of all types that it needs, each with the name of its type.
All of them hand their items and fields to the function that turns the prepared value into text,
which is right exactly for parts whose own function has that name. -/
theorem writers_hand_to_final {schema : Schema} {functions : List Method}
    (found : format.codec.writers state api (some schema) = .ok functions) :
    (∀ function ∈ functions, function = format.final ∨
      ∃ written, ReflTransGen (Needs api format) schema written ∧
        WriterOf state api format written function ∧
        (Writer state api format (Intended api format) written function ↔
          ∀ part, HandsOver format written part → Intended api format part format.final.name)) ∧
    ∀ written, ReflTransGen (Needs api format) schema written →
      (∃ name, written = .reference (.custom name)) ∨
        ∃ function ∈ functions, WriterOf state api format written function := by
  have cover : Cover state api format schema functions := by
    cases format <;> exact cover_of_writersWithin found
  refine ⟨fun function member => ?_, cover.complete⟩
  refine (cover.sound function member).imp_right ?_
  rintro ⟨written, reached, writer⟩
  exact ⟨written, reached, writer, writer_intended_iff writer⟩

namespace Orders

def item : NamedTypeDef :=
  { name := "Item"
    definition :=
      ⟨[⟨"code", none, .bool false, .reference (.primitive .string) .null⟩], [], none⟩ }

def order : NamedTypeDef :=
  { name := "Order"
    definition :=
      ⟨[⟨"item", none, .bool false, .reference (.custom "Item") .null⟩,
        ⟨"extras", none, .bool true,
          .reference (.container .list (.custom "Item")) .null⟩], [], none⟩ }

def description : Api :=
  { name := "orders", base := ["/"], dataTypes := [order, item] }

/-- The client once the classes for both data types are generated. -/
def client : State :=
  ((description.dataTypes.forM generateDataType).run.run State.empty).2

def writer : Method :=
  recordWriter "serialize_Order_json"
    [⟨"item", "item", some "serialize_final_json", false⟩,
      ⟨"extras", "extras", some "serialize_final_json", true⟩]

def functions : List Method :=
  [recordWriter "serialize_Item_json" [⟨"code", "code", none, false⟩], Format.json.final,
    Format.json.final,
    recordWriter "serialize_Item_json" [⟨"code", "code", none, false⟩], Format.json.final,
    Format.json.final, itemsWriter "serialize_list_Item_json" "serialize_final_json",
    Format.json.final, writer, Format.json.final]

theorem writers_eq :
    Format.json.codec.writers client description (some (.named order)) = .ok functions := by
  cbv

theorem needs_item :
    Needs description .json (.named order) (.reference (.custom "Item")) :=
  .part (.field mem_cons_self rfl rfl)

end Orders

theorem orders_hand_to_final :
    Format.json.codec.writers Orders.client Orders.description (some (.named Orders.order)) =
      .ok Orders.functions ∧
    ∃ function ∈ Orders.functions,
      WriterOf Orders.client Orders.description .json (.named Orders.item) function := by
  refine ⟨Orders.writers_eq, ?_⟩
  have target : Needs Orders.description .json (.reference (.custom "Item"))
      (.named Orders.item) := .target (by cbv)
  rcases (writers_hand_to_final Orders.writers_eq).2 _
    (.head Orders.needs_item (.single target)) with ⟨name, impossible⟩ | found
  · cases impossible
  · exact found

/-- The item of an order is not handed to the function that writes items. -/
theorem order_item_not_handed_to_item :
    Format.json.codec.writers Orders.client Orders.description (some (.named Orders.order)) =
      .ok Orders.functions ∧
    Orders.writer ∈ Orders.functions ∧
    ¬ Writer Orders.client Orders.description .json (Intended Orders.description .json)
      (.named Orders.order) Orders.writer := by
  refine ⟨Orders.writers_eq, by simp [Orders.functions], fun right => ?_⟩
  obtain ⟨name, parts, same, fields⟩ := right.exists_parts
  cases recordWriter_injective same
  cases fields with
  | cons described _ =>
    obtain ⟨schema, callee, found, called, intended⟩ := described.composed rfl
    cases found
    cases called
    have named : schemaCodecName Orders.description "json" "serialize"
        (some (.reference (.custom "Item"))) = .ok "serialize_Item_json" := by cbv
    exact absurd (Except.ok.inj (intended.symm.trans named)) (by decide)

end ApiDescription.Client.Codec
