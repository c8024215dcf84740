import ApiDescription.Proofs.Writers

/-!
# Functions that read values

The functions that read a type come behind those of the types it is made of.  `Reader` says which
function reads a type and, as `Writer` does, is open about what it calls; reading hands items and
fields to the last function of their types.  What holds of the functions of a type when it holds of
those of its parts holds of all of them.
-/

namespace ApiDescription.Client.Codec

open Outcome

open Code (Line Method)

variable {state : State} {api : Api} {name : String} {schema : Schema} {type : NamedTypeDef}
  {functionsFor : Option Schema → Except Fault (List Method)} {functions : List Method} {fuel : Nat}

/-- Whether a data type is read field by field. -/
def isReadAsRecord (type : NamedTypeDef) : Bool :=
  match TypeRef.ofName type.name with
  | .primitive _ => false
  | .container _ _ | .custom _ => !type.name.same (.text TypeRef.apiName)

theorem recordReaders_eq (functionsFor : Option Schema → Except Fault (List Method)) (name : String)
    (isRecord : isReadAsRecord type = true) :
    recordReaders state functionsFor name type = (do
      let className ← state.className type.name
      let parts ← type.definition.fields.mapM (fieldPart state .json functionsFor type.name)
      return (parts.map Prod.fst).flatten ++
        [recordReader name className (parts.map Prod.snd)]) := by
  unfold recordReaders
  revert isRecord
  unfold isReadAsRecord
  cases TypeRef.ofName type.name with
  | primitive kind =>
    intro impossible
    cases impossible
  | container kind item => simp +contextual
  | custom target => simp +contextual

theorem exists_of_not_record (name : String) (isWhole : isReadAsRecord type = false) :
    ∃ result : Line, (result = "return data" ∨ result = "return API(data)") ∧
      ∀ state functionsFor,
        recordReaders state functionsFor name type = .ok [objectReader name [result]] := by
  unfold recordReaders
  revert isWhole
  unfold isReadAsRecord
  cases TypeRef.ofName type.name with
  | primitive kind => exact fun _ => ⟨_, .inl rfl, fun _ _ => rfl⟩
  | container | custom =>
    intro isApi
    rw [Bool.not_eq_false'] at isApi
    exact ⟨_, .inr rfl, fun _ _ => by simp [isApi]⟩

/-- The function of the given name that reads a type, when values are handed over as `Callee`
says. -/
inductive Reader (state : State) (Callee : Schema → String → Prop) (name : String) :
    Schema → Method → Prop
  | primitive {primitive : Primitive} :
      Reader state Callee name (.reference (.primitive primitive)) (plainReader name)
  | primitives {kind : Container} {primitive : Primitive} :
      Reader state Callee name (.reference (.container kind (.primitive primitive)))
        (itemsReader kind name none)
  | items {kind : Container} {item : TypeRef} {callee : String}
      (composed : ∀ primitive, item ≠ .primitive primitive)
      (called : Callee (.reference item) callee) :
      Reader state Callee name (.reference (.container kind item))
        (itemsReader kind name (some callee))
  | whole {type : NamedTypeDef} {result : Line} (isWhole : isReadAsRecord type = false)
      (isResult : result = "return data" ∨ result = "return API(data)") :
      Reader state Callee name (.named type) (objectReader name [result])
  | record {type : NamedTypeDef} {className : String} {parts : List FieldPart}
      (isRecord : isReadAsRecord type = true) (isClass : state.className type.name = .ok className)
      (fields : List.Forall₂ (FieldPart.Describes state .json Callee type.name)
        type.definition.fields parts) :
      Reader state Callee name (.named type) (recordReader name className parts)

variable {Callee : Schema → String → Prop} {function : Method}

theorem Reader.name_eq (reader : Reader state Callee name schema function) :
    function.name = name := by
  cases reader <;> rfl

theorem Reader.mono {Other : Schema → String → Prop}
    (reader : Reader state Callee name schema function)
    (weaker : ∀ part callee, HandsOver .json schema part → Callee part callee → Other part callee) :
    Reader state Other name schema function := by
  cases reader with
  | primitive => exact .primitive
  | primitives => exact .primitives
  | items composed called => exact .items composed (weaker _ _ (.item composed) called)
  | whole isWhole isResult => exact .whole isWhole isResult
  | record isRecord isClass fields =>
    refine .record isRecord isClass (((List.forall₂_and_left _ _).mpr ⟨fun _ => id, fields⟩).imp ?_)
    rintro field part ⟨member, described⟩
    exact described.mono fun schema callee composed found =>
      weaker schema callee (.field member composed found)

/-- The function that reads a type comes behind those of its parts, and hands each part to the last
of them.  A reference to a data type has the functions of that. -/
theorem exists_of_readersFor
    (found : readersFor state api functionsFor name (some schema) = .ok functions) :
    (∃ target, schema = .reference (.custom target) ∧
      functionsFor (api.lookup target) = .ok functions) ∨
      ∃ inner function, functions = inner.flatten ++ [function] ∧
        (Parts .json functionsFor schema inner ∨
          inner = [] ∧ ∃ type, schema = .named type ∧ isReadAsRecord type = false) ∧
        Reader state (LastOf functionsFor inner) name schema function := by
  match schema with
  | .anonymous _ => cases found
  | .named type =>
    rw [readersFor] at found
    cases isRecord : isReadAsRecord type with
    | false =>
      obtain ⟨result, isResult, whole⟩ := exists_of_not_record name isRecord
      cases (whole state functionsFor).symm.trans found
      exact .inr ⟨[], _, rfl, .inr ⟨rfl, type, rfl, isRecord⟩, .whole isRecord isResult⟩
    | true =>
      rw [recordReaders_eq _ _ isRecord] at found
      obtain ⟨className, isClass, rest⟩ := bind_eq_ok.mp found
      obtain ⟨parts, divided, ⟨⟩⟩ := bind_eq_ok.mp rest
      obtain ⟨all, fields⟩ := parts_of_fields divided
      exact .inr ⟨_, _, rfl, .inl all, .record isRecord isClass fields⟩
  | .reference (.custom target) => exact .inl ⟨target, rfl, found⟩
  | .reference (.primitive _) =>
    cases found
    exact .inr ⟨[], _, rfl, .inl (parts_nil (by rintro _ ⟨⟩)), .primitive⟩
  | .reference (.container kind (.primitive _)) =>
    cases found
    exact .inr ⟨[], _, rfl, .inl (parts_nil (by rintro _ ⟨_⟩; simp_all)), .primitives⟩
  | .reference (.container kind (.custom _)) | .reference (.container kind (.container _ _)) =>
    obtain ⟨inner, within, rest⟩ := bind_eq_ok.mp found
    obtain ⟨callee, isLast, ⟨⟩⟩ := bind_eq_ok.mp rest
    exact .inr ⟨[inner], _, by simp, .inl (parts_of_item (by simp) within),
      .items (by simp) ⟨inner, by simp, within, isLast⟩⟩

/-- The last of the functions that read a type has the name for it, unless the type is a reference
to a data type. -/
theorem lastName_of_readersFor
    (found : readersFor state api functionsFor name (some schema) = .ok functions)
    (direct : ∀ target, schema ≠ .reference (.custom target)) : lastName functions = .ok name := by
  rcases exists_of_readersFor found with ⟨target, isReference, -⟩ | ⟨inner, function, rfl, -,
    reader⟩
  · exact absurd isReference (direct target)
  · exact lastName_eq_ok.mpr ⟨_, _, rfl, reader.name_eq⟩

theorem readersWithin_none (fuel : Nat) (functions : List Method) :
    readersWithin state api fuel none ≠ .ok functions := by
  cases fuel <;> simp [readersWithin, schemaCodecName]

/-- What holds of the functions of a type when it holds of those of its parts holds of all functions
that are generated. -/
theorem readersWithin_induct {P : Schema → List Method → Prop}
    (direct : ∀ schema name (inner : List (List Method)) function,
      schemaCodecName api Format.json.media "deserialize" (some schema) = .ok name →
      (∀ functions ∈ inner, functions = [] ∨ ∃ part, HandsOver .json schema part ∧
        P part functions) →
      Reader state (fun part callee => ∃ functions ∈ inner, P part functions ∧
        lastName functions = .ok callee)
        name schema function → P schema (inner.flatten ++ [function]))
    (target : ∀ target name schema functions,
      schemaCodecName api Format.json.media "deserialize" (some (.reference (.custom target))) =
        .ok name →
      api.lookup target = some schema → P schema functions →
      P (.reference (.custom target)) functions)
    (found : readersWithin state api fuel (some schema) = .ok functions) : P schema functions := by
  induction fuel generalizing schema functions with
  | zero => cases found
  | succ fuel ih =>
    obtain ⟨name, named, generated⟩ := bind_eq_ok.mp found
    rcases exists_of_readersFor generated with ⟨next, rfl, led⟩ | ⟨inner, function, rfl, parts,
      reader⟩
    · cases isSchema : api.lookup next with
      | none =>
        rw [isSchema] at led
        exact absurd led (readersWithin_none fuel functions)
      | some schema =>
        rw [isSchema] at led
        exact target next name schema functions named isSchema (ih led)
    · refine direct schema name inner function named (fun functions inInner => ?_) (reader.mono ?_)
      · rcases parts with parts | ⟨rfl, -⟩
        · refine (parts.sound functions inInner).imp_right ?_
          rintro ⟨part, handed, generated⟩
          exact ⟨part, handed, ih generated⟩
        · cases inInner
      · rintro part callee - ⟨functions, inInner, generated, isLast⟩
        exact ⟨functions, inInner, ih generated, isLast⟩

end ApiDescription.Client.Codec
