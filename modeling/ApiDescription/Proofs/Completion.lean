import ApiDescription.Proofs.Arguments
import ApiDescription.Proofs.Codable

/-!
# Generation to the end

A client is generated to the end when every step finds what it needs: a class for each type, a
function name for each type that is written or read, an argument for each value that goes into a
request.  Where a description speaks of JSON only and keeps its class names apart, one thing is left
that stops the generator: a `POST` or `PUT` operation whose input type is written on the spot has no
function name for its payload.
-/

namespace ApiDescription

open Outcome List

namespace Client

open Code (ClassDef Line Method)

variable {before : Draft} {target : TypeRef} {state : State} {contentTypes : List String}
  {resource : Resource} {link : Doc} {name : String}

/-! ## Functions of a client -/

variable {api : Api}

theorem Codec.Codable.functions {schema : Schema} (codable : Codec.Codable state api schema)
    (functions : List Method) :
    Codec.Codable { state with functions } api schema := by
  cases schema with
  | reference target => exact codable
  | anonymous definition => exact codable
  | named type =>
    rcases codable with isApi | ⟨key, isText, table, finds⟩
    · exact .inl isApi
    · refine .inr ⟨key, isText, table.mono (append_nil _).symm rfl ?_, finds⟩
      intro request _ _
      rfl

/-- The data types of a description go by texts, everything they refer to is found, and none of them
leads back to itself. -/
structure Sound (api : Api) : Prop where
  names : ∀ type ∈ api.dataTypes, ∃ key, type.name = .text key
  acyclic : ∀ type ∈ api.dataTypes, api.Acyclic (.named type)
  finds : ∀ type ∈ api.dataTypes, ∀ field ∈ type.definition.fields, ∀ target link,
    (DataType.reference target link).Within field.type → Codec.Finds api target

section Functions

variable {api : Api} {done : List ClassRequest} {schema : Schema}

theorem Ready.codable (ready : Ready api.dataTypes done state) (sound : Sound api) :
    ∀ type ∈ api.dataTypes, Codec.Codable state api (.named type) := by
  intro type member
  obtain ⟨key, isText, -, table⟩ := ready.tables type member
  exact .inr ⟨key, isText, table, sound.finds type member⟩

/-- A client with a type that functions can be generated for. -/
structure Serving (api : Api) (done : List ClassRequest) (schema : Schema) (state : State) :
    Prop where
  ready : Ready api.dataTypes done state
  codable : Codec.Codable state api schema

theorem completes_addFunction (function : Method) :
    Completes (Serving api done schema) (Build.addFunction function) := by
  intro before serving
  have stem : NameStyle.method.stem (.text function.name) = .ok (NameStyle.method.ofCleaned
        (String.ofList (function.name.toList.filter isNameChar))) := rfl
  refine ⟨⟨⟩, _, (returns_addFunction stem).mpr rfl, ?_⟩
  split_ifs
  · exact serving
  · exact ⟨serving.ready.functions _, serving.codable.functions _⟩

theorem mediaName_json : mediaName "application/json" = .ok "json" := rfl

theorem completes_generateFunctions {functionsOf : Codec → State → Except Fault (List Method)}
    (generated : ∀ state, Serving api done schema state → ∃ functions,
      functionsOf .json state = .ok functions)
    (json : ∀ contentType ∈ contentTypes, contentType = "application/json") :
    Completes (Serving api done schema) (generateFunctions functionsOf contentTypes) := by
  apply Completes.forM
  intro contentType member
  rw [json contentType member]
  apply Yields.lift_bind mediaName_json
  exact .get_lift_bind generated fun functions => Completes.forM fun function _ =>
    completes_addFunction function

theorem completes_generateWriters (sound : Sound api)
    (json : ∀ contentType ∈ contentTypes, contentType = "application/json") :
    Completes (Serving api done schema) (generateWriters api (some schema) contentTypes) :=
  completes_generateFunctions (fun _ serving => Codec.exists_writers (serving.ready.codable sound)
    sound.acyclic serving.codable) json

theorem completes_generateReaders (sound : Sound api)
    (json : ∀ contentType ∈ contentTypes, contentType = "application/json") :
    Completes (Serving api done schema) (generateReaders api (some schema) contentTypes) :=
  completes_generateFunctions (fun _ serving => Codec.exists_readers (serving.ready.codable sound)
    sound.acyclic serving.codable) json

theorem completes_writersOf (sound : Sound api)
    (json : ∀ contentType ∈ contentTypes, contentType = "application/json") {type : Option Schema}
    (has : ∀ state, Ready api.dataTypes done state → ∃ schema, type = some schema ∧
      Codec.Codable state api schema) :
    Completes (Ready api.dataTypes done) (generateWriters api type contentTypes) := by
  intro before ready
  obtain ⟨schema, rfl, codable⟩ := has before ready
  obtain ⟨value, after, ran, serving⟩ :=
    completes_generateWriters sound json before ⟨ready, codable⟩
  exact ⟨value, after, ran, serving.ready⟩

end Functions

/-! ## Steps of a method under construction -/

def Maps (method : Method) (key : String) : Prop :=
  ∃ argument, method.mapping (.text key) = .ok argument

/-- A method under construction, in a client of some kind and with keys that are mapped. -/
structure Holds (Client : State → Prop) (keys : List String) (draft : Draft) : Prop where
  client : Client draft.client
  maps : ∀ key ∈ keys, Maps draft.method key

section Drafting

variable {Client : State → Prop} {keys : List String}

theorem completes_change {step : Method → Method}
    (mappings : ∀ method, (step method).mappings = method.mappings) :
    Completes (Holds Client keys) (Drafting.change step) := by
  intro before holds
  refine ⟨⟨⟩, _, returns_change.mpr rfl, holds.client, ?_⟩
  intro key member
  obtain ⟨argument, isMapped⟩ := holds.maps key member
  refine ⟨argument, ?_⟩
  rw [← isMapped, Method.mapping, Method.mapping, mappings]

theorem completes_write (statement : Statement) :
    Completes (Holds Client keys) (Drafting.write statement) :=
  completes_change fun _ => rfl

variable {key : String}

theorem completes_mapping (member : key ∈ keys) :
    Completes (Holds Client keys) (Drafting.mapping (.text key)) := by
  intro before holds
  obtain ⟨argument, isMapped⟩ := holds.maps key member
  exact ⟨argument, before, returns_mapping.mpr ⟨isMapped, rfl⟩, holds⟩

theorem Yields.build {α : Type} {work : Build α} {After : State → Prop}
    (yields : Yields Client work fun _ => After) :
    Yields (Holds Client keys) (Drafting.build work) fun _ => Holds After keys := by
  intro before holds
  obtain ⟨value, client, ran, kept⟩ := yields before.client holds.client
  exact ⟨value, _, returns_build.mpr ⟨client, ran, rfl⟩, kept, holds.maps⟩

theorem Holds.declaring {before : Draft} (holds : Holds Client keys before)
    (declared : List Declaration) :
    Holds Client (keys ++ declared.map (·.key)) (before.declaring declared) := by
  induction declared generalizing keys before with
  | nil => simpa using holds
  | cons declaration rest ih =>
    rw [map_cons, ← singleton_append, ← append_assoc]
    refine @ih (keys ++ [declaration.key]) (before.declaring [declaration]) ⟨holds.client,
      fun other member => ?_⟩
    by_cases same : other = declaration.key
    · exact ⟨_, (mapping_declare _ _ _).trans (if_pos same)⟩
    · obtain ⟨argument, isMapped⟩ := holds.maps other (by simpa [same] using member)
      exact ⟨argument, ((mapping_declare _ _ _).trans (if_neg same)).trans isMapped⟩

theorem yields_argument {type : Doc} {default : Option String} :
    Yields (Holds Client keys) (Drafting.argument (.text key) type default) fun _ =>
      Holds Client (keys ++ [key]) := by
  intro before holds
  exact ⟨⟨⟩, _, returns_argument.mpr ⟨key, rfl, rfl⟩, holds.declaring [⟨key, type, default⟩]⟩

end Drafting

/-! ## Parameters -/

/-- The bindings of a parameter can be used: all of them go by the text that the first goes by, and
refer to their types. -/
def Bound (resource : Resource) (parameter : Parameter) : Prop :=
  ∃ bindings, bindingsOf resource parameter = .ok bindings ∧ ∀ binding ∈ bindings,
    ∃ first text target link, boundTo resource parameter = some first ∧ first.name = .text text ∧
      binding.name = .text text ∧ binding.type = .reference target link

def boundNames (resource : Resource) (parameters : List Parameter) : List String :=
  (wireNames resource parameters).map fun label => label.toDoc.textOrEmpty

theorem mem_boundNames {parameters : List Parameter} {parameter : Parameter} {first : InputBinding}
    {text : String} (declared : parameter ∈ parameters)
    (isBound : boundTo resource parameter = some first) (named : first.name = .text text) :
    text ∈ boundNames resource parameters := by
  refine mem_map.mpr ⟨.text text, mem_filterMap.mpr ⟨parameter, declared, ?_⟩, rfl⟩
  rw [isBound, Option.map_some, named]

section Parameters

variable {Client : State → Prop} {keys : List String}
  {parameters : List Parameter} {resource : Resource}

theorem keys_eq_boundNames {own : List (List Declaration)}
    (legible : ∀ parameter ∈ parameters, parameter.source.Legible)
    (found : parameters.mapM (declarationsOf resource) = .ok own) :
    own.flatten.map (·.key) = boundNames resource parameters := by
  induction parameters generalizing own with
  | nil =>
    cases found
    rfl
  | cons parameter rest ih =>
    rw [forall_mem_cons] at legible
    rw [mapM_cons] at found
    obtain ⟨first, isFirst, found⟩ := bind_eq_ok.mp found
    obtain ⟨others, areOthers, ⟨⟩⟩ := bind_eq_ok.mp found
    have step := declaration_of_boundTo legible.1 isFirst
    rw [flatten_cons, map_append, ih legible.2 areOthers]
    cases isBound : boundTo resource parameter with
    | none =>
      rw [isBound] at step
      simp [step, boundNames, wireNames, isBound]
    | some binding =>
      rw [isBound] at step
      obtain ⟨declaration, rfl, named, -⟩ := step
      simp [boundNames, wireNames, isBound, named, Label.toDoc, Doc.textOrEmpty]

theorem yields_declareParameters (bound : ∀ parameter ∈ parameters, Bound resource parameter)
    (legible : ∀ parameter ∈ parameters, parameter.source.Legible) :
    Yields (Holds Client keys) (parameters.forM (declareParameter resource)) fun _ =>
      Holds Client (keys ++ boundNames resource parameters) := by
  obtain ⟨own, found⟩ : ∃ own, parameters.mapM (declarationsOf resource) = .ok own := by
    refine exists_mapM_of_forall fun parameter member => ?_
    obtain ⟨bindings, found, usable⟩ := bound parameter member
    cases bindings with
    | nil => exact ⟨[], by rw [declarationsOf, found]; rfl⟩
    | cons binding others =>
      obtain ⟨first, text, target, link, -, -, named, isReference⟩ := usable binding mem_cons_self
      exact ⟨_, by rw [declarationsOf, found, ok_bind]; simp only [isReference,
        typeName, named]; rfl⟩
  intro before holds
  refine ⟨⟨⟩, _, returns_declareParameters.mpr ⟨own, found, rfl⟩, ?_⟩
  rw [← keys_eq_boundNames legible found]
  exact holds.declaring _

/-! ## The query and the path -/

theorem completes_writeQueryValue {binding : InputBinding} {text : String}
    (named : binding.name = .text text) (mapped : text ∈ keys)
    (isReference : binding.type = .reference target link) :
    Completes (Holds Client keys) (writeQueryValue binding) := by
  unfold writeQueryValue
  rw [named, isReference]
  apply Yields.bind (completes_mapping mapped)
  intro argument
  apply Yields.lift_bind rfl
  exact .lift_bind rfl (completes_write _)

theorem completes_writeQueryParameter {parameter : Parameter} (bound : Bound resource parameter)
    (mapped : ∀ text ∈ boundNames resource [parameter], text ∈ keys) :
    Completes (Holds Client keys) (writeQueryParameter resource parameter) := by
  obtain ⟨bindings, found, usable⟩ := bound
  apply Yields.lift_bind found
  apply Completes.forM
  intro binding member
  obtain ⟨first, text, target, link, isBound, isFirst, named, isReference⟩ :=
    usable binding (mem_of_mem_filter member)
  exact completes_writeQueryValue named (mapped text (mem_boundNames mem_cons_self isBound isFirst))
    isReference

theorem exists_anyQuery (bound : ∀ parameter ∈ parameters, Bound resource parameter) :
    ∃ found, anyQuery resource parameters = .ok found := by
  induction parameters with
  | nil => exact ⟨false, rfl⟩
  | cons parameter rest ih =>
    rw [forall_mem_cons] at bound
    obtain ⟨bindings, found, -⟩ := bound.1
    rw [anyQuery, found, ok_bind]
    split_ifs
    · exact ⟨true, rfl⟩
    · exact ih bound.2

theorem boundNames_subset {some all : List Parameter} (subset : some ⊆ all) :
    boundNames resource some ⊆ boundNames resource all :=
  map_subset _ (filterMap_subset _ subset)

variable {operation : Operation} {method : Method} {path : String}

theorem completes_writeQuery
    (bound : ∀ parameter ∈ Operation.parameters operation, Bound resource parameter)
    (mapped : ∀ text ∈ boundNames resource (Operation.parameters operation), text ∈ keys) :
    Completes (Holds Client keys) (writeQuery resource operation) := by
  obtain ⟨found, isFound⟩ := exists_anyQuery bound
  apply Yields.bind (completes_write _)
  intro _
  apply Yields.lift_bind (isFound : hasQuery resource operation = .ok found)
  cases found with
  | false => exact .pure fun _ => id
  | true =>
    apply Yields.bind (completes_write _)
    intro _
    apply Yields.bind
    · apply Completes.forM
      intro parameter declared
      have single : [parameter] ⊆ Operation.parameters operation := by simpa using declared
      exact completes_writeQueryParameter (bound parameter declared) fun text member =>
        mapped text (boundNames_subset single member)
    · intro _
      exact completes_write _

theorem exists_fillPlaces {method : Method} {path : String} {bindings : List InputBinding}
    (mapped : ∀ binding ∈ bindings, ∃ text, binding.name = .text text ∧ Maps method text) :
    ∃ filled, fillPlaces method (.text path) bindings = .ok (.text filled) := by
  induction bindings generalizing path with
  | nil => exact ⟨path, rfl⟩
  | cons binding rest ih =>
    rw [forall_mem_cons] at mapped
    obtain ⟨⟨text, named, argument, isMapped⟩, others⟩ := mapped
    rw [fillPlaces, named, Label.toDoc, isMapped]
    exact ih others

theorem exists_fillParameters (bound : ∀ parameter ∈ parameters, Bound resource parameter)
    (mapped : ∀ text ∈ boundNames resource parameters, Maps method text) :
    ∃ filled, fillParameters resource method (.text path) parameters = .ok (.text filled) := by
  induction parameters generalizing path with
  | nil => exact ⟨path, rfl⟩
  | cons parameter rest ih =>
    rw [forall_mem_cons] at bound
    obtain ⟨bindings, found, usable⟩ := bound.1
    have placed : ∀ binding ∈ bindings, ∃ text, binding.name = .text text ∧ Maps method text := by
      intro binding member
      obtain ⟨first, text, _, _, isBound, isFirst, named, -⟩ := usable binding member
      exact ⟨text, named, mapped text (mem_boundNames mem_cons_self isBound isFirst)⟩
    obtain ⟨filled, isFilled⟩ := @exists_fillPlaces method path bindings placed
    rw [fillParameters, found, ok_bind, isFilled]
    apply ih bound.2
    intro text member
    exact mapped text (boundNames_subset (subset_cons_self _ _) member)

theorem exists_pathExpression (isText : resource.path = .text path)
    (places : hasPlaces resource.path = true → operation.input.isSome)
    (bound : ∀ parameter ∈ Operation.parameters operation, Bound resource parameter)
    (mapped : ∀ text ∈ boundNames resource (Operation.parameters operation), Maps method text) :
    ∃ expression, pathExpression resource operation method = .ok expression := by
  obtain ⟨filled, isFilled⟩ : ∃ filled,
      filledPath resource operation method = .ok (.text filled) := by
    unfold filledPath
    split_ifs with hasPlaces
    · obtain ⟨input, hasInput⟩ := Option.isSome_iff_exists.mp (places hasPlaces)
      have parameters : Operation.parameters operation = input.params := by
        simp [Operation.parameters, hasInput]
      rw [parameters] at bound mapped
      simp only [hasInput, isText]
      exact exists_fillParameters bound mapped
    · exact ⟨path, by rw [isText]⟩
  rw [pathExpression, isFilled]
  exact ⟨_, rfl⟩

end Parameters

/-! ## The payload -/

/-- The key of the data type that stands for a type written on the spot in an operation. -/
def operationKey (resource : Resource) (operation : Operation) (ending : String) : String :=
  resource.name.toDoc.textOrEmpty ++ "_" ++ operation.name.toDoc.textOrEmpty ++ "_" ++ ending

theorem operationTypeName_eq {operation : Operation} {label : String}
    (resourceName : resource.name = .text name) (operationName : operation.name = .text label)
    (ending : String) :
    operationTypeName resource operation ending = .ok (operationKey resource operation ending) := by
  unfold operationTypeName operationKey
  rw [resourceName, operationName]
  rfl

/-- What an operation takes or gives can be worked on: its fields go by texts and everything it
refers to is found. -/
structure Workable (api : Api) (type : DataType) : Prop where
  spelled : type.Spelled
  finds : ∀ target link, (DataType.reference target link).Within type → Codec.Finds api target

theorem Workable.reference (workable : Workable api (.reference target link)) :
    Codec.Finds api target :=
  workable.finds target link .self

section Operations

variable {api : Api} {done : List ClassRequest} {keys : List String} {resource : Resource}
  {operation : Operation}

theorem yields_standIn {definition : TypeDef} (name : String)
    (workable : Workable api (.inline definition))
    (admissible : Admissible done (recordRequests name definition)) :
    Yields (Ready api.dataTypes done) (generateDataType (.standIn name definition)) fun _ =>
      Serving api (done ++ recordRequests name definition) (.named (.standIn name definition)) := by
  have requests : recordRequests name (NamedTypeDef.standIn name definition).definition =
      recordRequests name definition := by
    rw [recordRequests_eq, recordRequests_eq]
    rfl
  have spelled : (DataType.inline (NamedTypeDef.standIn name definition).definition).Spelled := by
    intro inner within
    rcases DataType.within_inline.mp within with ⟨⟨⟩⟩ | ⟨field, declared, below⟩
    · exact workable.spelled definition .self
    · exact workable.spelled inner (.field declared below)
  rw [← requests] at admissible ⊢
  intro before ready
  obtain ⟨after, ran, readyAfter, table⟩ :=
    exists_returns_generateDataType ready rfl spelled admissible
  refine ⟨⟨⟩, after, ran, readyAfter, .inr ⟨name, rfl, table, ?_⟩⟩
  intro field declared target link within
  exact workable.finds target link (.field declared within)

variable {label : String} {type : DataType}

theorem yields_declarePayload (sound : Sound api) (resourceName : resource.name = .text name)
    (operationName : operation.name = .text label) {input : Input}
    (json : ∀ contentType ∈ input.contentType, contentType = "application/json")
    (workable : Workable api type)
    (admissible : Admissible done
      (inlineRequests (operationKey resource operation "InputType") type)) :
    Yields (Holds (Ready api.dataTypes done) keys)
      (declarePayload api resource operation input type) fun _ =>
      Holds (Ready api.dataTypes (done ++
        inlineRequests (operationKey resource operation "InputType") type))
        (keys ++ [(payloadKey type).textOrEmpty]) := by
  have writers {target : TypeRef} (finds : Codec.Finds api target) :
      Completes (Ready api.dataTypes done)
      (generateWriters api (api.lookup target.referenceName) input.contentType) :=
    completes_writersOf sound json fun _ ready => finds.exists_codable (ready.codable sound)
  match type with
  | .inline definition =>
    rw [inlineRequests] at admissible ⊢
    refine .lift_bind (operationTypeName_eq resourceName operationName _) ?_
    refine .bind (.build (yields_standIn _ workable admissible)) fun _ => ?_
    refine .bind (.build (completes_generateWriters sound json)) fun _ => yields_argument.weaken ?_
    exact fun _ holds => ⟨holds.client.ready, holds.maps⟩
  | .reference (.container kind item) link =>
    rw [inlineRequests, append_nil]
    exact yields_argument
  | .reference (.primitive kind) link =>
    rw [inlineRequests, append_nil]
    exact .bind (.build (writers workable.reference)) fun _ => .lift_bind rfl yields_argument
  | .reference (.custom target) link =>
    obtain ⟨key, rfl⟩ : ∃ key, target = .text key := workable.reference.exists_text sound.names
    rw [inlineRequests, append_nil]
    exact .bind (.build (writers workable.reference)) fun _ => .lift_bind rfl yields_argument

/-! ## The method for an operation -/

def answerType (operation : Operation) : Option DataType :=
  operation.output.bind (·.type)

/-- The class names that the input of an operation asks for. -/
def payloadRequests (resource : Resource) (operation : Operation) : List ClassRequest :=
  (payloadType operation).elim [] (inlineRequests (operationKey resource operation "InputType"))

/-- The class names that the output of an operation asks for. -/
def answerRequests (resource : Resource) (operation : Operation) : List ClassRequest :=
  (answerType operation).elim [] (inlineRequests (operationKey resource operation "OutputType"))

/-- The keys that the arguments of an operation are mapped under. -/
def declaredKeys (resource : Resource) (operation : Operation) : List String :=
  boundNames resource (Operation.parameters operation) ++
    (payloadType operation).toList.map fun type => (payloadKey type).textOrEmpty

/-- An operation whose request and answer can be written down: everything goes by texts, content
types are JSON, and a request that carries an entity refers to its type. -/
structure Operable (api : Api) (resource : Resource) (operation : Operation) : Prop where
  resourceName : ∃ text, resource.name = .text text
  operationName : ∃ text, operation.name = .text text
  path : ∃ text, resource.path = .text text
  method : ∃ text, operation.method = .text text
  places : hasPlaces resource.path = true → operation.input.isSome
  legible : ∀ parameter ∈ Operation.parameters operation, parameter.source.Legible
  bound : ∀ parameter ∈ Operation.parameters operation, Bound resource parameter
  inputs : ∀ input, operation.input = some input →
    ∀ contentType ∈ input.contentType, contentType = "application/json"
  entity : enclosesEntity operation.method = true → ∃ input target link,
    operation.input = some input ∧ input.contentType ≠ [] ∧
    input.type = some (.reference target link)
  output : operation.output.isSome
  outputs : ∀ output type, operation.output = some output → output.type = some type →
    ∃ contentTypes, output.contentType = some contentTypes ∧ contentTypes ≠ [] ∧
      ∀ contentType ∈ contentTypes, contentType = "application/json"
  payload : ∀ type, payloadType operation = some type → Workable api type
  answer : ∀ type, answerType operation = some type → Workable api type

theorem yields_declareArguments (sound : Sound api) (operable : Operable api resource operation)
    (admissible : Admissible done (payloadRequests resource operation)) :
    Yields (Holds (Ready api.dataTypes done) []) (declareArguments api resource operation) fun _ =>
      Holds (Ready api.dataTypes (done ++ payloadRequests resource operation))
        (declaredKeys resource operation) := by
  obtain ⟨name, resourceName⟩ := operable.resourceName
  obtain ⟨label, operationName⟩ := operable.operationName
  have bound := operable.bound
  have legible := operable.legible
  have workable := operable.payload
  unfold payloadRequests declaredKeys Operation.parameters payloadType at *
  unfold declareArguments
  cases hasInput : operation.input with
  | none => exact .pure fun _ => by simp [boundNames, wireNames]
  | some input =>
    simp only [hasInput, Option.elim_some, Option.bind_some] at bound legible workable admissible ⊢
    refine .bind (yields_declareParameters bound legible) fun _ => ?_
    cases hasType : input.type with
    | none => exact .pure fun _ => by simp
    | some type =>
      simp only [hasType, Option.elim_some] at admissible ⊢
      exact yields_declarePayload sound resourceName operationName (operable.inputs input hasInput)
        (workable type hasType) admissible

theorem yields_declareOperation (sound : Sound api) (operable : Operable api resource operation)
    (admissible : Admissible done (payloadRequests resource operation)) (type : ClassDef) :
    Yields (fun draft => Ready api.dataTypes done draft.client)
      (declareOperation api resource operation type)
      fun _ => Holds (Ready api.dataTypes (done ++ payloadRequests resource operation))
        (declaredKeys resource operation) := by
  obtain ⟨label, operationName⟩ := operable.operationName
  obtain ⟨name, isName⟩ : ∃ name, methodName type operation.name.toDoc = .ok name := by
    rw [operationName]
    exact ⟨_, rfl⟩
  have begun : Yields (fun draft => Ready api.dataTypes done draft.client)
      (Drafting.change fun _ => Method.empty .bound name) fun _ =>
        Holds (Ready api.dataTypes done) [] :=
    fun before ready => ⟨⟨⟩, _, returns_change.mpr rfl, ready, by simp⟩
  refine .lift_bind isName (.bind begun fun _ =>
    .bind (yields_declareArguments sound operable admissible) fun _ => ?_)
  split
  · split_ifs
    · exact completes_change fun _ => rfl
    · exact .pure fun _ => id
  · exact .pure fun _ => id

theorem schemaName_lookup (sound : Sound api) (single : ∀ kind item, target ≠ .container kind item)
    (finds : Codec.Finds api target) :
    schemaName (api.lookup target.referenceName) = .ok target.referenceName := by
  rcases finds.lookup with ⟨type, found⟩ | found
  · obtain ⟨key, isText, isName⟩ := Api.exists_key_of_lookup sound.names found
    rw [found, schemaName, isText, isName]
  · rw [found]
    cases target with
    | primitive | custom => rfl
    | container kind item => exact absurd rfl (single kind item)

theorem completes_payloadArgument {Client : State → Prop} (sound : Sound api)
    (finds : Codec.Finds api target)
    (mapped : (payloadKey (.reference target link)).textOrEmpty ∈ keys) :
    Completes (Holds Client keys) (payloadArgument api (.reference target link)) := by
  obtain ⟨key, isText⟩ := finds.exists_text sound.names
  cases target with
  | container kind item => exact completes_mapping mapped
  | primitive kind =>
    exact .lift_bind (schemaName_lookup sound (by simp) finds) (completes_mapping mapped)
  | custom name =>
    refine .lift_bind (schemaName_lookup sound (by simp) finds) ?_
    cases isText
    exact completes_mapping mapped

theorem completes_writePayload (sound : Sound api) (operable : Operable api resource operation)
    (isEntity : enclosesEntity operation.method = true)
    (mapped : ∀ key ∈ declaredKeys resource operation, key ∈ keys) (path : String) :
    Completes (Holds (Ready api.dataTypes done) keys) (writePayload api operation path) := by
  obtain ⟨input, target, link, hasInput, notEmpty, hasType⟩ := operable.entity isEntity
  obtain ⟨method, isMethod⟩ := operable.method
  have isPayload : payloadType operation = some (.reference target link) := by
    simp [payloadType, hasInput, hasType]
  have finds := (operable.payload _ isPayload).reference
  have json := operable.inputs input hasInput
  have declared :
      (payloadKey (.reference target link)).textOrEmpty ∈ declaredKeys resource operation := by
    simp [declaredKeys, isPayload]
  obtain ⟨function, named⟩ : ∃ function,
      schemaCodecName api "json" "serialize" (some (.reference target)) = .ok function :=
    Codec.exists_referenceCodecName sound.names "json" "serialize" finds
  obtain ⟨first, rest, isFirst⟩ := exists_cons_of_ne_nil notEmpty
  have firstFound : firstContentType input = .ok first := by
    rw [firstContentType, isFirst]
  have isJson : mediaName first = .ok "json" := by
    rw [json first (by simp [isFirst])]
    exact mediaName_json
  unfold writePayload
  simp only [hasInput, hasType, isMethod]
  refine .lift_bind firstFound (.bind (completes_payloadArgument sound finds (mapped _ declared))
    fun argument => ?_)
  refine .bind (.build (completes_writersOf sound json fun _ _ => ⟨_, rfl, finds⟩)) fun _ => ?_
  refine .lift_bind isJson (.lift_bind named ?_)
  exact .bind (completes_write _) fun _ => .lift_bind rfl (completes_write _)

theorem completes_writeInvocation (sound : Sound api) (operable : Operable api resource operation)
    (mapped : ∀ key ∈ declaredKeys resource operation, key ∈ keys) (path : String) :
    Completes (Holds (Ready api.dataTypes done) keys) (writeInvocation api operation path) := by
  obtain ⟨method, isMethod⟩ := operable.method
  obtain ⟨output, hasOutput⟩ := Option.isSome_iff_exists.mp operable.output
  have request :
      Completes (Holds (Ready api.dataTypes done) keys) (writeRequest api operation path) := by
    unfold writeRequest
    split_ifs with isEntity
    · exact completes_writePayload sound operable isEntity mapped path
    · rw [isMethod]
      exact .lift_bind rfl (completes_write _)
  unfold writeInvocation
  simp only [hasOutput]
  exact .bind (completes_write _) fun _ => .bind request fun _ => .bind (completes_write _) fun _ =>
    completes_write _

/-! ## The answer -/

theorem exists_selectMedia (notEmpty : contentTypes ≠ [])
    (json : ∀ contentType ∈ contentTypes, contentType = "application/json")
    (preference : Option String) :
    ∃ media, selectMedia contentTypes preference = .ok media := by
  have first : firstMedia contentTypes = .ok "json" := by
    obtain ⟨first, rest, rfl⟩ := exists_cons_of_ne_nil notEmpty
    rw [firstMedia, json first mem_cons_self]
    exact mediaName_json
  have offered : ∀ name, ∃ offered, hasMedia name contentTypes = .ok offered := by
    intro name
    clear first notEmpty
    induction contentTypes with
    | nil => exact ⟨false, rfl⟩
    | cons contentType rest ih =>
      rw [forall_mem_cons] at json
      rw [hasMedia, json.1, mediaName_json, ok_bind]
      split_ifs
      · exact ⟨true, rfl⟩
      · exact ih json.2
  cases preference with
  | none => exact ⟨"json", first⟩
  | some name =>
    obtain ⟨isOffered, found⟩ := offered name
    rw [selectMedia, found, ok_bind, first]
    cases isOffered with
    | true => exact ⟨name, rfl⟩
    | false => exact ⟨"json", rfl⟩

theorem exists_resultType (sound : Sound api) (finds : Codec.Finds api target) :
    ∃ type, resultType (api.lookup target.referenceName) target = .ok type := by
  obtain ⟨text, isText⟩ := finds.exists_text sound.names
  cases target with
  | container kind item => exact ⟨_, rfl⟩
  | primitive | custom =>
    have named := schemaName_lookup sound (by simp) finds
    rw [isText] at named ⊢
    simp only [resultType, named, ok_bind]
    split_ifs
    · exact ⟨_, rfl⟩
    · exact ⟨_, rfl⟩

theorem yields_declareResult (sound : Sound api) (resourceName : resource.name = .text name)
    (operationName : operation.name = .text label) (workable : Workable api type)
    (admissible : Admissible done
      (inlineRequests (operationKey resource operation "OutputType") type)) :
    Yields (Holds (Ready api.dataTypes done) keys) (declareResult api resource operation type)
      fun result draft =>
      ∃ schema, result = some schema ∧ Holds (Serving api
        (done ++ inlineRequests (operationKey resource operation "OutputType") type) schema) keys
          draft := by
  cases type with
  | inline definition =>
    rw [inlineRequests] at admissible ⊢
    refine .lift_bind (operationTypeName_eq resourceName operationName "OutputType") ?_
    refine .bind (.build (yields_standIn _ workable admissible)) fun _ => ?_
    exact .bind (completes_change fun _ => rfl) fun _ => .pure fun _ holds => ⟨_, rfl, holds⟩
  | reference target link =>
    rw [inlineRequests, append_nil]
    obtain ⟨noted, isNoted⟩ := exists_resultType sound workable.reference
    refine .lift_bind isNoted (.bind (completes_change fun _ => rfl) fun _ => .pure fun _ holds =>
      ?_)
    obtain ⟨schema, found, codable⟩ :=
      workable.reference.exists_codable (holds.client.codable sound)
    exact ⟨schema, found, ⟨holds.client, codable⟩, holds.maps⟩

theorem yields_writeResult (sound : Sound api) (operable : Operable api resource operation)
    (admissible : Admissible done (answerRequests resource operation))
    (preference : Option String) :
    Yields (Holds (Ready api.dataTypes done) keys) (writeResult api resource operation preference)
      fun _ draft =>
      Ready api.dataTypes (done ++ answerRequests resource operation) draft.client := by
  obtain ⟨name, resourceName⟩ := operable.resourceName
  obtain ⟨label, operationName⟩ := operable.operationName
  obtain ⟨output, hasOutput⟩ := Option.isSome_iff_exists.mp operable.output
  have workable := operable.answer
  unfold answerRequests answerType at *
  unfold writeResult
  simp only [hasOutput, Option.bind_some] at admissible workable ⊢
  cases hasType : output.type with
  | none => exact .pure fun _ holds => by simpa using holds.client
  | some type =>
    simp only [hasType, Option.elim_some] at admissible ⊢
    obtain ⟨contentTypes, hasContent, notEmpty, json⟩ :=
      operable.outputs output type hasOutput hasType
    obtain ⟨media, isMedia⟩ := exists_selectMedia notEmpty json preference
    refine .bind (yields_declareResult sound resourceName operationName (workable type hasType)
      admissible) ?_
    rintro _ before ⟨schema, rfl, holds⟩
    obtain ⟨function, named⟩ :=
      Codec.exists_schemaCodecName sound.names media "deserialize" holds.client.codable
    simp only [hasContent]
    refine Yields.bind (.build (completes_generateReaders sound json))
      (fun _ => .lift_bind isMedia ?_) before holds
    exact .lift_bind named fun draft holds => ⟨⟨⟩, _, returns_write.mpr rfl, holds.client.ready⟩

/-! ## Operations, resources and the client -/

def operationRequests (resource : Resource) (operation : Operation) : List ClassRequest :=
  payloadRequests resource operation ++ answerRequests resource operation

theorem yields_draftOperation (sound : Sound api) (operable : Operable api resource operation)
    (admissible : Admissible done (operationRequests resource operation)) (type : ClassDef)
    (preference : Option String) :
    Yields (fun draft => Ready api.dataTypes done draft.client)
      (draftOperation api resource type preference operation) fun _ draft =>
        Ready api.dataTypes (done ++ operationRequests resource operation) draft.client := by
  rw [operationRequests, admissible_append] at admissible
  rw [operationRequests, ← append_assoc]
  obtain ⟨path, isPath⟩ := operable.path
  refine .bind (yields_declareOperation sound operable admissible.1 type) fun _ => ?_
  refine .bind (completes_writeQuery operable.bound fun text member => mem_append_left _ member)
    fun _ => ?_
  refine .get_lift_bind (fun draft holds => ?_) fun expression => ?_
  · exact exists_pathExpression isPath operable.places operable.bound fun text member =>
      holds.maps text (mem_append_left _ member)
  · exact .bind (completes_writeInvocation sound operable (fun _ member => member) expression)
      fun _ =>
      yields_writeResult sound operable admissible.2 preference

end Operations

section Client

variable {api : Api} {done : List ClassRequest} {before : State}

theorem yields_generateOperations (sound : Sound api) (preference : Option String)
    {operations : List Operation}
    (operable : ∀ operation ∈ operations, Operable api resource operation)
    (admissible : Admissible done (operations.flatMap (operationRequests resource)))
    (type : ClassDef) :
    Yields (Ready api.dataTypes done) (generateOperations api resource preference type operations)
      fun result after => result.name = type.name ∧
        Ready api.dataTypes (done ++ operations.flatMap (operationRequests resource)) after := by
  induction operations generalizing done type with
  | nil => exact .pure fun _ ready => ⟨rfl, by simpa using ready⟩
  | cons operation rest ih =>
    rw [forall_mem_cons] at operable
    rw [flatMap_cons, admissible_append] at admissible
    rw [flatMap_cons, ← append_assoc]
    refine .bind (fun before ready => ?_) fun method =>
      ih operable.2 admissible.2 (type.addMethod method)
    obtain ⟨_, ⟨client, method⟩, drafted, ready⟩ :=
      yields_draftOperation sound operable.1 admissible.1 type
      preference { client := before, method := Method.empty .bound "" } ready
    exact ⟨method, client, returns_newMethod.mpr drafted, ready⟩

def resourceRequests (resource : Resource) : List ClassRequest :=
  ⟨resource.name.toDoc.textOrEmpty ++ "Client", false, false⟩ ::
    resource.operations.flatMap (operationRequests resource)

theorem yields_generateResource (sound : Sound api) (resourceName : resource.name = .text name)
    (parent : ClassDef) (preference : Option String)
    (operable : ∀ operation ∈ resource.operations, Operable api resource operation)
    (admissible : Admissible done (resourceRequests resource)) :
    Yields (Ready api.dataTypes done) (generateResource api parent preference resource)
      fun type after =>
      type.name ∈ after.classNames ∧
      Ready api.dataTypes (done ++ resourceRequests resource) after := by
  rw [resourceRequests, ← singleton_append] at admissible ⊢
  rw [admissible_append] at admissible
  rw [← append_assoc]
  have isName : resource.name.asText = .ok resource.name.toDoc.textOrEmpty := by
    rw [resourceName]
    rfl
  have given := yields_className api.dataTypes admissible.1
  refine .lift_bind isName (.bind given ?_)
  rintro className before ⟨isGiven, ready⟩
  obtain ⟨type, after, ran, isNamed, readyAfter⟩ :=
    yields_generateOperations sound preference operable
    admissible.2 { name := className, parent := some parent.name, methods := [clientConstructor] }
      before ready
  refine ⟨type, after, ran, ?_, readyAfter⟩
  rw [isNamed, readyAfter.classNames, givenNames_append, ← ready.classNames]
  exact mem_append_left _ isGiven

def typeRequests (type : NamedTypeDef) : List ClassRequest :=
  recordRequests type.name.textOrEmpty type.definition

/-- The class names that a client asks for, in the order in which they are given. -/
def classRequests (api : Api) : List ClassRequest :=
  [⟨"RemoteException", false, false⟩, ⟨"AbstractResourceClient", false, false⟩] ++
    (api.dataTypes.flatMap typeRequests ++ api.resources.flatMap resourceRequests)

variable {types : List NamedTypeDef}

theorem yields_generateDataTypes (texts : ∀ type ∈ types, ∃ key, type.name = .text key)
    (spelled : ∀ type ∈ types, (DataType.inline type.definition).Spelled)
    (admissible : Admissible done (types.flatMap typeRequests)) :
    Yields (Ready [] done) (types.forM generateDataType) fun _ =>
      Ready types (done ++ types.flatMap typeRequests) := by
  have each : ∀ before type rest, types = before ++ type :: rest →
      Yields (Ready before (done ++ before.flatMap typeRequests)) (generateDataType type) fun _ =>
        Ready (before ++ [type]) (done ++ (before ++ [type]).flatMap typeRequests) := by
    rintro before type rest rfl
    obtain ⟨key, isText⟩ := texts type (by simp)
    have requests : typeRequests type = recordRequests key type.definition := by
      rw [typeRequests, isText, Doc.textOrEmpty]
    simp only [flatMap_append, flatMap_cons, admissible_append, requests] at admissible
    intro state ready
    obtain ⟨after, generated, readyAfter, table⟩ :=
      exists_returns_generateDataType ready isText (spelled type (by simp)) admissible.2.1
    refine ⟨⟨⟩, after, generated, ?_⟩
    rw [flatMap_append, flatMap_singleton, requests, ← append_assoc]
    refine ⟨readyAfter.classNames, readyAfter.listed, fun other member => ?_⟩
    rcases mem_append.mp member with old | new
    · exact readyAfter.tables other old
    · cases mem_singleton.mp new
      exact ⟨key, isText, subset_append_right _ _, table⟩
  simpa using Yields.forM each

theorem yields_generateResources (sound : Sound api) (parent : ClassDef)
    (preference : Option String) {resources : List Resource}
    (texts : ∀ resource ∈ resources, ∃ name, resource.name = .text name)
    (operable : ∀ resource ∈ resources, ∀ operation ∈ resource.operations,
      Operable api resource operation)
    (admissible : Admissible done (resources.flatMap resourceRequests)) :
    Yields (Ready api.dataTypes done)
      (resources.forM fun resource =>
        do Build.addClass (← generateResource api parent preference resource))
      fun _ => Ready api.dataTypes (done ++ resources.flatMap resourceRequests) := by
  have each : ∀ before resource rest, resources = before ++ resource :: rest →
      Yields (Ready api.dataTypes (done ++ before.flatMap resourceRequests))
        (do Build.addClass (← generateResource api parent preference resource)) fun _ =>
          Ready api.dataTypes (done ++ (before ++ [resource]).flatMap resourceRequests) := by
    rintro before resource rest rfl
    obtain ⟨name, resourceName⟩ := texts resource (by simp)
    simp only [flatMap_append, flatMap_cons, admissible_append] at admissible
    rw [flatMap_append, flatMap_singleton, ← append_assoc]
    exact .bind (yields_generateResource sound resourceName parent preference
      (operable resource (by simp)) admissible.2.1) yields_addClass
  simpa using Yields.forM each

theorem yields_named {request : ClassRequest} (admissible : Admissible done [request])
    {make : String → ClassDef} (named : ∀ name, (make name).name = name) :
    Yields (Ready types done) (do return make (← Build.className (.text request.key)))
      fun type after =>
      type.name ∈ after.classNames ∧ Ready types (done ++ [request]) after :=
  .bind (yields_className types admissible) fun name => .pure fun _ holds =>
    ⟨(named name).symm ▸ holds.1, holds.2⟩

/-- A client is generated to the end when its data types and operations can be worked on. -/
theorem exists_returns_generate (sound : Sound api)
    (spelled : ∀ type ∈ api.dataTypes, (DataType.inline type.definition).Spelled)
    (resourceNames : ∀ resource ∈ api.resources, ∃ name, resource.name = .text name)
    (operable : ∀ resource ∈ api.resources, ∀ operation ∈ resource.operations,
      Operable api resource operation)
    (admissible : Admissible [] (classRequests api)) (preference : Option String) :
    ∃ client, Returns (generate api preference) State.empty () client := by
  rw [classRequests, ← singleton_append, append_assoc] at admissible
  simp only [admissible_append, nil_append] at admissible
  obtain ⟨first, second, forTypes, forResources⟩ := admissible
  have generated : Yields (Ready [] []) (generate api preference) fun _ => Ready api.dataTypes
      (_ ++ api.resources.flatMap resourceRequests) :=
    .bind (.bind (yields_named first fun _ => rfl) fun _ => .bind (yields_addClass _) fun _ =>
      .bind (yields_named second fun _ => rfl) fun _ => .bind (yields_addClass _) fun _ =>
        .bind (yields_generateDataTypes sound.names spelled forTypes) fun _ => .pure fun _ => id)
      fun parent => yields_generateResources sound parent preference resourceNames operable
        forResources
  obtain ⟨_, client, ran, -⟩ := generated State.empty ready_empty
  exact ⟨client, ran⟩

end Client

end Client

end ApiDescription
