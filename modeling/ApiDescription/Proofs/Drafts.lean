import ApiDescription.Proofs.Building
import Mathlib.Data.List.Induction
import Mathlib.Logic.Relation

/-!
# The method for an operation

The method for an operation begins with its arguments, which get their names one after another.  Its
lines come in statements, of which there are a few kinds.  Beside the method the client is supplied
with classes for the types that are written on the spot and with functions for the values that are
sent and received.
-/

namespace ApiDescription.Client

open Code (ClassDef Line Method)

variable {before after : Draft} {resource : Resource} {operation : Operation} {api : Api}

/-! ## Declarations -/

/-- The name of the argument for a text before it is checked against others. -/
def argumentStem (name : String) : String :=
  NameStyle.argument.ofCleaned (String.ofList (name.toList.filter isNameChar))

/-- An argument that has no name yet, and the name of the service that leads to it. -/
structure Declaration where
  key : String
  type : Doc
  default : Option String

def nextArgument (method : Method) (key : String) : String :=
  firstFree (method.arguments.map (·.name)) (argumentStem key)

def declare (method : Method) (declaration : Declaration) : Method :=
  let name := nextArgument method declaration.key
  { method.addArgument { name, type := declaration.type, default := declaration.default } with
    mappings := Method.putMapping (.text declaration.key) name method.mappings }

theorem mapping_declare (method : Method) (declaration : Declaration) (key : String) :
    (declare method declaration).mapping (.text key) =
      if key = declaration.key then .ok (nextArgument method declaration.key)
      else method.mapping (.text key) := by
  rw [mapping_text, mapping_text, declare, mapped_putMapping]
  split_ifs <;> rfl

def Draft.declaring (draft : Draft) (declared : List Declaration) : Draft :=
  { draft with method := declared.foldl declare draft.method }

@[simp] theorem Draft.declaring_nil (draft : Draft) : draft.declaring [] = draft := rfl

@[simp] theorem Draft.declaring_append (draft : Draft) (first second : List Declaration) :
    draft.declaring (first ++ second) = (draft.declaring first).declaring second := by
  simp [declaring]

theorem returns_argument {key type : Doc} {default : Option String} :
    Returns (Drafting.argument key type default) before ⟨⟩ after ↔
      ∃ text, key = .text text ∧ after = before.declaring [⟨text, type, default⟩] := by
  unfold Drafting.argument
  simp only [returns_get_bind, returns_lift_bind, returns_bind_unit, returns_change, exists_eq_left,
    Method.map, Method.addArgument]
  cases key with
  | text key =>
    simp [argumentName, NameStyle.stem, cleaned, Method.isKey, Draft.declaring, declare,
      nextArgument, argumentStem, Method.addArgument]
  | list | object => simp [Method.isKey]
  | null | bool | int | float => simp [argumentName, NameStyle.stem, cleaned]

/-- The argument for a parameter, if it stands for a binding. -/
def declarationsOf (resource : Resource) (parameter : Parameter) :
    Except Fault (List Declaration) := do
  match ← bindingsOf resource parameter with
  | [] => return []
  | binding :: _ =>
    let type ← typeName binding.type
    match binding.name with
    | .text key => return [⟨key, type, optionalDefault parameter.optional⟩]
    | .texts _ => throw .wrongKind

theorem returns_declareParameter {parameter : Parameter} :
    Returns (declareParameter resource parameter) before ⟨⟩ after ↔
      ∃ declared, declarationsOf resource parameter = .ok declared ∧
        after = before.declaring declared := by
  unfold declareParameter declarationsOf
  rw [returns_lift_bind]
  cases bindingsOf resource parameter with
  | error fault => simp
  | ok bindings =>
    cases bindings with
    | nil => simp [eq_comm]
    | cons binding others =>
      cases isType : typeName binding.type with
      | error fault => simp [returns_lift_bind, isType]
      | ok type =>
        cases isName : binding.name <;>
          simp [returns_lift_bind, returns_argument, Label.toDoc, isName, isType, throw, throwThe,
            MonadExceptOf.throw]

theorem returns_declareParameters {parameters : List Parameter} :
    Returns (parameters.forM (declareParameter resource)) before ⟨⟩ after ↔
      ∃ declared, parameters.mapM (declarationsOf resource) = .ok declared ∧
        after = before.declaring declared.flatten := by
  induction parameters generalizing before with
  | nil => simp [eq_comm]
  | cons parameter rest ih =>
    change Returns (declareParameter resource parameter >>= fun _ =>
      rest.forM (declareParameter resource)) before ⟨⟩ after ↔ _
    simp only [returns_bind_unit, returns_declareParameter, ih, List.mapM_cons]
    cases declarationsOf resource parameter with
    | error fault => simp
    | ok first =>
      cases rest.mapM (declarationsOf resource) with
      | error fault => simp
      | ok others => simp

/-! ## Supplies -/

/-- What is done for the client beside a method. -/
inductive Supplies (api : Api) (before after : State) : Prop
  | dataType (type : NamedTypeDef) (ran : Returns (generateDataType type) before ⟨⟩ after)
  | writers (schema : Option Schema) (contentTypes : List String)
    (ran : Returns (generateWriters api schema contentTypes) before ⟨⟩ after)
  | readers (schema : Option Schema) (contentTypes : List String)
    (ran : Returns (generateReaders api schema contentTypes) before ⟨⟩ after)

/-- A client that was supplied step after step. -/
abbrev Supplied (api : Api) : State → State → Prop :=
  Relation.ReflTransGen (Supplies api)

def payloadKey : DataType → Doc
  | .inline _ => .text "request"
  | .reference (.container kind item) _ => containerPayload kind item
  | .reference target _ => target.referenceName

variable {type : DataType} {path : String} {preference : Option String}

theorem exists_of_declarePayload {input : Input}
    (ran : Returns (declarePayload api resource operation input type) before ⟨⟩ after) :
    ∃ key docs client, payloadKey type = .text key ∧ Supplied api before.client client ∧
      after = Draft.declaring { before with client } [⟨key, docs, none⟩] := by
  match type with
  | .inline definition =>
    simp only [declarePayload, returns_lift_bind, returns_bind_unit, returns_build,
      returns_argument] at ran
    obtain ⟨name, -, _, ⟨_, typed, rfl⟩, _, ⟨client, written, rfl⟩, text, isText, rfl⟩ := ran
    exact ⟨text, _, client, isText, .tail (.single (.dataType _ typed)) (.writers _ _ written), rfl⟩
  | .reference (.container kind item) _ =>
    obtain ⟨text, isText, rfl⟩ := returns_argument.mp ran
    exact ⟨text, _, _, isText, .refl, rfl⟩
  | .reference (.primitive _) _ | .reference (.custom _) _ =>
    simp only [declarePayload, returns_lift_bind, returns_bind_unit, returns_build,
      returns_argument] at ran
    obtain ⟨_, ⟨client, written, rfl⟩, _, -, text, isText, rfl⟩ := ran
    exact ⟨text, _, client, isText, .single (.writers _ _ written), rfl⟩

def payloadType (operation : Operation) : Option DataType :=
  operation.input.bind (·.type)

/-- The arguments of an operation: those of its parameters, and one for its payload. -/
structure Declares (resource : Resource) (operation : Operation) (own : List (List Declaration))
    (payload : Option Declaration) : Prop where
  found : (Operation.parameters operation).mapM (declarationsOf resource) = .ok own
  payload : Option.Rel (fun type declaration => payloadKey type = .text declaration.key ∧
    declaration.default = none) (payloadType operation) payload

theorem exists_of_declareArguments
    (ran : Returns (declareArguments api resource operation) before ⟨⟩ after) :
    ∃ own payload client, Declares resource operation own payload ∧
      Supplied api before.client client ∧
      after = Draft.declaring { before with client } (own.flatten ++ payload.toList) := by
  unfold declareArguments at ran
  cases hasInput : operation.input with
  | none =>
    simp only [hasInput, returns_pure, true_and] at ran
    refine ⟨[], none, _, ⟨?_, ?_⟩, .refl, ran.symm⟩
    · simp [Operation.parameters, hasInput]
    · simp [payloadType, hasInput]
  | some input =>
    simp only [hasInput, declareInput, returns_bind_unit, returns_declareParameters] at ran
    obtain ⟨_, ⟨own, found, rfl⟩, ran⟩ := ran
    have isFound : (Operation.parameters operation).mapM (declarationsOf resource) = .ok own := by
      simpa [Operation.parameters, hasInput] using found
    have isPayload : payloadType operation = input.type := by simp [payloadType, hasInput]
    cases hasType : input.type with
    | none =>
      simp only [hasType, returns_pure, true_and] at ran
      exact ⟨own, none, _, ⟨isFound, by simp [isPayload, hasType]⟩, .refl, by simp [← ran]⟩
    | some type =>
      simp only [hasType] at ran
      obtain ⟨key, docs, client, isKey, supplied, rfl⟩ := exists_of_declarePayload ran
      refine ⟨own, some ⟨key, docs, none⟩, client, ⟨isFound, ?_⟩, supplied, ?_⟩
      · simpa [isPayload, hasType] using isKey
      · rw [Draft.declaring_append]
        rfl

/-! ## Statements -/

/-- What stays of a method while statements are added to it. -/
structure Writes (statements : List Statement) (before after : Method) : Prop where
  body : after.body = before.body ++ statements.flatMap Statement.lines
  arguments : after.arguments = before.arguments
  mappings : after.mappings = before.mappings
  placement : after.placement = before.placement

theorem Writes.trans {first second : List Statement} {before middle after : Method}
    (one : Writes first before middle) (two : Writes second middle after) :
    Writes (first ++ second) before after where
  body := by rw [two.body, one.body, List.flatMap_append, List.append_assoc]
  arguments := two.arguments.trans one.arguments
  mappings := two.mappings.trans one.mappings
  placement := two.placement.trans one.placement

theorem writes_statement (statement : Statement) (method : Method) :
    Writes [statement] method (method.addLines statement.lines) :=
  ⟨by simp [Method.addLines], rfl, rfl, rfl⟩

theorem Writes.mapping {statements : List Statement} {before after : Method}
    (writes : Writes statements before after) : after.mapping = before.mapping := by
  funext key
  rw [Method.mapping, Method.mapping, writes.mappings]

def Statement.IsQueryOf (method : Method) (statement : Statement) : Prop :=
  ∃ argument key isBoolean name, statement = .queryValue argument key isBoolean ∧
    method.mapping name = .ok argument

/-- Work that writes statements which put arguments into the query. -/
def Queries (work : Drafting Unit) : Prop :=
  ∀ ⦃before after⦄, Returns work before ⟨⟩ after → ∃ values, after.client = before.client ∧
    Writes values before.method after.method ∧ ∀ value ∈ values, value.IsQueryOf before.method

theorem queries_forM {α : Type} {items : List α} {work : α → Drafting Unit}
    (each : ∀ item, Queries (work item)) : Queries (items.forM work) := by
  induction items with
  | nil =>
    intro before after ran
    obtain ⟨-, rfl⟩ := returns_pure.mp ran
    exact ⟨[], rfl, ⟨by simp, rfl, rfl, rfl⟩, by simp⟩
  | cons item rest ih =>
    intro before after ran
    obtain ⟨middle, first, others⟩ := returns_bind_unit.mp ran
    obtain ⟨one, sameOne, writesOne, areOne⟩ := each item first
    obtain ⟨two, sameTwo, writesTwo, areTwo⟩ := ih others
    refine ⟨one ++ two, sameTwo.trans sameOne, writesOne.trans writesTwo,
      List.forall_mem_append.mpr ⟨areOne, fun value member => ?_⟩⟩
    obtain ⟨argument, key, isBoolean, name, rfl, isMapped⟩ := areTwo value member
    exact ⟨argument, key, isBoolean, name, rfl, writesOne.mapping ▸ isMapped⟩

theorem queries_writeQueryValue (binding : InputBinding) : Queries (writeQueryValue binding) := by
  intro before after ran
  obtain ⟨argument, _, found, ran⟩ := returns_bind.mp ran
  obtain ⟨isMapped, rfl⟩ := returns_mapping.mp found
  simp only [returns_lift_bind, returns_write] at ran
  obtain ⟨type, -, key, -, rfl⟩ := ran
  refine ⟨_, rfl, writes_statement _ _, ?_⟩
  simpa using ⟨argument, key, _, _, rfl, isMapped⟩

def queryStatements (queries : Bool) (values : List Statement) : List Statement :=
  .queryStart :: if queries then .queryData :: values ++ [.queryEnd] else []

theorem exists_of_writeQuery (ran : Returns (writeQuery resource operation) before ⟨⟩ after) :
    ∃ queries values, hasQuery resource operation = .ok queries ∧ after.client = before.client ∧
      (∀ value ∈ values, value.IsQueryOf before.method) ∧
      Writes (queryStatements queries values) before.method after.method := by
  simp only [writeQuery, returns_bind_unit, returns_write, exists_eq_left, returns_lift_bind] at ran
  obtain ⟨queries, isQuery, ran⟩ := ran
  cases queries with
  | false =>
    obtain ⟨-, rfl⟩ := returns_pure.mp ran
    exact ⟨false, [], isQuery, rfl, by simp, writes_statement _ _⟩
  | true =>
    simp only [if_true, returns_bind_unit, returns_write, exists_eq_left] at ran
    obtain ⟨filled, filling, rfl⟩ := ran
    have each (parameter : Parameter) : Queries (writeQueryParameter resource parameter) := by
      intro before after ran
      obtain ⟨bindings, -, ran⟩ := returns_lift_bind.mp ran
      exact queries_forM queries_writeQueryValue ran
    obtain ⟨values, same, writes, areValues⟩ := queries_forM each filling
    exact ⟨true, values, isQuery, same, areValues,
      ((writes_statement _ _).trans (writes_statement _ _)).trans
      (writes.trans (writes_statement _ _))⟩

theorem exists_of_payloadArgument {argument : String}
    (ran : Returns (payloadArgument api type) before argument after) :
    before = after ∧ ∃ key, before.method.mapping key = .ok argument := by
  match type with
  | .inline _ | .reference (.container _ _) _ =>
    obtain ⟨isMapped, rfl⟩ := returns_mapping.mp ran
    exact ⟨rfl, _, isMapped⟩
  | .reference (.primitive _) _ | .reference (.custom _) _ =>
    obtain ⟨name, -, ran⟩ := returns_lift_bind.mp ran
    obtain ⟨isMapped, rfl⟩ := returns_mapping.mp ran
    exact ⟨rfl, _, isMapped⟩

/-- The statements that send a request, beside the client that they need. -/
inductive Requests (api : Api) (operation : Operation) (mapping : Doc → Except Fault String)
    (before : State) : State → List Statement → Prop
  | plain {method path : String} (isPlain : enclosesEntity operation.method = false) :
    Requests api operation mapping before before [.request method path false]
  | entity {input : Input} {type : DataType}
      {contentType media function argument method path : String}
    {key : Doc} {client : State} (isEntity : enclosesEntity operation.method = true)
    (hasInput : operation.input = some input) (hasType : input.type = some type)
    (isFirst : firstContentType input = .ok contentType)
    (isMedia : mediaName contentType = .ok media)
    (named : schemaCodecName api media "serialize" (some type.schema) = .ok function)
    (isMapped : mapping key = .ok argument)
    (written : Returns (generateWriters api (some type.schema) input.contentType) before ⟨⟩
      client) :
    Requests api operation mapping before client
      [.payload contentType media function argument, .request method path true]

theorem exists_of_writeRequest (ran : Returns (writeRequest api operation path) before ⟨⟩ after) :
    ∃ request, Requests api operation before.method.mapping before.client after.client request ∧
      Writes request before.method after.method := by
  unfold writeRequest at ran
  split_ifs at ran with isEntity
  · unfold writePayload at ran
    cases hasInput : operation.input with
    | none => simp [hasInput] at ran
    | some input =>
      simp only [hasInput] at ran
      obtain ⟨contentType, isFirst, ran⟩ := returns_lift_bind.mp ran
      cases hasType : input.type with
      | none => simp [hasType] at ran
      | some type =>
        simp only [hasType] at ran
        obtain ⟨argument, _, carried, ran⟩ := returns_bind.mp ran
        obtain ⟨rfl, key, isMapped⟩ := exists_of_payloadArgument carried
        simp only [returns_bind_unit, returns_build, returns_lift_bind, returns_write,
          exists_eq_left] at ran
        obtain ⟨_, ⟨client, written, rfl⟩, media, isMedia, function, named, method, -, rfl⟩ := ran
        exact ⟨_, .entity isEntity hasInput hasType isFirst isMedia named isMapped written,
          (writes_statement _ _).trans (writes_statement _ _)⟩
  · simp only [returns_lift_bind, returns_write] at ran
    obtain ⟨method, -, rfl⟩ := ran
    exact ⟨_, .plain (by simpa using isEntity), writes_statement _ _⟩

theorem exists_of_writeInvocation
    (ran : Returns (writeInvocation api operation path) before ⟨⟩ after) :
    ∃ request status errors,
      Requests api operation before.method.mapping before.client after.client request ∧
      Writes (.connect :: request ++ [.response, .answer status errors]) before.method
        after.method := by
  simp only [writeInvocation, returns_bind_unit, returns_write, exists_eq_left] at ran
  obtain ⟨_, requesting, ran⟩ := ran
  obtain ⟨request, requests, writes⟩ := exists_of_writeRequest requesting
  cases hasOutput : operation.output with
  | none => simp [hasOutput] at ran
  | some output =>
    simp only [hasOutput, returns_write] at ran
    subst ran
    exact ⟨request, _, _, requests, ((writes_statement _ _).trans writes).trans
      ((writes_statement _ _).trans (writes_statement _ _))⟩

/-- The statements that read a result, beside the client that they need. -/
inductive Results (api : Api) (preference : Option String) (before : State) :
    State → List Statement → Prop
  | none : Results api preference before before []
  | read {schema : Option Schema} {contentTypes : List String} {media function : String}
    {middle client : State} (supplied : Supplied api before middle)
    (direct : ∀ target, schema ≠ some (.reference (.custom target)))
    (read : Returns (generateReaders api schema contentTypes) middle ⟨⟩ client)
    (selected : selectMedia contentTypes preference = .ok media)
    (named : schemaCodecName api media "deserialize" schema = .ok function) :
    Results api preference before client [.result function]

theorem lookup_ne_custom {name target : Doc} :
    api.lookup name ≠ some (.reference (.custom target)) := by
  have builtIn : TypeRef.builtIn? name ≠ some (.custom target) := by
    unfold TypeRef.builtIn?
    cases TypeRef.ofName name <;> simp
  unfold Api.lookup
  cases api.dataType? name with
  | some type => simp
  | none =>
    cases found : TypeRef.builtIn? name with
    | some reference =>
      rw [found] at builtIn
      simpa using builtIn
    | none =>
      dsimp only
      split_ifs <;> simp

theorem of_declareResult {schema : Option Schema}
    (ran : Returns (declareResult api resource operation type) before schema after) :
    (∀ target, schema ≠ some (.reference (.custom target))) ∧
      Supplied api before.client after.client ∧
      Writes [] before.method after.method := by
  cases type with
  | reference _ link =>
    simp only [declareResult, setReturnType, returns_lift_bind, returns_bind_unit, returns_change,
      exists_eq_left, returns_pure] at ran
    obtain ⟨_, -, rfl, rfl⟩ := ran
    exact ⟨fun _ => lookup_ne_custom, .refl, by simp, rfl, rfl, rfl⟩
  | inline definition =>
    simp only [declareResult, setReturnType, returns_lift_bind, returns_bind_unit, returns_build,
      returns_change, exists_eq_left, returns_pure] at ran
    obtain ⟨_, -, _, ⟨client, typed, rfl⟩, rfl, rfl⟩ := ran
    exact ⟨by simp, .single (.dataType _ typed), by simp, rfl, rfl, rfl⟩

theorem exists_of_writeResult
    (ran : Returns (writeResult api resource operation preference) before ⟨⟩ after) :
    ∃ result, Results api preference before.client after.client result ∧
      Writes result before.method after.method := by
  unfold writeResult at ran
  cases hasOutput : operation.output with
  | none => simp [hasOutput] at ran
  | some output =>
    simp only [hasOutput] at ran
    cases hasType : output.type with
    | none =>
      simp only [hasType, returns_pure, true_and] at ran
      subst ran
      exact ⟨[], .none, by simp, rfl, rfl, rfl⟩
    | some type =>
      simp only [hasType] at ran
      obtain ⟨schema, _, declared, ran⟩ := returns_bind.mp ran
      obtain ⟨direct, supplied, writes⟩ := of_declareResult declared
      cases hasContent : output.contentType with
      | none => simp [hasContent] at ran
      | some contentTypes =>
        simp only [hasContent, returns_bind_unit, returns_build, returns_lift_bind,
          returns_write] at ran
        obtain ⟨_, ⟨client, read, rfl⟩, media, selected, function, named, rfl⟩ := ran
        exact ⟨_, .read supplied direct read selected named, writes.trans (writes_statement _ _)⟩

/-! ## The whole method -/

/-- A method with its arguments and nothing else. -/
def declaredMethod (name : String) (declared : List Declaration) : Method :=
  declared.foldl declare (Method.empty .bound name)

@[simp] theorem declaredMethod_append (name : String) (declared : List Declaration)
    (last : Declaration) :
    declaredMethod name (declared ++ [last]) = declare (declaredMethod name declared) last := by
  simp [declaredMethod]

theorem declaredMethod_body (name : String) (declared : List Declaration) :
    (declaredMethod name declared).body = [] ∧
      (declaredMethod name declared).placement = .bound := by
  induction declared using List.reverseRecOn with
  | nil => exact ⟨rfl, rfl⟩
  | append_singleton declared last ih => simpa [declare, Method.addArgument] using ih

theorem exists_of_declareOperation {type : ClassDef}
    (ran : Returns (declareOperation api resource operation type) before ⟨⟩ after) :
    ∃ name own payload, Declares resource operation own payload ∧
      Supplied api before.client after.client ∧
      Writes [] (declaredMethod name (own.flatten ++ payload.toList)) after.method := by
  simp only [declareOperation, returns_lift_bind, returns_bind_unit, returns_change,
    exists_eq_left] at ran
  obtain ⟨name, -, _, declaring, ran⟩ := ran
  obtain ⟨own, payload, client, declares, supplied, rfl⟩ := exists_of_declareArguments declaring
  refine ⟨name, own, payload, declares, ?_⟩
  cases hasDescription : operation.description with
  | none =>
    simp only [hasDescription, returns_pure, true_and] at ran
    subst ran
    exact ⟨supplied, by simp [Draft.declaring, declaredMethod], rfl, rfl, rfl⟩
  | some description =>
    simp only [hasDescription] at ran
    split_ifs at ran
    · cases returns_change.mp ran
      exact ⟨supplied, by simp [Draft.declaring, declaredMethod], rfl, rfl, rfl⟩
    · obtain ⟨-, rfl⟩ := returns_pure.mp ran
      exact ⟨supplied, by simp [Draft.declaring, declaredMethod], rfl, rfl, rfl⟩

/-- The method for an operation: its arguments are declared, and its statements put together the
query, send the request, check the answer and read the result. -/
theorem exists_of_draftOperation {type : ClassDef}
    (ran : Returns (draftOperation api resource type preference operation) before ⟨⟩ after) :
    ∃ name own payload begun queries values sent request status errors result,
      Declares resource operation own payload ∧ Supplied api before.client begun ∧
      hasQuery resource operation = .ok queries ∧
      (∀ value ∈ values, value.IsQueryOf (declaredMethod name (own.flatten ++ payload.toList))) ∧
      Requests api operation (declaredMethod name (own.flatten ++ payload.toList)).mapping begun
        sent request ∧
      Results api preference sent after.client result ∧
      Writes
        (queryStatements queries values ++ .connect :: request ++ .response ::
          .answer status errors :: result)
        (declaredMethod name (own.flatten ++ payload.toList)) after.method := by
  simp only [draftOperation, returns_bind_unit, returns_get_bind, returns_lift_bind] at ran
  obtain ⟨_, declaring, _, querying, path, -, _, invocation, ran⟩ := ran
  obtain ⟨name, own, payload, declares, supplied, begins⟩ := exists_of_declareOperation declaring
  obtain ⟨queries, values, isQuery, same, areValues, query⟩ := exists_of_writeQuery querying
  obtain ⟨request, status, errors, requests, invokes⟩ := exists_of_writeInvocation invocation
  obtain ⟨result, results, answers⟩ := exists_of_writeResult ran
  rw [same, query.mapping, begins.mapping] at requests
  simp only [Statement.IsQueryOf, begins.mapping] at areValues
  refine ⟨name, own, payload, _, queries, values, _, request, status, errors, result, declares,
    supplied, isQuery, areValues, requests, results, ?_⟩
  simpa using ((begins.trans query).trans invokes).trans answers

theorem Requests.supplied {mapping : Doc → Except Fault String} {before after : State}
    {request : List Statement} (requests : Requests api operation mapping before after request) :
    Supplied api before after := by
  cases requests with
  | plain => exact .refl
  | entity _ _ _ _ _ _ _ written => exact .single (.writers _ _ written)

theorem Results.supplied {before after : State} {result : List Statement}
    (results : Results api preference before after result) : Supplied api before after := by
  cases results with
  | none => exact .refl
  | read supplied _ read => exact supplied.tail (.readers _ _ read)

/-! ## Whole clients -/

/-- What every step of the generator sustains of a client and of the methods that are going to be in
its next class. -/
structure Sustains (api : Api) (preference : Option String)
    (Invariant : List Method → State → Prop) :
    Prop where
  className : ∀ ⦃type name before after methods⦄, Invariant methods before →
    Returns (Build.className type) before name after → Invariant methods after
  dataType : ∀ ⦃type before after⦄, Invariant [] before →
    Returns (generateDataType type) before ⟨⟩ after → Invariant [] after
  constant : ∀ methods ∈ [exceptionMethods, parentMethods, [clientConstructor]], ∀ ⦃state⦄,
    Invariant [] state → Invariant methods state
  draft : ∀ resource ∈ api.resources, ∀ operation ∈ resource.operations,
    ∀ ⦃type method before after methods⦄, Invariant methods before →
      Returns (draftOperation api resource type preference operation).newMethod before method
        after →
      Invariant (methods ++ [method]) after
  addClass : ∀ ⦃type : ClassDef⦄ ⦃before after⦄, type.methods ≠ [] → Invariant type.methods before →
    Returns (Build.addClass type) before ⟨⟩ after → Invariant [] after

namespace Sustains

variable {preference : Option String} {Invariant : List Method → State → Prop}
  {before after : State}

theorem generateOperations (sustains : Sustains api preference Invariant)
    (inApi : resource ∈ api.resources)
    {operations : List Operation}
    (inResource : ∀ operation ∈ operations, operation ∈ resource.operations)
    {type result : ClassDef} (nonempty : type.methods ≠ []) (holds : Invariant type.methods before)
    (ran : Returns (generateOperations api resource preference type operations) before result
      after) :
    result.methods ≠ [] ∧ Invariant result.methods after := by
  induction operations generalizing type before with
  | nil =>
    obtain ⟨rfl, rfl⟩ := returns_pure.mp ran
    exact ⟨nonempty, holds⟩
  | cons operation rest ih =>
    rw [List.forall_mem_cons] at inResource
    obtain ⟨method, middle, drafted, others⟩ := returns_bind.mp ran
    exact ih inResource.2 (by simp [ClassDef.addMethod])
      (sustains.draft resource inApi operation inResource.1 holds drafted) others

/-- What every step sustains holds of the client that is generated to the end. -/
theorem generate (sustains : Sustains api preference Invariant) (start : Invariant [] before)
    (ran : Returns (generate api preference) before () after) : Invariant [] after := by
  simp only [Client.generate, generateTypes, generateException, generateParent, bind_assoc,
    pure_bind] at ran
  obtain ⟨_, _, named, ran⟩ := returns_bind.mp ran
  obtain ⟨_, added, ran⟩ := returns_bind_unit.mp ran
  have exception := sustains.addClass (List.cons_ne_nil _ _)
    (sustains.constant exceptionMethods (by simp) (sustains.className start named)) added
  obtain ⟨_, _, named, ran⟩ := returns_bind.mp ran
  obtain ⟨_, added, ran⟩ := returns_bind_unit.mp ran
  have parent := sustains.addClass (List.cons_ne_nil _ _)
    (sustains.constant parentMethods (by simp) (sustains.className exception named)) added
  obtain ⟨_, types, resources⟩ := returns_bind_unit.mp ran
  have typed := types.forM parent fun type _ _ _ holds generated =>
    sustains.dataType holds generated
  refine resources.forM typed fun resource inApi _ _ holds generated => ?_
  obtain ⟨type, _, built, added⟩ := returns_bind.mp generated
  obtain ⟨text, -, built⟩ := returns_lift_bind.mp built
  obtain ⟨name, _, named, built⟩ := returns_bind.mp built
  obtain ⟨nonempty, holds⟩ := sustains.generateOperations inApi (fun _ => id) (by simp)
    (sustains.constant [clientConstructor] (by simp) (sustains.className holds named)) built
  exact sustains.addClass nonempty holds added

end Sustains

end ApiDescription.Client
