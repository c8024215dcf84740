import ApiDescription.Proofs.ClassPlan

/-!
# The class of a data type along a run

Generating a client writes to its state in single steps: a class is named, a class is added, or a
function is added.  A run is the replay of such events, whether it comes to its end or stops on the
way, and its points are the states after the first so many of them.  From the moment its class was
generated, a data type keeps it as long as no class is named under the same key; and which keys come
later is known from the description.
-/

namespace ApiDescription.Client

open Code (ClassDef Method)

variable {key : String} {before after : State} {first : List ClassEntry}

/-! ## Events -/

/-- A single step of generating a client. -/
inductive BuildEvent where
  | named (key : String)
  | classAdded (type : ClassDef)
  | functionAdded (function : Method)

namespace BuildEvent

def apply (state : State) : BuildEvent → State
  | named key => state.withClassName key (firstFree state.classNames (classStem key))
  | classAdded type => { state with classes := state.classes ++ [type] }
  | functionAdded function => { state with functions := state.functions ++ [function] }

def key? : BuildEvent → Option String
  | named key => some key
  | classAdded _ | functionAdded _ => none

end BuildEvent

/-- The state after several steps. -/
def replay (state : State) (events : List BuildEvent) : State :=
  events.foldl BuildEvent.apply state

/-- The keys under which steps name classes. -/
def askedKeys (events : List BuildEvent) : List String :=
  events.filterMap BuildEvent.key?

theorem replay_append (state : State) (first second : List BuildEvent) :
    replay state (first ++ second) = replay (replay state first) second :=
  List.foldl_append

theorem askedKeys_append (first second : List BuildEvent) :
    askedKeys (first ++ second) = askedKeys first ++ askedKeys second :=
  List.filterMap_append

variable {state middle : State} {className : String} {second : List ClassEntry}
  {type : NamedTypeDef}

/-- A class that a key does not lead to is not led to later, when its name is taken. -/
theorem lookup_replay_ne (isTaken : className ∈ state.classNames)
    (other : state.classOf.lookup key ≠ some className) (events : List BuildEvent) :
    (replay state events).classOf.lookup key ≠ some className := by
  induction events generalizing state with
  | nil => exact other
  | cons event rest ih =>
    cases event with
    | classAdded | functionAdded => exact ih isTaken other
    | named asked =>
      refine ih (List.mem_append_left _ isTaken) ?_
      simp only [BuildEvent.apply, State.withClassName, lookup_putClass]
      split_ifs with same
      · rintro ⟨⟩
        exact firstFree_not_mem _ _ isTaken
      · exact other

/-- A key leads to its class until a class is named under it again. -/
theorem lookup_replay_iff (isTaken : className ∈ state.classNames)
    (found : state.classOf.lookup key = some className) (events : List BuildEvent) :
    (replay state events).classOf.lookup key = some className ↔ key ∉ askedKeys events := by
  induction events generalizing state with
  | nil => simp [replay, askedKeys, found]
  | cons event rest ih =>
    cases event with
    | classAdded | functionAdded => exact ih isTaken found
    | named asked =>
      have step : (BuildEvent.apply state (.named asked)).classOf.lookup key =
          if key = asked then some (firstFree state.classNames (classStem asked))
          else some className := by
        rw [← found]
        exact lookup_putClass _ _ _ _
      have stays : className ∈ (BuildEvent.apply state (.named asked)).classNames :=
        List.mem_append_left _ isTaken
      have keys : askedKeys (.named asked :: rest) = asked :: askedKeys rest := rfl
      rw [replay, List.foldl_cons, keys, List.mem_cons, not_or]
      by_cases same : key = asked
      · rw [if_pos same] at step
        have lost := lookup_replay_ne stays (by
          rw [step]
          rintro ⟨⟩
          exact firstFree_not_mem _ _ isTaken) rest
        exact ⟨fun kept => absurd kept lost, fun absent => absurd same absent.1⟩
      · rw [if_neg same] at step
        exact (ih stays step).trans ⟨fun absent => ⟨same, absent⟩, And.right⟩

/-! ## What work asks for -/

/-- The state `after` came about by naming the classes of a plan: all of them when the work
returned, and the first of them when it stopped. -/
def Follows (plan : List ClassEntry) (before : State) (returned : Bool) (after : State) : Prop :=
  ∃ events, after = replay before events ∧ askedKeys events <+: plan.map (·.key) ∧
    (returned = true → askedKeys events = plan.map (·.key) ∧
      after.classNames = before.classNames ++ plan.map (·.name))

variable {returned : Bool}

theorem Follows.refl (state : State) (returned : Bool) : Follows [] state returned state :=
  ⟨[], rfl, List.nil_prefix, fun _ => ⟨rfl, by simp⟩⟩

theorem Follows.classNames (named : Follows first before true after) :
    after.classNames = before.classNames ++ first.map (·.name) := by
  obtain ⟨_, -, -, complete⟩ := named
  exact (complete rfl).2

theorem Follows.trans (one : Follows first before true middle)
    (two : Follows second middle returned after) :
    Follows (first ++ second) before returned after := by
  obtain ⟨events, rfl, -, complete⟩ := one
  obtain ⟨more, rfl, asked, completeMore⟩ := two
  obtain ⟨keys, names⟩ := complete rfl
  refine ⟨events ++ more, (replay_append _ _ _).symm, ?_, fun isDone => ?_⟩
  · rw [askedKeys_append, keys, List.map_append, List.prefix_append_right_inj]
    exact asked
  · obtain ⟨keysMore, namesMore⟩ := completeMore isDone
    constructor
    · rw [askedKeys_append, keys, keysMore, List.map_append]
    · rw [namesMore, names, List.append_assoc, List.map_append]

theorem Follows.append (stopped : Follows first before false after) (second : List ClassEntry) :
    Follows (first ++ second) before false after := by
  obtain ⟨events, rfl, asked, -⟩ := stopped
  refine ⟨events, rfl, ?_, nofun⟩
  rw [List.map_append]
  exact asked.trans (List.prefix_append _ _)

/-- Work that names the classes of a plan, which depends on the names that are taken.  `client` is
the client inside the state of the work. -/
def Asks {σ α : Type} (client : σ → State) (plan : List String → List ClassEntry)
    (work : ExceptT Fault (StateM σ) α) : Prop :=
  ∀ before, Follows (plan (client before).classNames) (client before)
    (work.run.run before : Except Fault α × σ).1.isOk
      (client (work.run.run before : Except Fault α × σ).2)

abbrev Quiet {σ α : Type} (client : σ → State) (work : ExceptT Fault (StateM σ) α) : Prop :=
  Asks client (fun _ => []) work

namespace Asks

variable {σ α β : Type} {client : σ → State} {plan : List String → List ClassEntry}

theorem pure (value : α) : Quiet client (Pure.pure value) :=
  fun _ => .refl _ _

theorem throw (fault : Fault) : Quiet client (throw fault : ExceptT Fault (StateM σ) α) :=
  fun _ => .refl _ _

theorem get : Quiet client (get : ExceptT Fault (StateM σ) σ) :=
  fun _ => .refl _ _

theorem lift (outcome : Except Fault α) : Quiet client (liftM outcome) :=
  fun _ => .refl _ _

variable {work : ExceptT Fault (StateM σ) α} {next : α → ExceptT Fault (StateM σ) β}

/-- One piece of work after another: the plan of the second begins where the first ends. -/
theorem bind {second : List String → List ClassEntry} (asks : Asks client plan work)
    (asksNext : ∀ value, Asks client second (next value)) :
    Asks client (fun taken => plan taken ++ second (taken ++ (plan taken).map (·.name)))
      (work >>= next) := by
  intro before
  have one := asks before
  rw [run_bind]
  revert one
  cases (work.run.run before : Except Fault α × σ) with
  | mk outcome middle =>
    intro one
    cases outcome with
    | error fault => exact one.append _
    | ok value =>
      have two := asksNext value middle
      rw [one.classNames] at two
      exact one.trans two

theorem quiet_bind (quiet : Quiet client work) (asksNext : ∀ value, Asks client plan (next value)) :
    Asks client plan (work >>= next) := by
  have both := quiet.bind asksNext
  simpa using both

theorem bind_quiet (asks : Asks client plan work) (quiet : ∀ value, Quiet client (next value)) :
    Asks client plan (work >>= next) := by
  have both := asks.bind quiet
  simpa using both

theorem lift_bind {outcome : Except Fault α}
    (asksNext : ∀ value, outcome = .ok value → Asks client plan (next value)) :
    Asks client plan (liftM outcome >>= next) := by
  cases outcome with
  | error fault => exact fun _ => (Follows.refl _ false).append _
  | ok value => exact asksNext value rfl

theorem modify {change : σ → σ} (same : ∀ state, client (change state) = client state) :
    Quiet client (modify change : ExceptT Fault (StateM σ) PUnit) := by
  intro before
  change Follows [] (client before) true (client (change before))
  rw [same]
  exact .refl _ _

theorem forM {items : List α} {work : α → ExceptT Fault (StateM σ) PUnit}
    {entries : List String → α → List ClassEntry}
    (each : ∀ item ∈ items, Asks client (fun taken => entries taken item) (work item)) :
    Asks client (fun taken => inTurn entries taken items) (items.forM work) := by
  induction items with
  | nil => exact pure _
  | cons item rest ih =>
    rw [List.forall_mem_cons] at each
    exact each.1.bind fun _ => ih each.2

theorem quiet_forM {items : List α} {work : α → ExceptT Fault (StateM σ) PUnit}
    (each : ∀ item, Quiet client (work item)) : Quiet client (items.forM work) := by
  induction items with
  | nil => exact pure _
  | cons item rest ih => exact (each item).quiet_bind fun _ => ih

end Asks

/-! ## Data types -/

theorem asks_className_bind {β : Type} {fields : List Field} {next : String → Build β}
    (rest : String → List String → List ClassEntry)
    (asksNext : ∀ name, Asks id (rest name) (next name)) :
    Asks id (fun taken => entryFor taken key fields ::
        rest (firstFree taken (classStem key)) (taken ++ [firstFree taken (classStem key)]))
      (Build.className (.text key) >>= next) := by
  intro before
  have step : Follows [entryFor before.classNames key fields] before true
      (before.withClassName key (firstFree before.classNames (classStem key))) :=
    ⟨[.named key], rfl, List.prefix_rfl, fun _ => ⟨rfl, rfl⟩⟩
  exact step.trans (asksNext _ _)

theorem quiet_addClass (type : ClassDef) : Quiet id (Build.addClass type) :=
  fun _ => ⟨[.classAdded type], rfl, List.nil_prefix, fun _ => ⟨rfl, (List.append_nil _).symm⟩⟩

mutual

theorem asks_generateRecord (key : String) :
    (definition : TypeDef) →
      Asks id (fun taken => recordEntries taken key definition)
        (generateRecord (.text key) definition)
  | ⟨fields, constraints, description⟩ => by
    simp only [recordEntries, generateRecord]
    refine asks_className_bind (fun name taken => fieldEntries taken name fields) fun name => ?_
    exact (asks_generateFields name _ fields).bind_quiet fun _ => quiet_addClass _

theorem asks_generateFields (owner : String) (constructor : Method) :
    (fields : List Field) →
      Asks id (fun taken => fieldEntries taken owner fields)
        (generateFields owner constructor fields)
  | [] => by
    simp only [fieldEntries, generateFields]
    exact .pure _
  | ⟨name, description, optional, type⟩ :: rest => by
    simp only [fieldEntries, generateFields]
    refine .lift_bind fun argument _ => .lift_bind fun mapped _ => ?_
    exact (asks_generateInline owner name type).bind fun _ => asks_generateFields owner _ rest

theorem asks_generateInline (owner : String) (name : Label) :
    (type : DataType) →
    Asks id (fun taken => inlineEntries taken (owner ++ "_" ++ name.toDoc.textOrEmpty) type)
        (generateInline owner name type)
  | .reference target link => by
    simp only [inlineEntries, generateInline]
    exact .pure _
  | .inline definition => by
    simp only [inlineEntries, generateInline]
    refine .lift_bind fun label isLabel => ?_
    cases name with
    | texts pieces => cases isLabel
    | text name =>
      cases isLabel
      exact asks_generateRecord _ definition

end

theorem asks_generateDataType (isText : type.name = .text key) :
    Asks id (fun taken => typeEntries taken type) (generateDataType type) := by
  simp only [typeEntries, generateDataType, isText, Doc.textOrEmpty]
  exact asks_generateRecord key type.definition

theorem asks_generateStandIn (key : String) (definition : TypeDef) :
    Asks id (fun taken => recordEntries taken key definition)
      (generateDataType (.standIn key definition)) := by
  have asks := asks_generateRecord key (NamedTypeDef.standIn key definition).definition
  simp only [recordEntries_eq] at asks ⊢
  exact asks

/-! ## Operations -/

theorem quiet_addFunction (function : Method) : Quiet id (Build.addFunction function) := by
  refine .quiet_bind (.lift_bind fun stem _ => .quiet_bind .get fun _ => .pure _) fun name => ?_
  split
  · exact fun _ => ⟨[.functionAdded function], rfl, List.nil_prefix,
      fun _ => ⟨rfl, (List.append_nil _).symm⟩⟩
  · exact .pure _

theorem quiet_generateFunctions (functionsOf : Codec → State → Except Fault (List Method))
    (contentTypes : List String) : Quiet id (generateFunctions functionsOf contentTypes) :=
  .quiet_forM fun _ => .lift_bind fun _ _ => .quiet_bind .get fun _ => .lift_bind fun _ _ =>
    .quiet_forM quiet_addFunction

section Drafting

variable {plan : List String → List ClassEntry}

theorem Asks.build {α : Type} {work : Build α} (asks : Asks id plan work) :
    Asks Draft.client plan (Drafting.build work) :=
  fun before => asks before.client

theorem Asks.newMethod {work : Drafting Unit} (asks : Asks Draft.client plan work) :
    Asks id plan work.newMethod := by
  intro before
  have named := asks { client := before, method := Method.empty .bound "" }
  rw [run_newMethod]
  revert named
  cases work.run.run { client := before, method := Method.empty .bound "" } with
  | mk outcome draft => cases outcome <;> exact id

theorem quiet_change (step : Method → Method) : Quiet Draft.client (Drafting.change step) :=
  .modify fun _ => rfl

theorem quiet_mapping (key : Doc) : Quiet Draft.client (Drafting.mapping key) :=
  .quiet_bind .get fun _ => .lift _

theorem quiet_argument (key type : Doc) (default : Option String) :
    Quiet Draft.client (Drafting.argument key type default) :=
  .quiet_bind .get fun _ => .lift_bind fun _ _ => .quiet_bind (quiet_change _) fun _ =>
    .quiet_bind .get fun _ => .lift_bind fun _ _ => quiet_change _

end Drafting

theorem operationKey_of_ok {resource : Resource} {operation : Operation} {ending : String}
    (named : operationTypeName resource operation ending = .ok key) :
    key = operationKey resource operation ending := by
  unfold operationTypeName at named
  unfold operationKey
  revert named
  cases resource.name with
  | texts pieces =>
    intro impossible
    cases impossible
  | text name =>
    cases operation.name with
    | texts pieces =>
      intro impossible
      cases impossible
    | text label =>
      rintro ⟨⟩
      rfl

theorem asks_declarePayload (api : Api) (resource : Resource) (operation : Operation)
    (input : Input) :
    (type : DataType) → Asks Draft.client
        (fun taken => inlineEntries taken (operationKey resource operation "InputType") type)
        (declarePayload api resource operation input type)
  | .inline definition => by
    simp only [inlineEntries]
    refine .lift_bind fun name named => ?_
    obtain rfl := operationKey_of_ok named
    refine .bind_quiet (asks_generateStandIn _ definition).build fun _ => ?_
    exact .quiet_bind (quiet_generateFunctions _ _).build fun _ => quiet_argument _ _ _
  | .reference target link => by
    simp only [inlineEntries]
    cases target with
    | container kind item => exact quiet_argument _ _ _
    | primitive | custom =>
      exact .quiet_bind (quiet_generateFunctions _ _).build fun _ => .lift_bind fun _ _ =>
        quiet_argument _ _ _

theorem quiet_declareParameter (resource : Resource) (parameter : Parameter) :
    Quiet Draft.client (declareParameter resource parameter) := by
  refine .lift_bind fun bindings _ => ?_
  cases bindings with
  | nil => exact .pure _
  | cons binding rest => exact .lift_bind fun _ _ => quiet_argument _ _ _

theorem asks_declareOperation (api : Api) (resource : Resource) (operation : Operation)
    (type : ClassDef) :
    Asks Draft.client (fun taken => (payloadType operation).elim []
        (inlineEntries taken (operationKey resource operation "InputType")))
      (declareOperation api resource operation type) := by
  refine .lift_bind fun name _ => .quiet_bind (quiet_change _) fun _ => .bind_quiet ?_ fun _ => ?_
  · unfold declareArguments payloadType
    cases operation.input with
    | none => exact .pure _
    | some input =>
      refine .quiet_bind (.quiet_forM (quiet_declareParameter resource)) fun _ => ?_
      simp only [Option.bind_some]
      cases input.type with
      | none => exact .pure _
      | some payload => exact asks_declarePayload api resource operation input payload
  · split
    · split_ifs
      · exact quiet_change _
      · exact .pure _
    · exact .pure _

theorem quiet_writeQueryValue (binding : InputBinding) :
    Quiet Draft.client (writeQueryValue binding) :=
  .quiet_bind (quiet_mapping _) fun _ => .lift_bind fun _ _ => .lift_bind fun _ _ => quiet_change _

theorem quiet_writeQuery (resource : Resource) (operation : Operation) :
    Quiet Draft.client (writeQuery resource operation) := by
  refine .quiet_bind (quiet_change _) fun _ => .lift_bind fun queries _ => ?_
  split_ifs
  · refine .quiet_bind (quiet_change _) fun _ => .quiet_bind (.quiet_forM fun parameter => ?_)
      fun _ =>
      quiet_change _
    exact .lift_bind fun _ _ => .quiet_forM quiet_writeQueryValue
  · exact .pure _

theorem quiet_payloadArgument (api : Api) (type : DataType) :
    Quiet Draft.client (payloadArgument api type) := by
  cases type with
  | inline definition => exact quiet_mapping _
  | reference target link =>
    cases target with
    | container kind item => exact quiet_mapping _
    | primitive | custom => exact .lift_bind fun _ _ => quiet_mapping _

theorem quiet_writeRequest (api : Api) (operation : Operation) (path : String) :
    Quiet Draft.client (writeRequest api operation path) := by
  unfold writeRequest
  split_ifs
  · unfold writePayload
    cases operation.input with
    | none => exact .throw _
    | some input =>
      refine .lift_bind fun _ _ => ?_
      cases input.type with
      | none => exact .throw _
      | some type =>
        refine .quiet_bind (quiet_payloadArgument api type) fun _ =>
          .quiet_bind (quiet_generateFunctions _ _).build fun _ => ?_
        exact .lift_bind fun _ _ => .lift_bind fun _ _ => .quiet_bind (quiet_change _) fun _ =>
          .lift_bind fun _ _ => quiet_change _
  · exact .lift_bind fun _ _ => quiet_change _

theorem quiet_writeInvocation (api : Api) (operation : Operation) (path : String) :
    Quiet Draft.client (writeInvocation api operation path) := by
  refine .quiet_bind (quiet_change _) fun _ => .quiet_bind (quiet_writeRequest api operation path)
    fun _ => .quiet_bind (quiet_change _) fun _ => ?_
  cases operation.output with
  | none => exact .throw _
  | some output => exact quiet_change _

theorem asks_writeResult (api : Api) (resource : Resource) (operation : Operation)
    (preference : Option String) :
    Asks Draft.client (fun taken => (answerType operation).elim []
        (inlineEntries taken (operationKey resource operation "OutputType")))
      (writeResult api resource operation preference) := by
  unfold writeResult answerType
  cases operation.output with
  | none => exact .throw _
  | some output =>
    simp only [Option.bind_some]
    cases output.type with
    | none => exact .pure _
    | some type =>
      refine .bind_quiet ?_ fun schema => ?_
      · cases type with
        | inline definition =>
          simp only [Option.elim_some, inlineEntries]
          refine .lift_bind fun name named => ?_
          obtain rfl := operationKey_of_ok named
          exact .bind_quiet (asks_generateStandIn _ definition).build fun _ =>
            .quiet_bind (quiet_change _) fun _ => .pure _
        | reference target link =>
          simp only [Option.elim_some, inlineEntries]
          exact .lift_bind fun _ _ => .quiet_bind (quiet_change _) fun _ => .pure _
      · cases output.contentType with
        | none => exact .throw _
        | some contentTypes =>
          exact .quiet_bind (quiet_generateFunctions _ _).build fun _ => .lift_bind fun _ _ =>
            .lift_bind fun _ _ => quiet_change _

theorem asks_draftOperation (api : Api) (resource : Resource) (type : ClassDef)
    (preference : Option String) (operation : Operation) :
    Asks Draft.client (fun taken => operationEntries resource taken operation)
      (draftOperation api resource type preference operation) := by
  exact .bind (asks_declareOperation api resource operation type) fun _ =>
    .quiet_bind (quiet_writeQuery resource operation) fun _ => .quiet_bind .get fun _ =>
      .lift_bind fun path _ => .quiet_bind (quiet_writeInvocation api operation path) fun _ =>
        asks_writeResult api resource operation preference

theorem asks_generateOperations (api : Api) (resource : Resource) (preference : Option String)
    (type : ClassDef) (operations : List Operation) :
    Asks id (fun taken => inTurn (operationEntries resource) taken operations)
      (generateOperations api resource preference type operations) := by
  induction operations generalizing type with
  | nil => exact .pure _
  | cons operation rest ih =>
    exact (asks_draftOperation api resource type preference operation).newMethod.bind fun _ => ih _

theorem asks_generateResource (api : Api) (parent : ClassDef) (preference : Option String)
    (resource : Resource) :
    Asks id (fun taken => resourceEntries taken resource)
      (generateResource api parent preference resource) := by
  refine .lift_bind fun name named => ?_
  unfold resourceEntries
  cases isName : resource.name with
  | texts pieces =>
    rw [isName] at named
    cases named
  | text name =>
    rw [isName] at named
    cases named
    exact asks_className_bind (fun _ taken => inTurn (operationEntries resource) taken
      resource.operations)
      fun _ => asks_generateOperations api resource preference _ resource.operations

theorem asks_generateResources (api : Api) (preference : Option String) (parent : ClassDef) :
    Asks id (fun taken => inTurn resourceEntries taken api.resources)
      (generateResources api preference parent) :=
  .forM fun resource _ => (asks_generateResource api parent preference resource).bind_quiet
    quiet_addClass

/-! ## Behind a data type -/

/-- The classes that are asked for once the names of `taken` are given: those of data types, then
those of resources. -/
def entriesBehind (taken : List String) (types : List NamedTypeDef) (resources : List Resource) :
    List ClassEntry :=
  let given := inTurn typeEntries taken types
  given ++ inTurn resourceEntries (taken ++ given.map (·.name)) resources

theorem generate_eq_of_append {api : Api} {earlier later : List NamedTypeDef}
    (place : api.dataTypes = earlier ++ type :: later) (preference : Option String) :
    generate api preference = generateTypes earlier >>= fun parent =>
      generateDataType type >>= fun _ =>
        later.forM generateDataType >>= fun _ => generateResources api preference parent := by
  have split : (earlier ++ type :: later).forM generateDataType =
      earlier.forM generateDataType >>= fun _ => generateDataType type >>= fun _ =>
        later.forM generateDataType :=
    List.forM_append
  rw [generate, place]
  simp only [generateTypes, split, bind_assoc, pure_bind]

theorem asks_behind {types : List NamedTypeDef}
    (texts : ∀ type ∈ types, ∃ key, type.name = .text key) (api : Api) (preference : Option String)
    (parent : ClassDef) :
    Asks id (fun taken => entriesBehind taken types api.resources)
      (types.forM generateDataType >>= fun _ => generateResources api preference parent) := by
  have first : Asks id (fun taken => inTurn typeEntries taken types)
      (types.forM generateDataType) := by
    refine .forM fun type member => ?_
    obtain ⟨key, isText⟩ := texts type member
    exact asks_generateDataType isText
  exact first.bind fun _ => asks_generateResources api preference parent

/-- A data type keeps its class exactly as long as no class is asked for under its name again.  The
classes of the data types up to it are generated whatever comes later; then the run goes on in
steps, to its end or until it stops, and the keys it asks for are those of the later data types, of
what they hold and of the resources. -/
theorem class_kept_iff {api : Api} (spelled : SpelledTypes api.dataTypes)
    {earlier later : List NamedTypeDef} {type : NamedTypeDef}
    (place : api.dataTypes = earlier ++ type :: later) {key : String}
    (named : type.name = .text key) (preference : Option String) :
    ∃ parent before after className,
      Returns (generateTypes earlier) State.empty parent before ∧
      Returns (generateDataType type) before () after ∧
      after.classes.getLast?.map (·.name) = some className ∧
      ∃ outcome events,
        @Eq (Except Fault Unit × State) ((generate api preference).run.run State.empty)
          (outcome, replay after events) ∧
        askedKeys events <+: (entriesBehind after.classNames later api.resources).map (·.key) ∧
        (outcome = .ok () →
          askedKeys events = (entriesBehind after.classNames later api.resources).map (·.key)) ∧
        ∀ front, front <+: events →
          ((replay after front).classOf.lookup key = some className ↔ key ∉ askedKeys front) := by
  rw [SpelledTypes, place, List.forall_mem_append, List.forall_mem_cons] at spelled
  obtain ⟨spelledEarlier, ⟨-, spelledType⟩, spelledLater⟩ := spelled
  obtain ⟨parent, before, ranEarlier, -, listed⟩ := exists_builds_generateTypes spelledEarlier
  obtain ⟨after, ranType, builds, added⟩ := exists_builds_generateDataType named spelledType listed
  have own : lastFor (typeEntries before.classNames type) key =
      some (entryFor before.classNames key type.definition.fields) := by
    rw [typeEntries, named, Doc.textOrEmpty]
    exact lastFor_recordEntries _ _ _
  have found : after.classOf.lookup key = some (firstFree before.classNames (classStem key)) := by
    rw [builds.classOf, own]
    rfl
  have isTaken : firstFree before.classNames (classStem key) ∈ after.classNames := by
    rw [builds.classNames]
    exact List.mem_append_right _ (List.mem_map_of_mem (mem_of_lastFor own))
  have asks := asks_behind (fun type member => (spelledLater type member).1) api preference parent
  refine ⟨parent, before, after, _, ranEarlier, ranType, added, ?_⟩
  rw [generate_eq_of_append place, run_of_returns ranEarlier, run_of_returns ranType]
  obtain ⟨events, isReplay, asked, complete⟩ := asks after
  exact ⟨_, events, Prod.ext rfl isReplay, asked,
    fun isOk => (complete (congrArg Except.isOk isOk)).1,
    fun front _ => lookup_replay_iff isTaken found front⟩

namespace Parcels

/-- Parcels have a label that is described on the spot; another data type goes by the name that its
class gets. -/
def document : Doc :=
  .object [("name", "parcels"), ("base", "/"),
    ("resources", .list [.object [("name", "parcel"), ("path", "/parcel"),
      ("operations", .list [.object [("name", "find"), ("method", "GET"),
        ("output", .object [("status", .int 200)])]])]]),
    ("dataTypes", .list [
      .object [("name", "Parcel_label"), ("fields", .list [
        .object [("name", "code"), ("type", "string")]])],
      .object [("name", "Parcel"), ("fields", .list [
        .object [("name", "label"), ("type", .object [("fields", .list [
          .object [("name", "text"), ("type", "string")]])])]])]])]

def field (name : String) (type : DataType) : Field :=
  { name := .text name, description := none, optional := .bool false, type }

def label : NamedTypeDef :=
  { name := "Parcel_label"
    definition := ⟨[field "code" (.reference (.primitive .string) .null)], [], none⟩ }

def parcel : NamedTypeDef :=
  { name := "Parcel"
    definition := ⟨[field "label"
      (.inline ⟨[field "text" (.reference (.primitive .string) .null)], [], none⟩)], [], none⟩ }

def api : Api :=
  { name := "parcels", base := ["/"]
    resources := [{
      name := "parcel", path := "/parcel"
      operations := [
        { name := "find", method := "GET", output := some { status := .int 200 } }] }]
    dataTypes := [label, parcel] }

def client : State :=
  ((generate api none).run.run State.empty).2

theorem accepted : Api.ofDoc document = .ok api := by
  cbv

theorem spelled : SpelledTypes api.dataTypes := by
  simp [SpelledTypes, api, label, parcel, field]

theorem evaluated : ((generate api none).run.run State.empty : Except Fault Unit × State).1.isOk ∧
    client.classOf.lookup "Parcel_label" = some "Parcel_label1" := by
  decide +kernel

theorem returns_client : Returns (generate api none) State.empty () client :=
  returns_of_isOk evaluated.1

end Parcels

theorem parcels_class_kept_iff :
    Api.ofDoc Parcels.document = .ok Parcels.api ∧ SpelledTypes Parcels.api.dataTypes ∧
    Parcels.api.dataTypes = [] ++ Parcels.label :: [Parcels.parcel] ∧
    Parcels.label.name = .text "Parcel_label" ∧
    ∃ parent before after className,
      Returns (generateTypes []) State.empty parent before ∧
      Returns (generateDataType Parcels.label) before () after ∧
      after.classes.getLast?.map (·.name) = some className ∧
      ∃ outcome events,
        @Eq (Except Fault Unit × State) ((generate Parcels.api none).run.run State.empty)
          (outcome, replay after events) ∧
        askedKeys events <+:
          (entriesBehind after.classNames [Parcels.parcel] Parcels.api.resources).map (·.key) ∧
        (outcome = .ok () → askedKeys events =
          (entriesBehind after.classNames [Parcels.parcel] Parcels.api.resources).map (·.key)) ∧
        ∀ front, front <+: events →
          ((replay after front).classOf.lookup "Parcel_label" = some className ↔
            "Parcel_label" ∉ askedKeys front) :=
  ⟨Parcels.accepted, Parcels.spelled, rfl, rfl, class_kept_iff Parcels.spelled rfl rfl none⟩

/-- The label of a parcel takes the place of the data type of its name. -/
theorem parcels_class_lost :
    Api.ofDoc Parcels.document = .ok Parcels.api ∧
    ∃ parent before after,
      Returns (generateTypes []) State.empty parent before ∧
      Returns (generateDataType Parcels.label) before () after ∧
      after.classes.getLast?.map (·.name) = some "Parcel_label" ∧
      after.classOf.lookup "Parcel_label" = some "Parcel_label" ∧
      Returns (generate Parcels.api none) State.empty () Parcels.client ∧
      Parcels.client.classOf.lookup "Parcel_label" = some "Parcel_label1" :=
  ⟨Parcels.accepted, _, _, _, rfl, rfl, by decide, by decide, Parcels.returns_client,
    Parcels.evaluated.2⟩

end ApiDescription.Client
