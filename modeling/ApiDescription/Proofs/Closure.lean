import ApiDescription.Proofs.ClassEntries
import ApiDescription.Proofs.Codecs
import ApiDescription.Proofs.Occurrences
import ApiDescription.Proofs.Rereading

/-!
# Clients without dangling calls

A client is closed when the names of its functions are pairwise different and every helper that a
function or a method calls is one of its functions.  Every step of the generator keeps a client
closed and loses none of its functions; so a client that is generated to the end is closed.
-/

namespace ApiDescription.Client

open Code (ClassDef Line Method)

variable {before after : State} {contentTypes : List String} {operation : Operation} {key : Doc}
  {method : Method} {type : ClassDef} {media : String} {resource : Resource}

def State.functionNames (state : State) : List String :=
  state.functions.map (·.name)

def State.methods (state : State) : List Method :=
  state.functions ++ state.classes.flatMap (·.methods)

/-- A client whose calls of helpers lead to one function each. -/
structure State.IsClosed (state : State) : Prop extends state.IsSpelled where
  distinct : state.functionNames.Nodup
  calls : ∀ method ∈ state.methods, helpersOf method ⊆ state.functionNames

theorem State.isClosed_empty : State.empty.IsClosed where
  classOf := by simp [State.empty]
  mappings := by simp [State.empty]
  distinct := by simp [State.empty, State.functionNames]
  calls := by simp [State.empty, State.methods]

/-- A closed client that has all functions that were there before. -/
structure State.Extends (before after : State) : Prop where
  closed : after.IsClosed
  grows : before.functionNames ⊆ after.functionNames

variable {state middle : State} {functions : List Method} {name argument contentType : String}
  {table : List (String × String)} {schema : Option Schema} {statement : Statement} {input : Input}
  {target : Doc} {preference : Option String}

theorem State.IsClosed.refl (closed : state.IsClosed) : state.Extends state :=
  ⟨closed, List.Subset.refl _⟩

theorem State.Extends.trans (first : before.Extends middle) (second : middle.Extends after) :
    before.Extends after :=
  ⟨second.closed, List.Subset.trans first.grows second.grows⟩

/-! ## Adding functions -/

/-- A client after functions were added to it. -/
structure Adds (functions : List Method) (before after : State) : Prop where
  frame : after = { before with functions := after.functions }
  grows : before.functionNames ⊆ after.functionNames
  names : functions.map (·.name) ⊆ after.functionNames
  only : ∀ function ∈ after.functions, function ∈ before.functions ∨ function ∈ functions
  distinct : before.functionNames.Nodup → after.functionNames.Nodup

theorem adds_of_addFunction {function : Method} (named : Codec.IsHelperName function.name)
    (ran : Returns (Build.addFunction function) before ⟨⟩ after) :
    Adds [function] before after := by
  rw [returns_addFunction named.method_stem] at ran
  split_ifs at ran with taken
  · subst ran
    exact ⟨rfl, List.Subset.refl _, by simpa [State.functionNames] using taken, fun _ => .inl, id⟩
  · subst ran
    refine ⟨rfl, by simp [State.functionNames], by simp [State.functionNames], by simp, ?_⟩
    intro distinct
    simp only [State.functionNames, List.map_append, List.map_cons, List.map_nil]
    exact distinct.append (by simp) (by simpa [State.functionNames] using taken)

theorem Adds.append {first second : List Method} (addsFirst : Adds first before middle)
    (addsSecond : Adds second middle after) :
    Adds (first ++ second) before after where
  frame := by rw [addsSecond.frame, addsFirst.frame]
  grows := List.Subset.trans addsFirst.grows addsSecond.grows
  names := by
    rw [List.map_append]
    exact List.append_subset.mpr ⟨List.Subset.trans addsFirst.names addsSecond.grows,
      addsSecond.names⟩
  only function member := by
    rcases addsSecond.only function member with inMiddle | inSecond
    · exact (addsFirst.only function inMiddle).imp_right (List.mem_append_left _)
    · exact .inr (List.mem_append_right _ inSecond)
  distinct := addsSecond.distinct ∘ addsFirst.distinct

theorem adds_of_forM (named : ∀ function ∈ functions, Codec.IsHelperName function.name)
    (ran : Returns (functions.forM Build.addFunction) before ⟨⟩ after) :
    Adds functions before after := by
  induction functions generalizing before with
  | nil =>
    obtain ⟨-, rfl⟩ := returns_pure.mp ran
    exact ⟨rfl, List.Subset.refl _, by simp, fun _ => .inl, id⟩
  | cons function rest ih =>
    obtain ⟨middle, first, others⟩ := returns_bind_unit.mp ran
    exact (adds_of_addFunction (named function List.mem_cons_self) first).append
      (ih (fun function member => named function (List.mem_cons_of_mem _ member)) others)

/-- Functions that call only one another leave a client closed. -/
theorem Adds.extends (adds : Adds functions before after) (helpers : Codec.Helpers functions)
    (closed : before.IsClosed) : before.Extends after where
  closed := by
    have classes : after.classes = before.classes := by rw [adds.frame]
    have classOf : after.classOf = before.classOf := by rw [adds.frame]
    refine ⟨⟨classOf ▸ closed.classOf, classes ▸ closed.mappings⟩, adds.distinct closed.distinct,
      fun method member => ?_⟩
    rcases List.mem_append.mp member with inFunctions | inClasses
    · rcases adds.only method inFunctions with old | new
      · exact List.Subset.trans (closed.calls method (List.mem_append_left _ old)) adds.grows
      · exact List.Subset.trans (helpers.closed method new) adds.names
    · rw [classes] at inClasses
      exact List.Subset.trans (closed.calls method (List.mem_append_right _ inClasses)) adds.grows
  grows := adds.grows

/-! ## Adding classes -/

theorem mem_of_put {κ : Type} (put : List (κ × String) → List (κ × String)) (isKey : κ → Prop)
    [DecidablePred isKey] {key : κ} {value : String} (nil : put [] = [(key, value)])
    (cons : ∀ name old rest, put ((name, old) :: rest) =
      if isKey name then (name, value) :: rest else (name, old) :: put rest)
    {entries : List (κ × String)} {entry : κ × String} (member : entry ∈ put entries) :
    entry.2 = value ∨ entry ∈ entries := by
  induction entries with
  | nil =>
    rw [nil] at member
    cases List.mem_singleton.mp member
    exact .inl rfl
  | cons first rest ih =>
    rw [cons] at member
    split_ifs at member with same
    · rcases List.mem_cons.mp member with rfl | inRest
      · exact .inl rfl
      · exact .inr (List.mem_cons_of_mem _ inRest)
    · rcases List.mem_cons.mp member with rfl | inRest
      · exact .inr List.mem_cons_self
      · exact (ih inRest).imp_right (List.mem_cons_of_mem _)

theorem mem_putClass {key : String} {entry : String × String}
    (member : entry ∈ State.putClass key name table) :
    entry.2 = name ∨ entry ∈ table :=
  mem_of_put (State.putClass key name) (· = key) rfl (fun _ _ _ => rfl) member

theorem mem_putMapping {mappings : List (Doc × String)} {entry : Doc × String}
    (member : entry ∈ Method.putMapping key argument mappings) :
    entry.2 = argument ∨ entry ∈ mappings :=
  mem_of_put (Method.putMapping key argument) (fun name => name.same key = true) rfl
    (fun _ _ _ => rfl) member

theorem isClassName_classStem (key : String) : IsClassName (classStem key) :=
  have found : NameStyle.type.stem (.text key) = .ok (classStem key) := rfl
  isClassName_of_type_stem found

theorem extends_className {type : Doc} (closed : before.IsClosed)
    (ran : Returns (Build.className type) before name after) :
    before.Extends after := by
  obtain ⟨key, rfl, rfl, rfl⟩ := returns_className.mp ran
  refine ⟨⟨⟨?_, closed.mappings⟩, closed.distinct, closed.calls⟩, List.Subset.refl _⟩
  intro entry member
  rcases mem_putClass member with new | old
  · rw [new]
    exact isClassName_firstFree (isClassName_classStem key)
  · exact closed.classOf entry old

/-- The arguments that names of the service are mapped to are words. -/
def MapsToWords (method : Method) : Prop :=
  ∀ entry ∈ method.mappings, IsWord entry.2

/-- A method that may stand in a class of a client: it calls functions of the client, and its
arguments are words. -/
structure Fits (state : State) (method : Method) : Prop where
  calls : helpersOf method ⊆ state.functionNames
  mappings : MapsToWords method

theorem Fits.mono (fits : Fits before method) (grows : before.functionNames ⊆ after.functionNames) :
    Fits after method :=
  ⟨List.Subset.trans fits.calls grows, fits.mappings⟩

theorem extends_addClasses {classes : List ClassDef} (closed : before.IsClosed)
    (fits : ∀ type ∈ classes, ∀ method ∈ type.methods, Fits before method) :
    before.Extends { before with classes := before.classes ++ classes } := by
  refine ⟨⟨⟨closed.classOf, ?_⟩, closed.distinct, ?_⟩, List.Subset.refl _⟩
  · exact List.forall_mem_append.mpr
      ⟨closed.mappings, fun type member method inType => (fits type member method inType).mappings⟩
  · intro method member
    simp only [State.methods, List.flatMap_append, List.mem_append, List.mem_flatMap] at member
    rcases member with inFunctions | inClasses | ⟨type, inType, isMethod⟩
    · exact closed.calls method (List.mem_append_left _ inFunctions)
    · exact closed.calls method (List.mem_append_right _ (List.mem_flatMap.mpr inClasses))
    · exact (fits type inType method isMethod).calls

theorem isWord_argumentStem (key : String) : IsWord (argumentStem key) :=
  have found : NameStyle.argument.stem (.text key) = .ok (argumentStem key) := rfl
  isWord_of_argument_stem found

theorem MapsToWords.declare (words : MapsToWords method) (declaration : Declaration) :
    MapsToWords (declare method declaration) := by
  intro entry member
  rcases mem_putMapping member with new | old
  · rw [new]
    exact isWord_firstFree (isWord_argumentStem _)
  · exact words entry old

theorem helpersIn_assignment (isWord : IsWord argument) :
    helpersIn (.code ["self.", argument, " = ", argument]) = [] := by
  simp [helpersIn, callsIn, outline, scanCalls_append, scanCalls_word isWord, scanCalls, isWordChar]

theorem fits_constructorFor (state : State) (fields : List Field) :
    Fits state (constructorFor fields) := by
  induction fields using List.reverseRecOn with
  | nil => exact ⟨by simp [constructorFor], by simp [MapsToWords, constructorFor, Method.empty]⟩
  | append_singleton fields field ih =>
    rw [constructorFor_append]
    refine ⟨?_, ih.mappings.declare _⟩
    have isWord : IsWord (nextArgument (constructorFor fields) field.name.toDoc.textOrEmpty) :=
      isWord_firstFree (isWord_argumentStem _)
    rw [withField, helpersOf_addLine, helpersIn_assignment isWord, List.append_nil]
    exact ih.calls

theorem isClassName_of_mem_putClasses {taken : List String} {entries : List ClassEntry}
    (inTurn : NamedInTurn taken entries) (spelled : ∀ entry ∈ table, IsClassName entry.2) :
    ∀ entry ∈ entries.foldl (fun table entry => State.putClass entry.key entry.name table) table,
      IsClassName entry.2 := by
  induction inTurn generalizing table with
  | nil => exact spelled
  | cons taken key _ _ ih =>
    refine ih fun entry member => ?_
    rcases mem_putClass member with new | old
    · rw [new]
      exact isClassName_firstFree (isClassName_classStem key)
    · exact spelled entry old

theorem extends_generateDataType {type : NamedTypeDef} (closed : before.IsClosed)
    (ran : Returns (generateDataType type) before ⟨⟩ after) : before.Extends after := by
  obtain ⟨key, -, spelled, rfl⟩ := (returns_generateRecord _).mp ran
  have fits : ∀ other ∈ recordClasses before.classNames key type.definition,
    ∀ method ∈ other.methods,
      Fits before method := by
    intro other member method isMethod
    obtain ⟨fields, rfl⟩ := exists_fields_of_mem member isMethod
    exact fits_constructorFor before fields
  have extended := extends_addClasses closed fits
  have inTurn := namedInTurn_recordEntries before.classNames key type.definition spelled
  exact ⟨⟨⟨isClassName_of_mem_putClasses inTurn closed.classOf, extended.closed.mappings⟩,
    extended.closed.distinct, extended.closed.calls⟩, extended.grows⟩

/-! ## Adding functions for content types -/

/-- Functions for content types extend a client when those for every media type are helpers, and
what they have to provide for a media type is there in the end. -/
theorem extends_generateFunctions {functionsOf : Codec → State → Except Fault (List Method)}
    {Provided : String → String → Prop}
    (spec : ∀ media state functions, IsName media → state.IsSpelled →
      functionsOf (.ofMedia media) state = .ok functions → Codec.Helpers functions ∧
        ∀ name, Provided media name → name ∈ functions.map (·.name))
    (closed : before.IsClosed)
    (ran : Returns (generateFunctions functionsOf contentTypes) before ⟨⟩ after) :
    before.Extends after ∧ ∀ contentType ∈ contentTypes, ∀ media,
      mediaName contentType = .ok media →
      ∀ name, Provided media name → name ∈ after.functionNames := by
  induction contentTypes generalizing before with
  | nil =>
    obtain ⟨-, rfl⟩ := returns_pure.mp ran
    exact ⟨closed.refl, by simp⟩
  | cons contentType rest ih =>
    obtain ⟨middle, first, others⟩ := returns_bind_unit.mp ran
    obtain ⟨media, isMedia, first⟩ := returns_lift_bind.mp first
    rw [returns_get_bind] at first
    obtain ⟨functions, found, first⟩ := returns_lift_bind.mp first
    obtain ⟨helpers, provides⟩ :=
      spec media before functions (isName_of_mediaName isMedia) closed.toIsSpelled found
    have adds := adds_of_forM helpers.named first
    have extended := adds.extends helpers closed
    obtain ⟨extendedRest, providedRest⟩ := ih extended.closed others
    refine ⟨extended.trans extendedRest, fun other member => ?_⟩
    rcases List.mem_cons.mp member with rfl | inRest
    · intro other alsoMedia name provided
      cases isMedia.symm.trans alsoMedia
      exact extendedRest.grows (adds.names (provides name provided))
    · exact providedRest other inRest

/-- After the functions that write a type were added, the function that turns a prepared value into
text and the function for the type are there. -/
theorem extends_generateWriters {api : Api} (closed : before.IsClosed)
    (ran : Returns (generateWriters api schema contentTypes) before ⟨⟩ after) :
    before.Extends after ∧ ∀ contentType ∈ contentTypes, ∀ media,
      mediaName contentType = .ok media →
      ∀ name, (name = "serialize_final_" ++ media ∨
        schemaCodecName api media "serialize" schema = .ok name ∧
          ∀ target, schema = some (.reference (.custom target)) → Codec.Resolves api target) →
        name ∈ after.functionNames := by
  refine extends_generateFunctions ?_ closed ran
  intro media state functions isName spelled found
  have serves := Codec.serves_of_writers spelled isName found
  refine ⟨serves.helpers, ?_⟩
  rintro name (rfl | ⟨named, resolves⟩)
  · exact serves.final
  · exact serves.own name named resolves

theorem extends_generateReaders {api : Api} (closed : before.IsClosed)
    (ran : Returns (generateReaders api schema contentTypes) before ⟨⟩ after) :
    before.Extends after ∧ ∀ contentType ∈ contentTypes, ∀ media,
      mediaName contentType = .ok media →
      ∀ name, (schemaCodecName api media "deserialize" schema = .ok name ∧
        ∀ target, schema ≠ some (.reference (.custom target))) → name ∈ after.functionNames := by
  refine extends_generateFunctions ?_ closed ran
  intro media state functions isName spelled found
  obtain ⟨helpers, own⟩ := Codec.helpers_of_readers spelled isName found
  exact ⟨helpers, fun name ⟨named, direct⟩ => own name named direct⟩

theorem extends_supplied {api : Api} (closed : before.IsClosed)
    (supplied : Supplied api before after) :
    before.Extends after := by
  induction supplied with
  | refl => exact closed.refl
  | tail _ step extended =>
    refine extended.trans ?_
    cases step with
    | dataType _ ran => exact extends_generateDataType extended.closed ran
    | writers _ _ ran => exact (extends_generateWriters extended.closed ran).1
    | readers _ _ ran => exact (extends_generateReaders extended.closed ran).1

/-! ## Methods for operations -/

def Statement.Calls (state : State) (statement : Statement) : Prop :=
  statement.lines.flatMap helpersIn ⊆ state.functionNames

theorem Statement.Calls.mono (calls : statement.Calls before)
    (grows : before.functionNames ⊆ after.functionNames) : statement.Calls after :=
  List.Subset.trans calls grows

theorem mapsToWords_declaredMethod (name : String) (declared : List Declaration) :
    MapsToWords (declaredMethod name declared) := by
  induction declared using List.reverseRecOn with
  | nil => simp [MapsToWords, declaredMethod, Method.empty]
  | append_singleton declared last ih =>
    rw [declaredMethod_append]
    exact ih.declare last

theorem Statement.IsQueryOf.calls (isQuery : statement.IsQueryOf method)
    (words : MapsToWords method) (state : State) : statement.Calls state := by
  obtain ⟨argument, key, isBoolean, name, rfl, isMapped⟩ := isQuery
  have argumentWord := scanCalls_word (isWord_of_mapping words isMapped)
  cases isBoolean <;> simp [Statement.Calls, lines, helpersIn, callsIn, outline, scanCalls_append,
    argumentWord, scanCalls, isWordChar, isHelper]

def Resolvable (api : Api) (operation : Operation) : Prop :=
  ∀ input, operation.input = some input → ∀ target link,
    input.type = some (.reference (.custom target) link) → Codec.Resolves api target

theorem Resolvable.of_schema {api : Api} (resolvable : Resolvable api operation) {type : DataType}
    (hasInput : operation.input = some input) (hasType : input.type = some type)
    (isTarget : some type.schema = some (.reference (.custom target))) :
    Codec.Resolves api target := by
  cases type with
  | reference reference link =>
    cases isTarget
    exact resolvable input hasInput target link hasType
  | inline definition => cases isTarget

theorem mem_of_firstContentType (found : firstContentType input = .ok contentType) :
    contentType ∈ input.contentType := by
  unfold firstContentType at found
  split at found
  · next isCons =>
    cases found
    simp [isCons]
  · cases found

theorem calls_payload {function : String} (isMedia : IsWord media) (isFunction : IsWord function)
    (isArgument : IsWord argument) (final : "serialize_final_" ++ media ∈ state.functionNames)
    (defined : function ∈ state.functionNames) :
    (Statement.payload contentType media function argument).Calls state := by
  have calls : callsIn (.code ["payload = serialize_final_", media, "(", function, "(", argument,
      "))"]) = ["serialize_final_" ++ media, function] := by
    simp [callsIn, outline, scanCalls_append, scanCalls_word isMedia, scanCalls_word isFunction,
      scanCalls_word isArgument, scanCalls, isWordChar, ← String.toList_inj]
  have silent : helpersIn (.code ["headers = \x7b 'Content-type' : ", .quoted contentType,
      " \x7d"]) = [] := by
    simp [helpersIn, callsIn, outline, scanCalls, isWordChar]
  rw [Statement.Calls, Statement.lines, List.flatMap_cons, silent, List.nil_append,
    List.flatMap_singleton, helpersIn, calls]
  exact List.Subset.trans (List.filter_subset_self _) (by simp [final, defined])

theorem calls_request (state : State) (method path : String) (entity : Bool) :
    (Statement.request method path entity).Calls state := by
  cases entity <;>
    simp [Statement.Calls, Statement.lines, helpersIn, callsIn, outline, scanCalls, isWordChar,
      isHelper]

theorem Requests.calls {api : Api} {mapping : Doc → Except Fault String} {request : List Statement}
    (requests : Requests api operation mapping before after request) (closed : before.IsClosed)
    (resolvable : Resolvable api operation)
    (words : ∀ key argument, mapping key = .ok argument → IsWord argument) :
    ∀ statement ∈ request, statement.Calls after := by
  cases requests with
  | plain => simpa using calls_request _ _ _ _
  | entity _ hasInput hasType isFirst isMedia named isMapped written =>
    have provided := (extends_generateWriters closed written).2 _ (mem_of_firstContentType isFirst)
      _ isMedia
    have isName := isName_of_mediaName isMedia
    have isFunction := Codec.isHelperName_of_schemaCodecName (.inl rfl) isName named
    have defined := provided _ (.inr ⟨named, fun target isTarget =>
      resolvable.of_schema hasInput hasType isTarget⟩)
    refine List.forall_mem_cons.mpr ⟨?_, by simpa using calls_request _ _ _ _⟩
    exact calls_payload isName.isWord isFunction.isName.isWord (words _ _ isMapped)
      (provided _ (.inl rfl)) defined

theorem exists_of_firstMedia (found : firstMedia contentTypes = .ok media) :
    ∃ contentType ∈ contentTypes, mediaName contentType = .ok media := by
  cases contentTypes with
  | nil => cases found
  | cons first rest => exact ⟨first, List.mem_cons_self, found⟩

theorem exists_of_hasMedia (found : hasMedia media contentTypes = .ok true) :
    ∃ contentType ∈ contentTypes, mediaName contentType = .ok media := by
  induction contentTypes with
  | nil => cases found
  | cons first rest ih =>
    obtain ⟨name, isName, found⟩ := Outcome.bind_eq_ok.mp found
    split_ifs at found with same
    · exact ⟨first, List.mem_cons_self, by rw [isName, beq_iff_eq.mp same]⟩
    · obtain ⟨contentType, member, isMedia⟩ := ih found
      exact ⟨contentType, List.mem_cons_of_mem _ member, isMedia⟩

theorem exists_of_selectMedia (found : selectMedia contentTypes preference = .ok media) :
    ∃ contentType ∈ contentTypes, mediaName contentType = .ok media := by
  cases preference with
  | none => exact exists_of_firstMedia found
  | some name =>
    obtain ⟨offered, isOffered, found⟩ := Outcome.bind_eq_ok.mp found
    cases offered with
    | true =>
      cases found
      exact exists_of_hasMedia isOffered
    | false => exact exists_of_firstMedia found

theorem Results.calls {api : Api} {result : List Statement}
    (results : Results api preference before after result) (closed : before.IsClosed) :
    ∀ statement ∈ result, statement.Calls after := by
  cases results with
  | none => simp
  | @read schema contentTypes media function middle client supplied direct read selected named =>
    obtain ⟨contentType, member, isMedia⟩ := exists_of_selectMedia selected
    have defined := (extends_generateReaders (extends_supplied closed supplied).closed read).2
      contentType member media isMedia function ⟨named, direct⟩
    have isFunction :=
      Codec.isHelperName_of_schemaCodecName (.inr rfl) (isName_of_mediaName isMedia) named
    have calls : callsIn (.code ["return ", function, "(payload)"]) = [function] := by
      simp [callsIn, outline, scanCalls_append, scanCalls_word isFunction.isName.isWord, scanCalls,
        isWordChar]
    simp only [List.mem_singleton, forall_eq, Statement.Calls, Statement.lines, List.flatMap_cons,
      List.flatMap_nil, List.append_nil, helpersIn, calls]
    exact List.Subset.trans (List.filter_subset_self _) (by simpa using defined)

/-- The method for an operation calls functions that the client has when it is drafted. -/
theorem extends_draftOperation {api : Api} (resolvable : Resolvable api operation)
    {before after : Draft} (closed : before.client.IsClosed)
    (ran : Returns (draftOperation api resource type preference operation) before ⟨⟩ after) :
    before.client.Extends after.client ∧ Fits after.client after.method := by
  obtain ⟨name, own, payload, begun, queries, values, sent, request, status, errors, result, -,
    supplied, -, areValues, requests, results, writes⟩ := exists_of_draftOperation ran
  have words := mapsToWords_declaredMethod name (own.flatten ++ payload.toList)
  have first := extends_supplied closed supplied
  have second := extends_supplied first.closed requests.supplied
  have third := extends_supplied second.closed results.supplied
  refine ⟨first.trans (second.trans third), ?_, fun entry => writes.mappings ▸ words entry⟩
  have query : ∀ statement ∈ queryStatements queries values, statement.Calls after.client := by
    have silent : Statement.queryStart.Calls after.client := List.nil_subset _
    have isValue : ∀ value ∈ values, value.Calls after.client :=
      fun value member => (areValues value member).calls words _
    cases queries with
    | false => simpa [queryStatements] using silent
    | true =>
      simp only [queryStatements, if_true, List.forall_mem_cons, List.forall_mem_append]
      exact ⟨silent, ⟨List.nil_subset _, isValue⟩, List.nil_subset _, by simp⟩
  have answer : (Statement.answer status errors).Calls after.client := by
    simp [Statement.Calls, Statement.lines, helpersIn, callsIn, outline, Line.ofText, scanCalls,
      isWordChar, isHelper]
  have sends : ∀ statement ∈ request, statement.Calls after.client := fun statement member =>
    (requests.calls first.closed resolvable (fun _ _ => isWord_of_mapping words) statement
      member).mono third.grows
  intro helper called
  rw [helpersOf, writes.body, (declaredMethod_body _ _).1, List.nil_append,
    List.flatMap_assoc] at called
  obtain ⟨statement, member, inside⟩ := List.mem_flatMap.mp called
  simp only [List.mem_append, List.mem_cons] at member
  rcases member with (isQuery | rfl | isRequest) | rfl | rfl | isResult
  · exact query statement isQuery inside
  · cases inside
  · exact sends statement isRequest inside
  · cases inside
  · exact answer inside
  · exact results.calls second.closed statement isResult inside

/-! ## Whole clients -/

theorem exists_text_of_generateDataType {type : NamedTypeDef}
    (ran : Returns (generateDataType type) before ⟨⟩ after) : ∃ key, type.name = .text key := by
  obtain ⟨key, isText, -⟩ := (returns_generateRecord _).mp ran
  exact ⟨key, isText⟩

theorem resolves_of_canonical {api : Api}
    (texts : ∀ type ∈ api.dataTypes, ∃ key, type.name = .text key)
    (canonical : (TypeRef.custom target).Canonical) : Codec.Resolves api target := by
  intro schema found
  obtain ⟨type, rfl⟩ := Api.exists_named_of_lookup canonical found
  obtain ⟨_, isText, rfl⟩ := Api.exists_key_of_lookup texts found
  exact ⟨type, rfl, isText⟩

theorem resolvable_of_ofDoc {document : Doc} {api : Api} (accepted : Api.ofDoc document = .ok api)
    (texts : ∀ type ∈ api.dataTypes, ∃ key, type.name = .text key)
    (inApi : resource ∈ api.resources) (inResource : operation ∈ resource.operations) :
    Resolvable api operation := by
  obtain ⟨_, readFrom⟩ := Api.exists_readFrom accepted inApi inResource
  intro input hasInput target link hasType
  exact resolves_of_canonical texts ((readFrom.apart.input input hasInput).type _ hasType)

theorem sustains_closed {api : Api}
    (resolvable : ∀ resource ∈ api.resources, ∀ operation ∈ resource.operations,
      Resolvable api operation) :
    Sustains api preference fun methods state => state.IsClosed ∧ ∀ method ∈ methods,
      Fits state method where
  className _ _ _ _ _ holds ran := by
    have extended := extends_className holds.1 ran
    exact ⟨extended.closed, fun method member => (holds.2 method member).mono extended.grows⟩
  dataType _ _ _ holds ran := ⟨(extends_generateDataType holds.1 ran).closed, by simp⟩
  constant methods isConstant state holds := by
    refine ⟨holds.1, fun method member => ?_⟩
    have silent : ∀ methods ∈ [exceptionMethods, parentMethods, [clientConstructor]],
        ∀ method ∈ methods, helpersOf method = [] ∧ method.mappings.length = 0 := by
      decide_cbv
    obtain ⟨noHelper, unmapped⟩ := silent methods isConstant method member
    exact ⟨by simp [noHelper], by simp [MapsToWords, List.length_eq_zero_iff.mp unmapped]⟩
  draft resource inApi operation inResource _ _ _ _ _ holds ran := by
    obtain ⟨extended, fits⟩ :=
      extends_draftOperation (resolvable resource inApi operation inResource)
      holds.1 (returns_newMethod.mp ran)
    exact ⟨extended.closed, List.forall_mem_append.mpr
      ⟨fun method member => (holds.2 method member).mono extended.grows, by simpa using fits⟩⟩
  addClass type _ _ _ holds ran := by
    cases returns_addClass.mp ran
    exact ⟨(extends_addClasses holds.1 (by simpa using holds.2)).closed, by simp⟩

/-- In the client of an accepted description every call of a helper leads to exactly one function:
the names of the functions are pairwise different, and every helper that a function or a method of a
class calls is among them. -/
theorem generate_calls_defined {document : Doc} {api : Api}
    (accepted : Api.ofDoc document = .ok api) {preference : Option String} {client : State}
    (ran : Returns (generate api preference) State.empty () client) :
    client.functionNames.Nodup ∧
      ∀ method ∈ client.methods, ∀ name ∈ helpersOf method, name ∈ client.functionNames := by
  have texts : ∀ type ∈ api.dataTypes, ∃ key, type.name = .text key := by
    intro type member
    obtain ⟨_, _, ran, -⟩ := returns_bind.mp ran
    obtain ⟨_, _, -, ran⟩ := returns_bind.mp ran
    obtain ⟨_, -, ran⟩ := returns_bind_unit.mp ran
    obtain ⟨_, _, -, ran⟩ := returns_bind.mp ran
    obtain ⟨_, -, ran⟩ := returns_bind_unit.mp ran
    obtain ⟨_, types, -⟩ := returns_bind_unit.mp ran
    obtain ⟨_, _, generated⟩ := types.exists_of_mem member
    exact exists_text_of_generateDataType generated
  have closed := ((sustains_closed fun resource inApi operation inResource =>
    resolvable_of_ofDoc accepted texts inApi inResource).generate ⟨State.isClosed_empty, by simp⟩
      ran).1
  exact ⟨closed.distinct, fun method member name called => closed.calls method member called⟩

namespace Counter

/-- At a counter, orders of several items are placed and confirmed. -/
def document : Doc :=
  .object [("name", "counter"), ("base", "/"),
    ("resources", .list [.object [("name", "order"), ("path", "/order"),
      ("operations", .list [.object [("name", "place"), ("method", "POST"),
        ("input", .object [("contentType", "application/json"), ("type", "Order")]),
        ("output", .object [("status", .int 201), ("contentType", "application/json"),
          ("type", "Order")])]])]]),
    ("dataTypes", .list [
      .object [("name", "Order"),
        ("fields", .list [.object [("name", "items"), ("type", "list(Item)")]])],
      .object [("name", "Item"),
        ("fields", .list [.object [("name", "code"), ("type", "string")]])]])]

def place : Operation :=
  { name := "place", method := "POST", input := some
      { contentType := ["application/json"], type := some (.reference (.custom "Order") .null) }
    output := some
      { status := .int 201, contentType := some ["application/json"]
        type := some (.reference (.custom "Order") .null) } }

def api : Api :=
  { name := "counter", base := ["/"]
    resources := [{ name := "order", path := "/order", operations := [place] }]
    dataTypes := [
      { name := "Order"
        definition := ⟨[⟨"items", none, .bool false,
          .reference (.container .list (.custom "Item")) .null⟩], [], none⟩ },
      { name := "Item"
        definition := ⟨[⟨"code", none, .bool false, .reference (.primitive .string) .null⟩],
          [], none⟩ }] }

def client : State :=
  ((generate api none).run.run State.empty).2

theorem accepted : Api.ofDoc document = .ok api := by
  cbv

theorem returns_client : Returns (generate api none) State.empty () client :=
  returns_of_isOk (by decide +kernel)

end Counter

theorem counter_calls_defined :
    Api.ofDoc Counter.document = .ok Counter.api ∧
    Returns (generate Counter.api none) State.empty () Counter.client ∧
    Counter.client.functionNames.Nodup ∧
    ∀ method ∈ Counter.client.methods, ∀ name ∈ helpersOf method,
      name ∈ Counter.client.functionNames :=
  ⟨Counter.accepted, Counter.returns_client,
    generate_calls_defined Counter.accepted Counter.returns_client⟩

end ApiDescription.Client
