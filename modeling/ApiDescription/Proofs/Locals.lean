import ApiDescription.Proofs.Completion
import ApiDescription.Proofs.Layout

/-!
# Local variables of the method for an operation

The body of a method keeps the query, the connection and the answer in local variables whose names
are fixed.  Arguments take their names from the description, and only other arguments keep a name
from being taken.  So an argument is overwritten by the body exactly when some name of the
description gives the name of one of the local variables that the body assigns.
-/

namespace ApiDescription.Client

open List Statement
open Code (ClassDef Fragment Line Method lineText)

variable {resource : Resource} {name word : String} {operation : Operation}

/-! ## Assignments in lines -/

/-- A line that gives a variable a value. -/
def Assigns (line : Line) (name : String) : Prop :=
  ∃ fragments rest, line = .code fragments ∧ lineText fragments = name ++ " = " ++ rest

/-- The word in front of an equals sign with which a text begins. -/
def assignee? (text : List Char) : Option String :=
  if " = ".toList.isPrefixOf (text.dropWhile isWordChar) then
    some (String.ofList (text.takeWhile isWordChar))
  else none

/-- The variable that a line gives a value to. -/
def target? : Line → Option String
  | .code fragments => assignee? (lineText fragments).toList
  | .indent | .dedent => none

theorem toList_lineText (fragments : List Fragment) :
    (lineText fragments).toList = fragments.flatMap fun fragment => fragment.text.toList := by
  induction fragments with
  | nil => rfl
  | cons fragment rest ih =>
    cases rest with
    | nil => simp [lineText, Text.join]
    | cons second others =>
      rw [flatMap_cons, ← ih]
      simp [lineText, Text.join, String.intercalate_cons_cons]

variable {rest : List Char} {keyword : String} {method : Method} {before after : State}
  {preference : Option String} {taken keys : List String} {queries entity : Bool}

theorem assignee?_append (isWord : IsWord word) (ends : rest.head?.any isWordChar = false) :
    assignee? (word.toList ++ rest) =
      if " = ".toList.isPrefixOf rest then some word else none := by
  have stays : rest.takeWhile isWordChar = [] ∧ rest.dropWhile isWordChar = rest := by
    cases rest with
    | nil => exact ⟨rfl, rfl⟩
    | cons first others =>
      have stops : ¬ isWordChar first = true := by simpa using ends
      exact ⟨takeWhile_cons_of_neg stops, dropWhile_cons_of_neg stops⟩
  rw [assignee?, dropWhile_append_of_pos isWord, takeWhile_append_of_pos isWord, stays.1,
    stays.2, append_nil, String.ofList_toList]

theorem assignee?_assignment (isWord : IsWord word) (rest : List Char) :
    assignee? (word.toList ++ ' ' :: '=' :: ' ' :: rest) = some word := by
  rw [assignee?_append isWord rfl]
  rfl

theorem assignee?_keyword (isKeyword : IsWord keyword) (isWord : IsWord word)
    (ends : rest.head? ≠ some '=') :
    assignee? (keyword.toList ++ ' ' :: (word.toList ++ rest)) = none := by
  rw [assignee?_append isKeyword rfl, if_neg]
  rw [List.isPrefixOf_iff_prefix]
  rintro ⟨more, equal⟩
  have behind : '=' :: ' ' :: more = word.toList ++ rest := tail_eq_of_cons_eq equal
  cases characters : word.toList with
  | nil =>
    rw [characters, nil_append] at behind
    rw [← behind] at ends
    exact ends rfl
  | cons first others =>
    rw [characters, cons_append, cons.injEq] at behind
    have letter := isWord first (by simp [characters])
    rw [← behind.1] at letter
    exact absurd letter (by decide)

theorem assigns_iff (isWord : IsWord name) {line : Line} :
    Assigns line name ↔ target? line = some name := by
  constructor
  · rintro ⟨fragments, rest, rfl, text⟩
    rw [target?, text]
    simpa using assignee?_assignment isWord rest.toList
  · intro found
    cases line with
    | indent | dedent => cases found
    | code fragments =>
      simp only [target?, assignee?, Option.ite_none_right_eq_some, isPrefixOf_iff_prefix,
        Option.some.injEq] at found
      obtain ⟨⟨rest, equal⟩, word⟩ := found
      refine ⟨fragments, String.ofList rest, rfl, String.toList_inj.mp ?_⟩
      have whole := @takeWhile_append_dropWhile _ isWordChar (lineText fragments).toList
      rw [← equal] at whole
      simpa [← word] using whole.symm

def assigned (method : Method) : List String :=
  method.body.filterMap target?

theorem exists_assigns_iff (isWord : IsWord name) :
    (∃ line ∈ method.body, Assigns line name) ↔ name ∈ assigned method := by
  simp only [assigned, mem_filterMap, assigns_iff isWord]

/-! ## The statements of a method -/

/-- The local variables that the method for an operation assigns, in order: `queries` says whether
something goes into the query, `entity` whether the request carries a payload. -/
def locals (queries entity : Bool) : List String :=
  ["query"] ++ (if queries then ["query_data", "query"] else []) ++ ["conn"] ++
    (if entity then ["headers", "payload"] else []) ++ ["response", "expected_status", "errors",
      "payload"]

/-- What a line assigns is settled by its first piece, unless that ends where an equals sign can
still follow. -/
theorem target?_of_head {head : String} {targets : List String} (rest : List Fragment)
    (settled : (head.toList.dropWhile isWordChar).isPrefixOf " = ".toList = false ∨
      " = ".toList.isPrefixOf (head.toList.dropWhile isWordChar) = true)
    (isTarget : (assignee? head.toList).toList = targets) :
    (target? (.code (.code head :: rest))).toList = targets := by
  have ends : head.toList.dropWhile isWordChar ≠ [] := by
    intro empty
    simp [empty] at settled
  have cut : (head.toList.takeWhile isWordChar).length ≠ head.toList.length := by
    intro whole
    have parts := congrArg List.length (@List.takeWhile_append_dropWhile _ isWordChar head.toList)
    rw [List.length_append] at parts
    exact ends (List.eq_nil_of_length_eq_zero (by omega))
  rw [← isTarget, target?, toList_lineText, List.flatMap_cons, Fragment.text, assignee?, assignee?,
    List.dropWhile_append, if_neg (mt List.isEmpty_iff.mp ends), List.takeWhile_append, if_neg cut]
  congr 1
  simp only [List.isPrefixOf_iff_prefix, Bool.eq_false_iff, ne_eq] at settled ⊢
  refine if_congr ?_ rfl rfl
  constructor
  · intro equals
    rcases List.prefix_or_prefix_of_prefix equals (List.prefix_append _ _) with inside | beyond
    · exact inside
    · exact settled.resolve_left (not_not_intro beyond)
  · intro equals
    exact equals.trans (List.prefix_append _ _)

theorem target?_keyword {fragments : List Fragment} (isKeyword : IsWord keyword)
    (isWord : IsWord word) (ends : rest.head? ≠ some '=')
    (text : (lineText fragments).toList = keyword.toList ++ ' ' :: (word.toList ++ rest)) :
    (target? (.code fragments)).toList = [] := by
  rw [target?, text, assignee?_keyword isKeyword isWord ends]
  rfl

theorem isWord_of_all (isWord : word.toList.all isWordChar = true) : IsWord word :=
  all_eq_true.mp isWord

def Statement.targets (statement : Statement) : List String :=
  statement.lines.filterMap target?

theorem filterMap_cons_target (line : Line) (lines : List Line) :
    (line :: lines).filterMap target? = (target? line).toList ++ lines.filterMap target? := by
  cases found : target? line <;> simp [found]

theorem Statement.IsQueryOf.targets {statement : Statement} (isQuery : statement.IsQueryOf method)
    (words : MapsToWords method) : statement.targets = [] := by
  obtain ⟨argument, key, isBoolean, name, rfl, isMapped⟩ := isQuery
  have isWord : IsWord argument := isWord_of_mapping words isMapped
  have silent {ending : String} (ends : ending.toList.head? ≠ some '=') :
      (target? (.code ["if ", argument, ending])).toList = [] := by
    have text : (lineText ["if ", argument, ending]).toList =
        "if".toList ++ ' ' :: (argument.toList ++ ending.toList) := by
      simp [toList_lineText, Fragment.text]
    exact target?_keyword (isWord_of_all rfl) isWord ends text
  have stores (rest : List Fragment) : (target? (.code ("query_data[" :: rest))).toList = [] :=
    target?_of_head rest (by decide) rfl
  have asks := silent (show " is not None:".toList.head? ≠ some '=' by decide)
  have tests := silent (show ":".toList.head? ≠ some '=' by decide)
  cases isBoolean <;> simp only [Statement.targets, lines, filterMap_cons_target, asks, tests,
    stores] <;> rfl

theorem Requests.targets {api : Api} {mapping : Doc → Except Fault String}
    {request : List Statement} (requests : Requests api operation mapping before after request) :
    request.flatMap Statement.targets =
      if enclosesEntity operation.method then ["headers", "payload"] else [] := by
  have sends (rest : List Fragment) : (target? (.code ("conn.request(" :: rest))).toList = [] :=
    target?_of_head rest (by decide) rfl
  have headed (rest : List Fragment) :
      (target? (.code ("headers = \x7b 'Content-type' : " :: rest))).toList = ["headers"] :=
    target?_of_head rest (by decide) rfl
  have prepared (rest : List Fragment) :
      (target? (.code ("payload = serialize_final_" :: rest))).toList = ["payload"] :=
    target?_of_head rest (by decide) rfl
  cases requests with
  | plain isPlain =>
    simp [isPlain, Statement.targets, Statement.lines, filterMap_cons_target, sends]
  | entity isEntity =>
    simp [isEntity, Statement.targets, Statement.lines, filterMap_cons_target, sends, headed,
      prepared]

theorem Results.targets {api : Api} {result : List Statement}
    (results : Results api preference before after result) :
    result.flatMap Statement.targets = [] := by
  cases results with
  | none => rfl
  | @read schema contentTypes media function middle client supplied direct read selected named =>
    obtain ⟨contentType, -, isMedia⟩ := exists_of_selectMedia selected
    have isFunction :=
      Codec.isHelperName_of_schemaCodecName (.inr rfl) (isName_of_mediaName isMedia) named
    have text : (lineText ["return ", function, "(payload)"]).toList =
        "return".toList ++ ' ' :: (function.toList ++ "(payload)".toList) := by
      simp [toList_lineText, Fragment.text]
    have silent := target?_keyword (isWord_of_all rfl) isFunction.isName.isWord (by decide) text
    simp [Statement.targets, Statement.lines, filterMap_cons_target, silent]

theorem targets_answer (status errors : String) :
    (answer status errors).targets = ["expected_status", "errors", "payload"] := by
  have expects (rest : List Fragment) :
      (target? (.code ("expected_status = " :: rest))).toList = ["expected_status"] :=
    target?_of_head rest (by decide) rfl
  have mistakes (rest : List Fragment) :
      (target? (.code ("errors = " :: rest))).toList = ["errors"] :=
    target?_of_head rest (by decide) rfl
  simp only [targets, lines, filterMap_cons_target, expects, mistakes]
  rfl

/-! ## Names of arguments -/

/-- The names of arguments beside those that are there, given to keys one after the other. -/
def argumentNames (taken keys : List String) : List String :=
  keys.foldl (fun taken key => taken ++ [firstFree taken (argumentStem key)]) taken

def EndsPlain (name : String) : Prop :=
  ∃ last, name.toList.getLast? = some last ∧ last.isDigit = false

instance (name : String) : Decidable (EndsPlain name) :=
  decidable_of_iff (name.toList.getLast?.any fun last => !last.isDigit) (by
    unfold EndsPlain
    cases name.toList.getLast? <;> simp)

theorem EndsPlain.ne_numbered (plain : EndsPlain name) (stem : String) (number : Nat) :
    name ≠ numbered stem (number + 1) := by
  rintro rfl
  obtain ⟨last, isLast, notDigit⟩ := plain
  rw [numbered_succ, String.toList_append, Decimal.natText, String.toList_ofList,
    getLast?_append_of_ne_nil _ Nat.toDigits_ne_nil] at isLast
  have isDigit := Nat.isDigit_of_mem_toDigits (by decide) (by decide) (mem_of_getLast? isLast)
  rw [notDigit] at isDigit
  cases isDigit

theorem mem_argumentNames (plain : EndsPlain name) :
    name ∈ argumentNames taken keys ↔ name ∈ taken ∨ ∃ key ∈ keys, argumentStem key = name := by
  induction keys generalizing taken with
  | nil => simp [argumentNames]
  | cons key rest ih =>
    have step : name ∈ taken ++ [firstFree taken (argumentStem key)] ↔
        name ∈ taken ∨ argumentStem key = name := by
      obtain ⟨found, equal, -, before⟩ := exists_firstFree_eq taken (argumentStem key)
      rw [mem_append, mem_singleton, equal]
      cases found with
      | zero => rw [numbered, eq_comm]
      | succ number =>
        -- the stem itself was taken
        have isTaken := before 0 (Nat.succ_pos number)
        rw [numbered] at isTaken
        constructor
        · rintro (inTaken | counted)
          · exact .inl inTaken
          · exact absurd counted (plain.ne_numbered _ _)
        · rintro (inTaken | rfl)
          · exact .inl inTaken
          · exact .inl isTaken
    rw [argumentNames, foldl_cons]
    change name ∈ argumentNames _ rest ↔ _
    rw [ih, step, or_assoc]
    simp

theorem names_declaredMethod (name : String) (declared : List Declaration) :
    (declaredMethod name declared).arguments.map (·.name) =
      argumentNames [] (declared.map (·.key)) := by
  induction declared using reverseRecOn with
  | nil => rfl
  | append_singleton declared last ih =>
    rw [declaredMethod_append, map_append, argumentNames, foldl_append]
    simp [declare, nextArgument, Method.addArgument, ih, argumentNames]

theorem keys_eq_declaredKeys {own : List (List Declaration)} {payload : Option Declaration}
    (legible : ∀ parameter ∈ Operation.parameters operation, parameter.source.Legible)
    (declares : Declares resource operation own payload) :
    (own.flatten ++ payload.toList).map (·.key) = declaredKeys resource operation := by
  rw [map_append, keys_eq_boundNames legible declares.found, declaredKeys]
  have isPayload := declares.payload
  cases hasPayload : payloadType operation with
  | none =>
    rw [hasPayload] at isPayload
    cases isPayload
    rfl
  | some type =>
    rw [hasPayload] at isPayload
    obtain @⟨_, declaration, isKey, -⟩ := isPayload
    simp [isKey, Doc.textOrEmpty]

/-! ## Overwritten arguments -/

theorem endsPlain_of_mem_locals (member : name ∈ locals queries entity) : EndsPlain name := by
  have every : ∀ name ∈ locals queries entity, EndsPlain name := by
    cases queries <;> cases entity <;> decide
  exact every name member

theorem isWord_of_mem_locals (member : name ∈ locals queries entity) : IsWord name := by
  have every : ∀ name ∈ locals queries entity, name.toList.all isWordChar = true := by
    cases queries <;> cases entity <;> decide
  exact isWord_of_all (every name member)

theorem isWord_of_mem_argumentNames (words : ∀ name ∈ taken, IsWord name) :
    ∀ name ∈ argumentNames taken keys, IsWord name := by
  induction keys generalizing taken with
  | nil => exact words
  | cons key rest ih =>
    refine ih (forall_mem_append.mpr ⟨words, ?_⟩)
    simpa using isWord_firstFree (isWord_argumentStem key)

/-- The lines of the method for an operation assign the local variables. -/
theorem assigned_of_draftOperation {before after : Draft} {api : Api} {type : ClassDef}
    (legible : ∀ parameter ∈ Operation.parameters operation, parameter.source.Legible)
    (ran : Returns (draftOperation api resource type preference operation) before ⟨⟩ after) :
    ∃ queries, hasQuery resource operation = .ok queries ∧
      assigned after.method = locals queries (enclosesEntity operation.method) ∧
      after.method.arguments.map (·.name) = argumentNames [] (declaredKeys resource operation) := by
  obtain ⟨name, own, payload, begun, queries, values, sent, request, status, errors, result,
    declares, -, isQuery, areValues, requests, results, writes⟩ := exists_of_draftOperation ran
  have words := mapsToWords_declaredMethod name (own.flatten ++ payload.toList)
  have silent : values.flatMap targets = [] :=
    flatMap_eq_nil_iff.mpr fun value member => (areValues value member).targets words
  have query : (queryStatements queries values).flatMap targets =
      ["query"] ++ if queries then ["query_data", "query"] else [] := by
    cases queries with
    | false => rfl
    | true =>
      rw [queryStatements, if_pos rfl, flatMap_cons, flatMap_append, flatMap_cons, silent]
      rfl
  refine ⟨queries, isQuery, ?_, ?_⟩
  · have body : assigned after.method = (queryStatements queries values ++ .connect :: request ++
        .response :: .answer status errors :: result).flatMap targets := by
      rw [assigned, writes.body, (declaredMethod_body _ _).1, nil_append, filterMap_flatMap]
      rfl
    rw [body, flatMap_append, flatMap_append, flatMap_cons, flatMap_cons, flatMap_cons, query,
      requests.targets, results.targets, targets_answer, locals]
    simp
    rfl
  · rw [writes.arguments, names_declaredMethod, keys_eq_declaredKeys legible declares]

/-- The method for an operation of an accepted description overwrites an argument exactly when its
name is that of a local variable which the body assigns; and the arguments of such names are those
whose parameters or payload are called so in the description. -/
theorem overwritten_arguments {document : Doc} {api : Api} (accepted : Api.ofDoc document = .ok api)
    {resource : Resource} (inApi : resource ∈ api.resources) {operation : Operation}
    (inResource : operation ∈ resource.operations) {type : ClassDef} {preference : Option String}
    {before after : State} {method : Method}
    (ran : Returns (draftOperation api resource type preference operation).newMethod before method
      after) :
    ∃ queries, hasQuery resource operation = .ok queries ∧
      ∀ name, (name ∈ method.arguments.map (·.name) ∧ ∃ line ∈ method.body, Assigns line name) ↔
        name ∈ locals queries (enclosesEntity operation.method) ∧
          ∃ key ∈ declaredKeys resource operation, argumentStem key = name := by
  obtain ⟨_, readFrom⟩ := Api.exists_readFrom accepted inApi inResource
  have legible : ∀ parameter ∈ Operation.parameters operation, parameter.source.Legible := by
    intro parameter member
    obtain ⟨input, hasInput, inParams⟩ := exists_input_of_mem member
    exact (readFrom.apart.input input hasInput).params parameter inParams
  obtain ⟨queries, isQuery, isAssigned, names⟩ :=
    assigned_of_draftOperation legible (returns_newMethod.mp ran)
  refine ⟨queries, isQuery, fun name => ?_⟩
  rw [names]
  constructor
  · rintro ⟨isArgument, isTarget⟩
    have isWord := isWord_of_mem_argumentNames (by simp) name isArgument
    rw [exists_assigns_iff isWord, isAssigned] at isTarget
    refine ⟨isTarget, ?_⟩
    simpa [mem_argumentNames (endsPlain_of_mem_locals isTarget)] using isArgument
  · rintro ⟨isLocal, isKey⟩
    rw [exists_assigns_iff (isWord_of_mem_locals isLocal), isAssigned,
      mem_argumentNames (endsPlain_of_mem_locals isLocal)]
    exact ⟨.inr isKey, isLocal⟩

namespace Relay

/-- Messages are sent on with their headers, and with a query. -/
def document : Doc :=
  .object [("name", "relay"), ("base", "/"),
    ("resources", .list [.object [("name", "message"), ("path", "/message"),
      ("inputBindings", .list [.object [("id", "filter"), ("mode", "query"),
        ("name", "query"), ("type", "string")]]),
      ("operations", .list [.object [("name", "send"), ("method", "POST"),
        ("input", .object [("contentType", "application/json"), ("type", "Headers"),
          ("params", .list [.object [("binding", "filter")]])]),
        ("output", .object [("status", .int 201)])]])]]),
    ("dataTypes", .list [.object [("name", "Headers"),
      ("fields", .list [.object [("name", "sender"), ("type", "string")]])]])]

def send : Operation :=
  { name := "send", method := "POST", input := some
      { contentType := ["application/json"], type := some (.reference (.custom "Headers") .null)
        params := [{ source := .shared "filter" }] }
    output := some { status := .int 201 } }

def message : Resource :=
  { name := "message", path := "/message", operations := [send]
    bindings := [⟨⟨"query", "query", .reference (.primitive .string) .null⟩,
      "filter"⟩] }

def api : Api :=
  { name := "relay", base := ["/"], resources := [message]
    dataTypes := [
      { name := "Headers"
        definition := ⟨[⟨"sender", none, .bool false, .reference (.primitive .string) .null⟩],
          [], none⟩ }] }

/-- The client once the classes of the data types are there. -/
def start : State :=
  ((api.dataTypes.forM generateDataType).run.run State.empty).2

/-- The class of the resource before its methods are added. -/
def type : ClassDef :=
  ClassDef.empty "MessageClient" none

def drafted : Draft :=
  ((draftOperation api message type none send).run.run
    { client := start, method := Method.empty .bound "" }).2

theorem accepted : Api.ofDoc document = .ok api := by
  cbv

theorem evaluated :
    ((draftOperation api message type none send).run.run
      { client := start, method := Method.empty .bound "" } :
      Except Fault Unit × Draft).1.isOk ∧
        drafted.method.arguments.map (·.name) = ["query", "headers"] ∧
    .code ["query = ''"] ∈ drafted.method.body ∧
    .code ["headers = \x7b 'Content-type' : ", .quoted "application/json", " \x7d"] ∈
      drafted.method.body := by
  decide +kernel

theorem returns_drafted :
    Returns (draftOperation api message type none send).newMethod start
      drafted.method drafted.client :=
  returns_newMethod.mpr (returns_of_isOk evaluated.1)

end Relay

theorem relay_overwritten_arguments :
    Api.ofDoc Relay.document = .ok Relay.api ∧ Relay.message ∈ Relay.api.resources ∧
    Relay.send ∈ Relay.message.operations ∧
    Returns (draftOperation Relay.api Relay.message Relay.type none Relay.send).newMethod
      Relay.start Relay.drafted.method Relay.drafted.client ∧
    ∃ queries, hasQuery Relay.message Relay.send = .ok queries ∧
      ∀ name, (name ∈ Relay.drafted.method.arguments.map (·.name) ∧
          ∃ line ∈ Relay.drafted.method.body, Assigns line name) ↔
        name ∈ locals queries (enclosesEntity Relay.send.method) ∧
          ∃ key ∈ declaredKeys Relay.message Relay.send, argumentStem key = name :=
  ⟨Relay.accepted, List.mem_cons_self, List.mem_cons_self, Relay.returns_drafted,
    overwritten_arguments Relay.accepted List.mem_cons_self List.mem_cons_self
      Relay.returns_drafted⟩

/-- Both arguments of the method that sends a message on are overwritten before they are used. -/
theorem relay_arguments_assigned :
    Api.ofDoc Relay.document = .ok Relay.api ∧
    Returns (draftOperation Relay.api Relay.message Relay.type none
      Relay.send).newMethod Relay.start
      Relay.drafted.method Relay.drafted.client ∧
    Relay.drafted.method.arguments.map (·.name) = ["query", "headers"] ∧
    (∃ line ∈ Relay.drafted.method.body, Assigns line "query") ∧
    ∃ line ∈ Relay.drafted.method.body, Assigns line "headers" := by
  obtain ⟨-, arguments, query, headers⟩ := Relay.evaluated
  exact ⟨Relay.accepted, Relay.returns_drafted, arguments, ⟨_, query, _, "''", rfl, rfl⟩,
    _, headers, _, "\x7b 'Content-type' : 'application/json' \x7d", rfl, by decide⟩

end ApiDescription.Client
