import ApiDescription.Proofs.Drafts
import ApiDescription.Proofs.Rereading
import ApiDescription.Proofs.Validity

/-!
# Arguments of the method for an operation

The method for an operation takes its parameters and then its payload.  A parameter that refers to a
binding of the resource becomes one argument, and the name that the binding has on the wire is
mapped to it.  A parameter that is written on the spot is passed over: it gets no argument.  The
payload is mapped under a name of its own, which may be the name of a parameter as well; then the
name leads to the payload.
-/

namespace ApiDescription.Client

open List Client.Operation
open Code (Argument ClassDef Method)

variable {resource : Resource} {parameter : Parameter} {operation : Operation}

/-! ## Parameters -/

/-- Whether a parameter refers to a binding of its resource. -/
def isReference (parameter : Parameter) : Bool :=
  match parameter.source with
  | .shared _ => true
  | .inline _ | .own _ => false

/-- The binding that a parameter refers to: the first of its identifier. -/
def boundTo (resource : Resource) (parameter : Parameter) : Option InputBinding :=
  match parameter.source with
  | .shared id => (resource.bindings.find? fun binding => binding.id == id).map (·.toInputBinding)
  | .inline _ | .own _ => none

/-- The names on the wire of the bindings that parameters refer to. -/
def wireNames (resource : Resource) (parameters : List Parameter) : List Label :=
  parameters.filterMap fun parameter => (boundTo resource parameter).map (·.name)

structure Stands (resource : Resource) (parameter : Parameter) (argument : Argument) : Prop where
  type : ∃ binding, boundTo resource parameter = some binding ∧
    typeName binding.type = .ok argument.type
  default : argument.default = if parameter.optional.isTruthy then some "None" else none

theorem head?_bindingsOf {bindings : List InputBinding}
    (found : bindingsOf resource parameter = .ok bindings) (legible : parameter.source.Legible) :
    bindings.head? = boundTo resource parameter := by
  unfold bindingsOf boundTo at *
  cases isSource : parameter.source with
  | shared id =>
    simp only [isSource] at found ⊢
    split_ifs at found
    cases found
    rw [head?_map, head?_filter]
  | inline binding =>
    simp only [isSource] at found ⊢
    cases found
    rfl
  | own binding =>
    rw [isSource] at legible
    cases legible

/-- A parameter that refers to a binding becomes an argument under its name on the wire; any other
is passed over. -/
theorem declaration_of_boundTo {declared : List Declaration} (legible : parameter.source.Legible)
    (found : declarationsOf resource parameter = .ok declared) :
    match boundTo resource parameter with
    | none => declared = []
    | some binding => ∃ declaration, declared = [declaration] ∧
        binding.name = .text declaration.key ∧
        typeName binding.type = .ok declaration.type ∧
        declaration.default = optionalDefault parameter.optional := by
  obtain ⟨bindings, isFound, found⟩ := Outcome.bind_eq_ok.mp found
  rw [← head?_bindingsOf isFound legible]
  cases bindings with
  | nil =>
    cases found
    rfl
  | cons binding others =>
    obtain ⟨type, isType, found⟩ := Outcome.bind_eq_ok.mp found
    cases isName : binding.name with
    | texts values =>
      rw [isName] at found
      cases found
    | text key =>
      rw [isName] at found
      cases found
      exact ⟨_, rfl, isName, isType, rfl⟩

theorem isReference_of_boundTo {binding : InputBinding}
    (isBound : boundTo resource parameter = some binding) :
    isReference parameter = true := by
  unfold boundTo at isBound
  unfold isReference
  cases isSource : parameter.source with
  | shared id => rfl
  | inline | own => simp [isSource] at isBound

structure Gains (resource : Resource) (parameters : List Parameter) (declared : List Argument)
    (before after : Method) : Prop where
  arguments : after.arguments = before.arguments ++ declared
  stands : Forall₂ (Stands resource) (parameters.filter isReference) declared
  others : ∀ key, Label.text key ∉ wireNames resource parameters →
    after.mapping (.text key) = before.mapping (.text key)
  mapping : (wireNames resource parameters).Nodup →
    Forall₂ (fun parameter argument => ∀ binding, boundTo resource parameter = some binding →
      after.mapping binding.name.toDoc = .ok argument.name) (parameters.filter isReference) declared

/-- Declaring parameters one after another: each leaves the mappings of the others alone when their
names on the wire differ. -/
theorem exists_gains {parameters : List Parameter} {own : List (List Declaration)} {before : Method}
    (legible : ∀ parameter ∈ parameters, parameter.source.Legible)
    (bound : ∀ parameter ∈ parameters, isReference parameter = true →
      (boundTo resource parameter).isSome)
    (found : parameters.mapM (declarationsOf resource) = .ok own) :
    ∃ declared, Gains resource parameters declared before (own.flatten.foldl declare before) := by
  induction parameters generalizing before own with
  | nil =>
    cases found
    exact ⟨[], by simp, .nil, fun _ _ => rfl, fun _ => .nil⟩
  | cons parameter rest ih =>
    rw [forall_mem_cons] at legible bound
    rw [mapM_cons] at found
    obtain ⟨first, isFirst, found⟩ := Outcome.bind_eq_ok.mp found
    obtain ⟨others, areOthers, ⟨⟩⟩ := Outcome.bind_eq_ok.mp found
    have step := declaration_of_boundTo legible.1 isFirst
    rw [flatten_cons, foldl_append]
    obtain ⟨declared, gains⟩ := @ih others (first.foldl declare before) legible.2 bound.2 areOthers
    cases isBound : boundTo resource parameter with
    | none =>
      rw [isBound] at step
      subst step
      have notReference : isReference parameter ≠ true := fun isReference => by
        simpa [isBound] using bound.1 isReference
      have names : wireNames resource (parameter :: rest) = wireNames resource rest := by
        simp [wireNames, isBound]
      refine ⟨declared, gains.arguments, ?_, names ▸ gains.others, ?_⟩
      · rw [filter_cons_of_neg notReference]
        exact gains.stands
      · rw [names, filter_cons_of_neg notReference]
        exact gains.mapping
    | some binding =>
      rw [isBound] at step
      obtain ⟨declaration, rfl, isText, isType, isDefault⟩ := step
      have isReference : isReference parameter = true := isReference_of_boundTo isBound
      have names : wireNames resource (parameter :: rest) =
          .text declaration.key :: wireNames resource rest := by
        simp [wireNames, isBound, isText]
      refine ⟨⟨nextArgument before declaration.key, declaration.type, declaration.default⟩ ::
        declared, ?_, ?_, ?_, ?_⟩
      · rw [gains.arguments]
        simp [declare, Method.addArgument]
      · rw [filter_cons_of_pos isReference]
        exact .cons ⟨⟨binding, isBound, isType⟩, isDefault⟩ gains.stands
      · intro key absent
        rw [names, mem_cons, not_or] at absent
        rw [gains.others key absent.2]
        exact (mapping_declare _ _ _).trans (if_neg fun same => absent.1 (congrArg Label.text same))
      · intro distinct
        rw [names, nodup_cons] at distinct
        rw [filter_cons_of_pos isReference]
        refine .cons (fun other isOther => ?_) (gains.mapping distinct.2)
        cases isBound.symm.trans isOther
        rw [isText, Label.toDoc, gains.others _ distinct.1]
        exact (mapping_declare _ _ _).trans (if_pos rfl)

/-! ## The payload -/

theorem exists_input_of_mem (declared : parameter ∈ parameters operation) :
    ∃ input, operation.input = some input ∧ parameter ∈ input.params := by
  unfold parameters at declared
  cases hasInput : operation.input with
  | none => simp [hasInput] at declared
  | some input => exact ⟨input, rfl, by simpa [hasInput] using declared⟩

/-- What the method for an operation has gained by its input. -/
structure Takes (resource : Resource) (operation : Operation) (declared : List Argument)
    (payload : Option Argument) (method : Method) : Prop where
  arguments : method.arguments = declared ++ payload.toList
  stands : Forall₂ (Stands resource) ((parameters operation).filter isReference) declared
  hasPayload : payload.isSome = (payloadType operation).isSome
  mapping : (wireNames resource (parameters operation)).Nodup →
    Forall₂ (fun parameter argument => ∀ binding, boundTo resource parameter = some binding →
      (∀ type, payloadType operation = some type → payloadKey type ≠ binding.name.toDoc) →
      method.mapping binding.name.toDoc = .ok argument.name)
      ((parameters operation).filter isReference) declared
  payloadMapping : ∀ type argument, payloadType operation = some type → payload = some argument →
    argument.default = none ∧ method.mapping (payloadKey type) = .ok argument.name

theorem exists_takes {own : List (List Declaration)} {payload : Option Declaration}
    (legible : ∀ parameter ∈ parameters operation, parameter.source.Legible)
    (bound : ∀ parameter ∈ parameters operation, isReference parameter = true →
      (boundTo resource parameter).isSome)
    (declares : Declares resource operation own payload) (name : String) :
    ∃ declared payload', Takes resource operation declared payload'
      (declaredMethod name (own.flatten ++ payload.toList)) := by
  obtain ⟨declared, gains⟩ :=
    @exists_gains _ _ _ (Method.empty .bound name) legible bound declares.found
  have arguments : (declaredMethod name own.flatten).arguments = declared := gains.arguments
  have isPayload := declares.payload
  cases hasPayload : payloadType operation with
  | none =>
    rw [hasPayload] at isPayload
    cases isPayload
    refine ⟨declared, none, ?_⟩
    rw [Option.toList_none, append_nil]
    refine ⟨by simp [arguments], gains.stands, by simp [hasPayload], ?_, by simp⟩
    exact fun distinct => (gains.mapping distinct).imp fun _ _ maps binding isBound _ =>
      maps binding isBound
  | some type =>
    rw [hasPayload] at isPayload
    obtain @⟨_, declaration, isKey, noDefault⟩ := isPayload
    rw [Option.toList_some, declaredMethod_append]
    refine ⟨declared, some ⟨nextArgument (declaredMethod name own.flatten) declaration.key,
      declaration.type, declaration.default⟩, ?_⟩
    constructor
    · simp [declare, arguments, Method.addArgument]
    · exact gains.stands
    · simp [hasPayload]
    · intro distinct
      refine (gains.mapping distinct).imp fun parameter argument maps binding isBound apart => ?_
      have different := apart type hasPayload
      have maps := maps binding isBound
      cases isName : binding.name with
      | texts values =>
        rw [isName] at maps
        cases maps
      | text value =>
        rw [isName] at maps different
        rw [Label.toDoc, mapping_declare, if_neg]
        · exact maps
        · rintro rfl
          exact different isKey
    · intro other argument isOther isArgument
      cases isOther.symm.trans hasPayload
      cases isArgument
      exact ⟨noDefault, by rw [isKey, mapping_declare, if_pos rfl]⟩

theorem isReference_iff :
    isReference parameter = true ↔ ∃ id, parameter.source = .shared id := by
  unfold isReference
  cases parameter.source <;> simp

theorem isSome_boundTo {document : Doc} {api : Api} (accepted : Api.ofDoc document = .ok api)
    (inApi : resource ∈ api.resources) (inResource : operation ∈ resource.operations)
    (declared : parameter ∈ parameters operation) (reference : isReference parameter = true) :
    (boundTo resource parameter).isSome := by
  obtain ⟨id, isShared⟩ := isReference_iff.mp reference
  obtain ⟨input, hasInput, inParams⟩ := exists_input_of_mem declared
  obtain ⟨binding, inBindings, isId⟩ :=
    (Api.valid_of_validate (Api.validate_of_ofDoc accepted)).parameters
    resource inApi operation inResource input hasInput parameter inParams id isShared
  simp only [boundTo, isShared, Option.isSome_map, find?_isSome]
  exact ⟨binding, inBindings, by simp [isId]⟩

/-- The method for an operation of an accepted description takes one argument for every parameter
that refers to a binding, in order, and then the payload.  Parameters written on the spot get none,
so that every parameter has its argument exactly when none is written on the spot.  The name of a
parameter on the wire is mapped to its argument when these names differ, unless the payload is
mapped under it. -/
theorem declareOperation_arguments {document : Doc} {api : Api}
    (accepted : Api.ofDoc document = .ok api) {resource : Resource}
    (inApi : resource ∈ api.resources) {operation : Operation}
    (inResource : operation ∈ resource.operations) {type : ClassDef} {before after : Draft}
    (ran : Returns (declareOperation api resource operation type) before ⟨⟩ after) :
    ∃ declared payload, Takes resource operation declared payload after.method ∧
      (declared.length = (Operation.parameters operation).length ↔
        ∀ parameter ∈ Operation.parameters operation, ∃ id, parameter.source = .shared id) := by
  obtain ⟨_, readFrom⟩ := Api.exists_readFrom accepted inApi inResource
  have legible : ∀ parameter ∈ Operation.parameters operation, parameter.source.Legible := by
    intro parameter member
    obtain ⟨input, hasInput, inParams⟩ := exists_input_of_mem member
    exact (readFrom.apart.input input hasInput).params parameter inParams
  obtain ⟨name, own, payload, declares, -, writes⟩ := exists_of_declareOperation ran
  obtain ⟨declared, payload, takes⟩ :=
    exists_takes legible (fun _ => isSome_boundTo accepted inApi inResource) declares name
  have mapping := writes.mapping
  refine ⟨declared, payload, ⟨?_, takes.stands, takes.hasPayload, ?_, ?_⟩, ?_⟩
  · rw [writes.arguments, takes.arguments]
  · rw [mapping]
    exact takes.mapping
  · rw [mapping]
    exact takes.payloadMapping
  · rw [← takes.stands.length_eq, List.length_filter_eq_length_iff]
    simp only [isReference_iff]

namespace Lookup

/-- Orders are looked up by a shared parameter and by one that is written on the spot. -/
def document : Doc :=
  .object [("name", "lookup"), ("base", "/"),
    ("resources", .list [.object [("name", "order"), ("path", "/order"),
      ("inputBindings", .list [.object [("id", "page"), ("mode", "query"),
        ("name", "limit"), ("type", "int")]]),
      ("operations", .list [.object [("name", "find"), ("method", "GET"),
        ("input", .object [("params", .list [
          .object [("binding", "page"), ("optional", .bool true)],
          .object [("name", "code"), ("mode", "query"), ("type", "string")]])]),
        ("output", .object [("status", .int 200)])]])]])]

/-- The operation that looks up orders. -/
def find : Operation :=
  { name := "find", method := "GET", input := some
      { params := [
          { source := .shared "page", optional := .bool true },
          { source := .inline ⟨"query", "code", .reference (.primitive .string) .null⟩ }] }
    output := some { status := .int 200 } }

def order : Resource :=
  { name := "order", path := "/order", operations := [find]
    bindings := [⟨⟨"query", "limit", .reference (.primitive .int) .null⟩, "page"⟩] }

def api : Api :=
  { name := "lookup", base := ["/"], resources := [order] }

/-- A class without methods and a client without classes. -/
def start : Draft :=
  { client := State.empty, method := Method.empty .bound "" }

/-- The method for the operation, before anything is written into it. -/
def declared : Draft :=
  ((declareOperation api order find (ClassDef.empty "OrderClient" none)).run.run start).2

theorem accepted : Api.ofDoc document = .ok api := by
  cbv

theorem evaluated :
    ((declareOperation api order find (ClassDef.empty "OrderClient" none)).run.run start :
      Except Fault Unit × Draft).1.isOk ∧ declared.method.arguments.map (·.name) = ["limit"] := by
  decide +kernel

theorem returns_declared :
    Returns (declareOperation api order find (ClassDef.empty "OrderClient" none)) start ⟨⟩
      declared :=
  returns_of_isOk evaluated.1

end Lookup

theorem lookup_arguments :
    Api.ofDoc Lookup.document = .ok Lookup.api ∧
    Returns (declareOperation Lookup.api Lookup.order Lookup.find
      (ClassDef.empty "OrderClient" none)) Lookup.start ⟨⟩ Lookup.declared ∧
    ∃ declared payload, Takes Lookup.order Lookup.find declared payload Lookup.declared.method :=
  ⟨Lookup.accepted, Lookup.returns_declared,
    (declareOperation_arguments Lookup.accepted List.mem_cons_self List.mem_cons_self
      Lookup.returns_declared).imp fun _ => Exists.imp fun _ => And.left⟩

/-- The method that looks up orders takes the shared parameter alone. -/
theorem lookup_parameter_without_argument :
    Api.ofDoc Lookup.document = .ok Lookup.api ∧
    Returns (declareOperation Lookup.api Lookup.order Lookup.find
      (ClassDef.empty "OrderClient" none)) Lookup.start ⟨⟩ Lookup.declared ∧
    Lookup.declared.method.arguments.map (·.name) = ["limit"] ∧
    (Operation.parameters Lookup.find).length = 2 ∧ payloadType Lookup.find = none :=
  ⟨Lookup.accepted, Lookup.returns_declared, Lookup.evaluated.2, rfl, rfl⟩

end ApiDescription.Client
