import ApiDescription.Proofs.Freshness
import ApiDescription.Proofs.Locals
import ApiDescription.Proofs.Origins

/-!
# Signatures of methods

The arguments of a method have different names, and in its signature those with a default come
last.  This alone does not make the signature legal: a name that the description gives may be that
of the object, a reserved word, or no identifier at all, although only letters, digits and
underscores are left of it.  A signature is legal exactly if the stems of all names that the method
maps to arguments are proper names.
-/

namespace ApiDescription.Client

open List Text
open Code (Argument Method)

variable {method : Method} {stem : String}

/-! ## What a signature says -/

def parameters (method : Method) : List Argument :=
  method.arguments.filter (·.default?.isNone) ++ method.arguments.filter (! ·.default?.isNone)

def parameterText (argument : Argument) : String :=
  ", " ++ argument.name ++ (argument.default?.elim "" ("=" ++ ·))

def parameterNames (method : Method) : List String :=
  "self" :: (parameters method).map (·.name)

theorem join_append (first second : List String) :
    join "" (first ++ second) = join "" first ++ join "" second := by
  unfold join
  rcases eq_or_ne first [] with rfl | some
  · simp
  · rcases eq_or_ne second [] with rfl | others
    · simp
    · simp [String.intercalate_append_of_ne_nil some others]

theorem boundSignature_eq (method : Method) :
    method.boundSignature = "def " ++ method.name ++ "(self" ++
      join "" ((parameters method).map parameterText) ++ "):" := by
  have required :
      (method.arguments.filter (·.default?.isNone)).map (fun argument => ", " ++ argument.name) =
      (method.arguments.filter (·.default?.isNone)).map parameterText := by
    refine map_congr_left fun argument member => ?_
    simp_all [parameterText]
  have optional : (method.arguments.filterMap fun argument =>
      argument.default?.map fun value => ", " ++ argument.name ++ "=" ++ value) =
      (method.arguments.filter (! ·.default?.isNone)).map parameterText := by
    rw [← filterMap_eq_map, ← filterMap_eq_filter, filterMap_filterMap]
    refine filterMap_congr fun argument _ => ?_
    cases given : argument.default? <;>
      simp [parameterText, given, Option.guard, String.append_assoc]
  rw [Method.boundSignature, required, optional, parameters, map_append, join_append]
  simp only [String.append_assoc]

/-- Arguments that have to be given come before those with a default. -/
def DefaultsLast (method : Method) : Prop :=
  (parameters method).Pairwise fun first second => first.default?.isSome → second.default?.isSome

theorem defaultsLast (method : Method) : DefaultsLast method := by
  refine pairwise_append.mpr ⟨pairwise_of_forall_mem_list ?_, pairwise_of_forall_mem_list ?_,
    ?_⟩ <;>
    simp +contextual [mem_filter]

/-- A signature with different names, all of them identifiers and none reserved, and with the
defaults last. -/
structure LegalSignature (method : Method) : Prop where
  distinct : (parameterNames method).Nodup
  words : ∀ name ∈ parameterNames method, isIdentifier name ∧ name ∉ reservedWords
  defaultsLast : DefaultsLast method

/-! ## Proper names -/

/-- A name that an argument may have beside the object. -/
def isProper (name : String) : Bool :=
  isIdentifier name && !("self" :: reservedWords).contains name

theorem isProper_iff {name : String} :
    isProper name ↔ isIdentifier name ∧ name ∉ "self" :: reservedWords := by
  simp [isProper]

theorem isIdentifier_append {digits : String} (identifier : isIdentifier stem)
    (parts : ∀ character ∈ digits.toList, character.isDigit) : isIdentifier (stem ++ digits) := by
  unfold isIdentifier at *
  rw [String.toList_append]
  split at identifier
  · next first others characters =>
    rw [characters, cons_append]
    simp only [Bool.and_eq_true, all_append, all_eq_true] at identifier ⊢
    refine ⟨identifier.1, identifier.2, fun character member => isIdentifierPart_of_isAlphanum ?_⟩
    simp [Char.isAlphanum, parts character member]
  · cases identifier

/-- A number behind a proper name makes a proper name: no word with a meaning ends in a digit. -/
theorem isProper_numbered (proper : isProper stem) (number : Nat) :
    isProper (numbered stem number) := by
  cases number with
  | zero => exact proper
  | succ number =>
    have plain : ∀ word ∈ "self" :: reservedWords, EndsPlain word := by decide
    rw [isProper_iff] at proper ⊢
    refine ⟨?_, fun member => (plain _ member).ne_numbered stem number rfl⟩
    rw [numbered_succ]
    refine isIdentifier_append proper.1 fun character member => ?_
    rw [Decimal.natText, String.toList_ofList] at member
    exact Nat.isDigit_of_mem_toDigits (by decide) (by decide) member

theorem isProper_nextArgument (proper : ∀ argument ∈ method.arguments, isProper argument.name)
    (key : String) :
    isProper (nextArgument method key) ↔ isProper (argumentStem key) := by
  obtain ⟨number, equal, -, earlier⟩ :=
    exists_firstFree_eq (method.arguments.map (·.name)) (argumentStem key)
  rw [nextArgument, equal]
  cases number with
  | zero => rw [numbered]
  | succ number =>
    -- the stem itself was taken
    obtain ⟨argument, member, isStem⟩ := mem_map.mp (earlier 0 (Nat.succ_pos number))
    have isProperStem : isProper (argumentStem key) := by
      have isArgument := proper argument member
      rwa [isStem, numbered] at isArgument
    exact iff_of_true (isProper_numbered isProperStem _) isProperStem

/-! ## Methods -/

/-- A name of the service whose argument has a proper name. -/
def ProperKey (key : Doc) : Prop :=
  ∃ text, key = .text text ∧ isProper (argumentStem text)

/-- A method with different arguments, whose names are proper exactly if the names of the service
are that lead to them. -/
structure Allots (method : Method) : Prop where
  distinct : (method.arguments.map (·.name)).Nodup
  proper_iff : (∀ argument ∈ method.arguments, isProper argument.name) ↔
    ∀ key ∈ method.mappings.map Prod.fst, ProperKey key

theorem Allots.declare (allots : Allots method) (declaration : Declaration) :
    Allots (declare method declaration) where
  distinct := by
    rw [Client.declare, Method.addArgument, map_append]
    exact allots.distinct.append (by simp) (disjoint_singleton.mpr (firstFree_not_mem _ _))
  proper_iff := by
    have arguments :
        (∀ argument ∈ (Client.declare method declaration).arguments, isProper argument.name) ↔
        (∀ argument ∈ method.arguments, isProper argument.name) ∧
          isProper (nextArgument method declaration.key) := by
      simp [Client.declare, Method.addArgument, or_imp, forall_and]
    have keys : (∀ key ∈ (Client.declare method declaration).mappings.map Prod.fst, ProperKey key) ↔
        (∀ key ∈ method.mappings.map Prod.fst, ProperKey key) ∧
          isProper (argumentStem declaration.key) := by
      simp only [Client.declare, mem_keys_putMapping, or_imp, forall_and, forall_eq]
      simp [ProperKey]
    rw [arguments, keys, ← allots.proper_iff]
    exact and_congr_right fun proper => isProper_nextArgument proper _

theorem allots_empty (name : String) : Allots (.empty .bound name) :=
  ⟨by simp [Method.empty], by simp [Method.empty]⟩

theorem allots_constructorFor (fields : List Field) : Allots (constructorFor fields) := by
  induction fields using reverseRecOn with
  | nil => exact allots_empty _
  | append_singleton fields field ih =>
    rw [constructorFor_append]
    have allots := ih.declare ⟨field.name.toDoc.textOrEmpty, .null, optionalDefault field.optional⟩
    exact ⟨allots.distinct, allots.proper_iff⟩

theorem allots_declaredMethod (name : String) (declared : List Declaration) :
    Allots (declaredMethod name declared) := by
  induction declared using reverseRecOn with
  | nil => exact allots_empty name
  | append_singleton declared last ih =>
    rw [declaredMethod_append]
    exact ih.declare last

theorem allots_of_isMethod (isMethod : IsMethod method) : Allots method := by
  cases isMethod with
  | constant isConstant member =>
    have proper : ∀ methods ∈ [exceptionMethods, parentMethods, [clientConstructor]],
      ∀ method ∈ methods,
        (method.arguments.map (·.name)).Nodup ∧ method.arguments.all (isProper ·.name) ∧
        method.mappings.length = 0 := by
      decide
    obtain ⟨distinct, areProper, unmapped⟩ := proper _ isConstant method member
    exact ⟨distinct,
      iff_of_true (all_eq_true.mp areProper) (by simp [length_eq_zero_iff.mp unmapped])⟩
  | constructor fields equal => exact equal ▸ allots_constructorFor fields
  | operation name declared writes =>
    obtain ⟨distinct, proper_iff⟩ := allots_declaredMethod name declared
    constructor
    · rwa [writes.arguments]
    · rwa [writes.arguments, writes.mappings]

/-! ## Whole clients -/

/-- A method whose signature has different arguments with the defaults last, and is legal exactly if
the names of the service that it maps have proper stems. -/
structure Signed (method : Method) : Prop where
  written : method.boundSignature = "def " ++ method.name ++ "(self" ++
    join "" ((parameters method).map parameterText) ++ "):"
  distinct : ((parameters method).map (·.name)).Nodup
  defaultsLast : DefaultsLast method
  legal_iff : LegalSignature method ↔ ∀ key ∈ method.mappings.map Prod.fst, ProperKey key

theorem Allots.signed (allots : Allots method) : Signed method := by
  have same : (parameters method).Perm method.arguments := filter_append_perm _ _
  have distinct : ((parameters method).map (·.name)).Nodup :=
    (same.map _).nodup_iff.mpr allots.distinct
  refine ⟨boundSignature_eq method, distinct, Client.defaultsLast method, ?_⟩
  rw [← allots.proper_iff]
  constructor
  · intro legal argument member
    have among : argument.name ∈ (parameters method).map (·.name) :=
      mem_map_of_mem (same.mem_iff.mpr member)
    obtain ⟨identifier, unreserved⟩ := legal.words _ (mem_cons_of_mem _ among)
    refine isProper_iff.mpr ⟨identifier, fun reserved => ?_⟩
    rcases mem_cons.mp reserved with isSelf | isReserved
    · exact (nodup_cons.mp legal.distinct).1 (isSelf ▸ among)
    · exact unreserved isReserved
  · intro proper
    have each : ∀ name ∈ (parameters method).map (·.name), isIdentifier name ∧
        name ∉ "self" :: reservedWords := by
      intro name member
      obtain ⟨argument, isArgument, rfl⟩ := mem_map.mp member
      exact isProper_iff.mp (proper argument (same.mem_iff.mp isArgument))
    refine ⟨nodup_cons.mpr ⟨fun member => (each _ member).2 mem_cons_self, distinct⟩, ?_,
      Client.defaultsLast method⟩
    refine forall_mem_cons.mpr ⟨by decide, fun name member => ⟨(each name member).1,
      fun reserved => ?_⟩⟩
    exact (each name member).2 (mem_cons_of_mem _ reserved)

/-- In every generated client, the signatures of all constructors and methods have different
arguments with the defaults last, and they are legal exactly if the description names no argument
like the object or a reserved word and by no text that leaves something else than an identifier. -/
theorem generated_signatures {api : Api} {preference : Option String} {client : State}
    (ran : Returns (generate api preference) State.empty () client) :
    ∀ type ∈ client.classes, ∀ method ∈ type.methods, Signed method :=
  fun type inClient method inType =>
    (allots_of_isMethod (((composed_of_generate ran).classes type inClient).2 method inType)).signed

theorem counter_signatures :
    Returns (generate Counter.api none) State.empty () Counter.client ∧
      ∀ type ∈ Counter.client.classes, ∀ method ∈ type.methods, Signed method :=
  ⟨Counter.returns_client, generated_signatures Counter.returns_client⟩

namespace School

def document : Doc :=
  .object [("name", "school"), ("resources", .list []),
    ("dataTypes", .list [.object [("name", "Pupil"),
    ("fields", .list [.object [("name", "class"), ("type", "string")]])]])]

def api : Api :=
  { name := "school", dataTypes := [{ name := "Pupil", definition :=
      ⟨[⟨"class", none, .bool false, .reference (.primitive .string) .null⟩], [], none⟩ }] }

def client : State :=
  ((generate api none).run.run State.empty).2

end School

/-- The constructor for pupils takes an argument with the name of a reserved word. -/
theorem school_signature_not_legal :
    Api.ofDoc School.document = .ok School.api ∧
    Returns (generate School.api none) State.empty () School.client ∧
      ∃ type ∈ School.client.classes, ∃ method ∈ type.methods, ¬ LegalSignature method := by
  refine ⟨by cbv, returns_of_isOk (by decide +kernel), ?_⟩
  have reserved : ∃ type ∈ School.client.classes, ∃ method ∈ type.methods,
      "class" ∈ parameterNames method := by
    decide +kernel
  obtain ⟨type, inClient, method, inType, isReserved⟩ := reserved
  exact ⟨type, inClient, method, inType,
    fun legal => (legal.words "class" isReserved).2 (by decide)⟩

end ApiDescription.Client
