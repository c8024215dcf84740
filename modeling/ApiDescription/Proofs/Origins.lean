import ApiDescription.Proofs.ClassEntries

/-!
# Where the methods of a client come from

A generated client has functions, which write and read values, and classes.  The methods of its
classes are always the same ones, or constructors that take the fields of a record, or methods for
operations, which are put together from declarations and statements.
-/

namespace ApiDescription.Client

open Code (ClassDef Method)

variable {api : Api} {before after : State} {method : Method}

/-- A function that writes or reads values of a type. -/
inductive IsCodecOf (api : Api) (function : Method) : Prop
  | writer (codec : Codec) (state : State) (schema : Option Schema) {functions : List Method}
    (found : codec.writers state api schema = .ok functions) (member : function ∈ functions)
  | reader (codec : Codec) (state : State) (schema : Option Schema) {functions : List Method}
    (found : codec.readers state api schema = .ok functions) (member : function ∈ functions)

/-- A method of a class. -/
inductive IsMethod (method : Method) : Prop
  | constant {methods : List Method}
      (isConstant : methods ∈ [exceptionMethods, parentMethods, [clientConstructor]])
    (member : method ∈ methods)
  | constructor (fields : List Field) (equal : method = constructorFor fields)
  | operation (name : String) (declared : List Declaration) {statements : List Statement}
    (writes : Writes statements (declaredMethod name declared) method)

/-- A client with nothing but functions and methods of known origin. -/
structure State.Composed (api : Api) (state : State) : Prop where
  functions : ∀ function ∈ state.functions, IsCodecOf api function
  classes : ∀ type ∈ state.classes, type.methods ≠ [] ∧ ∀ method ∈ type.methods, IsMethod method

theorem maintains_className (type : Doc) :
    Maintains (State.Composed api) (Build.className type) := by
  intro before name after composed ran
  obtain ⟨key, rfl, rfl, rfl⟩ := returns_className.mp ran
  exact ⟨composed.functions, composed.classes⟩

theorem maintains_generateFunctions {functionsOf : Codec → State → Except Fault (List Method)}
    (codecs : ∀ codec state functions, functionsOf codec state = .ok functions →
      ∀ function ∈ functions, IsCodecOf api function) (contentTypes : List String) :
    Maintains (State.Composed api) (generateFunctions functionsOf contentTypes) := by
  refine .forM fun contentType _ => .bind (.lift _) fun media => .bind .get fun state => ?_
  intro before _ after composed ran
  obtain ⟨functions, found, added⟩ := returns_lift_bind.mp ran
  refine Maintains.forM (fun function member => ?_) composed added
  refine .bind (.bind (.lift _) fun _ => .bind .get fun _ => .pure _) fun name => ?_
  split_ifs
  · intro before _ after composed ran
    cases returns_modify.mp ran
    exact ⟨List.forall_mem_append.mpr
      ⟨composed.functions, by simpa using codecs _ _ _ found function member⟩, composed.classes⟩
  · exact .pure _

theorem composed_of_generateDataType {type : NamedTypeDef} (composed : before.Composed api)
    (ran : Returns (generateDataType type) before ⟨⟩ after) : after.Composed api := by
  obtain ⟨key, -, -, rfl⟩ := (returns_generateRecord _).mp ran
  refine ⟨composed.functions,
    List.forall_mem_append.mpr ⟨composed.classes, fun other member => ⟨?_, ?_⟩⟩⟩
  · obtain ⟨entry, -, rfl⟩ := List.mem_map.mp ((perm_recordClasses _ _ _).mem_iff.mp member)
    simp [ClassEntry.toClass, classFor]
  · intro method isMethod
    obtain ⟨fields, equal⟩ := exists_fields_of_mem member isMethod
    exact .constructor fields equal

theorem composed_of_supplied (composed : before.Composed api)
    (supplied : Supplied api before after) :
    after.Composed api := by
  induction supplied with
  | refl => exact composed
  | tail _ step composed =>
    cases step with
    | dataType _ ran => exact composed_of_generateDataType composed ran
    | writers schema _ ran =>
      exact maintains_generateFunctions (fun codec state _ found _ =>
        .writer codec state schema found) _ composed ran
    | readers schema _ ran =>
      exact maintains_generateFunctions (fun codec state _ found _ =>
        .reader codec state schema found) _ composed ran

theorem sustains_composed (api : Api) (preference : Option String) :
    Sustains api preference fun methods state => state.Composed api ∧ ∀ method ∈ methods,
      IsMethod method where
  className _ _ _ _ _ holds ran := ⟨maintains_className _ holds.1 ran, holds.2⟩
  dataType _ _ _ holds ran := ⟨composed_of_generateDataType holds.1 ran, by simp⟩
  constant _ isConstant _ holds := ⟨holds.1, fun _ member => .constant isConstant member⟩
  draft _ _ _ _ _ method _ _ _ holds ran := by
    obtain ⟨name, own, payload, _, _, _, _, _, _, _, _, -, supplied, -, -, requests, results,
        writes⟩ :=
      exists_of_draftOperation (returns_newMethod.mp ran)
    refine ⟨composed_of_supplied holds.1
      (supplied.trans (requests.supplied.trans results.supplied)),
      List.forall_mem_append.mpr ⟨holds.2, ?_⟩⟩
    rw [List.forall_mem_singleton]
    exact .operation name _ writes
  addClass _ _ _ nonempty holds ran := by
    cases returns_addClass.mp ran
    exact ⟨⟨holds.1.functions,
      List.forall_mem_append.mpr ⟨holds.1.classes, by simpa using ⟨nonempty, holds.2⟩⟩⟩, by simp⟩

theorem composed_of_generate {preference : Option String} {client : State}
    (ran : Returns (generate api preference) State.empty () client) : client.Composed api :=
  ((sustains_composed api preference).generate ⟨⟨by simp [State.empty], by simp [State.empty]⟩, by
    simp⟩ ran).1

end ApiDescription.Client
