import ApiDescription.Proofs.Closure
import ApiDescription.Proofs.Layout
import ApiDescription.Proofs.Origins

/-!
# Indentation of generated code

Every function and every method that the generator puts together has a balanced body: blocks are
added as a whole, and everything else that is added is code.  Hence the code of a client can be
written, and every line of a body stands behind two blanks for each block around it.
-/

namespace ApiDescription.Client

open Outcome

open Code (ClassDef Fragment IsBalanced Line Method Writer Writing layout)

/-! ## Functions that write and read values -/

namespace Codec

open Code.Method (isBalanced_addLine isBalanced_addLines isBalanced_addBlock)

variable {functions : List Method} {schema : Option Schema}

theorem isBalanced_refusal (name : String) : IsBalanced (refusal name).body :=
  of_decide_eq_true rfl

theorem isBalanced_final (format : Format) : IsBalanced format.final.body := by
  cases format <;> exact of_decide_eq_true rfl

theorem isBalanced_plainWriter (format : Format) (name : String) :
    IsBalanced (plainWriter format name).body := by
  cases format <;> exact of_decide_eq_true rfl

theorem isBalanced_itemsWriter (name callee : String) : IsBalanced (itemsWriter name callee).body :=
  of_decide_eq_true rfl

theorem isBalanced_writeLines (part : FieldPart) : IsBalanced part.writeLines := by
  unfold FieldPart.writeLines
  split_ifs
  · exact (IsBalanced.code _).append (IsBalanced.code _).block
  · exact .code _

theorem isBalanced_recordWriter (name : String) (parts : List FieldPart) :
    IsBalanced (recordWriter name parts).body :=
  isBalanced_addLine (isBalanced_addLines (of_decide_eq_true rfl)
    (.flatMap fun part _ => isBalanced_writeLines part)) _

variable {state : State} {api : Api}

variable {format : Format} {Callee : Schema → String → Prop} {function : Method} {fuel : Nat}
  {codec : Codec}

theorem isBalanced_of_writer {schema : Schema}
    (writer : Writer state api format Callee schema function) :
    IsBalanced function.body := by
  cases writer with
  | primitive | primitives => exact isBalanced_plainWriter format _
  | items => exact isBalanced_itemsWriter _ _
  | record => exact isBalanced_recordWriter _ _

theorem isBalanced_of_writersWithin
    (found : writersWithin state api format fuel schema = .ok functions) :
    ∀ function ∈ functions, IsBalanced function.body := by
  cases schema with
  | none => exact absurd found (writersWithin_none _ _)
  | some schema =>
    intro function member
    rcases (cover_of_writersWithin found).sound function member with rfl | ⟨written, -, writer⟩
    · exact isBalanced_final format
    · exact isBalanced_of_writer writer

/-! ### Reading -/

theorem isBalanced_itemsReader (kind : Container) (name : String) (callee : Option String) :
    IsBalanced (itemsReader kind name callee).body := by
  refine isBalanced_addLine (isBalanced_addBlock
    (isBalanced_addLines (of_decide_eq_true rfl) (by decide)) ?_) _
  cases callee with
  | none => decide
  | some callee => exact .code _

theorem isBalanced_objectReader (name : String) {result : List Line}
    (balanced : IsBalanced result) :
    IsBalanced (objectReader name result).body :=
  isBalanced_addLines (of_decide_eq_true rfl) balanced

theorem isBalanced_recordReader (name className : String) (parts : List FieldPart) :
    IsBalanced (recordReader name className parts).body := by
  refine isBalanced_objectReader name (.append ?_ ((IsBalanced.code _).append (by decide)))
  rw [List.map_eq_flatMap]
  refine .flatMap fun part _ => ?_
  unfold FieldPart.readLine
  cases part.callee <;> exact .code _

theorem isBalanced_of_reader {name : String} {schema : Schema}
    (reader : Reader state Callee name schema function) : IsBalanced function.body := by
  cases reader with
  | primitive => exact of_decide_eq_true rfl
  | primitives | items => exact isBalanced_itemsReader _ _ _
  | whole _ isResult => rcases isResult with rfl | rfl <;>
      exact isBalanced_objectReader name (by decide)
  | record => exact isBalanced_recordReader _ _ _

theorem isBalanced_of_readersWithin (found : readersWithin state api fuel schema = .ok functions) :
    ∀ function ∈ functions, IsBalanced function.body := by
  cases schema with
  | none => exact absurd found (readersWithin_none _ _)
  | some schema =>
    refine @readersWithin_induct _ _ _ _ _ (fun _ functions => ∀ function ∈ functions,
      IsBalanced function.body)
      (fun schema name inner function _ each reader => ?_) (fun _ _ _ _ _ _ => id) found
    refine List.forall_mem_append.mpr ⟨fun other member => ?_, by
      simpa using isBalanced_of_reader reader⟩
    obtain ⟨functions, inInner, inFunctions⟩ := List.mem_flatten.mp member
    rcases each functions inInner with rfl | ⟨_, -, balanced⟩
    · cases inFunctions
    · exact balanced other inFunctions

theorem isBalanced_of_writers (found : codec.writers state api schema = .ok functions) :
    ∀ function ∈ functions, IsBalanced function.body := by
  cases codec with
  | json | form => exact isBalanced_of_writersWithin found
  | unsupported media =>
    obtain ⟨name, -, found⟩ := bind_eq_ok.mp found
    cases found
    simp [isBalanced_refusal]
  | undefined => cases found

theorem isBalanced_of_readers (found : codec.readers state api schema = .ok functions) :
    ∀ function ∈ functions, IsBalanced function.body := by
  cases codec with
  | json => exact isBalanced_of_readersWithin found
  | unsupported media =>
    obtain ⟨name, -, found⟩ := bind_eq_ok.mp found
    cases found
    simp [isBalanced_refusal]
  | form | undefined => cases found

end Codec

/-! ## Methods of classes -/

theorem isMember_constructorFor (fields : List Field) : (constructorFor fields).IsMember := by
  induction fields using List.reverseRecOn with
  | nil => exact ⟨rfl, .nil⟩
  | append_singleton fields field ih =>
    rw [constructorFor_append]
    exact ⟨ih.bound, Method.isBalanced_addLine ih.balanced _⟩

theorem isBalanced_statement (statement : Statement) : IsBalanced statement.lines := by
  cases statement with
  | queryValue _ _ isBoolean => cases isBoolean <;> exact of_decide_eq_true rfl
  | _ => exact of_decide_eq_true rfl

theorem isMember_of_isMethod {method : Method} (isMethod : IsMethod method) : method.IsMember := by
  cases isMethod with
  | constant isConstant member =>
    have members : ∀ methods ∈ [exceptionMethods, parentMethods, [clientConstructor]],
        ∀ method ∈ methods, method.placement = .bound ∧ IsBalanced method.body := by
      decide
    obtain ⟨bound, balanced⟩ := members _ isConstant method member
    exact ⟨bound, balanced⟩
  | constructor fields equal => exact equal ▸ isMember_constructorFor fields
  | operation name declared writes =>
    obtain ⟨noLine, bound⟩ := declaredMethod_body name declared
    refine ⟨writes.placement.trans bound, ?_⟩
    rw [writes.body, noLine, List.nil_append]
    exact .flatMap fun statement _ => isBalanced_statement statement

/-! ## Whole clients -/

/-- A client whose functions are balanced and whose classes are tidy. -/
structure State.IsTidy (state : State) : Prop where
  functions : ∀ function ∈ state.functions, IsBalanced function.body
  classes : ∀ type ∈ state.classes, type.IsTidy

variable {client : State}

theorem State.Composed.isTidy {api : Api} (composed : client.Composed api) : client.IsTidy := by
  refine ⟨fun function member => ?_, fun type member => ?_⟩
  · cases composed.functions function member with
    | writer _ _ _ found inside => exact Codec.isBalanced_of_writers found function inside
    | reader _ _ _ found inside => exact Codec.isBalanced_of_readers found function inside
  · obtain ⟨nonempty, methods⟩ := composed.classes type member
    exact ⟨nonempty, fun method inType => isMember_of_isMethod (methods method inType)⟩

theorem State.IsTidy.balanced (isTidy : client.IsTidy) :
    ∀ method ∈ client.methods, IsBalanced method.body := by
  intro method member
  rcases List.mem_append.mp member with inFunctions | inClasses
  · exact isTidy.functions method inFunctions
  · obtain ⟨type, inClient, inType⟩ := List.mem_flatMap.mp inClasses
    exact ((isTidy.classes type inClient).members method inType).balanced

end ApiDescription.Client
