import ApiDescription.Client.Program
import ApiDescription.Proofs.Checks

/-!
# Runs of the generator

A generator works on a state and may fail.  `Returns` relates the state before a run that succeeds
to the value it returns and the state after it; every kind of step has one equivalence that says
when and what it returns, so that a run comes apart into its steps and is put together from them.
-/

namespace ApiDescription.Client

open Code (ClassDef Line Method)

variable {σ α β : Type}

def Returns (work : ExceptT Fault (StateM σ) α) (before : σ) (value : α) (after : σ) : Prop :=
  @Eq (Except Fault α × σ) (work.run.run before) (.ok value, after)

/-! ## Steps of any work -/

section Steps

variable {before after : σ} {value : α} {result : β} {outcome : Except Fault α} {state : σ}
  {fault : Fault} {work : ExceptT Fault (StateM σ) α} {next : α → ExceptT Fault (StateM σ) β}

@[simp] theorem returns_pure {result : α} :
    Returns (pure result : ExceptT Fault (StateM σ) α) before value after ↔
      result = value ∧ before = after := by
  change (Except.ok result, before) = (Except.ok value, after) ↔ _
  simp

@[simp] theorem returns_lift :
    Returns (liftM outcome : ExceptT Fault (StateM σ) α) before value after ↔
      outcome = .ok value ∧ before = after := by
  change (outcome, before) = (Except.ok value, after) ↔ _
  simp

@[simp] theorem returns_throw :
    ¬ Returns (throw fault : ExceptT Fault (StateM σ) α) before value after := by
  change (Except.error fault, before) ≠ (Except.ok value, after)
  simp

@[simp] theorem returns_get :
    Returns (get : ExceptT Fault (StateM σ) σ) before state after ↔
      before = state ∧ before = after := by
  change (Except.ok before, before) = (Except.ok state, after) ↔ _
  simp

variable {change : σ → σ}

@[simp] theorem returns_modify {result : PUnit} :
    Returns (modify change : ExceptT Fault (StateM σ) PUnit) before result after ↔
      change before = after := by
  change (Except.ok PUnit.unit, change before) = (Except.ok result, after) ↔ _
  simp

theorem run_bind : @Eq (Except Fault β × σ) ((work >>= next).run.run before)
      (match (work.run.run before : Except Fault α × σ) with
        | (.ok value, middle) => (next value).run.run middle
        | (.error fault, middle) => (.error fault, middle)) := by
  rw [ExceptT.run_bind, StateT.run_bind]
  cases work.run.run before with
  | mk outcome middle => cases outcome <;> rfl

theorem returns_bind :
    Returns (work >>= next) before result after ↔
      ∃ value middle, Returns work before value middle ∧
        Returns (next value) middle result after := by
  unfold Returns
  rw [run_bind]
  cases (work.run.run before : Except Fault α × σ) with
  | mk outcome middle => cases outcome <;> simp

theorem run_of_returns (ran : Returns work before value state) :
    (work >>= next).run.run before = (next value).run.run state := by
  unfold Returns at ran
  rw [run_bind, ran]

theorem returns_bind_unit {work : ExceptT Fault (StateM σ) PUnit}
    {next : PUnit → ExceptT Fault (StateM σ) β} :
    Returns (work >>= next) before result after ↔
      ∃ middle, Returns work before ⟨⟩ middle ∧ Returns (next ⟨⟩) middle result after := by
  rw [returns_bind]
  constructor
  · rintro ⟨⟨⟩, middle, ran, rest⟩
    exact ⟨middle, ran, rest⟩
  · rintro ⟨middle, ran, rest⟩
    exact ⟨⟨⟩, middle, ran, rest⟩

theorem returns_get_bind {next : σ → ExceptT Fault (StateM σ) β} :
    Returns (get >>= next) before result after ↔ Returns (next before) before result after := by
  simp [returns_bind]

theorem returns_lift_bind :
    Returns (liftM outcome >>= next) before result after ↔
      ∃ value, outcome = .ok value ∧ Returns (next value) before result after := by
  simp [returns_bind]

theorem returns_of_isOk {work : ExceptT Fault (StateM σ) Unit}
    (isOk : (work.run.run before : Except Fault Unit × σ).1.isOk = true) :
    Returns work before () (work.run.run before : Except Fault Unit × σ).2 := by
  unfold Returns
  revert isOk
  cases (work.run.run before : Except Fault Unit × σ) with
  | mk outcome after =>
    intro isOk
    cases outcome with
    | error fault => cases isOk
    | ok value => rfl

section Lists

variable {items : List α} {work : α → ExceptT Fault (StateM σ) PUnit}

theorem Returns.forM {Invariant : σ → Prop} (ran : Returns (items.forM work) before ⟨⟩ after)
    (start : Invariant before)
    (step : ∀ item ∈ items, ∀ before after, Invariant before →
      Returns (work item) before ⟨⟩ after → Invariant after) :
    Invariant after := by
  induction items generalizing before with
  | nil =>
    obtain ⟨-, rfl⟩ := returns_pure.mp ran
    exact start
  | cons item rest ih =>
    obtain ⟨middle, first, others⟩ := returns_bind_unit.mp ran
    exact ih others (step item List.mem_cons_self _ _ start first) fun item member =>
      step item (List.mem_cons_of_mem _ member)

theorem Returns.exists_of_mem (ran : Returns (items.forM work) before ⟨⟩ after) {item : α}
    (member : item ∈ items) :
    ∃ before after, Returns (work item) before ⟨⟩ after := by
  induction items generalizing before with
  | nil => cases member
  | cons first rest ih =>
    obtain ⟨middle, ranFirst, others⟩ := returns_bind_unit.mp ran
    cases member with
    | head => exact ⟨before, middle, ranFirst⟩
    | tail _ inRest => exact ih others inRest

end Lists

/-! ## Work that returns from all states of a kind -/

/-- Work that returns from every state of a kind; what it gives and the state that it leaves fit
`After`. -/
def Yields (Before : σ → Prop) (work : ExceptT Fault (StateM σ) α) (After : α → σ → Prop) :
    Prop :=
  ∀ before, Before before → ∃ value after, Returns work before value after ∧ After value after

/-- Work that returns wherever the invariant holds, and keeps it. -/
abbrev Completes (Invariant : σ → Prop) (work : ExceptT Fault (StateM σ) α) : Prop :=
  Yields Invariant work fun _ => Invariant

namespace Yields

variable {Before : σ → Prop} {After : β → σ → Prop}

theorem pure {value : β} (fits : ∀ state, Before state → After value state) :
    Yields Before (Pure.pure value) After :=
  fun before holds => ⟨value, before, returns_pure.mpr ⟨rfl, rfl⟩, fits before holds⟩

theorem weaken {Stronger : σ → Prop} {After : α → σ → Prop} (yields : Yields Before work After)
    (weaker : ∀ state, Stronger state → Before state) : Yields Stronger work After :=
  fun before holds => yields before (weaker before holds)

theorem bind {Between : α → σ → Prop} (first : Yields Before work Between)
    (rest : ∀ value, Yields (Between value) (next value) After) :
    Yields Before (work >>= next) After := by
  intro before holds
  obtain ⟨value, middle, ran, holds⟩ := first before holds
  obtain ⟨result, after, ranRest, holds⟩ := rest value middle holds
  exact ⟨result, after, returns_bind.mpr ⟨value, middle, ran, ranRest⟩, holds⟩

theorem lift_bind (found : outcome = .ok value) (rest : Yields Before (next value) After) :
    Yields Before (liftM outcome >>= next) After := by
  intro before holds
  obtain ⟨result, after, ran, holds⟩ := rest before holds
  exact ⟨result, after, returns_lift_bind.mpr ⟨value, found, ran⟩, holds⟩

theorem get_lift_bind {outcome : σ → Except Fault α}
    (found : ∀ state, Before state → ∃ value, outcome state = .ok value)
    (rest : ∀ value, Yields Before (next value) After) :
    Yields Before (get >>= fun state => liftM (outcome state) >>= next) After := by
  intro before holds
  obtain ⟨value, isFound⟩ := found before holds
  obtain ⟨result, after, ran, holds⟩ := rest value before holds
  exact ⟨result, after, returns_get_bind.mpr (returns_lift_bind.mpr ⟨value, isFound, ran⟩), holds⟩

/-- Work on every item of a list, where the states are of a kind that the items so far decide. -/
theorem forM {Along : List α → σ → Prop} {items : List α}
    {work : α → ExceptT Fault (StateM σ) PUnit}
    (each : ∀ done item rest, items = done ++ item :: rest →
      Yields (Along done) (work item) fun _ => Along (done ++ [item])) :
    Yields (Along []) (items.forM work) fun _ => Along items := by
  suffices ∀ rest done, items = done ++ rest → Yields (Along done) (rest.forM work) fun _ =>
    Along items from this items [] rfl
  intro rest
  induction rest with
  | nil =>
    intro done whole
    rw [whole, List.append_nil]
    exact .pure fun _ => id
  | cons item rest ih =>
    intro done whole
    exact .bind (each done item rest whole) fun _ => ih (done ++ [item]) (by simp [whole])

end Yields

theorem Completes.forM {Invariant : σ → Prop} {items : List α}
    {work : α → ExceptT Fault (StateM σ) PUnit}
    (each : ∀ item ∈ items, Completes Invariant (work item)) :
    Completes Invariant (items.forM work) :=
  @Yields.forM σ α (fun _ => Invariant) items work fun _ item _ whole => each item (by simp [whole])

/-! ## Work that stops -/

def Fails (work : ExceptT Fault (StateM σ) α) (before : σ) (fault : Fault) : Prop :=
  (work.run.run before : Except Fault α × σ).1 = .error fault

theorem fails_bind :
    Fails (work >>= next) before fault ↔
      Fails work before fault ∨
        ∃ value middle, Returns work before value middle ∧ Fails (next value) middle fault := by
  unfold Fails Returns
  rw [run_bind]
  cases (work.run.run before : Except Fault α × σ) with
  | mk outcome middle => cases outcome <;> simp

end Steps

/-! ## What work maintains -/

/-- Whenever the work returns, what held of the state before holds after it. -/
def Maintains (Invariant : σ → Prop) (work : ExceptT Fault (StateM σ) α) : Prop :=
  ∀ ⦃before value after⦄, Invariant before → Returns work before value after → Invariant after

namespace Maintains

variable {Invariant : σ → Prop}

theorem pure (value : α) : Maintains Invariant (Pure.pure value) := by
  intro before result after holds ran
  obtain ⟨-, rfl⟩ := returns_pure.mp ran
  exact holds

theorem lift (outcome : Except Fault α) : Maintains Invariant (liftM outcome) := by
  intro before result after holds ran
  obtain ⟨-, rfl⟩ := returns_lift.mp ran
  exact holds

theorem get : Maintains Invariant (get : ExceptT Fault (StateM σ) σ) := by
  intro before result after holds ran
  obtain ⟨-, rfl⟩ := returns_get.mp ran
  exact holds

theorem bind {work : ExceptT Fault (StateM σ) α} {next : α → ExceptT Fault (StateM σ) β}
    (first : Maintains Invariant work) (second : ∀ value, Maintains Invariant (next value)) :
    Maintains Invariant (work >>= next) := by
  intro before result after holds ran
  obtain ⟨value, middle, ranFirst, ranNext⟩ := returns_bind.mp ran
  exact second value (first holds ranFirst) ranNext

theorem forM {items : List α} {work : α → ExceptT Fault (StateM σ) PUnit}
    (each : ∀ item ∈ items, Maintains Invariant (work item)) :
    Maintains Invariant (items.forM work) :=
  fun _ _ _ holds ran => ran.forM holds fun item member _ _ held ranItem =>
    each item member held ranItem

end Maintains

/-! ## Steps of a client under construction -/

/-- The name of the class for a text before it is checked against others. -/
def classStem (name : String) : String :=
  NameStyle.type.ofCleaned (String.ofList (name.toList.filter isNameChar))

/-- The state once a class name was given to a type name. -/
def State.withClassName (state : State) (key name : String) : State :=
  { state with
    classNames := state.classNames ++ [name]
    classOf := State.putClass key name state.classOf }

section Building

variable {before after : State}

variable {type : Doc} {name : String}

theorem returns_className :
    Returns (Build.className type) before name after ↔
      ∃ key, type = .text key ∧ name = firstFree before.classNames (classStem key) ∧
        after = before.withClassName key name := by
  unfold Build.className
  rw [returns_lift_bind]
  cases type with
  | text key =>
    simp only [NameStyle.stem, cleaned, Outcome.ok_bind, Outcome.pure_eq_ok, Except.ok.injEq,
      exists_eq_left', returns_get_bind, returns_bind_unit, returns_modify, returns_pure,
      Doc.text.injEq]
    constructor
    · rintro ⟨rfl, rfl⟩
      exact ⟨rfl, rfl⟩
    · rintro ⟨rfl, rfl⟩
      exact ⟨rfl, rfl⟩
  | null | bool | int | float | list | object =>
    simp [returns_get_bind, returns_bind_unit]

theorem returns_addClass {type : ClassDef} :
    Returns (Build.addClass type) before ⟨⟩ after ↔
      after = { before with classes := before.classes ++ [type] } := by
  rw [Build.addClass, returns_modify]
  exact eq_comm

/-- A name is free for a function unless another function goes by it. -/
theorem returns_functionName {stem : String} {name : Option String}
    (isStem : NameStyle.method.stem type = .ok stem) :
    Returns (Build.functionName type) before name after ↔
      name = (if stem ∈ before.functions.map (·.name) then none else some stem) ∧
      before = after := by
  have taken : (before.functions.any fun function => function.name == stem) = true ↔
      stem ∈ before.functions.map (·.name) := by
    simp
  unfold Build.functionName
  simp only [isStem, returns_lift_bind, Except.ok.injEq, exists_eq_left', returns_get_bind,
    returns_pure, taken]
  rw [eq_comm]

/-- The functions of a client with one more, unless its name is taken. -/
theorem returns_addFunction {function : Method}
    (stem : NameStyle.method.stem (.text function.name) = .ok name) :
    Returns (Build.addFunction function) before ⟨⟩ after ↔
      after = if name ∈ before.functions.map (·.name) then before
        else { before with functions := before.functions ++ [function] } := by
  unfold Build.addFunction
  simp only [returns_bind, returns_functionName stem, and_assoc, exists_and_left, exists_eq_left,
    exists_eq_left']
  by_cases taken : name ∈ before.functions.map (·.name)
  · simp only [if_pos taken, Option.isSome_none, Bool.false_eq_true, if_false, returns_pure,
      true_and]
    exact eq_comm
  · simp only [if_neg taken, Option.isSome_some, if_true, returns_modify]
    exact eq_comm

end Building

/-! ## Names of the service in a method -/

theorem same_text_of_ne {left right : String} (different : left ≠ right) :
    (Doc.text left).same (.text right) = false := by
  rw [Bool.eq_false_iff, ne_eq, Doc.same_text_right]
  simpa using different

/-- The value that a list of mappings gives to a text. -/
def mapped (mappings : List (Doc × String)) (key : String) : Option String :=
  (mappings.find? fun entry => entry.1.same (.text key)).map Prod.snd

theorem mapped_putMapping (key other value : String) (mappings : List (Doc × String)) :
    mapped (Method.putMapping (.text key) value mappings) other =
      if other = key then some value else mapped mappings other := by
  induction mappings with
  | nil =>
    by_cases same : other = key
    · simp [Method.putMapping, mapped, same]
    · simp [Method.putMapping, mapped, same, same_text_of_ne (Ne.symm same)]
  | cons entry rest ih =>
    obtain ⟨name, old⟩ := entry
    unfold mapped at ih ⊢
    rw [Method.putMapping]
    by_cases isKey : name.same (.text key) = true
    · cases (Doc.same_text_right _ _).mp isKey
      by_cases same : other = key
      · simp [same]
      · simp [same, same_text_of_ne (Ne.symm same)]
    · rw [if_neg isKey]
      by_cases isOther : name.same (.text other) = true
      · have same : other ≠ key := by
          rintro rfl
          exact isKey isOther
        simp [isOther, same]
      · simp only [List.find?_cons, isOther]
        exact ih

theorem mapping_text (method : Method) (key : String) :
    method.mapping (.text key) =
      match mapped method.mappings key with
      | some argument => .ok argument
      | none => .error (.missingKey key) := by
  unfold Method.mapping mapped
  simp only [Method.isKey, if_true]
  cases method.mappings.find? fun entry => entry.1.same (.text key) with
  | none => rfl
  | some entry => rfl

/-! ## Steps of a method under construction -/

section Drafting

variable {before after : Draft}

theorem returns_build {work : Build α} {value : α} :
    Returns (Drafting.build work) before value after ↔
      ∃ client, Returns work before.client value client ∧ after = { before with client } := by
  have run : @Eq (Except Fault α × Draft) ((Drafting.build work).run.run before)
      ((work.run.run before.client : Except Fault α × State).map id
        ({ before with client := · })) := rfl
  unfold Returns
  rw [run]
  cases (work.run.run before.client : Except Fault α × State) with
  | mk outcome client => simp [and_assoc, eq_comm]

@[simp] theorem returns_change {step : Method → Method} :
    Returns (Drafting.change step) before ⟨⟩ after ↔
      after = { before with method := step before.method } := by
  rw [Drafting.change, returns_modify]
  exact eq_comm

@[simp] theorem returns_write {statement : Statement} :
    Returns (Drafting.write statement) before ⟨⟩ after ↔
      after = { before with method := before.method.addLines statement.lines } :=
  returns_change

@[simp] theorem returns_mapping {key : Doc} {argument : String} :
    Returns (Drafting.mapping key) before argument after ↔
      before.method.mapping key = .ok argument ∧ before = after := by
  rw [Drafting.mapping, returns_get_bind, returns_lift]

theorem run_newMethod (work : Drafting Unit) (before : State) :
    @Eq (Except Fault Method × State) (work.newMethod.run.run before)
      (match (work.run.run { client := before, method := Method.empty .bound "" } : Except Fault
        Unit × Draft) with
        | (outcome, draft) => (outcome.map fun _ => draft.method, draft.client)) := by
  have finish : ∀ run : Except Fault Unit × Draft, @Eq (Except Fault Method × State)
        ((do set run.2.client; liftM run.1; return run.2.method : Build Method).run.run before)
        (run.1.map fun _ => run.2.method, run.2.client) := by
    rintro ⟨outcome, draft⟩
    cases outcome <;> rfl
  exact finish _

theorem returns_newMethod {work : Drafting Unit} {before after : State} {method : Method} :
    Returns work.newMethod before method after ↔
      Returns work { client := before, method := Method.empty .bound "" } ()
        { client := after, method } := by
  unfold Returns
  rw [run_newMethod]
  cases (work.run.run { client := before, method := Method.empty .bound "" } : Except Fault Unit ×
    Draft) with
  | mk outcome draft =>
    obtain ⟨client, method⟩ := draft
    cases outcome <;> simp [Except.map, and_comm]

end Drafting

end ApiDescription.Client
