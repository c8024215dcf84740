import ApiDescription.Proofs.Legible
import ApiDescription.Proofs.Phrasing
import Mathlib.Logic.Relation

/-!
# Occurrences of constraints

A type leads to the types of its fields, to the data type that it names, to the type of its items.
The constraints of all records that are reached this way occur at the places where these records are
reached, and the same constraint may occur at many places.

`Api.Lists` lists the occurrences below a type in the order of the declarations, without a bound on
the number of steps.  Where no type leads back to itself every chain of steps is shorter than the
reach of the description, so the list exists.
-/

namespace ApiDescription

open List TypeRef Api
open Relation (ReflTransGen TransGen)

section

variable {field : Field} {fields : List Field} {schema start : Schema} {api : Api} {bound : Nat}
  {occurrences : List Occurrence} {occurrence : Occurrence}

def Schema.record? : Schema → Option TypeDef
  | .reference _ => none
  | .anonymous definition => some definition
  | .named type => some type.definition

/-- One step from a type to a type that it is made of or that it names. -/
inductive Api.Leads (api : Api) : Schema → Schema → Prop where
  | field {schema : Schema} {definition : TypeDef} {field : Field}
      (isRecord : schema.record? = some definition) (declared : field ∈ definition.fields) :
      Leads api schema field.type.schema
  | name {name : Doc} {type : NamedTypeDef} (found : api.dataType? name = some type) :
      Leads api (.reference (.custom name)) (.named type)
  | item {kind : Container} {item : TypeRef} :
      Leads api (.reference (.container kind item)) (.reference item)

abbrev Api.Reaches (api : Api) : Schema → Schema → Prop :=
  Relation.ReflTransGen api.Leads

/-- No type that is reached leads back to itself. -/
def Api.Acyclic (api : Api) (start : Schema) : Prop :=
  ∀ schema, api.Reaches start schema → ¬ Relation.TransGen api.Leads schema schema

/-- A constraint at the place where the steps lead. -/
structure Occurrence where
  steps : List Step
  constraint : Condition
  deriving DecidableEq

/-- The same constraint seen from one step before. -/
def Occurrence.after (step : Step) (occurrence : Occurrence) : Occurrence :=
  { occurrence with steps := step :: occurrence.steps }

/-- A constraint occurs below a type. -/
inductive Api.Occurs (api : Api) : Schema → Occurrence → Prop where
  | own {schema : Schema} {definition : TypeDef} {constraint : Condition}
      (isRecord : schema.record? = some definition)
      (declared : constraint ∈ definition.constraints) :
      Occurs api schema ⟨[], constraint⟩
  | field {schema : Schema} {definition : TypeDef} {field : Field} {label : String}
      {occurrence : Occurrence} (isRecord : schema.record? = some definition)
      (declared : field ∈ definition.fields) (name : field.name = .text label)
      (below : Occurs api field.type.schema occurrence) :
      Occurs api schema (occurrence.after (.field label))
  | name {name : Doc} {type : NamedTypeDef} {occurrence : Occurrence}
      (found : api.dataType? name = some type) (below : Occurs api (.named type) occurrence) :
      Occurs api (.reference (.custom name)) occurrence
  | item {kind : Container} {item : TypeRef} {occurrence : Occurrence}
      (below : Occurs api (.reference item) occurrence) :
      Occurs api (.reference (.container kind item)) (occurrence.after .item)

mutual

/-- The occurrences of constraints below a type in the order of the declarations: those of a record
come before those of its fields. -/
inductive Api.Lists (api : Api) : Schema → List Occurrence → Prop where
  | record {schema : Schema} {definition : TypeDef} {below : List Occurrence}
      (isRecord : schema.record? = some definition)
      (fields : ListsFields api definition.fields below) :
      Lists api schema (definition.constraints.map (Occurrence.mk []) ++ below)
  | name {name : Doc} {type : NamedTypeDef} {occurrences : List Occurrence}
      (found : api.dataType? name = some type) (below : Lists api (.named type) occurrences) :
      Lists api (.reference (.custom name)) occurrences
  | unknown {name : Doc} (absent : api.dataType? name = none) :
      Lists api (.reference (.custom name)) []
  | container {kind : Container} {item : TypeRef} {occurrences : List Occurrence}
      (items : Lists api (.reference item) occurrences) :
      Lists api (.reference (.container kind item)) (occurrences.map (.after .item))
  | primitive {kind : Primitive} : Lists api (.reference (.primitive kind)) []

/-- The occurrences of constraints below fields. -/
inductive Api.ListsFields (api : Api) : List Field → List Occurrence → Prop where
  | nil : ListsFields api [] []
  | cons {field : Field} {label : String} {rest : List Field} {occurrences others : List Occurrence}
      (name : field.name = .text label) (first : Lists api field.type.schema occurrences)
      (fields : ListsFields api rest others) :
      ListsFields api (field :: rest) (occurrences.map (.after (.field label)) ++ others)

end

/-! ## The reach of a description -/

/-- Every chain of steps from a type ends within a number of types. -/
def EndsWithin (step : Schema → Schema → Prop) : Nat → Schema → Prop
  | 0, _ => False
  | bound + 1, schema => ∀ next, step schema next → EndsWithin step bound next

abbrev Api.Within (api : Api) : Nat → Schema → Prop :=
  EndsWithin api.Leads

theorem TypeRef.weight_pos (target : TypeRef) : 0 < target.weight := by
  cases target <;> simp [weight]

theorem Schema.weight_pos (schema : Schema) : 0 < schema.weight := by
  cases schema with
  | reference target => exact target.weight_pos
  | anonymous definition =>
    obtain ⟨fields, constraints, description⟩ := definition
    exact Nat.succ_pos (Field.weightAll fields)
  | named type =>
    obtain ⟨name, fields, constraints, description⟩ := type
    exact Nat.succ_pos (Field.weightAll fields)

theorem DataType.weight_schema (type : DataType) : type.schema.weight = type.weight := by
  cases type with
  | reference target link => simp [DataType.schema, Schema.weight, DataType.weight]
  | inline definition => simp [DataType.schema, Schema.weight, DataType.weight]

theorem Field.weight_le_weightAll (declared : field ∈ fields) :
    field.type.weight ≤ Field.weightAll fields := by
  induction fields with
  | nil => cases declared
  | cons first rest ih =>
    rw [Field.weightAll]
    cases declared with
    | head =>
      obtain ⟨name, description, optional, type⟩ := field
      rw [Field.weight]
      exact Nat.le_add_right type.weight _
    | tail _ later => exact Nat.le_add_left_of_le (ih later)

theorem Schema.weight_field {definition : TypeDef} (isRecord : schema.record? = some definition)
    (declared : field ∈ definition.fields) :
    field.type.schema.weight < schema.weight := by
  have weighs : schema.weight = definition.weight := by
    cases schema with
    | reference target => cases isRecord
    | anonymous => cases isRecord; rfl
    | named => cases isRecord; rfl
  obtain ⟨fields, constraints, description⟩ := definition
  rw [weighs, DataType.weight_schema, TypeDef.weight]
  exact Nat.lt_succ_of_le (Field.weight_le_weightAll declared)

/-- The weight of data types that may still be entered. -/
def Api.weightOf (types : List NamedTypeDef) : Nat :=
  (types.map fun type => type.definition.weight + 1).sum

variable {step : Schema → Schema → Prop}

/-- Chains end within the weight of the types that they can enter.  Entering a data type uses it up:
it cannot be entered again without a cycle. -/
theorem Api.within_of_acyclic {types : List NamedTypeDef}
    (leads : ∀ {schema next}, step schema next → api.Leads schema next)
    (acyclic : ∀ later, ReflTransGen step schema later → ¬ TransGen step later later)
    (covers : ∀ type, TransGen step schema (.named type) → type ∈ types)
    (enough : schema.weight + weightOf types ≤ bound) : EndsWithin step bound schema := by
  induction bound generalizing schema types with
  | zero =>
    have positive := schema.weight_pos
    omega
  | succ bound ih =>
    intro next taken
    have acyclicNext := fun later reached => acyclic later (.head taken reached)
    have coversNext : ∀ type, TransGen step next (.named type) → type ∈ types :=
      fun type reached => covers type (.head taken reached)
    cases leads taken with
    | field isRecord declared =>
      apply ih acyclicNext coversNext
      have lighter := Schema.weight_field isRecord declared
      omega
    | item =>
      apply ih acyclicNext coversNext
      simp only [Schema.weight, weight] at enough ⊢
      omega
    | @name name type found =>
      obtain ⟨before, after, rfl⟩ := append_of_mem (covers type (.single taken))
      have remaining : ∀ other, TransGen step (.named type) (.named other) →
          other ∈ before ++ after := by
        intro other reached
        have different : other ≠ type := by
          rintro rfl
          exact acyclicNext _ .refl reached
        have member := coversNext other reached
        simp only [mem_append, mem_cons, different, false_or] at member
        exact mem_append.mpr member
      apply ih acyclicNext remaining
      simp only [weightOf, Schema.weight, map_append, map_cons, sum_append,
        sum_cons] at enough ⊢
      omega

theorem Api.mem_of_leads_named {type : NamedTypeDef} (step : api.Leads schema (.named type)) :
    type ∈ api.dataTypes := by
  generalize equal : Schema.named type = next at step
  cases step with
  | field isRecord declared =>
    rename_i field
    obtain ⟨name, description, optional, used⟩ := field
    cases used <;> cases equal
  | name found =>
    cases equal
    exact mem_of_find?_eq_some found
  | item => cases equal

/-- No chain without cycles is longer than the reach. -/
theorem Api.endsWithin_reach (leads : ∀ {schema next}, step schema next → api.Leads schema next)
    (acyclic : ∀ later, ReflTransGen step start later → ¬ TransGen step later later) :
    ∃ bound, api.reach start = bound + 1 ∧ EndsWithin step bound start := by
  refine ⟨start.weight + weightOf api.dataTypes, rfl, ?_⟩
  apply within_of_acyclic leads acyclic ?_ (Nat.le_refl _)
  intro type reached
  cases reached with
  | single last => exact mem_of_leads_named (leads last)
  | tail _ last => exact mem_of_leads_named (leads last)

theorem Api.within_reach (acyclic : api.Acyclic start) :
    ∃ bound, api.reach start = bound + 1 ∧ api.Within bound start :=
  endsWithin_reach id acyclic

/-- A chain of types gets lighter until it comes to a data type. -/
theorem Api.lighter_or_dataType (leads : ∀ {schema next}, step schema next → api.Leads schema next)
    {first last : Schema} (chain : TransGen step first last) :
    last.weight < first.weight ∨ ∃ type ∈ api.dataTypes,
      TransGen step first (.named type) ∧ ReflTransGen step (.named type) last := by
  have next : ∀ {first last : Schema}, step first last →
      last.weight < first.weight ∨ ∃ type ∈ api.dataTypes, last = .named type := by
    intro first last taken
    cases leads taken with
    | field isRecord declared => exact .inl (Schema.weight_field isRecord declared)
    | item => exact .inl (by simp [Schema.weight, weight])
    | name found => exact .inr ⟨_, mem_of_find?_eq_some found, rfl⟩
  induction chain with
  | single taken =>
    rcases next taken with lighter | ⟨type, member, rfl⟩
    · exact .inl lighter
    · exact .inr ⟨type, member, .single taken, .refl⟩
  | tail before taken ih =>
    rcases next taken with lighter | ⟨type, member, rfl⟩
    · rcases ih with alreadyLighter | ⟨type, member, reached, rest⟩
      · exact .inl (lighter.trans alreadyLighter)
      · exact .inr ⟨type, member, reached, rest.tail taken⟩
    · exact .inr ⟨type, member, before.tail taken, .refl⟩

/-- Every cycle goes through a data type. -/
theorem Api.irreflexive_of_dataTypes
    (leads : ∀ {schema next}, step schema next → api.Leads schema next)
    (acyclic : ∀ type ∈ api.dataTypes, ¬ TransGen step (.named type) (.named type))
    (schema : Schema) :
    ¬ TransGen step schema schema := by
  intro cycle
  rcases lighter_or_dataType leads cycle with lighter | ⟨type, member, reached, rest⟩
  · exact Nat.lt_irrefl _ lighter
  · exact acyclic type member (TransGen.trans_right rest reached)

theorem Api.acyclic_of_dataTypes (acyclic : ∀ type ∈ api.dataTypes, api.Acyclic (.named type))
    (start : Schema) : api.Acyclic start :=
  fun schema _ => irreflexive_of_dataTypes id (fun type member => acyclic type member _ .refl)
    schema

/-! ## What is listed -/

/-- The names of the fields that are reached are ASCII names that are not reserved. -/
def Api.Labelled (api : Api) (start : Schema) : Prop :=
  ∀ schema definition, api.Reaches start schema → schema.record? = some definition →
    ∀ field ∈ definition.fields, ∃ label, field.name = .text label ∧ Lexicon.ascii.label label

theorem Api.Labelled.next {next : Schema} (labelled : api.Labelled start)
    (step : api.Leads start next) :
    api.Labelled next :=
  fun schema definition reached => labelled schema definition (.head step reached)

theorem Api.exists_listsFields (each : ∀ field ∈ fields, (∃ label, field.name = .text label) ∧
      ∃ occurrences, api.Lists field.type.schema occurrences) :
    ∃ occurrences, api.ListsFields fields occurrences := by
  induction fields with
  | nil => exact ⟨[], .nil⟩
  | cons field rest ih =>
    obtain ⟨⟨label, name⟩, occurrences, first⟩ := each field mem_cons_self
    obtain ⟨others, later⟩ := ih fun field declared => each field (mem_cons_of_mem _ declared)
    exact ⟨_, .cons name first later⟩

theorem Api.exists_lists (within : api.Within bound schema) (labelled : api.Labelled schema) :
    ∃ occurrences, api.Lists schema occurrences := by
  induction bound generalizing schema with
  | zero => exact within.elim
  | succ bound ih =>
    have below : ∀ next, api.Leads schema next → ∃ occurrences, api.Lists next occurrences :=
      fun next step => ih (within next step) (labelled.next step)
    have ofRecord : ∀ definition, schema.record? = some definition →
        ∃ occurrences, api.Lists schema occurrences := by
      intro definition isRecord
      have each : ∀ field ∈ definition.fields, (∃ label, field.name = .text label) ∧
          ∃ occurrences, api.Lists field.type.schema occurrences := by
        intro field declared
        obtain ⟨label, name, _⟩ := labelled schema definition .refl isRecord field declared
        exact ⟨⟨label, name⟩, below _ (.field isRecord declared)⟩
      obtain ⟨occurrences, fields⟩ := exists_listsFields each
      exact ⟨_, .record isRecord fields⟩
    cases schema with
    | anonymous definition => exact ofRecord definition rfl
    | named type => exact ofRecord type.definition rfl
    | reference target =>
      cases target with
      | primitive kind => exact ⟨[], .primitive⟩
      | container kind item =>
        obtain ⟨occurrences, items⟩ := below _ .item
        exact ⟨_, .container items⟩
      | custom name =>
        cases found : api.dataType? name with
        | none => exact ⟨[], .unknown found⟩
        | some type =>
          obtain ⟨occurrences, listed⟩ := below _ (.name found)
          exact ⟨occurrences, .name found listed⟩

mutual

theorem Api.Lists.occurs {schema : Schema} {occurrences : List Occurrence} :
    api.Lists schema occurrences → ∀ occurrence ∈ occurrences, api.Occurs schema occurrence
  | .record isRecord fields => by
    intro occurrence member
    rcases mem_append.mp member with own | below
    · obtain ⟨constraint, declared, rfl⟩ := mem_map.mp own
      exact .own isRecord declared
    · obtain ⟨field, declared, label, inner, name, occurs, rfl⟩ := fields.occurs occurrence below
      exact .field isRecord declared name occurs
  | .name found below => by
    intro occurrence member
    exact .name found (below.occurs occurrence member)
  | .unknown _ => by
    intro occurrence member
    cases member
  | .container items => by
    intro occurrence member
    obtain ⟨inner, inItems, rfl⟩ := mem_map.mp member
    exact .item (items.occurs inner inItems)
  | .primitive => by
    intro occurrence member
    cases member

theorem Api.ListsFields.occurs {fields : List Field} {occurrences : List Occurrence} :
    api.ListsFields fields occurrences → ∀ occurrence ∈ occurrences, ∃ field ∈ fields,
      ∃ label inner, field.name = .text label ∧ api.Occurs field.type.schema inner ∧
        occurrence = inner.after (.field label)
  | .nil => by
    intro occurrence member
    cases member
  | .cons name first others => by
    intro occurrence member
    rcases mem_append.mp member with here | later
    · obtain ⟨inner, inFirst, rfl⟩ := mem_map.mp here
      exact ⟨_, mem_cons_self, _, inner, name, first.occurs inner inFirst, rfl⟩
    · obtain ⟨field, declared, found⟩ := others.occurs occurrence later
      exact ⟨field, mem_cons_of_mem _ declared, found⟩

end

theorem Api.ListsFields.mem {below : List Occurrence} {label : String}
    (listed : api.ListsFields fields below) (declared : field ∈ fields)
    (name : field.name = .text label)
    (each : ∀ occurrences, api.Lists field.type.schema occurrences → occurrence ∈ occurrences) :
    occurrence.after (.field label) ∈ below := by
  induction fields generalizing below with
  | nil => cases declared
  | cons first rest ih =>
    cases listed with
    | @cons _ given _ occurrences others sameName here later =>
      cases declared with
      | head =>
        rw [name] at sameName
        cases sameName
        exact mem_append_left _ (mem_map_of_mem (each occurrences here))
      | tail _ inRest => exact mem_append_right _ (ih later inRest)

theorem Api.Occurs.mem (occurs : api.Occurs schema occurrence)
    (listed : api.Lists schema occurrences) :
    occurrence ∈ occurrences := by
  induction occurs generalizing occurrences with
  | own isRecord declared =>
    cases listed with
    | record alsoRecord fields =>
      rw [isRecord] at alsoRecord
      cases alsoRecord
      exact mem_append_left _ (mem_map_of_mem declared)
    | name | unknown | container | primitive => cases isRecord
  | field isRecord declared name below ih =>
    cases listed with
    | record alsoRecord fields =>
      rw [isRecord] at alsoRecord
      cases alsoRecord
      exact mem_append_right _ (fields.mem declared name fun _ => ih)
    | name | unknown | container | primitive => cases isRecord
  | name found below ih =>
    cases listed with
    | record isRecord => cases isRecord
    | name alsoFound listed =>
      rw [found] at alsoFound
      cases alsoFound
      exact ih listed
    | unknown absent => rw [found] at absent; cases absent
  | item below ih =>
    cases listed with
    | record isRecord => cases isRecord
    | container items => exact mem_map_of_mem (ih items)

theorem Api.Occurs.legal (occurs : api.Occurs schema occurrence) (labelled : api.Labelled schema) :
    Step.Legal occurrence.steps := by
  induction occurs with
  | own isRecord declared =>
    intro label member
    cases member
  | @field schema definition field label inner isRecord declared name below ih =>
    obtain ⟨given, same, isLabel⟩ := labelled schema definition .refl isRecord field declared
    rw [name] at same
    cases same
    intro other member
    cases member with
    | head => exact isLabel
    | tail _ later => exact ih (labelled.next (.field isRecord declared)) other later
  | name found below ih => exact ih (labelled.next (.name found))
  | item below ih =>
    intro other member
    cases member with
    | tail _ later => exact ih (labelled.next .item) other later

/-! ## Computing the list -/

/-- The occurrences below a field, if its name is legal; `list?` gives those below its type. -/
def Api.listField? (list? : Schema → Option (List Occurrence)) (field : Field) :
    Option (List Occurrence) :=
  match field.name with
  | .text label =>
    if Lexicon.ascii.label label then
      (list? field.type.schema).map (·.map (.after (.field label)))
    else none
  | .texts _ => none

/-- The occurrences of constraints below a type, if fields have legal names and the fuel is enough
for every chain of steps. -/
def Api.list? (api : Api) : Nat → Schema → Option (List Occurrence)
  | 0, _ => none
  | fuel + 1, schema =>
    match schema with
    | .anonymous definition | .named ⟨_, definition⟩ =>
      (definition.fields.mapM (listField? (list? api fuel))).map fun below =>
        definition.constraints.map (Occurrence.mk []) ++ below.flatten
    | .reference (.custom name) =>
      match api.dataType? name with
      | some type => list? api fuel (.named type)
      | none => some []
    | .reference (.container _ item) =>
      (list? api fuel (.reference item)).map (·.map (.after .item))
    | .reference (.primitive _) => some []

/-- Chains end, names are legal, and there is a list. -/
structure Api.Listed (api : Api) (bound : Nat) (schema : Schema) (occurrences : List Occurrence) :
    Prop where
  within : api.Within bound schema
  labelled : api.Labelled schema
  lists : api.Lists schema occurrences

theorem Api.Listed.of_next
    (own : ∀ definition, start.record? = some definition → ∀ field ∈ definition.fields,
      ∃ label, field.name = .text label ∧ Lexicon.ascii.label label)
    (next : ∀ next, api.Leads start next → ∃ below, api.Listed bound next below)
    (lists : api.Lists start occurrences) : api.Listed (bound + 1) start occurrences where
  within other step := by
    obtain ⟨_, listed⟩ := next other step
    exact listed.within
  labelled schema definition reached := by
    rcases reached.cases_head with rfl | ⟨first, step, later⟩
    · exact own definition
    · obtain ⟨_, listed⟩ := next first step
      exact listed.labelled schema definition later
  lists := lists

theorem Api.listsFields_of_mapM {list? : Schema → Option (List Occurrence)}
    (sound : ∀ schema occurrences, list? schema = some occurrences →
      api.Listed bound schema occurrences) {below : List (List Occurrence)}
    (computed : fields.mapM (listField? list?) = some below) :
    api.ListsFields fields below.flatten ∧ ∀ field ∈ fields,
      (∃ label, field.name = .text label ∧ Lexicon.ascii.label label) ∧
        ∃ occurrences, api.Listed bound field.type.schema occurrences := by
  induction fields generalizing below with
  | nil =>
    cases computed
    exact ⟨.nil, by simp⟩
  | cons field rest ih =>
    rw [mapM_cons, Option.bind_eq_bind, Option.bind_eq_some_iff] at computed
    obtain ⟨first, computedFirst, computed⟩ := computed
    obtain ⟨others, computedRest, same⟩ := Option.bind_eq_some_iff.mp computed
    cases same
    unfold listField? at computedFirst
    split at computedFirst
    · next label name =>
      obtain ⟨isLabel, computedFirst⟩ := Option.ite_none_right_eq_some.mp computedFirst
      obtain ⟨occurrences, listed, rfl⟩ := Option.map_eq_some_iff.mp computedFirst
      have here := sound _ _ listed
      obtain ⟨later, each⟩ := ih computedRest
      refine ⟨.cons name here.lists later, ?_⟩
      intro other declared
      cases declared with
      | head => exact ⟨⟨label, name, isLabel⟩, occurrences, here⟩
      | tail _ inRest => exact each other inRest
    · cases computedFirst

theorem Api.listed_of_list? (computed : api.list? bound schema = some occurrences) :
    api.Listed bound schema occurrences := by
  induction bound generalizing schema occurrences with
  | zero => cases computed
  | succ bound ih =>
    have ofRecord : ∀ definition below, schema.record? = some definition →
        definition.fields.mapM (listField? (api.list? bound)) = some below →
        api.Listed (bound + 1) schema
          (definition.constraints.map (Occurrence.mk []) ++ below.flatten) := by
      intro definition below isRecord computedFields
      obtain ⟨fields, each⟩ := listsFields_of_mapM (fun _ _ => ih) computedFields
      apply Api.Listed.of_next
      · intro other alsoRecord field declared
        rw [isRecord] at alsoRecord
        cases alsoRecord
        exact (each field declared).1
      · intro next step
        cases step with
        | field alsoRecord declared =>
          rw [isRecord] at alsoRecord
          cases alsoRecord
          exact (each _ declared).2
        | name | item => cases isRecord
      · exact .record isRecord fields
    cases schema with
    | anonymous definition =>
      obtain ⟨below, computedFields, rfl⟩ := Option.map_eq_some_iff.mp computed
      exact ofRecord definition below rfl computedFields
    | named type =>
      obtain ⟨below, computedFields, rfl⟩ := Option.map_eq_some_iff.mp computed
      exact ofRecord type.definition below rfl computedFields
    | reference target =>
      have noRecord : ∀ definition, (Schema.reference target).record? = some definition →
        ∀ field ∈ definition.fields,
            ∃ label, field.name = .text label ∧ Lexicon.ascii.label label := by
        intro definition isRecord
        cases isRecord
      cases target with
      | primitive kind =>
        cases computed
        apply Api.Listed.of_next noRecord
        · intro next step
          cases step with
          | field isRecord => cases isRecord
        · exact .primitive
      | container kind item =>
        obtain ⟨inner, computedItems, rfl⟩ := Option.map_eq_some_iff.mp computed
        have items := ih computedItems
        apply Api.Listed.of_next noRecord
        · intro next step
          cases step with
          | field isRecord => cases isRecord
          | item => exact ⟨inner, items⟩
        · exact .container items.lists
      | custom name =>
        unfold list? at computed
        cases found : api.dataType? name with
        | none =>
          simp only [found, Option.some.injEq] at computed
          subst computed
          apply Api.Listed.of_next noRecord
          · intro next step
            cases step with
            | field isRecord => cases isRecord
            | name alsoFound => rw [found] at alsoFound; cases alsoFound
          · exact .unknown found
        | some type =>
          simp only [found] at computed
          have below := ih computed
          apply Api.Listed.of_next noRecord
          · intro next step
            cases step with
            | field isRecord => cases isRecord
            | name alsoFound =>
              rw [found] at alsoFound
              cases alsoFound
              exact ⟨occurrences, below⟩
          · exact .name found below.lists

/-- A type on a cycle leads to a type on it. -/
theorem acyclic_of_next (each : ∀ next, step start next →
      ∀ later, ReflTransGen step next later → ¬ TransGen step later later) :
    ∀ later, ReflTransGen step start later → ¬ TransGen step later later := by
  intro later reached cycle
  rcases reached.cases_head with rfl | ⟨next, taken, rest⟩
  · obtain ⟨next, taken, back⟩ := TransGen.head'_iff.mp cycle
    exact each next taken _ back cycle
  · exact each next taken later rest cycle

/-- Where chains end no type leads back to itself. -/
theorem Api.acyclic_of_within (within : api.Within bound start) : api.Acyclic start := by
  induction bound generalizing start with
  | zero => exact within.elim
  | succ bound ih => exact acyclic_of_next fun next taken => ih (within next taken)

end

/-! ## Legible schemas -/

variable {field : Field} {fields : List Field} {api : Api}

def Schema.Legible : Schema → Prop
  | .reference target => target.Canonical
  | .anonymous definition => definition.Legible
  | .named type => type.definition.Legible

theorem DataType.Legible.schema {type : DataType} (legible : type.Legible) :
    type.schema.Legible := by
  cases type with
  | reference target link =>
    rw [DataType.Legible] at legible
    exact legible
  | inline definition =>
    rw [DataType.Legible] at legible
    exact legible

theorem Field.legible_of_mem (legible : Field.AllLegible fields) (declared : field ∈ fields) :
    field.type.Legible := by
  induction fields with
  | nil => cases declared
  | cons first rest ih =>
    rw [Field.AllLegible] at legible
    cases declared with
    | head =>
      obtain ⟨name, description, optional, type⟩ := field
      simpa only [Field.Legible] using legible.1
    | tail _ later => exact ih legible.2 later

theorem TypeRef.Canonical.item {kind : Container} {item : TypeRef}
    (canonical : (container kind item).Canonical) : item.Canonical := by
  have spells := spells_ofText (container kind item).spelling
  have same : ofText (container kind item).spelling = .container kind item :=
    canonical.ofName_referenceName
  rw [same] at spells
  cases spells with
  | container _ _ _ inner =>
    constructor
    · rw [inner.referenceName]
      exact (spells_ofText _).unique inner.spelling
    · rw [inner.referenceName]
      simp

theorem Api.Leads.legible (dataTypes : ∀ type ∈ api.dataTypes, type.definition.Legible)
    {schema next : Schema} (step : api.Leads schema next) (legible : schema.Legible) :
    next.Legible := by
  cases step with
  | @field _ definition field isRecord declared =>
    have ofRecord : definition.Legible := by
      cases schema with
      | reference target => cases isRecord
      | anonymous => cases isRecord; exact legible
      | named => cases isRecord; exact legible
    obtain ⟨fields, constraints, description⟩ := definition
    rw [TypeDef.Legible] at ofRecord
    exact (Field.legible_of_mem ofRecord.1 declared).schema
  | @name _ type found => exact dataTypes type (mem_of_find?_eq_some found)
  | item => exact TypeRef.Canonical.item legible

variable {type : NamedTypeDef} {name : Doc}

theorem Api.lookup_of_dataType?_eq_none (canonical : (custom name).Canonical)
    (absent : api.dataType? name = none) :
    api.lookup name = none ∨ api.lookup name = some (.named .api) := by
  have custom : builtIn? name = none := by
    have same : ofName name = .custom name := canonical.ofName_referenceName
    rw [builtIn?, same]
  unfold lookup
  rw [absent, custom]
  by_cases reserved : name.same (.text apiName)
  · exact .inr (if_pos reserved)
  · exact .inl (if_neg reserved)

theorem Api.dataType?_of_lookup (found : api.lookup name = some (.named type)) :
    api.dataType? name = some type ∨ type = .api ∧ name = .text apiName := by
  unfold lookup at found
  cases isType : api.dataType? name with
  | some other =>
    rw [isType] at found
    cases found
    exact .inl rfl
  | none =>
    rw [isType] at found
    dsimp only at found
    split at found
    · cases found
    · split_ifs at found with reserved
      cases found
      exact .inr ⟨rfl, (Doc.same_text_right _ _).mp reserved⟩

theorem Api.exists_named_of_lookup {schema : Schema} (canonical : (custom name).Canonical)
    (found : api.lookup name = some schema) : ∃ type, schema = .named type := by
  cases isType : api.dataType? name with
  | some type =>
    rw [lookup, isType] at found
    exact ⟨type, (Option.some.inj found).symm⟩
  | none =>
    rcases lookup_of_dataType?_eq_none canonical isType with nothing | self
    · cases nothing.symm.trans found
    · exact ⟨.api, Option.some.inj (found.symm.trans self)⟩

theorem Api.exists_key_of_lookup (names : ∀ type ∈ api.dataTypes, ∃ key, type.name = .text key)
    (found : api.lookup name = some (.named type)) :
    ∃ key, type.name = .text key ∧ name = .text key := by
  rcases dataType?_of_lookup found with isType | ⟨rfl, rfl⟩
  · have same := find?_some isType
    obtain ⟨key, isText⟩ := names type (mem_of_find?_eq_some isType)
    rw [isText, Doc.same_text_left] at same
    exact ⟨key, isText, same⟩
  · exact ⟨apiName, rfl, rfl⟩

end ApiDescription
