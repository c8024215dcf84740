import ApiDescription.Proofs.Conditions

/-!
# Variables of quantifiers

Where the way to a constraint crosses a container, a quantifier is put around the constraint.  Its
domain is the place of the container, and its variable is made from the text of the place.

The variable never is the name that its domain starts from.  It is a single identifier unless the
container is a field whose name ends in `_item`: there the whole place gets an underscore in front,
with its points.
-/

namespace ApiDescription

open Outcome Text List

variable {api : Api} {place : String} {schema start : Schema} {path : Path}

/-! ## Identifiers -/

namespace Text

variable {name : String} {character : Char}

def isIdentifier (name : String) : Bool :=
  match name.toList with
  | first :: others => isIdentifierStart first && others.all isIdentifierPart
  | [] => false

theorem isIdentifierPart_of_isIdentifierStart (starts : isIdentifierStart character) :
    isIdentifierPart character := by
  unfold isIdentifierStart at starts
  unfold isIdentifierPart
  split at starts
  · next ascii =>
    rw [if_pos ascii]
    rcases Bool.or_eq_true_iff.mp starts with letter | underscore
    · simp [Char.isAlphanum, letter]
    · rw [underscore, Bool.or_true]
  · next beyond => rw [if_neg beyond, starts, Bool.true_or]

theorem isIdentifierPart_of_mem (identifier : isIdentifier name)
    (member : character ∈ name.toList) :
    isIdentifierPart character := by
  unfold isIdentifier at identifier
  split at identifier
  · next first others characters =>
    rw [Bool.and_eq_true, all_eq_true] at identifier
    rw [characters] at member
    rcases mem_cons.mp member with rfl | later
    · exact isIdentifierPart_of_isIdentifierStart identifier.1
    · exact identifier.2 character later
  · cases identifier

theorem point_not_mem_of_isIdentifier (identifier : isIdentifier name) : '.' ∉ name.toList := by
  intro member
  have part : isIdentifierPart '.' := isIdentifierPart_of_mem identifier member
  exact absurd part (by decide)

theorem isIdentifier_of_underscore {rest : List Char} (begins : name.toList = '_' :: rest)
    (parts : ∀ character ∈ rest, isIdentifierPart character) : isIdentifier name := by
  rw [isIdentifier, begins]
  simp only [Bool.and_eq_true, all_eq_true]
  exact ⟨by decide, parts⟩

theorem isIdentifier_of_isAsciiIdentifier (identifier : isAsciiIdentifier name) :
    isIdentifier name := by
  unfold isAsciiIdentifier at identifier
  split at identifier
  · next first others characters =>
    simp only [Bool.and_eq_true, Bool.or_eq_true, all_eq_true, beq_iff_eq] at identifier
    simp only [isIdentifier, characters, Bool.and_eq_true, all_eq_true]
    exact ⟨isIdentifierStart_of_isAlpha identifier.1,
      fun character later => isIdentifierPart_of_isAlphanum (identifier.2 character later)⟩
  · cases identifier

end Text

/-! ## Variables over the items at a path -/

def rootName (place : String) : String :=
  String.ofList (place.toList.takeWhile (· != '.'))

namespace Path

structure Spelled (path : Path) : Prop where
  root : isIdentifier path.root
  labels : ∀ label ∈ path.labels, isIdentifier label

theorem rootName_text (plain : '.' ∉ path.root.toList) : rootName path.text = path.root := by
  rw [rootName, takeWhile_text plain, String.ofList_toList]

theorem item_root_ne (path : Path) : path.item.root ≠ path.root := by
  have longer (rest : List Char) : '_' :: (path.root.toList ++ rest) ≠ path.root.toList := by
    intro same
    have lengths := congrArg length same
    simp only [length_cons, length_append] at lengths
    omega
  rw [← String.toList_inj.ne]
  unfold item
  split
  · have begins : ("_" ++ path.root).toList = '_' :: (path.root.toList ++ []) := by simp
    exact begins ▸ longer []
  · next noEnding =>
    split
    · rw [String.toList_append, Expr.toList_intercalate]
      exact longer _
    · next short =>
      -- only the root `_item` itself could be met here, and it ends in `_item`
      intro same
      have root : path.root = "_item" := (String.toList_inj.mp same).symm
      have noLabels : path.labels = [] := by_contra fun crosses => short ⟨root, crosses⟩
      rw [noLabels, getLastD_nil, root] at noEnding
      exact noEnding (by decide)

namespace Spelled

theorem field (spelled : path.Spelled) {label : String} (identifier : isIdentifier label) :
    (path.field label).Spelled := by
  refine ⟨spelled.root, ?_⟩
  intro name member
  rcases mem_append.mp member with earlier | last
  · exact spelled.labels name earlier
  · rw [mem_singleton.mp last]
    exact identifier

theorem item (spelled : path.Spelled) : path.item.Spelled := by
  obtain ⟨⟨rest, begins, parts⟩, labels⟩ := parts_item (fun _ => isIdentifierPart_of_isAlphanum)
    (fun _ => isIdentifierPart_of_mem spelled.root)
    fun label isLabel _ => isIdentifierPart_of_mem (spelled.labels label isLabel)
  exact ⟨isIdentifier_of_underscore begins parts,
    fun label isItem => spelled.labels label (labels label isItem)⟩

theorem plainRoot (spelled : path.Spelled) : '.' ∉ path.root.toList :=
  point_not_mem_of_isIdentifier spelled.root

theorem text_item (spelled : path.Spelled) : path.item.text = itemVariable path.text :=
  Path.text_item spelled.plainRoot
    fun label isLabel => point_not_mem_of_isIdentifier (spelled.labels label isLabel)

theorem point_mem_text_iff (spelled : path.Spelled) :
    '.' ∈ path.text.toList ↔ path.labels ≠ [] := by
  rw [toList_text]
  cases path.labels with
  | nil => simp [spelled.plainRoot]
  | cons label labels => simp

theorem isIdentifier_text_iff (spelled : path.Spelled) :
    isIdentifier path.text ↔ path.labels = [] := by
  constructor
  · intro identifier
    by_contra crosses
    exact point_not_mem_of_isIdentifier identifier (spelled.point_mem_text_iff.mpr crosses)
  · intro noLabels
    rw [text, noLabels]
    exact spelled.root

theorem itemVariable_ne (spelled : path.Spelled) : itemVariable path.text ≠ rootName path.text := by
  intro same
  rw [← spelled.text_item, rootName_text spelled.plainRoot] at same
  have roots : path.item.root = path.root := calc
    path.item.root = rootName path.item.text := (rootName_text spelled.item.plainRoot).symm
    _ = rootName (Path.mk path.root []).text := congrArg rootName same
    _ = path.root := rootName_text spelled.plainRoot
  exact path.item_root_ne roots

/-- The variable is an identifier unless its domain is a field whose name ends in `_item`. -/
theorem isIdentifier_itemVariable_iff (spelled : path.Spelled) :
    isIdentifier (itemVariable path.text) ↔
      ¬ (endsWith path.text "_item" ∧ '.' ∈ path.text.toList) := by
  rw [← spelled.text_item, spelled.item.isIdentifier_text_iff, spelled.point_mem_text_iff,
    endsWith_text]
  unfold Path.item
  split
  · next ending => simp only [ending, true_and, ne_eq, not_not]
  · next noEnding =>
    have noLabels : ¬ (endsWith (path.labels.getLastD path.root) "_item" ∧ path.labels ≠ []) :=
      fun both => noEnding both.1
    split
    · exact iff_of_true rfl noLabels
    · exact iff_of_true rfl noLabels

end Spelled

end Path

/-! ## Quantifiers of a condition -/

/-- A variable and the place of the container whose items it stands for. -/
structure Quantifier where
  item : String
  domain : String

/-- How a condition comes from a constraint below a type: what it is the constraint of, and which
quantifiers were put around it on its way up, the outermost first. -/
inductive Api.Derives (api : Api) : Schema → String → List Quantifier → Condition → Prop where
  | own {schema : Schema} {place : String} {definition : TypeDef} {constraint : Condition}
      (isRecord : schema.record? = some definition)
      (declared : constraint ∈ definition.constraints) :
      Derives api schema place [] constraint
  | field {schema : Schema} {place label : String} {definition : TypeDef} {field : Field}
      {quantifiers : List Quantifier} {condition result : Condition}
      (isRecord : schema.record? = some definition) (declared : field ∈ definition.fields)
      (named : field.name.asText = .ok label)
      (below : Derives api field.type.schema (place ++ "." ++ label) quantifiers condition)
      (moved : condition.about ("self." ++ label) = .ok result) :
      Derives api schema place quantifiers result
  | name {name : Doc} {place : String} {type : NamedTypeDef} {quantifiers : List Quantifier}
      {condition result : Condition} (found : api.dataType? name = some type)
      (below : Derives api (.named type) place quantifiers condition)
      (moved : condition.about place = .ok result) :
      Derives api (.reference (.custom name)) place quantifiers result
  | item {kind : Container} {item : TypeRef} {place : String} {quantifiers : List Quantifier}
      {condition result : Condition}
      (below : Derives api (.reference item) (itemVariable place) quantifiers condition)
      (quantified : condition.forAll (itemVariable place) place = .ok result) :
      Derives api (.reference (.container kind item)) place (⟨itemVariable place, place⟩ ::
        quantifiers) result

/-- Whatever the walk through a type gives is derived from a constraint. -/
theorem Api.exists_derives (dataTypes : ∀ type ∈ api.dataTypes, type.definition.Legible)
    {fuel : Nat} {conditions : List Condition} (legible : schema.Legible)
    (walked : Schema.constraintsAt api fuel (some schema) place = .ok conditions) :
    ∀ condition ∈ conditions, ∃ quantifiers, api.Derives schema place quantifiers condition := by
  induction fuel generalizing schema place conditions with
  | zero => cases walked
  | succ fuel ih =>
    intro condition member
    cases isRecord : schema.record? with
    | some definition =>
      rw [Schema.constraintsAt_record _ _ _ isRecord] at walked
      obtain ⟨ofFields, readFields, same⟩ := bind_eq_ok.mp walked
      cases same
      rcases mem_append.mp member with own | inFields
      · exact ⟨[], .own isRecord own⟩
      · obtain ⟨results, isResults, inResults⟩ := mem_flatten.mp inFields
        obtain ⟨field, declared, readField⟩ := exists_of_mem_mapM readFields isResults
        obtain ⟨label, named, readInner⟩ := bind_eq_ok.mp readField
        obtain ⟨inner, walkedInner, movedAll⟩ := bind_eq_ok.mp readInner
        obtain ⟨source, isSource, moved⟩ := exists_of_mem_mapM movedAll inResults
        have step : api.Leads schema field.type.schema := .field isRecord declared
        obtain ⟨quantifiers, below⟩ :=
          ih (step.legible dataTypes legible) walkedInner source isSource
        exact ⟨quantifiers, .field isRecord declared named below moved⟩
    | none =>
      cases schema with
      | anonymous definition => cases isRecord
      | named type => cases isRecord
      | reference target =>
        cases target with
        | primitive kind =>
          cases walked
          cases member
        | custom name =>
          rw [Schema.constraintsAt_custom] at walked
          obtain ⟨inner, walkedInner, movedAll⟩ := bind_eq_ok.mp walked
          obtain ⟨source, isSource, moved⟩ := exists_of_mem_mapM movedAll member
          cases found : api.dataType? name with
          | some type =>
            have step : api.Leads (.reference (.custom name)) (.named type) := .name found
            rw [Api.lookup, found] at walkedInner
            obtain ⟨quantifiers, below⟩ :=
              ih (step.legible dataTypes legible) walkedInner source isSource
            exact ⟨quantifiers, .name found below moved⟩
          | none =>
            have nothing : inner = [] := by
              cases fuel with
              | zero => cases walkedInner
              | succ fuel =>
                rcases Api.lookup_of_dataType?_eq_none legible found with absent | self
                · rw [absent] at walkedInner
                  cases walkedInner
                  rfl
                · rw [self] at walkedInner
                  cases walkedInner
                  rfl
            rw [nothing] at isSource
            cases isSource
        | container kind item =>
          rw [Schema.constraintsAt_container] at walked
          obtain ⟨inner, walkedInner, quantifiedAll⟩ := bind_eq_ok.mp walked
          obtain ⟨source, isSource, quantified⟩ :=
            exists_of_mem_mapM quantifiedAll member
          have step : api.Leads (.reference (.container kind item)) (.reference item) := .item
          obtain ⟨quantifiers, below⟩ :=
            ih (step.legible dataTypes legible) walkedInner source isSource
          exact ⟨⟨itemVariable place, place⟩ :: quantifiers, .item below quantified⟩

def Api.Spelled (api : Api) (start : Schema) : Prop :=
  ∀ schema definition, api.Reaches start schema → schema.record? = some definition →
    ∀ field ∈ definition.fields, ∃ label, field.name = .text label ∧ isIdentifier label

theorem Api.Spelled.next {next : Schema} (spelled : api.Spelled start)
    (step : api.Leads start next) :
    api.Spelled next :=
  fun schema definition reached => spelled schema definition (.head step reached)

theorem Api.Labelled.spelled (labelled : api.Labelled start) : api.Spelled start := by
  intro schema definition reached isRecord field declared
  obtain ⟨label, named, isLabel⟩ := labelled schema definition reached isRecord field declared
  exact ⟨label, named, isIdentifier_of_isAsciiIdentifier isLabel.1⟩

/-- The variable is not the name that its domain starts from, and it is an identifier unless the
domain is a field whose name ends in `_item`. -/
def Quantifier.Fresh (quantifier : Quantifier) : Prop :=
  quantifier.item ≠ rootName quantifier.domain ∧
    (isIdentifier quantifier.item ↔
      ¬ (endsWith quantifier.domain "_item" ∧ '.' ∈ quantifier.domain.toList))

theorem Api.Derives.fresh {quantifiers : List Quantifier} {condition : Condition}
    (derives : api.Derives schema place quantifiers condition) (spelledPath : path.Spelled)
    (isPlace : path.text = place) (spelled : api.Spelled schema) :
    ∀ quantifier ∈ quantifiers, quantifier.Fresh := by
  induction derives generalizing path with
  | own => simp
  | @field schema place label definition field _ _ _ isRecord declared named below moved ih =>
    obtain ⟨name, isName, identifier⟩ := spelled _ definition .refl isRecord field declared
    rw [isName] at named
    cases named
    exact ih (spelledPath.field identifier) (by rw [Path.text_field, isPlace])
      (spelled.next (.field isRecord declared))
  | name found below moved ih => exact ih spelledPath isPlace (spelled.next (.name found))
  | item below quantified ih =>
    rw [forall_mem_cons]
    cases isPlace
    exact ⟨⟨spelledPath.itemVariable_ne, spelledPath.isIdentifier_itemVariable_iff⟩,
      ih spelledPath.item spelledPath.text_item (spelled.next .item)⟩

/-! ## Quantifiers of an operation -/

/-- Conditions are an operation's own ones or come from constraints of a type, and all quantifiers
around those are fresh. -/
def Api.Quantifies (api : Api) (schema : Schema) (place : String)
    (own conditions : List Condition) : Prop :=
  (∀ condition ∈ conditions,
    condition ∈ own ∨ ∃ quantifiers, api.Derives schema place quantifiers condition) ∧
  ∀ quantifiers condition, api.Derives schema place quantifiers condition →
    ∀ quantifier ∈ quantifiers, quantifier.Fresh

theorem Api.quantifies_of_constraintsAt
    (dataTypes : ∀ type ∈ api.dataTypes, type.definition.Legible) {type : DataType}
    (legible : type.Legible) (spelled : api.Spelled type.schema) (root : isIdentifier place)
    {below : List Condition} (walked : api.constraintsAt type place = .ok below)
    (own : List Condition) :
    api.Quantifies type.schema place own (own ++ below) := by
  constructor
  · intro condition member
    rcases mem_append.mp member with isOwn | isBelow
    · exact .inl isOwn
    · exact .inr (Api.exists_derives dataTypes legible.schema walked condition isBelow)
  · intro quantifiers condition derives
    have spelledPath : (Path.mk place []).Spelled := ⟨root, by simp⟩
    exact derives.fresh spelledPath rfl spelled

/-- Whenever the conditions of an operation are found, no quantifier among them uses the root of its
domain for a variable, and a variable is an identifier but for fields whose names end in `_item`. -/
theorem Operation.quantifiers_fresh {document : Doc} (accepted : Api.ofDoc document = .ok api)
    {resource : Resource} (inApi : resource ∈ api.resources) {operation : Operation}
    (inResource : operation ∈ resource.operations) :
    (∀ input type conditions, operation.input = some input → input.type = some type →
      api.Spelled type.schema → operation.preConditions api = .ok conditions →
      api.Quantifies type.schema "input" operation.requires conditions) ∧
    (∀ output type conditions, operation.output = some output → output.type = some type →
      api.Spelled type.schema → operation.postConditions api = .ok conditions →
      api.Quantifies type.schema "output" operation.ensures conditions) := by
  obtain ⟨dataTypes, inputs, outputs⟩ := Operation.legible_of_accepted accepted inApi inResource
  constructor
  · intro input type conditions given uses spelled found
    simp only [Operation.preConditions, given, uses, Option.bind_some] at found
    obtain ⟨below, walked, same⟩ := bind_eq_ok.mp found
    cases same
    exact Api.quantifies_of_constraintsAt dataTypes (inputs input given type uses) spelled
      (by decide) walked _
  · intro output type conditions given uses spelled found
    simp only [Operation.postConditions, given, uses] at found
    obtain ⟨below, walked, same⟩ := bind_eq_ok.mp found
    cases same
    exact Api.quantifies_of_constraintsAt dataTypes (outputs output given type uses) spelled
      (by decide) walked _

theorem Api.market_quantifiers_fresh :
    Api.ofDoc Doc.market = .ok Api.market ∧
      Api.market.Spelled (.reference (.container .list (.custom "Order"))) ∧
      ∃ conditions, Api.market.place.preConditions Api.market = .ok conditions ∧
        Api.market.Quantifies (.reference (.container .list (.custom "Order"))) "input"
          [some (.text "known(input)")] conditions := by
  have spelled := Api.market_phrasable.labelled.spelled
  have inApi : Api.market.orders ∈ Api.market.resources := List.mem_cons_self
  have inResource : Api.market.place ∈ Api.market.orders.operations := List.mem_cons_self
  obtain ⟨dataTypes, inputs, -⟩ :=
    Operation.legible_of_accepted Api.market_accepted inApi inResource
  have legal : (Path.mk "input" []).Legal := ⟨⟨by decide, by simp⟩, by decide⟩
  obtain ⟨below, walked, -⟩ :=
    Api.phrased_constraintsAt dataTypes (inputs _ rfl _ rfl) Api.market_phrasable legal
  have found : Api.market.place.preConditions Api.market =
      .ok (some (.text "known(input)") :: below) := by
    simp [Operation.preConditions, Api.market.place, walked]
  exact ⟨Api.market_accepted, spelled, _, found,
    (Operation.quantifiers_fresh Api.market_accepted inApi inResource).1
      _ _ _ rfl rfl spelled found⟩

/-! ## A variable with a point -/

def Doc.lineItems : Doc :=
  .lines "self.count > 0" "line_item"

def Api.lineItems : Api :=
  .lines "self.count > 0" "line_item"

/-- The variable over the lines of an order is a path itself. -/
theorem Api.lineItems_variable_not_identifier :
    Api.ofDoc Doc.lineItems = .ok Api.lineItems ∧
      Api.lineItems.Acyclic (.reference (.custom "Order")) ∧
      Api.lineItems.Spelled (.reference (.custom "Order")) ∧
      Api.lines.place.preConditions Api.lineItems = .ok [some (.text
        "forall(_input.line_item, input.line_item, _input.line_item.count > 0)")] ∧
      Text.isIdentifier "_input.line_item" = false := by
  have accepted : Api.ofDoc Doc.lineItems = .ok Api.lineItems := Api.lines_accepted _ _
  have listed : Api.lineItems.Listed 7 (.reference (.custom "Order"))
      [⟨[.field "line_item", .item], some (.text "self.count > 0")⟩] := Api.listed_of_list? rfl
  have bare : (Expr.compare (.access (.name "self" .load) "count" .load) [.greater]
      [.number (.int 0)]).Bare .ascii := by decide
  have labels : Step.Legal [.field "line_item", .item] := by
    have isLabel : Lexicon.ascii.label "line_item" := by decide
    simp [Step.Legal, isLabel]
  have sound := Occurrence.sound_of_bare labels bare (by decide) rfl
  have legal : (Path.mk "input" []).Legal := ⟨⟨by decide, by simp⟩, by decide⟩
  have inApi : Api.lines.order ∈ Api.lineItems.resources := List.mem_cons_self
  have inResource : Api.lines.place ∈ Api.lines.order.operations := List.mem_cons_self
  obtain ⟨dataTypes, inputs, -⟩ := Operation.legible_of_accepted accepted inApi inResource
  obtain ⟨conditions, walked, phrased⟩ := Path.finds_of_lists dataTypes legal listed.within
    (inputs _ rfl _ rfl).schema listed.labelled listed.lists (List.forall_mem_singleton.mpr sound)
  have found : conditions = [some (.text
      "forall(_input.line_item, input.line_item, _input.line_item.count > 0)")] := by
    obtain ⟨condition, others, phrases, noMore, rfl⟩ := List.forall₂_cons_left_iff.mp phrased
    cases noMore
    obtain ⟨predicate, text, given, rendered, -, rfl⟩ := phrases
    cases given.unique (Condition.reads_of_bare bare (by decide) rfl)
    cases rendered
    rfl
  have reach : Api.lineItems.reach (.reference (.custom "Order")) = 8 := rfl
  have whole : Api.lineItems.constraintsAt (.reference (.custom "Order") .null) "input" =
      .ok conditions := by
    rw [Api.constraintsAt, DataType.schema, reach]
    exact walked
  refine ⟨accepted, Api.acyclic_of_within listed.within, listed.labelled.spelled, ?_,
    by decide⟩
  simp [Operation.preConditions, Api.lines.place, whole, found]

end ApiDescription
