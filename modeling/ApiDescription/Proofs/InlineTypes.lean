import ApiDescription.Proofs.Conditions

/-!
# Types written on the spot

A record type can be written where it is used or be declared as a data type and referred to by its
name.  Both ways lead to the same constraints.  A reference, however, rephrases them all for the
place of the value, while a type written on the spot leaves them as they are: its own constraints,
and those of its fields, go on speaking about `self`.

So the conditions of an operation are the same both ways only if none of them speaks about `self`
and each is written the way predicates are printed.
-/

namespace ApiDescription

open Outcome Api Condition

/-- A name for a new data type: it spells no built-in type and no container, no data type goes by
it, and no type that is reached refers to it. -/
structure Api.Fresh (api : Api) (start : Schema) (name : String) : Prop where
  spelled : TypeRef.ofText name = .custom (.text name)
  undeclared : api.dataType? (.text name) = none
  unused : ¬ api.Reaches start (.reference (.custom (.text name)))

def Api.Declares (api : Api) (type : NamedTypeDef) (later : Api) : Prop :=
  ∃ before after, api.dataTypes = before ++ after ∧ later.dataTypes = before ++ type :: after

/-- A condition that is printed the way it is written, and speaks about `self` nowhere. -/
def Condition.Standing (condition : Condition) : Prop :=
  ∃ predicate text, condition.Reads predicate ∧ predicate.render? = .ok (some text) ∧
    Expr.mentions "self" predicate = false ∧ condition = some (.text text)

/-! ## Conditions that are rephrased in vain -/

/-- Only a standing condition is left as it is when it is rephrased. -/
theorem Condition.about_eq_self_iff {path : Path} (legal : path.Legal) {condition : Condition}
    {predicate : Expr} (reads : condition.Reads predicate) (bare : predicate.Bare .readable)
    (shallow : predicate.nesting ≤ Lexer.maxNesting) :
    condition.about path.text = .ok condition ↔ condition.Standing := by
  have bareMoved : (Expr.subst "self" path.tree predicate).Bare .readable :=
    Expr.bare_subst legal.bare_tree.1 legal.bare_tree.2 predicate bare
  have shallowMoved : (Expr.subst "self" path.tree predicate).nesting ≤ Lexer.maxNesting := by
    rw [Expr.nesting_subst path.nesting_tree]
    exact shallow
  obtain ⟨text, rendered, parsed⟩ := Expr.parse_of_bare bareMoved shallowMoved
  rw [about_of_reads reads path.render?_tree rendered, Except.ok.injEq]
  constructor
  · rintro rfl
    have same := reads.unique ⟨text, rfl, parsed⟩
    have noSelf := Expr.mentions_subst legal.mentions_tree predicate
    rw [← same] at rendered noSelf
    exact ⟨predicate, text, reads, rendered, noSelf, rfl⟩
  · rintro ⟨other, written, alsoReads, printed, noSelf, rfl⟩
    rw [reads.unique alsoReads, Expr.subst_of_not_mentions _ noSelf, printed] at rendered
    cases rendered
    rfl

variable {api : Api} {schema : Schema} {definition : TypeDef} {place : String}

theorem Api.Occurs.innerCrossings {occurrence : Occurrence} (occurs : api.Occurs schema occurrence)
    (isRecord : schema.record? = some definition) :
    Step.innerCrossings occurrence.steps = Step.crossings occurrence.steps := by
  cases occurs with
  | own => rfl
  | field => rfl
  | name | item => cases isRecord

theorem Api.Phrasable.exists_about (phrasable : api.Phrasable schema)
    (dataTypes : ∀ type ∈ api.dataTypes, type.definition.Legible) (legible : schema.Legible)
    (isRecord : schema.record? = some definition) (legal : (Path.mk place []).Legal) :
    ∃ conditions rephrased,
      Schema.constraintsAt api (api.reach schema) (some schema) place = .ok conditions ∧
      conditions.mapM (about place) = .ok rephrased ∧
      (rephrased = conditions ↔ ∀ condition ∈ conditions, condition.Standing) := by
  obtain ⟨bound, reach, within⟩ := within_reach phrasable.acyclic
  obtain ⟨occurrences, listed⟩ := exists_lists within phrasable.labelled
  have sound : ∀ occurrence ∈ occurrences, occurrence.Sound :=
    fun occurrence member => phrasable.sound (listed.occurs occurrence member)
  obtain ⟨conditions, walked, conveyed⟩ := Path.finds_of_lists dataTypes legal within legible
    phrasable.labelled listed sound
  rw [Path.Conveys, isRecord] at conveyed
  obtain ⟨rephrased, moved, -⟩ := exists_mapM conveyed fun occurrence member condition rephrases =>
      Path.Rephrases.about rephrases legal (sound occurrence member)
  refine ⟨conditions, rephrased, reach ▸ walked, moved, ?_⟩
  have each : ∀ condition ∈ conditions,
      condition.about place = .ok condition ↔ condition.Standing := by
    intro condition given
    obtain ⟨occurrence, member, predicate, relative, isPredicate, reads, bare, same⟩ :=
      exists_result_of_mem conveyed.flip given
    have shallow := (sound occurrence member).shallow predicate isPredicate
    rw [(listed.occurs occurrence member).innerCrossings isRecord,
      ← Path.nesting_phrase ⟨place, []⟩, ← same,
      Expr.nesting_subst (Path.nesting_tree _)] at shallow
    exact about_eq_self_iff legal reads bare shallow
  have unchanged : rephrased = conditions ↔
      conditions.mapM (about place) = .ok conditions := by
    rw [← Except.ok.injEq]
    exact (Eq.congr_left moved).symm
  rw [unchanged, mapM_eq_ok, List.forall₂_same]
  exact forall₂_congr each

/-! ## One data type more -/

section Declaring

variable {api later : Api} {type : NamedTypeDef} {schema : Schema} {definition : TypeDef}
  {name place : String}

theorem Api.Declares.lookup (declares : api.Declares type later) {name : Doc}
    (other : type.name.same name = false) : later.lookup name = api.lookup name := by
  obtain ⟨before, after, isApi, isLater⟩ := declares
  have found : later.dataType? name = api.dataType? name := by
    rw [dataType?, dataType?, isApi, isLater, List.find?_append, List.find?_append,
      List.find?_cons_of_neg (by simp [other])]
  rw [Api.lookup, Api.lookup, found]

/-- A data type that is not referred to changes nothing in the constraints of a type. -/
theorem Api.Declares.constraintsAt (declares : api.Declares type later)
    (dataTypes : ∀ type ∈ api.dataTypes, type.definition.Legible) {bound fuel more : Nat}
    (within : api.Within bound schema) (legible : schema.Legible)
    (unused : ∀ name, api.Reaches schema (.reference (.custom name)) → type.name.same name = false)
    (enough : bound < fuel) (enoughMore : bound < more) :
    Schema.constraintsAt later more (some schema) place =
      Schema.constraintsAt api fuel (some schema) place := by
  induction bound generalizing schema place fuel more with
  | zero => exact within.elim
  | succ bound ih =>
    obtain ⟨fuel, rfl⟩ := Nat.exists_eq_add_one_of_ne_zero (Nat.ne_zero_of_lt enough)
    obtain ⟨more, rfl⟩ := Nat.exists_eq_add_one_of_ne_zero (Nat.ne_zero_of_lt enoughMore)
    have below {next : Schema} {place : String} (step : api.Leads schema next) :
        Schema.constraintsAt later more (some next) place =
          Schema.constraintsAt api fuel (some next) place :=
      ih (within next step) (step.legible dataTypes legible)
        (fun name reached => unused name (.head step reached)) (by omega) (by omega)
    have ofRecord : ∀ definition, schema.record? = some definition →
        Schema.constraintsAt later (more + 1) (some schema) place =
          Schema.constraintsAt api (fuel + 1) (some schema) place := by
      intro definition isRecord
      rw [Schema.constraintsAt_record _ _ _ isRecord, Schema.constraintsAt_record _ _ _ isRecord]
      congr 1
      apply mapM_congr
      intro field declared
      simp only [below (.field isRecord declared)]
    cases schema with
    | anonymous definition => exact ofRecord definition rfl
    | named type => exact ofRecord type.definition rfl
    | reference target =>
      cases target with
      | primitive kind => rfl
      | container kind item =>
        rw [Schema.constraintsAt_container, Schema.constraintsAt_container, below .item]
      | custom name =>
        rw [Schema.constraintsAt_custom, Schema.constraintsAt_custom,
          declares.lookup (unused name .refl)]
        cases found : api.dataType? name with
        | some type =>
          have leads : api.lookup name = some (.named type) := by rw [Api.lookup, found]
          rw [leads, below (.name found)]
        | none =>
          obtain ⟨fuel, rfl⟩ := Nat.exists_eq_add_one_of_ne_zero (n := fuel) (by omega)
          obtain ⟨more, rfl⟩ := Nat.exists_eq_add_one_of_ne_zero (n := more) (by omega)
          rcases lookup_of_dataType?_eq_none legible found with nothing | self
          · rw [nothing]; rfl
          · rw [self]; rfl

theorem Api.Declares.constraintsAt_named (declares : api.Declares ⟨.text name, definition⟩ later)
    (dataTypes : ∀ type ∈ api.dataTypes, type.definition.Legible) (legible : definition.Legible)
    (acyclic : api.Acyclic (.anonymous definition)) (fresh : api.Fresh (.anonymous definition) name)
    (link : Doc) :
    later.constraintsAt (.reference (TypeRef.ofText name) link) place =
      api.constraintsAt (.inline definition) place >>= (·.mapM (about place)) := by
  obtain ⟨bound, reach, within⟩ := within_reach acyclic
  have found : later.lookup (.text name) = some (.named ⟨.text name, definition⟩) := by
    obtain ⟨before, after, isApi, isLater⟩ := declares
    have absent := fresh.undeclared
    rw [dataType?, isApi, List.find?_append, Option.or_eq_none_iff] at absent
    rw [Api.lookup, Api.dataType?, isLater, List.find?_append, absent.1, Option.none_or,
      List.find?_cons_of_pos (by simp)]
  obtain ⟨more, laterReach, enough⟩ : ∃ more,
      later.reach (.reference (.custom (.text name))) = more + 2 ∧ bound < more + 1 := by
    obtain ⟨before, after, isApi, isLater⟩ := declares
    have laterWeighs : later.reach (.reference (.custom (.text name))) =
        1 + weightOf later.dataTypes + 1 := rfl
    have weighs : api.reach (.anonymous definition) = definition.weight + weightOf api.dataTypes +
      1 := rfl
    refine ⟨weightOf later.dataTypes, by omega, ?_⟩
    rw [reach, isApi] at weighs
    simp only [isLater, weightOf, List.map_append, List.map_cons, List.sum_append,
      List.sum_cons] at weighs ⊢
    omega
  have sameRecord :
      Schema.constraintsAt later (more + 1) (some (.named ⟨.text name, definition⟩)) place =
      Schema.constraintsAt later (more + 1) (some (.anonymous definition)) place := rfl
  have unused : ∀ other, api.Reaches (.anonymous definition) (.reference (.custom other)) →
      (Doc.text name).same other = false := by
    intro other reached
    rw [Bool.eq_false_iff, ne_eq, Doc.same_text_left]
    rintro rfl
    exact fresh.unused reached
  rw [fresh.spelled, Api.constraintsAt, DataType.schema, laterReach, Schema.constraintsAt_custom,
    found, sameRecord, declares.constraintsAt dataTypes within legible unused
      (by omega : bound < api.reach (.anonymous definition)) enough]
  rfl

end Declaring

/-- How the conditions of an operation change when a type that is written on the spot gets a
name. -/
structure Api.Renames (api : Api) (definition : TypeDef) (place : String) (own : List Condition)
    (inline named : Except Fault (List Condition)) : Prop where
  inline_eq : inline = do return own ++ (← api.constraintsAt (.inline definition) place)
  named_eq : named = do
    let conditions ← api.constraintsAt (.inline definition) place
    return own ++ (← conditions.mapM (about place))
  same_iff : api.Phrasable (.anonymous definition) →
  ∃ conditions, inline = .ok (own ++ conditions) ∧
    (named = inline ↔ ∀ condition ∈ conditions, condition.Standing)

theorem Api.Declares.renames {later : Api} {name : String}
    (declares : api.Declares ⟨.text name, definition⟩ later)
    (dataTypes : ∀ type ∈ api.dataTypes, type.definition.Legible) (legible : definition.Legible)
    (acyclic : api.Acyclic (.anonymous definition)) (fresh : api.Fresh (.anonymous definition) name)
    (link : Doc) (legal : (Path.mk place []).Legal) (own : List Condition) :
    api.Renames definition place own
      (do return own ++ (← api.constraintsAt (.inline definition) place))
      (do return own ++ (← later.constraintsAt (.reference (TypeRef.ofText name) link) place)) where
  inline_eq := rfl
  named_eq := by rw [declares.constraintsAt_named dataTypes legible acyclic fresh link, bind_assoc]
  same_iff phrasable := by
    obtain ⟨conditions, rephrased, walked, moved, unchanged⟩ :=
      phrasable.exists_about dataTypes legible rfl legal
    have found : api.constraintsAt (.inline definition) place = .ok conditions := walked
    refine ⟨conditions, by rw [found]; rfl, ?_⟩
    rw [declares.constraintsAt_named dataTypes legible acyclic fresh link, found, ← unchanged,
      ok_bind, moved]
    change Except.ok (own ++ rephrased) = Except.ok (own ++ conditions) ↔ _
    rw [Except.ok.injEq, List.append_cancel_left_eq]

/-- When a type that is written on the spot is declared under a fresh name and referred to by that
name, its conditions for an operation are rephrased for the place of the value.  They stay the same
if and only if each of them is standing. -/
theorem Operation.conditions_of_named_type {document : Doc} {api : Api}
    (accepted : Api.ofDoc document = .ok api) {resource : Resource}
    (inApi : resource ∈ api.resources) {operation : Operation}
    (inResource : operation ∈ resource.operations) {definition : TypeDef}
    (acyclic : api.Acyclic (.anonymous definition)) {name : String}
    (fresh : api.Fresh (.anonymous definition) name) {later : Api}
    (declares : api.Declares ⟨.text name, definition⟩ later) (link : Doc) :
    (∀ input, operation.input = some input → input.type = some (.inline definition) →
      api.Renames definition "input" operation.requires (operation.preConditions api)
        ({ operation with input := some { input with
          type := some (.reference (TypeRef.ofText name) link) } }.preConditions later)) ∧
    (∀ output, operation.output = some output → output.type = some (.inline definition) →
      api.Renames definition "output" operation.ensures (operation.postConditions api)
        ({ operation with output := some { output with
          type := some (.reference (TypeRef.ofText name) link) } }.postConditions later)) := by
  obtain ⟨dataTypes, inputs, outputs⟩ := Operation.legible_of_accepted accepted inApi inResource
  constructor
  · intro input given uses
    have legible : (DataType.inline definition).Legible := inputs input given _ uses
    have legal : (Path.mk "input" []).Legal := ⟨⟨by decide, by simp⟩, by decide⟩
    have renames :=
      declares.renames dataTypes legible.schema acyclic fresh link legal operation.requires
    simpa [Operation.preConditions, given, uses] using renames
  · intro output given uses
    have legible : (DataType.inline definition).Legible := outputs output given _ uses
    have legal : (Path.mk "output" []).Legal := ⟨⟨by decide, by simp⟩, by decide⟩
    have renames :=
      declares.renames dataTypes legible.schema acyclic fresh link legal operation.ensures
    simpa [Operation.postConditions, given, uses] using renames

/-! ## A type that speaks about itself -/

def Doc.store : Doc :=
  .object [("name", "store"),
    ("resources", .list [.object [("name", "goods"), ("path", "/goods"),
      ("operations", .list [.object [("name", "take"), ("method", "POST"),
        ("input", .object [("type", .object [("fields", .list []),
          ("constraints", .list ["size(self) > 0"])])]),
        ("output", .object [("status", .int 201)])]])]])]

namespace Api.store

def goods : TypeDef := ⟨[], [some "size(self) > 0"], none⟩

def take (type : DataType) : Operation :=
  { name := "take", method := "POST", input := some { type := some type }
    output := some { status := .int 201 } }

def of (type : DataType) (dataTypes : List NamedTypeDef) : Api :=
  { name := "store", dataTypes
    resources := [{ name := "goods", path := "/goods", operations := [take type] }] }

def reference : DataType := .reference (TypeRef.ofText "Goods") .null

def named : Api := of reference [⟨"Goods", goods⟩]

end Api.store

def Api.store : Api := store.of (.inline store.goods) []

open Api.store (goods take)

theorem Api.store_accepted : ofDoc Doc.store = .ok store := by
  cbv

theorem Api.store_reads : Reads (some (.text "size(self) > 0"))
    (.compare (.call (.name "size" .load) [.name "self" .load] []) [.greater] [.number (.int 0)]) :=
  reads_of_bare (by decide) (by decide) rfl

theorem Api.store_phrasable : store.Phrasable (.anonymous goods) := by
  have listed : store.Listed 2 (.anonymous goods) [⟨[], some (.text "size(self) > 0")⟩] :=
    listed_of_list? rfl
  refine ⟨acyclic_of_within listed.within, listed.labelled, ?_, ?_⟩
  · intro occurrence occurs
    rw [List.mem_singleton.mp (occurs.mem listed.lists)]
    exact ⟨_, store_reads, Expr.Bare.readable (by decide)⟩
  · intro occurrence occurs predicate reads
    rw [List.mem_singleton.mp (occurs.mem listed.lists)] at reads ⊢
    rw [reads.unique store_reads]
    decide

theorem Api.store_fresh : store.Fresh (.anonymous goods) "Goods" := by
  refine ⟨by cbv, rfl, ?_⟩
  intro reached
  rcases reached.cases_head with same | ⟨next, step, later⟩
  · cases same
  · cases step with
    | field isRecord declared =>
      cases isRecord
      cases declared

theorem Api.store_declares : store.Declares ⟨.text "Goods", goods⟩ store.named :=
  ⟨[], [], rfl, rfl⟩

theorem Api.store_conditions_of_named_type :
    Api.ofDoc Doc.store = .ok Api.store ∧ Api.store.Acyclic (.anonymous goods) ∧
      Api.store.Fresh (.anonymous goods) "Goods" ∧
      Api.store.Declares ⟨.text "Goods", goods⟩ Api.store.named ∧
      Api.store.Renames goods "input" [] ((take (.inline goods)).preConditions Api.store)
        ((take Api.store.reference).preConditions Api.store.named) :=
  ⟨Api.store_accepted, Api.store_phrasable.acyclic, Api.store_fresh, Api.store_declares,
    (Operation.conditions_of_named_type Api.store_accepted List.mem_cons_self List.mem_cons_self
      Api.store_phrasable.acyclic Api.store_fresh Api.store_declares .null).1 _ rfl rfl⟩

/-- Goods under a name are spoken of as the input, goods described on the spot as themselves. -/
theorem Api.store_conditions_differ :
    Api.ofDoc Doc.store = .ok Api.store ∧ Api.store.Phrasable (.anonymous goods) ∧
      Api.store.Fresh (.anonymous goods) "Goods" ∧
      Api.store.Declares ⟨.text "Goods", goods⟩ Api.store.named ∧
      (take (.inline goods)).preConditions Api.store = .ok [some (.text "size(self) > 0")] ∧
      (take Api.store.reference).preConditions Api.store.named =
        .ok [some (.text "size(input) > 0")] := by
  refine ⟨Api.store_accepted, Api.store_phrasable, Api.store_fresh, Api.store_declares, rfl, ?_⟩
  have input : (Expr.name "input" .load).render? = .ok (some "input") := rfl
  have rephrased : Condition.about "input" (some (.text "size(self) > 0")) =
      .ok (some (.text "size(input) > 0")) := Condition.about_of_reads Api.store_reads input rfl
  have own : Schema.constraintsAt Api.store.named 3 (Api.store.named.lookup (.text "Goods"))
    "input" =
      .ok [some (.text "size(self) > 0")] := rfl
  have walked : Api.store.named.constraintsAt Api.store.reference "input" =
      .ok [some (.text "size(input) > 0")] := by
    rw [Api.store.reference, Api.store_fresh.spelled]
    change Schema.constraintsAt _ 4 (some (.reference (.custom "Goods"))) _ = _
    rw [Schema.constraintsAt_custom, own]
    simp [rephrased]
  simp [Operation.preConditions, take, walked]

end ApiDescription
