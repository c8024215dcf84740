import ApiDescription.Proofs.Occurrences

/-!
# Conditions of operations

The conditions that a type puts on a value are its constraints, each phrased for the place where it
occurs.  They come about in many small changes: a constraint that occurs deep inside is printed,
read again and given another subject on every level on its way up.

Two relations describe a condition on the way.  Below a record a condition still speaks about
`self`, which stands for a value of the record type: `Path.Rephrases` says that it turns into the
right phrase once a path takes the place of `self`.  Below a reference the path is in place already:
`Path.Phrases`.
-/

namespace ApiDescription

open Outcome ApiDescription.Expr Lexer Condition List Api

def Condition.Reads (condition : Condition) (predicate : Expr) : Prop :=
  ∃ source, condition = some (.text source) ∧ Expr.parse source = .ok predicate

/-- How many containers are crossed, apart from those that the value itself is. -/
def Step.innerCrossings : List Step → Nat
  | .item :: steps => innerCrossings steps
  | steps => crossings steps

/-- What it takes to phrase a constraint: the labels on the way are legal, and the constraint is
read as a predicate that needs no parentheses and, with the quantifiers over containers inside the
value, is not nested too deep. -/
structure Occurrence.Sound (occurrence : Occurrence) : Prop where
  steps : Step.Legal occurrence.steps
  reads : ∃ predicate, occurrence.constraint.Reads predicate
  bare : ∀ predicate, occurrence.constraint.Reads predicate → predicate.Bare .readable
  shallow : ∀ predicate, occurrence.constraint.Reads predicate →
    predicate.nesting + Step.innerCrossings occurrence.steps ≤ maxNesting

namespace Path

/-- The condition is the printed phrase of the constraint, and speaks about `self` no more. -/
def Phrases (path : Path) (occurrence : Occurrence) (condition : Condition) : Prop :=
  ∃ predicate text, occurrence.constraint.Reads predicate ∧
    (path.phrase occurrence.steps predicate).render? = .ok (some text) ∧
    mentions "self" (path.phrase occurrence.steps predicate) = false ∧
    condition = some (.text text)

/-- The condition is read as a predicate that becomes the phrase of the constraint when `self` is
replaced by the path. -/
def Rephrases (path : Path) (occurrence : Occurrence) (condition : Condition) : Prop :=
  ∃ predicate relative, occurrence.constraint.Reads predicate ∧ condition.Reads relative ∧
    relative.Bare .readable ∧
    subst "self" path.tree relative = path.phrase occurrence.steps predicate

/-- How far conditions have come below a schema. -/
def Conveys (path : Path) (schema : Schema) : Occurrence → Condition → Prop :=
  match schema.record? with
  | none => path.Phrases
  | some _ => path.Rephrases

end Path

/-! ## Sound occurrences -/

theorem Step.innerCrossings_le (steps : List Step) : innerCrossings steps ≤ crossings steps := by
  induction steps with
  | nil => exact Nat.le_refl 0
  | cons step steps ih =>
    cases step with
    | field label => exact Nat.le_refl _
    | item => exact Nat.le_succ_of_le ih

namespace Occurrence.Sound

variable {occurrence : Occurrence}

theorem of_item (sound : (occurrence.after .item).Sound) : occurrence.Sound where
  steps label member := sound.steps label (.tail _ member)
  reads := sound.reads
  bare := sound.bare
  shallow := sound.shallow

theorem label {label : String} (sound : (occurrence.after (.field label)).Sound) :
    Lexicon.ascii.label label :=
  sound.steps label (.head _)

theorem shallow_of_field {label : String} (sound : (occurrence.after (.field label)).Sound)
    (predicate : Expr) (reads : occurrence.constraint.Reads predicate) :
    predicate.nesting + Step.crossings occurrence.steps ≤ maxNesting :=
  sound.shallow predicate reads

theorem of_field {label : String} (sound : (occurrence.after (.field label)).Sound) :
    occurrence.Sound where
  steps label member := sound.steps label (.tail _ member)
  reads := sound.reads
  bare := sound.bare
  shallow predicate reads :=
    (Nat.add_le_add_left (Step.innerCrossings_le _) _).trans
      (sound.shallow_of_field predicate reads)

end Occurrence.Sound

/-! ## One change of subject -/

variable {condition : Condition} {path : Path} {api : Api} {predicate : Expr} {source : String}
  {levels : Nat}

theorem Condition.about_of_reads {relative new : Expr} {subject text : String}
    (reads : condition.Reads relative) (named : new.render? = .ok (some subject))
    (rendered : (Expr.subst "self" new relative).render? = .ok (some text)) :
    condition.about subject = .ok (some (.text text)) := by
  obtain ⟨source, rfl, parsed⟩ := reads
  rw [Expr.render?_subst named] at rendered
  simp [Condition.about, Condition.asText, Label.asText, Expr.changeSubject, parsed, rendered]

namespace Path

variable {path : Path} {occurrence : Occurrence} {condition : Condition}

theorem rephrases_own {constraint : Condition} (sound : (Occurrence.mk [] constraint).Sound) :
    path.Rephrases ⟨[], constraint⟩ constraint := by
  obtain ⟨predicate, reads⟩ := sound.reads
  exact ⟨predicate, predicate, reads, reads, sound.bare predicate reads, rfl⟩

theorem Rephrases.about (rephrases : path.Rephrases occurrence condition) (legal : path.Legal)
    (sound : occurrence.Sound) :
    ∃ result, condition.about path.text = .ok result ∧ path.Phrases occurrence result := by
  obtain ⟨predicate, relative, given, reads, bare, same⟩ := rephrases
  have barePhrase := legal.bare_phrase sound.steps (sound.bare predicate given)
  obtain ⟨text, rendered, _⟩ := written_of_bare _ barePhrase
  refine ⟨some (.text text), ?_, predicate, text, given, rendered,
    legal.mentions_phrase sound.steps predicate, rfl⟩
  exact about_of_reads reads path.render?_tree (same ▸ rendered)

/-- A phrase that is read again does not depend on what `self` stands for. -/
theorem Phrases.rephrases (phrases : path.Phrases occurrence condition) (legal : path.Legal)
    (sound : occurrence.Sound)
    (shallow : ∀ predicate, occurrence.constraint.Reads predicate →
      predicate.nesting + Step.crossings occurrence.steps ≤ maxNesting) :
    path.Rephrases occurrence condition := by
  obtain ⟨predicate, text, given, rendered, noSelf, rfl⟩ := phrases
  have barePhrase := legal.bare_phrase sound.steps (sound.bare predicate given)
  have depth : (path.phrase occurrence.steps predicate).nesting ≤ maxNesting := by
    rw [nesting_phrase]
    exact shallow predicate given
  obtain ⟨printed, alsoRendered, parsed⟩ := parse_of_bare barePhrase depth
  have sameText : printed = text := by
    rw [rendered] at alsoRendered
    cases alsoRendered
    rfl
  exact ⟨predicate, _, given, ⟨text, rfl, sameText ▸ parsed⟩, barePhrase,
    subst_of_not_mentions _ noSelf⟩

theorem Conveys.rephrases {schema : Schema} (conveys : path.Conveys schema occurrence condition)
    (legal : path.Legal) (sound : occurrence.Sound)
    (shallow : ∀ predicate, occurrence.constraint.Reads predicate →
      predicate.nesting + Step.crossings occurrence.steps ≤ maxNesting) :
    path.Rephrases occurrence condition := by
  cases schema with
  | reference target => exact Phrases.rephrases conveys legal sound shallow
  | anonymous definition => exact conveys
  | named type => exact conveys

theorem named_self {label : String} (isLabel : Lexicon.ascii.label label) :
    (Path.mk "self" [label]).Named := by
  have root : Lexicon.ascii.label "self" := by decide
  refine ⟨root, ?_⟩
  intro other member
  rw [mem_singleton.mp member]
  exact isLabel

theorem subst_self_field (path : Path) (label : String) :
    subst "self" path.tree (Path.mk "self" [label]).tree = (path.field label).tree := by
  rw [tree_field]
  simp [tree, subst]

theorem Rephrases.about_field {label : String}
    (rephrases : (path.field label).Rephrases occurrence condition)
    (sound : (occurrence.after (.field label)).Sound) :
    ∃ result, condition.about ("self." ++ label) = .ok result ∧
      path.Rephrases (occurrence.after (.field label)) result := by
  obtain ⟨predicate, relative, given, reads, bare, same⟩ := rephrases
  have place := named_self sound.label
  have bareMoved : (subst "self" (Path.mk "self" [label]).tree relative).Bare .readable :=
    bare_subst place.bare_tree.1 place.bare_tree.2 relative bare
  have flat : (Path.mk "self" [label]).tree.nesting = 0 := nesting_tree _
  have depth : (subst "self" (Path.mk "self" [label]).tree relative).nesting ≤ maxNesting := by
    have depthPhrase := sound.shallow_of_field predicate given
    rw [← nesting_phrase (path.field label), ← same, nesting_subst (nesting_tree _)] at depthPhrase
    rw [nesting_subst flat]
    exact depthPhrase
  obtain ⟨text, rendered, parsed⟩ := parse_of_bare bareMoved depth
  refine ⟨some (.text text), ?_, predicate, _, given, ⟨text, rfl, parsed⟩, bareMoved, ?_⟩
  · have named : (Path.mk "self" [label]).tree.render? = .ok (some ("self." ++ label)) :=
      render?_tree ⟨"self", [label]⟩
    exact about_of_reads reads named rendered
  · rw [subst_subst, subst_self_field, same]
    rfl

theorem Legal.render?_quantifier (legal : path.Legal) {body : Expr} {text : String}
    (bare : body.Bare .readable) (rendered : body.render? = .ok (some text)) :
    (call (.name "forall" .load) [path.item.tree, path.tree, body] []).render? =
      .ok (some ("forall(" ++ itemVariable path.text ++ ", " ++ path.text ++ ", " ++ text ++
        ")")) := by
  have variableText := path.item.render?_tree
  rw [legal.text_item] at variableText
  have items : Forall₂ Written [path.item.tree, path.tree, body]
      [itemVariable path.text, path.text, text] :=
    .cons (written_of_render? legal.item.bare_tree.1 variableText)
      (.cons (written_of_render? legal.bare_tree.1 path.render?_tree)
        (.cons (written_of_render? bare rendered) .nil))
  have closed : ∀ item ∈ [itemVariable path.text, path.text, text],
      item.toList ≠ [] ∧ lastIs item '(' = false := closed_of_written .round items
  have isOpen : lastIs "forall(" '(' = true := by decide
  have listed : (appendItems '(' "forall(" [itemVariable path.text, path.text, text]).toList =
      _ := toList_appendItems closed "forall(" isOpen
  have written : appendItems '(' "forall(" [itemVariable path.text, path.text, text] =
      "forall(" ++ itemVariable path.text ++ ", " ++ path.text ++ ", " ++ text := by
    rw [← String.toList_inj, listed]
    simp [sequenceText, tailText]
  simp [render?, renderAll, needed, variableText, render?_tree, rendered, written]

theorem Phrases.forAll (phrases : path.item.Phrases occurrence condition) (legal : path.Legal)
    (sound : (occurrence.after .item).Sound) :
    ∃ result, condition.forAll (itemVariable path.text) path.text = .ok result ∧
      path.Phrases (occurrence.after .item) result := by
  obtain ⟨predicate, text, given, rendered, _, rfl⟩ := phrases
  refine ⟨_, rfl, predicate, _, given, ?_, legal.mentions_phrase sound.steps predicate, rfl⟩
  have bareItem := legal.item.bare_phrase sound.of_item.steps (sound.bare predicate given)
  exact legal.render?_quantifier bareItem rendered

end Path

/-! ## All conditions of a type -/

namespace Schema

variable (api : Api) (fuel : Nat) (place : String)

theorem constraintsAt_record {schema : Schema} {definition : TypeDef}
    (isRecord : schema.record? = some definition) :
    constraintsAt api (fuel + 1) (some schema) place = (do
      let ofFields ← definition.fields.mapM fun field => do
        let name ← field.name.asText
        let inner ← constraintsAt api fuel (some field.type.schema) (place ++ "." ++ name)
        inner.mapM (about ("self." ++ name))
      return definition.constraints ++ ofFields.flatten) := by
  cases schema with
  | reference target => cases isRecord
  | anonymous => cases isRecord; rfl
  | named => cases isRecord; rfl

theorem constraintsAt_custom (name : Doc) :
    constraintsAt api (fuel + 1) (some (.reference (.custom name))) place =
      constraintsAt api fuel (api.lookup name) place >>= (·.mapM (about place)) :=
  rfl

theorem constraintsAt_container (kind : Container) (item : TypeRef) :
    constraintsAt api (fuel + 1) (some (.reference (.container kind item))) place =
      constraintsAt api fuel (some (.reference item)) (itemVariable place) >>=
        (·.mapM (forAll (itemVariable place) place)) :=
  rfl

end Schema

/-- What the walk through a type finds below a path. -/
def Path.Finds (path : Path) (api : Api) (fuel : Nat) (schema : Schema)
    (occurrences : List Occurrence) : Prop :=
  ∃ conditions, Schema.constraintsAt api fuel (some schema) path.text = .ok conditions ∧
    Forall₂ (path.Conveys schema) occurrences conditions

theorem Path.exists_of_listsFields (legal : path.Legal) {fuel : Nat} {fields : List Field}
    {below : List Occurrence} (listed : api.ListsFields fields below)
    (sound : ∀ occurrence ∈ below, occurrence.Sound)
    (labels : ∀ field ∈ fields, ∃ label, field.name = .text label ∧ Lexicon.ascii.label label)
    (walk : ∀ field ∈ fields, ∀ label occurrences, (path.field label).Legal →
      api.Lists field.type.schema
      occurrences → (∀ occurrence ∈ occurrences, occurrence.Sound) →
        (path.field label).Finds api fuel
      field.type.schema occurrences) :
    ∃ conditions,
      (fields.mapM fun field => do
        let name ← field.name.asText
        let inner ← Schema.constraintsAt api fuel (some field.type.schema)
          (path.text ++ "." ++ name)
        inner.mapM (about ("self." ++ name))) = .ok conditions ∧
      Forall₂ path.Rephrases below conditions.flatten := by
  induction fields generalizing below with
  | nil =>
    cases listed
    exact ⟨[], rfl, .nil⟩
  | cons field rest ih =>
    cases listed with
    | @cons _ label _ occurrences others name first later =>
      have legalField : (path.field label).Legal := by
        obtain ⟨given, same, isLabel⟩ := labels field mem_cons_self
        rw [name] at same
        cases same
        exact legal.field isLabel
      have soundHere : ∀ occurrence ∈ occurrences, (occurrence.after (.field label)).Sound := by
        intro occurrence member
        exact sound _ (mem_append_left _ (mem_map_of_mem member))
      obtain ⟨inner, walked, conveyed⟩ :=
        walk field mem_cons_self label occurrences legalField first
          fun occurrence member => (soundHere occurrence member).of_field
      have move : ∀ occurrence ∈ occurrences, ∀ condition,
          (path.field label).Conveys field.type.schema occurrence condition →
          ∃ result, condition.about ("self." ++ label) = .ok result ∧
            path.Rephrases (occurrence.after (.field label)) result := by
        intro occurrence member condition conveys
        have soundField := soundHere occurrence member
        have rephrases :=
          conveys.rephrases legalField soundField.of_field soundField.shallow_of_field
        exact rephrases.about_field soundField
      obtain ⟨moved, movedAll, rephrased⟩ := exists_mapM conveyed move
      obtain ⟨conditions, walkedRest, rephrasedRest⟩ := ih later
        (fun occurrence member => sound occurrence (mem_append_right _ member))
        (fun field declared => labels field (mem_cons_of_mem _ declared))
        (fun field declared => walk field (mem_cons_of_mem _ declared))
      refine ⟨moved :: conditions, ?_, ?_⟩
      · have named : field.name.asText = .ok label := by rw [name]; rfl
        rw [Path.text_field] at walked
        simp [mapM_cons, named, walked, movedAll, walkedRest]
      · rw [flatten_cons]
        exact rel_append (forall₂_map_left_iff.mpr rephrased) rephrasedRest

/-- The walk through a type finds every occurrence of a constraint, in order. -/
theorem Path.finds_of_lists (dataTypes : ∀ type ∈ api.dataTypes, type.definition.Legible)
    {bound : Nat} {schema : Schema} {occurrences : List Occurrence} (legal : path.Legal)
    (within : api.Within bound schema) (legible : schema.Legible) (labelled : api.Labelled schema)
    (listed : api.Lists schema occurrences) (sound : ∀ occurrence ∈ occurrences, occurrence.Sound) :
    path.Finds api (bound + 1) schema occurrences := by
  induction bound generalizing path schema occurrences with
  | zero => exact within.elim
  | succ bound ih =>
    cases listed with
    | @record _ definition below isRecord fields =>
      have labels := labelled schema definition .refl isRecord
      have walk : ∀ field ∈ definition.fields, ∀ label occurrences, (path.field label).Legal →
          api.Lists field.type.schema occurrences →
          (∀ occurrence ∈ occurrences, occurrence.Sound) →
          (path.field label).Finds api (bound + 1) field.type.schema occurrences := by
        intro field declared label occurrences legalField listed sound
        have step : api.Leads schema field.type.schema := .field isRecord declared
        exact ih legalField (within _ step) (step.legible dataTypes legible) (labelled.next step)
          listed sound
      obtain ⟨conditions, walked, rephrased⟩ := Path.exists_of_listsFields legal fields
        (fun occurrence member => sound occurrence (List.mem_append_right _ member))
        labels walk
      have own : List.Forall₂ path.Rephrases (definition.constraints.map (Occurrence.mk []))
          definition.constraints := by
        rw [List.forall₂_map_left_iff, List.forall₂_same]
        intro constraint declared
        exact rephrases_own (sound _ (List.mem_append_left _ (List.mem_map_of_mem declared)))
      refine ⟨definition.constraints ++ conditions.flatten, ?_, ?_⟩
      · rw [Schema.constraintsAt_record _ _ _ isRecord, walked]
        rfl
      · rw [Path.Conveys, isRecord]
        exact List.rel_append own rephrased
    | @name name type _ found below =>
      have step : api.Leads (.reference (.custom name)) (.named type) := .name found
      have leads : api.lookup name = some (.named type) := by rw [Api.lookup, found]
      obtain ⟨conditions, walked, conveyed⟩ := ih legal (within _ step)
        (step.legible dataTypes legible) (labelled.next step) below sound
      obtain ⟨results, moved, phrased⟩ :=
        exists_mapM conveyed fun occurrence member condition rephrases =>
          Path.Rephrases.about rephrases legal (sound occurrence member)
      refine ⟨results, ?_, phrased⟩
      rw [Schema.constraintsAt_custom, leads, walked]
      exact moved
    | @unknown name absent =>
      refine ⟨[], ?_, .nil⟩
      rcases lookup_of_dataType?_eq_none legible absent with nothing | self
      · simp [Schema.constraintsAt, nothing]
      · simp [Schema.constraintsAt, self, NamedTypeDef.api, NamedTypeDef.standIn]
    | @container kind item inner items =>
      have step : api.Leads (.reference (.container kind item)) (.reference item) := .item
      have soundAfter : ∀ occurrence ∈ inner, (occurrence.after .item).Sound :=
        fun occurrence member => sound _ (List.mem_map_of_mem member)
      obtain ⟨conditions, walked, conveyed⟩ := ih legal.item (within _ step)
        (step.legible dataTypes legible) (labelled.next step) items
        fun occurrence member => (soundAfter occurrence member).of_item
      obtain ⟨results, quantified, phrased⟩ :=
        exists_mapM conveyed fun occurrence member condition phrases =>
          Path.Phrases.forAll phrases legal (soundAfter occurrence member)
      rw [legal.text_item] at walked
      refine ⟨results, ?_, List.forall₂_map_left_iff.mpr phrased⟩
      rw [Schema.constraintsAt_container, walked]
      exact quantified
    | primitive => exact ⟨[], rfl, .nil⟩

/-! ## Conditions of operations -/

/-- A constraint is the text of a predicate that needs no parentheses. -/
def Condition.Returns (condition : Condition) : Prop :=
  ∃ predicate, condition.Reads predicate ∧ predicate.Bare .readable

theorem Condition.Reads.unique {other : Expr} (reads : condition.Reads predicate)
    (alsoReads : condition.Reads other) : predicate = other := by
  obtain ⟨source, rfl, parsed⟩ := reads
  obtain ⟨_, same, alsoParsed⟩ := alsoReads
  cases same
  rw [parsed] at alsoParsed
  cases alsoParsed
  rfl

/-- What it takes to phrase all constraints below a type: no type leads back to itself, fields have
legal names, constraints are given back when they are printed and read, and none is nested too deep
with the quantifiers over containers inside the value. -/
structure Api.Phrasable (api : Api) (start : Schema) : Prop where
  acyclic : api.Acyclic start
  labelled : api.Labelled start
  returns : ∀ occurrence, api.Occurs start occurrence → occurrence.constraint.Returns
  shallow : ∀ occurrence, api.Occurs start occurrence →
    ∀ predicate, occurrence.constraint.Reads predicate →
      predicate.nesting + Step.innerCrossings occurrence.steps ≤ maxNesting

theorem Api.Phrasable.sound {start : Schema} (phrasable : api.Phrasable start)
    {occurrence : Occurrence} (occurs : api.Occurs start occurrence) : occurrence.Sound := by
  obtain ⟨predicate, reads, bare⟩ := phrasable.returns occurrence occurs
  exact {
    steps := occurs.legal phrasable.labelled
    reads := ⟨predicate, reads⟩
    bare := fun other alsoReads => reads.unique alsoReads ▸ bare
    shallow := phrasable.shallow occurrence occurs }

/-- Conditions that stand for the occurrences of constraints below a reference, one by one. -/
def Api.Phrased (api : Api) (place : String) (target : TypeRef) (conditions : List Condition) :
    Prop :=
  ∃ occurrences, api.Lists (.reference target) occurrences ∧
    List.Forall₂ (Path.mk place []).Phrases occurrences conditions

/-- The walk through what a reference leads to gives the phrases of all constraints. -/
theorem Api.phrased_constraintsAt (dataTypes : ∀ type ∈ api.dataTypes, type.definition.Legible)
    {target : TypeRef} {link : Doc} (legible : (DataType.reference target link).Legible)
    (phrasable : api.Phrasable (.reference target)) {place : String}
    (legal : (Path.mk place []).Legal) :
    ∃ conditions, api.constraintsAt (.reference target link) place = .ok conditions ∧
      api.Phrased place target conditions := by
  obtain ⟨bound, reach, within⟩ := within_reach phrasable.acyclic
  obtain ⟨occurrences, listed⟩ := exists_lists within phrasable.labelled
  obtain ⟨conditions, walked, phrased⟩ := Path.finds_of_lists dataTypes legal within legible.schema
    phrasable.labelled listed
    fun occurrence member => phrasable.sound (listed.occurs occurrence member)
  refine ⟨conditions, ?_, occurrences, listed, phrased⟩
  rw [constraintsAt, DataType.schema, reach]
  exact walked

theorem Operation.legible_of_accepted {document : Doc} (accepted : ofDoc document = .ok api)
    {resource : Resource} (inApi : resource ∈ api.resources) {operation : Operation}
    (inResource : operation ∈ resource.operations) :
    (∀ type ∈ api.dataTypes, type.definition.Legible) ∧
      (∀ input, operation.input = some input → ∀ type, input.type = some type → type.Legible) ∧
      ∀ output, operation.output = some output → ∀ type, output.type = some type →
        type.Legible := by
  obtain ⟨_, readFrom⟩ := exists_readFrom accepted inApi inResource
  have dataTypes := (readFrom_of_readParts (ofDoc_eq_ok.mp accepted).1).dataTypes
  refine ⟨dataTypes, fun input given => (readFrom.apart.input input given).type,
    fun output given => ?_⟩
  obtain ⟨value, -, readValue⟩ := readFrom.output output given
  exact Output.legible_type_of_read readValue

/-- The conditions of an operation follow the access paths of its input and output: its own
conditions come first, unchanged, and then the phrases of all constraints that occur below the type,
in order. -/
theorem Operation.conditions_follow_paths {document : Doc} {api : Api}
    (accepted : Api.ofDoc document = .ok api) {resource : Resource}
    (inApi : resource ∈ api.resources) {operation : Operation}
    (inResource : operation ∈ resource.operations) :
    (∀ input target link, operation.input = some input →
      input.type = some (.reference target link) → api.Phrasable (.reference target) →
      ∃ conditions, operation.preConditions api = .ok (operation.requires ++ conditions) ∧
        api.Phrased "input" target conditions) ∧
    (∀ output target link, operation.output = some output →
      output.type = some (.reference target link) → api.Phrasable (.reference target) →
      ∃ conditions, operation.postConditions api = .ok (operation.ensures ++ conditions) ∧
        api.Phrased "output" target conditions) := by
  obtain ⟨dataTypes, inputs, outputs⟩ := Operation.legible_of_accepted accepted inApi inResource
  constructor
  · intro input target link given uses phrasable
    have legal : (Path.mk "input" []).Legal := ⟨⟨by decide, by simp⟩, by decide⟩
    obtain ⟨conditions, walked, phrased⟩ :=
      Api.phrased_constraintsAt dataTypes (inputs input given _ uses) phrasable legal
    exact ⟨conditions, by simp [Operation.preConditions, given, uses, walked], phrased⟩
  · intro output target link given uses phrasable
    have legal : (Path.mk "output" []).Legal := ⟨⟨by decide, by simp⟩, by decide⟩
    obtain ⟨conditions, walked, phrased⟩ :=
      Api.phrased_constraintsAt dataTypes (outputs output given _ uses) phrasable legal
    exact ⟨conditions, by simp [Operation.postConditions, given, uses, walked], phrased⟩

/-- A market whose orders have lines, each with a price that is described on the spot. -/
def Doc.market : Doc :=
  .object [("name", "market"), ("base", "/"),
    ("resources", .list [.object [("name", "orders"), ("path", "/orders"),
      ("operations", .list [.object [("name", "place"), ("method", "POST"),
        ("input", .object [("type", "list(Order)")]),
        ("output", .object [("status", .int 201)]),
        ("requires", .list ["known(input)"])]])]]),
    ("dataTypes", .list [
      .object [("name", "Order"), ("constraints", .list ["size(self.lines) > 0"]),
        ("fields", .list [.object [("name", "lines"), ("type", "list(Line)")]])],
      .object [("name", "Line"), ("constraints", .list ["self.price.net > 0"]),
        ("fields", .list [.object [("name", "price"), ("type", .object [
          ("fields", .list [.object [("name", "net"), ("type", "int")]]),
          ("constraints", .list ["self.net < 100"])])]])]])]

namespace Api.market

def place : Operation :=
  { name := "place", method := "POST"
    input := some { type := some (.reference (.container .list (.custom "Order")) .null) }
    output := some { status := .int 201 }, requires := [some "known(input)"] }

def orders : Resource :=
  { name := "orders", path := "/orders", operations := [place] }

/-- The constraints of the market with the places where they occur in the orders. -/
def occurrences : List Occurrence :=
  [⟨[.item], some "size(self.lines) > 0"⟩,
    ⟨[.item, .field "lines", .item], some "self.price.net > 0"⟩,
    ⟨[.item, .field "lines", .item, .field "price"], some "self.net < 100"⟩]

end Api.market

def Api.market : Api :=
  { name := "market", base := ["/"], resources := [market.orders]
    dataTypes := [
      { name := "Order"
        definition := ⟨[⟨"lines", none, .bool false,
          .reference (.container .list (.custom "Line")) .null⟩],
          [some "size(self.lines) > 0"], none⟩ },
      { name := "Line"
        definition := ⟨[⟨"price", none, .bool false,
          .inline ⟨[⟨"net", none, .bool false, .reference (.primitive .int) .null⟩],
            [some "self.net < 100"], none⟩⟩],
          [some "self.price.net > 0"], none⟩ }] }

theorem Api.market_accepted : ofDoc Doc.market = .ok market := by
  have read : readParts Doc.market = .ok market := by cbv
  have valid : market.validate.isOk = true := by decide +kernel
  cases checked : market.validate with
  | error fault => rw [checked] at valid; cases valid
  | ok _ => rw [ofDoc, read, ok_bind, checked]; rfl

theorem Condition.reads_of_bare (bare : predicate.Bare .ascii)
    (shallow : predicate.nesting ≤ maxNesting) (rendered : predicate.render? = .ok (some source)) :
    Reads (some (.text source)) predicate :=
  ⟨source, rfl, parse_of_render? bare.readable shallow rendered⟩

theorem Occurrence.sound_of_bare {steps : List Step} (legal : Step.Legal steps)
    (bare : predicate.Bare .ascii)
    (shallow : predicate.nesting + Step.innerCrossings steps ≤ maxNesting)
    (rendered : predicate.render? = .ok (some source)) :
    (Occurrence.mk steps (some (.text source))).Sound := by
  have reads := reads_of_bare bare ((Nat.le_add_right _ _).trans shallow) rendered
  exact {
    steps := legal
    reads := ⟨predicate, reads⟩
    bare := fun other alsoReads => reads.unique alsoReads ▸ bare.readable
    shallow := fun other alsoReads => reads.unique alsoReads ▸ shallow }

theorem Api.market_phrasable :
    market.Phrasable (.reference (.container .list (.custom "Order"))) := by
  have listed : market.Listed 9 (.reference (.container .list (.custom "Order")))
      market.occurrences := listed_of_list? (by decide)
  have each : ∀ occurrence ∈ market.occurrences, ∃ predicate : Expr,
      occurrence.constraint.Reads predicate ∧ predicate.Bare .ascii ∧ predicate.nesting ≤ 1 := by
    simp only [market.occurrences, forall_mem_cons]
    refine ⟨⟨.compare (.call (.name "size" .load) [.access (.name "self" .load) "lines" .load] [])
        [.greater] [.number (.int 0)], ?_⟩,
      ⟨.compare (.access (.access (.name "self" .load) "price" .load) "net" .load) [.greater]
        [.number (.int 0)], ?_⟩,
      ⟨.compare (.access (.name "self" .load) "net" .load) [.less] [.number (.int 100)], ?_⟩, by
        simp⟩
    all_goals exact ⟨reads_of_bare (by decide) (by decide) rfl, by decide, by decide⟩
  constructor
  · exact acyclic_of_within listed.within
  · exact listed.labelled
  · intro occurrence occurs
    obtain ⟨predicate, reads, bare, _⟩ := each occurrence (occurs.mem listed.lists)
    exact ⟨predicate, reads, bare.readable⟩
  · intro occurrence occurs predicate reads
    have member := occurs.mem listed.lists
    obtain ⟨_, alsoReads, _, shallow⟩ := each occurrence member
    have few : ∀ occurrence ∈ market.occurrences, Step.innerCrossings occurrence.steps ≤ 1 := by
      decide
    cases reads.unique alsoReads
    have limit : 1 + 1 ≤ maxNesting := by decide
    exact (Nat.add_le_add shallow (few occurrence member)).trans limit

theorem Api.market_conditions_follow_paths :
    Api.ofDoc Doc.market = .ok Api.market ∧
      Api.market.Phrasable (.reference (.container .list (.custom "Order"))) ∧
      ∃ conditions, Api.market.place.preConditions Api.market =
          .ok (some (.text "known(input)") :: conditions) ∧
        Api.market.Phrased "input" (.container .list (.custom "Order")) conditions :=
  ⟨Api.market_accepted, Api.market_phrasable,
    (Operation.conditions_follow_paths Api.market_accepted List.mem_cons_self
      List.mem_cons_self).1 _ _ .null rfl rfl Api.market_phrasable⟩

/-! ## Conditions that are nested too deep -/

def Doc.lines (constraint : String) (field : String := "lines") : Doc :=
  .object [("name", "orders"),
    ("resources", .list [.object [("name", "order"), ("path", "/order"),
      ("operations", .list [.object [("name", "place"), ("method", "POST"),
        ("input", .object [("type", "Order")]),
        ("output", .object [("status", .int 201)])]])]]),
    ("dataTypes", .list [
      .object [("name", "Order"),
        ("fields", .list [.object [("name", .text field), ("type", "list(Line)")]])],
      .object [("name", "Line"), ("fields", .list []),
        ("constraints", .list [.text constraint])]])]

namespace Api.lines

def place : Operation :=
  { name := "place", method := "POST"
    input := some { type := some (.reference (.custom "Order") .null) }
    output := some { status := .int 201 } }

def order : Resource :=
  { name := "order", path := "/order", operations := [place] }

def orderType (field : String := "lines") : NamedTypeDef :=
  { name := "Order"
    definition := ⟨[⟨.text field, none, .bool false,
      .reference (.container .list (.custom "Line")) .null⟩], [], none⟩ }

end Api.lines

def Api.lines (constraint : String) (field : String := "lines") : Api :=
  { name := "orders", resources := [lines.order]
    dataTypes := [lines.orderType field,
      { name := "Line", definition := ⟨[], [some (.text constraint)], none⟩ }] }

theorem Api.lines_accepted (constraint : String) (field : String := "lines") :
    ofDoc (Doc.lines constraint field) = .ok (lines constraint field) := by
  cbv

theorem Api.lines_preConditions {constraint : String}
    (kept : Condition.about "_item" (some (.text constraint)) = .ok (some (.text constraint)))
    (unread : Expr.parse ("forall(_item, input.lines, " ++ constraint ++ ")") =
      .error .badExpression) :
    lines.place.preConditions (lines constraint) = .error .badExpression := by
  have reach : (lines constraint).reach (.reference (.custom "Order")) = 8 := rfl
  have overLine : Schema.constraintsAt (lines constraint) 5
      (some (.reference (.custom "Line"))) "_item" = .ok [some (.text constraint)] := by
    have own : Schema.constraintsAt (lines constraint) 4
        ((lines constraint).lookup (.text "Line")) "_item" = .ok [some (.text constraint)] := rfl
    rw [Schema.constraintsAt_custom, own]
    simp [kept]
  have overLines : Schema.constraintsAt (lines constraint) 6
      (some (.reference (.container .list (.custom "Line")))) "input.lines" =
        .ok [some (.text ("forall(_item, input.lines, " ++ constraint ++ ")"))] := by
    have variableName : itemVariable "input.lines" = "_item" := by decide
    rw [Schema.constraintsAt_container, variableName, overLine]
    rfl
  have overOrder : Schema.constraintsAt (lines constraint) 7
      ((lines constraint).lookup (.text "Order")) "input" = .error .badExpression := by
    have found : (lines constraint).lookup (.text "Order") =
        some (.named lines.orderType) := rfl
    rw [found, Schema.constraintsAt_record _ _ _ rfl]
    simp [lines.orderType, Label.asText, DataType.schema, overLines, Condition.about,
      Condition.asText, Expr.changeSubject, unread]
  have whole : (lines constraint).constraintsAt (.reference (.custom "Order") .null)
      "input" = .error .badExpression := by
    rw [constraintsAt, DataType.schema, reach, Schema.constraintsAt_custom, overOrder]
    rfl
  simp [Operation.preConditions, lines.place, whole]

/-- A quantifier over a tower of as many brackets as may be nested cannot be read. -/
theorem Expr.parse_forall_towerText (full : levels + 1 = maxNesting) :
    parse ("forall(_item, input.lines, " ++ towerText levels ++ ")") =
      .error .badExpression := by
  have spelled : ("forall(_item, input.lines, " ++ towerText levels ++ ")").toList =
      ['f', 'o', 'r', 'a', 'l', 'l'] ++ '(' :: (['_', 'i', 't', 'e', 'm'] ++ ',' :: ' ' ::
        (['i', 'n', 'p', 'u', 't'] ++ '.' :: (['l', 'i', 'n', 'e', 's'] ++ ',' :: ' ' ::
          (replicate (levels + 1) '[' ++
            (replicate (levels + 1) ']' ++ [')']))))) := by
    simp [towerText]
  have deep : Undivided ['('] (replicate (levels + 1) '[' ++
      (replicate (levels + 1) ']' ++ [')'])) :=
    undivided_deep ((Nat.add_comm 1 levels).trans full)
  have afterComma {rest : List Char} : Stops true (',' :: rest) := by simp [Stops]
  have afterPoint {rest : List Char} : Stops true ('.' :: rest) := by simp [Stops]
  have afterOpening {rest : List Char} : Stops true ('(' :: rest) := by simp [Stops]
  refine parse_of_undivided ?_ ⟨'f', _, spelled, rfl⟩ ?_
  · have clean (text : String) (all : text.toList.all (fun character =>
        decide (character ≠ '\r' ∧ character ≠ Char.ofNat 0)) = true) {character : Char}
        (member : character ∈ text.toList) : character ≠ '\r' ∧ character ≠ Char.ofNat 0 :=
      forall_mem_of_all all character member
    intro character member
    simp only [String.toList_append, mem_append] at member
    rcases member with (start | inside) | last
    · exact clean _ (by decide) start
    · exact clean_towerText inside
    · exact clean _ (by decide) last
  · rw [spelled]
    -- from the last word back to the first
    have label : Undivided ['('] (['l', 'i', 'n', 'e', 's'] ++ ',' :: ' ' :: _) :=
      lexes_word (forall_mem_of_all (by decide)) rfl afterComma (lexes_comma (lexes_blank deep))
    have place : Undivided ['('] (['i', 'n', 'p', 'u', 't'] ++ '.' :: _) :=
      lexes_word (forall_mem_of_all (by decide)) rfl afterPoint (lexes_point rfl rfl label)
    have item : Undivided ['('] (['_', 'i', 't', 'e', 'm'] ++ ',' :: ' ' :: _) :=
      lexes_word (forall_mem_of_all (by decide)) rfl afterComma (lexes_comma (lexes_blank place))
    exact lexes_word (forall_mem_of_all (by decide)) rfl afterOpening
      (lexes_opening .round (by decide) item)

theorem Expr.rename_tower (old new : String) (levels : Nat) :
    (tower levels).rename old new = tower levels := by
  induction levels with
  | zero => rfl
  | succ levels ih => simp [tower, rename, renameAll, ih]

theorem Condition.about_towerText (subject : String) (room : levels < maxNesting) :
    about subject (some (.text (towerText levels))) =
      .ok (some (.text (towerText levels))) := by
  simp [about, asText, Label.asText, changeSubject, parse_towerText_of_lt room, rename_tower,
    render?_tower]

/-- A constraint of as many brackets as may be nested is read and printed as it is, but not once a
quantifier is around it. -/
theorem Api.lines_beyond_limit :
    Api.ofDoc (Doc.lines (Expr.towerText 199)) = .ok (Api.lines (Expr.towerText 199)) ∧
      (Api.lines (Expr.towerText 199)).Acyclic (.reference (.custom "Order")) ∧
      (Api.lines (Expr.towerText 199)).Labelled (.reference (.custom "Order")) ∧
      (Expr.parse (Expr.towerText 199) = .ok (Expr.tower 199) ∧
        (Expr.tower 199).render? = .ok (some (Expr.towerText 199))) ∧
      Api.lines.place.preConditions (Api.lines (Expr.towerText 199)) = .error .badExpression := by
  have listed (constraint : String) :
      (Api.lines constraint).Listed 8 (.reference (.custom "Order"))
        [⟨[.field "lines", .item], some (.text constraint)⟩] := Api.listed_of_list? rfl
  have room : 199 < Lexer.maxNesting := by decide
  exact ⟨Api.lines_accepted _, Api.acyclic_of_within (listed _).within, (listed _).labelled,
    ⟨Expr.parse_towerText_of_lt room, Expr.render?_tower 199⟩,
    Api.lines_preConditions (Condition.about_towerText "_item" room)
      (Expr.parse_forall_towerText rfl)⟩

end ApiDescription
