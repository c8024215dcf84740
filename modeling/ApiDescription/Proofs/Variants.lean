import ApiDescription.Model.Randomizer
import ApiDescription.Proofs.Outcome

/-!
# What a random variant has in common with its original

A random variant of a description is written like the original, with another name, and with other
texts in the place of some conditions.  Only single conditions of operations change, and single
constraints of data types that an operation takes or gives directly; a data type may be reached by
several operations and change several times.  Main statement: at every other place the two documents
have the same value, so that keys, order and lengths stay.
-/

namespace ApiDescription

open Drawing List NamedTypeDef

/-! ## Lists that are related position by position -/

section Positions

variable {α β : Type} {left right : List α}

theorem length_eq_of_rel {Related : Nat → α → α → Prop}
    (items : ∀ position : Nat, Option.Rel (Related position) left[position]? right[position]?) :
    left.length = right.length := by
  have isSome_eq (position : Nat) : left[position]?.isSome = right[position]?.isSome := by
    have here := items position
    generalize left[position]? = item at here ⊢
    generalize right[position]? = other at here ⊢
    cases here <;> rfl
  have below (position : Nat) : position < left.length ↔ position < right.length := by
    simpa using Bool.eq_iff_iff.mp (isSome_eq position)
  have atLeft := below left.length
  have atRight := below right.length
  omega

variable {Related : α → α → Prop}

theorem rel_of_forall₂ (related : Forall₂ Related left right) (position : Nat) :
    Option.Rel Related left[position]? right[position]? := by
  induction related generalizing position with
  | nil => exact .none
  | cons first rest ih =>
    cases position with
    | zero => exact .some first
    | succ position => exact ih position

theorem rel_map {Result : β → β → Prop} {image : α → β}
    (each : ∀ item other, Related item other → Result (image item) (image other)) {position : Nat}
    (related : Option.Rel Related left[position]? right[position]?) :
    Option.Rel Result (left.map image)[position]? (right.map image)[position]? := by
  rw [getElem?_map, getElem?_map]
  generalize left[position]? = item at related ⊢
  generalize right[position]? = other at related ⊢
  cases related with
  | none => exact .none
  | some holds => exact .some (each _ _ holds)

end Positions

/-! ## Documents that agree outside some places -/

namespace Doc

/-- A step into a document. -/
inductive Step where
  | key (name : String)
  | item (position : Nat)
  deriving DecidableEq, Repr

def at? : Doc → List Step → Option Doc
  | document, [] => some document
  | .list items, .item position :: path => items[position]?.bind fun item => item.at? path
  | .object fields, .key name :: path => (fields.lookup name).bind fun value => value.at? path
  | _, _ :: _ => none

/-- A value without what is inside it: a list by its length, an object by its keys in order. -/
def outline : Doc → Doc
  | .list items => .list (items.map fun _ => .null)
  | .object fields => .object (fields.map fun field => (field.1, .null))
  | value => value

/-- On every path that does not pass one of the places, both documents have values of one outline,
or none. -/
def AgreeOutside (places : List Step → Prop) (left right : Doc) : Prop :=
  ∀ path, (∀ place, place <+: path → ¬ places place) →
    (left.at? path).map outline = (right.at? path).map outline

/-- The places of a part, seen from the part. -/
def after (places : List Step → Prop) (step : Step) : List Step → Prop :=
  fun path => places (step :: path)

/-- Fields with the same keys in the same order, whose values agree outside the places. -/
def FieldsAgree (places : List Step → Prop) (left right : Fields) : Prop :=
  Forall₂ (fun field other => field.1 = other.1 ∧
    AgreeOutside (after places (.key field.1)) field.2 other.2) left right

variable {places : List Step → Prop}

theorem AgreeOutside.refl (value : Doc) : AgreeOutside places value value :=
  fun _ _ => rfl

theorem AgreeOutside.free {left right : Doc} (here : places []) : AgreeOutside places left right :=
  fun _ outside => absurd here (outside [] nil_prefix)

theorem outside_after {step : Step} {path : List Step}
    (outside : ∀ place, place <+: step :: path → ¬ places place) :
    ∀ place, place <+: path → ¬ after places step place :=
  fun place inside => outside (step :: place) (cons_prefix_cons.mpr ⟨rfl, inside⟩)

theorem AgreeOutside.list {left right : List Doc}
    (items : ∀ position : Nat, Option.Rel (AgreeOutside (after places (.item position)))
      left[position]? right[position]?) :
    AgreeOutside places (.list left) (.list right) := by
  intro path outside
  cases path with
  | nil => simp [at?, outline, map_const', length_eq_of_rel items]
  | cons step path =>
    cases step with
    | key name => rfl
    | item position =>
      simp only [at?]
      have found := items position
      generalize left[position]? = item at found ⊢
      generalize right[position]? = other at found ⊢
      cases found with
      | none => rfl
      | some agree => exact agree path (outside_after outside)

theorem FieldsAgree.refl (fields : Fields) : FieldsAgree places fields fields :=
  forall₂_same.mpr fun _ _ => ⟨rfl, .refl _⟩

variable {left right : Fields}

theorem FieldsAgree.append {others others' : Fields} (first : FieldsAgree places left right)
    (second : FieldsAgree places others others') :
    FieldsAgree places (left ++ others) (right ++ others') :=
  rel_append first second

theorem FieldsAgree.single {key : String} {value other : Doc}
    (values : AgreeOutside (after places (.key key)) value other) :
    FieldsAgree places [(key, value)] [(key, other)] :=
  .cons ⟨rfl, values⟩ .nil

theorem FieldsAgree.lookup (fields : FieldsAgree places left right) (name : String) :
    Option.Rel (AgreeOutside (after places (.key name))) (left.lookup name)
      (right.lookup name) := by
  induction fields with
  | nil => exact .none
  | @cons field other left right values rest ih =>
    obtain ⟨key, value⟩ := field
    obtain ⟨_, value'⟩ := other
    obtain ⟨rfl, agree⟩ := values
    by_cases found : name = key
    · subst found
      simpa [lookup_cons] using agree
    · have differs : (name == key) = false := by simpa using found
      simpa [lookup_cons, differs] using ih

theorem AgreeOutside.object (fields : FieldsAgree places left right) :
    AgreeOutside places (.object left) (.object right) := by
  intro path outside
  cases path with
  | nil =>
    have keys : left.map Prod.fst = right.map Prod.fst := by
      induction fields with
      | nil => rfl
      | cons values rest ih => simp [values.1, ih]
    simpa [at?, outline, Function.comp_def] using congrArg (map fun key => (key, Doc.null)) keys
  | cons step path =>
    cases step with
    | item position => rfl
    | key name =>
      simp only [at?]
      have found := fields.lookup name
      generalize left.lookup name = value at found ⊢
      generalize right.lookup name = other at found ⊢
      cases found with
      | none => rfl
      | some agree => exact agree path (outside_after outside)

end Doc

/-! ## Variants of parts -/

/-- Conditions of an operation are replaced one by one. -/
def Operation.Varies (operation variant : Operation) : Prop :=
  ∃ requires ensures, requires.length = operation.requires.length ∧
    ensures.length = operation.ensures.length ∧ variant = { operation with requires, ensures }

def Resource.Varies (resource variant : Resource) : Prop :=
  ∃ operations, Forall₂ Operation.Varies resource.operations operations ∧
    variant = { resource with operations }

def NamedTypeDef.constrained (constraints : List Condition) (type : NamedTypeDef) : NamedTypeDef :=
  { type with definition := { type.definition with constraints } }

/-- A data type is the same, or its constraints are replaced one by one where they may be. -/
def NamedTypeDef.Varies (may : Prop) (type variant : NamedTypeDef) : Prop :=
  variant = type ∨
    may ∧ ∃ constraints, constraints.length = type.definition.constraints.length ∧
      variant = type.constrained constraints

/-- Data types vary one by one, and only at the positions that `openAt` gives. -/
def TypesVary (openAt : Nat → Prop) (types variants : List NamedTypeDef) : Prop :=
  ∀ position : Nat,
    Option.Rel (Varies (openAt position)) types[position]? variants[position]?

variable {may : Prop} {type variant : NamedTypeDef}

theorem NamedTypeDef.Varies.trans {other : NamedTypeDef} (first : Varies may type variant)
    (second : Varies may variant other) :
    Varies may type other := by
  rcases first with rfl | ⟨holds, constraints, length, rfl⟩
  · exact second
  · rcases second with rfl | ⟨-, others, lengthOthers, rfl⟩
    · exact .inr ⟨holds, constraints, length, rfl⟩
    · exact .inr ⟨holds, others, lengthOthers.trans length, rfl⟩

theorem NamedTypeDef.Varies.name_eq (varies : Varies may type variant) :
    variant.name = type.name := by
  rcases varies with rfl | ⟨-, constraints, -, rfl⟩ <;> rfl

namespace TypesVary

variable {openAt : Nat → Prop} {types variants others : List NamedTypeDef}

theorem refl (types : List NamedTypeDef) : TypesVary openAt types types := by
  intro position
  cases types[position]? with
  | none => exact .none
  | some type => exact .some (.inl rfl)

theorem trans (first : TypesVary openAt types variants)
    (second : TypesVary openAt variants others) :
    TypesVary openAt types others := by
  intro position
  have before := first position
  have behind := second position
  generalize types[position]? = type at before ⊢
  generalize variants[position]? = variant at before behind
  generalize others[position]? = other at behind ⊢
  cases before with
  | none => exact behind
  | some varies =>
    cases behind with
    | some next => exact .some (varies.trans next)

theorem map_name (vary : TypesVary openAt types variants) :
    variants.map (·.name) = types.map (·.name) := by
  refine ext_getElem? fun position => ?_
  rw [getElem?_map, getElem?_map]
  have here := vary position
  generalize types[position]? = type at here ⊢
  generalize variants[position]? = variant at here ⊢
  cases here with
  | none => rfl
  | some varies => exact congrArg some varies.name_eq

end TypesVary

/-! ## Drawing -/

namespace Drawing

/-- The work returns `value` when it starts with one script, and leaves the other. -/
def Returns {α : Type} (work : Drawing α) (script : Script) (value : α) (rest : Script) : Prop :=
  work.run script = .ok (value, rest)

variable {α β : Type} {script rest : Script}

variable {result : α}

@[simp] theorem returns_pure {value : α} :
    Returns (pure value) script result rest ↔ value = result ∧ script = rest := by
  simp [Returns]

@[simp] theorem returns_throw {fault : Fault} : ¬ Returns (throw fault) script result rest := by
  intro ran
  cases ran

theorem returns_bind {first : Drawing α} {next : α → Drawing β} {result : β} :
    Returns (first >>= next) script result rest ↔
      ∃ value middle, Returns first script value middle ∧
        Returns (next value) middle result rest := by
  simp [Returns, StateT.run_bind, Outcome.bind_eq_ok]

theorem length_of_mapM {work : α → Drawing β} {items : List α} {results : List β}
    (ran : Returns (items.mapM work) script results rest) : results.length = items.length := by
  induction items generalizing script results rest with
  | nil =>
    obtain ⟨rfl, -⟩ := returns_pure.mp (by simpa using ran)
    rfl
  | cons item items ih =>
    rw [mapM_cons] at ran
    obtain ⟨first, middle, -, ran⟩ := returns_bind.mp ran
    obtain ⟨others, after, ranOthers, ran⟩ := returns_bind.mp ran
    obtain ⟨rfl, -⟩ := returns_pure.mp ran
    simp [ih ranOthers]

theorem length_of_conditions {given results : List Condition}
    (ran : Returns (conditions given) script results rest) : results.length = given.length :=
  length_of_mapM ran

end Drawing

/-! ## One operation -/

theorem NamedTypeDef.setConstraints_eq_modify (name : Doc) (constraints : List Condition)
    (types : List NamedTypeDef) :
    setConstraints name constraints types =
      types.modify (types.findIdx fun type => type.name.same name) (constrained constraints) := by
  induction types with
  | nil => rfl
  | cons type rest ih =>
    by_cases found : type.name.same name
    · simp [setConstraints, found, constrained, findIdx_cons]
    · simp [setConstraints, found, ih, findIdx_cons]

def DataType.directName? : DataType → Option Doc
  | .reference (.custom name) _ => some name
  | _ => none

/-- The names of the data types that an operation takes or gives directly. -/
def Operation.directNames (operation : Operation) : List Doc :=
  ((operation.input.bind (·.type)).bind DataType.directName?).toList ++
    ((operation.output.bind (·.type)).bind DataType.directName?).toList

/-- The position of the data type of a name, when `names` are the names of all data types. -/
def positionOf (names : List Doc) (name : Doc) : Nat :=
  names.findIdx fun other => other.same name

theorem TypesVary.setConstraints {openAt : Nat → Prop} {types : List NamedTypeDef} {name : Doc}
    {constraints : List Condition}
    (lengths : ∀ type, types.find? (·.name.same name) = some type →
      constraints.length = type.definition.constraints.length)
    (isOpen : openAt (positionOf (types.map (·.name)) name)) :
    TypesVary openAt types (setConstraints name constraints types) := by
  intro position
  rw [positionOf, findIdx_map] at isOpen
  rw [setConstraints_eq_modify, getElem?_modify]
  by_cases here : types.findIdx (fun type => type.name.same name) = position
  · subst here
    rw [← find?_eq_getElem?_findIdx]
    cases found : types.find? (fun type => type.name.same name) with
    | none => exact .none
    | some type => simpa using .inr ⟨isOpen, constraints, lengths type found, rfl⟩
  · simpa [here] using TypesVary.refl types position

/-- A description in which at most the data types of some positions vary. -/
def Api.Retyped (openAt : Nat → Prop) (api variant : Api) : Prop :=
  ∃ dataTypes, TypesVary openAt api.dataTypes dataTypes ∧ variant = { api with dataTypes }

namespace Api

variable {openAt : Nat → Prop} {api variant other : Api} {script rest : Script}

theorem Retyped.refl (api : Api) : Retyped openAt api api :=
  ⟨_, .refl _, rfl⟩

theorem Retyped.trans (first : Retyped openAt api variant) (second : Retyped openAt variant other) :
    Retyped openAt api other := by
  obtain ⟨dataTypes, vary, rfl⟩ := first
  obtain ⟨others, varyOthers, rfl⟩ := second
  exact ⟨others, vary.trans varyOthers, rfl⟩

theorem Retyped.map_name (retyped : Retyped openAt api variant) :
    variant.dataTypes.map (·.name) = api.dataTypes.map (·.name) := by
  obtain ⟨dataTypes, vary, rfl⟩ := retyped
  exact vary.map_name

theorem retyped_of_randomizeType {type : Option DataType}
    (ran : Returns (api.randomizeType type) script variant rest)
    (direct : ∀ name ∈ type.bind DataType.directName?,
      openAt (positionOf (api.dataTypes.map (·.name)) name)) :
    Retyped openAt api variant := by
  unfold randomizeType at ran
  split at ran
  next name link =>
    split at ran
    next type found =>
      obtain ⟨constraints, middle, drawn, ran⟩ := returns_bind.mp ran
      obtain ⟨rfl, -⟩ := returns_pure.mp ran
      refine ⟨_, .setConstraints (fun known isKnown => ?_) (direct name rfl), rfl⟩
      rw [lookup, dataType?, isKnown] at found
      cases found
      exact length_of_conditions drawn
    all_goals exact absurd ran returns_throw
  next =>
    obtain ⟨rfl, -⟩ := returns_pure.mp ran
    exact .refl api

/-- An operation varies, and with it the data types that it takes or gives directly. -/
theorem retyped_of_randomizeOperation {operation changed : Operation}
    (ran : Returns (api.randomizeOperation operation) script (variant, changed) rest)
    (direct : ∀ name ∈ operation.directNames,
      openAt (positionOf (api.dataTypes.map (·.name)) name)) :
    Retyped openAt api variant ∧ operation.Varies changed := by
  obtain ⟨taken, afterInput, ranInput, ran⟩ := returns_bind.mp ran
  have input : Retyped openAt api taken :=
    retyped_of_randomizeType ranInput fun name isName => direct name (by
      rw [Operation.directNames, mem_append]
      exact .inl (Option.mem_toList.mpr isName))
  cases hasOutput : operation.output with
  | none =>
    rw [hasOutput] at ran
    obtain ⟨_, _, impossible, _⟩ := returns_bind.mp ran
    exact absurd impossible returns_throw
  | some output =>
    rw [hasOutput] at ran
    obtain ⟨given, afterOutput, ranOutput, ran⟩ := returns_bind.mp ran
    obtain ⟨requires, afterRequires, ranRequires, ran⟩ := returns_bind.mp ran
    obtain ⟨ensures, afterEnsures, ranEnsures, ran⟩ := returns_bind.mp ran
    obtain ⟨result, -⟩ := returns_pure.mp ran
    cases result
    have outputTypes : Retyped openAt taken variant :=
      retyped_of_randomizeType ranOutput fun name isName => input.map_name ▸ direct name (by
        rw [Operation.directNames, mem_append, hasOutput]
        exact .inr (Option.mem_toList.mpr isName))
    exact ⟨input.trans outputTypes, requires, ensures, length_of_conditions ranRequires,
      length_of_conditions ranEnsures, by rw [hasOutput]⟩

/-! ## A whole run -/

/-- What holds of one part holds of parts that are randomized in turn, since names stay. -/
theorem retyped_of_randomizeEach {α : Type} {randomizePart : Api → α → Drawing (Api × α)}
    (names : α → List Doc) {Varies : α → α → Prop}
    (each : ∀ {api variant part changed script rest},
      Returns (randomizePart api part) script (variant, changed) rest →
      (∀ name ∈ names part, openAt (positionOf (api.dataTypes.map (·.name)) name)) →
      Retyped openAt api variant ∧ Varies part changed)
    {parts changed : List α}
    (ran : Returns (api.randomizeEach randomizePart parts) script (variant, changed) rest)
    (direct : ∀ part ∈ parts, ∀ name ∈ names part,
      openAt (positionOf (api.dataTypes.map (·.name)) name)) :
    Retyped openAt api variant ∧ Forall₂ Varies parts changed := by
  induction parts generalizing api changed script with
  | nil =>
    obtain ⟨result, -⟩ := returns_pure.mp ran
    cases result
    exact ⟨.refl _, .nil⟩
  | cons part others ih =>
    rw [forall_mem_cons] at direct
    obtain ⟨⟨middle, first⟩, afterFirst, ranFirst, ran⟩ := returns_bind.mp ran
    obtain ⟨⟨last, changedOthers⟩, afterOthers, ranOthers, ran⟩ := returns_bind.mp ran
    obtain ⟨result, rfl⟩ := returns_pure.mp ran
    cases result
    obtain ⟨retyped, varies⟩ := each ranFirst direct.1
    obtain ⟨retypedOthers, varyOthers⟩ := ih ranOthers (retyped.map_name ▸ direct.2)
    exact ⟨retyped.trans retypedOthers, .cons varies varyOthers⟩

theorem retyped_of_randomizeResource {resource changed : Resource}
    (ran : Returns (api.randomizeResource resource) script (variant, changed) rest)
    (direct : ∀ name ∈ resource.operations.flatMap Operation.directNames,
      openAt (positionOf (api.dataTypes.map (·.name)) name)) :
    Retyped openAt api variant ∧ resource.Varies changed := by
  obtain ⟨⟨middle, operations⟩, _, ranOperations, ran⟩ := returns_bind.mp ran
  obtain ⟨result, rfl⟩ := returns_pure.mp ran
  cases result
  obtain ⟨retyped, vary⟩ := retyped_of_randomizeEach Operation.directNames
    retyped_of_randomizeOperation ranOperations fun operation inOperations name isName =>
      direct name (mem_flatMap.mpr ⟨operation, inOperations, isName⟩)
  exact ⟨retyped, operations, vary, rfl⟩

end Api

/-! ## Written variants -/

section Written

open Doc

variable {places : List Doc.Step → Prop}

variable {key : String}

theorem fieldsAgree_listField {left right : List Doc}
    (items : ∀ position : Nat, Option.Rel (AgreeOutside (after
      (after places (.key key)) (.item position))) left[position]? right[position]?) :
    FieldsAgree places (listField key left) (listField key right) := by
  unfold listField
  have lengths := length_eq_of_rel items
  by_cases empty : left = []
  · have emptyRight : right = [] := by
      rw [← length_eq_zero_iff, ← lengths, empty]
      rfl
    simpa [empty, emptyRight] using FieldsAgree.refl _
  · have someRight : right ≠ [] := by
      rw [← length_pos_iff, ← lengths]
      exact length_pos_iff.mpr empty
    simpa [empty, someRight] using FieldsAgree.single (.list items)

theorem fieldsAgree_conditions {given changed : List Condition}
    (lengths : changed.length = given.length)
    (free : ∀ position, places [.key key, .item position]) :
    FieldsAgree places (listField key (given.map Label.toDoc?))
      (listField key (changed.map Label.toDoc?)) := by
  refine fieldsAgree_listField fun position => ?_
  have anything : Forall₂ (fun _ _ => True) given changed :=
    forall₂_iff_get.mpr ⟨lengths.symm, fun _ _ _ => trivial⟩
  exact rel_map (fun _ _ _ => .free (free position)) (rel_of_forall₂ anything position)

theorem Operation.Varies.agree {operation variant : Operation} (varies : operation.Varies variant)
    (requires : ∀ position, places [.key "requires", .item position])
    (ensures : ∀ position, places [.key "ensures", .item position]) :
    AgreeOutside places operation.write variant.write := by
  obtain ⟨changed, changedToo, lengthRequires, lengthEnsures, rfl⟩ := varies
  exact .object ((FieldsAgree.refl _).append (fieldsAgree_conditions lengthRequires requires)
    |>.append (fieldsAgree_conditions lengthEnsures ensures))

theorem Resource.Varies.agree {resource variant : Resource} (varies : resource.Varies variant)
    (requires : ∀ operation position, places [.key "operations", .item operation, .key "requires",
      .item position])
    (ensures : ∀ operation position, places [.key "operations", .item operation, .key "ensures",
      .item position]) :
    AgreeOutside places resource.write variant.write := by
  obtain ⟨operations, vary, rfl⟩ := varies
  refine .object ((FieldsAgree.refl _).append (.cons ⟨rfl, .refl _⟩ (.cons ⟨rfl, .refl _⟩
    (FieldsAgree.single (.list fun position => ?_)))))
  exact rel_map (fun _ _ varies => varies.agree (requires position) (ensures position))
    (rel_of_forall₂ vary position)

theorem NamedTypeDef.Varies.agree {may : Prop} {type variant : NamedTypeDef}
    (varies : Varies may type variant)
    (constraints : may → ∀ position, places [.key "constraints", .item position]) :
    AgreeOutside places type.write variant.write := by
  rcases varies with rfl | ⟨holds, changed, lengths, rfl⟩
  · exact .refl _
  · obtain ⟨name, fields, given, description⟩ := type
    exact .object (.cons ⟨rfl, .refl _⟩ ((FieldsAgree.refl _).append
      (fieldsAgree_conditions lengths (constraints holds))))

end Written

/-! ## Variants of descriptions -/

/-- The positions of the data types that some operation takes or gives directly. -/
def Api.IsDirect (api : Api) (position : Nat) : Prop :=
  ∃ resource ∈ api.resources, ∃ operation ∈ resource.operations, ∃ name ∈ operation.directNames,
    position = positionOf (api.dataTypes.map (·.name)) name

/-- The places of a written description where a random variant may differ from it: the name, the
single conditions of operations, and the single constraints of data types that an operation takes or
gives directly. -/
inductive Api.MayVary (api : Api) : List Doc.Step → Prop
  | name : api.MayVary [.key "name"]
  | requires (resource operation condition : Nat) :
      api.MayVary [.key "resources", .item resource, .key "operations", .item operation,
        .key "requires", .item condition]
  | ensures (resource operation condition : Nat) :
      api.MayVary [.key "resources", .item resource, .key "operations", .item operation,
        .key "ensures", .item condition]
  | constraint {type : Nat} (constraint : Nat) :
      api.IsDirect type →
      api.MayVary [.key "dataTypes", .item type, .key "constraints", .item constraint]

/-- A random variant has the new name, and its document has everything else of the original outside
of the places that may vary. -/
theorem Api.randomize_agrees {api variant : Api} {name : String} {script rest : Script}
    (ran : (api.randomize name).run script = .ok (variant, rest)) :
    variant.write.at? [.key "name"] = some (.text name) ∧
      Doc.AgreeOutside api.MayVary api.write variant.write := by
  obtain ⟨⟨renamed, resources⟩, middle, ranResources, ran⟩ := Drawing.returns_bind.mp ran
  obtain ⟨rfl, -⟩ := Drawing.returns_pure.mp ran
  have direct : ∀ resource ∈ api.resources,
    ∀ name ∈ resource.operations.flatMap Operation.directNames,
      api.IsDirect (positionOf (api.dataTypes.map (·.name)) name) := by
    intro resource inResources name member
    obtain ⟨operation, inOperations, isName⟩ := mem_flatMap.mp member
    exact ⟨resource, inResources, operation, inOperations, name, isName, rfl⟩
  obtain ⟨⟨dataTypes, types, rfl⟩, vary⟩ :=
    retyped_of_randomizeEach (·.operations.flatMap Operation.directNames)
      retyped_of_randomizeResource ranResources direct
  have resourcesAgree : Doc.FieldsAgree api.MayVary
      [("resources", .list (api.resources.map Resource.write))]
      [("resources", .list (resources.map Resource.write))] := by
    refine .single (.list fun resource =>
      rel_map (fun _ _ varies => ?_) (rel_of_forall₂ vary resource))
    exact varies.agree (fun operation position => .requires resource operation position)
      fun operation position => .ensures resource operation position
  have typesAgree : Doc.FieldsAgree api.MayVary
      (listField "dataTypes" (api.dataTypes.map NamedTypeDef.write))
      (listField "dataTypes" (dataTypes.map NamedTypeDef.write)) := by
    refine fieldsAgree_listField fun type => rel_map (fun _ _ varies => ?_) (types type)
    exact varies.agree fun direct position => .constraint position direct
  have nameAgrees : Doc.FieldsAgree api.MayVary [("name", api.name.toDoc)] [("name", .text name)] :=
    .single (.free .name)
  exact ⟨rfl, .object (nameAgrees.append (.refl _) |>.append (.refl _) |>.append (.refl _)
    |>.append (.refl _) |>.append (.refl _) |>.append (.refl _) |>.append resourcesAgree
    |>.append typesAgree |>.append (.refl _) |>.append (.refl _) |>.append (.refl _))⟩

/-- A description in which two operations share a data type: the first gives it, the second takes
it.  Each condition is one of the given texts. -/
def Api.shelf (name invariant guard result : String) : Api :=
  { name := .text name
    resources := [
      { name := "shelf", path := "/shelf"
        operations := [
          { name := "find", method := "GET", output := some
              { status := .int 200, type := some (.reference (.custom "Book") .null) }
            ensures := [some (.text result)] },
          { name := "add", method := "POST"
            input := some { type := some (.reference (.custom "Book") .null) }
            output := some { status := .int 201 }, requires := [some (.text guard)] }] }]
    dataTypes := [
      ⟨"Shop", ⟨[], [some "self.name != ''"], none⟩⟩,
      ⟨"Book", ⟨[⟨"title", none, .bool false, .reference (.primitive .string) .null⟩],
        [some (.text invariant)], none⟩⟩] }

/-- The constraint of the shared data type changes with each of the two operations and is then what
it was. -/
theorem Api.shelf_randomize_agrees :
    let original := Api.shelf "shelf" "key in keys" "key in keys" "key in keys"
    let variant := Api.shelf "variant" "key in keys" "key not in keys" "key not in keys"
    (original.randomize "variant").run ⟨[1], 0⟩ = .ok (variant, ⟨[1], 16⟩) ∧
      variant.write.at? [.key "name"] = some (.text "variant") ∧
      Doc.AgreeOutside original.MayVary original.write variant.write := by
  intro original variant
  have member : Expr.parse "key in keys" =
      .ok (.compare (.name "key" .load) [.member] [.name "keys" .load]) := by
    have tokens : Lexer.tokens "key in keys" =
        some [.word "key", .mark "in", .word "keys"] := rfl
    rw [Expr.parse, tokens]
    rfl
  have nonMember : Expr.parse "key not in keys" =
      .ok (.compare (.name "key" .load) [.nonMember] [.name "keys" .load]) := by
    have tokens : Lexer.tokens "key not in keys" =
        some [.word "key", .mark "not", .mark "in", .word "keys"] := rfl
    rw [Expr.parse, tokens]
    rfl
  have first : Expr.randomizeText "key in keys" ⟨[1], 1⟩ =
      .ok (some "key not in keys", ⟨[1], 4⟩) := by
    rw [Expr.randomizeText, member]
    rfl
  have second : Expr.randomizeText "key in keys" ⟨[1], 5⟩ =
      .ok (some "key not in keys", ⟨[1], 8⟩) := by
    rw [Expr.randomizeText, member]
    rfl
  have third : Expr.randomizeText "key not in keys" ⟨[1], 9⟩ =
      .ok (some "key in keys", ⟨[1], 12⟩) := by
    rw [Expr.randomizeText, nonMember]
    rfl
  have fourth : Expr.randomizeText "key in keys" ⟨[1], 13⟩ =
      .ok (some "key not in keys", ⟨[1], 16⟩) := by
    rw [Expr.randomizeText, member]
    rfl
  have drawn {text changed : String} {used after : Nat}
      (random : Expr.randomizeText text ⟨[1], used + 1⟩ = .ok (some changed, ⟨[1], after⟩)) :
      (Drawing.condition (some (.text text))).run ⟨[1], used⟩ =
        .ok (some (.text changed), ⟨[1], after⟩) := by
    simp [Drawing.condition, Drawing.draw, Script.next, Nat.mod_one, Condition.asText, Label.asText,
      random]
  have ran : (original.randomize "variant").run ⟨[1], 0⟩ = .ok (variant, ⟨[1], 16⟩) := by
    simp [original, variant, shelf, randomize, randomizeEach, randomizeResource,
      randomizeOperation, randomizeType, lookup, dataType?, Doc.same, NamedTypeDef.setConstraints,
      Drawing.conditions, drawn first, drawn second, drawn third, drawn fourth]
  exact ⟨ran, Api.randomize_agrees ran⟩

end ApiDescription
