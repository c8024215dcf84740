import ApiDescription.Proofs.Links
import ApiDescription.Proofs.Samples

/-!
# Pages that are written to the end

The page of a resource shows a type and a sample for every answer, so that an operation which does
not say what it answers with has no page, although such an operation is accepted.  In a description
whose types can be shown, a page is written exactly if everything that stands on it is told.
-/

namespace ApiDescription.Docs

open Outcome List

open Client (Returns)

open Relation (TransGen)

/-! ## What a page needs -/

/-- A description whose types can be shown: it has an address, all names are texts, references lead
to something, no type requires itself, and what is sent as an entity has a type and a content
type. -/
structure Presentable (api : Api) : Prop where
  base : api.base ≠ []
  explicit : api.Explicit
  typeNames : ∀ type ∈ api.dataTypes, ∃ text, type.name = .text text
  resourceNames : ∀ resource ∈ api.resources, ∃ text, resource.name = .text text
  operationNames : ∀ resource ∈ api.resources, ∀ operation ∈ resource.operations,
    ∃ text, operation.name = .text text
  grounded : ∀ type ∈ api.dataTypes, ¬ TransGen api.Requires (.named type) (.named type)
  entities : ∀ resource ∈ api.resources, ∀ operation ∈ resource.operations,
    enclosesEntity operation.method = true → ∃ input type, operation.input = some input ∧
      input.contentType ≠ [] ∧ input.type = some type

/-- What has to be told about an operation: what it answers with, and texts wherever one is
shown. -/
structure Told (operation : Operation) : Prop where
  method : ∃ text, operation.method = .text text
  description : ∀ label, operation.description = some label → label.isTruthy = true →
    ∃ text, label = .text text
  output : ∃ output type, operation.output = some output ∧ output.type = some type ∧
    (∀ items, output.status ≠ .list items) ∧ ∀ fields, output.status ≠ .object fields
  causes : ∀ error ∈ operation.errors, ∃ text, error.2 = .text text

theorem exists_bind_eq_ok {α β : Type} {first : Except Fault α} {next : α → Except Fault β} :
    (∃ result, (first >>= next) = .ok result) ↔
      ∃ value, first = .ok value ∧ ∃ result, next value = .ok result := by
  simp only [bind_eq_ok]
  exact ⟨fun ⟨result, value, found, rest⟩ => ⟨value, found, result, rest⟩,
    fun ⟨value, found, result, rest⟩ => ⟨result, value, found, rest⟩⟩

theorem exists_mapM_eq_ok {α β : Type} {items : List α} {step : α → Except Fault β} :
    (∃ results, items.mapM step = .ok results) ↔
      ∀ item ∈ items, ∃ result, step item = .ok result := by
  refine ⟨fun ⟨results, success⟩ item member => ?_, exists_mapM_of_forall⟩
  obtain ⟨result, -, read⟩ := exists_mem_of_mapM success member
  exact ⟨result, read⟩

theorem exists_returns_pageText {sections : List (Except Fault (List Line))}
    {before : List NamedTypeDef} :
    (∃ text after, Returns (pageText sections) before text after) ↔
      ∀ part ∈ sections, ∃ lines, part = .ok lines := by
  simp [← exists_allLines, returns_pageText]

theorem exists_descriptionLines {indent : String} {description : Option Label} :
    (∃ lines, descriptionLines indent description = .ok lines) ↔
      ∀ label, description = some label → label.isTruthy = true → ∃ text, label = .text text := by
  cases description with
  | none => simp [descriptionLines]
  | some label =>
    by_cases shown : label.isTruthy = true
    · simp [descriptionLines, shown, bind_eq_ok, asText_eq_ok]
    · simp [descriptionLines, shown]

theorem exists_errorLines {errors : List (Int × Label)} :
    (∃ lines, errorLines errors = .ok lines) ↔ ∀ error ∈ errors, ∃ text, error.2 = .text text := by
  cases errors with
  | nil => simp [errorLines]
  | cons error rest =>
    simp [errorLines, exists_bind_eq_ok, exists_mapM_eq_ok, asText_eq_ok, -mapM_cons,
      -bind_pure_comp]

theorem exists_givenStatusName {status : Doc} :
    (∃ name, givenStatusName status = .ok name) ↔
      (∀ items, status ≠ .list items) ∧ ∀ fields, status ≠ .object fields := by
  cases status <;> simp [givenStatusName] <;> split <;> simp

section

variable {document : Doc} {api : Api} {resource : Resource} {operation : Operation}
  {type : DataType} {owner name : String}

/-- A type that a page can show: it has a sample and a link. -/
structure Showable (api : Api) (type : DataType) : Prop where
  sampled : ∃ value, sample api type.schema = .ok value
  linked : ∀ name, ∃ link, schemaLink (shownSchema name type) = .ok link

theorem Showable.exists_linkedLines (showable : Showable api type) (front back : List String)
    (label name : String) :
    ∃ lines, linkedLines front label (shownSchema name type) back = .ok lines := by
  obtain ⟨link, linked⟩ := showable.linked name
  exact ⟨_, linkedLines_eq_ok.mpr ⟨link, linked, rfl⟩⟩

theorem Showable.exists_wantedSample (showable : Showable api type) (wanted : Bool)
    (heading name : String) :
    ∃ lines, wantedSample wanted api heading (shownSchema name type) = .ok lines := by
  obtain ⟨value, isSample⟩ := showable.sampled
  have shown : sample api (shownSchema name type) = sample api type.schema := by
    cases type with
    | reference => rfl
    | inline definition =>
      obtain ⟨fields, constraints, description⟩ := definition
      rfl
  unfold wantedSample
  split
  · exact ⟨_, by rw [sampleLines, shown, isSample]; rfl⟩
  · exact ⟨_, rfl⟩

/-- The lines about an answer need its type and a status that can be looked up. -/
theorem forall_responseSections
    (readable : ∀ output, operation.output = some output → output.type.isSome →
      output.contentType.isSome)
    (showable : ∀ output, operation.output = some output → ∀ type, output.type = some type →
      Showable api type) :
    (∀ part ∈ responseSections api owner operation, ∃ lines, part = .ok lines) ↔
      ∃ output type, operation.output = some output ∧ output.type = some type ∧
        (∀ items, output.status ≠ .list items) ∧ ∀ fields, output.status ≠ .object fields := by
  unfold responseSections answerLines
  cases hasOutput : operation.output with
  | none => simp
  | some output =>
    cases hasType : output.type with
    | none => simp [hasType]
    | some type =>
      obtain ⟨contentTypes, hasContent⟩ :=
        Option.isSome_iff_exists.mp (readable output hasOutput (by simp [hasType]))
      have shows := showable output hasOutput type hasType
      obtain ⟨sample, isSample⟩ :=
        shows.exists_wantedSample (contentTypes.contains sampleContentType &&
          showsSample (shownSchema (owner ++ "_" ++ operation.name.words ++ "_" ++ "OutputType")
            type))
        "Response" (owner ++ "_" ++ operation.name.words ++ "_" ++ "OutputType")
      simp [hasType, hasContent, isSample, exists_bind_eq_ok,
        shows.exists_linkedLines, ← exists_givenStatusName, -contains_eq_mem]

theorem forall_requestSections
    (entity : enclosesEntity operation.method = true → ∃ input type, operation.input = some input ∧
      input.type = some type ∧ Showable api type) :
    ∀ part ∈ requestSections api owner operation, ∃ lines, part = .ok lines := by
  unfold requestSections
  split
  next isEntity =>
    obtain ⟨input, type, hasInput, hasType, shows⟩ := entity isEntity
    obtain ⟨sample, isSample⟩ :=
      shows.exists_wantedSample (input.contentType.contains sampleContentType)
      "Request" (owner ++ "_" ++ operation.name.words ++ "_" ++ "InputType")
    simp [hasInput, hasType, isSample, shows.exists_linkedLines, -contains_eq_mem]
  next => simp

theorem exists_curlCommand (based : api.base ≠ []) {path method : String}
    (isPath : resource.path = .text path) (isMethod : operation.method = .text method)
    (entity : enclosesEntity operation.method = true →
      ∃ input, operation.input = some input ∧ input.contentType ≠ []) :
    ∃ command, curlCommand api resource operation = .ok command := by
  have content : enclosesEntity operation.method = true →
      ∃ first, inputContentType operation = .ok first := by
    intro isEntity
    obtain ⟨input, hasInput, given⟩ := entity isEntity
    obtain ⟨first, rest, isContent⟩ := exists_cons_of_ne_nil given
    exact ⟨first, by simp [inputContentType, hasInput, isContent]⟩
  have options : ∃ text, methodOptions operation = .ok text := by
    unfold methodOptions
    by_cases isEntity : enclosesEntity operation.method = true
    · obtain ⟨first, isFirst⟩ := content isEntity
      simp only [isFirst, isMethod, Label.asText, ok_bind]
      split_ifs <;> exact ⟨_, rfl⟩
    · have notPost : (operation.method == .text "POST") = false := by
        simp_all [enclosesEntity]
      simp only [isEntity, notPost, Bool.false_eq_true, if_false]
      rw [isMethod]
      split <;> exact ⟨_, rfl⟩
  obtain ⟨first, rest, isBase⟩ := exists_cons_of_ne_nil based
  obtain ⟨text, isOptions⟩ := options
  simp only [curlCommand, isBase, head?_cons, isOptions, isPath, Label.asText, ok_bind]
  split_ifs <;> exact ⟨_, rfl⟩

theorem forall_operationSections (isName : operation.name = .text name) (based : api.base ≠ [])
    {path : String} (isPath : resource.path = .text path)
    (entity : enclosesEntity operation.method = true → ∃ input type, operation.input = some input ∧
      input.contentType ≠ [] ∧ input.type = some type ∧ Showable api type)
    (readable : ∀ output, operation.output = some output → output.type.isSome →
      output.contentType.isSome)
    (showable : ∀ output, operation.output = some output → ∀ type, output.type = some type →
      Showable api type) :
    (∀ part ∈ operationSections api resource operation, ∃ lines, part = .ok lines) ↔
      Told operation := by
  simp only [operationSections, cons_append, forall_mem_cons, forall_mem_append,
    forall_responseSections readable showable, operationHeading, closingLines, exists_bind_eq_ok,
    asText_eq_ok]
  constructor
  · rintro ⟨⟨_, -, method, isMethod, description, described, -⟩, ⟨-, output⟩, ⟨errors, caused, -⟩,
      -⟩
    exact ⟨⟨method, isMethod⟩, exists_descriptionLines.mp ⟨_, described⟩, output,
      exists_errorLines.mp ⟨_, caused⟩⟩
  · rintro ⟨⟨method, isMethod⟩, description, output, causes⟩
    obtain ⟨_, described⟩ := exists_descriptionLines.mpr description
    obtain ⟨_, caused⟩ := exists_errorLines.mpr causes
    have requested := @forall_requestSections api operation resource.name.words fun isEntity => by
      obtain ⟨input, type, hasInput, -, hasType, shows⟩ := entity isEntity
      exact ⟨input, type, hasInput, hasType, shows⟩
    obtain ⟨_, commanded⟩ := exists_curlCommand based isPath isMethod fun isEntity => by
      obtain ⟨input, _, hasInput, given, -⟩ := entity isEntity
      exact ⟨input, hasInput, given⟩
    exact ⟨⟨name, isName, method, isMethod, _, described, _, rfl⟩, ⟨requested, output⟩,
      ⟨_, caused, _, commanded, _, rfl⟩, by simp⟩

theorem exists_referenceLink {target : TypeRef}
    (typeNames : ∀ type ∈ api.dataTypes, ∃ text, type.name = .text text)
    (named : ∀ name, target.customName? = some name →
      name.IsTypeName (api.dataTypes.map (·.name))) :
    ∃ link, referenceLink target = .ok link := by
  induction target with
  | primitive kind => exact ⟨_, rfl⟩
  | container kind item ih =>
    obtain ⟨link, linked⟩ := ih named
    exact ⟨_, by rw [referenceLink, linked]; rfl⟩
  | custom name =>
    have isText : ∃ text, name = .text text := by
      rcases named name rfl with rfl | rfl | ⟨_, declared, same⟩
      · exact ⟨_, rfl⟩
      · exact ⟨_, rfl⟩
      · obtain ⟨type, inTypes, rfl⟩ := mem_map.mp declared
        obtain ⟨text, isText⟩ := typeNames type inTypes
        rw [isText, Doc.same_text_left] at same
        exact ⟨text, same⟩
    obtain ⟨text, rfl⟩ := isText
    rw [referenceLink]
    split <;> exact ⟨_, rfl⟩

/-- The page of a resource in an accepted description whose types can be shown is written exactly if
its path is a text and everything is told about its operations. -/
theorem resourcePage_returns_iff_told (accepted : Api.ofDoc document = .ok api)
    (presentable : Presentable api)
    (inApi : resource ∈ api.resources) (before : List NamedTypeDef) :
    (∃ text after, Returns (resourcePageText api resource) before text after) ↔
      (∃ path, resource.path = .text path) ∧ ∀ operation ∈ resource.operations, Told operation := by
  have valid := Api.valid_of_validate (Api.validate_of_ofDoc accepted)
  have showable {type : DataType} (given : api.Gives type) : Showable api type := by
    have uses : api.Uses type := ⟨type, given, .self⟩
    obtain ⟨value, isSample, -⟩ := exists_sample valid presentable.explicit (.used uses)
      fun schema _ => Api.irreflexive_of_dataTypes (fun requires => requires.leads)
        presentable.grounded schema
    refine ⟨⟨value, isSample⟩, fun name => ?_⟩
    cases type with
    | inline => exact ⟨_, rfl⟩
    | reference target link =>
      exact exists_referenceLink presentable.typeNames (valid.references target link uses)
  obtain ⟨owner, named⟩ := presentable.resourceNames resource inApi
  obtain ⟨address, rest, isBase⟩ := List.exists_cons_of_ne_nil presentable.base
  have told {path : String} (isPath : resource.path = .text path) (operation : Operation)
      (inResource : operation ∈ resource.operations) :
      (∀ part ∈ operationSections api resource operation, ∃ lines, part = .ok lines) ↔
        Told operation := by
    obtain ⟨name, isName⟩ := presentable.operationNames resource inApi operation inResource
    refine forall_operationSections isName presentable.base isPath (fun isEntity => ?_)
      (fun output hasOutput hasType => ?_)
      fun output hasOutput type hasType => showable (.output inApi inResource hasOutput hasType)
    · obtain ⟨input, type, hasInput, given, hasType⟩ :=
        presentable.entities resource inApi operation inResource isEntity
      exact ⟨input, type, hasInput, given, hasType,
        showable (.input inApi inResource hasInput hasType)⟩
    · obtain ⟨_, readFrom⟩ := Api.exists_readFrom accepted inApi inResource
      obtain ⟨value, -, read⟩ := readFrom.output output hasOutput
      rcases Output.empty_or_legible_of_read read with ⟨-, rfl⟩ | legible
      · cases hasType
      · exact legible.contentType
  have headed : (∃ lines, resourceHeading api resource = .ok lines) ↔
      ∃ path, resource.path = .text path := by
    cases isPath : resource.path with
    | text path =>
      simp [resourceHeading, named, isPath, exists_bind_eq_ok, exists_mapM_eq_ok, Label.asText]
    | texts pieces => simp [resourceHeading, named, isPath, isBase, Label.asText]
  rw [resourcePageText, exists_returns_pageText, resourceSections, List.forall_mem_cons,
    List.forall_mem_flatMap, headed]
  refine and_congr_right ?_
  rintro ⟨path, isPath⟩
  exact forall₂_congr (told isPath)

end

namespace Library

theorem presentable {answer : Option DataType} (answered : ∀ type ∈ answer, type = books) :
    Presentable (catalogue answer) where
  base := by simp [catalogue]
  explicit := explicit answered
  typeNames := by simp [catalogue, book]
  resourceNames := by simp [catalogue, shelf]
  operationNames := by simp [catalogue, shelf]
  grounded := by
    simp only [catalogue, mem_singleton, forall_eq]
    exact grounded_of_sampleWithin (sample_book answer) (.named book) .refl
  entities := by simp [catalogue, shelf]

/-- The page of the shelf shows a sample of a book, of books, and an error. -/
theorem shelf_page_returns :
    ∃ text after, Returns (resourcePageText (catalogue (some books)) (shelf (some books))) [] text
      after := by
  refine (resourcePage_returns_iff_told accepted (presentable (by simp)) List.mem_cons_self []).mpr
    ⟨⟨_, rfl⟩, ?_⟩
  simp only [shelf, List.mem_singleton, forall_eq]
  exact ⟨⟨_, rfl⟩, by simp, ⟨_, _, rfl, rfl, by simp, by simp⟩, by simp⟩

/-- A library that does not say what it answers with is accepted, and its shelf has no page. -/
theorem silent_shelf_without_page :
    Api.ofDoc (document []) = .ok (catalogue none) ∧ Presentable (catalogue none) ∧
      shelf none ∈ (catalogue none).resources ∧
      ¬ ∃ text after, Returns (resourcePageText (catalogue none) (shelf none)) [] text after := by
  refine ⟨accepted_silent, presentable (by simp), List.mem_cons_self, ?_⟩
  rintro ⟨text, after, ran⟩
  cases ran

end Library

end ApiDescription.Docs
