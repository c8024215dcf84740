import ApiDescription.Proofs.Links

/-!
# Names of pages

The pages of a manual share one directory, and their names come from three sources: the first page,
the resources and the types, where a type written on the spot is named by the path that leads to
it.  Names are put in small letters, so that pages can get the same name; then the last one that is
written stays.
-/

namespace ApiDescription

open Outcome List Docs Page Text

/-! ## Names of types written on the spot -/

mutual

/-- The names for a type written on the spot and for the types inside it. -/
def DataType.spotNames (name : String) : DataType → List String
  | .reference _ _ => []
  | .inline definition => name :: definition.spotNames name

/-- The names for the types written on the spot in the fields of a record type. -/
def TypeDef.spotNames (owner : String) : TypeDef → List String
  | ⟨fields, _, _⟩ => Field.spotNamesAll owner fields

/-- The names for the types written on the spot in all fields. -/
def Field.spotNamesAll (owner : String) : List Field → List String
  | [] => []
  | field :: rest => field.spotNames owner ++ Field.spotNamesAll owner rest

def Field.spotNames (owner : String) : Field → List String
  | ⟨.text name, _, _, type⟩ => type.spotNames (owner ++ "_" ++ name)
  | ⟨.texts _, _, _, _⟩ => []

end

/-- The names for the types written on the spot in what an operation that sends something takes. -/
def Operation.requestNames (owner : String) (operation : Operation) : List String :=
  if enclosesEntity operation.method then
    (operation.input.bind (·.type)).elim [] fun type =>
      type.spotNames (owner ++ "_" ++ operation.name.words ++ "_" ++ "InputType")
  else []

/-- The names for the types written on the spot in what an operation gives. -/
def Operation.responseNames (owner : String) (operation : Operation) : List String :=
  (operation.output.bind (·.type)).elim [] fun type =>
    type.spotNames (owner ++ "_" ++ operation.name.words ++ "_" ++ "OutputType")

/-- The names for the types written on the spot in what an operation takes and gives. -/
def Operation.spotNames (owner : String) (operation : Operation) : List String :=
  operation.requestNames owner ++ operation.responseNames owner

def Api.pagedNames (api : Api) : List String :=
  api.dataTypes.map (fun type => type.name.words) ++
    (api.resources.flatMap (fun resource =>
        resource.operations.flatMap (Operation.spotNames resource.name.words)) ++
      api.dataTypes.flatMap fun type => type.definition.spotNames type.name.words)

namespace Command

open Docs (Line Page allLines innerTypes fieldTypes shownSchema shownTypes)

variable {type : NamedTypeDef} {name : String} {resource : Resource} {page : Page}

def namesWithin (type : NamedTypeDef) : List String :=
  match type.name with
  | .text name => name :: type.definition.spotNames name
  | other => [other.words]

theorem namesWithin_shownTypes (name : String) (type : DataType) :
    (shownTypes (shownSchema name type)).flatMap namesWithin = type.spotNames name := by
  cases type with
  | reference target link => rfl
  | inline definition =>
    obtain ⟨fields, constraints, description⟩ := definition
    simp [shownTypes, shownSchema, namesWithin, NamedTypeDef.standIn, DataType.spotNames,
      TypeDef.spotNames]

theorem namesWithin_fieldTypes (owner : String) (field : Field) :
    (fieldTypes owner field).flatMap namesWithin = field.spotNames owner := by
  obtain ⟨name, description, optional, type⟩ := field
  cases name with
  | texts names => rfl
  | text name => exact namesWithin_shownTypes _ type

theorem namesWithin_fields (owner : String) (fields : List Field) :
    (fields.flatMap (fieldTypes owner)).flatMap namesWithin = Field.spotNamesAll owner fields := by
  induction fields with
  | nil => rfl
  | cons field rest ih =>
    rw [flatMap_cons, flatMap_append, namesWithin_fieldTypes, ih, Field.spotNamesAll]

theorem namesWithin_innerTypes (named : type.name = .text name) :
    (innerTypes type).flatMap namesWithin = type.definition.spotNames name := by
  obtain ⟨_, fields, constraints, description⟩ := type
  cases named
  exact namesWithin_fields name fields

theorem namesWithin_eq (type : NamedTypeDef) :
    namesWithin type = type.name.words :: (innerTypes type).flatMap namesWithin := by
  obtain ⟨name, definition⟩ := type
  cases name with
  | text name => rw [namesWithin_innerTypes rfl]; rfl
  | null | bool | int | float | list | object => rfl

/-- A queue gives the types that wait in it and the types inside them, each once. -/
theorem perm_names_queued (types : List NamedTypeDef) :
    ((queued types).map fun type => type.name.words).Perm (types.flatMap namesWithin) := by
  induction types using queue_induction with
  | nil => exact .refl _
  | cons type rest ih =>
    rw [queued_cons, map_cons, flatMap_cons, namesWithin_eq, cons_append]
    rw [flatMap_append] at ih
    exact (ih.trans perm_append_comm).cons _

/-! ## Names of the pages of a manual -/

theorem namesWithin_operationSections {api : Api} {operation : Operation} {lines : List Line}
    (laid : allLines (operationSections api resource operation) = .ok lines) :
    lines.flatMap (fun line => line.remembered.flatMap namesWithin) =
      operation.spotNames resource.name.words := by
  rw [operationSections, cons_append, cons_append, allLines_cons] at laid
  obtain ⟨heading, _, isHeading, laid, rfl⟩ := laid
  obtain ⟨_, closing, middle, isClosing, rfl⟩ := allLines_append.mp laid
  obtain ⟨request, response, isRequest, isResponse, rfl⟩ := allLines_append.mp middle
  obtain ⟨last, _, isLast, ⟨⟩, rfl⟩ := allLines_cons.mp isClosing
  have headed := remembered_of_shows (shows_operationHeading operation) isHeading
  have closed := remembered_of_shows (shows_closingLines api resource operation) isLast
  have requested : (request.flatMap Line.remembered).flatMap namesWithin =
      operation.requestNames resource.name.words := by
    unfold requestSections at isRequest
    unfold Operation.requestNames
    split at isRequest
    next sends =>
      split at isRequest
      next type hasType =>
        obtain ⟨_, _, linked, rest, rfl⟩ := allLines_cons.mp isRequest
        obtain ⟨_, _, sample, ⟨⟩, rfl⟩ := allLines_cons.mp rest
        simp [remembered_linkedLines linked, remembered_of_shows (shows_map _) sample,
          namesWithin_shownTypes, sends, hasType]
      next =>
        obtain ⟨_, _, ⟨⟩, -⟩ := allLines_cons.mp isRequest
    next silent =>
      cases isRequest
      simp [silent]
  have responded : (response.flatMap Line.remembered).flatMap namesWithin =
      operation.responseNames resource.name.words := by
    unfold responseSections at isResponse
    unfold Operation.responseNames
    split at isResponse
    next type hasType =>
      obtain ⟨_, _, linked, rest, rfl⟩ := allLines_cons.mp isResponse
      obtain ⟨_, _, answer, ⟨⟩, rfl⟩ := allLines_cons.mp rest
      simp [remembered_linkedLines linked, remembered_of_shows (shows_answerLines _ _ _) answer,
        namesWithin_shownTypes, hasType]
    next =>
      obtain ⟨_, _, ⟨⟩, -⟩ := allLines_cons.mp isResponse
  rw [← flatMap_assoc]
  simp [headed, closed, requested, responded, Operation.spotNames]

theorem namesWithin_ofResource {api : Api} (isPage : ofResource api resource = .ok page) :
    page.remembered.flatMap namesWithin =
      resource.operations.flatMap (Operation.spotNames resource.name.words) := by
  obtain ⟨heading, operations, isHeading, laid, isLines⟩ :=
    allLines_cons.mp (ofSections_eq_ok.mp isPage).2
  have headed := remembered_of_shows (shows_resourceHeading api resource) isHeading
  rw [remembered, ← isLines, flatMap_append, headed, nil_append, flatMap_assoc]
  exact flatMap_of_allLines laid fun _ _ => namesWithin_operationSections

theorem namesWithin_ofType (isPage : ofType type = .ok page) :
    page.remembered.flatMap namesWithin = type.definition.spotNames type.name.words := by
  obtain ⟨name, named, -⟩ := typePage_eq_ok.mp (ofSections_eq_ok.mp isPage).1
  rw [remembered_ofType isPage, namesWithin_innerTypes named, named]
  rfl

variable {α : Type} {pages : List Page} {root : Place}

theorem namesWithin_of_mapM {items : List α} {pageOf : α → Except Fault Page}
    {names : α → List String} (arePages : items.mapM pageOf = .ok pages)
    (each : ∀ item page, pageOf item = .ok page →
      page.remembered.flatMap namesWithin = names item) :
    (pages.flatMap remembered).flatMap namesWithin = items.flatMap names := by
  have related := mapM_eq_ok.mp arePages
  clear arePages
  induction related with
  | nil => rfl
  | cons first _ ih => rw [flatMap_cons, flatMap_append, each _ _ first, ih, flatMap_cons]

theorem names_of_mapM {items : List α} {pageOf : α → Except Fault Page} {name : α → String}
    (arePages : items.mapM pageOf = .ok pages)
    (each : ∀ item page, pageOf item = .ok page → page.name = name item) :
    pages.map Page.name = items.map name := by
  have related := mapM_eq_ok.mp arePages
  clear arePages
  induction related with
  | nil => rfl
  | cons first _ ih => rw [map_cons, each _ _ first, ih, map_cons]

def resourceName (resource : Resource) : String :=
  lower resource.name.words

def typeName (name : String) : String :=
  "data_type_" ++ lower name

theorem name_ofResource {api : Api} (isPage : ofResource api resource = .ok page) :
    page.name = resourceName resource := by
  have named := (ofSections_eq_ok.mp isPage).1
  unfold resourcePage at named
  unfold resourceName Label.words
  revert named
  cases resource.name with
  | text name => exact fun named => (Except.ok.inj named).symm
  | texts names => exact fun named => by cases named

theorem name_ofType (isPage : ofType type = .ok page) :
    page.name = typeName type.name.words := by
  obtain ⟨name, named, isName⟩ := typePage_eq_ok.mp (ofSections_eq_ok.mp isPage).1
  rw [named]
  exact isName.symm

namespace Manual

variable {year : String} {api : Api} (manual : Manual year api)

theorem perm_pagedNames :
    ((api.dataTypes ++ manual.innerTypes).map fun type => type.name.words).Perm api.pagedNames := by
  have names : ((manual.resources ++ manual.types).flatMap remembered).flatMap namesWithin =
      api.resources.flatMap (fun resource =>
          resource.operations.flatMap (Operation.spotNames resource.name.words)) ++
        api.dataTypes.flatMap fun type => type.definition.spotNames type.name.words := by
    rw [flatMap_append, flatMap_append,
      namesWithin_of_mapM manual.areResources fun _ _ => namesWithin_ofResource,
      namesWithin_of_mapM manual.areTypes fun _ _ => namesWithin_ofType]
  have queue := perm_names_queued ((manual.resources ++ manual.types).flatMap remembered)
  rw [names] at queue
  rw [map_append]
  exact queue.append_left _

theorem perm_pageNames : (manual.pages.map Page.name).Perm
      ("index" :: (api.resources.map resourceName ++ api.pagedNames.map typeName)) := by
  have index : manual.index.name = "index" :=
    (Except.ok.inj (ofSections_eq_ok.mp manual.isIndex).1).symm
  have types : (manual.types ++ manual.inner).map name =
      ((api.dataTypes ++ manual.innerTypes).map fun type => type.name.words).map typeName := by
    rw [map_append, names_of_mapM manual.areTypes fun _ _ => name_ofType,
      names_of_mapM manual.areInner fun _ _ => name_ofType, map_map, map_append]
    rfl
  rw [pages, map_cons, index, append_assoc, map_append,
    names_of_mapM manual.areResources fun _ _ => name_ofResource, types]
  exact ((manual.perm_pagedNames.map typeName).append_left _).cons _

/-- The pages of a manual have different names exactly when no resource is called after the first
page or like the page of a type, and neither two resources nor two types go by names that agree in
small letters. -/
theorem nodup_names_iff :
    (manual.pages.map Page.name).Nodup ↔
      "index" ∉ api.resources.map resourceName ∧ (api.resources.map resourceName).Nodup ∧
        (api.pagedNames.map lower).Nodup ∧
        ∀ resource ∈ api.resources, ∀ name ∈ api.pagedNames,
          resourceName resource ≠ typeName name := by
  have not_index (name : String) : typeName name ≠ "index" := by
    intro same
    have letters := congrArg String.toList same
    simp [typeName] at letters
  have types_nodup : (api.pagedNames.map typeName).Nodup ↔ (api.pagedNames.map lower).Nodup := by
    have composed : api.pagedNames.map typeName =
        (api.pagedNames.map lower).map ("data_type_" ++ ·) := by
      rw [map_map]
      rfl
    rw [composed, nodup_map_iff]
    intro first second same
    simpa using same
  rw [manual.perm_pageNames.nodup_iff, nodup_cons, nodup_append, types_nodup]
  simp only [mem_append, mem_map, not_or, not_exists, not_and]
  constructor
  · rintro ⟨⟨noIndex, -⟩, resources, types, apart⟩
    exact ⟨noIndex, resources, types, fun resource inResources name inNames same =>
      apart _ ⟨resource, inResources, rfl⟩ _ ⟨name, inNames, rfl⟩ same⟩
  · rintro ⟨noIndex, resources, types, apart⟩
    refine ⟨⟨noIndex, fun name _ => not_index name⟩, resources, types, ?_⟩
    rintro _ ⟨resource, inResources, rfl⟩ _ ⟨name, inNames, rfl⟩ same
    exact apart resource inResources name inNames same

end Manual

/-! ## Pages that overwrite others -/

theorem pageFile_injective : Function.Injective pageFile := by
  intro first second same
  simpa [pageFile] using same

theorem splitAtEvery_of_not_mem {separator : Char} {characters : List Char}
    (absent : separator ∉ characters) : splitAtEvery separator characters = [characters] := by
  induction characters with
  | nil => rfl
  | cons first rest ih =>
    rw [mem_cons, not_or] at absent
    simp [splitAtEvery, ih absent.2, Ne.symm absent.1]

theorem locate_pageFile (folder : Folder) (root : Place) (flat : '/' ∉ name.toList) :
    folder.locate root (pageFile name) = some (root ++ [pageFile name]) := by
  have characters : (pageFile name).toList = name.toList ++ ['.', 'r', 's', 't'] := by
    simp [pageFile]
  have absent : '/' ∉ (pageFile name).toList := by simp [characters, flat]
  have names : split (pageFile name) '/' = [pageFile name] := by
    simp [split, splitAtEvery_of_not_mem absent]
  have relative : startsWith (pageFile name) "/" = false := by
    unfold startsWith
    cases isChars : (pageFile name).toList with
    | nil => rfl
    | cons first rest =>
      have other : '/' ≠ first := fun same => absent (isChars ▸ same ▸ mem_cons_self)
      simp [isPrefixOf, other]
  have long : 4 ≤ (pageFile name).length := by
    rw [← String.length_toList, characters]
    simp
  have named : pageFile name ≠ "" ∧ pageFile name ≠ "." ∧ pageFile name ≠ ".." := by
    refine ⟨?_, ?_, ?_⟩ <;> intro same <;> rw [same] at long <;> revert long <;> decide
  simp [Folder.locate, Folder.pathNames, names, relative, Folder.walk, named]

theorem fileAt?_pageFile {folder : Folder} {place : Place} (flat : '/' ∉ name.toList)
    (located : folder.fileAt? root (pageFile name) = some place) :
    place = root ++ [pageFile name] := by
  have found := (Folder.locate_of_fileAt? located).symm.trans (locate_pageFile folder root flat)
  exact Option.some.inj found

theorem Manual.fileText?_of_nodup {year : String} {api : Api} {manual : Manual year api}
    {before after : Session} (ended : Ends (writeManual year api root) before () after)
    (different : (manual.pages.map Page.name).Nodup)
    (flat : ∀ page ∈ manual.pages, '/' ∉ page.name.toList) :
    ∀ page ∈ manual.pages, after.folder.fileText? root (pageFile page.name) = some page.text := by
  intro page member
  have creatable : ∀ page ∈ manual.pages,
      (before.folder.fileAt? root (pageFile page.name)).isSome := by
    have all := manual.exists_ends.mp ⟨after, ended⟩
    rw [forall_mem_cons, forall_mem_map] at all
    exact all.2
  obtain ⟨last, inPages, same, holds⟩ := Manual.exists_fileText? ended member
  obtain ⟨place, located⟩ := Option.isSome_iff_exists.mp (creatable page member)
  have place_eq := fileAt?_pageFile (flat page member) located
  have last_eq := fileAt?_pageFile (flat last inPages) (same.trans located)
  have names : last.name = page.name := by
    refine pageFile_injective ?_
    simpa [place_eq] using last_eq.symm
  rw [holds, inj_on_of_nodup_map different inPages member names]

/-- The pages of a manual that was written have different files exactly when no resource is called
after the first page or like the page of a type, and neither two resources nor two types go by names
that agree in small letters.  Of pages with the same file the last one stays; no page is lost where
all names differ and lead into no directory. -/
theorem writeManual_files_nodup_iff {year : String} {api : Api} {root : Place}
    {before after : Session} (ended : Ends (writeManual year api root) before () after) :
    ∃ pages, Manual.generate year api = .ok pages ∧
      ((pages.map fun page => pageFile page.name).Nodup ↔
        "index" ∉ api.resources.map resourceName ∧ (api.resources.map resourceName).Nodup ∧
          (api.pagedNames.map Text.lower).Nodup ∧
          ∀ resource ∈ api.resources, ∀ name ∈ api.pagedNames, resourceName resource ≠
            typeName name) ∧
      (∀ page ∈ pages, after.folder.fileText? root (pageFile page.name) =
        (pages.reverse.find? fun later =>
          before.folder.fileAt? root (pageFile later.name) =
            before.folder.fileAt? root (pageFile page.name)).map Page.text) ∧
      ((pages.map fun page => pageFile page.name).Nodup → (∀ page ∈ pages, '/' ∉ page.name.toList) →
        ∀ page ∈ pages, after.folder.fileText? root (pageFile page.name) = some page.text) := by
  obtain ⟨manual, -⟩ := ends_writeManual.mp ended
  have files : (manual.pages.map fun page => pageFile page.name).Nodup ↔
      (manual.pages.map Page.name).Nodup := by
    have composed : (manual.pages.map fun page => pageFile page.name) =
        (manual.pages.map Page.name).map pageFile := by
      rw [List.map_map]
      rfl
    rw [composed, List.nodup_map_iff pageFile_injective]
  refine ⟨manual.pages, Manual.generate_eq_ok.mpr ⟨manual, rfl⟩, ?_, ?_, ?_⟩
  · rw [files]
    exact manual.nodup_names_iff
  · exact fun page => Manual.fileText?_eq ended
  · exact fun different => Manual.fileText?_of_nodup ended (files.mp different)

/-- Every page of the desk has a file of its own. -/
theorem Desk.files_differ :
    ∃ after pages, Ends (writeManual "2013" api ["out"]) session () after ∧
      Manual.generate "2013" api = .ok pages ∧
      pages.map Page.name = names ∧
      ∀ page ∈ pages, after.folder.fileText? ["out"] (pageFile page.name) = some page.text := by
  obtain ⟨generated, isGenerated, named⟩ := exists_generate
  obtain ⟨manual, rfl⟩ := Manual.generate_eq_ok.mp isGenerated
  obtain ⟨after, ended⟩ := (@Manual.exists_ends _ api manual ["out"] session).mpr
    (by simpa [← named] using creatable)
  obtain ⟨pages, isPages, -, -, kept⟩ := writeManual_files_nodup_iff ended
  cases isGenerated.symm.trans isPages
  refine ⟨after, _, ended, isGenerated, named, kept ?_ ?_⟩
  · have files : (manual.pages.map fun page => pageFile page.name) = names.map pageFile := by
      rw [← named, List.map_map]
      rfl
    rw [files]
    decide
  · have flat : ∀ name ∈ names, '/' ∉ name.toList := by decide
    simpa [← named] using flat

namespace Twins

/-- Two data types whose names agree in small letters. -/
def document : Doc :=
  .object [("name", "orders"), ("resources", .list []), ("dataTypes", .list [
    .object [("name", "Order"), ("fields", .list [])],
    .object [("name", "order"), ("fields", .list [])]])]

def api : Api :=
  { name := "orders"
    dataTypes := [⟨"Order", ⟨[], [], none⟩⟩, ⟨"order", ⟨[], [], none⟩⟩] }

/-- Both data types have the same file, and the page of the first is lost. -/
theorem page_lost :
    Api.ofDoc document = .ok api ∧
      ∃ after pages, Ends (writeManual "2013" api ["out"]) Desk.session () after ∧
        Manual.generate "2013" api = .ok pages ∧
        ¬ (pages.map fun page => pageFile page.name).Nodup ∧
        ∃ page ∈ pages, after.folder.fileText? ["out"] (pageFile page.name) ≠ some page.text := by
  -- The first letters of the two pages are enough to tell them apart.
  obtain ⟨pages, generated, evaluated⟩ := @Manual.exists_of_evaluated "2013" api _
    (fun pages => (pages.map Page.name, pages.tail.map fun page => page.text.toList.head?))
    (["index", "data_type_order", "data_type_order"], [some 'O', some 'o']) (by decide +kernel)
  obtain ⟨manual, rfl⟩ := Manual.generate_eq_ok.mp generated
  refine ⟨by cbv, ?_⟩
  obtain ⟨named, letters⟩ := Prod.mk.inj evaluated
  simp only [List.map_eq_cons_iff, List.map_eq_nil_iff] at named
  obtain ⟨index, _, isPages, indexName, first, _, rfl, firstName, second, _, rfl, secondName,
    rfl⟩ := named
  simp only [isPages, List.tail_cons, List.map_cons, List.map_nil, List.cons.injEq] at letters
  obtain ⟨firstLetter, secondLetter, -⟩ := letters
  have creatable : ∀ file ∈ ["conf.py", "index.rst", "data_type_order.rst", "data_type_order.rst"],
      (Desk.session.folder.fileAt? ["out"] file).isSome := by decide
  obtain ⟨after, ended⟩ := (@Manual.exists_ends _ api manual ["out"] Desk.session).mpr
    (by simpa [isPages, indexName, firstName, secondName, pageFile] using creatable)
  refine ⟨after, manual.pages, ended, generated, by simp [isPages, firstName, secondName], first,
    by simp [isPages], ?_⟩
  have holds : after.folder.fileText? ["out"] (pageFile first.name) = some second.text := by
    have member : first ∈ manual.pages := by simp [isPages]
    rw [Manual.fileText?_eq ended member]
    simp [isPages, firstName, secondName]
  rw [holds]
  intro same
  rw [Option.some.inj same, firstLetter] at secondLetter
  cases secondLetter

end Twins

end Command

end ApiDescription
