import ApiDescription.Proofs.Manual
import ApiDescription.Proofs.Rereading
import ApiDescription.Proofs.Validity

/-!
# Links of a manual

Every link of a manual leads to one of its pages.  A page shows types that the description uses: a
reference leads to a data type, which has a page, and a type written on the spot is remembered, so
that the queue gives it a page.
-/

namespace ApiDescription.Command

open Outcome List Docs TypeRef Page

open Docs (Line Link Page OnlyShow shownSchema shownTypes)

/-! ## Types that a description uses -/

def FieldsUsed (api : Api) (type : NamedTypeDef) : Prop :=
  ∀ field ∈ type.definition.fields, api.Uses field.type

theorem fieldsUsed_of_shown {api : Api} {type : DataType} {name : String} {inner : NamedTypeDef}
    (uses : api.Uses type) (remembered : inner ∈ shownTypes (shownSchema name type)) :
    FieldsUsed api inner := by
  cases type with
  | reference target link => cases remembered
  | inline definition =>
    cases mem_singleton.mp remembered
    exact uses.fields

theorem fieldsUsed_innerTypes {api : Api} {type : NamedTypeDef} (used : FieldsUsed api type) :
    ∀ inner ∈ innerTypes type, FieldsUsed api inner := by
  intro inner member
  unfold innerTypes at member
  split at member
  · obtain ⟨field, inFields, remembered⟩ := mem_flatMap.mp member
    unfold fieldTypes at remembered
    split at remembered
    · exact fieldsUsed_of_shown (used field inFields) remembered
    · cases remembered
  · cases member

variable {page : Page} {target : String} {link : Link}

theorem fieldsUsed_remembered {api : Api} (shows : OnlyShow api.Uses page.lines) :
    ∀ type ∈ page.remembered, FieldsUsed api type := by
  intro type member
  obtain ⟨line, inLines, remembered⟩ := mem_flatMap.mp member
  obtain ⟨text, rfl⟩ | ⟨label, name, shown, _, uses, -, rfl⟩ := shows line inLines
  · cases remembered
  · refine @fieldsUsed_of_shown api shown name type uses ?_
    cases shown with
    | reference target link => cases remembered
    | inline definition => exact remembered

/-! ## Where links lead -/

theorem customName_of_target {target : TypeRef} {page : String}
    (linked : referenceLink target = .ok link) (leads : link.target? = some page) :
    ∃ name, target.customName? = some (.text name) ∧ name ≠ apiName ∧
      typePage (.text name) = .ok page := by
  induction target generalizing link with
  | primitive kind =>
    cases linked
    cases leads
  | container kind item ih =>
    simp only [referenceLink, bind_eq_ok, pure_eq_ok, Except.ok.injEq] at linked
    obtain ⟨inner, linkedItem, rfl⟩ := linked
    exact ih linkedItem leads
  | custom name =>
    rw [referenceLink] at linked
    split at linked
    · cases linked
      cases leads
    next other =>
        simp only [bind_eq_ok, pure_eq_ok, Except.ok.injEq] at linked
        obtain ⟨own, named, rfl⟩ := linked
        cases leads
        obtain ⟨text, rfl, -⟩ := typePage_eq_ok.mp named
        refine ⟨text, rfl, ?_, named⟩
        rintro rfl
        simp at other

/-- The link for a type that a valid description uses leads to the page of a data type, or to that
of the type written on the spot. -/
theorem target_of_shown {api : Api} (valid : api.Valid)
    (present : ∀ target link, api.Uses (.reference target
      link) → target.customName? ≠ some (.text noneName)) {type : DataType} {name : String}
    {page : String} (uses : api.Uses type) (linked : schemaLink (shownSchema name type) = .ok link)
    (leads : link.target? = some page) :
    ∃ other ∈ api.dataTypes ++ shownTypes (shownSchema name type),
      typePage other.name = .ok page := by
  cases type with
  | inline definition =>
    simp only [shownSchema, schemaLink, bind_eq_ok, pure_eq_ok, Except.ok.injEq] at linked
    obtain ⟨own, named, rfl⟩ := linked
    cases leads
    exact ⟨_, mem_append_right _ (mem_singleton.mpr rfl), named⟩
  | reference target ref =>
    obtain ⟨text, custom, notApi, named⟩ := customName_of_target linked leads
    obtain isApi | isNone | ⟨other, known, same⟩ := valid.references target ref uses _ custom
    · cases isApi
      exact absurd rfl notApi
    · exact absurd (isNone ▸ custom) (present target ref uses)
    · obtain ⟨found, inTypes, rfl⟩ := mem_map.mp known
      rw [Doc.same_text_right] at same
      exact ⟨found, mem_append_left _ inTypes, same ▸ named⟩

/-- A link of a page that shows types which the description uses leads to the page of a data type,
or to that of a type that the page remembers. -/
theorem target_of_onlyShow {api : Api} (valid : api.Valid)
    (present : ∀ target link, api.Uses (.reference target
      link) → target.customName? ≠ some (.text noneName)) (shows : OnlyShow api.Uses page.lines)
    (leads : target ∈ page.targets) :
    ∃ other ∈ api.dataTypes ++ page.remembered, typePage other.name = .ok target := by
  obtain ⟨line, inLines, leadsLine⟩ := mem_flatMap.mp leads
  obtain ⟨text, rfl⟩ | ⟨label, name, shown, link, uses, linked, rfl⟩ := shows line inLines
  · cases leadsLine
  · obtain ⟨other, known, named⟩ :=
      target_of_shown valid present uses linked (Option.mem_toList.mp leadsLine)
    refine ⟨other, ?_, named⟩
    rcases mem_append.mp known with known | known
    · exact mem_append_left _ known
    · refine mem_append_right _ (mem_flatMap.mpr ⟨_, inLines, ?_⟩)
      cases shown with
      | reference target link => cases known
      | inline definition => exact known

theorem target_of_indexLines {api : Api} {info : Info} (isPage : ofApi api info = .ok page)
    (leads : target ∈ page.targets) :
    (∃ resource ∈ api.resources, resourcePage resource = .ok target) ∨
      ∃ type ∈ api.dataTypes, typePage type.name = .ok target := by
  have entries (depth : String) (pages : List String) :
      (listing depth pages).flatMap Line.targets = pages := by
    simp [listing, flatMap_map, Line.targets]
  obtain ⟨lines, _, laid, ⟨⟩, isLines⟩ := allLines_cons.mp (ofSections_eq_ok.mp isPage).2
  simp only [indexLines, bind_eq_ok, pure_eq_ok, Except.ok.injEq] at laid
  obtain ⟨description, -, resources, areResources, types, areTypes, license, -, rfl⟩ := laid
  have listed : target ∈ resources ++ types := by
    rw [targets, ← isLines] at leads
    cases types with
    | nil => simpa [entries] using leads
    | cons first rest => simpa [entries] using leads
  rcases mem_append.mp listed with listed | listed
  · exact .inl (exists_of_mem_mapM areResources listed)
  · exact .inr (exists_of_mem_mapM areTypes listed)

/-! ## Pages that links lead to -/

theorem shows_resourceSections {api : Api} {resource : Resource}
    (inResources : resource ∈ api.resources) :
    ∀ part ∈ resourceSections api resource, Shows api.Uses part := by
  refine Docs.shows_resourceSections (fun operation declared type given => ?_)
    fun operation declared type given => ?_
  · obtain ⟨input, hasInput, hasType⟩ := Option.bind_eq_some_iff.mp given
    exact ⟨type, .input inResources declared hasInput hasType, .self⟩
  · obtain ⟨output, hasOutput, hasType⟩ := Option.bind_eq_some_iff.mp given
    exact ⟨type, .output inResources declared hasOutput hasType, .self⟩

theorem onlyShow_ofType {api : Api} {type : NamedTypeDef} (isPage : ofType type = .ok page)
    (used : FieldsUsed api type) : OnlyShow api.Uses page.lines :=
  onlyShow_of_shows (shows_typeSections used) (ofSections_eq_ok.mp isPage).2

namespace Manual

variable {year : String} {api : Api} (manual : Manual year api)

theorem shows : ∀ page ∈ manual.resources ++ manual.types ++ manual.inner,
    OnlyShow api.Uses page.lines := by
  have resource_shows : ∀ page ∈ manual.resources, OnlyShow api.Uses page.lines := by
    intro page member
    obtain ⟨resource, inResources, isPage⟩ := exists_of_mem_mapM manual.areResources member
    exact onlyShow_of_shows (shows_resourceSections inResources) (ofSections_eq_ok.mp isPage).2
  have type_shows : ∀ page ∈ manual.types, OnlyShow api.Uses page.lines := by
    intro page member
    obtain ⟨type, inTypes, isPage⟩ := exists_of_mem_mapM manual.areTypes member
    exact onlyShow_ofType isPage (Api.Uses.fields ⟨_, .dataType inTypes, .self⟩)
  have first_shows := forall_mem_append.mpr ⟨resource_shows, type_shows⟩
  have queue_used : ∀ type ∈ manual.innerTypes, FieldsUsed api type := by
    refine forall_queued (fun type member => ?_) fun type => fieldsUsed_innerTypes
    obtain ⟨page, inPages, remembered⟩ := mem_flatMap.mp member
    exact fieldsUsed_remembered (first_shows page inPages) type remembered
  refine forall_mem_append.mpr ⟨first_shows, fun page member => ?_⟩
  obtain ⟨type, inQueue, isPage⟩ := exists_of_mem_mapM manual.areInner member
  exact onlyShow_ofType isPage (queue_used type inQueue)

theorem remembered_subset : ∀ page ∈ manual.resources ++ manual.types ++ manual.inner,
    page.remembered ⊆ manual.innerTypes := by
  refine forall_mem_append.mpr ⟨fun page member type remembered => ?_, fun page member => ?_⟩
  · exact subset_queued _ (mem_flatMap.mpr ⟨page, member, remembered⟩)
  · obtain ⟨type, inQueue, isPage⟩ := exists_of_mem_mapM manual.areInner member
    rw [remembered_ofType isPage]
    exact innerTypes_subset_queued inQueue

variable {target : String}

theorem exists_page_of_resource {resource : Resource} (inResources : resource ∈ api.resources)
    (named : resourcePage resource = .ok target) :
    ∃ page ∈ manual.pages, page.name = target := by
  obtain ⟨page, inPages, isPage⟩ := exists_mem_of_mapM manual.areResources inResources
  refine ⟨page, by simp [pages, inPages], ?_⟩
  exact Except.ok.inj ((ofSections_eq_ok.mp isPage).1.symm.trans named)

theorem exists_page_of_type {type : NamedTypeDef}
    (known : type ∈ api.dataTypes ++ manual.innerTypes) (named : typePage type.name = .ok target) :
    ∃ page ∈ manual.pages, page.name = target := by
  obtain ⟨page, inPages, isPage⟩ : ∃ page ∈ manual.types ++ manual.inner,
      ofType type = .ok page := by
    rcases mem_append.mp known with known | known
    · obtain ⟨page, inPages, isPage⟩ := exists_mem_of_mapM manual.areTypes known
      exact ⟨page, mem_append_left _ inPages, isPage⟩
    · obtain ⟨page, inPages, isPage⟩ := exists_mem_of_mapM manual.areInner known
      exact ⟨page, mem_append_right _ inPages, isPage⟩
  refine ⟨page, ?_, Except.ok.inj ((ofSections_eq_ok.mp isPage).1.symm.trans named)⟩
  simp only [pages, append_assoc]
  exact mem_cons_of_mem _ (mem_append_right _ inPages)

/-- Every link and every entry of a manual leads to one of its pages. -/
theorem exists_page_of_target (valid : api.Valid)
    (present : ∀ target link, api.Uses (.reference target link) →
      target.customName? ≠ some (.text noneName)) :
    ∀ page ∈ manual.pages, ∀ target ∈ page.targets, ∃ other ∈ manual.pages,
      other.name = target := by
  intro page member target leads
  rcases mem_cons.mp member with rfl | inRest
  · rcases target_of_indexLines manual.isIndex leads
      with ⟨resource, known, named⟩ | ⟨type, known, named⟩
    · exact manual.exists_page_of_resource known named
    · exact manual.exists_page_of_type (mem_append_left _ known) named
  · obtain ⟨type, known, named⟩ :=
      target_of_onlyShow valid present (manual.shows page inRest) leads
    refine manual.exists_page_of_type ?_ named
    rcases mem_append.mp known with known | known
    · exact mem_append_left _ known
    · exact mem_append_right _ (manual.remembered_subset page inRest known)

end Manual

/-! ## Pages that cannot be written -/

/-- However the command ends, the directories are those that were there before. -/
def KeepsDirectories {α : Type} (work : Running α) : Prop :=
  ∀ before, (work.run.run before : Except Stop α × Session).2.folder.directories =
    before.folder.directories

namespace KeepsDirectories

variable {α β : Type}

theorem pure (value : α) : KeepsDirectories (Pure.pure value) := fun _ => rfl

theorem throw (stop : Stop) : KeepsDirectories (throw stop : Running α) := fun _ => rfl

theorem attempt (outcome : Except Fault α) : KeepsDirectories (Running.attempt outcome) := by
  cases outcome with
  | error fault => exact throw _
  | ok value => exact pure value

theorem bind {first : Running α} {next : α → Running β} (keeps : KeepsDirectories first)
    (keepsNext : ∀ value, KeepsDirectories (next value)) : KeepsDirectories (first >>= next) := by
  intro before
  have kept := keeps before
  rw [run_bind]
  revert kept
  cases (first.run.run before : Except Stop α × Session) with
  | mk outcome middle =>
    intro kept
    cases outcome with
    | error stop => exact kept
    | ok value => exact (keepsNext value middle).trans kept

theorem get : KeepsDirectories get := fun _ => rfl

theorem create (start : Place) (path : String) : KeepsDirectories (Running.create start path) := by
  unfold Running.create
  split
  · exact throw _
  · refine get.bind fun session => ?_
    have creates (place : Place) : KeepsDirectories (do
        modify fun session => { session with folder := session.folder.putFile place "" }
        return place : Running Place) :=
      bind (fun _ => rfl) fun _ => pure _
    dsimp only
    split
    · exact throw _
    · split
      · exact (throw _).bind fun _ => creates _
      · exact creates _

theorem append (place : Place) (text : String) : KeepsDirectories (Running.append place text) :=
  fun _ => rfl

theorem forIn {items : List α} {step : α → β → Running (ForInStep β)}
    (each : ∀ item state, KeepsDirectories (step item state)) (state : β) :
    KeepsDirectories (forIn items state step) := by
  induction items generalizing state with
  | nil => exact pure state
  | cons item rest ih =>
    rw [forIn_cons]
    refine (each item state).bind fun next => ?_
    cases next with
    | done result => exact pure result
    | yield state => exact ih state

end KeepsDirectories

theorem keepsDirectories_writePaging (root : Place) (name : String) (page : Paging String)
    (pending : List NamedTypeDef) : KeepsDirectories (writePaging root name page pending) :=
  (KeepsDirectories.create _ _).bind fun _ => (KeepsDirectories.attempt _).bind fun _ =>
    (KeepsDirectories.append _ _).bind fun _ => KeepsDirectories.pure _

theorem keepsDirectories_writePage (root : Place) (name : String) {text : Running String}
    (keeps : KeepsDirectories text) : KeepsDirectories (writePage root name text) :=
  (KeepsDirectories.create _ _).bind fun _ => keeps.bind fun _ => KeepsDirectories.append _ _

theorem keepsDirectories_writeTypePage (root : Place) (type : NamedTypeDef)
    (pending : List NamedTypeDef) : KeepsDirectories (writeTypePage root type pending) :=
  (KeepsDirectories.attempt _).bind fun _ => keepsDirectories_writePaging _ _ _ _

theorem keepsDirectories_writePending (root : Place) (fuel : Nat) (types : List NamedTypeDef) :
    KeepsDirectories (writePending root fuel types) := by
  induction fuel generalizing types with
  | zero => exact KeepsDirectories.pure ()
  | succ fuel ih =>
    cases types with
    | nil => exact KeepsDirectories.pure ()
    | cons type rest => exact (keepsDirectories_writeTypePage root type rest).bind ih

theorem keepsDirectories_writeManual (year : String) (api : Api) (root : Place) :
    KeepsDirectories (writeManual year api root) := by
  refine (KeepsDirectories.attempt _).bind fun info => (KeepsDirectories.attempt _).bind
    fun settings => ?_
  refine (keepsDirectories_writePage _ _ (KeepsDirectories.pure _)).bind fun _ => ?_
  refine (keepsDirectories_writePage _ _ (KeepsDirectories.attempt _)).bind fun _ => ?_
  refine (KeepsDirectories.forIn (fun resource pending => ?_) _).bind fun pending => ?_
  · exact (KeepsDirectories.attempt _).bind fun _ =>
      (keepsDirectories_writePaging _ _ _ _).bind fun _ => KeepsDirectories.pure _
  refine (KeepsDirectories.forIn (fun type pending => ?_) _).bind fun pending => ?_
  · exact (keepsDirectories_writeTypePage _ _ _).bind fun _ => KeepsDirectories.pure _
  exact keepsDirectories_writePending _ _ _

theorem fileText?_eq_none {year path : String} {api : Api} {root : Place} {before : Session}
    (nowhere : before.folder.locate root path = none) :
    ((writeManual year api root).run.run before : Except Stop Unit × Session).2.folder.fileText?
      root path =
      none := by
  rw [Folder.fileText?, Folder.locate_congr (keepsDirectories_writeManual year api root before),
    nowhere]
  rfl

/-! ## Links in the files of a manual -/

/-- Where every generator for an accepted description returns and no type is absent, the queue of
types written on the spot runs empty by itself, the manual is written exactly when all its files can
be created, and then every link and every entry of every page leads to a page whose file was
written. -/
theorem writeManual_links_resolve {year : String} {document : Doc} {api : Api} {pages : List Page}
    {root : Place} {before : Session} (accepted : Api.ofDoc document = .ok api)
    (present : ∀ target link, api.Uses (.reference target link) →
      target.customName? ≠ some (.text TypeRef.noneName))
    (returned : Manual.generate year api = .ok pages) :
    (∀ types fuel session, pendingPages types ≤ fuel →
      (writePending root fuel types).run.run session =
        (writePending root (pendingPages types) types).run.run session) ∧
    ((∃ after, Ends (writeManual year api root) before () after) ↔
      ∀ file ∈ "conf.py" :: pages.map fun page => pageFile page.name,
        (before.folder.fileAt? root file).isSome) ∧
    ∀ after, Ends (writeManual year api root) before () after → ∀ page ∈ pages,
      (∃ last ∈ pages, after.folder.fileText? root (pageFile page.name) = some last.text) ∧
      ∀ target ∈ page.targets, ∃ other ∈ pages, other.name = target := by
  have valid := Api.valid_of_validate (Api.validate_of_ofDoc accepted)
  obtain ⟨manual, rfl⟩ := Manual.generate_eq_ok.mp returned
  refine ⟨fun types fuel session enough => writePending_congr enough le_rfl,
    manual.exists_ends, fun after ended page member => ?_⟩
  obtain ⟨last, inPages, -, holds⟩ := Manual.exists_fileText? ended member
  exact ⟨⟨last, inPages, holds⟩, manual.exists_page_of_target valid present page member⟩

namespace Desk

/-- Tickets are opened with a body and are answered with labels; the body and the owner of a ticket
are described on the spot, and so is the team of the owner. -/
def document : Doc :=
  .object [("name", "desk"), ("base", "http://desk/"),
    ("resources", .list [.object [("name", "Ticket"), ("path", "/tickets"),
      ("operations", .list [.object [("name", "open"), ("method", "POST"),
        ("input", .object [("contentType", "application/json"), ("type", .object [("fields", .list [
          .object [("name", "body"), ("type", "string")]])])]),
        ("output", .object [("status", .int 201), ("contentType", "application/json"),
          ("type", "Ticket")])]])]]),
    ("dataTypes", .list [
      .object [("name", "Ticket"), ("fields", .list [
        .object [("name", "owner"), ("type", .object [("fields", .list [
          .object [("name", "team"), ("type", .object [("fields", .list [
            .object [("name", "title"), ("type", "string")]])])]])])],
        .object [("name", "labels"), ("type", "list(Label)")]])],
      .object [("name", "Label"), ("fields", .list [])]])]

def field (name : String) (type : DataType) : Field :=
  { name := .text name, description := none, optional := .bool false, type }

def text : DataType :=
  .reference (.primitive .string) .null

def opening : DataType :=
  .inline ⟨[field "body" text], [], none⟩

def ticket : TypeDef :=
  ⟨[field "owner" (.inline ⟨[field "team" (.inline ⟨[field "title" text], [], none⟩)], [], none⟩),
    field "labels" (.reference (.container .list (.custom "Label")) .null)], [], none⟩

def api : Api :=
  { name := "desk", base := ["http://desk/"]
    resources := [
      { name := "Ticket", path := "/tickets"
        operations := [
          { name := "open", method := "POST"
            input := some { contentType := ["application/json"], type := some opening }
            output := some
              { status := .int 201, contentType := some ["application/json"]
                type := some (.reference (.custom "Ticket") .null) } }] }]
    dataTypes := [⟨"Ticket", ticket⟩, ⟨"Label", ⟨[], [], none⟩⟩] }

theorem accepted : Api.ofDoc document = .ok api := by
  cbv

theorem present (target : TypeRef) (link : Doc) (uses : api.Uses (.reference target link)) :
    target.customName? ≠ some (.text noneName) := by
  obtain ⟨type, given, within⟩ := uses
  have member := given.mem_givenTypes
  simp [api, Api.givenTypes, Operation.givenTypes] at member
  rcases member with rfl | rfl | rfl | rfl
  · simp [DataType.within_inline, DataType.within_reference, ticket, field, text] at within
    rcases within with ⟨rfl, rfl⟩ | ⟨rfl, rfl⟩ <;> simp [customName?, noneName]
  · simp [DataType.within_inline] at within
  · simp [DataType.within_inline, DataType.within_reference, opening, field, text] at within
    obtain ⟨rfl, rfl⟩ := within
    simp [customName?]
  · cases DataType.within_reference.mp within
    simp [customName?, noneName]

/-- A session that works in a directory with nothing in it but a directory for the manual. -/
def session : Session :=
  { folder := { here := [], files := [], directories := [[], ["out"]] }, report := [],
    traffic := [] }

def names : List String :=
  ["index", "ticket", "data_type_ticket", "data_type_label", "data_type_ticket_open_inputtype",
    "data_type_ticket_owner", "data_type_ticket_owner_team"]

theorem exists_generate : ∃ pages, Manual.generate "2013" api = .ok pages ∧
    pages.map name = names :=
  Manual.exists_of_evaluated (map name) (by decide +kernel)

theorem creatable : ∀ file ∈ "conf.py" :: names.map pageFile,
    (session.folder.fileAt? ["out"] file).isSome := by
  decide

/-- Types that are described on the spot have pages at every depth. -/
theorem links_resolve :
    ∃ pages, Manual.generate "2013" api = .ok pages ∧ pages.map Page.name = names ∧
      ∃ after, Ends (writeManual "2013" api ["out"]) session () after ∧ ∀ page ∈ pages,
        (∃ last ∈ pages, after.folder.fileText? ["out"] (pageFile page.name) = some last.text) ∧
        ∀ target ∈ page.targets, ∃ other ∈ pages, other.name = target := by
  obtain ⟨pages, generated, named⟩ := exists_generate
  obtain ⟨-, ends_iff, resolve⟩ :=
    @writeManual_links_resolve _ document api pages ["out"] session accepted present generated
  obtain ⟨after, ended⟩ := ends_iff.mpr (by simpa [← named] using creatable)
  exact ⟨pages, generated, named, after, ended, resolve after ended⟩

end Desk

namespace Subfolder

def document : Doc :=
  .object [("name", "orders"), ("resources", .list [
    .object [("name", "a/b"), ("path", "/orders"), ("operations", .list [])]])]

def api : Api :=
  { name := "orders", resources := [⟨"a/b", "/orders", [], []⟩] }

/-- All generators return, and still no page is written for an entry of the first page: there is no
directory for its file. -/
theorem entry_without_page :
    Api.ofDoc document = .ok api ∧ (∀ type, ¬ api.Gives type) ∧
      ∃ pages, Manual.generate "2013" api = .ok pages ∧ (∃ page ∈ pages, "a/b" ∈ page.targets) ∧
        ((writeManual "2013" api ["out"]).run.run Desk.session :
          Except Stop Unit × Session).2.folder.fileText? ["out"] (pageFile "a/b") = none := by
  refine ⟨by cbv, fun type given => ?_, ?_⟩
  · simpa [api, Api.givenTypes] using given.mem_givenTypes
  · obtain ⟨pages, generated, targets⟩ :=
      @Manual.exists_of_evaluated "2013" api _ (List.map Page.targets)
      [["a/b"], []] (by decide +kernel)
    refine ⟨pages, generated, ?_, fileText?_eq_none (by decide +kernel)⟩
    have listed : ["a/b"] ∈ pages.map Page.targets := by simp [targets]
    obtain ⟨page, member, isTargets⟩ := List.mem_map.mp listed
    exact ⟨page, member, by simp [isTargets]⟩

end Subfolder

end ApiDescription.Command
