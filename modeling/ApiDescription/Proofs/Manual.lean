import ApiDescription.Command.ManualCommand
import ApiDescription.Proofs.Pages
import Mathlib

/-!
# Writing a manual

A manual is a list of pages: the first page, the pages of the resources and of the data types, and
the pages of the types written on the spot, which are found while pages are written and may hold
further ones.  They wait in a queue; since a type weighs more than all types inside it together, the
queue runs empty.  A run that ends writes exactly these pages, one after the other, and it ends
exactly when every page has a text and a file can be created for it.
-/

namespace ApiDescription.Command

open Outcome List Folder Running Docs

open Docs (Page Paging innerTypes fieldTypes)

variable {α β : Type}

variable {type : NamedTypeDef} {types : List NamedTypeDef} {page : Page}

/-! ## Runs that end by themselves -/

/-- The command ends by itself with a value and leaves the session `after`. -/
def Ends (work : Running α) (before : Session) (value : α) (after : Session) : Prop :=
  @Eq (Except Stop α × Session) (work.run.run before) (.ok value, after)

section Steps

variable {before after : Session} {value : α}

@[simp] theorem ends_pure {result : α} :
    Ends (pure result : Running α) before value after ↔ result = value ∧ before = after := by
  change (Except.ok result, before) = (Except.ok value, after) ↔ _
  simp

@[simp] theorem ends_throw {stop : Stop} : ¬ Ends (throw stop : Running α) before value after := by
  change (Except.error stop, before) ≠ (Except.ok value, after)
  simp

@[simp] theorem ends_modify {change : Session → Session} {result : PUnit} :
    Ends (modify change : Running PUnit) before result after ↔ change before = after := by
  change (Except.ok PUnit.unit, change before) = (Except.ok result, after) ↔ _
  simp

@[simp] theorem ends_attempt {outcome : Except Fault α} :
    Ends (attempt outcome) before value after ↔ outcome = .ok value ∧ before = after := by
  cases outcome with
  | error fault => simp [attempt]
  | ok result => simp [attempt]

theorem run_bind (first : Running α) (next : α → Running β) (before : Session) :
    @Eq (Except Stop β × Session) ((first >>= next).run.run before)
      (match (first.run.run before : Except Stop α × Session) with
        | (.ok value, middle) => (next value).run.run middle
        | (.error stop, middle) => (.error stop, middle)) := by
  rw [ExceptT.run_bind, StateT.run_bind]
  cases first.run.run before with
  | mk outcome middle => cases outcome <;> rfl

variable {result : β} {first : Running α} {next : α → Running β}

theorem ends_bind :
    Ends (first >>= next) before result after ↔
      ∃ value middle, Ends first before value middle ∧ Ends (next value) middle result after := by
  unfold Ends
  rw [run_bind]
  cases (first.run.run before : Except Stop α × Session) with
  | mk outcome middle => cases outcome <;> simp

theorem ends_get_bind {next : Session → Running β} :
    Ends (get >>= next) before result after ↔ Ends (next before) before result after :=
  Iff.rfl

/-- What comes behind a command matters only where that command ends. -/
theorem run_bind_congr {other : α → Running β}
    (same : ∀ value middle, Ends first before value middle → (next
      value).run.run middle = (other value).run.run middle) :
    (first >>= next).run.run before = (first >>= other).run.run before := by
  unfold Ends at same
  rw [run_bind, run_bind]
  revert same
  cases (first.run.run before : Except Stop α × Session) with
  | mk outcome middle =>
    intro same
    cases outcome with
    | error stop => rfl
    | ok value => exact same value middle rfl

end Steps

/-! ## Files -/

namespace Folder

def fileAt? (folder : Folder) (start : Place) (path : String) : Option Place := do
  guard ('\x00' ∉ path.toList)
  let place ← folder.locate start path
  guard (!folder.isDirectory place)
  return place

theorem locate_congr {first second : Folder} (same : first.directories = second.directories)
    (start : Place) (path : String) : first.locate start path = second.locate start path := by
  have walk_congr (names : List String) (start : Place) :
      first.walk start names = second.walk start names := by
    induction names generalizing start with
    | nil => rfl
    | cons name rest ih =>
      simp only [walk, isDirectory, same, ih]
      rfl
  simp only [locate, walk_congr]

@[simp] theorem fileAt?_putFile (folder : Folder) (place start : Place) (content path : String) :
    (folder.putFile place content).fileAt? start path = folder.fileAt? start path := by
  have same : (folder.putFile place content).directories = folder.directories := rfl
  simp only [fileAt?, locate_congr same]
  rfl

theorem content?_putFile (folder : Folder) (place other : Place) (content : String) :
    (folder.putFile place content).content? other =
      if other = place then some content else folder.content? other := by
  have lookup_put (files : List (Place × String)) :
      (putFile.put place content files).lookup other =
        if other = place then some content else files.lookup other := by
    induction files with
    | nil =>
      by_cases same : other = place
      · simp [putFile.put, same]
      · simp [putFile.put, lookup, same, beq_false_of_ne same]
    | cons file rest ih =>
      obtain ⟨name, old⟩ := file
      by_cases isPlace : name = place
      · by_cases same : other = place
        · simp [putFile.put, isPlace, same]
        · simp [putFile.put, lookup, isPlace, same, beq_false_of_ne same]
      · by_cases isName : other = name
        · simp [putFile.put, lookup, isPlace, isName]
        · simpa [putFile.put, lookup, isPlace, beq_false_of_ne isName] using ih
  exact lookup_put folder.files

theorem putFile_putFile (folder : Folder) (place : Place) (first second : String) :
    (folder.putFile place first).putFile place second = folder.putFile place second := by
  have put_put (files : List (Place × String)) :
      putFile.put place second (putFile.put place first files) =
        putFile.put place second files := by
    induction files with
    | nil => simp [putFile.put]
    | cons file rest ih =>
      obtain ⟨name, old⟩ := file
      by_cases isPlace : name = place <;> simp [putFile.put, isPlace, ih]
  simp [putFile, put_put]

def fileText? (folder : Folder) (root : Place) (path : String) : Option String :=
  (folder.locate root path).bind folder.content?

theorem locate_of_fileAt? {folder : Folder} {root place : Place} {path : String}
    (creatable : folder.fileAt? root path = some place) : folder.locate root path = some place := by
  simp only [fileAt?, Option.bind_eq_bind, Option.bind_eq_some_iff, Option.pure_def] at creatable
  obtain ⟨-, -, found, located, -, -, ⟨⟩⟩ := creatable
  exact located

end Folder

section Files

variable {before after : Session} {root : Place}

theorem ends_create {path : String} {place : Place} :
    Ends (create root path) before place after ↔
      before.folder.fileAt? root path = some place ∧
        { before with folder := before.folder.putFile place "" } = after := by
  unfold create fileAt?
  rw [String.contains_char_eq]
  by_cases nul : '\x00' ∈ path.toList
  · simp [nul, guard]
  · simp only [nul, decide_false, Bool.false_eq_true, if_false, ends_get_bind]
    cases before.folder.locate root path with
    | none => simp
    | some found =>
      by_cases directory : before.folder.isDirectory found = true
      · simp [directory, guard]
      · simp only [directory, Bool.false_eq_true, if_false, ends_bind, ends_modify, ends_pure,
          not_false_eq_true, Bool.not_false, guard_true, Option.pure_def, Option.bind_eq_bind,
          Option.bind_some, Option.some.injEq]
        constructor
        · rintro ⟨_, _, rfl, rfl, rfl⟩
          exact ⟨rfl, rfl⟩
        · rintro ⟨rfl, rfl⟩
          exact ⟨⟨⟩, _, rfl, rfl, rfl⟩

/-- The session after a page was written, if a file can be created for it. -/
def write? (root : Place) (session : Session) (name text : String) : Option Session :=
  (session.folder.fileAt? root name).map fun place =>
    { session with folder := session.folder.putFile place text }

variable {name : String}

theorem ends_writePage {outcome : Except Fault String} {result : Unit} :
    Ends (writePage root name (attempt outcome)) before result after ↔
      ∃ text, outcome = .ok text ∧ write? root before name text = some after := by
  unfold writePage write?
  simp only [ends_bind, ends_create, ends_attempt, append, ends_modify, Option.map_eq_some_iff]
  constructor
  · rintro ⟨place, _, ⟨created, rfl⟩, text, _, ⟨known, rfl⟩, rfl⟩
    exact ⟨text, known, place, created, by simp [content?_putFile, putFile_putFile]⟩
  · rintro ⟨text, known, place, created, rfl⟩
    exact ⟨place, _, ⟨created, rfl⟩, text, _, ⟨known, rfl⟩, by
      simp [content?_putFile, putFile_putFile]⟩

def putPage (root : Place) (session : Session) (page : Page) : Option Session :=
  write? root session (pageFile page.name) page.text

variable {pending found : List NamedTypeDef}

theorem ends_writePaging {work : Paging String} :
    Ends (writePaging root name work pending) before found after ↔
      ∃ text, Client.Returns work pending text found ∧
        write? root before name text = some after := by
  have split_run : writePaging root name work pending =
      (do
        let place ← create root name
        append place (← attempt (work.run.run pending : Except Fault String × List NamedTypeDef).1)
        return (work.run.run pending : Except Fault String × List NamedTypeDef).2) := rfl
  have run_eq : ∀ text, Client.Returns work pending text found ↔
      (work.run.run pending : Except Fault String × List NamedTypeDef).1 = .ok text ∧
        (work.run.run pending : Except Fault String × List NamedTypeDef).2 = found :=
    fun _ => Prod.ext_iff
  rw [split_run]
  unfold write?
  simp only [ends_bind, ends_create, ends_attempt, append, ends_modify, ends_pure,
    Option.map_eq_some_iff, run_eq]
  constructor
  · rintro ⟨place, _, ⟨created, rfl⟩, text, _, ⟨known, rfl⟩, _, _, rfl, kept, rfl⟩
    exact ⟨text, ⟨known, kept⟩, place, created, by simp [content?_putFile, putFile_putFile]⟩
  · rintro ⟨text, ⟨known, kept⟩, place, created, rfl⟩
    exact ⟨place, _, ⟨created, rfl⟩, text, _, ⟨known, rfl⟩, ⟨⟩, _, rfl, kept,
      by simp [content?_putFile, putFile_putFile]⟩

theorem ends_writeSections {name : Except Fault String}
    {sections : List (Except Fault (List Line))} :
    Ends (do let name ← attempt name; writePaging root (pageFile name) (pageText sections) pending)
        before found after ↔
      ∃ page, Page.ofSections name sections = .ok page ∧ putPage root before page = some after ∧
        pending ++ page.remembered = found := by
  simp only [ends_bind, ends_attempt, ends_writePaging, returns_pageText, Page.ofSections_eq_ok,
    putPage, Page.remembered]
  constructor
  · rintro ⟨name, _, ⟨named, rfl⟩, _, ⟨lines, laid, rfl, rfl⟩, written⟩
    exact ⟨⟨name, lines⟩, ⟨named, laid⟩, written, rfl⟩
  · rintro ⟨⟨name, lines⟩, ⟨named, laid⟩, written, rfl⟩
    exact ⟨name, _, ⟨named, rfl⟩, _, ⟨lines, laid, rfl, rfl⟩, written⟩

theorem ends_writeTypePage :
    Ends (writeTypePage root type pending) before found after ↔
      ∃ page, Page.ofType type = .ok page ∧ putPage root before page = some after ∧
        pending ++ page.remembered = found :=
  ends_writeSections

theorem ends_forIn_pages {items : List α} {pageOf : α → Except Fault Page}
    {write : α → List NamedTypeDef → Running (List NamedTypeDef)}
    (each : ∀ item pending before found after, Ends (write item pending) before found after ↔
      ∃ page, pageOf item = .ok page ∧ putPage root before page = some after ∧
        pending ++ page.remembered = found) :
    Ends (forIn items pending fun item pending => do
        let pending ← write item pending
        pure (ForInStep.yield pending)) before found after ↔
      ∃ pages, items.mapM pageOf = .ok pages ∧ pages.foldlM (putPage root) before = some after ∧
        pending ++ pages.flatMap Page.remembered = found := by
  induction items generalizing pending before with
  | nil => simp [and_comm]
  | cons item rest ih =>
    simp only [forIn_cons, bind_assoc, pure_bind, ends_bind, each, mapM_cons,
      bind_eq_ok, pure_eq_ok, Except.ok.injEq, ih]
    constructor
    · rintro ⟨_, middle, ⟨page, isPage, written, rfl⟩, pages, arePages, writtenAll, rfl⟩
      exact ⟨page :: pages, ⟨page, isPage, pages, arePages, rfl⟩, by
        simp [written, writtenAll], by simp⟩
    · rintro ⟨_, ⟨page, isPage, pages, arePages, rfl⟩, written, rfl⟩
      obtain ⟨middle, writtenFirst, writtenAll⟩ := Option.bind_eq_some_iff.mp written
      exact ⟨_, middle, ⟨page, isPage, writtenFirst, rfl⟩, pages, arePages, writtenAll, by simp⟩

end Files

/-! ## The queue of types written on the spot -/

@[simp] theorem pendingPages_nil : pendingPages [] = 0 := rfl

@[simp] theorem pendingPages_cons (type : NamedTypeDef) (rest : List NamedTypeDef) :
    pendingPages (type :: rest) = inlineCount type + pendingPages rest := rfl

@[simp] theorem pendingPages_append (first second : List NamedTypeDef) :
    pendingPages (first ++ second) = pendingPages first + pendingPages second := by
  induction first with
  | nil => simp
  | cons type rest ih => simp [ih, Nat.add_assoc]

theorem inlineCount_eq (type : NamedTypeDef) :
    inlineCount type = Field.weightAll type.definition.fields + 1 := by
  obtain ⟨name, fields, constraints, description⟩ := type
  rfl

theorem pendingPages_innerTypes (type : NamedTypeDef) :
    pendingPages (innerTypes type) < inlineCount type := by
  have field_weight (owner : String) (field : Field) :
      pendingPages (fieldTypes owner field) ≤ field.weight := by
    obtain ⟨name, description, optional, type⟩ := field
    cases name with
    | texts names => simp [fieldTypes]
    | text name =>
      cases type with
      | reference target link => simp [fieldTypes, shownTypes, shownSchema]
      | inline definition =>
        obtain ⟨fields, constraints, note⟩ := definition
        simp [fieldTypes, shownTypes, shownSchema, inlineCount_eq, NamedTypeDef.standIn,
          Field.weight, DataType.weight, TypeDef.weight]
  have fields_weight (owner : String) (fields : List Field) :
      pendingPages (fields.flatMap (fieldTypes owner)) ≤ Field.weightAll fields := by
    induction fields with
    | nil => simp
    | cons field rest ih =>
      rw [flatMap_cons, pendingPages_append, Field.weightAll]
      exact Nat.add_le_add (field_weight owner field) ih
  rw [inlineCount_eq]
  unfold innerTypes
  split
  · exact Nat.lt_succ_of_le (fields_weight _ _)
  · simp

/-- A queue gets lighter when a type is taken from it and the types inside that type are put
behind. -/
theorem pendingPages_advance (type : NamedTypeDef) (rest : List NamedTypeDef) :
    pendingPages (rest ++ innerTypes type) < pendingPages (type :: rest) := by
  have lighter := pendingPages_innerTypes type
  rw [pendingPages_append, pendingPages_cons]
  omega

/-- What holds of the empty queue and of every queue that holds a type more than one it holds of is
true of all queues. -/
theorem queue_induction {motive : List NamedTypeDef → Prop} (nil : motive [])
    (cons : ∀ type rest, motive (rest ++ innerTypes type) → motive (type :: rest)) :
    (types : List NamedTypeDef) → motive types
  | [] => nil
  | type :: rest => cons type rest (queue_induction nil cons (rest ++ innerTypes type))
termination_by types => pendingPages types
decreasing_by exact pendingPages_advance type rest

/-- The types that a queue gives, `fuel` of them at most: those that wait come before the types
inside the one that is given. -/
def drain : Nat → List NamedTypeDef → List NamedTypeDef
  | 0, _ => []
  | _, [] => []
  | fuel + 1, type :: rest => type :: drain fuel (rest ++ innerTypes type)

def queued (types : List NamedTypeDef) : List NamedTypeDef :=
  drain (pendingPages types) types

variable {fuel : Nat}

theorem exists_eq_succ_of_pendingPages {rest : List NamedTypeDef}
    (enough : pendingPages (type :: rest) ≤ fuel) :
    ∃ less, fuel = less + 1 ∧ pendingPages (rest ++ innerTypes type) ≤ less := by
  have advance := pendingPages_advance type rest
  exact ⟨fuel - 1, by omega, by omega⟩

theorem drain_eq_queued (enough : pendingPages types ≤ fuel) : drain fuel types = queued types := by
  suffices agree : ∀ first second, pendingPages types ≤ first → pendingPages types ≤ second →
      drain first types = drain second types from agree _ _ enough le_rfl
  clear enough
  induction types using queue_induction with
  | nil =>
    intro first second _ _
    cases first <;> cases second <;> rfl
  | cons type rest ih =>
    intro first second enoughFirst enoughSecond
    obtain ⟨first, rfl, restFirst⟩ := exists_eq_succ_of_pendingPages enoughFirst
    obtain ⟨second, rfl, restSecond⟩ := exists_eq_succ_of_pendingPages enoughSecond
    rw [drain, drain, ih first second restFirst restSecond]

@[simp] theorem queued_nil : queued [] = [] := rfl

@[simp] theorem queued_cons (type : NamedTypeDef) (rest : List NamedTypeDef) :
    queued (type :: rest) = type :: queued (rest ++ innerTypes type) := by
  obtain ⟨fuel, isSucc, enough⟩ :=
    exists_eq_succ_of_pendingPages (le_refl (pendingPages (type :: rest)))
  rw [queued, isSucc, drain, drain_eq_queued enough]

theorem subset_queued (types : List NamedTypeDef) : types ⊆ queued types := by
  induction types using queue_induction with
  | nil => simp
  | cons type rest ih =>
    rw [queued_cons]
    exact cons_subset_cons _ (List.Subset.trans (subset_append_left _ _) ih)

theorem innerTypes_subset_queued (given : type ∈ queued types) :
    innerTypes type ⊆ queued types := by
  induction types using queue_induction with
  | nil => cases given
  | cons first rest ih =>
    rw [queued_cons] at given ⊢
    rcases mem_cons.mp given with rfl | later
    · refine subset_cons_of_subset _ (List.Subset.trans ?_ (subset_queued _))
      exact subset_append_right _ _
    · exact subset_cons_of_subset _ (ih later)

/-- Whatever holds of the types in a queue and of the types inside one it holds of is true of all
types that the queue gives. -/
theorem forall_queued {Holds : NamedTypeDef → Prop} (start : ∀ type ∈ types, Holds type)
    (step : ∀ type, Holds type → ∀ inner ∈ innerTypes type, Holds inner) :
    ∀ type ∈ queued types, Holds type := by
  induction types using queue_induction with
  | nil => exact start
  | cons first rest ih =>
    rw [forall_mem_cons] at start
    rw [queued_cons, forall_mem_cons]
    exact ⟨start.1, ih (forall_mem_append.mpr ⟨start.2, step first start.1⟩)⟩

section Queue

variable {before after : Session} {root : Place} {types : List NamedTypeDef} {fuel : Nat}

theorem remembered_ofType (isPage : Page.ofType type = .ok page) :
    page.remembered = innerTypes type :=
  remembered_of_typeSections (Page.ofSections_eq_ok.mp isPage).2

theorem ends_writePending (enough : pendingPages types ≤ fuel) :
    Ends (writePending root fuel types) before () after ↔
      ∃ pages, (queued types).mapM Page.ofType = .ok pages ∧
        pages.foldlM (putPage root) before = some after := by
  induction types using queue_induction generalizing fuel before with
  | nil => cases fuel <;> simp [writePending]
  | cons type rest ih =>
    obtain ⟨fuel, rfl, enoughRest⟩ := exists_eq_succ_of_pendingPages enough
    simp only [writePending, queued_cons, ends_bind, ends_writeTypePage, mapM_cons,
      bind_eq_ok, pure_eq_ok, Except.ok.injEq]
    constructor
    · rintro ⟨_, middle, ⟨page, isPage, written, rfl⟩, others⟩
      rw [remembered_ofType isPage] at others
      obtain ⟨pages, arePages, writtenAll⟩ := (ih enoughRest).mp others
      exact ⟨page :: pages, ⟨page, isPage, pages, arePages, rfl⟩, by simp [written, writtenAll]⟩
    · rintro ⟨_, ⟨page, isPage, pages, arePages, rfl⟩, written⟩
      obtain ⟨middle, writtenFirst, writtenAll⟩ := Option.bind_eq_some_iff.mp written
      refine ⟨_, middle, ⟨page, isPage, writtenFirst, rfl⟩, ?_⟩
      rw [remembered_ofType isPage]
      exact (ih enoughRest).mpr ⟨pages, arePages, writtenAll⟩

/-- The queue runs empty by itself: how far its bound lies beyond the number of pages changes
nothing. -/
theorem writePending_congr {other : Nat} (enough : pendingPages types ≤ fuel)
    (enoughOther : pendingPages types ≤ other) :
    (writePending root fuel types).run.run before = (writePending root other types).run.run
      before := by
  induction types using queue_induction generalizing fuel other before with
  | nil => cases fuel <;> cases other <;> rfl
  | cons type rest ih =>
    obtain ⟨fuel, rfl, enoughRest⟩ := exists_eq_succ_of_pendingPages enough
    obtain ⟨other, rfl, enoughOthers⟩ := exists_eq_succ_of_pendingPages enoughOther
    refine run_bind_congr fun found middle ended => ?_
    obtain ⟨page, isPage, -, rfl⟩ := ends_writeTypePage.mp ended
    rw [remembered_ofType isPage]
    exact ih enoughRest enoughOthers

end Queue

/-! ## The pages of a manual -/

/-- The manual of a description for which all generators return. -/
structure Manual (year : String) (api : Api) where
  info : Info
  settings : String
  index : Page
  resources : List Page
  types : List Page
  /-- The pages of types written on the spot. -/
  inner : List Page
  isInfo : Docs.Info.ofApi api year = .ok info
  areSettings : settingsText info = .ok settings
  isIndex : Page.ofApi api info = .ok index
  areResources : api.resources.mapM (Page.ofResource api) = .ok resources
  areTypes : api.dataTypes.mapM Page.ofType = .ok types
  areInner : (queued ((resources ++ types).flatMap Page.remembered)).mapM Page.ofType = .ok inner

namespace Manual

variable {year : String} {api : Api}

/-- The types written on the spot that have pages of their own. -/
def innerTypes (manual : Manual year api) : List NamedTypeDef :=
  queued ((manual.resources ++ manual.types).flatMap Page.remembered)

/-- The pages in the order in which they are written. -/
def pages (manual : Manual year api) : List Page :=
  manual.index :: (manual.resources ++ manual.types ++ manual.inner)

instance : Subsingleton (Manual year api) where
  allEq first second := by
    obtain ⟨info, settings, index, resources, types, inner, isInfo, areSettings, isIndex,
      areResources, areTypes, areInner⟩ := first
    obtain ⟨_, _, _, _, _, _, isInfo', areSettings', isIndex', areResources', areTypes',
      areInner'⟩ := second
    cases isInfo.symm.trans isInfo'
    cases areSettings.symm.trans areSettings'
    cases isIndex.symm.trans isIndex'
    cases areResources.symm.trans areResources'
    cases areTypes.symm.trans areTypes'
    cases areInner.symm.trans areInner'
    rfl

/-- The pages that all generators return, one after the other. -/
def generate (year : String) (api : Api) : Except Fault (List Page) := do
  let info ← Docs.Info.ofApi api year
  let _ ← settingsText info
  let index ← Page.ofApi api info
  let resources ← api.resources.mapM (Page.ofResource api)
  let types ← api.dataTypes.mapM Page.ofType
  let inner ← (queued ((resources ++ types).flatMap Page.remembered)).mapM Page.ofType
  return index :: (resources ++ types ++ inner)

theorem generate_eq_ok {pages : List Page} :
    generate year api = .ok pages ↔ ∃ manual : Manual year api, manual.pages = pages := by
  simp only [generate, bind_eq_ok, pure_eq_ok, Except.ok.injEq]
  constructor
  · rintro ⟨info, isInfo, settings, areSettings, index, isIndex, resources, areResources, types,
      areTypes, inner, areInner, rfl⟩
    exact ⟨⟨info, settings, index, resources, types, inner, isInfo, areSettings, isIndex,
      areResources, areTypes, areInner⟩, rfl⟩
  · rintro ⟨manual, rfl⟩
    exact ⟨_, manual.isInfo, _, manual.areSettings, _, manual.isIndex, _, manual.areResources, _,
      manual.areTypes, _, manual.areInner, rfl⟩

theorem exists_of_evaluated {α : Type} (view : List Page → α) {value : α}
    (evaluated : (generate year api).toOption.map view = some value) :
    ∃ pages, generate year api = .ok pages ∧ view pages = value := by
  cases generated : generate year api with
  | error fault =>
    rw [generated] at evaluated
    cases evaluated
  | ok pages =>
    rw [generated] at evaluated
    exact ⟨pages, rfl, Option.some.inj evaluated⟩

end Manual

section Writing

variable {year : String} {api : Api} {root : Place} {before after : Session}

variable {result : Unit} {pending found : List NamedTypeDef}

theorem ends_writeSettings {settings : String} :
    Ends (writePage root "conf.py" (return settings)) before result after ↔
      write? root before "conf.py" settings = some after := by
  have known : (return settings : Running String) = attempt (.ok settings) := rfl
  rw [known, ends_writePage]
  simp

theorem ends_writeIndex {info : Info} :
    Ends (writePage root "index.rst" (attempt (indexText api info))) before result after ↔
      ∃ page, Page.ofApi api info = .ok page ∧ putPage root before page = some after := by
  simp only [ends_writePage, indexText, Page.ofApi, Page.ofSections_eq_ok, putPage, bind_eq_ok,
    allLines_cons]
  constructor
  · rintro ⟨_, ⟨lines, laid, ⟨⟩⟩, written⟩
    exact ⟨⟨"index", lines⟩, ⟨rfl, lines, [], laid, rfl, append_nil _⟩, written⟩
  · rintro ⟨⟨name, _⟩, ⟨⟨⟩, lines, _, laid, ⟨⟩, rfl⟩, written⟩
    rw [append_nil] at written
    exact ⟨_, ⟨lines, laid, rfl⟩, written⟩

theorem ends_writeResources :
    Ends (forIn api.resources pending fun resource pending => do
        let name ← attempt (resourcePage resource)
        let pending ← writePaging root (pageFile name) (resourcePageText api resource) pending
        pure (ForInStep.yield pending)) before found after ↔
      ∃ pages, api.resources.mapM (Page.ofResource api) = .ok pages ∧
        pages.foldlM (putPage root) before = some after ∧
        pending ++ pages.flatMap Page.remembered = found := by
  simp only [← bind_assoc]
  exact ends_forIn_pages fun _ _ _ _ _ => ends_writeSections

theorem ends_writeTypes :
    Ends (forIn types pending fun type pending => do
        let pending ← writeTypePage root type pending
        pure (ForInStep.yield pending)) before found after ↔
      ∃ pages, types.mapM Page.ofType = .ok pages ∧
        pages.foldlM (putPage root) before = some after ∧
        pending ++ pages.flatMap Page.remembered = found :=
  ends_forIn_pages fun _ _ _ _ _ => ends_writeTypePage

theorem ends_writeManual :
    Ends (writeManual year api root) before () after ↔
      ∃ (manual : Manual year api) (middle : Session),
        write? root before "conf.py" manual.settings = some middle ∧
        manual.pages.foldlM (putPage root) middle = some after := by
  unfold writeManual
  simp only [ends_bind, ends_attempt, ends_writeSettings, ends_writeIndex, ends_writeResources,
    ends_writeTypes, ends_writePending le_rfl]
  constructor
  · rintro ⟨info, _, ⟨isInfo, rfl⟩, settings, _, ⟨areSettings, rfl⟩, ⟨⟩, settled, wroteSettings, ⟨⟩,
      _, ⟨index, isIndex, wroteIndex⟩, _, _, ⟨resources, areResources, wroteResources, rfl⟩, _, _,
      ⟨types, areTypes, wroteTypes, rfl⟩, inner, areInner, wroteInner⟩
    rw [nil_append, ← flatMap_append] at areInner
    refine ⟨⟨info, settings, index, resources, types, inner, isInfo, areSettings, isIndex,
      areResources, areTypes, areInner⟩, settled, wroteSettings, ?_⟩
    simp [Manual.pages, foldlM_append, wroteIndex, wroteResources, wroteTypes, wroteInner]
  · rintro ⟨manual, settled, wroteSettings, wrote⟩
    simp only [Manual.pages, foldlM_cons, foldlM_append, Option.bind_eq_bind,
      Option.bind_eq_some_iff] at wrote
    obtain ⟨_, wroteIndex, _, ⟨_, wroteResources, wroteTypes⟩, wroteInner⟩ := wrote
    exact ⟨manual.info, _, ⟨manual.isInfo, rfl⟩, manual.settings, _, ⟨manual.areSettings, rfl⟩, ⟨⟩,
      settled, wroteSettings, ⟨⟩, _, ⟨manual.index, manual.isIndex, wroteIndex⟩, _, _,
      ⟨manual.resources, manual.areResources, wroteResources, rfl⟩, _, _,
      ⟨manual.types, manual.areTypes, wroteTypes, rfl⟩, manual.inner,
      by simpa using manual.areInner, wroteInner⟩

end Writing

/-! ## What is left in the folder -/

section Folder

variable {root : Place} {before after : Session} {pages : List Page}

theorem putPage_eq_some :
    putPage root before page = some after ↔
      ∃ place, before.folder.fileAt? root (pageFile page.name) = some place ∧
        { before with folder := before.folder.putFile place page.text } = after :=
  Option.map_eq_some_iff

theorem fileAt?_of_foldlM (written : pages.foldlM (putPage root) before = some after)
    (path : String) :
    after.folder.fileAt? root path = before.folder.fileAt? root path := by
  induction pages generalizing before with
  | nil => cases written; rfl
  | cons page rest ih =>
    obtain ⟨middle, writtenFirst, writtenRest⟩ := Option.bind_eq_some_iff.mp written
    obtain ⟨place, -, rfl⟩ := putPage_eq_some.mp writtenFirst
    rw [ih writtenRest, fileAt?_putFile]

theorem exists_foldlM_putPage :
    (∃ after, pages.foldlM (putPage root) before = some after) ↔
      ∀ page ∈ pages, (before.folder.fileAt? root (pageFile page.name)).isSome := by
  induction pages generalizing before with
  | nil => simp
  | cons page rest ih =>
    rw [forall_mem_cons]
    constructor
    · rintro ⟨after, written⟩
      obtain ⟨middle, writtenFirst, writtenRest⟩ := Option.bind_eq_some_iff.mp written
      obtain ⟨place, located, rfl⟩ := putPage_eq_some.mp writtenFirst
      have creatable := ih.mp ⟨after, writtenRest⟩
      simp only [fileAt?_putFile] at creatable
      exact ⟨by rw [located]; rfl, creatable⟩
    · rintro ⟨first, others⟩
      obtain ⟨place, located⟩ := Option.isSome_iff_exists.mp first
      let middle : Session := { before with folder := before.folder.putFile place page.text }
      have wroteFirst : putPage root before page = some middle :=
        putPage_eq_some.mpr ⟨place, located, rfl⟩
      obtain ⟨after, wroteRest⟩ :=
        (@ih middle).mpr (by simpa only [middle, fileAt?_putFile] using others)
      exact ⟨after, Option.bind_eq_some_iff.mpr ⟨middle, wroteFirst, wroteRest⟩⟩

theorem content?_of_foldlM (written : pages.foldlM (putPage root) before = some after)
    (place : Place) :
    after.folder.content? place =
      match pages.reverse.find? fun page =>
          before.folder.fileAt? root (pageFile page.name) = some place with
      | some page => some page.text
      | none => before.folder.content? place := by
  induction pages generalizing before with
  | nil => cases written; rfl
  | cons page rest ih =>
    obtain ⟨middle, writtenFirst, writtenRest⟩ := Option.bind_eq_some_iff.mp written
    obtain ⟨own, located, rfl⟩ := putPage_eq_some.mp writtenFirst
    rw [ih writtenRest, reverse_cons, find?_append]
    simp only [fileAt?_putFile]
    cases rest.reverse.find? fun page =>
        before.folder.fileAt? root (pageFile page.name) = some place with
    | some later => rfl
    | none =>
      by_cases same : place = own
      · simp [content?_putFile, located, same]
      · simp [content?_putFile, located, same, Ne.symm same]

end Folder

namespace Manual

variable {year : String} {api : Api} (manual : Manual year api) {root : Place}
  {before after : Session}

/-- A manual is written exactly when a file can be created for each part of it. -/
theorem exists_ends :
    (∃ after, Ends (writeManual year api root) before () after) ↔
      ∀ file ∈ "conf.py" :: manual.pages.map fun page => pageFile page.name,
        (before.folder.fileAt? root file).isSome := by
  simp only [forall_mem_cons, forall_mem_map]
  constructor
  · rintro ⟨after, ended⟩
    obtain ⟨own, middle, wroteSettings, wrote⟩ := ends_writeManual.mp ended
    cases Subsingleton.elim own manual
    obtain ⟨place, located, rfl⟩ := Option.map_eq_some_iff.mp wroteSettings
    have creatable := exists_foldlM_putPage.mp ⟨after, wrote⟩
    simp only [fileAt?_putFile] at creatable
    exact ⟨Option.isSome_iff_exists.mpr ⟨place, located⟩, creatable⟩
  · rintro ⟨settings, creatable⟩
    obtain ⟨place, located⟩ := Option.isSome_iff_exists.mp settings
    let middle : Session := { before with folder := before.folder.putFile place manual.settings }
    have stillCreatable : ∀ page ∈ manual.pages,
        (middle.folder.fileAt? root (pageFile page.name)).isSome := by
      simpa only [middle, fileAt?_putFile] using creatable
    obtain ⟨after, wrote⟩ := exists_foldlM_putPage.mpr stillCreatable
    exact ⟨after, ends_writeManual.mpr ⟨manual, middle,
      Option.map_eq_some_iff.mpr ⟨place, located, rfl⟩, wrote⟩⟩

theorem fileText?_eq {manual : Manual year api}
    (ended : Ends (writeManual year api root) before () after) (member : page ∈ manual.pages) :
    after.folder.fileText? root (pageFile page.name) = (manual.pages.reverse.find? fun later =>
        before.folder.fileAt? root (pageFile later.name) =
          before.folder.fileAt? root (pageFile page.name)).map Page.text := by
  obtain ⟨own, middle, wroteSettings, wrote⟩ := ends_writeManual.mp ended
  cases Subsingleton.elim own manual
  obtain ⟨settingsPlace, -, rfl⟩ := Option.map_eq_some_iff.mp wroteSettings
  obtain ⟨place, located⟩ :=
    Option.isSome_iff_exists.mp (exists_foldlM_putPage.mp ⟨after, wrote⟩ page member)
  have locatedAfter := locate_of_fileAt? ((fileAt?_of_foldlM wrote _).trans located)
  have content := content?_of_foldlM wrote place
  simp only [fileAt?_putFile] at located content
  have found : (manual.pages.reverse.find? fun later =>
      before.folder.fileAt? root (pageFile later.name) = some place).isSome := by
    rw [find?_isSome]
    exact ⟨page, mem_reverse.mpr member, by simpa using located⟩
  obtain ⟨last, isLast⟩ := Option.isSome_iff_exists.mp found
  rw [fileText?, locatedAfter, Option.bind_some, content, located, isLast]
  rfl

theorem exists_fileText? {manual : Manual year api}
    (ended : Ends (writeManual year api root) before () after) (member : page ∈ manual.pages) :
    ∃ last ∈ manual.pages,
      before.folder.fileAt? root (pageFile last.name) =
        before.folder.fileAt? root (pageFile page.name) ∧
        after.folder.fileText? root (pageFile page.name) = some last.text := by
  rw [fileText?_eq ended member]
  cases found : manual.pages.reverse.find? fun later =>
      before.folder.fileAt? root (pageFile later.name) =
        before.folder.fileAt? root (pageFile page.name) with
  | none => exact absurd (find?_eq_none.mp found page (mem_reverse.mpr member)) (by simp)
  | some last =>
    exact ⟨last, mem_reverse.mp (mem_of_find?_eq_some found), by simpa using find?_some found, rfl⟩

end Manual

end ApiDescription.Command
