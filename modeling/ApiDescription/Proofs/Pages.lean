import ApiDescription.Docs.Info
import ApiDescription.Proofs.Building

/-!
# Lines of pages

A page is a list of sections, and a section a list of lines: a line is plain, shows a type behind a
label, or lists another page.  A page has a text exactly when each of its sections has its lines,
and its generator remembers exactly the types written on the spot that the lines show; so what a
page links to and what it remembers can be read off its lines.
-/

namespace ApiDescription.Docs

open Outcome List

open Client (Returns returns_pure returns_lift returns_modify returns_bind)

variable {api : Api} {lines : List Line} {schema : Schema} {before after : List NamedTypeDef}
  {sections : List (Except Fault (List Line))}

/-! ## Texts -/

theorem asText_eq_ok {label : Label} {text : String} :
    label.asText = .ok text ↔ label = .text text := by
  cases label <;> simp [Label.asText]

theorem docText_eq_ok {value : Doc} {text : String} :
    value.asText = .ok text ↔ value = .text text := by
  cases value <;> simp [Doc.asText]

theorem typePage_eq_ok {name : Doc} {page : String} :
    typePage name = .ok page ↔
      ∃ text, name = .text text ∧ "data_type_" ++ Text.lower text = page := by
  cases name <;> simp [typePage, lowerName]

/-! ## Lines -/

def Link.target? : Link → Option String
  | word _ => none
  | page target => some target
  | items _ item => item.target?

def Line.targets : Line → List String
  | plain _ => []
  | shown _ _ link => link.target?.toList
  | entry page => [page]

@[simp] theorem remembered_plainLines (texts : List String) :
    (plainLines texts).flatMap Line.remembered = [] := by
  simp [plainLines, Line.remembered]

@[simp] theorem targets_plainLines (texts : List String) :
    (plainLines texts).flatMap Line.targets = [] := by
  simp [plainLines, Line.targets]

def shownTypes : Schema → List NamedTypeDef
  | .named type => [type]
  | _ => []

theorem linkedLines_eq_ok {front back : List String} {label : String} :
    linkedLines front label schema back = .ok lines ↔ ∃ link, schemaLink schema = .ok link ∧
      plainLines front ++ .shown label schema link :: plainLines back = lines := by
  simp only [linkedLines, bind_eq_ok, pure_eq_ok, Except.ok.injEq]

theorem remembered_linkedLines {front back : List String} {label : String}
    (laid : linkedLines front label schema back = .ok lines) :
    lines.flatMap Line.remembered = shownTypes schema := by
  obtain ⟨link, -, rfl⟩ := linkedLines_eq_ok.mp laid
  cases schema <;> simp [Line.remembered, shownTypes]

/-! ## Sections -/

def allLines : List (Except Fault (List Line)) → Except Fault (List Line)
  | [] => .ok []
  | first :: rest => do return (← first) ++ (← allLines rest)

theorem allLines_cons {first : Except Fault (List Line)} :
    allLines (first :: sections) = .ok lines ↔
      ∃ front back, first = .ok front ∧ allLines sections = .ok back ∧ front ++ back = lines := by
  simp only [allLines, bind_eq_ok, pure_eq_ok, Except.ok.injEq]
  grind

theorem allLines_append {others : List (Except Fault (List Line))} :
    allLines (sections ++ others) = .ok lines ↔
      ∃ front back, allLines sections = .ok front ∧ allLines others = .ok back ∧
        front ++ back = lines := by
  induction sections generalizing lines with
  | nil => simp [allLines]
  | cons first rest ih =>
    simp only [cons_append, allLines_cons, ih]
    constructor
    · rintro ⟨own, _, isOwn, ⟨front, back, isFront, isBack, rfl⟩, rfl⟩
      exact ⟨own ++ front, back, ⟨own, front, isOwn, isFront, rfl⟩, isBack, append_assoc _ _ _⟩
    · rintro ⟨_, back, ⟨own, front, isOwn, isFront, rfl⟩, isBack, rfl⟩
      exact ⟨own, front ++ back, isOwn, ⟨front, back, isFront, isBack, rfl⟩,
        (append_assoc _ _ _).symm⟩

theorem exists_allLines :
    (∃ lines, allLines sections = .ok lines) ↔ ∀ part ∈ sections, ∃ lines, part = .ok lines := by
  induction sections with
  | nil => simp [allLines]
  | cons first rest ih =>
    rw [forall_mem_cons, ← ih]
    simp only [allLines_cons]
    constructor
    · rintro ⟨_, front, back, isFront, isBack, -⟩
      exact ⟨⟨front, isFront⟩, back, isBack⟩
    · rintro ⟨⟨front, isFront⟩, back, isBack⟩
      exact ⟨_, front, back, isFront, isBack, rfl⟩

theorem forall_of_allLines {Holds : Line → Prop} (laid : allLines sections = .ok lines)
    (each : ∀ part ∈ sections, ∀ lines, part = .ok lines → ∀ line ∈ lines, Holds line) :
    ∀ line ∈ lines, Holds line := by
  induction sections generalizing lines with
  | nil =>
    cases laid
    simp
  | cons first rest ih =>
    rw [forall_mem_cons] at each
    obtain ⟨front, back, isFront, isBack, rfl⟩ := allLines_cons.mp laid
    exact forall_mem_append.mpr ⟨each.1 front isFront, ih isBack each.2⟩

theorem flatMap_of_allLines {α γ : Type} {view : Line → List γ} {items : List α}
    {sectionsOf : α → List (Except Fault (List Line))} {views : α → List γ}
    (laid : allLines (items.flatMap sectionsOf) = .ok lines)
    (each : ∀ item lines, allLines (sectionsOf item) = .ok lines →
      lines.flatMap view = views item) :
    lines.flatMap view = items.flatMap views := by
  induction items generalizing lines with
  | nil =>
    cases laid
    rfl
  | cons item rest ih =>
    rw [flatMap_cons, allLines_append] at laid
    obtain ⟨front, back, isFront, isBack, rfl⟩ := laid
    rw [flatMap_append, each item front isFront, ih isBack, flatMap_cons]

/-- A page is written when all sections have their lines, and the types that these show are
remembered. -/
theorem returns_pageText {text : String} :
    Returns (pageText sections) before text after ↔
      ∃ lines, allLines sections = .ok lines ∧ textOfLines (lines.map Line.text) = text ∧
        before ++ lines.flatMap Line.remembered = after := by
  have written {shown : List String} :
      (∃ texts, Returns (sections.mapM writeSection) before texts after ∧ texts.flatten = shown) ↔
        ∃ lines, allLines sections = .ok lines ∧ lines.map Line.text = shown ∧
          before ++ lines.flatMap Line.remembered = after := by
    induction sections generalizing before shown with
    | nil => simp [allLines, eq_comm, and_comm]
    | cons first rest ih =>
      simp only [mapM_cons, writeSection, returns_bind, returns_lift, returns_modify, returns_pure,
        allLines_cons]
      constructor
      · rintro ⟨_, ⟨_, _, ⟨own, _, ⟨isOwn, rfl⟩, ⟨⟩, _, rfl, rfl, rfl⟩, texts, _, others, rfl, rfl⟩,
          rfl⟩
        obtain ⟨lines, isLines, isTexts, rfl⟩ := ih.mp ⟨texts, others, rfl⟩
        exact ⟨_, ⟨own, lines, isOwn, isLines, rfl⟩, by simp [isTexts], by simp⟩
      · rintro ⟨_, ⟨own, lines, isOwn, isLines, rfl⟩, rfl, rfl⟩
        obtain ⟨texts, others, isTexts⟩ := (@ih (before ++ own.flatMap Line.remembered) _).mpr
          ⟨lines, isLines, rfl, by simp⟩
        exact ⟨_, ⟨_, _, ⟨own, _, ⟨isOwn, rfl⟩, ⟨⟩, _, rfl, rfl, rfl⟩, texts, _, others, rfl,
          rfl⟩, by simp [isTexts]⟩
  simp only [pageText, returns_bind, returns_pure]
  constructor
  · rintro ⟨texts, _, ran, rfl, rfl⟩
    obtain ⟨lines, isLines, isTexts, isAfter⟩ := written.mp ⟨texts, ran, rfl⟩
    exact ⟨lines, isLines, by rw [isTexts], isAfter⟩
  · rintro ⟨lines, isLines, rfl, isAfter⟩
    obtain ⟨texts, ran, isTexts⟩ := written.mpr ⟨lines, isLines, rfl, isAfter⟩
    exact ⟨texts, _, ran, by rw [isTexts], rfl⟩

/-! ## Pages -/

/-- A page with its base name and its lines. -/
structure Page where
  name : String
  lines : List Line

namespace Page

def text (page : Page) : String :=
  textOfLines (page.lines.map Line.text)

def targets (page : Page) : List String :=
  page.lines.flatMap Line.targets

def remembered (page : Page) : List NamedTypeDef :=
  page.lines.flatMap Line.remembered

def ofSections (name : Except Fault String) (sections : List (Except Fault (List Line))) :
    Except Fault Page := do
  return { name := ← name, lines := ← allLines sections }

def ofApi (api : Api) (info : Info) : Except Fault Page :=
  ofSections (.ok "index") [indexLines api info]

def ofResource (api : Api) (resource : Resource) : Except Fault Page :=
  ofSections (resourcePage resource) (resourceSections api resource)

def ofType (type : NamedTypeDef) : Except Fault Page :=
  ofSections (typePage type.name) (typeSections type)

theorem ofSections_eq_ok {name : Except Fault String} {page : Page} :
    ofSections name sections = .ok page ↔
      name = .ok page.name ∧ allLines sections = .ok page.lines := by
  obtain ⟨isName, isLines⟩ := page
  simp only [ofSections, bind_eq_ok, pure_eq_ok, Except.ok.injEq, mk.injEq]
  grind

end Page

/-! ## What pages show -/

/-- Lines that lead nowhere or show one of the types. -/
def OnlyShow (Shown : DataType → Prop) (lines : List Line) : Prop :=
  ∀ line ∈ lines, (∃ text, line = .plain text) ∨ ∃ label name type link, Shown type ∧
    schemaLink (shownSchema name type) = .ok link ∧ line = .shown label (shownSchema name type) link

/-- The lines of a section, if it has any, show nothing else. -/
def Shows (Shown : DataType → Prop) (part : Except Fault (List Line)) : Prop :=
  ∀ lines, part = .ok lines → OnlyShow Shown lines

section Shows

variable {Shown : DataType → Prop} {resource : Resource} {operation : Operation}

theorem onlyShow_plainLines (texts : List String) : OnlyShow Shown (plainLines texts) := by
  intro line member
  obtain ⟨text, -, rfl⟩ := mem_map.mp member
  exact .inl ⟨text, rfl⟩

theorem shows_plain (texts : List String) : Shows Shown (.ok (plainLines texts)) := by
  rintro _ ⟨⟩
  exact onlyShow_plainLines texts

theorem shows_error (fault : Fault) : Shows Shown (.error fault) := by
  rintro _ ⟨⟩

theorem shows_bind {α : Type} {first : Except Fault α} {next : α → Except Fault (List Line)}
    (shows : ∀ value, Shows Shown (next value)) : Shows Shown (first >>= next) := by
  intro lines laid
  obtain ⟨value, -, laid⟩ := bind_eq_ok.mp laid
  exact shows value lines laid

theorem shows_map (texts : Except Fault (List String)) : Shows Shown (plainLines <$> texts) := by
  intro lines laid
  obtain ⟨texts, -, rfl⟩ := map_eq_ok.mp laid
  exact onlyShow_plainLines texts

theorem shows_linkedLines {front back : List String} {label name : String} {type : DataType}
    (shown : Shown type) : Shows Shown (linkedLines front label (shownSchema name type) back) := by
  intro lines laid
  obtain ⟨link, linked, rfl⟩ := linkedLines_eq_ok.mp laid
  exact forall_mem_append.mpr ⟨onlyShow_plainLines front,
    forall_mem_cons.mpr ⟨.inr ⟨label, name, type, link, shown, linked, rfl⟩,
      onlyShow_plainLines back⟩⟩

theorem shows_typeHeading (type : NamedTypeDef) : Shows Shown (typeHeading type) :=
  shows_bind fun _ => shows_bind fun _ => shows_plain _

theorem shows_typeSections {type : NamedTypeDef}
    (fields : ∀ field ∈ type.definition.fields, Shown field.type) :
    ∀ part ∈ typeSections type, Shows Shown part := by
  simp only [typeSections, cons_append, forall_mem_cons, forall_mem_append, forall_mem_map]
  exact ⟨shows_typeHeading type, fun field declared => shows_bind fun _ => shows_bind fun _ =>
    shows_linkedLines (fields field declared), shows_plain _, by simp⟩

theorem shows_answerLines (api : Api) (schema : Schema) (operation : Operation) :
    Shows Shown (answerLines api schema operation) := by
  unfold answerLines
  split
  · split
    · exact shows_bind fun _ => shows_bind fun _ => shows_plain _
    · exact shows_error _
  · exact shows_error _

theorem shows_operationHeading (operation : Operation) : Shows Shown (operationHeading operation) :=
  shows_bind fun _ => shows_bind fun _ => shows_bind fun _ => shows_plain _

theorem shows_closingLines (api : Api) (resource : Resource) (operation : Operation) :
    Shows Shown (closingLines api resource operation) :=
  shows_bind fun _ => shows_bind fun _ => shows_plain _

theorem shows_resourceHeading (api : Api) (resource : Resource) :
    Shows Shown (resourceHeading api resource) :=
  shows_bind fun _ => shows_bind fun _ => shows_plain _

theorem shows_operationSections
    (input : ∀ type, operation.input.bind (·.type) = some type → Shown type)
    (output : ∀ type, operation.output.bind (·.type) = some type → Shown type) :
    ∀ part ∈ operationSections api resource operation, Shows Shown part := by
  have request : ∀ part ∈ requestSections api resource.name.words operation, Shows Shown part := by
    unfold requestSections
    split
    · split
      next type hasType => simpa using ⟨shows_linkedLines (input type hasType), shows_map _⟩
      next => simpa using shows_error _
    · simp
  have response : ∀ part ∈ responseSections api resource.name.words operation,
      Shows Shown part := by
    unfold responseSections
    split
    next type hasType => simpa using ⟨shows_linkedLines (output type hasType),
      shows_answerLines _ _ _⟩
    next => simpa using shows_error _
  simp only [operationSections, cons_append, forall_mem_cons, forall_mem_append]
  exact ⟨shows_operationHeading operation, ⟨request, response⟩,
    shows_closingLines api resource operation, by simp⟩

theorem shows_resourceSections
    (inputs : ∀ operation ∈ resource.operations, ∀ type, operation.input.bind (·.type) = some type →
      Shown type)
    (outputs : ∀ operation ∈ resource.operations, ∀ type,
      operation.output.bind (·.type) = some type → Shown type) :
    ∀ part ∈ resourceSections api resource, Shows Shown part := by
  refine forall_mem_cons.mpr ⟨shows_resourceHeading api resource, fun part member => ?_⟩
  obtain ⟨operation, declared, inSections⟩ := mem_flatMap.mp member
  exact shows_operationSections (inputs operation declared) (outputs operation declared) part
    inSections

theorem onlyShow_of_shows (shows : ∀ part ∈ sections, Shows Shown part)
    (laid : allLines sections = .ok lines) :
    OnlyShow Shown lines :=
  forall_of_allLines laid shows

theorem remembered_of_shows {part : Except Fault (List Line)} (shows : Shows (fun _ => False) part)
    (laid : part = .ok lines) : lines.flatMap Line.remembered = [] := by
  rw [flatMap_eq_nil_iff]
  intro line member
  obtain ⟨text, rfl⟩ | ⟨_, _, _, _, impossible, -⟩ := shows lines laid line member
  · rfl
  · exact impossible.elim

end Shows

/-! ## Types inside types -/

/-- The types written on the spot that the lines about a field show. -/
def fieldTypes (owner : String) (field : Field) : List NamedTypeDef :=
  match field.name with
  | .text name => shownTypes (shownSchema (owner ++ "_" ++ name) field.type)
  | .texts _ => []

/-- The types written on the spot that the page of a type shows. -/
def innerTypes (type : NamedTypeDef) : List NamedTypeDef :=
  match type.name with
  | .text owner => type.definition.fields.flatMap (fieldTypes owner)
  | _ => []

theorem remembered_fieldLines {owner : String} {field : Field}
    (laid : fieldLines owner field = .ok lines) :
    lines.flatMap Line.remembered = fieldTypes owner field := by
  simp only [fieldLines, bind_eq_ok, asText_eq_ok] at laid
  obtain ⟨name, named, description, -, linked⟩ := laid
  rw [remembered_linkedLines linked, fieldTypes, named]

theorem remembered_of_typeSections {type : NamedTypeDef}
    (laid : allLines (typeSections type) = .ok lines) :
    lines.flatMap Line.remembered = innerTypes type := by
  rw [typeSections, cons_append, allLines_cons] at laid
  obtain ⟨_, _, heading, rest, rfl⟩ := laid
  obtain ⟨fields, _, fieldsLaid, ⟨⟩, rfl⟩ := allLines_append.mp rest
  have plain := remembered_of_shows (shows_typeHeading type) heading
  obtain ⟨owner, named, -⟩ := bind_eq_ok.mp heading
  rw [docText_eq_ok] at named
  rw [map_eq_flatMap] at fieldsLaid
  have shown := flatMap_of_allLines fieldsLaid fun field lines laid => by
    obtain ⟨own, _, isOwn, ⟨⟩, rfl⟩ := allLines_cons.mp laid
    rw [append_nil, remembered_fieldLines isOwn]
  rw [flatMap_append, flatMap_append, plain, shown, innerTypes, named]
  simp [Doc.words]

end ApiDescription.Docs
