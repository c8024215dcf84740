import ApiDescription.Proofs.Building
import ApiDescription.Proofs.Calls
import ApiDescription.Proofs.Readers

/-!
# Functions of a client

The functions of a client that write and read values call one another, and the methods of its
classes call them.  Functions are added one by one and only under names that are free, so that the
question is whether every call finds its function in the end.  A client is closed when it does;
every step of a generator keeps a client closed, and so does a run.
-/

namespace ApiDescription.Client

open Outcome List

open Code (ClassDef Line Method)

variable {media name : String}

/-! ## Names of helpers -/

namespace Codec

variable {stem : String} {api : Api}

theorem exists_of_codecName {type : Doc} (isName : IsName media)
    (found : codecName stem type media = .ok name) :
    ∃ rest, IsName rest ∧ name = stem ++ "_" ++ rest := by
  obtain ⟨typeStem, isStem, equal⟩ := bind_eq_ok.mp found
  cases equal
  refine ⟨typeStem ++ "_" ++ media, ?_, by simp [String.append_assoc]⟩
  simp only [isName_append]
  exact ⟨⟨isName_of_function_stem isStem, by simp [IsName, isNameChar]⟩, isName⟩

theorem exists_of_referenceCodecName {target : TypeRef} (isName : IsName media)
    (found : referenceCodecName api media stem target = .ok name) :
    ∃ rest, IsName rest ∧ name = stem ++ "_" ++ rest := by
  induction target generalizing stem with
  | primitive primitive => exact exists_of_codecName isName found
  | custom target => exact exists_of_codecName isName found
  | container kind item ih =>
    have inner : ∀ rest, IsName rest → name = stem ++ "_" ++ kind.name ++ "_" ++ rest →
        ∃ rest, IsName rest ∧ name = stem ++ "_" ++ rest := by
      rintro rest isRest rfl
      refine ⟨kind.name ++ "_" ++ rest, ?_, by simp [String.append_assoc]⟩
      simp only [isName_append]
      refine ⟨⟨?_, by simp [IsName, isNameChar]⟩, isRest⟩
      cases kind <;> simp [Container.name, IsName, isNameChar, Text.isAlphanumeric]
    rw [referenceCodecName] at found
    split at found
    · obtain ⟨rest, isRest, equal⟩ := exists_of_codecName isName found
      exact inner rest isRest equal
    · obtain ⟨rest, isRest, equal⟩ := ih found
      exact inner rest isRest equal
    · cases found
    · cases found

/-- A name that a function of a client has and keeps. -/
structure IsHelperName (name : String) : Prop where
  isName : IsName name
  isHelper : isHelper name = true

theorem isHelperName_of_schemaCodecName {schema : Option Schema}
    (isStem : stem = "serialize" ∨ stem = "deserialize") (isName : IsName media)
    (found : schemaCodecName api media stem schema = .ok name) :
    IsHelperName name := by
  have spelled : ∃ rest, IsName rest ∧ name = stem ++ "_" ++ rest := by
    cases schema with
    | none => cases found
    | some schema =>
      cases schema with
      | reference target => exact exists_of_referenceCodecName isName found
      | named type => exact exists_of_codecName isName found
      | anonymous definition => cases found
  obtain ⟨rest, isRest, rfl⟩ := spelled
  rcases isStem with rfl | rfl
  · refine ⟨?_, by simp [isHelper, isPrefixOf]⟩
    simp only [isName_append]
    exact ⟨by simp [IsName, isNameChar, Text.isAlphanumeric], isRest⟩
  · refine ⟨?_, by simp [isHelper, isPrefixOf]⟩
    simp only [isName_append]
    exact ⟨by simp [IsName, isNameChar, Text.isAlphanumeric], isRest⟩

theorem IsHelperName.method_stem (isHelperName : IsHelperName name) :
    NameStyle.method.stem (.text name) = .ok name := by
  have kept : String.ofList (name.toList.filter isNameChar) = name := by
    rw [filter_eq_self.mpr isHelperName.isName, String.ofList_toList]
  have starts : ∃ first rest, name.toList = first :: rest ∧ (first = 's' ∨ first = 'd') := by
    have isHelper := isHelperName.isHelper
    simp only [Client.isHelper, Bool.or_eq_true, isPrefixOf_iff_prefix] at isHelper
    rcases isHelper with ⟨rest, characters⟩ | ⟨rest, characters⟩
    · exact ⟨'s', "erialize_".toList ++ rest, by simp [← characters], .inl rfl⟩
    · exact ⟨'d', "eserialize_".toList ++ rest, by simp [← characters], .inr rfl⟩
  obtain ⟨first, rest, characters, letter⟩ := starts
  have notDigit : Text.isDigit first = false := by rcases letter with rfl | rfl <;> decide
  have small : Text.lowerChar first = [first] := by rcases letter with rfl | rfl <;> decide
  have lower : Text.lowerFirst name = name := by
    rw [Text.lowerFirst, characters]
    change String.ofList (Text.lowerChar first ++ rest) = name
    rw [small, singleton_append, ← characters, String.ofList_toList]
  rw [NameStyle.stem, cleaned, kept, ok_bind, NameStyle.ofCleaned, characters]
  simp [notDigit, NameStyle.method, lower]

end Codec

/-! ## Functions that call one another -/

/-- The class names and arguments of a client are words of the generated code. -/
structure State.IsSpelled (state : State) : Prop where
  classOf : ∀ entry ∈ state.classOf, IsClassName entry.2
  mappings : ∀ type ∈ state.classes, ∀ method ∈ type.methods, ∀ entry ∈ method.mappings,
    IsWord entry.2

variable {state : State} {type key : Doc} {argument : String}

theorem State.IsSpelled.className (spelled : state.IsSpelled)
    (found : state.className type = .ok name) :
    IsClassName name := by
  unfold State.className at found
  split at found
  · cases found
  · cases found
  · next key =>
    split at found
    · next known =>
      cases found
      obtain ⟨before, after, equal, -⟩ := lookup_eq_some_iff.mp known
      exact spelled.classOf (key, name) (by simp [equal])
    · cases found
  · cases found

theorem isWord_of_mapping {method : Method} (words : ∀ entry ∈ method.mappings, IsWord entry.2)
    (found : method.mapping key = .ok argument) : IsWord argument := by
  unfold Method.mapping at found
  split at found
  · split at found
    · next entry =>
      cases found
      exact words _ (mem_of_find?_eq_some entry)
    · cases found
  · cases found

theorem State.IsSpelled.parameter (spelled : state.IsSpelled)
    (found : state.parameter type key = .ok (some argument)) :
    IsWord argument := by
  obtain ⟨className, -, rest⟩ := bind_eq_ok.mp found
  split at rest
  · cases rest
  · next type isType =>
    split at rest
    · cases rest
    · next constructor isConstructor =>
      obtain ⟨_, mapped, equal⟩ := bind_eq_ok.mp rest
      cases equal
      exact isWord_of_mapping (spelled.mappings type (mem_of_find?_eq_some isType) constructor
        (mem_of_find?_eq_some isConstructor)) mapped

namespace Codec

variable {functions : List Method} {format : Format}
  {functionsFor : Option Schema → Except Fault (List Method)} {schema : Option Schema} {fuel : Nat}
  {name : String}

/-- Functions with the names of helpers that call helpers only that are among them. -/
structure Helpers (functions : List Method) : Prop where
  named : ∀ function ∈ functions, IsHelperName function.name
  closed : ∀ function ∈ functions, helpersOf function ⊆ functions.map (·.name)

theorem Helpers.nil : Helpers [] := ⟨by simp, by simp⟩

theorem Helpers.append {left right : List Method} (helpersLeft : Helpers left)
    (helpersRight : Helpers right) : Helpers (left ++ right) where
  named function member := by
    rcases mem_append.mp member with inLeft | inRight
    · exact helpersLeft.named function inLeft
    · exact helpersRight.named function inRight
  closed function member := by
    rw [map_append]
    rcases mem_append.mp member with inLeft | inRight
    · exact subset_append_of_subset_left _ (helpersLeft.closed function inLeft)
    · exact subset_append_of_subset_right _ (helpersRight.closed function inRight)

theorem Helpers.flatten {lists : List (List Method)}
    (each : ∀ functions ∈ lists, Helpers functions) :
    Helpers lists.flatten := by
  induction lists with
  | nil => exact .nil
  | cons first rest ih =>
    exact (each first mem_cons_self).append (ih fun functions member =>
      each functions (mem_cons_of_mem _ member))

theorem Helpers.snoc {function : Method} (helpers : Helpers functions)
    (named : IsHelperName function.name) (closed : helpersOf function ⊆ functions.map (·.name)) :
    Helpers (functions ++ [function]) where
  named other member := by
    rcases mem_append.mp member with earlier | last
    · exact helpers.named other earlier
    · cases mem_singleton.mp last
      exact named
  closed other member := by
    rw [map_append]
    rcases mem_append.mp member with earlier | last
    · exact subset_append_of_subset_left _ (helpers.closed other earlier)
    · cases mem_singleton.mp last
      exact subset_append_of_subset_left _ closed

@[simp] theorem refusal_name (name : String) : (refusal name).name = name := rfl

theorem isName_media (format : Format) : IsName format.media := by
  cases format <;> simp [Format.media, IsName, isNameChar, Text.isAlphanumeric]

theorem isHelperName_final (media : String) (isName : IsName media) :
    IsHelperName ("serialize_final_" ++ media) := by
  refine ⟨isName_append.mpr ⟨by simp [IsName, isNameChar, Text.isAlphanumeric], isName⟩, ?_⟩
  simp [isHelper, isPrefixOf]

theorem final_name (format : Format) : format.final.name = "serialize_final_" ++ format.media := by
  cases format <;> rfl

section Spelled

variable {state : State} {api : Api}

variable {Callee : Schema → String → Prop} {function : Method}

theorem isSpelled_of_fields (spelled : state.IsSpelled) {owner : Doc} {fields : List Field}
    {parts : List FieldPart}
    (described : Forall₂ (FieldPart.Describes state format Callee owner) fields parts)
    (words : ∀ schema callee, Callee schema callee → IsWord callee) :
    ∀ part ∈ parts, part.IsSpelled ∧ ∀ callee ∈ part.callee, ∃ schema, Callee schema callee := by
  intro part inParts
  obtain ⟨field, -, described⟩ := exists_result_of_mem described.flip inParts
  have called : ∀ callee ∈ part.callee, ∃ schema, Callee schema callee := by
    intro callee called
    cases plain : isPlain field.type with
    | true => simp [described.plain plain] at called
    | false =>
      obtain ⟨schema, other, -, handed, isCallee⟩ := described.composed plain
      cases called.symm.trans handed
      exact ⟨schema, isCallee⟩
  refine ⟨⟨spelled.parameter described.parameter, fun callee isCalled => ?_⟩, called⟩
  obtain ⟨schema, isCallee⟩ := called callee isCalled
  exact words schema callee isCallee

/-- A function that writes a type is a helper and calls no helper but the one that turns the
prepared value into text. -/
theorem helper_of_writer (spelled : state.IsSpelled) {schema : Schema}
    (writer : WriterOf state api format schema function) :
    IsHelperName function.name ∧ helpersOf function ⊆ [format.final.name] := by
  have isMedia := isName_media format
  have isWord : IsWord format.final.name :=
    final_name format ▸ (isHelperName_final _ isMedia).isName.isWord
  refine ⟨isHelperName_of_schemaCodecName (.inl rfl) isMedia writer.named, ?_⟩
  cases writer with
  | primitive | primitives => simp [helpersOf_plainWriter]
  | items _ _ called =>
    cases called
    rw [helpersOf_itemsWriter _ isWord]
    exact filter_subset_self _
  | record _ fields =>
    have spelledParts := isSpelled_of_fields spelled fields (by rintro _ _ rfl; exact isWord)
    intro helper called
    obtain ⟨part, inParts, calls⟩ :=
      mem_helpersOf_recordWriter (fun part inParts => (spelledParts part inParts).1) called
    obtain ⟨-, rfl⟩ := (spelledParts part inParts).2 helper calls
    exact mem_singleton_self _

theorem helpers_of_writersWithin (spelled : state.IsSpelled) {schema : Schema}
    (found : writersWithin state api format fuel (some schema) = .ok functions) :
    Helpers functions := by
  have final : [format.final.name] ⊆ functions.map (·.name) := by
    obtain ⟨own, rfl⟩ := exists_of_writersWithin found
    simp
  have each : ∀ function ∈ functions, IsHelperName function.name ∧
      helpersOf function ⊆ [format.final.name] := by
    intro function member
    rcases (cover_of_writersWithin found).sound function member with
      rfl | ⟨written, -, writer⟩
    · exact ⟨final_name format ▸ isHelperName_final _ (isName_media format), by
        simp [helpersOf_final]⟩
    · exact helper_of_writer spelled writer
  exact ⟨fun function member => (each function member).1,
    fun function member => List.Subset.trans (each function member).2 final⟩

theorem helpersOf_reader (spelled : state.IsSpelled) {schema : Schema}
    (words : ∀ schema callee, Callee schema callee → IsWord callee)
    (reader : Reader state Callee name schema function) :
    ∀ helper ∈ helpersOf function, ∃ schema, Callee schema helper := by
  intro helper called
  cases reader with
  | primitive => simp [helpersOf_plainReader] at called
  | primitives => simp [helpersOf_itemsReader_none] at called
  | whole _ isResult => rcases isResult with rfl | rfl <;> cases called
  | items _ isCallee =>
    rw [helpersOf_itemsReader_some _ _ (words _ _ isCallee)] at called
    cases mem_singleton.mp (mem_filter.mp called).1
    exact ⟨_, isCallee⟩
  | record _ isClass fields =>
    have spelledParts := isSpelled_of_fields spelled fields words
    obtain ⟨part, inParts, calls⟩ := mem_helpersOf_recordReader (spelled.className isClass)
      (fun part inParts => (spelledParts part inParts).1) called
    exact (spelledParts part inParts).2 helper calls

theorem helpers_of_readersWithin (spelled : state.IsSpelled) {schema : Schema}
    (found : readersWithin state api fuel (some schema) = .ok functions) : Helpers functions := by
  refine @readersWithin_induct _ _ _ _ _ (fun _ => Helpers)
    (fun schema name inner function named each reader => ?_) (fun _ _ _ _ _ _ => id) found
  have helpers : Helpers inner.flatten := by
    refine Helpers.flatten fun functions inInner => ?_
    rcases each functions inInner with rfl | ⟨_, -, helpers⟩
    · exact .nil
    · exact helpers
  have among : ∀ callee,
    (∃ functions ∈ inner, Helpers functions ∧ lastName functions = .ok callee) →
      IsWord callee ∧ callee ∈ inner.flatten.map (·.name) := by
    rintro callee ⟨functions, inInner, helpers, isLast⟩
    obtain ⟨front, last, rfl, rfl⟩ := lastName_eq_ok.mp isLast
    exact ⟨(helpers.named last (by simp)).isName.isWord,
      mem_map_of_mem (mem_flatten.mpr ⟨_, inInner, by simp⟩)⟩
  refine helpers.snoc (reader.name_eq ▸ isHelperName_of_schemaCodecName (.inr rfl)
    (isName_media .json) named) ?_
  intro helper called
  obtain ⟨-, isCallee⟩ :=
    helpersOf_reader spelled (fun _ callee isCallee => (among callee isCallee).1) reader
    helper called
  exact (among helper isCallee).2

/-! ## The functions for a media type -/

/-- A name that leads to a data type leads to one of exactly that name. -/
def Resolves (api : Api) (target : Doc) : Prop :=
  ∀ schema, api.lookup target = some schema → ∃ type, schema = .named type ∧ type.name = target

/-- The function of a type is among those that are generated for it.  A reference to a data type has
the function of the data type. -/
theorem mem_of_writersWithin {schema : Schema}
    (found : writersWithin state api format fuel (some schema) = .ok functions)
    (named : schemaCodecName api format.media "serialize" (some schema) = .ok name)
    (resolves : ∀ target, schema = .reference (.custom target) → Resolves api target) :
    name ∈ functions.map (·.name) := by
  have complete := (cover_of_writersWithin found).complete
  rcases complete schema .refl with ⟨target, rfl⟩ | ⟨function, member, writer⟩
  · cases known : api.lookup target with
    | none =>
      cases fuel with
      | zero => cases found
      | succ fuel =>
        obtain ⟨_, -, rest⟩ := bind_eq_ok.mp found
        obtain ⟨own, generated, -⟩ := bind_eq_ok.mp rest
        rw [writersFor, known] at generated
        exact absurd generated (writersWithin_none fuel own)
    | some schema =>
      obtain ⟨type, rfl, rfl⟩ := resolves target rfl schema known
      rcases complete _ (.single (.target known)) with ⟨_, impossible⟩ | ⟨function, inFunctions,
        writer⟩
      · cases impossible
      · cases named.symm.trans writer.named
        exact mem_map_of_mem inFunctions
  · cases named.symm.trans writer.named
    exact mem_map_of_mem member

/-- The functions that write a type for a media type: helpers, among them the one that turns the
prepared value into text and the one for the type. -/
structure Serves (api : Api) (media : String) (schema : Option Schema) (functions : List Method) :
    Prop where
  helpers : Helpers functions
  final : "serialize_final_" ++ media ∈ functions.map (·.name)
  own : ∀ name, schemaCodecName api media "serialize" schema = .ok name →
    (∀ target, schema = some (.reference (.custom target)) → Resolves api target) →
    name ∈ functions.map (·.name)

theorem serves_of_writersWithin (spelled : state.IsSpelled)
    (found : writersWithin state api format fuel schema = .ok functions) :
    Serves api format.media schema functions := by
  cases schema with
  | none => exact absurd found (writersWithin_none fuel functions)
  | some schema =>
    refine ⟨helpers_of_writersWithin spelled found, ?_, fun name named resolves =>
      mem_of_writersWithin found named fun target equal => resolves target (by rw [equal])⟩
    obtain ⟨own, rfl⟩ := exists_of_writersWithin found
    simp [final_name]

theorem serves_of_writers (spelled : state.IsSpelled) (isName : IsName media)
    (found : (ofMedia media).writers state api schema = .ok functions) :
    Serves api media schema functions := by
  unfold ofMedia at found
  split_ifs at found with isJson isForm
  · subst isJson
    exact (serves_of_writersWithin spelled found : Serves api Format.json.media schema functions)
  · subst isForm
    exact (serves_of_writersWithin spelled found : Serves api Format.form.media schema functions)
  · obtain ⟨name, named, equal⟩ := bind_eq_ok.mp found
    cases equal
    have isFinal := isHelperName_final media isName
    have isOwn := isHelperName_of_schemaCodecName (.inl rfl) isName named
    refine ⟨⟨?_, ?_⟩, ?_, fun other alsoNamed _ => ?_⟩
    · simp only [mem_cons, not_mem_nil, or_false, forall_eq_or_imp, forall_eq]
      exact ⟨isOwn, isFinal⟩
    · simp
    · simp
    · cases named.symm.trans alsoNamed
      simp

/-- The functions that read a type for a media type: helpers, among them the one for the type. -/
theorem helpers_of_readers (spelled : state.IsSpelled) (isName : IsName media)
    (found : (ofMedia media).readers state api schema = .ok functions) :
    Helpers functions ∧ ∀ name, schemaCodecName api media "deserialize" schema = .ok name →
      (∀ target, schema ≠ some (.reference (.custom target))) →
      name ∈ functions.map (·.name) := by
  unfold ofMedia at found
  split_ifs at found with isJson isForm
  · subst isJson
    change readersWithin state api (reach api schema) schema = .ok functions at found
    cases schema with
    | none => exact absurd found (readersWithin_none _ functions)
    | some schema =>
      refine ⟨helpers_of_readersWithin spelled found, fun name named direct => ?_⟩
      cases isReach : reach api (some schema) with
      | zero =>
        rw [isReach] at found
        cases found
      | succ fuel =>
        rw [isReach] at found
        obtain ⟨own, isOwn, generated⟩ := bind_eq_ok.mp found
        cases named.symm.trans isOwn
        obtain ⟨front, last, rfl, rfl⟩ := lastName_eq_ok.mp
          (lastName_of_readersFor generated fun target isTarget =>
            direct target (congrArg some isTarget))
        simp
  · cases found
  · obtain ⟨name, named, equal⟩ := bind_eq_ok.mp found
    cases equal
    have isOwn := isHelperName_of_schemaCodecName (.inr rfl) isName named
    refine ⟨Helpers.nil.snoc isOwn (by simp), fun other alsoNamed _ => ?_⟩
    cases named.symm.trans alsoNamed
    simp

end Spelled

end Codec

end ApiDescription.Client
