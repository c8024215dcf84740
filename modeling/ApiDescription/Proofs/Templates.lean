import ApiDescription.Proofs.Arguments
import ApiDescription.Proofs.Literals
import ApiDescription.Proofs.Naming

/-!
# Filled paths

The places of a path are filled by one replacement after another, in a text that turns into an
expression while it is filled.  The expression adds quoted pieces of the path and values of
arguments, and its value is the path with all places replaced at once.  This rests on one condition:
no name has a quote in it.  A name that has one may be found across a value that was filled in
before.
-/

namespace ApiDescription.Client

open Code (Method)

open Text (replaceFrom)

/-! ## Places -/

def placeOf (name : String) : List Char := '\x7b' :: (name.toList ++ ['\x7d'])

/-- A name that stands out in a path: it has neither braces nor quotes. -/
def StandsOut (name : String) : Prop :=
  ∀ character ∈ name.toList, character ≠ '\x7b' ∧ character ≠ '\x7d' ∧ character ≠ '\x27'

def leadingName (names : List String) (path : List Char) : Option String :=
  names.find? fun name => (placeOf name).isPrefixOf path

@[grind =] def replacePlaces (names : List String) (value : String → List Char) :
    List Char → List Char
  | [] => []
  | character :: rest =>
    match leadingName names (character :: rest) with
    | some name => value name ++ replacePlaces names value (rest.drop (name.toList.length + 1))
    | none => character :: replacePlaces names value rest
termination_by path => path.length

/-- What is filled in for an argument: the quoted path ends, and goes on behind the value. -/
def insertion (argument : String) : List Char :=
  '\x27' :: " + str(".toList ++ argument.toList ++ ") + '".toList

/-- A character that stands for itself in a quoted text of an expression. -/
def StandsBetweenQuotes (character : Char) : Prop :=
  Literal.IsPlain '\x27' character ∧ character ≠ '\r' ∧ character ≠ Char.ofNat 0

/-- Where the reader of a sum stands. -/
inductive Reading where
  | before
  | inside
  | argument (letters : List Char)
  | behind

/-- The value of a sum of quoted texts and of `str` of arguments, whose texts are given. -/
@[grind =] def sumValue (text : String → String) : Reading → List Char → Option (List Char)
  | .before, ' ' :: rest => sumValue text .before rest
  | .before, '\x27' :: rest => sumValue text .inside rest
  | .before, 's' :: 't' :: 'r' :: '(' :: rest => sumValue text (.argument []) rest
  | .inside, '\x27' :: rest => sumValue text .behind rest
  | .inside, character :: rest =>
    if character ∈ ['\\', '\n', '\r', '\x00'] then none else (character :: ·) <$> sumValue text
      .inside rest
  | .argument letters, ')' :: rest =>
    ((text (String.ofList letters)).toList ++ ·) <$> sumValue text .behind rest
  | .argument letters, character :: rest =>
    if isWordChar character then sumValue text (.argument (letters ++ [character])) rest else none
  | .behind, [] => some []
  | .behind, ' ' :: rest => sumValue text .behind rest
  | .behind, '+' :: rest => sumValue text .before rest
  | _, _ => none

variable {names : List String} {name : String} {value : String → List Char} {path rest : List Char}
  {character : Char}

theorem mem_of_leadingName (found : leadingName names path = some name) : name ∈ names :=
  List.mem_of_find?_eq_some found

theorem prefix_of_leadingName (found : leadingName names path = some name) :
    placeOf name <+: path := by
  simpa using List.find?_some found

theorem leadingName_eq_none :
    leadingName names path = none ↔ ∀ name ∈ names, ¬ placeOf name <+: path := by
  simp [leadingName]

theorem replacePlaces_of_some (found : leadingName names (placeOf name ++ rest) = some name) :
    replacePlaces names value (placeOf name ++ rest) = value name ++
      replacePlaces names value rest := by
  rw [placeOf, List.cons_append, replacePlaces, ← List.cons_append, ← placeOf, found]
  simp [List.append_assoc]

theorem replacePlaces_of_none (missing : leadingName names (character :: rest) = none) :
    replacePlaces names value (character :: rest) = character ::
      replacePlaces names value rest := by
  rw [replacePlaces, missing]

/-- A path is empty, begins with a place, or begins with some other character. -/
theorem placesRec {motive : List Char → Prop} (names : List String) (empty : motive [])
    (place : ∀ name rest, leadingName names (placeOf name ++ rest) = some name → motive rest →
      motive (placeOf name ++ rest))
    (between : ∀ character rest, leadingName names (character :: rest) = none → motive rest →
      motive (character :: rest)) (path : List Char) : motive path := by
  fun_induction replacePlaces names (fun _ => []) path with
  | case1 => exact empty
  | case2 character rest name found ih =>
    obtain ⟨after, isPath⟩ := prefix_of_leadingName found
    rw [← isPath] at found ⊢
    refine place name after found ?_
    have : rest = name.toList ++ '\x7d' :: after := by
      simpa [placeOf] using (List.cons.inj isPath.symm).2
    simpa [this] using ih
  | case3 character rest missing ih => exact between character rest missing ih

theorem replaceFrom_run {first : Char} {others image run : List Char} (absent : first ∉ run) :
    replaceFrom (first :: others) image 0 (run ++ rest) = run ++
      replaceFrom (first :: others) image 0 rest := by
  induction run with
  | nil => rfl
  | cons character run ih =>
    rw [List.mem_cons, not_or] at absent
    rw [List.cons_append, replaceFrom, if_neg (by simp [absent.1]), ih absent.2, List.cons_append]

theorem replaceFrom_skip (pattern image run : List Char) :
    replaceFrom pattern image run.length (run ++ rest) = replaceFrom pattern image 0 rest := by
  induction run with
  | nil => rfl
  | cons character run ih => exact ih

theorem replaceFrom_found (first : Char) (others image : List Char) :
    replaceFrom (first :: others) image 0 (first :: others ++ rest) =
      image ++ replaceFrom (first :: others) image 0 rest := by
  rw [List.cons_append, replaceFrom, if_pos (by simp), List.length_cons, Nat.add_sub_cancel,
    replaceFrom_skip]

theorem replacePlaces_run {run : List Char} (absent : '\x7b' ∉ run) :
    replacePlaces names value (run ++ rest) = run ++ replacePlaces names value rest := by
  induction run with
  | nil => rfl
  | cons character run ih =>
    rw [List.mem_cons, not_or] at absent
    have missing : leadingName names (character :: (run ++ rest)) = none := by
      rw [leadingName_eq_none]
      rintro name - ⟨after, isPath⟩
      exact absent.1 (List.cons.inj isPath).1
    rw [List.cons_append, replacePlaces_of_none missing, ih absent.2, List.cons_append]

theorem replacePlaces_of_absent (absent : '\x7b' ∉ path) :
    replacePlaces names value path = path := by
  have run := @replacePlaces_run names value [] path absent
  simpa [replacePlaces] using run

theorem replacePlaces_none : replacePlaces [] value path = path := by
  induction path with
  | nil => simp [replacePlaces]
  | cons character rest ih => rw [replacePlaces_of_none rfl, ih]

/-! ## One replacement after another -/

/-- What is put in for names begins with a quote and opens no place. -/
def Quotes (value : String → List Char) (names : List String) : Prop :=
  ∀ name ∈ names, (value name).head? = some '\x27' ∧ '\x7b' ∉ value name

/-- A text without quotes is not found across a value that was put in. -/
theorem prefix_of_prefix_replacePlaces {run : List Char} (quotes : Quotes value names)
    (plain : '\x27' ∉ run) (begins : run <+: replacePlaces names value path) : run <+: path := by
  induction run generalizing path with
  | nil => exact List.nil_prefix
  | cons character run ih =>
    rw [List.mem_cons, not_or] at plain
    cases path with
    | nil => simp [replacePlaces] at begins
    | cons first rest =>
      cases found : leadingName names (first :: rest) with
      | some name =>
        rw [replacePlaces, found] at begins
        obtain ⟨isQuote, -⟩ := quotes name (mem_of_leadingName found)
        cases isValue : value name with
        | nil => simp [isValue] at isQuote
        | cons quote others =>
          simp [isValue] at isQuote begins
          exact absurd (begins.1.trans isQuote).symm plain.1
      | none =>
        rw [replacePlaces_of_none found, List.cons_prefix_cons] at begins
        rw [begins.1, List.cons_prefix_cons]
        exact ⟨rfl, ih plain.2 begins.2⟩

theorem replaceFrom_replacePlaces (standsOut : StandsOut name) (quotes : Quotes value names)
    (path : List Char) :
    replaceFrom (placeOf name) (value name) 0 (replacePlaces names value path) =
      replacePlaces (names ++ [name]) value path := by
  have closed : '\x7b' ∉ name.toList ++ ['\x7d'] := by
    simpa using fun member => (standsOut _ member).1 rfl
  have split (path : List Char) : leadingName (names ++ [name]) path =
      (leadingName names path).or (leadingName [name] path) := List.find?_append
  induction path using placesRec (names ++ [name]) with
  | empty => simp [replacePlaces, replaceFrom]
  | place other rest found ih =>
    rw [replacePlaces_of_some found, ← ih]
    rw [split] at found
    cases foundBefore : leadingName names (placeOf other ++ rest) with
    | some before =>
      rw [foundBefore, Option.some_or, Option.some_inj] at found
      subst found
      rw [replacePlaces_of_some foundBefore]
      exact replaceFrom_run (quotes _ (mem_of_leadingName foundBefore)).2
    | none =>
      rw [foundBefore, Option.none_or] at found
      have same : other = name := by simpa using mem_of_leadingName found
      subst same
      have kept : replacePlaces names value (placeOf other ++ rest) =
          placeOf other ++ replacePlaces names value rest := by
        have begun := @replacePlaces_of_none names value (other.toList ++ ['\x7d'] ++ rest) '\x7b'
          foundBefore
        rwa [replacePlaces_run closed] at begun
      rw [kept]
      exact replaceFrom_found ..
  | between character rest missing ih =>
    rw [replacePlaces_of_none missing, ← ih]
    rw [split, Option.or_eq_none_iff, leadingName_eq_none, leadingName_eq_none] at missing
    have apart : ¬ placeOf name <+: character :: replacePlaces names value rest := by
      intro begins
      rw [placeOf, List.cons_prefix_cons] at begins
      have plain : '\x27' ∉ name.toList ++ ['\x7d'] := by
        simpa using fun member => (standsOut _ member).2.2 rfl
      refine missing.2 name (by simp) ?_
      rw [placeOf, List.cons_prefix_cons]
      exact ⟨begins.1, prefix_of_prefix_replacePlaces quotes plain begins.2⟩
    rw [replacePlaces_of_none (leadingName_eq_none.mpr missing.1), replaceFrom,
      if_neg (by simpa using apart)]

/-! ## The value of the expression -/

section Value

variable {argument : String → String} {text : String → String} {letters : List Char}

/-- Take empty literals out of a sum. -/
def tidy : List Char → List Char :=
  replaceFrom "+ ''".toList [] 0

theorem quotes_insertion (words : ∀ name ∈ names, IsWord (argument name)) :
    Quotes (fun name => insertion (argument name)) names := by
  intro name member
  refine ⟨rfl, ?_⟩
  have absent : '\x7b' ∉ (argument name).toList := fun inside => by
    have isWord := words name member _ inside
    simp [isWordChar] at isWord
  simp [insertion, absent]

theorem tidy_value (isWord : IsWord name) :
    tidy (" + str(".toList ++ name.toList ++ ')' :: rest) =
      " + str(".toList ++ name.toList ++ ')' :: tidy rest := by
  have absent : '+' ∉ " str(".toList ++ name.toList ++ [')'] := by
    have noPlus : '+' ∉ name.toList := fun inside => by
      have isLetter := isWord _ inside
      simp [isWordChar] at isLetter
    simp [noPlus]
  have run := @replaceFrom_run rest '+' [' ', '\x27', '\x27'] [] _ absent
  simp only [List.append_assoc, List.singleton_append] at run
  simpa [tidy, replaceFrom] using run

theorem sumValue_letters (isWord : ∀ letter ∈ letters, isWordChar letter = true)
    (before : List Char) :
    sumValue text (.argument before) (letters ++ ')' :: rest) =
      ((text (String.ofList (before ++ letters))).toList ++ ·) <$> sumValue text .behind rest := by
  induction letters generalizing before with
  | nil => simp [sumValue]
  | cons letter letters ih =>
    rw [List.forall_mem_cons] at isWord
    have notEnd : letter ≠ ')' := by
      rintro rfl
      exact absurd isWord.1 (by decide)
    rw [List.cons_append, sumValue, if_pos isWord.1, ih isWord.2]
    · simp
    · simpa using notEnd

theorem sumValue_value (isWord : IsWord name) :
    sumValue text .behind (" + str(".toList ++ name.toList ++ ')' :: rest) =
      ((text name).toList ++ ·) <$> sumValue text .behind rest := by
  have read := @sumValue_letters rest text name.toList isWord []
  rw [List.nil_append, String.ofList_toList] at read
  rw [← read]
  simp [sumValue]

theorem sumValue_plain (plain : StandsBetweenQuotes character) :
    sumValue text .inside (character :: rest) = (character :: ·) <$> sumValue text .inside
      rest := by
  obtain ⟨⟨notQuote, notBackslash, notNewline⟩, notReturn, notNul⟩ := plain
  rw [sumValue, if_neg (by simp [notBackslash, notNewline, notReturn, notNul])]
  simpa using notQuote

/-- The text between the quotes while a path is filled. -/
def filled (argument : String → String) (names : List String) : List Char → List Char :=
  replacePlaces names fun name => insertion (argument name)

/-- Two quotes meet only where a literal is empty, and nothing else looks like one that is added. -/
theorem quotes_apart (plain : ∀ character ∈ path, StandsBetweenQuotes character) :
    ¬ "''".toList <+: filled argument names path ++ ['\x27'] ∧
      ¬ " ''".toList <+: filled argument names path ++ ['\x27'] := by
  induction path using placesRec names with
  | empty => simp [filled, replacePlaces]
  | place name rest found ih => simp [filled, replacePlaces_of_some found, insertion]
  | between character rest missing ih =>
    rw [List.forall_mem_cons] at plain
    obtain ⟨apart, -⟩ := ih plain.2
    rw [filled, replacePlaces_of_none missing, ← filled, List.cons_append]
    exact ⟨by simp [Ne.symm plain.1.1.1], fun begins => apart (List.cons_prefix_cons.mp begins).2⟩

theorem sumValue_tidy (words : ∀ name ∈ names, IsWord (argument name))
    (plain : ∀ character ∈ path, StandsBetweenQuotes character) :
    sumValue text .inside (tidy (filled argument names path ++ ['\x27'])) =
        some (replacePlaces names (fun name => (text (argument name)).toList) path) ∧
      sumValue text .behind (tidy (" + '".toList ++ (filled argument names path ++ ['\x27']))) =
        some (replacePlaces names (fun name => (text (argument name)).toList) path) := by
  induction path using placesRec names with
  | empty => simp [filled, replacePlaces, tidy, replaceFrom, sumValue]
  | place name rest found ih =>
    obtain ⟨-, behind⟩ := ih fun character member => plain character (by simp [member])
    have isWord := words name (mem_of_leadingName found)
    have source : filled argument names (placeOf name ++ rest) ++ ['\x27'] =
        '\x27' :: (" + str(".toList ++ (argument name).toList ++ ')' ::
          (" + '".toList ++ (filled argument names rest ++ ['\x27']))) := by
      simp [filled, replacePlaces_of_some found, insertion]
    have read := @sumValue_value (argument name)
      (tidy (" + '".toList ++ (filled argument names rest ++ ['\x27']))) text isWord
    rw [behind, ← tidy_value isWord] at read
    rw [source, replacePlaces_of_some found]
    constructor
    · simpa [tidy, replaceFrom, sumValue] using read
    · simpa [tidy, replaceFrom, sumValue] using read
  | between character rest missing ih =>
    rw [List.forall_mem_cons] at plain
    obtain ⟨inside, -⟩ := ih plain.2
    have source : filled argument names (character :: rest) = character ::
        filled argument names rest :=
      replacePlaces_of_none missing
    have kept : tidy (character :: (filled argument names rest ++ ['\x27'])) =
        character :: tidy (filled argument names rest ++ ['\x27']) := by
      refine if_neg fun begins => (@quotes_apart names rest argument plain.2).2 ?_
      exact (List.cons_prefix_cons.mp (List.isPrefixOf_iff_prefix.mp begins)).2
    have read := @sumValue_plain (tidy (filled argument names rest ++ ['\x27'])) character text
      plain.1
    rw [inside, ← kept] at read
    rw [source, replacePlaces_of_none missing]
    constructor
    · simpa using read
    · simpa [tidy, replaceFrom, sumValue, Ne.symm plain.1.1.1] using read

end Value

/-! ## Paths of operations -/

section

variable {resource : Resource} {operation : Operation} {method : Method} {input : Input}
  {parameters : List Parameter} {argument : String → String}

/-- A parameter that refers to a binding of the resource, by an identifier that is not empty. -/
def RefersIn (resource : Resource) (parameter : Parameter) : Prop :=
  ∃ binding ∈ resource.bindings, parameter.source = .shared binding.id ∧ binding.id.isTruthy = true

theorem filter_id {bindings : List NamedBinding} (ids : (bindings.map (·.id)).Nodup)
    {binding : NamedBinding} (member : binding ∈ bindings) :
    (bindings.filter fun other => other.id == binding.id) = [binding] := by
  induction bindings with
  | nil => cases member
  | cons first rest ih =>
    rw [List.map_cons, List.nodup_cons, List.mem_map, not_exists] at ids
    rcases List.mem_cons.mp member with rfl | later
    · have others : (rest.filter fun other => other.id == binding.id) = [] := by
        rw [List.filter_eq_nil_iff]
        intro other inRest same
        exact ids.1 other ⟨inRest, by simpa using same⟩
      simp [others]
    · have differs : ¬ first.id = binding.id := fun same => ids.1 binding ⟨later, same.symm⟩
      simp [differs, ih ids.2 later]

theorem exists_bindingsOf {parameter : Parameter} (ids : (resource.bindings.map (·.id)).Nodup)
    (refers : RefersIn resource parameter) :
    ∃ binding, bindingsOf resource parameter = .ok [binding] ∧
      boundTo resource parameter = some binding := by
  obtain ⟨binding, member, isSource, isTruthy⟩ := refers
  refine ⟨binding.toInputBinding, ?_, ?_⟩
  · simp [bindingsOf, isSource, isTruthy, filter_id ids member]
  · simp [boundTo, isSource, ← List.head?_filter, filter_id ids member]

theorem fillPath_filled (standsOut : StandsOut name)
    (words : ∀ other ∈ names, IsWord (argument other)) :
    fillPath (.text (String.ofList (filled argument names path))) (.text name) (argument name) =
      .ok (.text (String.ofList (filled argument (names ++ [name]) path))) := by
  have pattern : ("\x7b" ++ name ++ "\x7d").toList = placeOf name := by simp [placeOf]
  have image : ("' + str(" ++ argument name ++ ") + '").toList = insertion (argument name) := by
    simp [insertion]
  have step := replaceFrom_replacePlaces standsOut (quotes_insertion words) path
  have notEmpty : ("\x7b" ++ name ++ "\x7d").isEmpty = false := by simp
  simp only [fillPath, Label.asText, Outcome.ok_bind, Text.replaceAll, notEmpty,
    String.toList_ofList, pattern, image, filled, ← step]
  rfl

theorem fillParameters_filled (ids : (resource.bindings.map (·.id)).Nodup)
    (refers : ∀ parameter ∈ parameters, RefersIn resource parameter)
    (isNames : wireNames resource parameters = names.map .text)
    (standOut : ∀ name ∈ names, StandsOut name)
    (mapped : ∀ name ∈ names, method.mapping (.text name) = .ok (argument name))
    {before : List String} (words : ∀ name ∈ before ++ names, IsWord (argument name)) :
    fillParameters resource method (.text (String.ofList (filled argument before path)))
      parameters = .ok (.text (String.ofList (filled argument (before ++ names) path))) := by
  induction parameters generalizing before names with
  | nil =>
    cases names with
    | nil => simp [fillParameters]
    | cons => simp [wireNames] at isNames
  | cons parameter rest ih =>
    rw [List.forall_mem_cons] at refers
    obtain ⟨binding, found, isBound⟩ := exists_bindingsOf ids refers.1
    rw [wireNames, List.filterMap_cons_some (by rw [isBound]; rfl)] at isNames
    cases names with
    | nil => cases isNames
    | cons name others =>
      have isName : binding.name = .text name := (List.cons.inj isNames).1
      have isOthers : wireNames resource rest = others.map .text := (List.cons.inj isNames).2
      rw [List.forall_mem_cons] at standOut mapped
      have filledOne := @fillPath_filled before name path argument standOut.1 fun other member =>
        words other (List.mem_append_left _ member)
      rw [fillParameters, found, Outcome.ok_bind, fillPlaces, isName, Label.toDoc, mapped.1,
        Outcome.ok_bind,
        filledOne, Outcome.ok_bind, fillPlaces, Outcome.ok_bind,
        ih refers.2 isOthers standOut.2 mapped.2]
      · simp
      · simpa using words

/-- The expression for the path of an operation whose parameters refer to bindings has the path as
its value in which all places are replaced at once, provided that no name has a quote. -/
theorem pathExpression_value {path : String} (isPath : resource.path = .text path)
    (plain : ∀ character ∈ path.toList, StandsBetweenQuotes character)
    (hasInput : operation.input = some input) (ids : (resource.bindings.map (·.id)).Nodup)
    (refers : ∀ parameter ∈ input.params, RefersIn resource parameter)
    (isNames : wireNames resource input.params = names.map .text)
    (standOut : ∀ name ∈ names, StandsOut name)
    (mapped : ∀ name ∈ names, method.mapping (.text name) = .ok (argument name) ∧
      IsWord (argument name)) :
    ∃ expression, pathExpression resource operation method = .ok expression ∧
      ∀ text, sumValue text .before expression.toList =
        some (replacePlaces names (fun name => (text (argument name)).toList) path.toList) := by
  have words : ∀ name ∈ names, IsWord (argument name) := fun name member => (mapped name member).2
  have whole : filledPath resource operation method =
      .ok (.text (String.ofList (filled argument names path.toList))) := by
    rw [filledPath, isPath]
    split_ifs with places
    · have run := @fillParameters_filled names path.toList resource method input.params argument ids
        refers isNames standOut (fun name member => (mapped name member).1) [] words
      rw [filled, replacePlaces_none, String.ofList_toList] at run
      simpa only [hasInput, List.nil_append] using run
    · have absent : '\x7b' ∉ path.toList := by simpa [hasPlaces] using places
      rw [filled, replacePlaces_of_absent absent, String.ofList_toList]
  refine ⟨_, by rw [pathExpression, whole]; rfl, fun text => ?_⟩
  obtain ⟨inside, -⟩ := @sumValue_tidy names path.toList argument text words plain
  rw [← inside]
  simp [Text.replaceAll, tidy, replaceFrom, sumValue]

end

namespace Signpost

def signpost (path : String) (names : List String) : Resource :=
  { name := "signpost", path := .text path
    bindings := names.map fun name =>
      { id := .text name, mode := "url", name := .text name,
        type := .reference (.primitive .string) .null } }

def input (names : List String) : Input :=
  { params := names.map fun name => { source := .shared (.text name) } }

def visit (names : List String) : Operation :=
  { name := "visit", method := "GET", input := some (input names) }

def method (names : List String) (argument : String → String) : Method :=
  { Method.empty .bound "visit" with mappings := names.map fun name => (.text name, argument name) }

/-- Places may stand side by side, be repeated, and stand between braces. -/
theorem adjacent_places_value :
    ∃ expression, pathExpression (signpost "\x7bb\x7d\x7ba\x7d/\x7b\x7ba\x7d\x7d" ["a", "b"])
      (visit ["b", "a"]) (method ["a", "b"] id) =
        .ok expression ∧
      ∀ text, sumValue text .before expression.toList =
        some (replacePlaces ["b", "a"] (fun name => (text (id name)).toList)
          "\x7bb\x7d\x7ba\x7d/\x7b\x7ba\x7d\x7d".toList) := by
  refine pathExpression_value rfl (by simp [StandsBetweenQuotes, Literal.IsPlain]) rfl (by decide)
    ?_ rfl (by simp [StandsOut]) ?_
  · simp [input, RefersIn, signpost, Label.isTruthy]
  · simp only [List.forall_mem_cons, List.not_mem_nil, false_implies, implies_true, and_true]
    exact ⟨⟨rfl, by simp [IsWord, isWordChar]⟩, rfl, by simp [IsWord, isWordChar]⟩

/-- The second name is found across the value of the first. -/
theorem crossed_place_replaced :
    pathExpression (signpost "\x7b\x7ba\x7d\x7d" ["a", "' + str(a) + '"])
      (visit ["a", "' + str(a) + '"])
        (method ["a", "' + str(a) + '"] fun name => if name = "a" then "a" else "stra") =
          .ok "'' + str(stra) " ∧
      sumValue (fun _ => "") .before "'' + str(stra) ".toList ≠
        some (replacePlaces ["a", "' + str(a) + '"] (fun _ => []) "\x7b\x7ba\x7d\x7d".toList) := by
  constructor
  · rfl
  · simp [sumValue, replacePlaces, leadingName, placeOf]

end Signpost

end ApiDescription.Client
