import ApiDescription.Proofs.Building
import ApiDescription.Proofs.Naming

/-!
# Allocation of names

`Search` is the search for a free name without a bound on its steps: it tries a name, and while that
is taken puts the next number behind the stem.  The search ends for every stem whatever is taken, at
the first free of the numbered names.  Names that are recorded when they are given therefore differ
from each other, whatever else is done between.
-/

namespace ApiDescription.Client

open Relation (ReflTransGen)

/-- The search for a free name from a name that ends with a number. -/
inductive Search (taken : List String) : Nat → String → String → Prop where
  | free {number : Nat} {name : String} (isFree : name ∉ taken) : Search taken number name name
  | next {number : Nat} {name result : String} (isTaken : name ∈ taken)
      (rest : Search taken (number + 1) (nextName name number) result) :
      Search taken number name result

variable {taken : List String} {number : Nat} {name result : String}

theorem search_firstFreeFrom {fuel : Nat} (isFree : firstFreeFrom taken fuel number name ∉ taken) :
    Search taken number name (firstFreeFrom taken fuel number name) := by
  induction fuel generalizing number name with
  | zero => exact .free isFree
  | succ fuel ih =>
    by_cases isTaken : name ∈ taken
    · have step : firstFreeFrom taken (fuel + 1) number name =
          firstFreeFrom taken fuel (number + 1) (nextName name number) := by
        simp [firstFreeFrom, isTaken]
      rw [step] at isFree ⊢
      exact .next isTaken (ih isFree)
    · have stop : firstFreeFrom taken (fuel + 1) number name = name := by
        simp [firstFreeFrom, isTaken]
      rw [stop]
      exact .free isTaken

theorem Search.unique {other : String} (found : Search taken number name result)
    (alsoFound : Search taken number name other) :
    result = other := by
  induction found with
  | free isFree =>
    cases alsoFound with
    | free => rfl
    | next isTaken => exact absurd isTaken isFree
  | next isTaken rest ih =>
    cases alsoFound with
    | free isFree => exact absurd isTaken isFree
    | next _ otherRest => exact ih otherRest

/-- The search ends for every stem, with the first free name. -/
theorem search_iff {stem : String} :
    Search taken 0 stem result ↔ result = firstFree taken stem := by
  have found : Search taken 0 stem (firstFree taken stem) :=
    search_firstFreeFrom (firstFree_not_mem taken stem)
  constructor
  · intro other
    exact other.unique found
  · rintro rfl
    exact found

/-- The later names are the earlier ones followed by names that differ from them and from each
other. -/
def AddsDistinct (before after : List String) : Prop :=
  ∃ new, after = before ++ new ∧ new.Nodup ∧ ∀ name ∈ new, name ∉ before

theorem AddsDistinct.add {before after : List String} (adds : AddsDistinct before after)
    (isFree : name ∉ after) :
    AddsDistinct before (after ++ [name]) := by
  obtain ⟨new, rfl, distinct, fresh⟩ := adds
  rw [List.mem_append, not_or] at isFree
  refine ⟨new ++ [name], List.append_assoc before new [name], ?_, ?_⟩
  · apply List.nodup_append.mpr
    refine ⟨distinct, List.nodup_singleton name, ?_⟩
    rintro old isOld last isLast rfl
    exact isFree.2 (List.mem_singleton.mp isLast ▸ isOld)
  · intro added member
    rcases List.mem_append.mp member with isNew | isLast
    · exact fresh added isNew
    · exact List.mem_singleton.mp isLast ▸ isFree.1

section Recording

variable {σ : Type} {names : σ → List String} {gives : σ → String → String → Prop}

/-- A step that records the name given to some text, or leaves the recorded names alone. -/
def Records (names : σ → List String) (gives : σ → String → String → Prop) (before after : σ) :
    Prop :=
  names after = names before ∨ ∃ text name, gives before text name ∧
    names after = names before ++ [name]

theorem addsDistinct_of_records
    (free : ∀ {state text name}, gives state text name → name ∉ names state) {before after : σ}
    (steps : ReflTransGen (Records names gives) before after) :
    AddsDistinct (names before) (names after) := by
  induction steps with
  | refl => exact ⟨[], by simp, by simp, by simp⟩
  | tail _ step ih =>
    rcases step with same | ⟨text, name, given, recorded⟩
    · rw [same]
      exact ih
    · rw [recorded]
      exact ih.add (free given)

end Recording

def methodNames (type : Code.ClassDef) : List String :=
  type.methods.map (·.name)

def argumentNamesOf (method : Code.Method) : List String :=
  method.arguments.map (·.name)

def GivesClassName (state : State) (text name : String) : Prop :=
  ∃ after, Returns (Build.className (.text text)) state name after

/-- The characters of a text that a name may have. -/
def nameCharacters (text : String) : List Char :=
  text.toList.filter fun character => Text.isAlphanumeric character || character == '_'

/-- The base of the names of a text, by the characters of it that a name may have: a default if
there are none, those characters behind a prefix if the first is a digit, and else those characters
with the first in the case of its kind of names. -/
inductive Base (default beforeDigit : String) (inCase : Char → List Char) :
    List Char → String → Prop
  | empty : Base default beforeDigit inCase [] default
  | digit {first : Char} {rest : List Char} (isDigit : Text.isDigit first = true) :
      Base default beforeDigit inCase (first :: rest) (beforeDigit ++ String.ofList (first :: rest))
  | letter {first : Char} {rest : List Char} (notDigit : Text.isDigit first = false) :
      Base default beforeDigit inCase (first :: rest) (String.ofList (inCase first ++ rest))

/-- The default and the prefix of a style are in its case already. -/
theorem base_ofCleaned (style : NameStyle) {inCase : Char → List Char} {first second : Char}
    {others more : List Char}
    (start : ∀ {text first rest}, text.toList = first :: rest →
      style.start text = String.ofList (inCase first ++ rest))
    (nameless : style.nameless.toList = first :: others) (isCased : inCase first = [first])
    (beforeDigit : style.beforeDigit.toList = second :: more) (alsoCased : inCase second = [second])
    (characters : List Char) :
    Base style.nameless style.beforeDigit inCase characters
      (style.ofCleaned (String.ofList characters)) := by
  rw [NameStyle.ofCleaned, String.toList_ofList]
  cases characters with
  | nil =>
    have same : style.start style.nameless = style.nameless := by
      rw [start nameless, isCased, List.singleton_append, ← nameless, String.ofList_toList]
    change Base _ _ _ _ (style.start style.nameless)
    rw [same]
    exact .empty
  | cons initial rest =>
    change Base _ _ _ _ (style.start (if Text.isDigit initial then _ else _))
    cases isDigit : Text.isDigit initial with
    | true =>
      have behind : (style.beforeDigit ++ String.ofList (initial :: rest)).toList =
          second :: (more ++ initial :: rest) := by
        simp [beforeDigit]
      rw [if_pos rfl, start behind, alsoCased, List.singleton_append, ← behind,
        String.ofList_toList]
      exact .digit isDigit
    | false =>
      rw [if_neg Bool.false_ne_true, start String.toList_ofList]
      exact .letter isDigit

theorem upperFirst_of_toList {text : String} {first : Char} {rest : List Char}
    (characters : text.toList = first :: rest) :
    Text.upperFirst text = String.ofList (Text.upperChar first ++ rest) := by
  rw [Text.upperFirst, characters]

theorem lowerFirst_of_toList {text : String} {first : Char} {rest : List Char}
    (characters : text.toList = first :: rest) :
    Text.lowerFirst text = String.ofList (Text.lowerChar first ++ rest) := by
  rw [Text.lowerFirst, characters]

/-- The search for a free name ends for every base with the first of its numbered names that is not
taken; every text has a base for each kind of names, made of its characters, and gives a class, a
method and an argument the name that the search from that base ends with; and of the names given in
any number of steps that record them no two are the same. -/
theorem allocated_names_free_and_distinct :
    (∀ taken stem, (∀ result, Search taken 0 stem result ↔ result = firstFree taken stem) ∧
      ∃ number, firstFree taken stem = numbered stem number ∧ numbered stem number ∉ taken ∧
        ∀ earlier < number, numbered stem earlier ∈ taken) ∧
    (∀ text, ∃ stem, NameStyle.type.stem (.text text) = .ok stem ∧
      Base "DataType" "DataType" Text.upperChar (nameCharacters text) stem ∧
      ∀ state : State, let name := firstFree state.classNames stem
        Returns (Build.className (.text text)) state name (state.withClassName text name)) ∧
    (∀ text, ∃ stem, NameStyle.method.stem (.text text) = .ok stem ∧
      Base "method" "method_" Text.lowerChar (nameCharacters text) stem ∧
      ∀ type, methodName type (.text text) = .ok (firstFree (methodNames type) stem)) ∧
    (∀ text, ∃ stem, NameStyle.argument.stem (.text text) = .ok stem ∧
      Base "param" "param_" Text.lowerChar (nameCharacters text) stem ∧
      ∀ method, argumentName method (.text text) = .ok (firstFree (argumentNamesOf method) stem)) ∧
    (∀ before after, ReflTransGen (Records State.classNames GivesClassName) before after →
      AddsDistinct before.classNames after.classNames) ∧
    (∀ before after, ReflTransGen (Records methodNames
        fun type text name => methodName type (.text text) = .ok name) before after →
      AddsDistinct (methodNames before) (methodNames after)) ∧
    ∀ before after, ReflTransGen (Records argumentNamesOf
        fun method text name => argumentName method (.text text) = .ok name) before after →
      AddsDistinct (argumentNamesOf before) (argumentNamesOf after) := by
  refine ⟨fun taken stem => ⟨fun result => search_iff, exists_firstFree_eq taken stem⟩,
    fun text => ⟨_, rfl, ?_, fun state => ?_⟩, fun text => ⟨_, rfl, ?_, fun type => rfl⟩,
    fun text => ⟨_, rfl, ?_, fun method => rfl⟩, fun before after => ?_, fun before after => ?_,
    fun before after => ?_⟩
  · exact base_ofCleaned .type upperFirst_of_toList rfl (by decide) rfl (by decide) _
  · exact returns_className.mpr ⟨text, rfl, rfl, rfl⟩
  · exact base_ofCleaned .method lowerFirst_of_toList rfl (by decide) rfl (by decide) _
  · exact base_ofCleaned .argument lowerFirst_of_toList rfl (by decide) rfl (by decide) _
  · apply addsDistinct_of_records
    rintro state text name ⟨middle, given⟩
    obtain ⟨key, -, rfl, -⟩ := returns_className.mp given
    exact firstFree_not_mem _ _
  · apply addsDistinct_of_records
    rintro type text name ⟨⟩
    exact firstFree_not_mem _ _
  · apply addsDistinct_of_records
    rintro method text name ⟨⟩
    exact firstFree_not_mem _ _

/-- A name that ends in a digit is numbered all the same.  A text that begins with a digit, and one
without letters, get names too. -/
theorem allocated_names_of_two_calls :
    (∃ first second, Returns (Build.className (.text "a 9")) State.empty "A9" first ∧
      Returns (Build.className (.text "a9")) first "A91" second ∧
      AddsDistinct [] second.classNames) ∧
    methodName (.empty "Cat" none) (.text "9 lives") = .ok "method_9lives" ∧
    argumentName (.addArgument (.empty .bound "feed") (.plain "param")) (.text "?") =
      .ok "param1" := by
  obtain ⟨-, classes, methods, arguments, distinct, -, -⟩ := allocated_names_free_and_distinct
  have named (text name : String) (state : State)
      (first : ∀ stem, NameStyle.type.stem (.text text) = .ok stem →
        firstFree state.classNames stem = name) :
      Returns (Build.className (.text text)) state name (state.withClassName text name) := by
    obtain ⟨stem, isStem, -, given⟩ := classes text
    exact first stem isStem ▸ given state
  have first := named "a 9" "A9" State.empty (by rintro _ ⟨⟩; decide)
  have second := named "a9" "A91" (State.empty.withClassName "a 9" "A9") (by rintro _ ⟨⟩; decide)
  refine ⟨⟨_, _, first, second, ?_⟩, ?_, ?_⟩
  · exact distinct State.empty _
      (.tail (.single (.inr ⟨_, _, ⟨_, first⟩, rfl⟩)) (.inr ⟨_, _, ⟨_, second⟩, rfl⟩))
  · obtain ⟨stem, ⟨⟩, -, given⟩ := methods "9 lives"
    rw [given]
    decide
  · obtain ⟨stem, ⟨⟩, -, given⟩ := arguments "?"
    rw [given]
    decide

end ApiDescription.Client
