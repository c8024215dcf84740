import ApiDescription.Model.TypeRef

/-!
# Names of types

A reference and the name it is written as determine each other.  The name may differ from the one
the reference was made from, since the last character of a container's name is taken for its closing
parenthesis whatever it is.

`TypeRef.Spells` says which reference a name spells without a bound on the nesting of containers;
the reading of a name finds exactly that reference.
-/

namespace ApiDescription

open Primitive List

theorem Primitive.ofName?_name (kind : Primitive) : ofName? kind.name = some kind := by
  cases kind <;> decide

theorem Primitive.name_of_ofName? {name : String} {kind : Primitive}
    (found : ofName? name = some kind) : kind.name = name := by
  have accepted := find?_some found
  simpa using accepted

theorem Primitive.ofName?_eq_none_of_mem {name : String} (opened : '(' ∈ name.toList) :
    Primitive.ofName? name = none := by
  cases found : Primitive.ofName? name with
  | none => rfl
  | some kind =>
    rw [← Primitive.name_of_ofName? found] at opened
    cases kind <;> simp [Primitive.name] at opened

theorem Container.ofName?_name (kind : Container) : Container.ofName? kind.name = some kind := by
  cases kind <;> decide

theorem Container.name_of_ofName? {name : String} {kind : Container}
    (found : Container.ofName? name = some kind) : kind.name = name := by
  have accepted := find?_some found
  simpa using accepted

theorem Container.open_not_mem_name (kind : Container) : '(' ∉ kind.name.toList := by
  cases kind <;> decide

namespace TypeRef

variable {name : List Char} {reference : TypeRef}

theorem splitContainer_eq_some_iff {kind item : List Char} :
    splitContainer name = some (kind, item) ↔
      '(' ∉ kind ∧ ∃ rest, name = kind ++ '(' :: rest ∧ item = rest.dropLast := by
  constructor
  · intro split
    unfold splitContainer at split
    have parts := takeWhile_append_dropWhile (p := (· != '(')) (l := name)
    cases remainder : name.dropWhile (· != '(') with
    | nil => simp [remainder] at split
    | cons opening rest =>
      have isOpening : opening = '(' := by
        have first := head?_dropWhile_not (· != '(') name
        simpa [remainder] using first
      rw [remainder, isOpening] at parts
      rw [remainder] at split
      cases split
      refine ⟨fun member => ?_, rest, parts.symm, rfl⟩
      have kept := all_eq_true.mp all_takeWhile _ member
      simp at kept
  · rintro ⟨plain, rest, rfl, rfl⟩
    have keep : ∀ character ∈ kind, (character != '(') = true := by
      intro character member
      simpa using fun equal : character = '(' => plain (equal ▸ member)
    unfold splitContainer
    rw [dropWhile_append_of_pos keep, takeWhile_append_of_pos keep]
    simp

theorem length_of_splitContainer {kind item : List Char}
    (split : splitContainer name = some (kind, item)) :
    item.length < name.length := by
  obtain ⟨-, rest, rfl, rfl⟩ := splitContainer_eq_some_iff.mp split
  simp only [length_dropLast, length_append, length_cons]
  omega

theorem splitContainer_spelled (kind : Container) (item : List Char) :
    splitContainer (kind.name.toList ++ '(' :: (item ++ [')'])) = some (kind.name.toList, item) :=
  splitContainer_eq_some_iff.mpr ⟨kind.open_not_mem_name, _, rfl, by simp⟩

/-- The reference that the characters of a name spell. -/
inductive Spells : List Char → TypeRef → Prop where
  | primitive {name : List Char} {kind : Primitive}
      (known : ofName? (String.ofList name) = some kind) :
      Spells name (.primitive kind)
  | container {name kindName item : List Char} {kind : Container} {reference : TypeRef}
      (unknown : ofName? (String.ofList name) = none)
      (split : splitContainer name = some (kindName, item))
      (known : Container.ofName? (String.ofList kindName) = some kind)
      (inner : Spells item reference) :
      Spells name (.container kind reference)
  | custom {name : List Char}
      (unknown : ofName? (String.ofList name) = none)
      (noContainer : ∀ kindName item, splitContainer name = some (kindName, item) →
        Container.ofName? (String.ofList kindName) = none) :
      Spells name (.custom (.text (String.ofList name)))

theorem spells_ofChars {depth : Nat} (enough : name.length ≤ depth) :
    Spells name (ofChars depth name) := by
  induction depth generalizing name with
  | zero =>
    have empty : name = [] := length_eq_zero_iff.mp (Nat.le_zero.mp enough)
    subst empty
    have unknown : ofName? (String.ofList []) = none := by decide
    simp only [ofChars, unknown]
    exact .custom unknown (by simp [splitContainer])
  | succ depth ih =>
    cases known : ofName? (String.ofList name) with
    | some kind =>
      unfold ofChars
      simp only [known]
      exact .primitive known
    | none =>
      cases split : splitContainer name with
      | none =>
        simp only [ofChars, known, split]
        exact .custom known (by simp [split])
      | some parts =>
        obtain ⟨kindName, item⟩ := parts
        cases container : Container.ofName? (String.ofList kindName) with
        | none =>
          simp only [ofChars, known, split, container]
          refine .custom known fun otherKind otherItem otherSplit => ?_
          rw [split] at otherSplit
          cases otherSplit
          exact container
        | some kind =>
          simp only [ofChars, known, split, container]
          have shorter := length_of_splitContainer split
          exact .container known split container (ih (by omega))

theorem Spells.unique {other : TypeRef} (spells : Spells name reference)
    (alsoSpells : Spells name other) :
    reference = other := by
  induction spells generalizing other with
  | primitive known =>
    cases alsoSpells with
    | primitive alsoKnown =>
      rw [known] at alsoKnown
      cases alsoKnown
      rfl
    | container unknown => simp [known] at unknown
    | custom unknown => simp [known] at unknown
  | container unknown split known inner ih =>
    cases alsoSpells with
    | primitive alsoKnown => simp [unknown] at alsoKnown
    | container _ otherSplit alsoKnown otherInner =>
      rw [split] at otherSplit
      cases otherSplit
      rw [known] at alsoKnown
      cases alsoKnown
      rw [ih otherInner]
    | custom _ noContainer => simp [noContainer _ _ split] at known
  | custom unknown noContainer =>
    cases alsoSpells with
    | primitive alsoKnown => simp [unknown] at alsoKnown
    | container _ otherSplit alsoKnown => simp [noContainer _ _ otherSplit] at alsoKnown
    | custom => rfl

theorem toList_spelling_container (kind : Container) (item : TypeRef) :
    (container kind item).spelling.toList = kind.name.toList ++ '(' ::
      (item.spelling.toList ++ [')']) := by
  simp [TypeRef.spelling]

theorem toList_spelling_custom (name : List Char) :
    (custom (.text (String.ofList name))).spelling.toList = name := by
  simp [TypeRef.spelling, Doc.words]

theorem Spells.spelling (spells : Spells name reference) :
    Spells reference.spelling.toList reference := by
  induction spells with
  | @primitive name kind known =>
    exact .primitive (by simp [TypeRef.spelling, ofName?_name])
  | @container name kindName item kind reference unknown split known inner ih =>
    rw [toList_spelling_container]
    exact .container (ofName?_eq_none_of_mem (by simp)) (splitContainer_spelled kind _)
      (by rw [String.ofList_toList, Container.ofName?_name]) ih
  | @custom name unknown noContainer =>
    rw [toList_spelling_custom]
    exact .custom unknown noContainer

theorem spells_ofText (name : String) : Spells name.toList (ofText name) :=
  spells_ofChars (Nat.le_of_eq String.length_toList)

theorem ofText_spelling (name : String) : ofText (ofText name).spelling = ofText name :=
  (spells_ofText _).unique (spells_ofText name).spelling

theorem Spells.referenceName (spells : Spells name reference) :
    reference.referenceName = .text reference.spelling := by
  cases spells <;> rfl

/-- A name whose containers are closed: where it begins as the name of a container does, it ends
with a closing parenthesis, and so does, in the same way, the name of the item. -/
inductive Closed : List Char → Prop where
  | plain {name : List Char}
      (noContainer : ∀ (kind : Container) (rest : List Char), name ≠ kind.name.toList ++ '(' ::
        rest) :
      Closed name
  | container {kind : Container} {item : List Char} (inner : Closed item) :
      Closed (kind.name.toList ++ '(' :: (item ++ [')']))

/-- What a name spells is spelled the same way if and only if the containers of the name are
closed. -/
theorem Spells.spelling_eq_iff (spells : Spells name reference) :
    reference.spelling.toList = name ↔ Closed name := by
  induction spells with
  | @primitive name kind known =>
    have named : kind.name.toList = name := by
      rw [name_of_ofName? known, String.toList_ofList]
    refine iff_of_true named (.plain ?_)
    rintro container rest rfl
    rw [ofName?_eq_none_of_mem (by simp)] at known
    cases known
  | @container name kindName item kind reference unknown split known inner ih =>
    obtain ⟨-, rest, isName, isItem⟩ := splitContainer_eq_some_iff.mp split
    have isKind : kindName = kind.name.toList := by
      rw [Container.name_of_ofName? known, String.toList_ofList]
    rw [toList_spelling_container]
    constructor
    · intro same
      rw [isName, isKind, append_cancel_left_eq, cons.injEq] at same
      rw [← same.2, dropLast_concat] at isItem
      rw [isName, isKind, ← same.2]
      exact .container (isItem ▸ ih.mp isItem.symm)
    · intro closed
      cases closed with
      | plain noContainer => exact absurd (isKind ▸ isName) (noContainer kind rest)
      | @container other inside closed =>
        rw [splitContainer_spelled] at split
        cases split
        rw [isKind, ih.mpr closed]
  | @custom name unknown noContainer =>
    rw [toList_spelling_custom]
    refine iff_of_true rfl (.plain ?_)
    rintro kind rest rfl
    have found := noContainer _ _
      (splitContainer_eq_some_iff.mpr ⟨kind.open_not_mem_name, rest, rfl, rfl⟩)
    simp [Container.ofName?_name] at found

/-- Reading a name finds the one reference that it spells.  The name which that reference is written
as reads as the same reference, and is the name it was read from if and only if all containers of
that are closed. -/
theorem referenceName_canonical (name : String) :
    (∀ reference, Spells name.toList reference ↔ reference = ofText name) ∧
      ofName (ofText name).referenceName = ofText name ∧
      ((ofText name).referenceName = .text name ↔ Closed name.toList) := by
  have spells := spells_ofText name
  refine ⟨fun reference => ⟨fun other => other.unique spells, fun same => same ▸ spells⟩, ?_, ?_⟩
  · rw [spells.referenceName]
    exact ofText_spelling name
  · rw [spells.referenceName, Doc.text.injEq, ← spells.spelling_eq_iff, String.toList_inj]

/-- A reference is canonical when it is made again from the name it is written as. -/
structure Canonical (reference : TypeRef) : Prop where
  ofName_referenceName : ofName reference.referenceName = reference
  not_object : ∀ fields, reference.referenceName ≠ .object fields

theorem canonical_ofName {name : Doc} (plain : ∀ fields, name ≠ .object fields) :
    (ofName name).Canonical := by
  cases name with
  | text name =>
    have written := (spells_ofText name).referenceName
    refine ⟨?_, ?_⟩
    · simp only [ofName, written, ofText_spelling]
    · simp [ofName, written]
  | object fields => exact absurd rfl (plain fields)
  | null | bool | int | float | list => exact ⟨rfl, by simp [ofName, referenceName]⟩

end TypeRef

end ApiDescription
