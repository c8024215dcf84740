import ApiDescription.Proofs.Outcome
import ApiDescription.Proofs.TypeNames
import ApiDescription.Workbench.Construction

/-!
# References on the workbench

A reference that is made by hand is a chain of parts: one for every container, and one for the type
in the innermost.  Making parts leaves those alone that are there, so a chain stands for the same
reference later on, and it is named and checked as the reference of a description is.
-/

namespace ApiDescription.Workbench

/-- Every part is still there as it was. -/
def Keeps (before after : Bench) : Prop :=
  ∀ (number : Nat) (item : Item), before.items[number]? = some item →
    after.items[number]? = some item

/-- The part of a number is the first of the chain that stands for a reference. -/
def Stands (bench : Bench) : TypeRef → Nat → Prop
  | .primitive kind, number =>
    bench.items[number]? = some ⟨.primitiveRef, [("name", .text kind.name)]⟩
  | .container kind item, number => ∃ inner, Stands bench item inner ∧ bench.items[number]? =
      some ⟨.containerRef, [("container", .text kind.name), ("type", .part inner)]⟩
  | .custom name, number => bench.items[number]? = some ⟨.customRef, [("name", .plain name)]⟩

variable {before after bench : Bench} {number : Nat} {reference : TypeRef}

theorem Stands.of_keeps (keeps : Keeps before after) (stands : Stands before reference number) :
    Stands after reference number := by
  induction reference generalizing number with
  | primitive | custom => exact keeps _ _ stands
  | container kind item ih =>
    obtain ⟨inner, standsInner, found⟩ := stands
    exact ⟨inner, ih standsInner, keeps _ _ found⟩

theorem exists_run_place (item : Item) (bench : Bench) :
    ∃ after, (place item).run bench = .ok (bench.items.size, after) ∧ Keeps bench after ∧
      after.items[bench.items.size]? = some item := by
  refine ⟨{ bench with items := bench.items.push item }, rfl, fun number old found => ?_, by simp⟩
  obtain ⟨inside, rfl⟩ := Array.getElem?_eq_some_iff.mp found
  exact Array.getElem?_push_lt inside

theorem exists_run_placeReference (reference : TypeRef) (bench : Bench) :
    ∃ number after, (placeReference reference).run bench = .ok (number, after) ∧ Keeps bench after ∧
      Stands after reference number := by
  induction reference generalizing bench with
  | primitive | custom => exact ⟨_, exists_run_place _ bench⟩
  | container kind item ih =>
    obtain ⟨inner, middle, madeInner, keepsInner, stands⟩ := ih bench
    obtain ⟨after, made, keeps, found⟩ := exists_run_place
      ⟨.containerRef, [("container", .text kind.name), ("type", .part inner)]⟩ middle
    refine ⟨_, after, ?_, fun _ _ known => keeps _ _ (keepsInner _ _ known), inner,
      stands.of_keeps keeps, found⟩
    rw [placeReference, StateT.run_bind, madeInner]
    exact made

theorem run_itemOf {item : Item} (found : bench.items[number]? = some item) :
    (itemOf (.part number)).run bench = .ok (item, bench) := by
  simp [itemOf, itemAt, found]

/-- How many containers a reference goes through. -/
def containers : TypeRef → Nat
  | .container _ item => containers item + 1
  | .primitive _ | .custom _ => 0

/-- A chain is named like the reference if the type inside of containers goes by a text. -/
theorem run_referenceName (stands : Stands bench reference number)
    (spelled : (∃ name, TypeRef.Spells name reference) ∨ ∃ name, reference = .custom name)
    (spare : Nat) :
    (referenceName (containers reference + spare + 1) (.part number)).run bench =
      .ok (.plain reference.referenceName, bench) := by
  induction reference generalizing number with
  | primitive | custom =>
    rw [referenceName, StateT.run_bind, run_itemOf stands]
    rfl
  | container kind item ih =>
    obtain ⟨inner, standsInner, found⟩ := stands
    obtain ⟨_, _ | ⟨_, _, _, spells⟩⟩ | ⟨_, ⟨⟩⟩ := spelled
    have named := ih standsInner (.inl ⟨_, spells⟩)
    rw [spells.referenceName, ← Nat.add_right_comm] at named
    rw [referenceName, StateT.run_bind, run_itemOf found]
    change ((referenceName (containers item + 1 + spare) (.part inner)).run bench >>= fun named =>
      (do return Slot.text (kind.name ++ "(" ++ (← named.1.asText) ++ ")") : Work Slot).run
        named.2) = _
    rw [named]
    rfl

theorem run_validate (stands : Stands bench reference number) (types : List Doc) (spare : Nat) :
    (validate (containers reference + spare + 1) (.part number) [.list (types.map .plain)]).run
      bench = (reference.validate types).map fun _ => ((), bench) := by
  induction reference generalizing number with
  | primitive =>
    rw [validate, StateT.run_bind, run_itemOf stands]
    rfl
  | container kind item ih =>
    obtain ⟨inner, standsInner, found⟩ := stands
    rw [validate, StateT.run_bind, run_itemOf found]
    exact Nat.add_right_comm .. ▸ ih standsInner
  | custom name =>
    rw [validate, StateT.run_bind, run_itemOf stands]
    change (if name.same (.text TypeRef.apiName) || name.same (.text TypeRef.noneName) then pure ()
      else if (types.map Slot.plain).any fun type => type.same (.plain name) then pure ()
      else do refuse (.unknownType (← name.asText)) : Work Unit).run bench = _
    simp only [TypeRef.validate, TypeRef.validateBy, List.any_map, Function.comp_def, Slot.same]
    split_ifs with reserved known
    · rfl
    · simp only [known]
      rfl
    · simp only [known]
      cases name <;> rfl

/-- A reference made from a value goes by the name and passes the checks of the reference that a
description with this value has, as long as its parts are kept. -/
theorem exists_run_referTo (name : Doc) (shallow : containers (.ofName name) < depthLimit)
    (before : Bench) :
    ∃ number middle, (referTo (.plain name)).run before = .ok (number, middle) ∧
      Keeps before middle ∧
      ∀ after, Keeps middle after →
        (referenceName depthLimit (.part number)).run after =
          .ok (.plain (TypeRef.ofName name).referenceName, after) ∧
        ∀ types, (validate depthLimit (.part number) [.list (types.map .plain)]).run after =
          ((TypeRef.ofName name).validate types).map fun _ => ((), after) := by
  obtain ⟨number, middle, made, keeps, stands⟩ := exists_run_placeReference (.ofName name) before
  have spelled : (∃ spelling, TypeRef.Spells spelling (.ofName name)) ∨
      ∃ other, TypeRef.ofName name = .custom other := by
    cases name with
    | text spelling => exact .inl ⟨_, TypeRef.spells_ofText spelling⟩
    | _ => exact .inr ⟨_, rfl⟩
  obtain ⟨spare, limit⟩ := Nat.exists_eq_add_of_lt shallow
  refine ⟨number, middle, made, keeps, fun after kept => ?_⟩
  rw [limit]
  exact ⟨run_referenceName (stands.of_keeps kept) spelled spare,
    fun types => run_validate (stands.of_keeps kept) types spare⟩

end ApiDescription.Workbench
