import ApiDescription.Fault
import Mathlib.Data.List.Forall2

/-!
# Computations that may fail

A computation built from steps succeeds exactly when its steps do.  The reader and the checks of a
description are built from three such compositions: one step after another, a check of every item of
a list, and a reading of every item of a list.
-/

namespace ApiDescription.Outcome

open List

variable {α β : Type}

@[simp] theorem pure_eq_ok (value : α) : (pure value : Except Fault α) = .ok value := rfl

@[simp] theorem ok_bind (value : α) (next : α → Except Fault β) :
    ((.ok value : Except Fault α) >>= next) = next value := rfl

@[simp] theorem error_bind (fault : Fault) (next : α → Except Fault β) :
    ((.error fault : Except Fault α) >>= next) = .error fault := rfl

@[simp] theorem map_ok (value : α) (image : α → β) :
    image <$> (.ok value : Except Fault α) = .ok (image value) := rfl

@[simp] theorem refuse_ne_ok (why : Refusal) (value : α) :
    (refuse why : Except Fault α) ≠ .ok value := by
  simp [refuse]

variable {first : Except Fault α} {next read step : α → Except Fault β} {result : β}
  {check : α → Except Fault Unit} {image : α → β} {items : List α} {results : List β} {item : α}
  {γ : Type} {fault : Fault}

theorem bind_eq_ok :
    (first >>= next) = .ok result ↔ ∃ value, first = .ok value ∧ next value = .ok result := by
  cases first with
  | error fault => simp
  | ok value => simp

theorem bind_ne_ok (never : ∀ value, next value ≠ .ok result) : (first >>= next) ≠ .ok result := by
  cases first with
  | error fault => simp
  | ok value => exact never value

theorem check_bind_eq_ok {check : Except Fault Unit} {next : Unit → Except Fault α} {result : α} :
    (check >>= next) = .ok result ↔ check = .ok () ∧ next () = .ok result := by
  cases check with
  | error fault => simp
  | ok _ => simp

theorem map_eq_ok :
    image <$> first = .ok result ↔ ∃ value, first = .ok value ∧ image value = result := by
  cases first with
  | error fault =>
    constructor
    · intro impossible
      cases impossible
    · rintro ⟨value, impossible, -⟩
      cases impossible
  | ok value => simp

theorem forM_eq_ok : forM items check = .ok () ↔ ∀ item ∈ items, check item = .ok () := by
  induction items with
  | nil => simp
  | cons item rest ih =>
    rw [forM_cons, forall_mem_cons, ← ih]
    exact check_bind_eq_ok

theorem mapM_eq_ok :
    items.mapM read = .ok results ↔
      Forall₂ (fun item result => read item = .ok result) items results := by
  induction items generalizing results with
  | nil => simp [eq_comm]
  | cons item rest ih =>
    rw [mapM_cons, bind_eq_ok, forall₂_cons_left_iff]
    constructor
    · rintro ⟨first, readFirst, readRest⟩
      obtain ⟨others, readOthers, equal⟩ := bind_eq_ok.mp readRest
      cases equal
      exact ⟨first, others, readFirst, ih.mp readOthers, rfl⟩
    · rintro ⟨first, others, readFirst, readOthers, rfl⟩
      refine ⟨first, readFirst, ?_⟩
      rw [ih.mpr readOthers]
      rfl

theorem mapM_congr {first second : α → Except Fault β}
    (same : ∀ item ∈ items, first item = second item) :
    items.mapM first = items.mapM second := by
  induction items with
  | nil => rfl
  | cons item rest ih =>
    rw [forall_mem_cons] at same
    rw [mapM_cons, mapM_cons, same.1, ih same.2]

theorem exists_result_of_mem {relation : α → β → Prop} (related : Forall₂ relation items results)
    (member : item ∈ items) :
    ∃ result ∈ results, relation item result := by
  induction related with
  | nil => cases member
  | @cons first result rest others holds _ ih =>
    cases member with
    | head => exact ⟨result, by simp, holds⟩
    | tail _ inRest =>
      obtain ⟨other, inOthers, holds⟩ := ih inRest
      exact ⟨other, by simp [inOthers], holds⟩

theorem exists_of_mem_mapM (success : items.mapM read = .ok results) (member : result ∈ results) :
    ∃ item ∈ items, read item = .ok result :=
  exists_result_of_mem (mapM_eq_ok.mp success).flip member

theorem exists_mem_of_mapM (success : items.mapM read = .ok results) (member : item ∈ items) :
    ∃ result ∈ results, read item = .ok result :=
  exists_result_of_mem (mapM_eq_ok.mp success) member

theorem exists_mapM {before : γ → α → Prop} {after : γ → β → Prop} {items : List γ}
    {sources : List α}
    (related : Forall₂ before items sources)
    (each : ∀ item ∈ items, ∀ source, before item source → ∃
      result, step source = .ok result ∧ after item result) :
    ∃ results, sources.mapM step = .ok results ∧ Forall₂ after items results := by
  induction related with
  | nil => exact ⟨[], rfl, .nil⟩
  | @cons item source items sources first _ ih =>
    obtain ⟨result, stepped, holds⟩ := each item mem_cons_self source first
    obtain ⟨results, steppedAll, holdAll⟩ :=
      ih fun item member => each item (mem_cons_of_mem _ member)
    exact ⟨result :: results, by simp [mapM_cons, stepped, steppedAll], .cons holds holdAll⟩

theorem exists_mapM_of_forall (each : ∀ item ∈ items, ∃ result, step item = .ok result) :
    ∃ results, items.mapM step = .ok results := by
  have same : Forall₂ Eq items items := forall₂_same.mpr fun _ _ => rfl
  obtain ⟨results, found, -⟩ := exists_mapM same fun item member source isSource => by
    subst isSource
    obtain ⟨result, found⟩ := each item member
    exact ⟨result, found, trivial⟩
  exact ⟨results, found⟩

theorem mapM_map_of_forall {write : α → γ} {read : γ → Except Fault β}
    (each : ∀ item ∈ items, read (write item) = .ok (image item)) :
    (items.map write).mapM read = .ok (items.map image) := by
  rw [mapM_eq_ok, forall₂_map_left_iff, forall₂_map_right_iff, forall₂_same]
  exact each

/-! ## Computations with a single fault -/

/-- A computation that fails with no other fault than the given one. -/
def Only (fault : Fault) (outcome : Except Fault α) : Prop :=
  ∀ other, outcome = .error other → other = fault

theorem only_ok (fault : Fault) (value : α) : Only fault (.ok value) := by
  intro other impossible
  cases impossible

theorem only_error (fault : Fault) : Only fault (.error fault : Except Fault α) := by
  intro other equal
  cases equal
  rfl

theorem Only.bind (onlyFirst : Only fault first)
    (onlyNext : ∀ value, first = .ok value → Only fault (next value)) :
    Only fault (first >>= next) := by
  cases first with
  | error other => exact fun fault' equal => onlyFirst fault' (by cases equal; rfl)
  | ok value => exact onlyNext value rfl

theorem only_forM (each : ∀ item ∈ items, Only fault (check item)) :
    Only fault (forM items check) := by
  induction items with
  | nil => exact only_ok fault ()
  | cons item rest ih =>
    rw [forM_cons]
    exact (each item mem_cons_self).bind fun _ _ =>
      ih fun other member => each other (mem_cons_of_mem _ member)

theorem Only.eq_error {outcome : Except Fault α} (only : Only fault outcome)
    (fails : ∀ value, outcome ≠ .ok value) : outcome = .error fault := by
  cases outcome with
  | error other => rw [only other rfl]
  | ok value => exact absurd rfl (fails value)

end ApiDescription.Outcome
