import Mathlib.Data.List.Forall2

/-!
# Reading a list through

A pass over a list that stops at the first element it cannot read. When it goes through, what it
read stands beside the list, element by element.
-/
namespace Core

variable {α β : Type} {f : α → Option β} {items : List α} {read : List β}

theorem mapM_eq_some : items.mapM f = some read ↔ List.Forall₂ (fun a b => f a = some b) items read := by
  induction items generalizing read with
  | nil => simp [eq_comm]
  | cons a rest ih =>
    simp only [List.mapM_cons, Option.bind_eq_bind, Option.bind_eq_some_iff, Option.pure_def,
      Option.some.injEq, List.forall₂_cons_left_iff]
    constructor
    · rintro ⟨b, here, later, done, rfl⟩
      exact ⟨b, later, here, ih.mp done, rfl⟩
    · rintro ⟨b, later, here, done, rfl⟩
      exact ⟨b, here, later, ih.mpr done, rfl⟩

/-- Whatever stands on one side has something beside it. -/
theorem beside {R : α → β → Prop} (each : List.Forall₂ R items read) :
    (∀ a ∈ items, ∃ b ∈ read, R a b) ∧ ∀ b ∈ read, ∃ a ∈ items, R a b := by
  induction each with
  | nil => exact ⟨nofun, nofun⟩
  | cons here _ ih =>
    constructor
    · intro a among
      rcases List.mem_cons.mp among with rfl | later
      · exact ⟨_, by simp, here⟩
      · obtain ⟨b, member, holds⟩ := ih.1 a later
        exact ⟨b, List.mem_cons_of_mem _ member, holds⟩
    · intro b among
      rcases List.mem_cons.mp among with rfl | later
      · exact ⟨_, by simp, here⟩
      · obtain ⟨a, member, holds⟩ := ih.2 b later
        exact ⟨a, List.mem_cons_of_mem _ member, holds⟩

theorem mem_of_mapM (done : items.mapM f = some read) {b : β} (member : b ∈ read) :
    ∃ a ∈ items, f a = some b := (beside (mapM_eq_some.mp done)).2 b member

/-- Everything that was to be read was read. -/
theorem shown_of_mapM (done : items.mapM f = some read) {a : α} (member : a ∈ items) :
    ∃ b ∈ read, f a = some b := (beside (mapM_eq_some.mp done)).1 a member

theorem mapM_isSome (all : ∀ a ∈ items, (f a).isSome) : ∃ read, items.mapM f = some read := by
  induction items with
  | nil => exact ⟨[], rfl⟩
  | cons a rest ih =>
    obtain ⟨b, here⟩ := Option.isSome_iff_exists.mp (all a (by simp))
    obtain ⟨later, done⟩ := ih fun other member => all other (List.mem_cons_of_mem a member)
    exact ⟨b :: later, by simp [List.mapM_cons, here, done]⟩

theorem filterMap_of_mapM (done : items.mapM f = some read) : items.filterMap f = read := by
  have each := mapM_eq_some.mp done
  clear done
  induction each with
  | nil => rfl
  | cons here _ ih => rw [List.filterMap_cons, here, ih]

end Core
