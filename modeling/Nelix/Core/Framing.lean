import Mathlib.Data.List.Basic

/-!
# Framing

Codes that tell where they end: what stands behind a code word does not matter for reading it. Words of
one length are such a code, and words that end with a mark which is not in them. Lists of such words
are read word by word.
-/
namespace Core

variable {α γ β : Type*}

/-- Among these, no code word goes on as another one. -/
def Framed (member : α → Prop) (code : α → List β) : Prop :=
  ∀ x y, member x → member y → ∀ r s, code x ++ r = code y ++ s → x = y ∧ r = s

namespace Framed
variable {member : α → Prop} {code : α → List β} {xs ys : List α}

/-- Words with a mark behind them. -/
theorem terminated (stop : β) : Framed (stop ∉ ·) fun word : List β => word ++ [stop] := by
  intro x
  induction x with
  | nil =>
    intro y left right r s same
    cases y with
    | nil => exact ⟨rfl, List.cons_injective same⟩
    | cons b y =>
      obtain ⟨rfl, -⟩ := List.cons.inj same
      exact absurd (List.mem_cons_self ..) right
  | cons a x ih =>
    intro y left right r s same
    cases y with
    | nil =>
      obtain ⟨rfl, -⟩ := List.cons.inj same
      exact absurd (List.mem_cons_self ..) left
    | cons b y =>
      obtain ⟨rfl, behind⟩ := List.cons.inj same
      obtain ⟨rfl, rest⟩ := ih y (fun inside => left (List.mem_cons_of_mem _ inside))
        (fun inside => right (List.mem_cons_of_mem _ inside)) r s behind
      exact ⟨rfl, rest⟩

/-- Words of one length. -/
theorem width (n : ℕ) : Framed (fun word : List β => word.length = n) id := by
  intro x y left right r s same
  exact List.append_inj same (left.trans right.symm)

/-- What tells its values apart may stand in front of a code. -/
theorem comp (framed : Framed member code) {f : γ → α} {among : γ → Prop}
    (within : ∀ x, among x → member (f x)) (apart : ∀ x y, among x → among y → f x = f y → x = y) :
    Framed among (code ∘ f) := by
  intro x y left right r s same
  obtain ⟨here, rest⟩ := framed (f x) (f y) (within x left) (within y right) r s same
  exact ⟨apart x y left right here, rest⟩

/-- One word behind the other. -/
theorem pair {member' : γ → Prop} {code' : γ → List β} (first : Framed member code)
    (second : Framed member' code') :
    Framed (fun x : α × γ => member x.1 ∧ member' x.2) fun x => code x.1 ++ code' x.2 := by
  rintro ⟨x, x'⟩ ⟨y, y'⟩ left right r s same
  simp only [List.append_assoc] at same
  obtain ⟨rfl, rest⟩ := first x y left.1 right.1 _ _ same
  obtain ⟨rfl, behind⟩ := second x' y' left.2 right.2 _ _ rest
  exact ⟨rfl, behind⟩

/-- Word by word. -/
theorem flatMap_inj (framed : Framed member code) (filled : ∀ x, code x ≠ [])
    (left : ∀ x ∈ xs, member x) (right : ∀ y ∈ ys, member y) (same : xs.flatMap code = ys.flatMap code) :
    xs = ys := by
  induction xs generalizing ys with
  | nil =>
    cases ys with
    | nil => rfl
    | cons y ys =>
      rw [List.flatMap_nil, List.flatMap_cons] at same
      exact absurd (List.append_eq_nil_iff.mp same.symm).1 (filled y)
  | cons x xs ih =>
    cases ys with
    | nil =>
      rw [List.flatMap_nil, List.flatMap_cons] at same
      exact absurd (List.append_eq_nil_iff.mp same).1 (filled x)
    | cons y ys =>
      rw [List.flatMap_cons, List.flatMap_cons] at same
      obtain ⟨rfl, rest⟩ := framed x y (left x (by simp)) (right y (by simp)) _ _ same
      rw [ih (fun z inside => left z (by simp [inside])) (fun z inside => right z (by simp [inside])) rest]

end Framed

end Core
