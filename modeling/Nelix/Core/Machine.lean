import Mathlib.Data.List.Induction

/-!
# Machines

A machine reads one input at a time, moves to the next state and writes outputs. `run` folds a
list of inputs; `Along` says that every step of a run meets a condition on its state and input.
An invariant is carried through a run by `invariant_after`, or by `invariant_along` where only
the steps that meet a condition keep it.
-/
namespace Core

/-- A deterministic machine with outputs. -/
structure Machine (σ ι ω : Type*) where
  step : σ → ι → σ × List ω

namespace Machine

variable {σ ι ω : Type*} (m : Machine σ ι ω)

/-- The state a run ends in, and everything it wrote. -/
def run (s : σ) : List ι → σ × List ω
  | [] => (s, [])
  | i :: rest =>
    let r := m.step s i
    ((run r.1 rest).1, r.2 ++ (run r.1 rest).2)

def after (s : σ) (is : List ι) : σ := (m.run s is).1

def outputs (s : σ) (is : List ι) : List ω := (m.run s is).2

@[simp] theorem after_nil (s : σ) : m.after s [] = s := rfl

@[simp] theorem after_cons (s : σ) (i : ι) (rest : List ι) :
    m.after s (i :: rest) = m.after (m.step s i).1 rest := rfl

@[simp] theorem outputs_nil (s : σ) : m.outputs s [] = [] := rfl

@[simp] theorem outputs_cons (s : σ) (i : ι) (rest : List ι) :
    m.outputs s (i :: rest) = (m.step s i).2 ++ m.outputs (m.step s i).1 rest := rfl

theorem after_append (s : σ) (is js : List ι) :
    m.after s (is ++ js) = m.after (m.after s is) js := by
  induction is generalizing s with
  | nil => rfl
  | cons i rest ih => simpa only [List.cons_append, after_cons] using ih (m.step s i).1

theorem outputs_append (s : σ) (is js : List ι) :
    m.outputs s (is ++ js) = m.outputs s is ++ m.outputs (m.after s is) js := by
  induction is generalizing s with
  | nil => rfl
  | cons i rest ih =>
    simp only [List.cons_append, outputs_cons, after_cons, ih, List.append_assoc]

/-! ### Invariants -/

/-- Every step of the run meets `guard`. -/
def Along (guard : σ → ι → Prop) (s : σ) : List ι → Prop
  | [] => True
  | i :: rest => guard s i ∧ Along guard (m.step s i).1 rest

@[simp] theorem along_nil (guard : σ → ι → Prop) (s : σ) : m.Along guard s [] := trivial

@[simp] theorem along_cons (guard : σ → ι → Prop) (s : σ) (i : ι) (rest : List ι) :
    m.Along guard s (i :: rest) ↔ guard s i ∧ m.Along guard (m.step s i).1 rest := Iff.rfl

instance (guard : σ → ι → Prop) [∀ s i, Decidable (guard s i)] :
    ∀ (s : σ) (is : List ι), Decidable (m.Along guard s is)
  | _, [] => isTrue trivial
  | s, i :: rest =>
    have := instDecidableAlong guard (m.step s i).1 rest
    inferInstanceAs (Decidable (guard s i ∧ m.Along guard (m.step s i).1 rest))

theorem along_append (guard : σ → ι → Prop) (s : σ) (is js : List ι) :
    m.Along guard s (is ++ js) ↔ m.Along guard s is ∧ m.Along guard (m.after s is) js := by
  induction is generalizing s with
  | nil => simp
  | cons i rest ih => simp only [List.cons_append, along_cons, after_cons, ih, and_assoc]

theorem along_of_forall {p : ι → Prop} {s : σ} {is : List ι} (all : ∀ i ∈ is, p i) :
    m.Along (fun _ i => p i) s is := by
  induction is generalizing s with
  | nil => trivial
  | cons i rest ih =>
    exact ⟨all i (by simp), ih fun j later => all j (List.mem_cons_of_mem _ later)⟩

/-- What the guarded steps keep, a guarded run keeps. -/
theorem invariant_along (inv : σ → Prop) {guard : σ → ι → Prop}
    (keeps : ∀ s i, inv s → guard s i → inv (m.step s i).1)
    {s : σ} (start : inv s) {is : List ι} (guarded : m.Along guard s is) :
    inv (m.after s is) := by
  induction is generalizing s with
  | nil => exact start
  | cons i rest ih => exact ih (keeps s i start guarded.1) guarded.2

/-- What every step keeps, every run keeps. -/
theorem invariant_after (inv : σ → Prop) (keeps : ∀ s i, inv s → inv (m.step s i).1)
    {s : σ} (start : inv s) (is : List ι) : inv (m.after s is) := by
  induction is generalizing s with
  | nil => exact start
  | cons i rest ih => exact ih (keeps s i start)

/-- What the guarded steps keep of the inputs so far, the state and the outputs so far, holds of a
guarded run. -/
theorem record_along (inv : List ι → σ → List ω → Prop) {guard : σ → ι → Prop}
    (keeps : ∀ is s os i, inv is s os → guard s i →
      inv (is ++ [i]) (m.step s i).1 (os ++ (m.step s i).2))
    {s : σ} (start : inv [] s []) {is : List ι} (guarded : m.Along guard s is) :
    inv is (m.after s is) (m.outputs s is) := by
  induction is using List.reverseRecOn with
  | nil => exact start
  | append_singleton is i ih =>
    obtain ⟨before, last, -⟩ := (m.along_append guard s is [i]).mp guarded
    rw [after_append, outputs_append, after_cons, outputs_cons, after_nil, outputs_nil,
      List.append_nil]
    exact keeps is _ _ i (ih before) last

/-- Where each guarded step leads on to a related state, a guarded run does. -/
theorem related_along (rel : σ → σ → Prop) {guard : σ → ι → Prop} (refl : ∀ s, rel s s)
    (trans : ∀ {a b c}, rel a b → rel b c → rel a c)
    (leads : ∀ s i, guard s i → rel s (m.step s i).1)
    {s : σ} {is : List ι} (guarded : m.Along guard s is) : rel s (m.after s is) := by
  induction is generalizing s with
  | nil => exact refl s
  | cons i rest ih => exact trans (leads s i guarded.1) (ih guarded.2)

/-- Every output of a guarded run is the output of a guarded step from a state that keeps the
invariant. -/
theorem outputs_along (inv : σ → Prop) (good : ω → Prop) {guard : σ → ι → Prop}
    (keeps : ∀ s i, inv s → guard s i → inv (m.step s i).1)
    (writes : ∀ s i, inv s → guard s i → ∀ o ∈ (m.step s i).2, good o)
    {s : σ} (start : inv s) {is : List ι} (guarded : m.Along guard s is) :
    ∀ o ∈ m.outputs s is, good o := by
  induction is generalizing s with
  | nil => simp
  | cons i rest ih =>
    intro o member
    rcases List.mem_append.mp member with here | later
    · exact writes s i start guarded.1 o here
    · exact ih (keeps s i start guarded.1) guarded.2 o later

/-- Where a step writes well exactly when it meets the guard, a run does. -/
theorem outputs_iff_along (inv : σ → Prop) (good : ω → Prop) {guard : σ → ι → Prop}
    (keeps : ∀ s i, inv s → guard s i → inv (m.step s i).1)
    (exact : ∀ s i, inv s → ((∀ o ∈ (m.step s i).2, good o) ↔ guard s i))
    {s : σ} (start : inv s) (is : List ι) :
    (∀ o ∈ m.outputs s is, good o) ↔ m.Along guard s is := by
  induction is generalizing s with
  | nil => simp
  | cons i rest ih =>
    rw [outputs_cons, along_cons, ← exact s i start]
    constructor
    · intro all
      have here : ∀ o ∈ (m.step s i).2, good o := fun o member => all o (by simp [member])
      have next := keeps s i start ((exact s i start).mp here)
      exact ⟨here, (ih next).mp fun o member => all o (by simp [member])⟩
    · rintro ⟨here, later⟩ o member
      have next := keeps s i start ((exact s i start).mp here)
      rcases List.mem_append.mp member with first | second
      · exact here o first
      · exact (ih next).mpr later o second

end Machine

end Core
