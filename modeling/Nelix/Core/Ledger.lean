import Mathlib.Algebra.Ring.Int.Defs
import Mathlib.Data.List.Basic

/-!
# A ledger over outputs

Every output of a system changes a balance by its weight. `LevelAt` says along the list that the
balance, carried over from before, is level at each marked output; `levelAt_iff` says it in terms
of positions.
-/
namespace Core

/-- What an output is worth, and where the books have to be level. -/
structure Ledger (ω : Type*) where
  weight : ω → ℤ
  mark : ω → Bool

namespace Ledger

variable {ω : Type*} (l : Ledger ω)

def balance (os : List ω) : ℤ := (os.map l.weight).sum

@[simp] theorem balance_nil : l.balance [] = 0 := rfl

@[simp] theorem balance_cons (o : ω) (rest : List ω) :
    l.balance (o :: rest) = l.weight o + l.balance rest := by simp [balance]

/-- From a balance of `due`, the books are level at each mark. -/
def LevelAt (due : ℤ) : List ω → Prop
  | [] => True
  | o :: rest => (l.mark o = true → due = 0) ∧ LevelAt (due + l.weight o) rest

@[simp] theorem levelAt_nil (due : ℤ) : l.LevelAt due [] := trivial

@[simp] theorem levelAt_cons (due : ℤ) (o : ω) (rest : List ω) :
    l.LevelAt due (o :: rest) ↔
      (l.mark o = true → due = 0) ∧ l.LevelAt (due + l.weight o) rest := Iff.rfl

theorem levelAt_append (due : ℤ) (os ps : List ω) :
    l.LevelAt due (os ++ ps) ↔ l.LevelAt due os ∧ l.LevelAt (due + l.balance os) ps := by
  induction os generalizing due with
  | nil => simp
  | cons o rest ih =>
    simp only [List.cons_append, levelAt_cons, ih, balance_cons, and_assoc, add_assoc]

theorem levelAt_iff (due : ℤ) (os : List ω) :
    l.LevelAt due os ↔
      ∀ pre m post, os = pre ++ m :: post → l.mark m = true → due + l.balance pre = 0 := by
  constructor
  · rintro level pre m post rfl marked
    rw [levelAt_append] at level
    exact level.2.1 marked
  · intro level
    induction os generalizing due with
    | nil => trivial
    | cons o rest ih =>
      refine ⟨fun marked => by simpa using level [] o rest rfl marked, ih _ ?_⟩
      intro pre m post split marked
      have whole := level (o :: pre) m post (by rw [split, List.cons_append]) marked
      rwa [balance_cons, ← add_assoc] at whole

end Ledger

end Core
