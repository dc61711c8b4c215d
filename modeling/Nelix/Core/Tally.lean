import Mathlib.Data.List.AList
import Mathlib.Algebra.BigOperators.Group.List.Basic
import Mathlib.Algebra.Order.BigOperators.Group.List
import Mathlib.Algebra.Order.Ring.Int

/-!
# Sums over an association list

`tally f m` adds up `f` over the values of `m`. An insert and an erase change it by the value that
was there before, so a counter that is kept beside a table can be compared with the table.
-/
namespace Core

variable {κ υ : Type*}

/-- The sum of `f` over the values of a table. -/
def tally (f : υ → ℤ) (m : AList fun _ : κ => υ) : ℤ := (m.entries.map fun p => f p.2).sum

/-- What a key contributes. -/
def share (f : υ → ℤ) (value : Option υ) : ℤ := value.elim 0 f

@[simp] theorem share_none (f : υ → ℤ) : share f none = 0 := rfl

@[simp] theorem share_some (f : υ → ℤ) (v : υ) : share f (some v) = f v := rfl

theorem tally_nonneg {f : υ → ℤ} (nonneg : ∀ v, 0 ≤ f v) (m : AList fun _ : κ => υ) :
    0 ≤ tally f m := by
  apply List.sum_nonneg
  intro n member
  obtain ⟨p, -, rfl⟩ := List.mem_map.mp member
  exact nonneg p.2

/-- Change every value of a table. -/
def mapValues (g : υ → υ) (m : AList fun _ : κ => υ) : AList fun _ : κ => υ where
  entries := m.entries.map (Sigma.map id fun _ => g)
  nodupKeys := m.nodupKeys.map₂ fun _ => g

theorem tally_mapValues (f : υ → ℤ) (g : υ → υ) (m : AList fun _ : κ => υ) :
    tally f (mapValues g m) = tally (fun v => f (g v)) m := by
  simp only [tally, mapValues, List.map_map]
  rfl

section Updates

variable [DecidableEq κ]

@[simp] theorem lookup_mapValues (g : υ → υ) (m : AList fun _ : κ => υ) (a : κ) :
    (mapValues g m).lookup a = (m.lookup a).map g :=
  List.dlookup_map₂ a

theorem sum_kerase (f : υ → ℤ) (a : κ) (l : List (Sigma fun _ : κ => υ)) :
    ((l.kerase a).map fun p => f p.2).sum =
      (l.map fun p => f p.2).sum - share f (l.dlookup a) := by
  induction l with
  | nil => simp
  | cons p rest ih =>
    by_cases same : a = p.1
    · obtain ⟨k, v⟩ := p
      subst same
      simp [List.kerase_cons_eq]
    · rw [List.kerase_cons_ne same, List.dlookup_cons_ne rest p same]
      simp only [List.map_cons, List.sum_cons, ih]
      omega

theorem tally_erase (f : υ → ℤ) (a : κ) (m : AList fun _ : κ => υ) :
    tally f (m.erase a) = tally f m - share f (m.lookup a) :=
  sum_kerase f a m.entries

theorem tally_insert (f : υ → ℤ) (a : κ) (v : υ) (m : AList fun _ : κ => υ) :
    tally f (m.insert a v) = tally f m - share f (m.lookup a) + f v := by
  have erased := sum_kerase f a m.entries
  simp only [tally, AList.entries_insert, List.map_cons, List.sum_cons, erased]
  simp only [AList.lookup]
  omega

theorem tally_insert_new (f : υ → ℤ) {a : κ} (v : υ) {m : AList fun _ : κ => υ}
    (absent : m.lookup a = none) : tally f (m.insert a v) = tally f m + f v := by
  rw [tally_insert, absent, share_none, sub_zero]

/-- Two sums agree where the summands agree on every entry. -/
theorem tally_congr {f g : υ → ℤ} {m : AList fun _ : κ => υ}
    (same : ∀ k v, m.lookup k = some v → f v = g v) : tally f m = tally g m := by
  refine congrArg List.sum (List.map_congr_left fun p member => same p.1 p.2 ?_)
  exact AList.mem_lookup_iff.mpr member

end Updates

/-- The sum over a list after one of its entries is replaced. -/
theorem sum_set {α : Type*} (f : α → ℕ) {l : List α} {c : ℕ} {a : α} (found : l[c]? = some a)
    (b : α) : ((l.set c b).map f).sum + f a = (l.map f).sum + f b := by
  induction l generalizing c with
  | nil => cases found
  | cons x rest ih =>
    cases c with
    | zero =>
      cases found
      simp only [List.set_cons_zero, List.map_cons, List.sum_cons]
      omega
    | succ c =>
      have later := ih found
      simp only [List.set_cons_succ, List.map_cons, List.sum_cons]
      omega

end Core
