import Mathlib.Data.List.Sort
import Mathlib.Order.Basic

/-!
# Ranks

The rank of an element is the number of elements with a greater key. In a list whose keys are
distinct, the elements of rank below `k` are the `k` first ones of the list sorted by key.
-/
namespace Core

variable {α β : Type*} [LinearOrder β] (key : α → β)

/-- How many elements have a greater key. -/
def rank (l : List α) (x : α) : ℕ := (l.filter fun y => key x < key y).length

/-- Sorted by key, the greatest first. -/
def descending (l : List α) : List α := l.insertionSort fun a b => key b ≤ key a

theorem descending_perm (l : List α) : (descending key l).Perm l :=
  List.perm_insertionSort _ l

instance instTotalKeyLe : Std.Total fun a b : α => key b ≤ key a := ⟨fun a b => le_total (key b) (key a)⟩

instance instIsTransKeyLe : IsTrans α fun a b : α => key b ≤ key a := ⟨fun _ _ _ ab bc => bc.trans ab⟩

theorem rank_perm {l l' : List α} (same : l.Perm l') (x : α) : rank key l x = rank key l' x :=
  (same.filter _).length_eq

/-- Where the keys are distinct the order is strict. -/
theorem descending_pairwise {l : List α} (distinct : (l.map key).Nodup) :
    (descending key l).Pairwise fun a b => key b < key a := by
  have ordered : (descending key l).Pairwise fun a b => key b ≤ key a :=
    List.pairwise_insertionSort _ l
  have apart : (descending key l).Pairwise fun a b => key a ≠ key b :=
    List.pairwise_map.mp (((descending_perm key l).map key).nodup_iff.mpr distinct)
  exact (ordered.and apart).imp fun both => lt_of_le_of_ne both.1 both.2.symm

/-- In a strictly descending list the elements of rank below `k` are the first `k`. -/
theorem mem_take_iff_rank {l : List α} (sorted : l.Pairwise fun a b => key b < key a) {x : α}
    (member : x ∈ l) (k : ℕ) : x ∈ l.take k ↔ rank key l x < k := by
  induction l generalizing k with
  | nil => cases member
  | cons a rest ih =>
    obtain ⟨first, tail⟩ := List.pairwise_cons.mp sorted
    rcases List.mem_cons.mp member with rfl | later
    · -- the first element has rank 0
      have none : rank key (x :: rest) x = 0 := by
        refine List.length_eq_zero_iff.mpr (List.filter_eq_nil_iff.mpr fun y among => ?_)
        rcases List.mem_cons.mp among with rfl | behind
        · simp
        · simpa using (first y behind).le
      rw [none]
      cases k <;> simp
    · have counted : rank key (a :: rest) x = rank key rest x + 1 := by
        simp [rank, first x later]
      cases k with
      | zero => simp
      | succ k =>
        have other : x ≠ a := fun same => lt_irrefl _ (same ▸ first x later)
        rw [counted, List.take_succ_cons, List.mem_cons, ih tail later k]
        simp only [other, false_or]
        omega

/-- The elements of rank below `k`, up to their order. -/
theorem filter_rank_perm {l : List α} (distinct : (l.map key).Nodup) (k : ℕ) :
    (l.filter fun x => rank key l x < k).Perm ((descending key l).take k) := by
  have nodup : l.Nodup := distinct.of_map
  have same := descending_perm key l
  have sorted := descending_pairwise key distinct
  refine (List.perm_ext_iff_of_nodup (nodup.filter _) ?_).mpr fun x => ?_
  · exact (List.take_sublist _ _).nodup (same.nodup_iff.mpr nodup)
  · rw [List.mem_filter, decide_eq_true_eq, ← rank_perm key same]
    constructor
    · rintro ⟨member, low⟩
      exact (mem_take_iff_rank key sorted (same.mem_iff.mpr member) k).mpr low
    · intro taken
      have member := List.mem_of_mem_take taken
      exact ⟨same.mem_iff.mp member, (mem_take_iff_rank key sorted member k).mp taken⟩

end Core
