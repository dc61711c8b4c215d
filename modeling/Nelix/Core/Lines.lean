import Mathlib.Algebra.BigOperators.Group.List.Basic
import Mathlib.Algebra.GroupWithZero.Nat
import Mathlib.Data.List.Infix

/-!
# Joined lines

Lines under a separator that occurs in none of them, as a text is split: where each line starts in
the whole, and that the separators tell.

## Main results

`starts_iff`: a line starts exactly at the beginning and behind each separator.
-/
namespace Core.Lines

variable {α : Type*} {nl : α} {lines more : List (List α)} {line : List α} {i r : ℕ}

/-- Where a line starts. -/
def start (lines : List (List α)) (i : ℕ) : ℕ :=
  ((lines.take i).map fun line => line.length + 1).sum

theorem start_zero (lines : List (List α)) : start lines 0 = 0 := rfl

theorem start_cons (line : List α) (lines : List (List α)) (i : ℕ) :
    start (line :: lines) (i + 1) = line.length + 1 + start lines i := by
  simp [start]

theorem start_append (inside : i ≤ lines.length) : start (lines ++ more) i = start lines i := by
  rw [start, List.take_append_of_le_length inside, start]

theorem intercalate_cons (filled : lines ≠ []) :
    List.intercalate [nl] (line :: lines) = line ++ nl :: List.intercalate [nl] lines := by
  obtain ⟨next, rest, rfl⟩ := List.exists_cons_of_ne_nil filled
  rw [List.intercalate_cons_cons, List.append_assoc]
  rfl

theorem intercalate_append (filled : lines ≠ []) (filled' : more ≠ []) :
    List.intercalate [nl] (lines ++ more) =
      List.intercalate [nl] lines ++ nl :: List.intercalate [nl] more := by
  induction lines with
  | nil => exact absurd rfl filled
  | cons line rest ih =>
    cases rest with
    | nil => rw [List.singleton_append, intercalate_cons filled', List.intercalate_singleton]
    | cons next rest =>
      rw [List.cons_append, intercalate_cons (show next :: rest ++ more ≠ [] by simp), ih (by simp),
        intercalate_cons (show next :: rest ≠ [] by simp), List.append_assoc, List.cons_append]

/-- The first separator tells the line before it from what follows. -/
theorem first_unique {line' rest rest' : List α} (bare : nl ∉ line) (bare' : nl ∉ line')
    (same : line ++ nl :: rest = line' ++ nl :: rest') : line = line' ∧ rest = rest' := by
  rcases List.append_eq_append_iff.mp same with ⟨more, rfl, tail⟩ | ⟨more, rfl, tail⟩
  all_goals
    cases more with
    | nil =>
      rw [List.nil_append, List.cons.injEq] at tail
      exact ⟨by simp, by rw [tail.2]⟩
    | cons c more =>
      obtain ⟨rfl, -⟩ := List.cons.inj tail
      simp at bare bare'

/-- More lines go on from what is there. -/
theorem intercalate_prefix (lines more : List (List α)) :
    List.intercalate [nl] lines <+: List.intercalate [nl] (lines ++ more) := by
  by_cases filled : lines = []
  · rw [filled, List.intercalate_nil]
    exact List.nil_prefix
  · by_cases filled' : more = []
    · rw [filled', List.append_nil]
    · rw [intercalate_append filled filled']
      exact List.prefix_append ..

/-- A separator behind each line. -/
theorem intercalate_closed (lines : List (List α)) :
    List.intercalate [nl] (lines ++ [[]]) = lines.flatMap fun line => line ++ [nl] := by
  induction lines with
  | nil => rfl
  | cons line rest ih =>
    rw [List.cons_append, intercalate_cons (by simp), ih, List.flatMap_cons, List.append_assoc]
    rfl

theorem length_intercalate (filled : lines ≠ []) :
    (List.intercalate [nl] lines).length + 1 = start lines lines.length := by
  induction lines with
  | nil => exact absurd rfl filled
  | cons line rest ih =>
    rw [List.length_cons, start_cons]
    cases rest with
    | nil => rw [List.intercalate_singleton, List.length_nil, start_zero]
    | cons next rest =>
      rw [← ih (by simp), intercalate_cons (by simp), List.length_append, List.length_cons]
      omega

/-- From its start on the whole goes on with the line and what follows it. -/
theorem drop_start (inside : i < lines.length) :
    (List.intercalate [nl] lines).drop (start lines i) = List.intercalate [nl] (lines.drop i) := by
  induction lines generalizing i with
  | nil => cases inside
  | cons line rest ih =>
    cases i with
    | zero => rfl
    | succ i =>
      have inside' : i < rest.length := Nat.lt_of_succ_lt_succ inside
      have filled : rest ≠ [] := List.ne_nil_of_length_pos (by omega)
      rw [start_cons, intercalate_cons filled, List.drop_succ_cons, ← ih inside',
        List.drop_append, List.drop_eq_nil_of_le (by omega), List.nil_append,
        show line.length + 1 + start rest i - line.length = start rest i + 1 by omega,
        List.drop_succ_cons]

/-- What is split at a separator has none left. -/
theorem bare_splitOn [BEq α] [LawfulBEq α] (text : List α) :
    ∀ line ∈ text.splitOn nl, nl ∉ line := by
  unfold List.splitOn
  induction text with
  | nil => simp
  | cons c rest ih =>
    rw [List.splitOnP_cons_eq_if_modifyHead]
    split
    · simpa using ih
    · rename_i other
      have apart : nl ≠ c := fun same => other (by simp [same])
      obtain ⟨first, more, cut⟩ := List.exists_cons_of_ne_nil (List.splitOnP_ne_nil (· == nl) rest)
      rw [cut] at ih ⊢
      simp only [List.modifyHead_cons, List.forall_mem_cons] at ih ⊢
      refine ⟨fun member => ?_, ih.2⟩
      rcases List.mem_cons.mp member with here | later
      · exact apart here
      · exact ih.1 later

/-- A line starts exactly at the beginning and behind each separator. -/
theorem starts_iff (bare : ∀ line ∈ lines, nl ∉ line) (filled : lines ≠ []) :
    (∃ i < lines.length, start lines i = r) ↔
      r = 0 ∨ 0 < r ∧ (List.intercalate [nl] lines)[r - 1]? = some nl := by
  induction lines generalizing r with
  | nil => exact absurd rfl filled
  | cons line rest ih =>
    have unseparated : nl ∉ line := bare line (by simp)
    by_cases alone : rest = []
    · subst alone
      rw [List.intercalate_singleton]
      constructor
      · rintro ⟨i, inside, rfl⟩
        obtain rfl : i = 0 := by simpa using inside
        exact .inl rfl
      · rintro (rfl | ⟨-, here⟩)
        · exact ⟨0, by simp, rfl⟩
        · exact absurd (List.mem_of_getElem? here) unseparated
    · have later (r : ℕ) := ih (r := r) (fun line member => bare line (by simp [member])) alone
      rw [intercalate_cons alone]
      constructor
      · rintro ⟨i, inside, rfl⟩
        cases i with
        | zero => exact .inl rfl
        | succ i =>
          have inside' : i < rest.length := Nat.lt_of_succ_lt_succ inside
          refine .inr ⟨by rw [start_cons]; omega, ?_⟩
          rw [start_cons]
          rcases (later (start rest i)).mp ⟨i, inside', rfl⟩ with first | ⟨behind, here⟩
          · rw [first, show line.length + 1 + 0 - 1 = line.length by omega,
              List.getElem?_append_right le_rfl, Nat.sub_self]
            rfl
          · rw [List.getElem?_append_right (by omega),
              show line.length + 1 + start rest i - 1 - line.length = start rest i - 1 + 1 by omega,
              List.getElem?_cons_succ, here]
      · rintro (rfl | ⟨behind, here⟩)
        · exact ⟨0, by simp, rfl⟩
        · by_cases within : r - 1 < line.length
          · rw [List.getElem?_append_left within] at here
            exact absurd (List.mem_of_getElem? here) unseparated
          · rw [List.getElem?_append_right (by omega)] at here
            have there : r - (line.length + 1) = 0 ∨ 0 < r - (line.length + 1) ∧
                (List.intercalate [nl] rest)[r - (line.length + 1) - 1]? = some nl := by
              by_cases first : r = line.length + 1
              · exact .inl (by omega)
              · refine .inr ⟨by omega, ?_⟩
                rwa [show r - 1 - line.length = r - (line.length + 1) - 1 + 1 by omega,
                  List.getElem?_cons_succ] at here
            obtain ⟨i, inside, starts⟩ := (later _).mpr there
            exact ⟨i + 1, Nat.succ_lt_succ inside, by rw [start_cons, starts]; omega⟩

end Core.Lines
