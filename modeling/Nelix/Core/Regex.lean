import Mathlib.Data.List.Basic

/-!
# Regular expressions

The patterns of `re` that guard ids: runs of a class, one behind the other, with anchors. `match` asks
for some end from the start of the text on, `fullmatch` for one with nothing behind it.

## Main results

`fullmatches_iff`: a pattern without anchors matches fully what it spells.

`matches_anchored`: between `^` and `$` it matches what it spells, and that with a newline behind it.
-/
namespace Core

inductive Regex (α : Type*)
  /-- `^` -/
  | bol
  /-- `$` -/
  | eol
  /-- `[…]{least,most}` -/
  | run (here : α → Bool) (least most : ℕ)
  | seq (first second : Regex α)

namespace Regex

section Matching
variable {α : Type*} [DecidableEq α]

/-- Where a match may end, in the order of the backtracking: how much was passed, and what is behind. -/
def ends (nl : α) : Regex α → ℕ × List α → List (ℕ × List α)
  | bol, (i, text) => if i = 0 then [(i, text)] else []
  | eol, (i, text) => if text = [] ∨ text = [nl] then [(i, text)] else []
  | run here least most, (i, text) =>
    -- A greedy run gives back one character after the other.
    let longest := min most (text.takeWhile here).length
    (List.range' least (longest + 1 - least)).reverse.map fun k => (i + k, text.drop k)
  | seq first second, place => (first.ends nl place).flatMap (second.ends nl)

/-- `rx.match(text) is not None` -/
def doesMatch (nl : α) (r : Regex α) (text : List α) : Bool := !(r.ends nl (0, text)).isEmpty

/-- `rx.fullmatch(text) is not None` -/
def doesFullmatch (nl : α) (r : Regex α) (text : List α) : Bool :=
  (r.ends nl (0, text)).any (·.2.isEmpty)

end Matching

variable {α : Type*} {r first second : Regex α} {here : α → Bool} {least most i j : ℕ} {nl : α}
  {text rest word : List α}

/-- No anchors in it. -/
def Plain : Regex α → Prop
  | bol | eol => False
  | run .. => True
  | seq first second => first.Plain ∧ second.Plain

/-- The word is one of the pattern's. -/
def Spells : Regex α → List α → Prop
  | bol, word | eol, word => word = []
  | run here least most, word => least ≤ word.length ∧ word.length ≤ most ∧ ∀ c ∈ word, here c = true
  | seq first second, word => ∃ u, first.Spells u ∧ ∃ v, second.Spells v ∧ word = u ++ v

/-- The pattern between `^` and `$`. -/
def anchored (r : Regex α) : Regex α := seq bol (seq r eol)

/-- One after the other. -/
def all : Regex α → List (Regex α) → Regex α
  | r, [] => r
  | r, s :: more => seq r (all s more)

/-- A run that fits in front of the text is a part of its longest one. -/
theorem spells_run_iff (bound : i ≤ text.length) :
    (run here least most).Spells (text.take i) ↔
      least ≤ i ∧ i ≤ min most (text.takeWhile here).length := by
  have length : (text.take i).length = i := List.length_take_of_le bound
  have solid : (∀ c ∈ text.take i, here c = true) ↔ i ≤ (text.takeWhile here).length := by
    induction text generalizing i with
    | nil =>
      obtain rfl := Nat.le_zero.mp bound
      simp
    | cons c text ih =>
      cases i with
      | zero => simp
      | succ i =>
        have shorter : i ≤ text.length := Nat.le_of_succ_le_succ bound
        rw [List.take_succ_cons, List.forall_mem_cons, List.takeWhile_cons,
          ih shorter (List.length_take_of_le shorter)]
        by_cases ok : here c = true
        · simp [ok]
        · simp [ok]
  rw [Spells, length, solid, Nat.le_min]

variable [DecidableEq α]

theorem mem_ends_run :
    (j, rest) ∈ (run here least most).ends nl (i, text) ↔
      ∃ word, (run here least most).Spells word ∧ text = word ++ rest ∧ j = i + word.length := by
  simp only [ends, List.mem_map, List.mem_reverse, List.mem_range'_1, Prod.mk.injEq]
  constructor
  · rintro ⟨k, ⟨low, high⟩, rfl, rfl⟩
    have longest : (text.takeWhile here).length ≤ text.length := (List.takeWhile_sublist _).length_le
    have bound : k ≤ text.length := by omega
    refine ⟨text.take k, (spells_run_iff bound).mpr ⟨low, by omega⟩, (List.take_append_drop k text).symm, ?_⟩
    rw [List.length_take_of_le bound]
  · rintro ⟨word, spelled, rfl, rfl⟩
    have bound : word.length ≤ (word ++ rest).length := by simp
    have front : (word ++ rest).take word.length = word := List.take_left
    rw [← front] at spelled
    have fits := (spells_run_iff bound).mp spelled
    exact ⟨word.length, by omega, rfl, List.drop_left⟩

theorem mem_ends (plain : r.Plain) :
    (j, rest) ∈ r.ends nl (i, text) ↔
      ∃ word, r.Spells word ∧ text = word ++ rest ∧ j = i + word.length := by
  induction r generalizing i j text rest with
  | bol => exact plain.elim
  | eol => exact plain.elim
  | run here least most => exact mem_ends_run
  | seq first second before behind =>
    simp only [ends, List.mem_flatMap, Prod.exists, Spells]
    constructor
    · rintro ⟨k, middle, here, there⟩
      obtain ⟨u, spelled, rfl, rfl⟩ := (before plain.1).mp here
      obtain ⟨v, spelled', rfl, rfl⟩ := (behind plain.2).mp there
      exact ⟨u ++ v, ⟨u, spelled, v, spelled', rfl⟩, by simp, by simp [Nat.add_assoc]⟩
    · rintro ⟨-, ⟨u, spelled, v, spelled', rfl⟩, rfl, rfl⟩
      refine ⟨i + u.length, v ++ rest, (before plain.1).mpr ⟨u, spelled, by simp, rfl⟩,
        (behind plain.2).mpr ⟨v, spelled', rfl, ?_⟩⟩
      rw [List.length_append, Nat.add_assoc]

theorem fullmatches_iff (plain : r.Plain) : r.doesFullmatch nl text = true ↔ r.Spells text := by
  rw [doesFullmatch, List.any_eq_true]
  constructor
  · rintro ⟨⟨j, rest⟩, ended, nothing⟩
    obtain ⟨word, spelled, rfl, -⟩ := (mem_ends plain).mp ended
    obtain rfl : rest = [] := List.isEmpty_iff.mp nothing
    rwa [List.append_nil]
  · intro spelled
    exact ⟨(0 + text.length, []), (mem_ends plain).mpr ⟨text, spelled, by simp, rfl⟩, rfl⟩

theorem matches_anchored (plain : r.Plain) :
    r.anchored.doesMatch nl text = true ↔ ∃ word, r.Spells word ∧ (text = word ∨ text = word ++ [nl]) := by
  have some_end : r.anchored.doesMatch nl text = true ↔
      ∃ j rest, (j, rest) ∈ r.ends nl (0, text) ∧ (rest = [] ∨ rest = [nl]) := by
    rw [doesMatch, Bool.not_eq_true', ← Bool.not_eq_true, List.isEmpty_iff]
    simp [anchored, ends, or_iff_not_imp_left]
  rw [some_end]
  constructor
  · rintro ⟨j, rest, ended, behind⟩
    obtain ⟨word, spelled, rfl, -⟩ := (mem_ends plain).mp ended
    refine ⟨word, spelled, ?_⟩
    rcases behind with rfl | rfl
    · exact .inl (List.append_nil word)
    · exact .inr rfl
  · rintro ⟨word, spelled, rfl | rfl⟩
    · exact ⟨_, [], (mem_ends plain).mpr ⟨text, spelled, by simp, rfl⟩, .inl rfl⟩
    · exact ⟨_, [nl], (mem_ends plain).mpr ⟨word, spelled, rfl, rfl⟩, .inr rfl⟩

/-- Without a newline at its end, a text is matched as a whole. -/
theorem matches_anchored_of_ends (plain : r.Plain) (ending : text.getLast? ≠ some nl) :
    r.anchored.doesMatch nl text = true ↔ r.Spells text := by
  rw [matches_anchored plain]
  constructor
  · rintro ⟨word, spelled, rfl | rfl⟩
    · exact spelled
    · exact absurd (List.getLast?_concat ..) ending
  · intro spelled
    exact ⟨text, spelled, .inl rfl⟩

end Regex

end Core
