import Mathlib.Data.List.Forall2
import Nelix.Core.Scanner

/-!
# Texts line by line

A text that is read by a scanner for one line, over and over. A line may go on over ends of lines, as long
as it does not end there.

## Main results

`readLines_append`: what follows on a new line is read as it is read alone.

`readLines_plain`: there is no carriage return in what is read.
-/
namespace Core.Scanner

variable {α : Type}

/-- The lines of a text, each of which is ended. The scanner for one of them takes so many steps. -/
def linesOf (one : ℕ → Scanner (Option α)) : ℕ → List Char → Option (List α)
  | 0, _ => none
  | _ + 1, [] => some []
  | n + 1, d :: s =>
    match one n (d :: s) with
    | some (read, e :: r) => if e = '\n' then (linesOf one n r).map (read.toList ++ ·) else none
    | _ => none

/-- `linesOf` with steps enough. -/
def readLines (one : ℕ → Scanner (Option α)) (s : List Char) : Option (List α) := linesOf one (s.length + 2) s

/-- A scanner for a line. -/
structure LineScanner (α : Type) where
  one : ℕ → Scanner (Option α)
  isLocal : ∀ {n m}, n ≤ m → Local (one n) (one m)
  agree : ∀ {n}, Agree n (one n) (one (n + 1))
  tight : ∀ {n}, Tight (one n)

section Lines
variable {l : LineScanner α} {n m : ℕ} {s t r : List Char} {found : List α} {a : Option α}

theorem linesOf_step {one : ℕ → Scanner (Option α)} (some_ : s ≠ []) :
    linesOf one (n + 1) s = some found ↔
      ∃ a r rest, one n s = some (a, '\n' :: r) ∧ linesOf one n r = some rest ∧ found = a.toList ++ rest := by
  cases s with
  | nil => exact absurd rfl some_
  | cons d s =>
    rw [linesOf]
    cases read : one n (d :: s) with
    | none => simp
    | some x =>
      obtain ⟨a, r⟩ := x
      cases r with
      | nil => simp
      | cons e r =>
        by_cases ends : e = '\n'
        · subst ends
          simp only [if_true, Option.map_eq_some_iff]
          constructor
          · rintro ⟨rest, later, rfl⟩
            exact ⟨a, r, rest, rfl, later, rfl⟩
          · rintro ⟨_, _, rest, ⟨⟩, later, rfl⟩
            exact ⟨rest, later, rfl⟩
        · simp [ends]

/-- A line is shorter than what it stands in. -/
theorem LineScanner.shorter (read : l.one n s = some (a, '\n' :: r)) : r.length < s.length :=
  Nat.lt_of_succ_le ((l.isLocal le_rfl).length_le read)

theorem linesOf_agree (enough : s.length + 1 < n) : linesOf l.one (n + 1) s = linesOf l.one n s := by
  induction n generalizing s with
  | zero => cases enough
  | succ n ih =>
    cases s with
    | nil => rfl
    | cons d s =>
      have same : l.one (n + 1) (d :: s) = l.one n (d :: s) :=
        (l.agree _ (Nat.lt_of_succ_lt_succ enough)).symm
      rw [linesOf, linesOf, same]
      cases read : l.one n (d :: s) with
      | none => rfl
      | some x =>
        obtain ⟨a, r⟩ := x
        cases r with
        | nil => rfl
        | cons e r =>
          dsimp only
          split_ifs with ends
          · subst ends
            have shorter := LineScanner.shorter read
            simp only [List.length_cons] at enough shorter
            rw [ih (by omega)]
          · rfl

/-- There are always enough steps. -/
theorem linesOf_eq_readLines (enough : s.length + 1 < n) : linesOf l.one n s = readLines l.one s := by
  obtain ⟨more, rfl⟩ := Nat.exists_eq_add_of_lt enough
  clear enough
  induction more with
  | zero => rfl
  | succ more ih =>
    have agree : linesOf l.one (s.length + 1 + more + 1 + 1) s = linesOf l.one (s.length + 1 + more + 1) s :=
      linesOf_agree (by omega)
    exact agree.trans ih

theorem readLines_step (some_ : s ≠ []) :
    readLines l.one s = some found ↔
      ∃ a r rest, l.one (s.length + 1) s = some (a, '\n' :: r) ∧ readLines l.one r = some rest ∧
        found = a.toList ++ rest := by
  rw [readLines, linesOf_step some_]
  refine exists_congr fun a => exists_congr fun r => exists_congr fun rest => and_congr_right fun first => ?_
  have shorter := LineScanner.shorter first
  rw [linesOf_eq_readLines (by omega)]

theorem readLines_nil : readLines l.one [] = some [] := rfl

/-- A line reads the same where other lines follow. -/
theorem LineScanner.elsewhere (first : l.one n s = some (a, '\n' :: r)) :
    ∃ c, s = c ++ '\n' :: r ∧ '\r' ∉ c ∧ c.getLast? ≠ some '\n' ∧
      ∀ t m, n ≤ m → l.one m (c ++ '\n' :: t) = some (a, '\n' :: t) := by
  have here : Local (l.one n) (l.one n) := l.isLocal le_rfl
  obtain ⟨c, rfl, plain, -⟩ := here first
  obtain ⟨c', same, last⟩ := l.tight first
  obtain rfl := List.append_cancel_right same
  refine ⟨c, rfl, plain, last, fun t m more => ?_⟩
  obtain ⟨c', same, -, elsewhere⟩ := l.isLocal more first
  obtain rfl := List.append_cancel_right same
  exact elsewhere _ (by simp [lineOf])

/-- With enough steps one more of them changes nothing. -/
theorem LineScanner.steps {k : ℕ} (enough : s.length < n) : l.one (n + k) s = l.one n s := by
  induction k with
  | zero => rfl
  | succ k ih =>
    have short : s.length < n + k := Nat.lt_of_lt_of_le enough (Nat.le_add_right n k)
    exact (l.agree s short).symm.trans ih

/-- A first line and what follows it. -/
theorem readLines_cons {c : List Char} (first : ∀ t m, n ≤ m → l.one m (c ++ '\n' :: t) = some (a, '\n' :: t))
    (t : List Char) : readLines l.one (c ++ '\n' :: t) = (readLines l.one t).map (a.toList ++ ·) := by
  have some_ : c ++ '\n' :: t ≠ [] := by simp
  have here : l.one ((c ++ '\n' :: t).length + 1) (c ++ '\n' :: t) = some (a, '\n' :: t) := by
    rw [← LineScanner.steps (k := n) (Nat.lt_succ_self _)]
    exact first t _ (Nat.le_add_left _ _)
  cases later : readLines l.one t with
  | none =>
    rw [Option.map_none, Option.eq_none_iff_forall_ne_some]
    intro found read
    obtain ⟨a', r, rest, first', later', -⟩ := (readLines_step some_).mp read
    obtain ⟨-, same⟩ := Prod.mk.inj (Option.some.inj (here.symm.trans first'))
    obtain rfl := (List.cons.inj same).2
    rw [later] at later'
    cases later'
  | some rest => exact (readLines_step some_).mpr ⟨a, t, rest, here, later, rfl⟩

/-- Where the end of a text lies in the first part or in the second. -/
theorem ends_of_split {c r e : List Char} {d : Char} (split : s ++ e = c ++ d :: r) :
    (∃ r', r = r' ++ e ∧ s = c ++ d :: r') ∨ ∃ e', c = s ++ e' ∧ e = e' ++ d :: r := by
  rcases List.append_eq_append_iff.mp split with ⟨c', rfl, rfl⟩ | ⟨r', rfl, left⟩
  · exact .inr ⟨c', rfl, rfl⟩
  · cases r' with
    | nil => exact .inr ⟨[], (List.append_nil _).symm.trans (List.append_nil _).symm, left.symm⟩
    | cons d' r' =>
      obtain ⟨rfl, rfl⟩ := List.cons.inj left
      exact .inl ⟨r', rfl, rfl⟩

/-- The first line of a text and what it leaves. -/
theorem readLines_split (some_ : s ≠ []) (read : readLines l.one s = some found) :
    ∃ (a : Option α) (c r : List Char) (rest : List α), s = c ++ '\n' :: r ∧ '\r' ∉ c ∧ c.getLast? ≠ some '\n' ∧ readLines l.one r = some rest ∧
      found = a.toList ++ rest ∧
      ∀ t, readLines l.one (c ++ '\n' :: t) = (readLines l.one t).map (a.toList ++ ·) := by
  obtain ⟨a, r, rest, first, later, rfl⟩ := (readLines_step some_).mp read
  obtain ⟨c, rfl, plain, last, elsewhere⟩ := LineScanner.elsewhere first
  exact ⟨a, c, r, rest, rfl, plain, last, later, rfl, fun t => readLines_cons elsewhere t⟩

/-- What follows on a new line is read as it is read alone. -/
theorem readLines_append (read : readLines l.one (s ++ ['\n']) = some found) (t : List Char) :
    readLines l.one (s ++ '\n' :: t) = (readLines l.one t).map (found ++ ·) := by
  induction size : s.length using Nat.strong_induction_on generalizing s found with
  | _ size ih =>
    obtain ⟨a, c, r, rest, split, -, -, later, rfl, elsewhere⟩ := readLines_split (by simp) read
    rcases ends_of_split split with ⟨r', rfl, rfl⟩ | ⟨e, rfl, left⟩
    · -- the line ends within the text
      rw [List.append_assoc, List.cons_append, elsewhere,
        ih r'.length (by simp at size; omega) later rfl, Option.map_map]
      congr 1
      funext more
      exact (List.append_assoc _ _ _).symm
    · -- the line is the last one
      cases e with
      | nil =>
        obtain ⟨-, rfl⟩ := List.cons.inj left
        obtain rfl := Option.some.inj (readLines_nil.symm.trans later)
        rw [List.append_nil] at elsewhere
        rw [List.append_nil]
        exact elsewhere t
      | cons e e' => simp at left

/-- An empty line at the end is nothing. -/
theorem readLines_append_blank (blank : readLines l.one ['\n'] = some [])
    (read : readLines l.one (s ++ ['\n', '\n']) = some found) (t : List Char) :
    readLines l.one (s ++ '\n' :: t) = (readLines l.one t).map (found ++ ·) := by
  induction size : s.length using Nat.strong_induction_on generalizing s found with
  | _ size ih =>
    obtain ⟨a, c, r, rest, split, -, last, later, rfl, elsewhere⟩ := readLines_split (by simp) read
    rcases ends_of_split split with ⟨r', rfl, rfl⟩ | ⟨e, rfl, left⟩
    · rw [List.append_assoc, List.cons_append, elsewhere,
        ih r'.length (by simp at size; omega) later rfl, Option.map_map]
      congr 1
      funext more
      exact (List.append_assoc _ _ _).symm
    · cases e with
      | nil =>
        obtain ⟨-, rfl⟩ := List.cons.inj left
        obtain rfl := Option.some.inj (blank.symm.trans later)
        rw [List.append_nil] at elsewhere
        rw [List.append_nil]
        exact elsewhere t
      | cons e e' =>
        -- no line goes on to the end of a line
        obtain ⟨rfl, left⟩ := List.cons.inj left
        cases e' with
        | nil => exact absurd (by simp) last
        | cons e e' => simp at left

/-- A line that is read like this, wherever it stands. -/
def LineScanner.Reads (l : LineScanner α) (c : List Char) (a : Option α) : Prop :=
  ∃ n, ∀ t m, n ≤ m → l.one m (c ++ '\n' :: t) = some (a, '\n' :: t)

/-- A line that is read nowhere. -/
def LineScanner.Rejects (l : LineScanner α) (c : List Char) : Prop :=
  ∃ n, ∀ t m, n ≤ m → l.one m (c ++ '\n' :: t) = none

/-- Lines of which each is read. -/
theorem readLines_lines {cs : List (List Char)} {as : List α}
    (each : List.Forall₂ (fun c a => l.Reads c (some a)) cs as) (t : List Char) :
    readLines l.one (cs.flatMap (· ++ ['\n']) ++ t) = (readLines l.one t).map (as ++ ·) := by
  induction each with
  | nil =>
    show readLines l.one t = _
    cases readLines l.one t <;> rfl
  | @cons c a cs as first _ ih =>
    obtain ⟨n, first⟩ := first
    have whole : (c :: cs).flatMap (· ++ ['\n']) ++ t = c ++ '\n' :: (cs.flatMap (· ++ ['\n']) ++ t) := by simp
    rw [whole, readLines_cons first, ih, Option.map_map]
    rfl

/-- Lines of which one is not read. -/
theorem readLines_rejected {cs : List (List Char)} (each : ∀ c ∈ cs, (∃ a, l.Reads c a) ∨ l.Rejects c)
    (bad : ∃ c ∈ cs, l.Rejects c) (t : List Char) : readLines l.one (cs.flatMap (· ++ ['\n']) ++ t) = none := by
  induction cs with
  | nil =>
    obtain ⟨c, member, -⟩ := bad
    cases member
  | cons c cs ih =>
    have whole : (c :: cs).flatMap (· ++ ['\n']) ++ t = c ++ '\n' :: (cs.flatMap (· ++ ['\n']) ++ t) := by simp
    rw [whole]
    rcases each c List.mem_cons_self with ⟨a, n, reads⟩ | ⟨n, rejects⟩
    · have later : ∃ d ∈ cs, l.Rejects d := by
        obtain ⟨d, member, rejects⟩ := bad
        rcases List.mem_cons.mp member with rfl | among
        · -- it would be read and not read
          obtain ⟨n', none⟩ := rejects
          have read := reads [] (n + n') (Nat.le_add_right _ _)
          rw [none [] (n + n') (Nat.le_add_left _ _)] at read
          cases read
        · exact ⟨d, among, rejects⟩
      rw [readLines_cons reads, ih (fun d among => each d (List.mem_cons_of_mem _ among)) later]
      rfl
    · generalize cs.flatMap (· ++ ['\n']) ++ t = rest
      cases read : readLines l.one (c ++ '\n' :: rest) with
      | none => rfl
      | some found =>
        obtain ⟨a, r, _, first, -, -⟩ := (readLines_step (by simp)).mp read
        rw [← LineScanner.steps (k := n) (Nat.lt_succ_self _), rejects rest _ (Nat.le_add_left _ _)] at first
        cases first

/-- There is no carriage return in what is read. -/
theorem readLines_plain (read : readLines l.one s = some found) : '\r' ∉ s := by
  induction size : s.length using Nat.strong_induction_on generalizing s found with
  | _ size ih =>
    by_cases none : s = []
    · rw [none]
      exact List.not_mem_nil
    · obtain ⟨a, c, r, rest, rfl, plain, -, later, -, -⟩ := readLines_split none read
      have shorter := ih r.length (by simp at size; omega) later rfl
      simp [plain, shorter]

end Lines

end Core.Scanner
