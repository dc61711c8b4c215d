import Mathlib.Algebra.Order.Ring.Rat
import Mathlib.Order.Interval.Set.Defs
import Nelix.Core.Machine
import Nelix.Daemon.Observation

/-!
# Orphans

A session that no one watches for the grace period is marked an orphan, and an orphan is reaped when it
stays one for the grace period. What the manager does to one session: the waits that come and go, the
heartbeats, and the checker, which takes its steps one lock at a time. The steps for the other sessions
take time only.

## Main results

`verdicts_proper_iff`: in every run a mark or a reap comes at least the grace period after the session was
last watched exactly when no mark comes within the grace period after a wait's end, and no one has come
between the checker's last look and its reap.
-/
namespace Nelix.Daemon
open Core

/-- Where the checker is with the session. -/
inductive Checker
  | resting
  /-- The time is read; the manager's lock is not held yet. -/
  | begun (now : Time)
  /-- A waiter was seen, under the lock. -/
  | seen
  /-- No waiter was seen, under the lock. -/
  | quiet (now : Time)
  | dated (now lastObserved : Time)
  | marking
  /-- Listed to be reaped, with the lock released. -/
  | due
  /-- No waiter was seen again, under the lock. -/
  | rechecking
  | told (marked : Time)
  /-- Validated, with the lock released: the record is persisted next. -/
  | reaping (lastObserved : Time)
  deriving DecidableEq

/-- The checker holds the manager's lock. -/
def Checker.holdsLock : Checker → Bool
  | seen | quiet _ | dated _ _ | marking | rechecking | told _ => true
  | resting | begun _ | due | reaping _ => false

/-- A session as it is watched. -/
structure Watched where
  clock : Time
  /-- Waits that are counted and have not observed the session yet. -/
  joining : ℕ := 0
  waiting : ℕ := 0
  lastObserved : Time
  orphanMarked : Option Time := none
  checker : Checker := .resting
  reaped : Bool := false
  /-- Ghost: when a waiter was registered last, where none is now. -/
  ended : Time

/-- `_active_waiter_sids[sid]` -/
def Watched.waiters (s : Watched) : ℕ := s.joining + s.waiting

/-- When a waiter was registered last or the session was observed last. -/
def Watched.since (s : Watched) : Time := max s.ended s.lastObserved

inductive Sentence
  | marked
  | reaped
  deriving DecidableEq

/-- A session is marked or reaped: when, how many waiters are registered, and since when it is not watched
if there are none. -/
structure Verdict where
  sentence : Sentence
  waiters : ℕ
  since : Time
  clock : Time
  deriving DecidableEq

/-- It comes the grace period after the session was watched. -/
def Verdict.Proper (grace : Time) (v : Verdict) : Prop := v.waiters = 0 ∧ v.since + grace ≤ v.clock

inductive WatchMove
  | passes (d : ℚ≥0)
  /-- `register_waiter` up to its observation. -/
  | register
  /-- The observation of a wait that is counted. -/
  | joins
  | heartbeat
  | unregister
  /-- The checker's next step. -/
  | check
  /-- The terminal record is written, or another one has won. -/
  | persist (won : Bool)

namespace Watched

/-- `Session.observe` -/
def observe (s : Watched) : Watched := { s with lastObserved := s.clock, orphanMarked := none }

def verdict (s : Watched) (sentence : Sentence) : Verdict := ⟨sentence, s.waiters, s.since, s.clock⟩

def goTo (s : Watched) (checker : Checker) : Watched := { s with checker }

/-- `mark_orphaned` -/
def markOrphaned (grace : Time) (s : Watched) : Watched × List Verdict :=
  if grace ≤ 0 ∨ s.clock - s.lastObserved < grace then (s, [])
  else
    match s.orphanMarked with
    | none => ({ s with orphanMarked := some s.clock }, [s.verdict .marked])
    | some _ => (s, [])

/-- One step of `_check_orphans`, and of `_reap_orphan` up to its validation. -/
def check (grace : Time) (s : Watched) : Watched × List Verdict :=
  match s.checker with
  | .resting => (s.goTo (.begun s.clock), [])
  | .begun now => (s.goTo (if 0 < s.waiters then .seen else .quiet now), [])
  | .seen => (s.observe.goTo .resting, [])
  | .quiet now => (s.goTo (.dated now s.lastObserved), [])
  | .dated now lastObserved =>
    if grace ≤ 0 then (s.goTo .resting, [])
    else
      match s.orphanMarked with
      | some marked => (s.goTo (if grace ≤ now - marked then .due else .resting), [])
      | none => (s.goTo (if grace ≤ now - lastObserved then .marking else .resting), [])
  | .marking => ((s.markOrphaned grace).1.goTo .resting, (s.markOrphaned grace).2)
  | .due => (s.goTo (if 0 < s.waiters then .resting else .rechecking), [])
  | .rechecking =>
    match s.orphanMarked with
    | none => (s.goTo .resting, [])
    | some marked => (s.goTo (.told marked), [])
  | .told marked =>
    if grace ≤ 0 ∨ s.clock - marked < grace ∨ s.clock - s.lastObserved < grace then (s.goTo .resting, [])
    else (s.goTo (.reaping s.lastObserved), [])
  | .reaping _ => (s, [])

/-- `_reap_orphan` from its validation on. -/
def persist (s : Watched) (won : Bool) : Watched × List Verdict :=
  match s.checker with
  | .reaping _ =>
    if won then ({ s with reaped := true }, [s.verdict .reaped]) else (s.goTo .resting, [])
  | _ => (s, [])

end Watched

/-- The outputs are the marks and the reaps. A wait comes or goes only while the checker does not hold the
lock. -/
def watch (grace : Time) : Machine Watched WatchMove Verdict where
  step s move :=
    if s.reaped then (s, [])
    else
      match move with
      | .passes d => ({ s with clock := s.clock + d }, [])
      | .register => (if s.checker.holdsLock then s else { s with joining := s.joining + 1 }, [])
      | .joins =>
        (if 0 < s.joining then
          { s.observe with joining := s.joining - 1, waiting := s.waiting + 1 } else s, [])
      | .heartbeat => (s.observe, [])
      | .unregister =>
        (if s.checker.holdsLock || s.waiting == 0 then s
          else { s with waiting := s.waiting - 1, ended := s.clock }, [])
      | .check => s.check grace
      | .persist won => s.persist won

/-- The step is not one that goes wrong. -/
def Spares (grace : Time) (s : Watched) : WatchMove → Prop
  | .check =>
    -- The sweep does not come to its mark between the end of the grace period of the last
    -- observation and that of the last wait.
    s.reaped = false → s.checker = .marking → 0 < grace → s.orphanMarked = none →
      s.clock ∉ Set.Ico (s.lastObserved + grace) (s.ended + grace)
  | .persist won =>
    -- No one has come since the session was validated, unless all have gone the grace period ago.
    s.reaped = false → won = true → ∀ lastObserved, s.checker = .reaping lastObserved →
      s.waiters = 0 ∧ (s.lastObserved ≠ lastObserved → s.since + grace ≤ s.clock)
  | _ => True

/-! ### What is kept -/

/-- A mark is not older than the last wait, the lock keeps the waits out, and a validated session was not
watched for the grace period, unless it was observed since. -/
structure Sane (grace : Time) (s : Watched) : Prop where
  observed : s.lastObserved ≤ s.clock
  left : s.ended ≤ s.clock
  marks : ∀ m ∈ s.orphanMarked, m ≤ s.clock ∧ s.waiting = 0 ∧ s.ended ≤ m
  locked : s.checker.holdsLock = true → s.checker ≠ .seen → s.waiters = 0
  told : ∀ m, s.checker = .told m → s.ended ≤ m
  reaping : ∀ last, s.checker = .reaping last → 0 < grace ∧ last + grace ≤ s.clock ∧
    (s.lastObserved = last → s.waiting = 0 ∧ s.ended + grace ≤ s.clock)

variable {grace : Time} {s : Watched} {c : Checker}

/-- A place of the checker that says nothing about the session. -/
def Checker.isPlain : Checker → Bool
  | .resting | .begun _ | .seen | .due => true
  | .quiet _ | .dated _ _ | .marking | .rechecking | .told _ | .reaping _ => false

namespace Sane

theorem goTo_plain (sane : Sane grace s) (plain : c.isPlain = true) : Sane grace (s.goTo c) := by
  refine ⟨sane.observed, sane.left, sane.marks, ?_, ?_, ?_⟩
  · intro locks other
    cases c with
    | resting | begun _ | due => cases locks
    | seen => exact absurd rfl other
    | quiet _ | dated _ _ | marking | rechecking | told _ | reaping _ => cases plain
  · rintro m rfl
    cases plain
  · rintro last rfl
    cases plain

/-- A step under the lock, where no waiter is registered. -/
theorem goTo_alone (sane : Sane grace s) (alone : s.waiters = 0) (open_ : ∀ last, c ≠ .reaping last)
    (told : ∀ m, c = .told m → s.ended ≤ m) : Sane grace (s.goTo c) :=
  ⟨sane.observed, sane.left, sane.marks, fun _ _ => alone, told, fun last same => absurd same (open_ last)⟩

theorem passes (sane : Sane grace s) (d : ℚ≥0) : Sane grace { s with clock := s.clock + d } := by
  have later : s.clock ≤ s.clock + d := le_add_of_nonneg_right d.2
  refine ⟨sane.observed.trans later, sane.left.trans later, ?_, sane.locked, sane.told, ?_⟩
  · intro m marked
    obtain ⟨before, alone, ended⟩ := sane.marks m marked
    exact ⟨before.trans later, alone, ended⟩
  · intro last here
    obtain ⟨enabled, old, quiet⟩ := sane.reaping last here
    exact ⟨enabled, old.trans later, fun same => ⟨(quiet same).1, (quiet same).2.trans later⟩⟩

/-- Who observes a validated session does so later than it was observed before. -/
theorem reaping_observe (sane : Sane grace s) {last : Time} (here : s.checker = .reaping last) :
    s.clock ≠ last := by
  obtain ⟨enabled, old, -⟩ := sane.reaping last here
  rintro rfl
  exact absurd (lt_of_lt_of_le (lt_add_of_pos_right _ enabled) old) (lt_irrefl _)

theorem observe (sane : Sane grace s) : Sane grace s.observe := by
  refine ⟨le_refl _, sane.left, nofun, sane.locked, sane.told, ?_⟩
  intro last here
  obtain ⟨enabled, old, -⟩ := sane.reaping last here
  exact ⟨enabled, old, fun same => absurd same (sane.reaping_observe here)⟩

theorem joins (sane : Sane grace s) (some_ : 0 < s.joining) :
    Sane grace { s.observe with joining := s.joining - 1, waiting := s.waiting + 1 } := by
  refine ⟨le_refl _, sane.left, nofun, ?_, sane.told, ?_⟩
  · intro locks other
    have alone := sane.locked locks other
    rw [Watched.waiters] at alone
    omega
  · intro last here
    obtain ⟨enabled, old, -⟩ := sane.reaping last here
    exact ⟨enabled, old, fun same => absurd same (sane.reaping_observe here)⟩

theorem register (sane : Sane grace s) (free : s.checker.holdsLock = false) :
    Sane grace { s with joining := s.joining + 1 } :=
  ⟨sane.observed, sane.left, sane.marks, fun locks => absurd locks (by simp [free]), sane.told, sane.reaping⟩

theorem unregister (sane : Sane grace s) (free : s.checker.holdsLock = false) (waits : s.waiting ≠ 0) :
    Sane grace { s with waiting := s.waiting - 1, ended := s.clock } := by
  refine ⟨sane.observed, le_refl _, ?_, fun locks => absurd locks (by simp [free]), ?_, ?_⟩
  · intro m marked
    exact absurd (sane.marks m marked).2.1 waits
  · intro m here
    have locks : s.checker.holdsLock = true := by
      rw [here]
      rfl
    exact absurd locks (by simp [free])
  · intro last here
    obtain ⟨enabled, old, quiet⟩ := sane.reaping last here
    exact ⟨enabled, old, fun same => absurd (quiet same).1 waits⟩

theorem markOrphaned (sane : Sane grace s) (alone : s.waiters = 0) :
    Sane grace ((s.markOrphaned grace).1.goTo .resting) := by
  rw [Watched.markOrphaned]
  split
  case isTrue => exact sane.goTo_plain rfl
  case isFalse =>
    cases marked : s.orphanMarked with
    | some _ => exact sane.goTo_plain rfl
    | none =>
      refine Sane.goTo_plain ⟨sane.observed, sane.left, ?_, sane.locked, sane.told, sane.reaping⟩ rfl
      intro m here
      obtain rfl := Option.some.inj here
      exact ⟨le_refl _, (Nat.add_eq_zero_iff.mp alone).2, sane.left⟩

theorem check (sane : Sane grace s) : Sane grace (s.check grace).1 := by
  rw [Watched.check]
  cases here : s.checker with
  | resting => exact sane.goTo_plain rfl
  | begun now =>
    dsimp only
    split
    case isTrue => exact sane.goTo_plain rfl
    case isFalse none => exact sane.goTo_alone (Nat.eq_zero_of_not_pos none) nofun nofun
  | seen => exact sane.observe.goTo_plain rfl
  | quiet now =>
    have alone := sane.locked (by rw [here]; rfl) (by rw [here]; nofun)
    exact sane.goTo_alone alone nofun nofun
  | dated now last =>
    have alone := sane.locked (by rw [here]; rfl) (by rw [here]; nofun)
    dsimp only
    split
    case isTrue => exact sane.goTo_plain rfl
    case isFalse =>
      cases s.orphanMarked with
      | some m =>
        dsimp only
        split <;> exact sane.goTo_plain rfl
      | none =>
        dsimp only
        split
        · exact sane.goTo_alone alone nofun nofun
        · exact sane.goTo_plain rfl
  | marking => exact sane.markOrphaned (sane.locked (by rw [here]; rfl) (by rw [here]; nofun))
  | due =>
    dsimp only
    split
    case isTrue => exact sane.goTo_plain rfl
    case isFalse none => exact sane.goTo_alone (Nat.eq_zero_of_not_pos none) nofun nofun
  | rechecking =>
    have alone := sane.locked (by rw [here]; rfl) (by rw [here]; nofun)
    cases marked : s.orphanMarked with
    | none => exact sane.goTo_plain rfl
    | some m =>
      refine sane.goTo_alone alone nofun ?_
      intro m' same
      obtain rfl := Checker.told.inj same
      exact (sane.marks m marked).2.2
  | told m =>
    have alone := sane.locked (by rw [here]; rfl) (by rw [here]; nofun)
    dsimp only
    split
    case isTrue => exact sane.goTo_plain rfl
    case isFalse lapsed =>
      obtain ⟨enabled, marked, observed⟩ : 0 < grace ∧ grace ≤ s.clock - m ∧
          grace ≤ s.clock - s.lastObserved := by
        simpa only [not_or, not_le, not_lt] using lapsed
      have ended := sane.told m here
      refine ⟨sane.observed, sane.left, sane.marks, nofun, nofun, ?_⟩
      intro last same
      obtain rfl := Checker.reaping.inj same
      refine ⟨enabled, le_sub_iff_add_le'.mp observed, fun _ => ⟨(Nat.add_eq_zero_iff.mp alone).2, ?_⟩⟩
      exact le_sub_iff_add_le'.mp (marked.trans (sub_le_sub_left ended _))
  | reaping _ => exact sane

theorem step (sane : Sane grace s) (move : WatchMove) : Sane grace ((watch grace).step s move).1 := by
  rw [watch]
  dsimp only
  split
  case isTrue => exact sane
  case isFalse =>
    cases move with
    | passes d => exact sane.passes d
    | register =>
      dsimp only
      split
      case isTrue => exact sane
      case isFalse free => exact sane.register (Bool.eq_false_iff.mpr free)
    | joins =>
      dsimp only
      split
      case isTrue some_ => exact sane.joins some_
      case isFalse => exact sane
    | heartbeat => exact sane.observe
    | unregister =>
      dsimp only
      split
      case isTrue => exact sane
      case isFalse free =>
        obtain ⟨unlocked, waits⟩ := Bool.or_eq_false_iff.mp (Bool.eq_false_iff.mpr free)
        exact sane.unregister unlocked (by simpa using waits)
    | check => exact sane.check
    | persist won =>
      dsimp only
      rw [Watched.persist.eq_def]
      split
      · split
        · exact ⟨sane.observed, sane.left, sane.marks, sane.locked, sane.told, sane.reaping⟩
        · exact sane.goTo_plain rfl
      · exact sane

/-- A mark comes in time where the last wait ended the grace period ago. -/
theorem mark_exact (sane : Sane grace s) (here : s.checker = .marking) :
    (∀ v ∈ (s.markOrphaned grace).2, v.Proper grace) ↔
      (0 < grace → s.orphanMarked = none →
        s.clock ∉ Set.Ico (s.lastObserved + grace) (s.ended + grace)) := by
  have alone := sane.locked (by rw [here]; rfl) (by rw [here]; nofun)
  rw [Watched.markOrphaned]
  by_cases early : grace ≤ 0 ∨ s.clock - s.lastObserved < grace
  · rw [if_pos early]
    refine iff_of_true nofun fun enabled _ window => ?_
    rcases early with disabled | recent
    · exact absurd enabled (not_lt.mpr disabled)
    · exact absurd (le_sub_iff_add_le'.mpr window.1) (not_le.mpr recent)
  rw [if_neg early]
  obtain ⟨enabled, lapsed⟩ : 0 < grace ∧ grace ≤ s.clock - s.lastObserved := by
    simpa only [not_or, not_le, not_lt] using early
  cases s.orphanMarked with
  | some _ => exact iff_of_true nofun nofun
  | none =>
    have observed := le_sub_iff_add_le'.mp lapsed
    simp only [List.forall_mem_singleton, Verdict.Proper, Watched.verdict, alone, true_and, Watched.since,
      ← max_add_add_right, max_le_iff, observed, and_true, enabled, true_imp_iff, Set.mem_Ico, not_lt]

theorem check_exact (sane : Sane grace s) (alive : s.reaped = false) :
    (∀ v ∈ (s.check grace).2, v.Proper grace) ↔ Spares grace s .check := by
  simp only [Spares, alive, true_imp_iff]
  cases here : s.checker with
  | marking =>
    simp only [true_imp_iff]
    rw [← sane.mark_exact here, Watched.check, here]
  | resting | begun _ | seen | quiet _ | due | reaping _ =>
    have silent : (s.check grace).2 = [] := by rw [Watched.check, here]
    rw [silent]
    exact iff_of_true nofun nofun
  | dated now last =>
    have silent : (s.check grace).2 = [] := by
      rw [Watched.check, here]
      dsimp only
      split
      · rfl
      · split <;> rfl
    rw [silent]
    exact iff_of_true nofun nofun
  | rechecking | told _ =>
    have silent : (s.check grace).2 = [] := by
      rw [Watched.check, here]
      dsimp only
      split <;> rfl
    rw [silent]
    exact iff_of_true nofun nofun

theorem persist_exact (sane : Sane grace s) (alive : s.reaped = false) (won : Bool) :
    (∀ v ∈ (s.persist won).2, v.Proper grace) ↔ Spares grace s (.persist won) := by
  simp only [Spares, alive, true_imp_iff]
  rw [Watched.persist.eq_def]
  cases here : s.checker with
  | reaping last =>
    cases won with
    | false => exact iff_of_true nofun nofun
    | true =>
      obtain ⟨-, old, quiet⟩ := sane.reaping last here
      dsimp only
      rw [if_pos rfl, List.forall_mem_singleton]
      constructor
      · rintro ⟨alone, lapsed⟩ - _ same
        exact ⟨alone, fun _ => lapsed⟩
      · intro spares
        obtain ⟨alone, since⟩ := spares rfl last rfl
        refine ⟨alone, ?_⟩
        by_cases same : s.lastObserved = last
        · exact (max_add_add_right ..).symm.le.trans (max_le (quiet same).2 (same ▸ old))
        · exact since same
  | resting | begun _ | seen | quiet _ | due | told _ | marking | dated _ _ | rechecking =>
    exact iff_of_true nofun nofun

theorem exact (sane : Sane grace s) (move : WatchMove) :
    (∀ v ∈ ((watch grace).step s move).2, v.Proper grace) ↔ Spares grace s move := by
  rw [watch]
  dsimp only
  split
  case isTrue gone =>
    refine iff_of_true nofun ?_
    cases move with
    | check => exact fun alive => absurd (gone.symm.trans alive) (by decide)
    | persist won => exact fun alive => absurd (gone.symm.trans alive) (by decide)
    | passes _ | register | joins | heartbeat | unregister => trivial
  case isFalse alive =>
    cases move with
    | check => exact sane.check_exact (Bool.eq_false_iff.mpr alive)
    | persist won => exact sane.persist_exact (Bool.eq_false_iff.mpr alive) won
    | passes _ | register | joins | heartbeat | unregister => exact iff_of_true nofun trivial

end Sane

/-- In every run of a session from its start on, each mark and each reap comes the grace period after the
session was last watched, by a waiter or an observation, exactly when each step spares it: no mark is
set within the grace period after a wait's end, and no one has come between the validation of a reap and
its record, unless all have gone the grace period before. -/
theorem verdicts_proper_iff (grace start : Time) (moves : List WatchMove) :
    (∀ v ∈ (watch grace).outputs { clock := start, lastObserved := start, ended := start } moves,
        v.Proper grace) ↔
      (watch grace).Along (Spares grace) { clock := start, lastObserved := start, ended := start } moves := by
  have sane : Sane grace { clock := start, lastObserved := start, ended := start } :=
    ⟨le_refl _, le_refl _, nofun, nofun, nofun, nofun⟩
  exact (watch grace).outputs_iff_along (Sane grace) (Verdict.Proper grace)
    (fun s move kept _ => kept.step move) (fun s move kept => kept.exact move) sane moves

/-- A wait of nine seconds, whose end is a second ago when the checker comes, and a grace period of ten: the
session is marked. -/
theorem mark_early :
    ∃ v ∈ (watch 10).outputs { clock := 0, lastObserved := 0, ended := 0 }
        [.register, .joins, .passes ⟨9, by decide⟩, .unregister, .passes ⟨1, by decide⟩, .check, .check, .check, .check, .check],
      v.sentence = .marked ∧ ¬ v.Proper 10 := by
  refine ⟨⟨.marked, 0, 9, 10⟩, ?_, rfl, ?_⟩
  · decide +kernel
  · rintro ⟨-, late⟩
    exact absurd late (by decide +kernel)

end Nelix.Daemon
