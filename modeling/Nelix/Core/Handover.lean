import Mathlib.Data.List.Nodup
import Mathlib.Logic.Function.Basic

/-!
# Answering a ticket once

Callers compete for tickets, of which at most one is open at a time. A caller claims the open
ticket and writes for it, or hands its answer over; whoever writes the answer claims the ticket in
the same step. `Sound` says that a ticket has one claimant and that its claimant wrote at most
once, and every `Move` keeps it.
-/
namespace Core

/-- Where the answer of a caller stands. -/
inductive Fate (S T : Type*)
  | unsent
  | claimed (ticket : T)
  | handed (slot : S) (ticket : T)
  | typing (ticket : T)
  | wrote (ticket : T) (landed : Bool)
  | returned
  deriving DecidableEq

/-- A write for a ticket. -/
structure Written (C T : Type*) where
  caller : C
  ticket : T
  landed : Bool
  deriving DecidableEq, Repr

/-- The open ticket, how far each caller is, and what was written. -/
structure Desk (C S T : Type*) where
  opened : Option T
  fate : C → Fate S T
  written : List (Written C T)

variable {C S T : Type*}

namespace Fate

/-- The ticket that nobody else can claim any more. -/
def stake : Fate S T → Option T
  | .claimed ticket | .typing ticket | .wrote ticket _ => some ticket
  | .unsent | .handed .. | .returned => none

/-- The ticket an answer is for, while it may still be written. -/
def ticket : Fate S T → Option T
  | .claimed ticket | .handed _ ticket | .typing ticket | .wrote ticket _ => some ticket
  | .unsent | .returned => none

/-- Claimed for a write that is still to come. -/
def Busy (ticket : T) (f : Fate S T) : Prop := f = .claimed ticket ∨ f = .typing ticket

theorem Busy.stake {ticket : T} {f : Fate S T} (busy : Busy ticket f) : f.stake = some ticket := by
  rcases busy with rfl | rfl <;> rfl

theorem Busy.not_wrote {ticket other : T} {f : Fate S T} {landed : Bool} (busy : Busy ticket f) :
    f ≠ .wrote other landed := by
  rcases busy with rfl | rfl <;> rintro ⟨⟩

end Fate

namespace Desk

def setFate [DecidableEq C] (d : Desk C S T) (c : C) (f : Fate S T) : Desk C S T :=
  { d with fate := Function.update d.fate c f }

/-- What can happen at a desk. -/
inductive Move [DecidableEq C] (d : Desk C S T) : Desk C S T → Prop
  | stay : Move d d
  | start (ticket : T) (fresh : ∀ c, (d.fate c).stake ≠ some ticket) :
      Move d { d with opened := some ticket }
  | close : Move d { d with opened := none }
  | pass (c : C) (f : Fate S T) (before : (d.fate c).stake = none) (after : f.stake = none) :
      Move d (d.setFate c f)
  | claim (c : C) (ticket : T) (f : Fate S T) (opened : d.opened = some ticket)
      (before : (d.fate c).stake = none) (busy : f.Busy ticket) :
      Move d { d.setFate c f with opened := none }
  | write (c : C) (ticket : T) (landed : Bool) (busy : (d.fate c).Busy ticket) :
      Move d
        { d.setFate c (.wrote ticket landed) with
          written := d.written ++ [⟨c, ticket, landed⟩] }

structure Sound (d : Desk C S T) : Prop where
  alone : ∀ c c' ticket, (d.fate c).stake = some ticket → (d.fate c').stake = some ticket → c = c'
  closed : ∀ c ticket, (d.fate c).stake = some ticket → d.opened ≠ some ticket
  wrote : ∀ w, w ∈ d.written ↔ d.fate w.caller = .wrote w.ticket w.landed
  once : (d.written.map (·.ticket)).Nodup

theorem sound_start (opened : Option T) :
    Sound ({ opened := opened, fate := fun _ => .unsent, written := [] } : Desk C S T) where
  alone c c' ticket staked := by cases staked
  closed c ticket staked := by cases staked
  wrote w := by simp
  once := by simp

variable {d d' : Desk C S T}

/-- Nobody else has written for a ticket whose claimant is still to write. -/
theorem Sound.unwritten (sound : d.Sound) {c : C} {ticket : T} (busy : (d.fate c).Busy ticket) :
    ticket ∉ d.written.map (·.ticket) := by
  rintro member
  obtain ⟨w, logged, rfl⟩ := List.mem_map.mp member
  have wrote := (sound.wrote w).mp logged
  have self := sound.alone w.caller c w.ticket (by rw [wrote]; rfl) busy.stake
  exact busy.not_wrote (self ▸ wrote)

/-- The only element with its key. -/
theorem filter_key {α κ : Type*} [DecidableEq κ] {key : α → κ} {x : α} {l : List α}
    (nodup : (l.map key).Nodup) (member : x ∈ l) : l.filter (fun y => key y = key x) = [x] := by
  induction l with
  | nil => cases member
  | cons y rest ih =>
    obtain ⟨fresh, nodup⟩ := List.nodup_cons.mp nodup
    rcases List.mem_cons.mp member with rfl | member
    · rw [List.filter_cons_of_pos (by simp)]
      congr 1
      refine List.filter_eq_nil_iff.mpr fun z later same => ?_
      exact fresh (decide_eq_true_eq.mp same ▸ List.mem_map_of_mem later)
    · have differ : key y ≠ key x := fun same => fresh (same ▸ List.mem_map_of_mem member)
      rw [List.filter_cons_of_neg (by simpa using differ)]
      exact ih nodup member

/-- A write is the only one for its ticket. -/
theorem Sound.writes_of [DecidableEq T] (sound : d.Sound) {w : Written C T}
    (logged : w ∈ d.written) : d.written.filter (fun v => v.ticket = w.ticket) = [w] :=
  filter_key sound.once logged

variable [DecidableEq C]

@[simp] theorem setFate_self (c : C) (f : Fate S T) : (d.setFate c f).fate c = f :=
  Function.update_self ..

theorem setFate_ne {c c' : C} (f : Fate S T) (other : c' ≠ c) :
    (d.setFate c f).fate c' = d.fate c' :=
  Function.update_of_ne other ..

@[simp] theorem setFate_written (c : C) (f : Fate S T) : (d.setFate c f).written = d.written := rfl

/-- A caller that stakes nothing before or after leaves every stake as it was. -/
theorem stake_setFate {c : C} {f : Fate S T} (same : f.stake = (d.fate c).stake) (c' : C) :
    ((d.setFate c f).fate c').stake = (d.fate c').stake := by
  by_cases self : c' = c
  · rw [self, setFate_self, same]
  · rw [setFate_ne f self]

theorem Sound.pass (sound : d.Sound) {c : C} {f : Fate S T} (before : (d.fate c).stake = none)
    (after : f.stake = none) : (d.setFate c f).Sound where
  alone a b ticket := by
    simp only [stake_setFate (after.trans before.symm)]
    exact sound.alone a b ticket
  closed a ticket := by
    simp only [stake_setFate (after.trans before.symm)]
    exact sound.closed a ticket
  wrote w := by
    rw [setFate_written, sound.wrote]
    by_cases self : w.caller = c
    · rw [self, setFate_self]
      constructor
      · intro wrote
        rw [wrote] at before
        cases before
      · intro wrote
        rw [wrote] at after
        cases after
    · rw [setFate_ne f self]
  once := sound.once

theorem Sound.claim (sound : d.Sound) {c : C} {ticket : T} {f : Fate S T}
    (opened : d.opened = some ticket) (before : (d.fate c).stake = none) (busy : f.Busy ticket) :
    Sound { d.setFate c f with opened := none } where
  alone a b other left right := by
    dsimp only at left right
    by_cases leftSelf : a = c
    · by_cases rightSelf : b = c
      · exact leftSelf.trans rightSelf.symm
      · -- another claimant of the ticket that was open
        rw [leftSelf, setFate_self, busy.stake] at left
        rw [setFate_ne f rightSelf] at right
        exact absurd (opened.trans left) (sound.closed b other right)
    · rw [setFate_ne f leftSelf] at left
      by_cases rightSelf : b = c
      · rw [rightSelf, setFate_self, busy.stake] at right
        exact absurd (opened.trans right) (sound.closed a other left)
      · rw [setFate_ne f rightSelf] at right
        exact sound.alone a b other left right
  closed a other _ := by simp
  wrote w := by
    simp only [setFate_written, sound.wrote]
    by_cases self : w.caller = c
    · rw [self, setFate_self]
      constructor
      · intro wrote
        rw [wrote] at before
        cases before
      · intro wrote
        exact absurd wrote busy.not_wrote
    · rw [setFate_ne f self]
  once := sound.once

theorem Sound.write (sound : d.Sound) {c : C} {ticket : T} {landed : Bool}
    (busy : (d.fate c).Busy ticket) :
    Sound
      { d.setFate c (.wrote ticket landed) with
        written := d.written ++ [⟨c, ticket, landed⟩] } where
  alone a b other := by
    simp only [stake_setFate (d := d) (f := .wrote ticket landed) busy.stake.symm]
    exact sound.alone a b other
  closed a other := by
    simp only [stake_setFate (d := d) (f := .wrote ticket landed) busy.stake.symm]
    exact sound.closed a other
  wrote w := by
    simp only [List.mem_append, List.mem_singleton, sound.wrote]
    by_cases self : w.caller = c
    · rw [self, setFate_self]
      constructor
      · rintro (wrote | rfl)
        · exact absurd wrote busy.not_wrote
        · rfl
      · intro wrote
        injection wrote with same landing
        exact .inr (by rw [← self, same, landing])
    · rw [setFate_ne _ self]
      constructor
      · rintro (wrote | rfl)
        · exact wrote
        · exact absurd rfl self
      · exact .inl
  once := by
    rw [List.map_append, List.nodup_append]
    refine ⟨sound.once, by simp, ?_⟩
    intro old member new single
    rw [List.map_singleton, List.mem_singleton] at single
    subst single
    rintro rfl
    exact sound.unwritten busy member

theorem Move.sound (move : Move d d') (sound : d.Sound) : d'.Sound := by
  cases move with
  | stay => exact sound
  | start ticket fresh =>
    refine ⟨sound.alone, ?_, sound.wrote, sound.once⟩
    intro c other staked opened
    exact fresh c (staked.trans opened.symm)
  | close => exact ⟨sound.alone, fun _ _ _ => by simp, sound.wrote, sound.once⟩
  | pass c f before after => exact sound.pass before after
  | claim c ticket f opened before busy => exact sound.claim opened before busy
  | write c ticket landed busy => exact sound.write busy

end Desk

end Core
