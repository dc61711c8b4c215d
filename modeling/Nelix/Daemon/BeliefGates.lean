import Nelix.Core.Slot
import Nelix.Daemon.BeliefScreen
import Nelix.Daemon.Hooks

/-!
# Gates

A gate is one pause of the agent: a permission request or a question modal, named by a key. In an
open epoch a hook of a gate is swallowed exactly while the gate's tombstone stands: it was answered
and not invoked again since. A gate that is not swallowed is pending afterwards, under its key.
-/
namespace Nelix.Daemon

open Contracts

namespace BeliefEngine

variable (cfg : BeliefConfig) {e : BeliefEngine}

/-! ### What a call does to the gates -/

/-- A hook of a gate in an open turn: it is pending already, tombstoned, or new. -/
theorem hookBody_pauses {hobs : HookObservation} (pauses : hobs.Pauses) :
    e.hookBody hobs = e.pauseForUser hobs := by
  simp [hookBody, pauses.kind, pauses.opens, pauses.closes, pauses.clears]

theorem pauseKey_of_epoch {e' : BeliefEngine} (same : e'.turnEpoch = e.turnEpoch)
    (hobs : HookObservation) : e'.pauseKey hobs = e.pauseKey hobs := by
  simp only [pauseKey, same]

/-- A tick keeps the hook memory, or closes the epoch. -/
theorem tick_memory (obs : Observation) (ctx : ObservationCtx) (now : Time) :
    (tick cfg e obs ctx now).1.hookMemory = e.hookMemory ∨
      (tick cfg e obs ctx now).1.turnClosed = true := by
  have effect := tick_effect cfg e obs ctx now
  generalize tick cfg e obs ctx now = r at effect ⊢
  cases effect with
  | terminal e' same dead =>
    have memory : e'.hookMemory = e.hookMemory := hookMemory_of_core same
    exact .inl memory
  | held e' same active owned => exact .inl (hookMemory_of_core same)
  | reconciled e' same settled =>
    exact .inr (by simp [reconcileIdle, forgetPrompt, turnClosed, setControl])
  | watched e' actions active free unsettled mode memory published goesOn advisories =>
    exact .inl memory
  | screen r hookless fallback memory shown noIdle => exact .inl memory

theorem expectHooks_memory (now : Time) : (e.expectHooks now).hookMemory = e.hookMemory := by
  unfold expectHooks
  split <;> rfl

/-! ### Tombstones -/

/-- While an epoch is open, whatever is pending or tombstoned came up in an open turn, and the
pending gate is not tombstoned. -/
structure Tombs (e : BeliefEngine) : Prop where
  answered : ∀ key ∈ e.hookAnsweredIds, e.turnOpen = true
  pending : e.hookPendingKey.isSome → e.turnOpen = true
  apart : ∀ key, e.hookPendingKey = some key → key ∉ e.hookAnsweredIds

theorem Tombs.of_memory {e' : BeliefEngine} (tombs : Tombs e)
    (memory : e'.hookMemory = e.hookMemory) : Tombs e' := by
  have answered : e'.hookAnsweredIds = e.hookAnsweredIds := congrArg HookMemory.answered memory
  have isOpen := turnOpen_of_memory memory
  have pending := hookPendingKey_of_memory memory
  exact
    { answered := by rw [answered, isOpen]; exact tombs.answered
      pending := by rw [pending, isOpen]; exact tombs.pending
      apart := by rw [pending, answered]; exact tombs.apart }

/-- What tombstones a gate and what lifts its tombstone. -/
inductive GateEvent
  /-- A submit came while the gate was pending. -/
  | answered (key : DecisionKey)
  /-- A plain `PreToolUse` carried the gate's fingerprint. -/
  | lifted (key : DecisionKey)
  /-- A turn opened or closed. -/
  | boundary
  deriving DecidableEq

/-- What a hook does to tombstones. -/
def hookGates (hobs : HookObservation) : List GateEvent :=
  if hobs.opensTurn ∨ hobs.closesTurn then [.boundary]
  else if hobs.clearsPending ∨ hobs.kind = .waitingForUser then []
  else hobs.gateFp.toList.map fun fp => .lifted (.hookGate fp)

def gateEvents (e : BeliefEngine) : Input → List GateEvent
  | .hook hobs _ => hookGates hobs
  | .submit _ => e.hookPendingKey.toList.map .answered
  | _ => []

/-- The engine as a machine over what happens to its gates. -/
def gateMachine (cfg : BeliefConfig) : Core.Machine BeliefEngine Input GateEvent where
  step e i := ((react cfg e i).1, gateEvents e i)

/-- The gate was answered, and since then neither was it invoked again nor did its epoch end. -/
def AnsweredSince (key : DecisionKey) (events : List GateEvent) : Prop :=
  ∃ before after, events = before ++ .answered key :: after ∧
    ∀ ev ∈ after, ev ≠ .lifted key ∧ ev ≠ .boundary

/-- The tombstone of one gate. -/
def tombstone (key : DecisionKey) : Core.Slot GateEvent Unit where
  fills ev := if ev = .answered key then some () else none
  clears _ ev := ev == .lifted key || ev == .boundary

theorem answeredSince_iff (key : DecisionKey) (events : List GateEvent) :
    AnsweredSince key events ↔ ((tombstone key).held none events).isSome := by
  constructor
  · rintro ⟨before, after, rfl, lasts⟩
    rw [Core.Slot.held_append, Core.Slot.held_cons]
    have filled : (tombstone key).next ((tombstone key).held none before) (.answered key) =
        some () := by simp [Core.Slot.next, tombstone]
    rw [filled]
    refine (tombstone key).held_isSome_of_uncleared (fun ev member _ => ?_) rfl
    simp [tombstone, lasts ev member]
  · intro present
    obtain ⟨⟨⟩, held⟩ := Option.isSome_iff_exists.mp present
    obtain ⟨before, ev, after, split, fills, lasts⟩ :=
      ((tombstone key).held_eq_some_iff events ()).mp held
    have named : ev = .answered key := by
      by_contra other
      simp [tombstone, other] at fills
    refine ⟨before, after, named ▸ split, fun x member => ?_⟩
    have uncleared := (not_or.mp (lasts x member)).2
    simpa [tombstone] using uncleared

/-- In an open epoch the tombstone stands exactly when the engine has the key. -/
def Tracks (key : DecisionKey) (e : BeliefEngine) (stone : Option Unit) : Prop :=
  e.turnClosed = false → Tombs e ∧ (stone.isSome ↔ key ∈ e.hookAnsweredIds)

section Tracking

variable {key : DecisionKey} {stone : Option Unit}

theorem Tracks.of_memory {e' : BeliefEngine} (tracks : Tracks key e stone)
    (memory : e'.hookMemory = e.hookMemory) : Tracks key e' stone := by
  intro unfinished
  have answered : e'.hookAnsweredIds = e.hookAnsweredIds := congrArg HookMemory.answered memory
  obtain ⟨tombs, stands⟩ := tracks ((turnClosed_of_memory memory).symm.trans unfinished)
  exact ⟨tombs.of_memory memory, answered ▸ stands⟩

/-- An open turn with the same tombstones keeps the books. -/
theorem Tracks.of_open {e' : BeliefEngine} (tracks : Tracks key e stone)
    (unfinished : e.turnClosed = false) (answered : e'.hookAnsweredIds = e.hookAnsweredIds)
    (isOpen : e'.turnOpen = true)
    (apart : ∀ k, e'.hookPendingKey = some k → k ∉ e'.hookAnsweredIds) : Tracks key e' stone :=
  fun _ => ⟨⟨fun _ _ => isOpen, fun _ => isOpen, apart⟩, answered ▸ (tracks unfinished).2⟩

theorem openTurn_tracks (stone : Option Unit) :
    Tracks key e.openTurn ((tombstone key).held stone [.boundary]) := by
  have gone : (tombstone key).held stone [.boundary] = none := by
    cases stone <;> simp [Core.Slot.next, tombstone]
  rw [gone]
  exact fun _ => ⟨⟨by simp [openTurn, setControl], by simp [openTurn, setControl],
    by simp [openTurn, setControl]⟩, by simp [openTurn, setControl]⟩

theorem closeTurn_closed (hobs : HookObservation) : (e.closeTurn hobs).1.turnClosed = true := by
  unfold closeTurn
  split
  · next closed => exact closed
  · have frame := dropPending_frame e.endEpoch .superseded
    simp only [turnClosed, setControl, frame.1, frame.2.2.1]
    simp [endEpoch]

theorem clearPending_tracks (tracks : Tracks key e stone) : Tracks key e.clearPending.1 stone := by
  unfold clearPending
  split
  · exact tracks
  · next unfinished =>
    refine tracks.of_open (by simpa using unfinished) ?_ rfl ?_
    · cases pending : e.hookPendingKey <;> simp [dropPending, pending, resumeTurn, setControl]
    · cases pending : e.hookPendingKey <;> simp [dropPending, pending, resumeTurn, setControl]

theorem pauseForUser_tracks (tracks : Tracks key e stone) (hobs : HookObservation) :
    Tracks key (e.pauseForUser hobs).1 stone := by
  unfold pauseForUser
  split
  · exact tracks
  · next closed =>
    have unfinished : e.turnClosed = false := by simpa using closed
    have tombs := (tracks unfinished).1
    dsimp only
    split
    · next pending =>
      refine tracks.of_open unfinished rfl rfl fun k same => ?_
      cases same
      exact tombs.apart _ pending
    · split
      · exact tracks.of_open unfinished rfl rfl tombs.apart
      · next fresh =>
        refine tracks.of_open unfinished rfl rfl fun k same => ?_
        cases same
        exact fresh

/-- A plain working hook lifts the tombstone it names; outside an open turn there is none. -/
theorem workingHook_tracks (tracks : Tracks key e stone) (hobs : HookObservation) :
    Tracks key (e.workingHook hobs)
      ((tombstone key).held stone (hobs.gateFp.toList.map fun fp => .lifted (.hookGate fp))) := by
  intro unfinished
  have before : e.turnClosed = false := by
    rw [← unfinished, workingHook]
    split <;> rfl
  obtain ⟨tombs, stands⟩ := tracks before
  have lifted : ∀ fp, ((tombstone key).held stone [.lifted (.hookGate fp)]).isSome ↔
      key ∈ e.hookAnsweredIds.erase (.hookGate fp) := by
    intro fp
    rw [Finset.mem_erase, ← stands]
    cases stone with
    | none => simp [Core.Slot.next, tombstone]
    | some u =>
      by_cases same : key = .hookGate fp
      · simp [Core.Slot.next, tombstone, Option.filter, same]
      · simp [Core.Slot.next, tombstone, Option.filter, same, Ne.symm same]
  cases isOpen : e.turnOpen with
  | true =>
    rw [workingHook, if_pos isOpen]
    cases gate : hobs.gateFp with
    | none => exact ⟨⟨fun _ _ => isOpen, fun _ => isOpen, tombs.apart⟩, stands⟩
    | some fp =>
      refine ⟨⟨fun _ _ => isOpen, fun _ => isOpen, fun k pending => ?_⟩, lifted fp⟩
      exact fun member => tombs.apart k pending (Finset.mem_of_mem_erase member)
  | false =>
    -- nothing is tombstoned outside an open turn, so there is nothing to lift
    have empty : ∀ k, k ∉ e.hookAnsweredIds := fun k member => by
      simpa [isOpen] using tombs.answered k member
    rw [workingHook, if_neg (by simp [isOpen])]
    refine ⟨tombs, ?_⟩
    cases gate : hobs.gateFp with
    | none => exact stands
    | some fp =>
      refine (lifted fp).trans ⟨fun member => Finset.mem_of_mem_erase member, fun member => ?_⟩
      exact absurd member (empty key)

theorem hookBody_tracks (tracks : Tracks key e stone) (hobs : HookObservation) :
    Tracks key (e.hookBody hobs).1 ((tombstone key).held stone (hookGates hobs)) := by
  unfold hookBody hookGates
  cases opens : hobs.opensTurn with
  | true => simpa using openTurn_tracks stone
  | false =>
    cases closes : hobs.closesTurn with
    | true =>
      intro unfinished
      have closed := closeTurn_closed (e := e) hobs
      simp only [Bool.false_eq_true, if_false, if_true] at unfinished
      simp [unfinished] at closed
    | false =>
      cases clears : hobs.clearsPending with
      | true => simpa using clearPending_tracks tracks
      | false =>
        by_cases waits : hobs.kind = .waitingForUser
        · simpa [waits] using pauseForUser_tracks tracks hobs
        · simpa [waits] using workingHook_tracks tracks hobs

theorem tracks_step (i : Input) (tracks : Tracks key e stone) :
    Tracks key ((gateMachine cfg).step e i).1
      ((tombstone key).held stone ((gateMachine cfg).step e i).2) := by
  cases i with
  | hook hobs now => exact hookBody_tracks (tracks.of_memory (takeOver_memory cfg e now)) hobs
  | submit now =>
    intro unfinished
    obtain ⟨tombs, stands⟩ := tracks unfinished
    have after : (gateMachine cfg).step e (.submit now) =
        (onSubmit cfg e now, e.hookPendingKey.toList.map .answered) := rfl
    rw [after]
    cases pending : e.hookPendingKey with
    | none =>
      exact ⟨⟨by simpa [onSubmit, pending] using tombs.answered, (by rintro ⟨⟩), (by rintro _ ⟨⟩)⟩,
        by simpa [onSubmit, pending] using stands⟩
    | some k =>
      have isOpen := tombs.pending (by simp [pending])
      refine ⟨⟨fun _ _ => isOpen, by rintro ⟨⟩, by rintro _ ⟨⟩⟩, ?_⟩
      by_cases same : k = key
      · simp [Core.Slot.next, tombstone, onSubmit, pending, same]
      · cases stone <;>
          simpa [Core.Slot.next, tombstone, onSubmit, pending, same, Ne.symm same, Option.filter]
            using stands
  | tick obs ctx now =>
    rcases tick_memory cfg (e := e) obs ctx now with memory | closed
    · exact tracks.of_memory memory
    · intro unfinished
      have open' : (tick cfg e obs ctx now).1.turnClosed = false := unfinished
      simp [closed] at open'
  | expectHooks now => exact tracks.of_memory (expectHooks_memory now)

end Tracking

/-! ### A hook of a gate -/

section Pauses

variable {hobs : HookObservation} {key : DecisionKey} (now : Time)

theorem hookPendingKind_of_memory {e' : BeliefEngine} (same : e'.hookMemory = e.hookMemory) :
    e'.hookPendingKind = e.hookPendingKind := congrArg HookMemory.pendingKind same

theorem hookAnsweredIds_of_memory {e' : BeliefEngine} (same : e'.hookMemory = e.hookMemory) :
    e'.hookAnsweredIds = e.hookAnsweredIds := congrArg HookMemory.answered same

/-- In a closed epoch the hook is a straggler. -/
theorem onHook_ignored (pauses : hobs.Pauses) (closed : e.turnClosed = true) :
    onHook cfg e hobs now = takeOver cfg e now := by
  have closed' := (turnClosed_of_memory (takeOver_memory cfg e now)).trans closed
  simp [onHook, andThen, hookBody_pauses pauses, pauseForUser, closed']

/-- A gate that is pending, or not tombstoned, is pending afterwards. -/
theorem onHook_pending (pauses : hobs.Pauses) (unfinished : e.turnClosed = false)
    (named : e.pauseKey hobs = key)
    (free : e.hookPendingKey = some key ∨ key ∉ e.hookAnsweredIds) :
    onHook cfg e hobs now =
      ((takeOver cfg e now).1.awaitGate key (preferredPromptKind e.hookPendingKind hobs.promptKind),
        (takeOver cfg e now).2 ++
          if e.hookPendingKey = some key ∧
              preferredPromptKind e.hookPendingKind hobs.promptKind = e.hookPendingKind then []
          else [hookPausePublish key (preferredPromptKind e.hookPendingKind hobs.promptKind)]) := by
  have memory := takeOver_memory cfg e now
  have unfinished' := (turnClosed_of_memory memory).trans unfinished
  have named' := (pauseKey_of_epoch (turnEpoch_of_memory memory) hobs).trans named
  simp only [onHook, andThen, hookBody_pauses pauses, pauseForUser, unfinished', named',
    hookPendingKey_of_memory memory, hookPendingKind_of_memory memory,
    hookAnsweredIds_of_memory memory, Bool.false_eq_true, if_false]
  by_cases pending : e.hookPendingKey = some key
  · by_cases same : preferredPromptKind e.hookPendingKind hobs.promptKind = e.hookPendingKind
    · simp [pending, same]
    · simp [pending, same]
  · have fresh : key ∉ e.hookAnsweredIds := free.resolve_left pending
    simp [pending, fresh]

/-- A tombstoned gate is swallowed. -/
theorem onHook_swallowed (pauses : hobs.Pauses) (unfinished : e.turnClosed = false)
    (named : e.pauseKey hobs = key) (other : e.hookPendingKey ≠ some key)
    (answered : key ∈ e.hookAnsweredIds) :
    onHook cfg e hobs now = ((takeOver cfg e now).1.resumeTurn, (takeOver cfg e now).2) := by
  have memory := takeOver_memory cfg e now
  have unfinished' := (turnClosed_of_memory memory).trans unfinished
  have named' := (pauseKey_of_epoch (turnEpoch_of_memory memory) hobs).trans named
  simp [onHook, andThen, hookBody_pauses pauses, pauseForUser, unfinished', named',
    hookPendingKey_of_memory memory, hookAnsweredIds_of_memory memory, other, answered]

end Pauses

/-! ### Hooks of one gate in any order -/

/-- A hook of the gate, or a tick. -/
def Arrival (e : BeliefEngine) (key : DecisionKey) : Input → Prop
  | .hook hobs _ => hobs.Pauses ∧ e.pauseKey hobs = key
  | .tick _ _ _ => True
  | _ => False

/-- The specific reading of a gate: a question modal. -/
def specific : Input → Bool
  | .hook hobs _ => hobs.promptKind == some .modalChoice
  | _ => false

section Arrivals

variable {e₀ : BeliefEngine} {key : DecisionKey}

/-- The gate is pending in the epoch, and the turn waits for its answer. -/
structure Asked (e₀ : BeliefEngine) (key : DecisionKey) (e : BeliefEngine) : Prop where
  epoch : e.turnEpoch = e₀.turnEpoch
  unfinished : e.turnClosed = false
  pending : e.hookPendingKey = some key
  active : e.hookMode = .active
  owned : e.runsOn = false

/-- The gate is tombstoned unless the epoch is over; what was pending is still. -/
structure Spurned (e₀ : BeliefEngine) (key : DecisionKey) (e : BeliefEngine) : Prop where
  epoch : e.turnEpoch = e₀.turnEpoch
  pending : e.hookPendingKey = e₀.hookPendingKey
  kind : e.hookPendingKind = e₀.hookPendingKind
  other : e₀.hookPendingKey ≠ some key
  answered : e.turnClosed = false → key ∈ e.hookAnsweredIds

/-- The kind is the specific one as soon as a specific hook was there. -/
theorem preferred_specific {a b : Option PromptKind}
    (modal : a = some .modalChoice ∨ b = some .modalChoice) :
    preferredPromptKind a b = some .modalChoice := if_pos modal

theorem onHook_asked {hobs : HookObservation} (now : Time) (pauses : hobs.Pauses)
    (unfinished : e.turnClosed = false) (epoch : e.turnEpoch = e₀.turnEpoch)
    (named : e₀.pauseKey hobs = key)
    (free : e.hookPendingKey = some key ∨ key ∉ e.hookAnsweredIds) :
    Asked e₀ key (onHook cfg e hobs now).1 ∧
      (onHook cfg e hobs now).1.hookPendingKind =
        preferredPromptKind e.hookPendingKind hobs.promptKind := by
  have memory := takeOver_memory cfg e now
  have named' : e.pauseKey hobs = key := (pauseKey_of_epoch epoch hobs).trans named
  rw [onHook_pending cfg now pauses unfinished named' free]
  refine ⟨⟨?_, ?_, rfl, takeOver_mode cfg e now, rfl⟩, rfl⟩
  · exact (turnEpoch_of_memory memory).trans epoch
  · exact (turnClosed_of_memory memory).trans unfinished

/-- While a gate is pending, a tick leaves the turn to it. -/
theorem tick_asked (asked : Asked e₀ key e) (obs : Observation) (ctx : ObservationCtx)
    (now : Time) :
    Asked e₀ key (tick cfg e obs ctx now).1 ∧
      (tick cfg e obs ctx now).1.hookPendingKind = e.hookPendingKind := by
  have of_core : ∀ {e' : BeliefEngine}, e'.core = e.core →
      Asked e₀ key e' ∧ e'.hookPendingKind = e.hookPendingKind := by
    intro e' same
    have memory := hookMemory_of_core same
    exact ⟨⟨(turnEpoch_of_memory memory).trans asked.epoch,
      (turnClosed_of_memory memory).trans asked.unfinished,
      (hookPendingKey_of_memory memory).trans asked.pending,
      (hookMode_of_core same).trans asked.active, (runsOn_of_core same).trans asked.owned⟩,
      hookPendingKind_of_memory memory⟩
  have effect := tick_effect cfg e obs ctx now
  generalize tick cfg e obs ctx now = r at effect ⊢
  cases effect with
  | terminal e' same dead =>
    obtain ⟨kept, kind⟩ := of_core same
    exact ⟨⟨kept.epoch, kept.unfinished, kept.pending, kept.active, rfl⟩, kind⟩
  | held e' same active owned => exact of_core same
  | reconciled e' same settled =>
    have free : e.runsOn = true := by
      simp only [reconciles, Bool.and_eq_true] at settled
      exact settled.1.1.2
    simp [asked.owned] at free
  | watched e' actions active free unsettled mode memory published goesOn advisories =>
    simp [asked.owned] at free
  | screen r hookless fallback memory shown noIdle => exact absurd asked.active hookless

theorem asked_arrival (asked : Asked e₀ key e) {i : Input} (arrives : Arrival e₀ key i) :
    Asked e₀ key (react cfg e i).1 ∧
      (specific i = true ∨ e.hookPendingKind = some .modalChoice →
        (react cfg e i).1.hookPendingKind = some .modalChoice) := by
  cases i with
  | hook hobs now =>
    obtain ⟨pauses, named⟩ := arrives
    obtain ⟨asked', kind⟩ := onHook_asked cfg now pauses asked.unfinished asked.epoch named
      (.inl asked.pending)
    refine ⟨asked', fun modal => kind.trans (preferred_specific ?_)⟩
    rcases modal with new | old
    · exact .inr (by simpa [specific] using new)
    · exact .inl old
  | tick obs ctx now =>
    obtain ⟨asked', kind⟩ := tick_asked cfg asked obs ctx now
    exact ⟨asked', fun modal => kind.trans (modal.resolve_left (by simp [specific]))⟩
  | submit now => exact arrives.elim
  | expectHooks now => exact arrives.elim

theorem asked_arrivals {inputs : List Input} (asked : Asked e₀ key e)
    (arrives : ∀ i ∈ inputs, Arrival e₀ key i)
    (modal : (∃ i ∈ inputs, specific i = true) ∨ e.hookPendingKind = some .modalChoice) :
    Asked e₀ key ((gateMachine cfg).after e inputs) ∧
      ((gateMachine cfg).after e inputs).hookPendingKind = some .modalChoice := by
  induction inputs generalizing e with
  | nil => exact ⟨asked, modal.resolve_left (by simp)⟩
  | cons i rest ih =>
    obtain ⟨asked', kind⟩ := asked_arrival cfg asked (arrives i (by simp))
    refine ih asked' (fun j member => arrives j (by simp [member])) ?_
    rcases modal with ⟨j, member, isModal⟩ | old
    · rcases List.mem_cons.mp member with rfl | later
      · exact .inr (kind (.inl isModal))
      · exact .inl ⟨j, later, isModal⟩
    · exact .inr (kind (.inr old))

theorem spurned_arrival (spurned : Spurned e₀ key e) {i : Input} (arrives : Arrival e₀ key i) :
    Spurned e₀ key (react cfg e i).1 := by
  obtain ⟨epoch, pending, kind, other, answered⟩ := spurned
  cases i with
  | hook hobs now =>
    obtain ⟨pauses, named⟩ := arrives
    have memory := takeOver_memory cfg e now
    have epoch' := (turnEpoch_of_memory memory).trans epoch
    have pending' := (hookPendingKey_of_memory memory).trans pending
    have kind' := (hookPendingKind_of_memory memory).trans kind
    cases closed : e.turnClosed with
    | true =>
      have still := (turnClosed_of_memory memory).trans closed
      simp only [react, onHook_ignored cfg now pauses closed]
      exact ⟨epoch', pending', kind', other, fun unfinished => by simp [still] at unfinished⟩
    | false =>
      have stands := answered closed
      have named' := (pauseKey_of_epoch epoch hobs).trans named
      simp only [react, onHook_swallowed cfg now pauses closed named' (pending ▸ other) stands]
      exact ⟨epoch', pending', kind', other,
        fun _ => (hookAnsweredIds_of_memory memory).symm ▸ stands⟩
  | tick obs ctx now =>
    have frame : (tick cfg e obs ctx now).1.turnEpoch = e.turnEpoch ∧
        (tick cfg e obs ctx now).1.hookPendingKey = e.hookPendingKey ∧
        (tick cfg e obs ctx now).1.hookPendingKind = e.hookPendingKind ∧
        ((tick cfg e obs ctx now).1.turnClosed = false →
          e.turnClosed = false ∧
            (tick cfg e obs ctx now).1.hookAnsweredIds = e.hookAnsweredIds) := by
      have of_memory : ∀ {e' : BeliefEngine}, e'.hookMemory = e.hookMemory →
          e'.turnEpoch = e.turnEpoch ∧ e'.hookPendingKey = e.hookPendingKey ∧
            e'.hookPendingKind = e.hookPendingKind ∧ (e'.turnClosed = false →
              e.turnClosed = false ∧ e'.hookAnsweredIds = e.hookAnsweredIds) :=
        fun memory => ⟨turnEpoch_of_memory memory, hookPendingKey_of_memory memory,
          hookPendingKind_of_memory memory, fun unfinished =>
            ⟨(turnClosed_of_memory memory).symm.trans unfinished,
              hookAnsweredIds_of_memory memory⟩⟩
      have effect := tick_effect cfg e obs ctx now
      generalize tick cfg e obs ctx now = r at effect ⊢
      cases effect with
      | terminal e' same dead =>
        have kept := of_memory (hookMemory_of_core same)
        exact kept
      | held e' same active owned => exact of_memory (hookMemory_of_core same)
      | reconciled e' same settled =>
        obtain ⟨epoch, pending, kind, -⟩ := of_memory (hookMemory_of_core same)
        exact ⟨epoch, pending, kind,
          by simp [reconcileIdle, forgetPrompt, turnClosed, setControl]⟩
      | watched e' actions active free unsettled mode memory published goesOn advisories =>
        exact of_memory memory
      | screen r hookless fallback memory shown noIdle => exact of_memory memory
    obtain ⟨epoch', pending', kind', open'⟩ := frame
    refine ⟨epoch'.trans epoch, pending'.trans pending, kind'.trans kind, other, ?_⟩
    intro unfinished
    obtain ⟨before, same⟩ := open' unfinished
    exact same ▸ answered before
  | submit now => exact arrives.elim
  | expectHooks now => exact arrives.elim

theorem spurned_arrivals {inputs : List Input} (spurned : Spurned e₀ key e)
    (arrives : ∀ i ∈ inputs, Arrival e₀ key i) :
    Spurned e₀ key ((gateMachine cfg).after e inputs) := by
  induction inputs generalizing e with
  | nil => exact spurned
  | cons i rest ih =>
    exact ih (spurned_arrival cfg spurned (arrives i (by simp)))
      fun j member => arrives j (by simp [member])

end Arrivals

section Order

variable {hobs : HookObservation} {key : DecisionKey} {kind : Option PromptKind} (now : Time)

/-- A further hook of the gate that is pending. -/
theorem onHook_again (pauses : hobs.Pauses) (active : e.hookMode = .active)
    (unfinished : e.turnClosed = false) (named : e.pauseKey hobs = key) :
    (onHook cfg (e.awaitGate key kind) hobs now).1 =
      (e.hookSeen now).awaitGate key (preferredPromptKind kind hobs.promptKind) := by
  have running : (e.awaitGate key kind).turnClosed = false := unfinished
  have named' : (e.awaitGate key kind).pauseKey hobs = key := named
  have mode : (e.awaitGate key kind).hookMode = .active := active
  rw [onHook_pending cfg now pauses running named' (.inl rfl),
    takeOver_active cfg _ now mode]
  rfl

/-- A further hook of the gate that is tombstoned. -/
theorem onHook_spurned (pauses : hobs.Pauses) (active : e.hookMode = .active)
    (unfinished : e.turnClosed = false) (named : e.pauseKey hobs = key)
    (other : e.hookPendingKey ≠ some key) (answered : key ∈ e.hookAnsweredIds) :
    (onHook cfg e.resumeTurn hobs now).1 = (e.hookSeen now).resumeTurn := by
  have running : e.resumeTurn.turnClosed = false := unfinished
  have named' : e.resumeTurn.pauseKey hobs = key := named
  have mode : e.resumeTurn.hookMode = .active := active
  have other' : e.resumeTurn.hookPendingKey ≠ some key := other
  have answered' : key ∈ e.resumeTurn.hookAnsweredIds := answered
  rw [onHook_swallowed cfg now pauses running named' other' answered',
    takeOver_active cfg _ now mode]
  rfl

/-- Two hooks of one gate lead to the same state in either order, if one of them is specific. -/
theorem hooks_commute {first second : HookObservation} (pauses : first.Pauses)
    (pauses' : second.Pauses) (gate : first.gateFp = second.gateFp)
    (modal : first.promptKind = some .modalChoice) (t₁ t₂ : Time) :
    (onHook cfg (onHook cfg e first t₁).1 second t₂).1 =
      (onHook cfg (onHook cfg e second t₁).1 first t₂).1 := by
  have memory := takeOver_memory cfg e t₁
  have mode := takeOver_mode cfg e t₁
  have closed' := turnClosed_of_memory memory
  have same : e.pauseKey second = e.pauseKey first := by simp only [pauseKey, gate]
  have key₁ := pauseKey_of_epoch (turnEpoch_of_memory memory) first
  have key₂ := (pauseKey_of_epoch (turnEpoch_of_memory memory) second).trans same
  cases closed : e.turnClosed with
  | true =>
    have still := closed'.trans closed
    rw [onHook_ignored cfg t₁ pauses closed, onHook_ignored cfg t₁ pauses' closed,
      onHook_ignored cfg t₂ pauses' still, onHook_ignored cfg t₂ pauses still]
  | false =>
    have running := closed'.trans closed
    by_cases free : e.hookPendingKey = some (e.pauseKey first) ∨
        e.pauseKey first ∉ e.hookAnsweredIds
    · -- the gate stands: whichever comes second, the kind is the specific one
      rw [onHook_pending cfg t₁ pauses closed rfl free,
        onHook_pending cfg t₁ pauses' closed same free,
        onHook_again cfg t₂ pauses' mode running key₂, onHook_again cfg t₂ pauses mode running key₁,
        preferred_specific (.inl (preferred_specific (.inr modal))),
        preferred_specific (.inr modal)]
    · obtain ⟨other, answered⟩ := not_or.mp free
      have answered := not_not.mp answered
      have other₁ := (hookPendingKey_of_memory memory).trans_ne other
      have answered₁ : e.pauseKey first ∈ (takeOver cfg e t₁).1.hookAnsweredIds :=
        (hookAnsweredIds_of_memory memory).symm ▸ answered
      rw [onHook_swallowed cfg t₁ pauses closed rfl other answered,
        onHook_swallowed cfg t₁ pauses' closed same other answered,
        onHook_spurned cfg t₂ pauses' mode running key₂ other₁ answered₁,
        onHook_spurned cfg t₂ pauses mode running key₁ other₁ answered₁]

end Order

/-! ### The law of the gates -/

/-- A hook of the gate came to nothing: no publish, and the gate is not pending. -/
def Swallowed (key : DecisionKey) (r : BeliefEngine × List Action) : Prop :=
  (∀ a ∈ r.2, a.isPublish = false) ∧ r.1.hookPendingKey ≠ some key

/-- A hook of the gate found it pending or published it, under its key. -/
def Pending (e : BeliefEngine) (key : DecisionKey) (r : BeliefEngine × List Action) : Prop :=
  r.1.hookPendingKey = some key ∧
    (e.hookPendingKey = some key ∨ ∃ kind, hookPausePublish key kind ∈ r.2)

/-- What the engine does with the hooks of a gate, after any run, in an open epoch. -/
structure GateLaw : Prop where
  /-- A hook of a gate is swallowed exactly when the gate was answered and not invoked since. -/
  swallowed_iff : ∀ inputs hobs now, hobs.Pauses →
    ((gateMachine cfg).after {} inputs).turnClosed = false →
    (Swallowed (((gateMachine cfg).after {} inputs).pauseKey hobs)
        (onHook cfg ((gateMachine cfg).after {} inputs) hobs now) ↔
      AnsweredSince (((gateMachine cfg).after {} inputs).pauseKey hobs)
        ((gateMachine cfg).outputs {} inputs))
  /-- Otherwise the gate is published, or is already the pending decision, under its key. -/
  otherwise : ∀ inputs hobs now, hobs.Pauses →
    ((gateMachine cfg).after {} inputs).turnClosed = false →
    ¬ AnsweredSince (((gateMachine cfg).after {} inputs).pauseKey hobs)
      ((gateMachine cfg).outputs {} inputs) →
    Pending ((gateMachine cfg).after {} inputs)
      (((gateMachine cfg).after {} inputs).pauseKey hobs)
      (onHook cfg ((gateMachine cfg).after {} inputs) hobs now)
  /-- However often and in whatever order the hooks of one gate arrive, with ticks between them:
  once a specific one was there the gate is pending as a modal choice, or it was swallowed. -/
  settles : ∀ inputs hobs now rest, hobs.Pauses →
    ((gateMachine cfg).after {} inputs).turnClosed = false →
    (∀ i ∈ rest, Arrival ((gateMachine cfg).after {} inputs)
      (((gateMachine cfg).after {} inputs).pauseKey hobs) i) →
    (∃ i ∈ Input.hook hobs now :: rest, specific i = true) →
    (¬ AnsweredSince (((gateMachine cfg).after {} inputs).pauseKey hobs)
        ((gateMachine cfg).outputs {} inputs) →
      ((gateMachine cfg).after {} (inputs ++ .hook hobs now :: rest)).hookPendingKey =
          some (((gateMachine cfg).after {} inputs).pauseKey hobs) ∧
        ((gateMachine cfg).after {} (inputs ++ .hook hobs now :: rest)).hookPendingKind =
          some .modalChoice) ∧
    (AnsweredSince (((gateMachine cfg).after {} inputs).pauseKey hobs)
        ((gateMachine cfg).outputs {} inputs) →
      ((gateMachine cfg).after {} (inputs ++ .hook hobs now :: rest)).hookPendingKey =
          ((gateMachine cfg).after {} inputs).hookPendingKey ∧
        ((gateMachine cfg).after {} (inputs ++ .hook hobs now :: rest)).hookPendingKind =
          ((gateMachine cfg).after {} inputs).hookPendingKind)
  /-- The permission request and the question modal of one tool call: whichever arrives first, the
  engine is in the same state then, and so after whatever follows. -/
  anyOrder : ∀ digest inputs rest (modal request : HookEvent) t₁ t₂,
    modal.event = "PreToolUse" → modal.toolName = some "AskUserQuestion" →
    request.event = "PermissionRequest" → request.toolName = modal.toolName →
    request.toolInput = modal.toolInput →
    (gateMachine cfg).after {} (inputs ++ .hook (normalizeClaudeHook digest modal) t₁ ::
        .hook (normalizeClaudeHook digest request) t₂ :: rest) =
      (gateMachine cfg).after {} (inputs ++ .hook (normalizeClaudeHook digest request) t₁ ::
        .hook (normalizeClaudeHook digest modal) t₂ :: rest)

/-- After any run that left the epoch open, the engine's tombstones are the gates answered since. -/
theorem tracked (inputs : List Input)
    (unfinished : ((gateMachine cfg).after {} inputs).turnClosed = false) (key : DecisionKey) :
    Tombs ((gateMachine cfg).after {} inputs) ∧
      (AnsweredSince key ((gateMachine cfg).outputs {} inputs) ↔
        key ∈ ((gateMachine cfg).after {} inputs).hookAnsweredIds) := by
  have fresh : Tracks key {} none := fun _ => ⟨⟨by simp, by simp, by simp⟩, by simp⟩
  have run := (tombstone key).meetsAt_outputs (gateMachine cfg) (fun _ _ => True)
    (fun st v i tracks => ⟨?_, tracks_step cfg i tracks⟩) fresh inputs
  · obtain ⟨tombs, stands⟩ := run.2 unfinished
    exact ⟨tombs, (answeredSince_iff key _).trans stands⟩
  · exact (Core.Slot.meetsAt_iff _ _ _ _).mpr fun _ _ _ _ => trivial

theorem gate_law : GateLaw cfg where
  swallowed_iff inputs hobs now pauses unfinished := by
    obtain ⟨tombs, answered⟩ := tracked cfg inputs unfinished
      (((gateMachine cfg).after {} inputs).pauseKey hobs)
    rw [answered]
    generalize (gateMachine cfg).after {} inputs = e at unfinished tombs
    constructor
    · rintro ⟨-, gone⟩
      by_contra fresh
      obtain ⟨asked, -⟩ := onHook_asked cfg now pauses unfinished rfl rfl (.inr fresh)
      exact gone asked.pending
    · intro stands
      have other : e.hookPendingKey ≠ some (e.pauseKey hobs) :=
        fun pending => tombs.apart _ pending stands
      rw [onHook_swallowed cfg now pauses unfinished rfl other stands]
      refine ⟨takeOver_noPublish cfg e now, ?_⟩
      exact (hookPendingKey_of_memory (takeOver_memory cfg e now)).trans_ne other
  otherwise inputs hobs now pauses unfinished unanswered := by
    obtain ⟨tombs, answered⟩ := tracked cfg inputs unfinished
      (((gateMachine cfg).after {} inputs).pauseKey hobs)
    rw [answered] at unanswered
    generalize (gateMachine cfg).after {} inputs = e at unfinished tombs unanswered
    rw [onHook_pending cfg now pauses unfinished rfl (.inr unanswered)]
    refine ⟨rfl, ?_⟩
    by_cases pending : e.hookPendingKey = some (e.pauseKey hobs)
    · exact .inl pending
    · refine .inr ⟨preferredPromptKind e.hookPendingKind hobs.promptKind, ?_⟩
      exact List.mem_append_right _ (by simp [pending])
  settles inputs hobs now rest pauses unfinished arrives modal := by
    obtain ⟨tombs, answered⟩ := tracked cfg inputs unfinished
      (((gateMachine cfg).after {} inputs).pauseKey hobs)
    rw [answered, Core.Machine.after_append, Core.Machine.after_cons]
    generalize (gateMachine cfg).after {} inputs = e at unfinished tombs arrives
    have stepped : ((gateMachine cfg).step e (.hook hobs now)).1 = (onHook cfg e hobs now).1 := rfl
    rw [stepped]
    constructor
    · intro fresh
      obtain ⟨asked, kind⟩ := onHook_asked cfg now pauses unfinished rfl rfl (.inr fresh)
      have seen : (∃ i ∈ rest, specific i = true) ∨
          (onHook cfg e hobs now).1.hookPendingKind = some .modalChoice := by
        obtain ⟨i, member, isModal⟩ := modal
        rcases List.mem_cons.mp member with rfl | later
        · exact .inr (kind.trans (preferred_specific (.inr (by simpa [specific] using isModal))))
        · exact .inl ⟨i, later, isModal⟩
      obtain ⟨settled, final⟩ := asked_arrivals cfg asked arrives seen
      exact ⟨settled.pending, final⟩
    · intro stands
      have other : e.hookPendingKey ≠ some (e.pauseKey hobs) :=
        fun pending => tombs.apart _ pending stands
      have spurned : Spurned e (e.pauseKey hobs) e := ⟨rfl, rfl, rfl, other, fun _ => stands⟩
      have first := spurned_arrival cfg spurned (i := .hook hobs now) ⟨pauses, rfl⟩
      have last := spurned_arrivals cfg first arrives
      exact ⟨last.pending, last.kind⟩
  anyOrder digest inputs rest modal request t₁ t₂ pre tool asks sameTool sameInput := by
    obtain ⟨pauses, kind, fp⟩ := normalize_modal digest pre tool
    obtain ⟨pauses', -, fp'⟩ := normalize_request digest asks
    have gate : (normalizeClaudeHook digest modal).gateFp =
        (normalizeClaudeHook digest request).gateFp := by rw [fp, fp', sameTool, sameInput]
    simp only [Core.Machine.after_append, Core.Machine.after_cons]
    congr 1
    exact hooks_commute cfg pauses pauses' gate kind t₁ t₂

end BeliefEngine

end Nelix.Daemon
