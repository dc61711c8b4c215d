import Nelix.Core.Machine
import Nelix.Daemon.BeliefSteps

/-!
# Runs of the belief engine

The engine as a machine over hooks, submits, ticks and hook announcements, in any order and at
any clock readings, and the life of a turn epoch: it is closed once, and stays closed and silent
until a `UserPromptSubmit` opens the next one.
-/
namespace Nelix.Daemon

/-- A call of the engine. -/
inductive Input
  | hook (hobs : HookObservation) (now : Time)
  | submit (now : Time)
  | tick (obs : Observation) (ctx : ObservationCtx) (now : Time)
  | expectHooks (now : Time)

/-- A hook that opens a new turn epoch. -/
def Input.opensTurn : Input → Bool
  | .hook hobs _ => hobs.opensTurn
  | _ => false

def Input.isTick : Input → Bool
  | .tick _ _ _ => true
  | _ => false

/-- What a caller sees of a call: the actions it applies, stamped with the epoch they came in,
the decisions that its submit answered, and the opening of an epoch. -/
inductive BeliefEvent
  | emitted (epoch : Nat) (a : Action)
  | answered (key : DecisionKey)
  | opened (epoch : Nat)
  deriving DecidableEq

def BeliefEvent.isPublish : BeliefEvent → Bool
  | .emitted _ a => a.isPublish
  | _ => false

def BeliefEvent.isIdle : BeliefEvent → Bool
  | .emitted _ a => a.isIdle
  | _ => false

def BeliefEvent.isWaiting : BeliefEvent → Bool
  | .emitted _ a => a.isWaiting
  | _ => false

/-- An idle publish of a given epoch. -/
def BeliefEvent.isIdleOf (epoch : Nat) : BeliefEvent → Bool
  | .emitted n a => n == epoch && a.isIdle
  | _ => false

namespace BeliefEngine

/-- The decisions that wait for an answer. -/
def pendingKeys (e : BeliefEngine) : List DecisionKey :=
  e.hookPendingKey.toList ++ e.publishedKey.toList

def react (cfg : BeliefConfig) (e : BeliefEngine) : Input → BeliefEngine × List Action
  | .hook hobs now => onHook cfg e hobs now
  | .submit now => (onSubmit cfg e now, [])
  | .tick obs ctx now => tick cfg e obs ctx now
  | .expectHooks now => (e.expectHooks now, [])

/-- The events of a call that no action carries. -/
def marks (e : BeliefEngine) : Input → List BeliefEvent
  | .hook hobs _ => if hobs.opensTurn then [.opened (e.turnEpoch + 1)] else []
  | .submit _ => e.pendingKeys.map .answered
  | _ => []

/-- The engine as a machine. -/
def machine (cfg : BeliefConfig) : Core.Machine BeliefEngine Input BeliefEvent where
  step e i := ((react cfg e i).1, (react cfg e i).2.map (.emitted e.turnEpoch) ++ marks e i)

theorem machine_state (cfg : BeliefConfig) (e : BeliefEngine) (i : Input) :
    ((machine cfg).step e i).1 = (react cfg e i).1 := rfl

theorem machine_events (cfg : BeliefConfig) (e : BeliefEngine) (i : Input) :
    ((machine cfg).step e i).2 =
      (react cfg e i).2.map (.emitted e.turnEpoch) ++ marks e i := rfl

/-- A property of the emitted actions is one of the emitted events. -/
theorem no_event {good : BeliefEvent → Bool} {bad : Action → Bool} (cfg : BeliefConfig)
    (e : BeliefEngine) (i : Input)
    (lifts : ∀ epoch a, bad a = false → good (.emitted epoch a) = false)
    (others : ∀ ev ∈ marks e i, good ev = false)
    (quiet : ∀ a ∈ (react cfg e i).2, bad a = false) :
    ∀ ev ∈ ((machine cfg).step e i).2, good ev = false := by
  intro ev member
  rw [machine_events] at member
  rcases List.mem_append.mp member with emitted | mark
  · obtain ⟨a, written, rfl⟩ := List.mem_map.mp emitted
    exact lifts e.turnEpoch a (quiet a written)
  · exact others ev mark

theorem marks_noPublish (e : BeliefEngine) (i : Input) :
    ∀ ev ∈ marks e i, ev.isPublish = false := by
  intro ev member
  cases i with
  | hook hobs now =>
    simp only [marks] at member
    split at member
    · simp only [List.mem_singleton] at member
      subst member
      rfl
    · simp at member
  | submit now =>
    obtain ⟨key, -, rfl⟩ := List.mem_map.mp member
    rfl
  | tick obs ctx now => simp [marks] at member
  | expectHooks now => simp [marks] at member

theorem marks_noIdle (e : BeliefEngine) (i : Input) : ∀ ev ∈ marks e i, ev.isIdle = false := by
  intro ev member
  have silent := marks_noPublish e i ev member
  cases ev with
  | emitted epoch a =>
    cases a with
    | publish p => simp [BeliefEvent.isPublish, Action.isPublish] at silent
    | withdraw key reason => rfl
    | finalize => rfl
  | answered key => rfl
  | opened epoch => rfl

/-! ### The life of an epoch -/

/-- A closed epoch is idle or over, hooks own it and no turn is open; no later epoch is closed. -/
structure EpochsOk (e : BeliefEngine) : Prop where
  active : e.turnClosed = true → e.hookMode = .active
  shut : e.turnClosed = true → e.turnOpen = false
  rests : e.turnClosed = true →
    e.state.controlState = .idle ∨ e.state.controlState = .terminal
  past : ∀ n, e.idlePublishedEpoch = some n → n ≤ e.turnEpoch

theorem turnClosed_iff (e : BeliefEngine) :
    e.turnClosed = true ↔ e.idlePublishedEpoch = some e.turnEpoch := by
  simp [turnClosed]

theorem epochsOk_fresh : EpochsOk {} where
  active closed := by simp [turnClosed] at closed
  shut closed := by simp [turnClosed] at closed
  rests closed := by simp [turnClosed] at closed
  past n closed := by simp at closed

namespace EpochsOk

variable {e e' : BeliefEngine}

/-- Only what a closed epoch promises has to be shown again where the hook memory is kept. -/
theorem of_memory (ok : EpochsOk e) (memory : e'.hookMemory = e.hookMemory)
    (mode : e.turnClosed = true → e'.hookMode = .active)
    (rests : e.turnClosed = true →
      e'.state.controlState = .idle ∨ e'.state.controlState = .terminal) : EpochsOk e' where
  active closed := mode (turnClosed_of_memory memory ▸ closed)
  shut closed := by
    rw [turnOpen_of_memory memory]
    exact ok.shut (turnClosed_of_memory memory ▸ closed)
  rests closed := rests (turnClosed_of_memory memory ▸ closed)
  past n closed := by
    rw [turnEpoch_of_memory memory]
    exact ok.past n (idlePublishedEpoch_of_memory memory ▸ closed)

theorem of_core (ok : EpochsOk e) (same : e'.core = e.core) : EpochsOk e' :=
  ok.of_memory (hookMemory_of_core same)
    (fun closed => (hookMode_of_core same).trans (ok.active closed))
    (fun closed => by rw [controlState_of_core same]; exact ok.rests closed)

/-- An epoch that is still running promises nothing. -/
theorem of_running (ok : EpochsOk e) (running : e.turnClosed = false)
    (epoch : e'.turnEpoch = e.turnEpoch)
    (idleEpoch : e'.idlePublishedEpoch = e.idlePublishedEpoch) : EpochsOk e' := by
  have running' : e'.turnClosed = false := by
    rw [turnClosed, epoch, idleEpoch]
    exact running
  exact
    { active := fun closed => by simp [running'] at closed
      shut := fun closed => by simp [running'] at closed
      rests := fun closed => by simp [running'] at closed
      past := fun n closed => by rw [epoch]; exact ok.past n (idleEpoch ▸ closed) }

theorem running_of_runsOn (ok : EpochsOk e) (free : e.runsOn = true) : e.turnClosed = false := by
  rw [Bool.eq_false_iff]
  intro closed
  rcases ok.rests closed with idle | terminal
  · simp [runsOn, idle] at free
  · simp [runsOn, terminal] at free

theorem running_of_hookless (ok : EpochsOk e) (hookless : e.hookMode ≠ .active) :
    e.turnClosed = false :=
  Bool.eq_false_iff.mpr fun closed => hookless (ok.active closed)

end EpochsOk

theorem takeOver_epochs (cfg : BeliefConfig) {e : BeliefEngine} (ok : EpochsOk e) (now : Time) :
    EpochsOk (takeOver cfg e now).1 :=
  ok.of_memory (takeOver_memory cfg e now) (fun _ => takeOver_mode cfg e now)
    (fun closed => by rw [takeOver_controlState]; exact ok.rests closed)

theorem hookEffect_epochs {e : BeliefEngine} {hobs : HookObservation}
    {r : BeliefEngine × List Action} (ok : EpochsOk e) (active : e.hookMode = .active)
    (effect : HookEffect e hobs r) : EpochsOk r.1 := by
  cases effect with
  | opened opens =>
    have fresh : e.openTurn.turnClosed = false := by
      rw [Bool.eq_false_iff]
      intro closed
      have late := ok.past _ ((turnClosed_iff e.openTurn).mp closed)
      simp only [openTurn, setControl] at late
      omega
    exact
      { active := fun closed => by simp [fresh] at closed
        shut := fun closed => by simp [fresh] at closed
        rests := fun closed => by simp [fresh] at closed
        past := fun n closed => Nat.le_succ_of_le (ok.past n closed) }
  | ignored keeps => exact ok
  | closed keeps unfinished =>
    obtain ⟨epoch, isOpen, idleEpoch, mode, -⟩ := dropPending_frame e.endEpoch .superseded
    exact
      { active := fun _ => mode.trans active
        shut := fun _ => isOpen
        rests := fun _ => .inl rfl
        past := fun n closed => by
          have spent : some e.turnEpoch = some n := idleEpoch.symm.trans closed
          exact le_of_eq ((Option.some.inj spent).symm.trans epoch.symm) }
  | cleared keeps unfinished =>
    obtain ⟨epoch, -, idleEpoch, -, -⟩ := dropPending_frame e .promptLeft
    exact ok.of_running unfinished epoch idleEpoch
  | gated key kind actions keeps unfinished emits => exact ok.of_running unfinished rfl rfl
  | straggled keeps unfinished => exact ok.of_running unfinished rfl rfl
  | worked keeps isOpen answered =>
    have running : e.turnClosed = false :=
      Bool.eq_false_iff.mpr fun closed => by simp [ok.shut closed] at isOpen
    exact ok.of_running running rfl rfl

theorem tickEffect_epochs {cfg : BeliefConfig} {e : BeliefEngine} {obs : Observation}
    {ctx : ObservationCtx} {now : Time} {r : BeliefEngine × List Action} (ok : EpochsOk e)
    (effect : TickEffect cfg e obs ctx now r) : EpochsOk r.1 := by
  cases effect with
  | terminal e' same dead =>
    have memory : e'.hookMemory = e.hookMemory := hookMemory_of_core same
    have mode : e'.hookMode = e.hookMode := hookMode_of_core same
    exact ok.of_memory memory (fun closed => mode.trans (ok.active closed)) (fun _ => .inr rfl)
  | held e' same active owned => exact ok.of_core same
  | reconciled e' same settled =>
    have mode : e.hookMode = .active := by
      simp only [reconciles, Bool.and_eq_true, beq_iff_eq] at settled
      exact settled.1.1.1.2
    exact
      { active := fun _ => (hookMode_of_core same).trans mode
        shut := fun _ => rfl
        rests := fun _ => .inl rfl
        past := fun n closed => le_of_eq (Option.some.inj closed).symm }
  | watched e' actions active free unsettled mode memory published goesOn advisories =>
    exact ok.of_running (ok.running_of_runsOn free) (turnEpoch_of_memory memory)
      (idlePublishedEpoch_of_memory memory)
  | screen r hookless fallback memory shown noIdle =>
    exact ok.of_running (ok.running_of_hookless hookless) (turnEpoch_of_memory memory)
      (idlePublishedEpoch_of_memory memory)

theorem step_epochs (cfg : BeliefConfig) {e : BeliefEngine} (ok : EpochsOk e) (i : Input) :
    EpochsOk ((machine cfg).step e i).1 := by
  rw [machine_state]
  cases i with
  | hook hobs now =>
    have body : EpochsOk ((takeOver cfg e now).1.hookBody hobs).1 :=
      hookEffect_epochs (takeOver_epochs cfg ok now) (takeOver_mode cfg e now)
        (hookBody_effect _ hobs)
    exact body
  | submit now => exact ⟨ok.active, ok.shut, ok.rests, ok.past⟩
  | tick obs ctx now => exact tickEffect_epochs ok (tick_effect cfg e obs ctx now)
  | expectHooks now =>
    simp only [react, expectHooks]
    split
    · exact ⟨ok.active, ok.shut, ok.rests, ok.past⟩
    · exact ok

/-! ### Rest -/

/-- The engine rests only where it closed the epoch. -/
structure Rests (e : BeliefEngine) : Prop where
  epochs : EpochsOk e
  closed : e.state.controlState = .idle → e.turnClosed = true

theorem rests_fresh : Rests {} where
  epochs := epochsOk_fresh
  closed idle := by simp at idle

/-- A hook that ends the running epoch. -/
def endsTurn (e : BeliefEngine) (hobs : HookObservation) : Bool :=
  !hobs.opensTurn && hobs.closesTurn && !e.turnClosed

theorem Rests.submit {e : BeliefEngine} (rests : Rests e) (cfg : BeliefConfig) (now : Time) :
    Rests (e.onSubmit cfg now) :=
  ⟨⟨rests.epochs.active, rests.epochs.shut, rests.epochs.rests, rests.epochs.past⟩, rests.closed⟩

theorem Rests.notes {e : BeliefEngine} (rests : Rests e) : Rests e.drainNotes.1 :=
  ⟨⟨rests.epochs.active, rests.epochs.shut, rests.epochs.rests, rests.epochs.past⟩, rests.closed⟩

/-- What a hook does to the rest of the engine: it keeps it, it ends the turn, or it leaves the
engine awake, busy where it woke it up. -/
theorem onHook_rest (cfg : BeliefConfig) {e : BeliefEngine} (rests : Rests e)
    (hobs : HookObservation) (now : Time) :
    (e.state.controlState = .idle ∧ (onHook cfg e hobs now).1.state.controlState = .idle ∧
        (onHook cfg e hobs now).2 = []) ∨
      (e.state.controlState ≠ .idle ∧ (onHook cfg e hobs now).1.state.controlState = .idle ∧
        e.endsTurn hobs = true ∧
        (onHook cfg e hobs now).2 = (takeOver cfg e now).2 ++ (e.dropPending .superseded).2 ++
          [idlePublish e.turnEpoch hobs.interrupted none]) ∨
      ((onHook cfg e hobs now).1.state.controlState ≠ .idle ∧
        (e.state.controlState = .idle → (onHook cfg e hobs now).1.state.controlState = .busy)) := by
  have control := takeOver_controlState cfg e now
  have memory := takeOver_memory cfg e now
  have closed : (takeOver cfg e now).1.turnClosed = e.turnClosed := turnClosed_of_memory memory
  have quiet : e.state.controlState = .idle → (takeOver cfg e now).2 = [] := by
    intro idle
    rw [takeOver_active cfg e now (rests.epochs.active (rests.closed idle))]
  have asleep : (takeOver cfg e now).1.turnClosed = false → e.state.controlState ≠ .idle := by
    intro running idle
    rw [closed, rests.closed idle] at running
    simp at running
  have effect := hookBody_effect (takeOver cfg e now).1 hobs
  simp only [onHook, andThen]
  generalize (takeOver cfg e now).1.hookBody hobs = r at effect ⊢
  cases effect with
  | opened opens =>
    exact .inr (.inr ⟨by simp [openTurn, setControl], fun _ => rfl⟩)
  | ignored keeps =>
    by_cases idle : e.state.controlState = .idle
    · exact .inl ⟨idle, control.trans idle, by simp [quiet idle]⟩
    · exact .inr (.inr ⟨control ▸ idle, fun rested => absurd rested idle⟩)
  | closed keeps unfinished closes =>
    have pending : (takeOver cfg e now).1.hookPendingKey = e.hookPendingKey :=
      hookPendingKey_of_memory memory
    have same : ((takeOver cfg e now).1.endEpoch.dropPending .superseded).2 =
        (e.dropPending .superseded).2 := by
      simp only [dropPending, endEpoch, pending]
      split <;> rfl
    have ends : e.endsTurn hobs = true := by
      simp only [endsTurn, keeps, closes, ← closed, unfinished]
      rfl
    refine .inr (.inl ⟨asleep unfinished, rfl, ends, ?_⟩)
    rw [same, turnEpoch_of_memory memory, List.append_assoc]
  | cleared keeps unfinished =>
    exact .inr (.inr ⟨by simp [resumeTurn, setControl], fun idle => (asleep unfinished idle).elim⟩)
  | gated key kind actions keeps unfinished emits =>
    exact .inr (.inr ⟨by simp [awaitGate, setControl], fun idle => (asleep unfinished idle).elim⟩)
  | straggled keeps unfinished =>
    exact .inr (.inr ⟨by simp [resumeTurn, setControl], fun idle => (asleep unfinished idle).elim⟩)
  | worked keeps isOpen answered => exact .inr (.inr ⟨by simp [setControl], fun _ => rfl⟩)

/-- What a tick of a living session does to the rest of the engine. -/
theorem tick_rest (cfg : BeliefConfig) {e : BeliefEngine} (rests : Rests e) (obs : Observation)
    {ctx : ObservationCtx} (now : Time) (living : terminalTick obs ctx = false) :
    (e.state.controlState = .idle ∧ (tick cfg e obs ctx now).1.state.controlState = .idle ∧
        (tick cfg e obs ctx now).2 = []) ∨
      (e.state.controlState ≠ .idle ∧ (tick cfg e obs ctx now).1.state.controlState = .idle ∧
        (tick cfg e obs ctx now).2 = [idlePublish e.turnEpoch false (some true)]) ∨
      (e.state.controlState ≠ .idle ∧ (tick cfg e obs ctx now).1.state.controlState ≠ .idle) := by
  have effect := tick_effect cfg e obs ctx now
  have awake_of_runsOn : ∀ e : BeliefEngine, e.runsOn = true → e.state.controlState ≠ .idle := by
    intro e runs idle
    simp [runsOn, idle] at runs
  generalize tick cfg e obs ctx now = r at effect ⊢
  cases effect with
  | terminal e' same dead => simp [dead] at living
  | held e' same active owned =>
    have control : e'.state.controlState = e.state.controlState := controlState_of_core same
    by_cases idle : e.state.controlState = .idle
    · exact .inl ⟨idle, control.trans idle, rfl⟩
    · exact .inr (.inr ⟨idle, control ▸ idle⟩)
  | reconciled e' same settled =>
    have runs : e.runsOn = true := by
      simp only [reconciles, Bool.and_eq_true] at settled
      exact settled.1.1.2
    exact .inr (.inl ⟨awake_of_runsOn e runs, rfl, rfl⟩)
  | watched e' actions active free unsettled mode memory published goesOn advisories =>
    exact .inr (.inr ⟨awake_of_runsOn e free, awake_of_runsOn e' goesOn⟩)
  | screen r hookless fallback memory shown noIdle awake =>
    have running : e.state.controlState ≠ .idle := by
      intro idle
      exact hookless (rests.epochs.active (rests.closed idle))
    exact .inr (.inr ⟨running, awake⟩)

theorem onHook_rests (cfg : BeliefConfig) {e : BeliefEngine} (rests : Rests e)
    (hobs : HookObservation) (now : Time) : Rests (onHook cfg e hobs now).1 where
  epochs := step_epochs cfg rests.epochs (.hook hobs now)
  closed idle := by
    have active := takeOver_mode cfg e now
    have memory := takeOver_memory cfg e now
    have control := takeOver_controlState cfg e now
    have effect := hookBody_effect (takeOver cfg e now).1 hobs
    simp only [onHook, andThen] at idle ⊢
    generalize (takeOver cfg e now).1.hookBody hobs = r at effect idle ⊢
    cases effect with
    | opened opens => simp [openTurn, setControl] at idle
    | ignored keeps =>
      rw [turnClosed_of_memory memory]
      exact rests.closed (control ▸ idle)
    | closed keeps unfinished closes =>
      obtain ⟨epoch, -, idleEpoch, -, -⟩ :=
        dropPending_frame (takeOver cfg e now).1.endEpoch .superseded
      simp only [turnClosed, setControl, epoch, idleEpoch]
      simp [endEpoch]
    | cleared keeps unfinished => simp [resumeTurn, setControl] at idle
    | gated key kind actions keeps unfinished emits => simp [awaitGate, setControl] at idle
    | straggled keeps unfinished => simp [resumeTurn, setControl] at idle
    | worked keeps isOpen answered => simp [setControl] at idle

theorem tick_rests (cfg : BeliefConfig) {e : BeliefEngine} (rests : Rests e) (obs : Observation)
    (ctx : ObservationCtx) (now : Time) : Rests (tick cfg e obs ctx now).1 where
  epochs := step_epochs cfg rests.epochs (.tick obs ctx now)
  closed idle := by
    have effect := tick_effect cfg e obs ctx now
    generalize tick cfg e obs ctx now = r at effect idle ⊢
    cases effect with
    | terminal e' same dead => simp [setControl] at idle
    | held e' same active owned =>
      rw [turnClosed_of_memory (hookMemory_of_core same)]
      exact rests.closed (controlState_of_core same ▸ idle)
    | reconciled e' same settled => simp [turnClosed, reconcileIdle, setControl, forgetPrompt]
    | watched e' actions active free unsettled mode memory published goesOn advisories =>
      have idle : e'.state.controlState = .idle := idle
      simp [runsOn, idle] at goesOn
    | screen r hookless fallback memory shown noIdle awake => exact absurd idle awake

theorem epochsOk_after (cfg : BeliefConfig) {e : BeliefEngine} (ok : EpochsOk e)
    (inputs : List Input) : EpochsOk ((machine cfg).after e inputs) :=
  (machine cfg).invariant_after EpochsOk (fun _ i ok => step_epochs cfg ok i) ok inputs

end BeliefEngine

end Nelix.Daemon
