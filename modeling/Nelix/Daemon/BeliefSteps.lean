import Nelix.Daemon.Belief

/-!
# What one engine call can do

The hook memory (epoch, pending gate, tombstones, closed epoch) is written by the hook branches,
by `onSubmit` and by the lost-`Stop` reconciliation only; every other function of a tick keeps
it. `TickEffect` and `HookEffect` list what a tick and a hook can do.
-/
namespace Nelix.Daemon

/-! ### Kinds of actions -/

/-- A publish the user can answer. -/
def Publish.asks (p : Publish) : Bool := p.kind == .waitingForUser && p.respondable

/-- The respondable decision a caller shows after an action: a new one supersedes the old one,
a withdraw takes down the one it names. -/
def Action.show (shown : Option DecisionKey) : Action → Option DecisionKey
  | .publish p => if p.asks then some p.decisionKey else shown
  | .withdraw key _ => if shown = some key then none else shown
  | .finalize => shown

def shownAfter (shown : Option DecisionKey) (actions : List Action) : Option DecisionKey :=
  actions.foldl Action.show shown

@[simp] theorem shownAfter_nil (shown : Option DecisionKey) : shownAfter shown [] = shown := rfl

@[simp] theorem shownAfter_cons (shown : Option DecisionKey) (a : Action) (rest : List Action) :
    shownAfter shown (a :: rest) = shownAfter (a.show shown) rest := rfl

theorem shownAfter_append (shown : Option DecisionKey) (xs ys : List Action) :
    shownAfter shown (xs ++ ys) = shownAfter (shownAfter shown xs) ys :=
  List.foldl_append

/-- A needs-attention publish. -/
def Action.isAdvisory : Action → Bool
  | .publish p => p.kind == .interventionRequired && !p.respondable
  | _ => false

def Action.isIdle : Action → Bool
  | .publish p => p.kind == .idle
  | _ => false

def Action.isWaiting : Action → Bool
  | .publish p => p.kind == .waitingForUser
  | _ => false

def Action.isPublish : Action → Bool
  | .publish _ => true
  | _ => false

theorem Action.isAdvisory_iff (a : Action) :
    a.isAdvisory = true ↔
      ∃ p, a = .publish p ∧ p.kind = .interventionRequired ∧ p.respondable = false := by
  cases a <;> simp [isAdvisory]

theorem Action.show_advisory {a : Action} (advisory : a.isAdvisory = true)
    (shown : Option DecisionKey) : a.show shown = shown := by
  obtain ⟨p, rfl, kind, -⟩ := a.isAdvisory_iff.mp advisory
  simp [Action.show, Publish.asks, kind]

theorem Action.isIdle_advisory {a : Action} (advisory : a.isAdvisory = true) :
    a.isIdle = false := by
  obtain ⟨p, rfl, kind, -⟩ := a.isAdvisory_iff.mp advisory
  simp [isIdle, kind]

theorem Action.isWaiting_advisory {a : Action} (advisory : a.isAdvisory = true) :
    a.isWaiting = false := by
  obtain ⟨p, rfl, kind, -⟩ := a.isAdvisory_iff.mp advisory
  simp [isWaiting, kind]

theorem shownAfter_advisories {actions : List Action}
    (advisories : ∀ a ∈ actions, a.isAdvisory = true) (shown : Option DecisionKey) :
    shownAfter shown actions = shown := by
  induction actions with
  | nil => rfl
  | cons a rest ih =>
    rw [shownAfter_cons, Action.show_advisory (advisories a (by simp)),
      ih (fun b member => advisories b (by simp [member]))]

/-- The part of the engine that hooks own. -/
structure HookMemory where
  epoch : Nat
  isOpen : Bool
  pending : Option DecisionKey
  pendingKind : Option PromptKind
  answered : Finset DecisionKey
  idleEpoch : Option Nat

namespace BeliefEngine

def hookMemory (e : BeliefEngine) : HookMemory :=
  ⟨e.turnEpoch, e.turnOpen, e.hookPendingKey, e.hookPendingKind, e.hookAnsweredIds,
    e.idlePublishedEpoch⟩

/-- What the throttles, timestamps and notes of a tick never touch. -/
def core (e : BeliefEngine) : HookMode × HookMemory × Option DecisionKey × ControlState :=
  (e.hookMode, e.hookMemory, e.publishedKey, e.state.controlState)

section Frames

variable (cfg : BeliefConfig) (e : BeliefEngine) (obs : Observation) (now : Time)

@[simp] theorem setPhase_core (phase : Phase) : (e.setPhase phase).core = e.core := rfl

@[simp] theorem setIntervention_core (active : Bool) :
    (e.setIntervention active).core = e.core := rfl

@[simp] theorem leavePrompt_core : e.leavePrompt.core = e.core := rfl

@[simp] theorem clearEcho_core : e.clearEcho.core = e.core := rfl

@[simp] theorem forgetPrompt_core : e.forgetPrompt.core = e.core := rfl

@[simp] theorem refreshFields_core : (refreshFields cfg e obs now).core = e.core := rfl

@[simp] theorem armNag_core (nextAt : Time) : (e.armNag nextAt).core = e.core := rfl

@[simp] theorem endPostSubmit_core (reason : ClearReason) :
    (e.endPostSubmit reason).core = e.core := rfl

@[simp] theorem trackSemantic_core : (e.trackSemantic obs now).core = e.core := by
  unfold trackSemantic
  split <;> rfl

@[simp] theorem trackHeartbeat_core : (e.trackHeartbeat obs now).core = e.core := by
  unfold trackHeartbeat
  split
  · rfl
  · split <;> rfl

@[simp] theorem suppressed_core (reason : SuppressReason) :
    (e.suppressed reason).core = e.core := by
  unfold suppressed
  split <;> rfl

@[simp] theorem postSubmitBaseline_core : (e.postSubmitBaseline obs).core = e.core := by
  unfold postSubmitBaseline
  split <;> rfl

@[simp] theorem clockEcho_core : (e.clockEcho now).core = e.core := by
  unfold clockEcho
  split <;> rfl

@[simp] theorem trackCandidate_core : (e.trackCandidate obs now).core = e.core := by
  unfold trackCandidate
  dsimp only
  split <;> rfl

@[simp] theorem trackHookProgress_core : (e.trackHookProgress obs now).core = e.core := by
  unfold trackHookProgress
  split
  · rfl
  · split <;> rfl

@[simp] theorem watchPrompt_core : (e.watchPrompt obs now).core = e.core := by
  unfold watchPrompt
  dsimp only
  split <;> rfl

@[simp] theorem updatePostSubmit_core : (updatePostSubmit cfg e obs now).core = e.core := by
  unfold updatePostSubmit
  split
  · rfl
  · dsimp only
    split
    · simp
    · split
      · simp
      · split <;> simp

@[simp] theorem nag_core (phase : Phase) (hint : Hint) :
    (nag cfg e obs now phase hint).1.core = e.core := rfl

@[simp] theorem escalate_core (phase : Phase) (hint : Hint) :
    (escalate cfg e obs now phase hint).1.core = e.core := by
  unfold escalate
  dsimp only
  split <;> simp

@[simp] theorem watchdog_core : (watchdog cfg e obs now).1.core = e.core := by
  unfold watchdog
  split <;> simp

variable {e} {e' : BeliefEngine}

theorem hookMode_of_core (same : e'.core = e.core) : e'.hookMode = e.hookMode :=
  congrArg Prod.fst same

theorem hookMemory_of_core (same : e'.core = e.core) : e'.hookMemory = e.hookMemory :=
  congrArg (·.2.1) same

theorem publishedKey_of_core (same : e'.core = e.core) : e'.publishedKey = e.publishedKey :=
  congrArg (·.2.2.1) same

theorem controlState_of_core (same : e'.core = e.core) :
    e'.state.controlState = e.state.controlState :=
  congrArg (·.2.2.2) same

theorem turnEpoch_of_memory (same : e'.hookMemory = e.hookMemory) :
    e'.turnEpoch = e.turnEpoch := congrArg HookMemory.epoch same

theorem turnOpen_of_memory (same : e'.hookMemory = e.hookMemory) :
    e'.turnOpen = e.turnOpen := congrArg HookMemory.isOpen same

theorem hookPendingKey_of_memory (same : e'.hookMemory = e.hookMemory) :
    e'.hookPendingKey = e.hookPendingKey := congrArg HookMemory.pending same

theorem idlePublishedEpoch_of_memory (same : e'.hookMemory = e.hookMemory) :
    e'.idlePublishedEpoch = e.idlePublishedEpoch := congrArg HookMemory.idleEpoch same

theorem turnClosed_of_memory (same : e'.hookMemory = e.hookMemory) :
    e'.turnClosed = e.turnClosed := by
  unfold turnClosed
  rw [idlePublishedEpoch_of_memory same, turnEpoch_of_memory same]

end Frames

section Advisories

variable (cfg : BeliefConfig) (e : BeliefEngine) (obs : Observation) (now : Time)

theorem escalate_advisory (phase : Phase) (hint : Hint) :
    ∀ a ∈ (escalate cfg e obs now phase hint).2, a.isAdvisory = true := by
  unfold escalate
  dsimp only
  split
  · simp [nag, Action.isAdvisory]
  · simp

theorem watchdog_advisory : ∀ a ∈ (watchdog cfg e obs now).2, a.isAdvisory = true := by
  unfold watchdog
  split
  · simp
  · exact escalate_advisory cfg e obs now _ _

end Advisories

/-! ### The screen path -/

/-- A piece of the screen path: it keeps the hook memory, its actions turn the decision that was
on display into the one the engine now records, and it publishes no idle. -/
structure ScreenStep (e : BeliefEngine) (r : BeliefEngine × List Action) : Prop where
  mode : r.1.hookMode = e.hookMode
  memory : r.1.hookMemory = e.hookMemory
  shown : shownAfter e.publishedKey r.2 = r.1.publishedKey
  noIdle : ∀ a ∈ r.2, a.isIdle = false

namespace ScreenStep

variable {e e' : BeliefEngine} {r : BeliefEngine × List Action}

theorem of_core (same : r.1.core = e.core) (advisories : ∀ a ∈ r.2, a.isAdvisory = true) :
    ScreenStep e r where
  mode := hookMode_of_core same
  memory := hookMemory_of_core same
  shown := by rw [shownAfter_advisories advisories, publishedKey_of_core same]
  noIdle a member := Action.isIdle_advisory (advisories a member)

theorem andThen {next : BeliefEngine → BeliefEngine × List Action} (first : ScreenStep e r)
    (second : ScreenStep r.1 (next r.1)) : ScreenStep e (andThen r next) where
  mode := second.mode.trans first.mode
  memory := second.memory.trans first.memory
  shown := by
    simp only [BeliefEngine.andThen, shownAfter_append, first.shown]
    exact second.shown
  noIdle a member := by
    rcases List.mem_append.mp member with old | new
    · exact first.noIdle a old
    · exact second.noIdle a new

/-- Bookkeeping before a piece does not count. -/
theorem after (same : e'.core = e.core) (next : ScreenStep e' r) : ScreenStep e r where
  mode := next.mode.trans (hookMode_of_core same)
  memory := next.memory.trans (hookMemory_of_core same)
  shown := by rw [← publishedKey_of_core same]; exact next.shown
  noIdle := next.noIdle

end ScreenStep

section Screen

variable (cfg : BeliefConfig) (e : BeliefEngine) (obs : Observation) (now : Time)

theorem withdraw_screen (reason : WithdrawReason) :
    ScreenStep e (withdraw cfg e reason now) := by
  unfold withdraw
  split
  next key published =>
    exact ⟨rfl, rfl, by simp [Action.show, forgetPublished, published], by simp [Action.isIdle]⟩
  next => exact .of_core rfl (by simp)

theorem withdraw_publishedKey (reason : WithdrawReason) :
    (withdraw cfg e reason now).1.publishedKey = none := by
  unfold withdraw
  split
  next => rfl
  next nothing => exact nothing

theorem publishDecision_screen (key : DecisionKey) :
    ScreenStep e (e.publishDecision obs key) :=
  ⟨rfl, rfl, by simp [publishDecision, Action.show, Publish.asks],
    by simp [publishDecision, Action.isIdle]⟩

theorem suppressed_screen (reason : SuppressReason) : ScreenStep e (e.suppressed reason, []) :=
  .of_core (suppressed_core e reason) (by simp)

theorem confirmFreeText_screen (key : DecisionKey) :
    ScreenStep e (confirmFreeText cfg e obs now key) := by
  unfold confirmFreeText
  split
  · -- the echo is still in the box: suppressed, or an advisory
    refine .after (clockEcho_core e now) ?_
    dsimp only
    split
    · exact suppressed_screen _ _
    · exact .of_core (escalate_core cfg _ obs now _ _) (escalate_advisory cfg _ obs now _ _)
  · refine .after (clearEcho_core e) ?_
    dsimp only
    split
    · exact suppressed_screen _ _
    · split
      · exact suppressed_screen _ _
      · split
        · exact suppressed_screen _ _
        · exact publishDecision_screen _ obs key

theorem offerPrompt_screen : ScreenStep e (offerPrompt cfg e obs now) := by
  unfold offerPrompt
  have tracked : ((e.trackCandidate obs now).setPhase .pauseCandidate).core = e.core := by simp
  refine .after tracked ?_
  dsimp only
  split
  · exact publishDecision_screen _ obs _
  · split
    · exact suppressed_screen _ _
    · exact confirmFreeText_screen cfg _ obs now _

theorem onPrompt_screen : ScreenStep e (onPrompt cfg e obs now) := by
  have offer : ∀ e : BeliefEngine, ScreenStep e
      (if e.publishedKey.isSome then (e.setPhase .pauseCandidate, [])
        else offerPrompt cfg e obs now) := by
    intro e
    split
    · exact .of_core (setPhase_core e _) (by simp)
    · exact offerPrompt_screen cfg e obs now
  unfold onPrompt
  refine .after (setIntervention_core e false) (.andThen ?_ (offer _))
  split
  · exact withdraw_screen cfg _ now _
  · exact .of_core rfl (by simp)

theorem onBusy_screen : ScreenStep e (onBusy cfg e obs now) := by
  refine .andThen (withdraw_screen cfg e now _) (.after (leavePrompt_core _) ?_)
  exact .of_core (watchdog_core cfg _ obs now) (watchdog_advisory cfg _ obs now)

theorem tickScreen_screen : ScreenStep e (tickScreen cfg e obs now) := by
  have refresh : ∀ r : BeliefEngine × List Action, ScreenStep e r →
      ScreenStep e (refreshState cfg r.1 obs now, r.2) := fun r step =>
    ⟨step.mode, step.memory, step.shown, step.noIdle⟩
  refine refresh _ (.after (updatePostSubmit_core cfg e obs now) ?_)
  split
  · exact onPrompt_screen cfg _ obs now
  · exact onBusy_screen cfg _ obs now

end Screen

/-! ### Ticks -/

section Ticks

variable (cfg : BeliefConfig) (e : BeliefEngine) (obs : Observation) (ctx : ObservationCtx)
  (now : Time)

@[simp] theorem track_core : (e.track obs now).core = e.core := by simp [track]

/-- The hooks leave it to the screen whether the turn goes on. -/
def runsOn (e : BeliefEngine) : Bool :=
  e.state.controlState == .busy || e.state.controlState == .interventionRequired

/-- A tick closes the epoch in place of a `Stop` that was lost. -/
def reconciles (e : BeliefEngine) (obs : Observation) (ctx : ObservationCtx) (now : Time) : Bool :=
  !terminalTick obs ctx && e.hookMode == .active && e.runsOn && obs.promptKind == .freeText &&
    lostStopSettled cfg (e.watchPrompt obs now) now

/-- What the reconciliation reads apart from the core. -/
def promptClock (e : BeliefEngine) : Option String × Option Time × Option Time :=
  (e.reconcileFp, e.reconcileSince, e.lastHookAt)

@[simp] theorem track_promptClock : (e.track obs now).promptClock = e.promptClock := by
  unfold track trackHeartbeat trackSemantic
  split <;> split <;> try split
  all_goals rfl

theorem settled_of_promptClock {e e' : BeliefEngine} (same : e'.promptClock = e.promptClock) :
    lostStopSettled cfg (e'.watchPrompt obs now) now =
      lostStopSettled cfg (e.watchPrompt obs now) now := by
  simp only [promptClock, Prod.mk.injEq] at same
  simp only [lostStopSettled, watchPrompt, same.1]
  split <;> simp [same.2]

theorem runsOn_of_core {e e' : BeliefEngine} (same : e'.core = e.core) :
    e'.runsOn = e.runsOn := by
  unfold runsOn
  rw [controlState_of_core same]

/-- What a tick can do. -/
inductive TickEffect : BeliefEngine × List Action → Prop
  | terminal (e' : BeliefEngine) (same : e'.core = e.core) (dead : terminalTick obs ctx = true) :
      TickEffect (e'.setControl .terminal .terminal, [.finalize])
  | held (e' : BeliefEngine) (same : e'.core = e.core) (active : e.hookMode = .active)
      (owned : e.runsOn = false) : TickEffect (e', [])
  | reconciled (e' : BeliefEngine) (same : e'.core = e.core)
      (settled : reconciles cfg e obs ctx now = true) :
      TickEffect (e'.reconcileIdle, [idlePublish e.turnEpoch false (some true)])
  | watched (e' : BeliefEngine) (actions : List Action) (active : e.hookMode = .active)
      (free : e.runsOn = true) (unsettled : reconciles cfg e obs ctx now = false)
      (mode : e'.hookMode = .active) (memory : e'.hookMemory = e.hookMemory)
      (published : e'.publishedKey = e.publishedKey) (goesOn : e'.runsOn = true)
      (advisories : ∀ a ∈ actions, a.isAdvisory = true) : TickEffect (e', actions)
  | screen (r : BeliefEngine × List Action) (hookless : e.hookMode ≠ .active)
      (fallback : r.1.hookMode ≠ .active) (memory : r.1.hookMemory = e.hookMemory)
      (shown : shownAfter e.publishedKey r.2 = r.1.publishedKey)
      (noIdle : ∀ a ∈ r.2, a.isIdle = false) (awake : r.1.state.controlState ≠ .idle) :
      TickEffect r

theorem runsOn_setControlState (control : ControlState) :
    (e.setControlState control).runsOn = (control == .busy || control == .interventionRequired) :=
  rfl

/-- A piece that raised advisories at most and left its verdict in the control state. -/
theorem watched_of_core {e e' e₀ : BeliefEngine} {actions : List Action} {control : ControlState}
    (same : e.core = e₀.core) (verdict : e'.core = (e.setControlState control).core)
    (goesOn : (control == .busy || control == .interventionRequired) = true)
    (active : e₀.hookMode = .active) (free : e₀.runsOn = true)
    (unsettled : reconciles cfg e₀ obs ctx now = false)
    (advisories : ∀ a ∈ actions, a.isAdvisory = true) :
    TickEffect cfg e₀ obs ctx now (e', actions) := by
  have mode : e.hookMode = .active := (hookMode_of_core same).trans active
  have memory : e.hookMemory = e₀.hookMemory := hookMemory_of_core same
  have published : e.publishedKey = e₀.publishedKey := publishedKey_of_core same
  exact .watched e' actions active free unsettled ((hookMode_of_core verdict).trans mode)
    ((hookMemory_of_core verdict).trans memory) ((publishedKey_of_core verdict).trans published)
    ((runsOn_of_core verdict).trans ((runsOn_setControlState e control).trans goesOn)) advisories

theorem tickHookWatchdog_watched {e e₀ : BeliefEngine} (same : e.core = e₀.core)
    (active : e₀.hookMode = .active) (free : e₀.runsOn = true)
    (unsettled : reconciles cfg e₀ obs ctx now = false) :
    TickEffect cfg e₀ obs ctx now (tickHookWatchdog cfg e obs now) := by
  have core := (watchdog_core cfg e obs now).trans same
  refine watched_of_core cfg obs ctx now core (refreshFields_core cfg _ obs now) ?_ active free
    unsettled (watchdog_advisory cfg e obs now)
  split <;> rfl

theorem escalateLostStop_watched {e e₀ : BeliefEngine} (same : e.core = e₀.core)
    (active : e₀.hookMode = .active) (free : e₀.runsOn = true)
    (unsettled : reconciles cfg e₀ obs ctx now = false) :
    TickEffect cfg e₀ obs ctx now (escalateLostStop cfg e obs now) := by
  have core := (escalate_core cfg e obs now .lostStop .lostStop).trans same
  have advisories := escalate_advisory cfg e obs now .lostStop .lostStop
  unfold escalateLostStop
  dsimp only
  split
  · exact .watched _ _ active free unsettled ((hookMode_of_core core).trans active)
      (hookMemory_of_core core) (publishedKey_of_core core) ((runsOn_of_core core).trans free)
      advisories
  · exact watched_of_core cfg obs ctx now core rfl rfl active free unsettled advisories

theorem reconcileLostStopIdle_cases :
    (lostStopSettled cfg (e.watchPrompt obs now) now = true ∧
      reconcileLostStopIdle cfg e obs now = ((e.watchPrompt obs now).reconcileIdle,
        [idlePublish (e.watchPrompt obs now).turnEpoch false (some true)])) ∨
    (lostStopSettled cfg (e.watchPrompt obs now) now = false ∧
      reconcileLostStopIdle cfg e obs now = (e.watchPrompt obs now, [])) := by
  cases settled : lostStopSettled cfg (e.watchPrompt obs now) now <;>
    simp [reconcileLostStopIdle, settled]

theorem runsOn_iff : e.runsOn = true ↔
    ¬ (e.state.controlState ≠ .busy ∧ e.state.controlState ≠ .interventionRequired) := by
  simp only [runsOn, Bool.or_eq_true, beq_iff_eq]
  tauto

theorem tickHookActive_effect {e e₀ : BeliefEngine} (same : e.core = e₀.core)
    (clock : e.promptClock = e₀.promptClock) (active : e₀.hookMode = .active)
    (living : terminalTick obs ctx = false) :
    TickEffect cfg e₀ obs ctx now (tickHookActive cfg e obs now) := by
  have runs := runsOn_of_core same
  unfold tickHookActive
  split
  next owned =>
    refine .held _ ((refreshFields_core cfg e obs now).trans same) active ?_
    rw [← runs]
    exact Bool.eq_false_iff.mpr fun free => (runsOn_iff e).mp free owned
  next free =>
    have free : e₀.runsOn = true := runs ▸ (runsOn_iff e).mpr free
    split
    next prompt =>
      have settles : reconciles cfg e₀ obs ctx now =
          lostStopSettled cfg (e.watchPrompt obs now) now := by
        simp [reconciles, living, active, free, prompt, settled_of_promptClock cfg obs now clock]
      have watched := (watchPrompt_core e obs now).trans same
      rcases reconcileLostStopIdle_cases cfg e obs now with ⟨settled, ends⟩ | ⟨unsettled, waits⟩
      · rw [ends, turnEpoch_of_memory (hookMemory_of_core watched)]
        exact .reconciled _ watched (settles.trans settled)
      · rw [waits]
        exact tickHookWatchdog_watched cfg obs ctx now watched active free
          (settles.trans unsettled)
    next other =>
      have unsettled : reconciles cfg e₀ obs ctx now = false := by simp [reconciles, other]
      have core : (e.forgetPrompt.trackHookProgress obs now).core = e₀.core := by simpa using same
      dsimp only
      split
      · exact escalateLostStop_watched cfg obs ctx now core active free unsettled
      · exact tickHookWatchdog_watched cfg obs ctx now core active free unsettled

/-- The startup grace only ever moves an unknown mode to the screen fallback. -/
theorem maybeExpireStartupGrace_cases :
    maybeExpireStartupGrace cfg e now = e ∨
      e.hookMode = .unknown ∧
        maybeExpireStartupGrace cfg e now = { e with hookMode := .unavailable } := by
  unfold maybeExpireStartupGrace
  split
  · exact .inl rfl
  · split
    next expired => exact .inr ⟨expired.1, rfl⟩
    next => exact .inl rfl

theorem refreshState_awake : (refreshState cfg e obs now).state.controlState ≠ .idle := by
  simp only [refreshState, refreshFields, setControlState]
  split
  · simp
  · split <;> simp

/-- The screen alone never rests the session. -/
theorem tickScreen_awake : (tickScreen cfg e obs now).1.state.controlState ≠ .idle :=
  refreshState_awake cfg _ obs now

theorem tickScreen_effect {e e₀ : BeliefEngine} (mode : e.hookMode ≠ .active)
    (memory : e.hookMemory = e₀.hookMemory) (published : e.publishedKey = e₀.publishedKey)
    (hookless : e₀.hookMode ≠ .active) :
    TickEffect cfg e₀ obs ctx now (tickScreen cfg e obs now) := by
  have step := tickScreen_screen cfg e obs now
  exact .screen _ hookless (step.mode ▸ mode) (step.memory.trans memory)
    (published ▸ step.shown) step.noIdle (tickScreen_awake cfg e obs now)

theorem tick_effect : TickEffect cfg e obs ctx now (tick cfg e obs ctx now) := by
  have same := track_core e obs now
  have mode := hookMode_of_core same
  have memory := hookMemory_of_core same
  have published := publishedKey_of_core same
  unfold tick
  dsimp only
  split
  next dead => exact .terminal _ same dead
  next living =>
    have living : terminalTick obs ctx = false := by simpa using living
    unfold tickAlive
    rcases maybeExpireStartupGrace_cases cfg (e.track obs now) now with kept | ⟨unknown, expired⟩
    · rw [kept]
      split
      next active =>
        exact tickHookActive_effect cfg obs ctx now same (track_promptClock e obs now)
          (mode ▸ active) living
      next hookless =>
        exact tickScreen_effect cfg obs ctx now hookless memory published (mode ▸ hookless)
    · rw [expired, if_neg (by simp)]
      exact tickScreen_effect cfg obs ctx now (by simp) memory published
        (by rw [← mode, unknown]; simp)

end Ticks

/-! ### Hooks -/

section Hooks

variable (cfg : BeliefConfig) (e : BeliefEngine) (hobs : HookObservation) (now : Time)

/-- What a hook can do once hook mode is active. -/
inductive HookEffect : BeliefEngine × List Action → Prop
  | opened (opens : hobs.opensTurn = true) : HookEffect (e.openTurn, [])
  | ignored (keeps : hobs.opensTurn = false) : HookEffect (e, [])
  | closed (keeps : hobs.opensTurn = false) (unfinished : e.turnClosed = false)
      (closes : hobs.closesTurn = true) :
      HookEffect ((e.endEpoch.dropPending .superseded).1.setControl .idle .idle,
        (e.endEpoch.dropPending .superseded).2 ++ [idlePublish e.turnEpoch hobs.interrupted none])
  | cleared (keeps : hobs.opensTurn = false) (unfinished : e.turnClosed = false) :
      HookEffect ((e.dropPending .promptLeft).1.resumeTurn, (e.dropPending .promptLeft).2)
  | gated (key : DecisionKey) (kind : Option PromptKind) (actions : List Action)
      (keeps : hobs.opensTurn = false) (unfinished : e.turnClosed = false)
      (emits : actions = [hookPausePublish key kind] ∨
        actions = [] ∧ e.hookPendingKey = some key) :
      HookEffect (e.awaitGate key kind, actions)
  | straggled (keeps : hobs.opensTurn = false) (unfinished : e.turnClosed = false) :
      HookEffect (e.resumeTurn, [])
  | worked (keeps : hobs.opensTurn = false) (isOpen : e.turnOpen = true)
      (answered : Finset DecisionKey) :
      HookEffect (setControl { e with hookAnsweredIds := answered } .busy .busy, [])

theorem dropPending_frame (reason : WithdrawReason) :
    (e.dropPending reason).1.turnEpoch = e.turnEpoch ∧
      (e.dropPending reason).1.turnOpen = e.turnOpen ∧
      (e.dropPending reason).1.idlePublishedEpoch = e.idlePublishedEpoch ∧
      (e.dropPending reason).1.hookMode = e.hookMode ∧
      (e.dropPending reason).1.publishedKey = e.publishedKey := by
  simp only [dropPending]
  split <;> exact ⟨rfl, rfl, rfl, rfl, rfl⟩

/-- A hook body leaves the mode and the screen's decision alone. -/
theorem hookEffect_frame {e : BeliefEngine} {hobs : HookObservation}
    {r : BeliefEngine × List Action} (effect : HookEffect e hobs r) :
    r.1.hookMode = e.hookMode ∧ r.1.publishedKey = e.publishedKey := by
  cases effect with
  | closed keeps unfinished =>
    obtain ⟨-, -, -, mode, published⟩ := dropPending_frame e.endEpoch .superseded
    exact ⟨mode, published⟩
  | cleared keeps unfinished =>
    obtain ⟨-, -, -, mode, published⟩ := dropPending_frame e .promptLeft
    exact ⟨mode, published⟩
  | opened opens => exact ⟨rfl, rfl⟩
  | ignored keeps => exact ⟨rfl, rfl⟩
  | gated key kind actions keeps unfinished emits => exact ⟨rfl, rfl⟩
  | straggled keeps unfinished => exact ⟨rfl, rfl⟩
  | worked keeps isOpen answered => exact ⟨rfl, rfl⟩

theorem pauseForUser_effect (keeps : hobs.opensTurn = false) :
    HookEffect e hobs (e.pauseForUser hobs) := by
  unfold pauseForUser
  split
  next => exact .ignored keeps
  next unfinished =>
    have unfinished : e.turnClosed = false := by simpa using unfinished
    dsimp only
    split
    next same =>
      refine .gated _ _ _ keeps unfinished ?_
      split
      · exact .inl rfl
      · exact .inr ⟨rfl, same⟩
    next =>
      split
      · exact .straggled keeps unfinished
      · exact .gated _ _ _ keeps unfinished (.inl rfl)

theorem hookBody_effect : HookEffect e hobs (e.hookBody hobs) := by
  unfold hookBody
  split
  next opens => exact .opened opens
  next stays =>
    have keeps : hobs.opensTurn = false := by simpa using stays
    split
    next closes =>
      unfold closeTurn
      split
      next => exact .ignored keeps
      next unfinished => exact .closed keeps (by simpa using unfinished) closes
    · split
      · unfold clearPending
        split
        next => exact .ignored keeps
        next unfinished => exact .cleared keeps (by simpa using unfinished)
      · split
        · exact pauseForUser_effect e hobs keeps
        · unfold workingHook
          split
          next isOpen => exact .worked keeps isOpen _
          next => exact .ignored keeps

theorem takeOver_mode : (takeOver cfg e now).1.hookMode = .active := by
  unfold takeOver
  dsimp only
  split
  next active => exact active
  next => exact (withdraw_screen cfg e.activate now .superseded).mode

theorem takeOver_memory : (takeOver cfg e now).1.hookMemory = e.hookMemory := by
  unfold takeOver
  dsimp only
  split
  next => rfl
  next => exact (withdraw_screen cfg e.activate now .superseded).memory

theorem takeOver_controlState :
    (takeOver cfg e now).1.state.controlState = e.state.controlState := by
  unfold takeOver withdraw
  dsimp only
  split
  · rfl
  · split <;> rfl

/-- In hook mode nothing is left to take over. -/
theorem takeOver_active (active : e.hookMode = .active) :
    takeOver cfg e now = (e.hookSeen now, []) := by
  simp [takeOver, active]

theorem takeOver_shown (clean : e.hookMode = .active → e.publishedKey = none) :
    shownAfter e.publishedKey (takeOver cfg e now).2 = none ∧
      (takeOver cfg e now).1.publishedKey = none := by
  unfold takeOver
  dsimp only
  split
  next active => simpa [hookSeen] using clean active
  next =>
    have step := withdraw_screen cfg e.activate now .superseded
    have gone := withdraw_publishedKey cfg e.activate now .superseded
    exact ⟨step.shown.trans gone, gone⟩

theorem takeOver_noPublish : ∀ a ∈ (takeOver cfg e now).2, a.isPublish = false := by
  unfold takeOver withdraw
  dsimp only
  split
  · simp
  · split <;> simp [Action.isPublish]

/-- After a hook, hook mode is active and the screen has nothing published. -/
theorem onHook_mode : (onHook cfg e hobs now).1.hookMode = .active :=
  (hookEffect_frame (hookBody_effect _ hobs)).1.trans (takeOver_mode cfg e now)

theorem onHook_publishedKey (clean : e.hookMode = .active → e.publishedKey = none) :
    (onHook cfg e hobs now).1.publishedKey = none :=
  (hookEffect_frame (hookBody_effect _ hobs)).2.trans (takeOver_shown cfg e now clean).2

end Hooks

end BeliefEngine

end Nelix.Daemon
