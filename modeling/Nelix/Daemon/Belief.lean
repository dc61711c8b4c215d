import Nelix.Daemon.Observation
import Mathlib.Data.Rat.Lemmas
import Mathlib.Algebra.Order.Ring.Rat

/-!
# The belief engine

The single home of temporal interpretation: hooks, submits and screen ticks are folded into one
state, and each hook or tick returns the actions the session applies. Clock readings are
arguments, the tunables are a separate record.
-/
namespace Nelix.Daemon

/-- The tunables the engine reads. All durations are seconds. -/
structure BeliefConfig where
  idleConfirmWindow : Time := 1 / 2
  postSubmitGrace : Time := 8
  echoStuckAfter : Time := 20
  withdrawnCooldown : Time := 1
  heartbeatStaleAfter : Time := 10
  liveBudget : Time := 1800
  staleBudget : Time := 30
  unknownBudget : Time := 60
  hookStartupGrace : Time := 12
  hookTurnGrace : Time := 4
  lostStopAfter : Time := 45

/-- The identity of a pause. The source spells it as a string: `hook_gate:<fp>`,
`hook_pause:<epoch>`, `idle:<epoch>`, `intervention:<count>`, `<prompt_kind>:<semantic_fp>`. -/
inductive DecisionKey
  | hookGate (fp : String)
  | hookPause (epoch : Nat)
  | idle (epoch : Nat)
  | intervention (count : Nat)
  | screen (kind : PromptKind) (fp : String)
  deriving DecidableEq, Repr

inductive PublishKind
  | waitingForUser | interventionRequired | idle
  deriving DecidableEq, Repr

inductive WithdrawReason
  | turnResumed | promptLeft | superseded | promptChanged
  deriving DecidableEq, Repr

inductive Liveness
  | live | stale | unknown
  deriving DecidableEq, Repr

inductive Hint
  | needsPermission | lostStop | suspectedHung | submitUnconfirmed
  deriving DecidableEq, Repr

/-- The payload dictionary of a publish: a key that is absent reads as `none`. -/
structure Payload where
  promptKind : Option PromptKind := none
  options : List MenuOption := []
  busyReason : Option BusyReason := none
  hint : Option Hint := none
  escalationCount : Option Nat := none
  liveness : Option Liveness := none
  interrupted : Option Bool := none
  reconciled : Option Bool := none
  deriving DecidableEq, Repr

structure Publish where
  kind : PublishKind
  respondable : Bool
  decisionKey : DecisionKey
  payload : Payload := {}
  deriving DecidableEq, Repr

/-- What the engine emits; the session applies it. -/
inductive Action
  | publish (p : Publish)
  | withdraw (decisionKey : DecisionKey) (reason : WithdrawReason)
  | finalize
  deriving DecidableEq, Repr

inductive ControlState
  | busy | awaitingUser | idle | interventionRequired | terminal
  deriving DecidableEq, Repr

inductive Phase
  | starting | busy | idle | pauseCandidate | lostStop | suspectedHung | submitUnconfirmed | terminal
  deriving DecidableEq, Repr

/-- The snapshot exposed to status reads. -/
structure EngineState where
  controlState : ControlState := .busy
  busyReason : Option BusyReason := none
  liveness : Liveness := .unknown
  quietElapsed : Time := 0
  escalationCount : Nat := 0
  phase : Phase := .starting
  deriving DecidableEq

inductive HookMode
  | unknown | active | unavailable
  deriving DecidableEq, Repr

inductive SuppressReason
  | hookStartupGrace | submittedEchoPresent | postSubmitGrace | antiFlap | notSettled
  deriving DecidableEq, Repr

inductive ClearReason
  | graceExpired | busyLive | realOutput
  deriving DecidableEq, Repr

/-- Diagnostics, kept off the action list. -/
inductive Note
  | postSubmitArmed (grace : Time)
  | postSubmitCleared (reason : ClearReason)
  | beliefSuppressed (reason : SuppressReason)
  deriving DecidableEq

structure BeliefEngine where
  semanticFp : Option String := none
  semanticChangeTs : Option Time := none
  heartbeatFp : Option String := none
  heartbeatSeenTs : Option Time := none
  heartbeatChangedTs : Option Time := none
  candidateFp : Option String := none
  candidateSince : Option Time := none
  publishedKey : Option DecisionKey := none
  publishedKind : Option PromptKind := none
  publishedPromptFp : Option String := none
  publishedSemanticFp : Option String := none
  lastWithdrawnFp : Option String := none
  withdrawnCooldownUntil : Option Time := none
  interventionActive : Bool := false
  escalationCount : Nat := 0
  nextNagAt : Option Time := none
  postSubmitActive : Bool := false
  postSubmitGraceUntil : Option Time := none
  postSubmitContentFp : Option String := none
  echoSince : Option Time := none
  notes : List Note := []
  suppressReason : Option SuppressReason := none
  hookMode : HookMode := .unknown
  turnEpoch : Nat := 0
  turnOpen : Bool := false
  hookPendingKey : Option DecisionKey := none
  hookPendingKind : Option PromptKind := none
  hookAnsweredIds : Finset DecisionKey := ∅
  idlePublishedEpoch : Option Nat := none
  lastHookAt : Option Time := none
  hookStartupAt : Option Time := none
  hookProgressFp : Option String := none
  hookProgressAt : Option Time := none
  reconcileFp : Option String := none
  reconcileSince : Option Time := none
  state : EngineState := {}
  deriving DecidableEq

namespace BeliefEngine

variable (cfg : BeliefConfig)

/-- Run `next` on the state a call left, and append its actions. -/
def andThen (r : BeliefEngine × List Action)
    (next : BeliefEngine → BeliefEngine × List Action) : BeliefEngine × List Action :=
  ((next r.1).1, r.2 ++ (next r.1).2)

/-- Python's `a or b` on fingerprints: the empty string is false. -/
def orFp (a b : String) : String := if a = "" then b else a

/-- The control state and the phase always move together. -/
def setControl (e : BeliefEngine) (control : ControlState) (phase : Phase) : BeliefEngine :=
  { e with state := { e.state with controlState := control, phase := phase } }

def setControlState (e : BeliefEngine) (control : ControlState) : BeliefEngine :=
  { e with state := { e.state with controlState := control } }

def setPhase (e : BeliefEngine) (phase : Phase) : BeliefEngine :=
  { e with state := { e.state with phase := phase } }

/-- Declare the session hook-capable and arm the startup grace at task delivery. -/
def expectHooks (e : BeliefEngine) (now : Time) : BeliefEngine :=
  if e.hookMode = .unknown then { e with hookStartupAt := some now } else e

/-- `Stop` or a reconciled idle closed the current epoch and no `UserPromptSubmit` reopened it. -/
def turnClosed (e : BeliefEngine) : Bool := e.idlePublishedEpoch == some e.turnEpoch

/-! ### Hooks -/

/-- Forget the published screen decision and start its anti-flap cooldown. -/
def forgetPublished (e : BeliefEngine) (now : Time) : BeliefEngine :=
  { e with
    lastWithdrawnFp := e.publishedSemanticFp
    withdrawnCooldownUntil := some (now + cfg.withdrawnCooldown)
    publishedKey := none
    publishedKind := none
    publishedPromptFp := none
    publishedSemanticFp := none }

/-- Withdraw the published screen decision, if there is one. -/
def withdraw (e : BeliefEngine) (reason : WithdrawReason) (now : Time) :
    BeliefEngine × List Action :=
  match e.publishedKey with
  | some key => (forgetPublished cfg e now, [.withdraw key reason])
  | none => (e, [])

/-- `modal_choice` wins over `permission_choice`; otherwise the first reading stays. -/
def preferredPromptKind (a b : Option PromptKind) : Option PromptKind :=
  if a = some .modalChoice ∨ b = some .modalChoice then some .modalChoice
  else if a = none then b else a

def hookPausePublish (key : DecisionKey) (kind : Option PromptKind) : Action :=
  .publish
    { kind := .waitingForUser, respondable := true, decisionKey := key
      payload :=
        { promptKind := kind
          hint := if kind = some .permissionChoice then some .needsPermission else none } }

def activate (e : BeliefEngine) : BeliefEngine := { e with hookMode := .active }

/-- A hook is a sign of life: the lost-hook clocks start again. -/
def hookSeen (e : BeliefEngine) (now : Time) : BeliefEngine :=
  { e with
    lastHookAt := some now
    hookProgressFp := none
    hookProgressAt := none
    reconcileFp := none
    reconcileSince := none }

/-- What every hook does first: it proves hook mode, and the first one withdraws a decision the
screen fallback left behind. -/
def takeOver (e : BeliefEngine) (now : Time) : BeliefEngine × List Action :=
  let r := if e.hookMode = .active then (e, []) else withdraw cfg e.activate .superseded now
  (r.1.hookSeen now, r.2)

/-- `UserPromptSubmit`: a fresh epoch. The pending gate is dropped without a withdraw. -/
def openTurn (e : BeliefEngine) : BeliefEngine :=
  setControl
    { e with
      turnEpoch := e.turnEpoch + 1
      turnOpen := true
      hookPendingKey := none
      hookPendingKind := none
      hookAnsweredIds := ∅ }
    .busy .busy

/-- Withdraw the pending gate, if there is one. -/
def dropPending (e : BeliefEngine) (reason : WithdrawReason) : BeliefEngine × List Action :=
  match e.hookPendingKey with
  | some key => ({ e with hookPendingKey := none, hookPendingKind := none }, [.withdraw key reason])
  | none => (e, [])

/-- The current epoch is over: no turn is open, no gate is tombstoned, its idle is spent. -/
def endEpoch (e : BeliefEngine) : BeliefEngine :=
  { e with turnOpen := false, idlePublishedEpoch := some e.turnEpoch, hookAnsweredIds := ∅ }

/-- The one idle of an epoch. -/
def idlePublish (epoch : Nat) (interrupted : Bool) (reconciled : Option Bool) : Action :=
  .publish
    { kind := .idle, respondable := false, decisionKey := .idle epoch
      payload := { interrupted := some interrupted, reconciled := reconciled } }

/-- `Stop` and `StopFailure`: one idle for each epoch. -/
def closeTurn (e : BeliefEngine) (hobs : HookObservation) : BeliefEngine × List Action :=
  if e.turnClosed then (e, [])
  else
    let r := e.endEpoch.dropPending .superseded
    (r.1.setControl .idle .idle, r.2 ++ [idlePublish e.turnEpoch hobs.interrupted none])

/-- The agent works on in an open turn. -/
def resumeTurn (e : BeliefEngine) : BeliefEngine :=
  setControl { e with turnOpen := true } .busy .busy

/-- `PostToolUse[AskUserQuestion]`: the modal was answered. -/
def clearPending (e : BeliefEngine) : BeliefEngine × List Action :=
  if e.turnClosed then (e, [])
  else
    let r := e.dropPending .promptLeft
    (r.1.resumeTurn, r.2)

/-- The key of a pause: the gate's fingerprint, or the epoch when the hook carries none. -/
def pauseKey (e : BeliefEngine) (hobs : HookObservation) : DecisionKey :=
  match hobs.gateFp with
  | some fp => if fp = "" then .hookPause e.turnEpoch else .hookGate fp
  | none => .hookPause e.turnEpoch

/-- A gate is pending: the turn waits for the user. -/
def awaitGate (e : BeliefEngine) (key : DecisionKey) (kind : Option PromptKind) : BeliefEngine :=
  setControl { e with hookPendingKey := some key, hookPendingKind := kind, turnOpen := true }
    .awaitingUser .pauseCandidate

/-- A permission or modal hook: blocked on the user. -/
def pauseForUser (e : BeliefEngine) (hobs : HookObservation) : BeliefEngine × List Action :=
  if e.turnClosed then (e, [])
  else
    let key := e.pauseKey hobs
    let kind := preferredPromptKind e.hookPendingKind hobs.promptKind
    if e.hookPendingKey = some key then
      -- already published: only a refined kind is emitted again, under the same key
      (e.awaitGate key kind, if kind ≠ e.hookPendingKind then [hookPausePublish key kind] else [])
    else if key ∈ e.hookAnsweredIds then
      -- a straggler of a gate that was answered in this epoch
      (e.resumeTurn, [])
    else (e.awaitGate key kind, [hookPausePublish key kind])

/-- A plain tool hook counts only inside an open turn; a `PreToolUse` lifts its own tombstone. -/
def workingHook (e : BeliefEngine) (hobs : HookObservation) : BeliefEngine :=
  if e.turnOpen then
    let answered := match hobs.gateFp with
      | some fp => e.hookAnsweredIds.erase (.hookGate fp)
      | none => e.hookAnsweredIds
    setControl { e with hookAnsweredIds := answered } .busy .busy
  else e

def hookBody (e : BeliefEngine) (hobs : HookObservation) : BeliefEngine × List Action :=
  if hobs.opensTurn then (e.openTurn, [])
  else if hobs.closesTurn then e.closeTurn hobs
  else if hobs.clearsPending then e.clearPending
  else if hobs.kind = .waitingForUser then e.pauseForUser hobs
  else (e.workingHook hobs, [])

/-- Fold one normalized hook into the belief state. -/
def onHook (e : BeliefEngine) (hobs : HookObservation) (now : Time) :
    BeliefEngine × List Action :=
  andThen (takeOver cfg e now) (hookBody · hobs)

/-! ### Submits -/

/-- The agent received our text: whatever was pending is answered, and a gate's key becomes a
tombstone for the rest of the epoch. -/
def onSubmit (e : BeliefEngine) (now : Time) : BeliefEngine :=
  { e with
    publishedKey := none
    publishedKind := none
    hookAnsweredIds := match e.hookPendingKey with
      | some key => insert key e.hookAnsweredIds
      | none => e.hookAnsweredIds
    hookPendingKey := none
    hookPendingKind := none
    candidateFp := none
    candidateSince := none
    publishedPromptFp := none
    publishedSemanticFp := none
    lastWithdrawnFp := none
    withdrawnCooldownUntil := none
    postSubmitActive := true
    postSubmitGraceUntil := some (now + cfg.postSubmitGrace)
    postSubmitContentFp := none
    echoSince := none
    suppressReason := none
    notes := e.notes ++ [.postSubmitArmed cfg.postSubmitGrace] }

def drainNotes (e : BeliefEngine) : BeliefEngine × List Note := ({ e with notes := [] }, e.notes)

/-! ### Substrate of a tick -/

/-- An advance of the screen's meaning ends a stuck episode. -/
def trackSemantic (e : BeliefEngine) (obs : Observation) (now : Time) : BeliefEngine :=
  if some obs.semanticFp ≠ e.semanticFp then
    { e with
      semanticFp := some obs.semanticFp
      semanticChangeTs := some now
      interventionActive := false
      escalationCount := 0
      nextNagAt := none }
  else e

def trackHeartbeat (e : BeliefEngine) (obs : Observation) (now : Time) : BeliefEngine :=
  if ¬ obs.heartbeat.present then e
  else if obs.heartbeat.fp ≠ e.heartbeatFp then
    { e with
      heartbeatSeenTs := some now
      heartbeatFp := obs.heartbeat.fp
      heartbeatChangedTs := some now }
  else { e with heartbeatSeenTs := some now }

def liveness (e : BeliefEngine) (obs : Observation) (now : Time) : Liveness :=
  if ¬ obs.heartbeat.present ∨ ¬ obs.heartbeat.expectedToChange then .unknown
  else match e.heartbeatChangedTs with
    | none => .unknown
    | some changed => if now - changed < cfg.heartbeatStaleAfter then .live else .stale

def note (e : BeliefEngine) (n : Note) : BeliefEngine := { e with notes := e.notes ++ [n] }

/-- One note each time the reason changes. -/
def suppressed (e : BeliefEngine) (reason : SuppressReason) : BeliefEngine :=
  if some reason ≠ e.suppressReason then
    note { e with suppressReason := some reason } (.beliefSuppressed reason)
  else e

/-- Time since the meaning last advanced. -/
def quiet (e : BeliefEngine) (now : Time) : Time :=
  match e.semanticChangeTs with
  | none => 0
  | some changed => now - changed

/-- A deadline that is unset never expired; the engine reads one only when it was set. -/
def reached (deadline : Option Time) (now : Time) : Bool :=
  match deadline with
  | none => false
  | some t => decide (t ≤ now)

/-- The first content after a submit is our own echo, not output. -/
def postSubmitBaseline (e : BeliefEngine) (obs : Observation) : BeliefEngine :=
  match e.postSubmitContentFp with
  | none => { e with postSubmitContentFp := some obs.contentFp }
  | some _ => e

def endPostSubmit (e : BeliefEngine) (reason : ClearReason) : BeliefEngine :=
  note { e with postSubmitActive := false } (.postSubmitCleared reason)

/-- Post-submit suppression ends on a sign that the turn started, or with its grace. -/
def updatePostSubmit (e : BeliefEngine) (obs : Observation) (now : Time) : BeliefEngine :=
  if ¬ e.postSubmitActive then e
  else
    let e := e.postSubmitBaseline obs
    if reached e.postSubmitGraceUntil now then e.endPostSubmit .graceExpired
    else if obs.promptKind = .none ∧ liveness cfg e obs now = .live then e.endPostSubmit .busyLive
    else if ¬ obs.submittedEchoPresent ∧ some obs.contentFp ≠ e.postSubmitContentFp then
      e.endPostSubmit .realOutput
    else e

/-- Long while live, short while stale or unknown; a known long-running reason earns the long
budget even then. -/
def budget (fresh : Liveness) (reason : Option BusyReason) : Time :=
  match fresh with
  | .stale => cfg.staleBudget
  | .live => cfg.liveBudget
  | .unknown =>
    if reason = some .runningCommand ∨ reason = some .waitingSubagents then cfg.liveBudget
    else cfg.unknownBudget

/-- The throttle the three advisories share. -/
def nagDue (e : BeliefEngine) (now : Time) : Bool := e.nextNagAt == none || reached e.nextNagAt now

/-- Count an advisory, and set the next time one may fire. -/
def armNag (e : BeliefEngine) (nextAt : Time) : BeliefEngine :=
  { e with escalationCount := e.escalationCount + 1, nextNagAt := some nextAt }

/-- One advisory. -/
def nag (e : BeliefEngine) (obs : Observation) (now : Time) (phase : Phase) (hint : Hint) :
    BeliefEngine × List Action :=
  let fresh := liveness cfg e obs now
  let count := e.escalationCount + 1
  ((e.armNag (now + budget cfg fresh obs.busyReason)).setPhase phase,
    [.publish
      { kind := .interventionRequired, respondable := false, decisionKey := .intervention count
        payload :=
          { escalationCount := some count
            busyReason := obs.busyReason
            liveness := some fresh
            hint := some hint } }])

def setIntervention (e : BeliefEngine) (active : Bool) : BeliefEngine :=
  { e with interventionActive := active }

/-- Raise the advisory, at most once a budget. -/
def escalate (e : BeliefEngine) (obs : Observation) (now : Time) (phase : Phase) (hint : Hint) :
    BeliefEngine × List Action :=
  let e := e.setIntervention true
  if e.nagDue now then nag cfg e obs now phase hint else (e, [])

/-- The ladder over a frozen meaning: nothing until the budget elapsed, then a nag. -/
def watchdog (e : BeliefEngine) (obs : Observation) (now : Time) : BeliefEngine × List Action :=
  if e.quiet now < budget cfg (liveness cfg e obs now) obs.busyReason then
    (e.setIntervention false, [])
  else escalate cfg e obs now .suspectedHung .suspectedHung

def escalateStuckInput (e : BeliefEngine) (obs : Observation) (now : Time) :
    BeliefEngine × List Action :=
  escalate cfg e obs now .submitUnconfirmed .submitUnconfirmed

/-! ### The screen path -/

def publishDecision (e : BeliefEngine) (obs : Observation) (key : DecisionKey) :
    BeliefEngine × List Action :=
  ({ e with
      suppressReason := none
      publishedKey := some key
      publishedKind := some obs.promptKind
      publishedPromptFp := some obs.promptFp
      publishedSemanticFp := some obs.semanticFp },
    [.publish
      { kind := .waitingForUser, respondable := true, decisionKey := key
        payload :=
          { promptKind := some obs.promptKind
            options := obs.options
            hint := if obs.promptKind = .permissionChoice then some .needsPermission else none } }])

/-- A hook-capable session inside its startup grace that has seen no hook yet. -/
def inHookStartupGrace (e : BeliefEngine) (now : Time) : Bool :=
  match e.hookStartupAt with
  | none => false
  | some armed => e.hookMode == .unknown && decide (now - armed < cfg.hookStartupGrace)

def maybeExpireStartupGrace (e : BeliefEngine) (now : Time) : BeliefEngine :=
  match e.hookStartupAt with
  | none => e
  | some armed =>
    if e.hookMode = .unknown ∧ cfg.hookStartupGrace ≤ now - armed
    then { e with hookMode := .unavailable } else e

/-- Whether `since` lies at least `window` back; the engine asks only after setting it. -/
def elapsed (since : Option Time) (now window : Time) : Bool :=
  match since with
  | none => false
  | some t => decide (window ≤ now - t)

/-- Since when the submitted text has been standing in the box. -/
def clockEcho (e : BeliefEngine) (now : Time) : BeliefEngine :=
  match e.echoSince with
  | none => { e with echoSince := some now }
  | some _ => e

def clearEcho (e : BeliefEngine) : BeliefEngine := { e with echoSince := none }

/-- The free-text tail of `onPrompt`: post-submit suppression, anti-flap and the confirm window. -/
def confirmFreeText (e : BeliefEngine) (obs : Observation) (now : Time) (key : DecisionKey) :
    BeliefEngine × List Action :=
  if obs.submittedEchoPresent then
    let e := e.clockEcho now
    if ¬ elapsed e.echoSince now cfg.echoStuckAfter then (e.suppressed .submittedEchoPresent, [])
    else escalateStuckInput cfg e obs now
  else
    let e := e.clearEcho
    if e.postSubmitActive ∧ ¬ reached e.postSubmitGraceUntil now then
      (e.suppressed .postSubmitGrace, [])
    else if some obs.semanticFp = e.lastWithdrawnFp ∧ e.withdrawnCooldownUntil ≠ none
        ∧ ¬ reached e.withdrawnCooldownUntil now then
      (e.suppressed .antiFlap, [])
    else if ¬ elapsed e.candidateSince now cfg.idleConfirmWindow then
      (e.suppressed .notSettled, [])
    else e.publishDecision obs key

/-- The contiguous prompt candidate, by its fingerprint. -/
def trackCandidate (e : BeliefEngine) (obs : Observation) (now : Time) : BeliefEngine :=
  let fp := orFp obs.promptFp obs.semanticFp
  if some fp ≠ e.candidateFp then { e with candidateFp := some fp, candidateSince := some now }
  else e

/-- A prompt is visible and nothing is published: track the candidate and decide. -/
def offerPrompt (e : BeliefEngine) (obs : Observation) (now : Time) :
    BeliefEngine × List Action :=
  let e := (e.trackCandidate obs now).setPhase .pauseCandidate
  let key := DecisionKey.screen obs.promptKind obs.semanticFp
  if obs.promptKind = .modalChoice ∨ obs.promptKind = .permissionChoice then
    e.publishDecision obs key
  else if inHookStartupGrace cfg e now then (e.suppressed .hookStartupGrace, [])
  else confirmFreeText cfg e obs now key

/-- Withdraw a decision whose prompt region changed away; one that stands holds. -/
def onPrompt (e : BeliefEngine) (obs : Observation) (now : Time) : BeliefEngine × List Action :=
  let e := e.setIntervention false
  andThen
    (if some obs.promptFp ≠ e.publishedPromptFp then withdraw cfg e .promptChanged now
      else (e, []))
    fun e =>
      if e.publishedKey.isSome then (e.setPhase .pauseCandidate, [])
      else offerPrompt cfg e obs now

/-- No prompt is visible: the candidate is gone, the suppression edge is armed again. -/
def leavePrompt (e : BeliefEngine) : BeliefEngine :=
  setPhase
    { e with
      candidateFp := none
      candidateSince := none
      echoSince := none
      suppressReason := none }
    .busy

def onBusy (e : BeliefEngine) (obs : Observation) (now : Time) : BeliefEngine × List Action :=
  andThen (withdraw cfg e .turnResumed now) fun e => watchdog cfg e.leavePrompt obs now

/-- The diagnostic fields of the snapshot. -/
def refreshFields (e : BeliefEngine) (obs : Observation) (now : Time) : BeliefEngine :=
  { e with
    state := { e.state with
      quietElapsed := e.quiet now
      liveness := liveness cfg e obs now
      busyReason := obs.busyReason
      escalationCount := e.escalationCount } }

def refreshState (e : BeliefEngine) (obs : Observation) (now : Time) : BeliefEngine :=
  let control := if e.publishedKey.isSome then .awaitingUser
    else if e.interventionActive then .interventionRequired else .busy
  refreshFields cfg (e.setControlState control) obs now

/-- The engine on screen observations alone, as for an agent that never sent a hook. -/
def tickScreen (e : BeliefEngine) (obs : Observation) (now : Time) :
    BeliefEngine × List Action :=
  let e := updatePostSubmit cfg e obs now
  let r :=
    if obs.promptKind = .freeText ∨ obs.promptKind = .modalChoice
        ∨ obs.promptKind = .permissionChoice then onPrompt cfg e obs now
    else onBusy cfg e obs now
  (refreshState cfg r.1 obs now, r.2)

/-! ### The tick of a session whose hooks are active -/

/-- The screen's meaning advancing after the last hook is progress; a moving spinner is not. -/
def trackHookProgress (e : BeliefEngine) (obs : Observation) (now : Time) : BeliefEngine :=
  match e.hookProgressFp with
  | none =>
    { e with
      hookProgressFp := some obs.semanticFp
      hookProgressAt := some (e.lastHookAt.getD now) }
  | some fp =>
    if obs.semanticFp ≠ fp then
      { e with hookProgressFp := some obs.semanticFp, hookProgressAt := some now }
    else e

def lostStopStuck (e : BeliefEngine) (now : Time) : Bool :=
  elapsed e.lastHookAt now cfg.lostStopAfter && elapsed e.hookProgressAt now cfg.lostStopAfter

/-- An advisory that also takes the control state, when it fires. -/
def escalateLostStop (e : BeliefEngine) (obs : Observation) (now : Time) :
    BeliefEngine × List Action :=
  let r := escalate cfg e obs now .lostStop .lostStop
  (if r.2 = [] then r.1 else r.1.setControlState .interventionRequired, r.2)

/-- Remember since when the free-text prompt has been standing. -/
def watchPrompt (e : BeliefEngine) (obs : Observation) (now : Time) : BeliefEngine :=
  let fp := orFp obs.promptFp obs.semanticFp
  if e.reconcileFp ≠ some fp then
    { e with reconcileFp := some fp, reconcileSince := some now }
  else e

def forgetPrompt (e : BeliefEngine) : BeliefEngine :=
  { e with reconcileFp := none, reconcileSince := none }

/-- The prompt stood still, and no hook came, for the turn grace. -/
def lostStopSettled (e : BeliefEngine) (now : Time) : Bool :=
  elapsed e.reconcileSince now cfg.hookTurnGrace &&
    (e.lastHookAt == none || elapsed e.lastHookAt now cfg.hookTurnGrace)

/-- The reconciled close keeps the pending gate and the tombstones. -/
def reconcileIdle (e : BeliefEngine) : BeliefEngine :=
  setControl
    { e.forgetPrompt with turnOpen := false, idlePublishedEpoch := some e.turnEpoch }
    .idle .idle

/-- A stable free-text prompt after the last hook is a lost `Stop`: a low-confidence idle. -/
def reconcileLostStopIdle (e : BeliefEngine) (obs : Observation) (now : Time) :
    BeliefEngine × List Action :=
  let e := e.watchPrompt obs now
  if ¬ lostStopSettled cfg e now then (e, [])
  else (e.reconcileIdle, [idlePublish e.turnEpoch false (some true)])

/-- The frozen-meaning ladder over hook mode: its verdict owns the control state. -/
def tickHookWatchdog (e : BeliefEngine) (obs : Observation) (now : Time) :
    BeliefEngine × List Action :=
  let r := watchdog cfg e obs now
  let control := if r.1.interventionActive then .interventionRequired else .busy
  (refreshFields cfg (r.1.setControlState control) obs now, r.2)

/-- Hooks own the control state: the screen may reconcile a lost `Stop` or escalate a stall. -/
def tickHookActive (e : BeliefEngine) (obs : Observation) (now : Time) :
    BeliefEngine × List Action :=
  if e.state.controlState ≠ .busy ∧ e.state.controlState ≠ .interventionRequired then
    (refreshFields cfg e obs now, [])
  else if obs.promptKind = .freeText then
    let r := reconcileLostStopIdle cfg e obs now
    if r.2 ≠ [] then r else tickHookWatchdog cfg r.1 obs now
  else
    let e := e.forgetPrompt.trackHookProgress obs now
    if lostStopStuck cfg e now then escalateLostStop cfg e obs now
    else tickHookWatchdog cfg e obs now

/-- A dead child, or a crash or exit screen, wins over everything. -/
def terminalTick (obs : Observation) (ctx : ObservationCtx) : Bool :=
  !ctx.childAlive || obs.promptKind == .crash || obs.promptKind == .exit

/-- The substrate every tick starts with. -/
def track (e : BeliefEngine) (obs : Observation) (now : Time) : BeliefEngine :=
  (e.trackSemantic obs now).trackHeartbeat obs now

/-- The tick of a living session: hooks own it once there was one, the screen until then. -/
def tickAlive (e : BeliefEngine) (obs : Observation) (now : Time) : BeliefEngine × List Action :=
  if e.hookMode = .active then tickHookActive cfg e obs now else tickScreen cfg e obs now

/-- Process exit first, then the hooks, then the screen. -/
def tick (e : BeliefEngine) (obs : Observation) (ctx : ObservationCtx) (now : Time) :
    BeliefEngine × List Action :=
  let e := e.track obs now
  if terminalTick obs ctx then (e.setControl .terminal .terminal, [.finalize])
  else tickAlive cfg (maybeExpireStartupGrace cfg e now) obs now

end BeliefEngine

end Nelix.Daemon
