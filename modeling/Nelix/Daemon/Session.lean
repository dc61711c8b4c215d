import Nelix.Daemon.Events

/-!
# The session

What a session does in each of its lock sections, between which other threads may run: mirroring
the engine, publishing and withdrawing a decision, and the two answer slots that RPC threads
enqueue into and the monitor thread drains. A decision is a mutable dictionary that a responder
may still hold after it was replaced, so the session keeps the decisions it ever installed by id
and `decision` names the current one. What the terminal and the dialog show is an argument.
-/
namespace Nelix.Daemon

/-- `prompt_kind in ("modal_choice", "permission_choice")` -/
def PromptKind.isChoice : PromptKind → Bool
  | .modalChoice | .permissionChoice => true
  | _ => false

def isChoice (kind : Option PromptKind) : Bool :=
  match kind with
  | some kind => kind.isChoice
  | none => false

/-- The key of a decision: the engine's, or the normalized frame of a pre-delivery prompt. -/
inductive SessionKey
  | engine (key : DecisionKey)
  | frame (fp : String)
  deriving DecidableEq, Repr

/-- The semantic identity of a modal on the screen; `bodyFp` is none where the driver found no
body. -/
structure ModalDedup where
  promptKind : PromptKind
  options : List MenuOption
  bodyFp : Option String
  deriving DecidableEq, Repr

/-- What the dialog and the renderer show when a decision is built. -/
structure View where
  text : String := ""
  totalLen : ℕ := 0
  startOffset : ℕ := 0
  screen : String := ""
  lastUserInputOffset : ℕ := 0
  owner : Option String := none

/-- The arguments of `_publish`. -/
structure Announcement where
  kind : EventKind
  hint : Option EventHint := none
  hung : Bool := false
  requiresResponse : Option Bool := none
  taskDelivery : Option TaskDelivery := none
  decisionKey : Option SessionKey := none
  options : List MenuOption := []
  promptKind : Option PromptKind := none
  busyReason : Option BusyReason := none
  escalationCount : Option ℕ := none
  modalDedup : Option ModalDedup := none

/-- The frozen part of a decision. -/
structure Frozen where
  kind : EventKind
  hint : Option EventHint
  hung : Bool
  text : String
  taskDelivery : TaskDelivery
  requiresResponse : Bool
  screenExcerpt : String
  totalLen : ℕ
  truncated : Bool
  options : List MenuOption
  promptKind : Option PromptKind
  busyReason : Option BusyReason
  escalationCount : Option ℕ
  lastUserInputOffset : ℕ

/-- A respondable decision: a frozen one with an identity and its latest event. -/
structure Ask extends Frozen where
  decisionKey : Option SessionKey
  decisionId : DecisionId
  modalDedup : Option ModalDedup
  modalEpoch : Option ℕ
  eventId : EventId := 0

/-- The current decision: an idle, which nobody can answer, or a respondable one. -/
inductive Decision
  | idle (frozen : Frozen)
  | ask (id : DecisionId)

/-- A decision that was built and whose event is not published yet. -/
structure Built where
  notice : Notice
  frozen : Frozen
  ask : Option Ask
  isReemit : Bool

/-- An answer to a pre-delivery modal, handed to the monitor by the call `call`. -/
structure PendingAnswer where
  call : ℕ
  decisionId : DecisionId
  clean : String
  targetDedup : Option ModalDedup

/-- A free-text answer, handed to the monitor by the call `call`. -/
structure PendingSubmit where
  call : ℕ
  decisionId : DecisionId
  clean : String
  written : Bool := false
  sawEcho : Bool := false
  seq : Option EventId := none

/-- The results of a call of `respond` on a session. -/
inductive RespondStatus
  | resumed | respondFailed | noPending | stale | invalidOption | writeTimeout | terminal
  | missingDecisionId
  deriving DecidableEq, Repr

/-- `pending` describes the current decision to a caller who missed it. -/
structure RespondOutcome where
  status : RespondStatus
  seq : Option EventId := none
  decisionId : Option DecisionId := none
  pending : Option Ask := none
  answeredDecisionId : Option DecisionId := none

structure Session where
  id : SessionId
  executor : String := ""
  engine : BeliefEngine := {}
  events : EventQueue := {}
  state : SessionState := .live .busy
  lastSubmitted : Option String := none
  intervention : Option (DecisionKey × ℕ × Option BusyReason × Option Liveness) := none
  decision : Option Decision := none
  asks : AList fun _ : DecisionId => Ask := ∅
  nextDecision : ℕ := 0
  lastScreenExcerpt : String := ""
  lastModalOptions : Option (List MenuOption) := none
  modalEpoch : ℕ := 0
  lastModalEpoch : Option ℕ := none
  taskDelivery : TaskDelivery := .pending
  pendingAnswer : Option PendingAnswer := none
  pendingSubmit : Option PendingSubmit := none
  finalized : Bool := false
  closing : Bool := false

/-- Whether an answer was enqueued, or why not. -/
inductive Enqueued
  | refused (status : RespondStatus)
  | alreadyDelivered
  | waiting (s : Session)

namespace Session

variable (cfg : BeliefConfig)

/-! ### The current decision -/

/-- The id of the current decision, where it has one. -/
def currentId (s : Session) : Option DecisionId :=
  match s.decision with
  | some (.ask id) => some id
  | _ => none

/-- The current respondable decision. -/
def currentAsk (s : Session) : Option Ask := s.currentId.bind s.asks.lookup

/-- `decision.get("decision_key")`; an idle has none. -/
def currentKey (s : Session) : Option SessionKey := s.currentAsk.bind (·.decisionKey)

def setDecision (s : Session) (decision : Option Decision) : Session :=
  { s with decision := decision }

def setState (s : Session) (state : SessionState) : Session := { s with state := state }

def setEvents (s : Session) (events : EventQueue) : Session := { s with events := events }

/-- Change a decision in place. -/
def updateAsk (s : Session) (id : DecisionId) (f : Ask → Ask) : Session :=
  match s.asks.lookup id with
  | some ask => { s with asks := s.asks.insert id (f ask) }
  | none => s

/-- `EventQueue.resolve_decision` on the shared queue. -/
def resolve (s : Session) (id : DecisionId) (reason : ResolvedReason) :
    Session × Option EventId :=
  (s.setEvents (s.events.resolveDecision id reason).1, (s.events.resolveDecision id reason).2)

/-! ### Publishing -/

/-- The decision that `_publish` freezes, before it has an identity. -/
def freeze (s : Session) (a : Announcement) (view : View) : Frozen where
  kind := a.kind
  hint := a.hint
  hung := a.hung
  text := view.text
  taskDelivery := a.taskDelivery.getD s.taskDelivery
  requiresResponse := a.requiresResponse.getD a.kind.respondable
  screenExcerpt := view.screen
  totalLen := view.totalLen
  truncated := decide (0 < view.startOffset)
  options := a.options
  promptKind := a.promptKind
  busyReason := a.busyReason
  escalationCount := a.escalationCount
  lastUserInputOffset := view.lastUserInputOffset

/-- A re-emit of the current pause. An idle has no key, and every respondable publish has one. -/
def isReemit (s : Session) (key : Option SessionKey) : Bool :=
  match s.currentAsk with
  | some ask => ask.decisionKey == key
  | none => false

/-- A new decision under a fresh id; a new modal takes the current generation. -/
def mint (s : Session) (a : Announcement) (frozen : Frozen) : Session × Ask :=
  ({ s with
      nextDecision := s.nextDecision + 1
      modalEpoch := if isChoice a.promptKind then s.modalEpoch + 1 else s.modalEpoch },
    { frozen with
      decisionKey := a.decisionKey
      decisionId := .dec s.id s.nextDecision
      modalDedup := a.modalDedup
      modalEpoch := if isChoice a.promptKind then some s.modalEpoch else none })

/-- A re-emit keeps the id and the generation of the decision it repeats. -/
def identify (s : Session) (a : Announcement) (frozen : Frozen) : Session × Ask :=
  match s.currentAsk with
  | some ask =>
    if ask.decisionKey = a.decisionKey then
      (s,
        { frozen with
          decisionKey := a.decisionKey
          decisionId := ask.decisionId
          modalDedup := a.modalDedup
          modalEpoch := ask.modalEpoch })
    else s.mint a frozen
  | none => s.mint a frozen

/-- The first lock section of `_publish`. -/
def build (s : Session) (a : Announcement) (view : View) : Session × Built :=
  let frozen := s.freeze a view
  let s := { s with lastScreenExcerpt := view.screen }
  let notice (id : Option DecisionId) : Notice :=
    { sessionId := s.id, executor := s.executor, kind := a.kind
      summary := (view.text.take 200).toString, decisionId := id, hint := a.hint, hung := a.hung
      taskDelivery := frozen.taskDelivery, requiresResponse := frozen.requiresResponse
      screenExcerpt := view.screen }
  if a.kind.respondable then
    let r := s.identify a frozen
    (r.1, ⟨notice (some r.2.decisionId), frozen, some r.2, s.isReemit a.decisionKey⟩)
  else (s, ⟨notice none, frozen, none, false⟩)

/-- A re-emit renews the notification of the current decision, and may refine its kind. -/
def refresh (ask : Ask) (e : Event) (current : Ask) : Ask :=
  let current := { current with eventId := e.seq, hung := ask.hung }
  if ask.promptKind ≠ none ∧ current.promptKind ≠ ask.promptKind then
    { current with promptKind := ask.promptKind, hint := ask.hint }
  else current

/-- The event of the decision that a new one supersedes is resolved with it. -/
def supersede (q : EventQueue) (prior : Option DecisionId) (id : DecisionId) : EventQueue :=
  match prior with
  | some prior => if prior ≠ id then (q.resolveDecision prior .superseded).1 else q
  | none => q

/-- `_install`, which runs while the event is in its publish. -/
def install (s : Session) (ask : Ask) (isReemit : Bool) (q : EventQueue) (e : Event) :
    EventQueue × Session :=
  if s.currentId = some ask.decisionId then
    (q, s.updateAsk ask.decisionId (refresh ask e))
  else if isReemit then
    -- answered or superseded between build and publish
    (q.mark e.seq .superseded, s)
  else
    (supersede q s.currentId ask.decisionId,
      { s with
        decision := some (.ask ask.decisionId)
        asks := s.asks.insert ask.decisionId { ask with eventId := e.seq } })

/-- Publish the event of a built decision, and install the decision with it. -/
def commit (s : Session) (b : Built) (owner : Option String) : Session :=
  let notice := { b.notice with state := s.state }
  match b.ask with
  | some ask =>
    let r := s.events.publish notice owner (s.install ask b.isReemit)
    r.2.2.setEvents r.1
  | none =>
    let r := s.events.publish notice owner fun q _ => (q, ())
    s.setEvents r.1

/-- An idle is frozen as the current decision after its event. -/
def freezeIdle (s : Session) (b : Built) : Session :=
  if b.notice.kind = .idle then s.setDecision (some (.idle b.frozen)) else s

/-- `_publish` without a thread in between. -/
def publish (s : Session) (a : Announcement) (view : View) : Session :=
  let r := s.build a view
  (r.1.commit r.2 view.owner).freezeIdle r.2

/-! ### The actions of the engine -/

/-- Mirror the engine's control state; a terminal one is left to `_finish`. -/
def mirrorControl (s : Session) : Session :=
  if s.engine.state.controlState = .terminal then s
  else s.setState (.live s.engine.state.controlState)

/-- An idle decision is stale once the engine left idle. -/
def dropStaleIdle (s : Session) : Session :=
  match s.decision with
  | some (.idle _) => if s.state ≠ .live .idle then s.setDecision none else s
  | _ => s

/-- `_sync_control_state` -/
def syncControlState (s : Session) : Session := s.mirrorControl.dropStaleIdle

/-- `_drain_hooks`, one event: the section before its actions are applied. -/
def drainHook (s : Session) (hobs : HookObservation) (now : Time) : Session × List Action :=
  let r := s.engine.onHook cfg hobs now
  ({ s with engine := r.1.drainNotes.1 }.syncControlState, r.2)

/-- The tick of `_loop_once`: the actions, and whether the session went idle in it. -/
def tick (s : Session) (obs : Observation) (ctx : ObservationCtx) (now : Time) :
    Session × List Action × Bool :=
  let r := s.engine.tick cfg obs ctx now
  let s' := { s with engine := r.1.drainNotes.1 }.syncControlState
  (s', r.2, decide (s.state ≠ .live .idle ∧ s'.state = .live .idle))

/-- The section of `_apply_withdraw`: the decision it takes down, if it is still current. -/
def takeDown (s : Session) (key : DecisionKey) : Session × Option DecisionId :=
  if s.currentKey = some (.engine key) then
    ((s.setDecision none).setState (.live .busy), s.currentId)
  else (s, none)

def applyWithdraw (s : Session) (key : DecisionKey) (reason : WithdrawReason) : Session :=
  match s.takeDown key with
  | (s, some id) => (s.resolve id reason.resolved).1
  | (s, none) => s

/-- The advisory that `_emit_intervention` remembers. -/
def recordIntervention (s : Session) (p : Publish) : Session :=
  { s with
    intervention := some
      (p.decisionKey, p.payload.escalationCount.getD 1, p.payload.busyReason,
        p.payload.liveness) }

/-- How an engine publish is announced. -/
def announcement (p : Publish) : Announcement :=
  match p.kind with
  | .interventionRequired =>
    { kind := .interventionRequired, hint := p.payload.hint.map .belief, hung := true
      requiresResponse := some false, busyReason := p.payload.busyReason
      escalationCount := some (p.payload.escalationCount.getD 1) }
  | .idle =>
    { kind := .idle, hint := p.payload.hint.map .belief, requiresResponse := some false
      decisionKey := some (.engine p.decisionKey), busyReason := p.payload.busyReason }
  | .waitingForUser =>
    { kind := .waitingForUser, hint := p.payload.hint.map .belief, requiresResponse := some true
      decisionKey := some (.engine p.decisionKey), options := p.payload.options
      promptKind := p.payload.promptKind, busyReason := p.payload.busyReason }

def applyPublish (s : Session) (p : Publish) (view : View) : Session :=
  let s := if p.kind = .interventionRequired then s.recordIntervention p else s
  s.publish (announcement p) view

/-- `_apply_actions`; a finalize is the loop's own business. -/
def applyAction (view : View) (s : Session) : Action → Session
  | .publish p => s.applyPublish p view
  | .withdraw key reason => s.applyWithdraw key reason
  | .finalize => s

def applyActions (s : Session) (actions : List Action) (view : View) : Session :=
  actions.foldl (applyAction view) s

/-! ### Options of a modal -/

/-- Fill an empty list of options. -/
def fillOptions (options : List MenuOption) (ask : Ask) : Ask :=
  if ask.options = [] then { ask with options := options } else ask

/-- `_enrich_hook_modal_options` -/
def enrichHookModalOptions (s : Session) (obs : Observation) : Session :=
  match s.currentAsk with
  | some ask =>
    if obs.promptKind.isChoice ∧ obs.options ≠ [] ∧ ask.kind = .waitingForUser
        ∧ isChoice ask.promptKind then s.updateAsk ask.decisionId (fillOptions obs.options)
    else s
  | none => s

/-- `_cache_last_modal_options`: the cache is tagged with the generation it belongs to. -/
def cacheLastModalOptions (s : Session) (obs : Observation) : Session :=
  if obs.promptKind.isChoice ∧ obs.options ≠ [] then
    let pending := s.currentAsk.bind fun ask =>
      if isChoice ask.promptKind then ask.modalEpoch else none
    { s with
      lastModalOptions := some obs.options
      lastModalEpoch := some (pending.getD s.modalEpoch) }
  else { s with lastModalOptions := none, lastModalEpoch := none }

/-- `_hydrate_respond_options`, from the monitor's cache. -/
def hydrateRespondOptions (s : Session) (id : DecisionId) : Session :=
  match s.asks.lookup id, s.lastModalOptions with
  | some ask, some cached =>
    if isChoice ask.promptKind ∧ ask.options = [] ∧ cached ≠ [] ∧ s.lastModalEpoch ≠ none
        ∧ s.lastModalEpoch = ask.modalEpoch then s.updateAsk id (fillOptions cached)
    else s
  | _, _ => s

/-! ### Submits -/

/-- The engine is told of a submit that was written, and the session works again. -/
def recordSubmit (s : Session) (clean : String) (now : Time) : Session :=
  { s with
    lastSubmitted := some clean
    engine := (s.engine.onSubmit cfg now).drainNotes.1
    state := .live .busy }

/-- The end of `send_turn`: the idle decision is consumed. -/
def reopenTurn (s : Session) (clean : String) (now : Time) : Session :=
  (s.recordSubmit cfg clean now).setDecision none

/-! ### The answer slots -/

/-- The modal that a frame shows, where it is a numbered choice. -/
def modalDedup (obs : Observation) (bodyFp : Option String) : Option ModalDedup :=
  if obs.promptKind.isChoice ∧ obs.options ≠ [] then
    some { promptKind := obs.promptKind, options := obs.options, bodyFp := bodyFp }
  else none

/-- Whether the frame still shows the modal an answer targets, body included. -/
def answersFrame (pa : PendingAnswer) (obs : Observation) (bodyFp : Option String) : Bool :=
  match modalDedup obs bodyFp with
  | some shown => pa.targetDedup == some shown && shown.bodyFp.isSome
  | none => false

/-- The answered decision is still the pending pre-delivery one. -/
def blockedOn (s : Session) (id : DecisionId) : Bool :=
  match s.currentAsk with
  | some ask => ask.decisionId == id && ask.kind == .blocked && s.taskDelivery == .pending
  | none => false

/-- The claim of `_drain_pending_answer`: the answer it took, and whether to type it. -/
def claimAnswer (s : Session) (obs : Observation) (bodyFp : Option String) :
    Session × Option (PendingAnswer × Bool) :=
  match s.pendingAnswer with
  | none => (s, none)
  | some pa =>
    let s := { s with pendingAnswer := none }
    if s.blockedOn pa.decisionId ∧ answersFrame pa obs bodyFp then
      (s.setDecision none, some (pa, true))
    else (s, some (pa, false))

/-! ### Answering -/

/-- The first section of `respond`: bind to the current decision, which the caller names. -/
def bindRespond (s : Session) (given : Option DecisionId) : Except RespondOutcome DecisionId :=
  if s.closing then .error { status := .terminal }
  else match s.currentId with
    | none => .error { status := .noPending }
    | some id =>
      match given with
      | none => .error { status := .missingDecisionId, pending := s.currentAsk }
      | some given =>
        if id ≠ given then .error { status := .stale, pending := s.currentAsk } else .ok id

/-- A choice is answered with one of its option ids. -/
def acceptsOption (ask : Ask) (clean : String) : Bool :=
  !isChoice ask.promptKind || (ask.options.map (·.id)).contains clean

/-- The claim of a direct answer: one responder takes the decision. -/
def claimDirect (s : Session) (id : DecisionId) : Option Session :=
  if s.currentId = some id then some (s.setDecision none) else none

/-- The section of `_respond_blocked`. -/
def enqueueAnswer (s : Session) (call : ℕ) (id : DecisionId) (clean : String) : Enqueued :=
  if s.closing then .refused .terminal
  else if s.currentId ≠ some id then .refused .noPending
  else if s.pendingAnswer.isSome then .refused .noPending
  else if s.taskDelivery ≠ .pending then .alreadyDelivered
  else .waiting
    { s with
      pendingAnswer := some
        { call := call, decisionId := id, clean := clean
          targetDedup := (s.asks.lookup id).bind (·.modalDedup) } }

/-- The section of `_respond_free_text`. -/
def enqueueSubmit (s : Session) (call : ℕ) (id : DecisionId) (clean : String) : Enqueued :=
  if s.closing then .refused .terminal
  else if s.currentId ≠ some id then .refused .noPending
  else if s.pendingSubmit.isSome then .refused .noPending
  else .waiting { s with pendingSubmit := some { call := call, decisionId := id, clean := clean } }

/-- A pre-delivery answer is enqueued for the current decision, into an empty slot. -/
theorem enqueueAnswer_waiting {s s' : Session} {call : ℕ} {id : DecisionId} {clean : String}
    (enqueued : s.enqueueAnswer call id clean = .waiting s') :
    s.closing = false ∧ s.currentId = some id ∧ s.pendingAnswer = none ∧
      s.taskDelivery = .pending ∧
      s' =
        { s with
          pendingAnswer := some
            { call := call, decisionId := id, clean := clean
              targetDedup := (s.asks.lookup id).bind (·.modalDedup) } } := by
  simp only [enqueueAnswer] at enqueued
  split at enqueued
  next => cases enqueued
  next isOpen =>
    split at enqueued
    next => cases enqueued
    next current =>
      split at enqueued
      next => cases enqueued
      next free =>
        split at enqueued
        next => cases enqueued
        next undelivered =>
          cases enqueued
          exact ⟨by simpa using isOpen, not_not.mp current, by simpa using free,
            not_not.mp undelivered, rfl⟩

/-- Likewise a free-text submit. -/
theorem enqueueSubmit_waiting {s s' : Session} {call : ℕ} {id : DecisionId} {clean : String}
    (enqueued : s.enqueueSubmit call id clean = .waiting s') :
    s.closing = false ∧ s.currentId = some id ∧ s.pendingSubmit = none ∧
      s' =
        { s with pendingSubmit := some { call := call, decisionId := id, clean := clean } } := by
  simp only [enqueueSubmit] at enqueued
  split at enqueued
  next => cases enqueued
  next isOpen =>
    split at enqueued
    next => cases enqueued
    next current =>
      split at enqueued
      next => cases enqueued
      next free =>
        cases enqueued
        exact ⟨by simpa using isOpen, not_not.mp current, by simpa using free, rfl⟩

/-- What the monitor does with a free-text submit. -/
inductive SubmitStep
  | nothing | abort | write | confirm | unconfirmed
  deriving DecidableEq, Repr

/-- Positive evidence, in a frame pumped after the write, that the text landed. -/
def landed (ps : PendingSubmit) (obs : Observation) : Bool :=
  !obs.submittedEchoPresent &&
    (ps.sawEcho || (obs.promptKind == .none && obs.heartbeat.present) || obs.promptKind.isChoice
      || obs.promptKind == .crash || obs.promptKind == .exit)

/-- The section of `_drain_pending_submit`; `late` says that the confirm deadline has passed. -/
def drainSubmit (s : Session) (obs : Observation) (late : Bool) :
    Session × Option (PendingSubmit × SubmitStep) :=
  match s.pendingSubmit with
  | none => (s, none)
  | some ps =>
    if ¬ ps.written then
      if s.currentId = some ps.decisionId ∧ obs.promptKind = .freeText then
        -- claimed before the write; the slot is kept for the confirmation
        (s.setDecision none, some (ps, .write))
      else ({ s with pendingSubmit := none }, some (ps, .abort))
    else
      let ps := if obs.submittedEchoPresent then { ps with sawEcho := true } else ps
      if landed ps obs then ({ s with pendingSubmit := none }, some (ps, .confirm))
      else if late then ({ s with pendingSubmit := none }, some (ps, .unconfirmed))
      else ({ s with pendingSubmit := some ps }, some (ps, .nothing))

/-- What a drain of the submit slot can do. -/
inductive SubmitEffect (s : Session) : Session × Option (PendingSubmit × SubmitStep) → Prop
  | empty (free : s.pendingSubmit = none) : SubmitEffect s (s, none)
  | write (ps : PendingSubmit) (slot : s.pendingSubmit = some ps) (queued : ps.written = false)
      (current : s.currentId = some ps.decisionId) :
      SubmitEffect s (s.setDecision none, some (ps, .write))
  | abort (ps : PendingSubmit) (slot : s.pendingSubmit = some ps) (queued : ps.written = false) :
      SubmitEffect s ({ s with pendingSubmit := none }, some (ps, .abort))
  | wait (ps : PendingSubmit) (echo : Bool) (slot : s.pendingSubmit = some ps)
      (done : ps.written = true) :
      SubmitEffect s
        ({ s with pendingSubmit := some { ps with sawEcho := echo } },
          some ({ ps with sawEcho := echo }, .nothing))
  | settle (ps : PendingSubmit) (echo : Bool) (verdict : SubmitStep)
      (slot : s.pendingSubmit = some ps) (done : ps.written = true)
      (ends : verdict = .confirm ∨ verdict = .unconfirmed) :
      SubmitEffect s
        ({ s with pendingSubmit := none }, some ({ ps with sawEcho := echo }, verdict))

theorem drainSubmit_effect (s : Session) (obs : Observation) (late : Bool) :
    SubmitEffect s (s.drainSubmit obs late) := by
  simp only [drainSubmit]
  cases slot : s.pendingSubmit with
  | none => exact .empty slot
  | some ps =>
    dsimp only
    by_cases done : ps.written = true
    · rw [if_neg (not_not_intro done)]
      have echoed : (if obs.submittedEchoPresent = true then { ps with sawEcho := true } else ps) =
          { ps with sawEcho := obs.submittedEchoPresent || ps.sawEcho } := by
        cases obs.submittedEchoPresent <;> rfl
      rw [echoed]
      split
      · exact .settle ps _ _ slot done (.inl rfl)
      · split
        · exact .settle ps _ _ slot done (.inr rfl)
        · exact .wait ps _ slot done
    · rw [if_pos done]
      have queued : ps.written = false := Bool.eq_false_iff.mpr done
      split
      next fits => exact .write ps slot queued fits.1
      next => exact .abort ps slot queued

/-- After the write the slot waits for its confirmation, unless its caller gave it up. -/
def awaitConfirm (s : Session) (call : ℕ) (seq : Option EventId) : Session :=
  match s.pendingSubmit with
  | some ps =>
    if ps.call = call then
      { s with
        pendingSubmit := some { ps with written := true, sawEcho := false, seq := seq } }
    else s
  | none => s

/-- The section of `_deliver_task` once the task's echo was seen: a pre-delivery prompt that is
still pending is retired, and an answer to it that nobody drained is taken out of its slot. -/
def confirmDelivery (s : Session) (task : String) (hookCapable : Bool) (now : Time) :
    Session × Option DecisionId × Option PendingAnswer :=
  let submitted := s.engine.onSubmit cfg now
  let engine := if hookCapable then submitted.expectHooks now else submitted
  let orphan := match s.currentAsk with
    | some ask => if ask.kind = .blocked then s.currentId else none
    | none => none
  ({ s with
      taskDelivery := .delivered
      lastSubmitted := some task
      engine := engine.drainNotes.1
      decision := if orphan.isSome then none else s.decision
      pendingAnswer := none },
    orphan, s.pendingAnswer)

end Session

end Nelix.Daemon
