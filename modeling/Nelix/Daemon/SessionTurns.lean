import Nelix.Core.Ledger
import Nelix.Core.Machine
import Nelix.Core.Slot
import Nelix.Daemon.BeliefRuns
import Nelix.Daemon.Session

/-!
# The idle callback

A hook-mode session as a machine over drained hooks, loop iterations, follow-up turns and answers.
The loop fires `on_idle` when its own tick moved the session's state to idle, while a hook moves
the state already as it is drained. A `Stop` is reported only where a withdraw of the pending
decision puts the state back to busy, and where nothing is drained before the tick; a follow-up
that was submitted is reported as idle if a tick comes before the hook that opens its turn.
-/
namespace Nelix.Daemon

/-- What a run of a session shows to its manager. -/
inductive TurnEvent
  | turnCompleted | idleFired | resumed | ticked
  deriving DecidableEq, Repr

/-- An operation on a living session, run to its end: no screen says that the child died. -/
inductive TurnOp
  | hook (hobs : HookObservation) (now : Time) (view : View)
  | loop (obs : Observation)
      (living : BeliefEngine.terminalTick obs { childAlive := true } = false) (now : Time)
      (view : View) (written late : Bool)
  | sendTurn (clean : Option String) (written : Bool) (now : Time)
  | respond (call : ℕ) (clean : Option String) (id : Option DecisionId) (written : Bool)
      (now : Time)
  | giveUp (call : ℕ)

namespace Session

variable (cfg : BeliefConfig)

/-! ### The operations -/

/-- One turn of `_drain_hooks`. -/
def hookOnce (s : Session) (hobs : HookObservation) (now : Time) (view : View) : Session :=
  let r := s.drainHook cfg hobs now
  r.1.applyActions r.2 view

/-- `_drain_pending_submit` with no thread in between. -/
def submitOnce (s : Session) (obs : Observation) (written late : Bool) (now : Time) : Session :=
  match s.drainSubmit obs late with
  | (s, some (ps, .abort)) => (s.resolve ps.decisionId .superseded).1
  | (s, some (ps, .write)) =>
    if written then
      let r := s.resolve ps.decisionId .answered
      (r.1.recordSubmit cfg ps.clean now).awaitConfirm ps.call r.2
    else ({ s with pendingSubmit := none }.resolve ps.decisionId .superseded).1
  | (s, _) => s

/-- `_loop_once` after its hooks, while the child lives; the flag is the idle callback. -/
def loopOnce (s : Session) (obs : Observation) (now : Time) (view : View) (written late : Bool) :
    Session × Bool :=
  let r := (s.cacheLastModalOptions obs).tick cfg obs { childAlive := true } now
  (((r.1.applyActions r.2.1 view).enrichHookModalOptions obs).submitOnce cfg obs written late now,
    r.2.2)

/-- `send_turn`; the flag says that it resumed the session. -/
def sendTurn (s : Session) (clean : Option String) (written : Bool) (now : Time) :
    Session × Bool :=
  if s.closing ∨ s.state ≠ .live .idle then (s, false)
  else match clean with
    | none => (s, false)
    | some clean => if written then (s.reopenTurn cfg clean now, true) else (s, false)

/-- An answer that the responder writes itself. -/
def answerDirect (s : Session) (id : DecisionId) (clean : String) (written : Bool) (now : Time) :
    Session :=
  match s.claimDirect id with
  | some s =>
    let s := (s.resolve id .answered).1
    if written then s.recordSubmit cfg clean now else s
  | none => s

/-- An answer to a bound decision, by the decision's kind. -/
def route (s : Session) (call : ℕ) (ask : Ask) (clean : String) (written : Bool) (now : Time) :
    Session :=
  if ¬ acceptsOption ask clean then s
  else if ask.kind = .blocked then
    match s.enqueueAnswer call ask.decisionId clean with
    | .waiting s => s
    | .alreadyDelivered => (s.resolve ask.decisionId .superseded).1
    | .refused _ => s
  else if ask.promptKind = some .freeText then
    match s.enqueueSubmit call ask.decisionId clean with
    | .waiting s => s
    | _ => s
  else s.answerDirect cfg ask.decisionId clean written now

/-- `respond`, up to the wait for the monitor. -/
def respondOnce (s : Session) (call : ℕ) (clean : Option String) (id : Option DecisionId)
    (written : Bool) (now : Time) : Session :=
  match s.bindRespond id, clean with
  | .ok id, some clean =>
    let s := s.hydrateRespondOptions id
    match s.asks.lookup id with
    | some ask => s.route cfg call ask clean written now
    | none => s
  | _, _ => s

/-- The wait for the monitor ran out: the submit is taken back. -/
def giveUp (s : Session) (call : ℕ) : Session :=
  match s.pendingSubmit with
  | some ps =>
    if ps.call = call then ({ s with pendingSubmit := none }.resolve ps.decisionId .superseded).1
    else s
  | none => s

def resting (s : Session) : Bool := s.engine.state.controlState == .idle

/-- The engine entered idle between two states. -/
def completed (s s' : Session) : List TurnEvent :=
  if s.resting = false ∧ s'.resting = true then [.turnCompleted] else []

/-- A living session as a machine over its operations. -/
def turns : Core.Machine Session TurnOp TurnEvent where
  step s
    | .hook hobs now view =>
      let s' := s.hookOnce cfg hobs now view
      (s', completed s s')
    | .loop obs _ now view written late =>
      let r := s.loopOnce cfg obs now view written late
      (r.1, completed s r.1 ++ (if r.2 then [.idleFired] else []) ++ [.ticked])
    | .sendTurn clean written now =>
      let r := s.sendTurn cfg clean written now
      (r.1, if r.2 then [.resumed] else [])
    | .respond call clean id written now => (s.respondOnce cfg call clean id written now, [])
    | .giveUp call => (s.giveUp call, [])

/-! ### What an operation touches -/

/-- What the idle edge depends on. -/
def plane (s : Session) : BeliefEngine × SessionState × Option Decision :=
  (s.engine, s.state, s.decision)

theorem updateAsk_plane (s : Session) (id : DecisionId) (f : Ask → Ask) :
    (s.updateAsk id f).plane = s.plane := by
  simp only [updateAsk]
  split <;> rfl

theorem cacheLastModalOptions_plane (s : Session) (obs : Observation) :
    (s.cacheLastModalOptions obs).plane = s.plane := by
  simp only [cacheLastModalOptions]
  split <;> rfl

theorem enrichHookModalOptions_plane (s : Session) (obs : Observation) :
    (s.enrichHookModalOptions obs).plane = s.plane := by
  simp only [enrichHookModalOptions]
  split
  · split
    · exact updateAsk_plane s _ _
    · rfl
  · rfl

theorem hydrateRespondOptions_plane (s : Session) (id : DecisionId) :
    (s.hydrateRespondOptions id).plane = s.plane := by
  simp only [hydrateRespondOptions]
  split
  · split
    · exact updateAsk_plane s _ _
    · rfl
  · rfl

theorem engine_of_plane {s s' : Session} (same : s'.plane = s.plane) : s'.engine = s.engine :=
  congrArg Prod.fst same

theorem state_of_plane {s s' : Session} (same : s'.plane = s.plane) : s'.state = s.state :=
  congrArg (·.2.1) same

theorem decision_of_plane {s s' : Session} (same : s'.plane = s.plane) :
    s'.decision = s.decision :=
  congrArg (·.2.2) same

theorem install_frame (s : Session) (ask : Ask) (isReemit : Bool) (q : EventQueue) (e : Event) :
    (s.install ask isReemit q e).2.engine = s.engine ∧
      (s.install ask isReemit q e).2.state = s.state := by
  simp only [install]
  split
  · exact ⟨engine_of_plane (updateAsk_plane s _ _), state_of_plane (updateAsk_plane s _ _)⟩
  · split <;> exact ⟨rfl, rfl⟩

theorem build_frame (s : Session) (a : Announcement) (view : View) :
    (s.build a view).1.engine = s.engine ∧ (s.build a view).1.state = s.state ∧
      (s.build a view).2.notice.kind = a.kind := by
  simp only [build, identify, mint]
  split
  · split
    · split <;> exact ⟨rfl, rfl, rfl⟩
    · exact ⟨rfl, rfl, rfl⟩
  · exact ⟨rfl, rfl, rfl⟩

theorem commit_frame (s : Session) (b : Built) (owner : Option String) :
    (s.commit b owner).engine = s.engine ∧ (s.commit b owner).state = s.state := by
  simp only [commit]
  split
  · exact install_frame s _ _ _ _
  · exact ⟨rfl, rfl⟩

theorem publish_frame (s : Session) (a : Announcement) (view : View) :
    (s.publish a view).engine = s.engine ∧ (s.publish a view).state = s.state := by
  obtain ⟨engine, state, -⟩ := build_frame s a view
  obtain ⟨engine', state'⟩ := commit_frame (s.build a view).1 (s.build a view).2 view.owner
  simp only [publish, freezeIdle]
  split <;> exact ⟨engine'.trans engine, state'.trans state⟩

/-- An idle publish leaves an idle decision. -/
theorem publish_idle (s : Session) {a : Announcement} (view : View) (idle : a.kind = .idle) :
    ∃ frozen, (s.publish a view).decision = some (.idle frozen) := by
  obtain ⟨-, -, kind⟩ := build_frame s a view
  simp only [publish, freezeIdle, kind, idle, if_true]
  exact ⟨_, rfl⟩

theorem applyPublish_frame (s : Session) (p : Publish) (view : View) :
    (s.applyPublish p view).engine = s.engine ∧ (s.applyPublish p view).state = s.state := by
  simp only [applyPublish]
  split
  · exact publish_frame (s.recordIntervention p) _ _
  · exact publish_frame s _ _

theorem applyWithdraw_cases (s : Session) (key : DecisionKey) (reason : WithdrawReason) :
    (s.currentKey = some (.engine key) ∧ (s.applyWithdraw key reason).engine = s.engine ∧
        (s.applyWithdraw key reason).state = .live .busy) ∨
      (s.currentKey ≠ some (.engine key) ∧ s.applyWithdraw key reason = s) := by
  simp only [applyWithdraw, takeDown]
  by_cases current : s.currentKey = some (.engine key)
  · refine .inl ⟨current, ?_⟩
    rw [if_pos current]
    cases s.currentId <;> exact ⟨rfl, rfl⟩
  · exact .inr ⟨current, by rw [if_neg current]⟩

theorem applyAction_frame (view : View) (s : Session) (a : Action) :
    (applyAction view s a).engine = s.engine ∧
      ((applyAction view s a).state = s.state ∨ (applyAction view s a).state = .live .busy) := by
  cases a with
  | publish p =>
    obtain ⟨engine, state⟩ := applyPublish_frame s p view
    exact ⟨engine, .inl state⟩
  | withdraw key reason =>
    rcases applyWithdraw_cases s key reason with ⟨-, engine, state⟩ | ⟨-, same⟩
    · exact ⟨engine, .inr state⟩
    · exact ⟨by rw [applyAction, same], .inl (by rw [applyAction, same])⟩
  | finalize => exact ⟨rfl, .inl rfl⟩

theorem applyActions_frame (s : Session) (actions : List Action) (view : View) :
    (s.applyActions actions view).engine = s.engine ∧
      ((s.applyActions actions view).state = s.state ∨
        (s.applyActions actions view).state = .live .busy) := by
  simp only [applyActions]
  induction actions generalizing s with
  | nil => exact ⟨rfl, .inl rfl⟩
  | cons a rest ih =>
    obtain ⟨engine, state⟩ := applyAction_frame view s a
    obtain ⟨engine', state'⟩ := ih (applyAction view s a)
    refine ⟨engine'.trans engine, ?_⟩
    rcases state' with kept | busy
    · exact state.imp kept.trans kept.trans
    · exact .inr busy

/-- Actions that take the current decision down put the session back to busy. -/
theorem applyActions_busy {s : Session} {actions : List Action} {key : DecisionKey}
    {reason : WithdrawReason} (view : View) (current : s.currentKey = some (.engine key))
    (withdraws : ∀ a ∈ actions, ∃ k r, a = .withdraw k r)
    (taken : .withdraw key reason ∈ actions) :
    (s.applyActions actions view).state = .live .busy := by
  simp only [applyActions]
  induction actions with
  | nil => simp at taken
  | cons a rest ih =>
    obtain ⟨k, r, rfl⟩ := withdraws a (by simp)
    rw [List.foldl_cons, applyAction]
    rcases applyWithdraw_cases s k r with ⟨-, -, busy⟩ | ⟨other, same⟩
    · -- once busy, the remaining actions keep it
      rcases (applyActions_frame (s.applyWithdraw k r) rest view).2 with kept | busy'
      · exact kept.trans busy
      · exact busy'
    · rw [same]
      refine ih (fun a member => withdraws a (by simp [member])) ?_
      rcases List.mem_cons.mp taken with first | later
      · cases first
        exact absurd current other
      · exact later

/-! ### The state of the session against the engine -/

/-- Dropping a stale idle leaves everything that can be answered. -/
theorem dropStaleIdle_frame (s : Session) :
    s.dropStaleIdle.engine = s.engine ∧ s.dropStaleIdle.state = s.state ∧
      s.dropStaleIdle.currentId = s.currentId ∧ s.dropStaleIdle.asks = s.asks := by
  simp only [dropStaleIdle]
  split
  next frozen idle =>
    split
    · exact ⟨rfl, rfl, by simp [currentId, idle, setDecision], rfl⟩
    · exact ⟨rfl, rfl, rfl, rfl⟩
  next => exact ⟨rfl, rfl, rfl, rfl⟩

theorem mirrorControl_frame (s : Session) :
    s.mirrorControl.engine = s.engine ∧ s.mirrorControl.decision = s.decision ∧
      s.mirrorControl.asks = s.asks := by
  simp only [mirrorControl]
  split <;> exact ⟨rfl, rfl, rfl⟩

/-- Syncing moves the state to the engine's, and keeps what can be answered. -/
theorem syncControlState_frame (s : Session) :
    s.syncControlState.engine = s.engine ∧
      s.syncControlState.state = s.mirrorControl.state ∧
      s.syncControlState.currentId = s.currentId ∧ s.syncControlState.asks = s.asks := by
  obtain ⟨engine, decision, asks⟩ := mirrorControl_frame s
  obtain ⟨engine', state', currentId', asks'⟩ := dropStaleIdle_frame s.mirrorControl
  refine ⟨engine'.trans engine, state', currentId'.trans ?_, asks'.trans asks⟩
  simp only [currentId, decision]

/-- The engine is idle, its decision says so, and the loop has not noticed: a callback is owed. -/
def owed (s : Session) : Bool :=
  s.resting && s.state != .live .idle &&
    match s.decision with
    | some (.idle _) => true
    | _ => false

/-- The gate, or the decision the screen left, that a closing hook withdraws is current. -/
def takesDown (s : Session) : Bool :=
  match s.currentKey with
  | some (.engine key) =>
    s.engine.hookPendingKey == some key ||
      (s.engine.hookMode != .active && s.engine.publishedKey == some key)
  | _ => false

/-- The steps that keep the idle edge: a hook that ends a turn withdraws the current decision with
it, none is drained while a callback is owed, and a tick finds the engine idle behind a busy
session only while one is. -/
def KeepsEdge (s : Session) : TurnOp → Prop
  | .hook hobs _ _ =>
    s.owed = false ∧ (s.engine.endsTurn hobs = true → s.takesDown = true)
  | .loop .. => s.resting = true → s.state ≠ .live .idle → s.owed = true
  | _ => True

instance (s : Session) : ∀ op, Decidable (KeepsEdge s op)
  | .hook hobs _ _ =>
    inferInstanceAs (Decidable (s.owed = false ∧ (s.engine.endsTurn hobs = true → _)))
  | .loop .. => inferInstanceAs (Decidable (s.resting = true → s.state ≠ .live .idle → _))
  | .sendTurn .. => isTrue trivial
  | .respond .. => isTrue trivial
  | .giveUp _ => isTrue trivial

/-! ### The idle edge -/

/-- Turns completed against callbacks fired, read at the end of each loop iteration. -/
def callbacks : Core.Ledger TurnEvent where
  weight
    | .turnCompleted => 1
    | .idleFired => -1
    | _ => 0
  mark := (· == .ticked)

/-- A follow-up that resumed the session, until its turn is completed. -/
def followUp : Core.Slot TurnEvent Unit where
  fills
    | .resumed => some ()
    | _ => none
  clears _ o := o == .turnCompleted

theorem callbacks_balance (os : List TurnEvent) :
    callbacks.balance os = os.count .turnCompleted - os.count .idleFired := by
  induction os with
  | nil => rfl
  | cons o rest ih =>
    rw [Core.Ledger.balance_cons, ih]
    cases o <;> simp [callbacks] <;> omega

/-- What holds between two operations. -/
structure EdgeInv (s : Session) (followed : Option Unit) : Prop where
  rests : s.engine.Rests
  agrees : s.state = .live .idle → s.resting = true
  unasked : s.resting = true → s.currentId = none
  closed : s.owed = true → followed = none

/-- How many callbacks are owed. -/
def due (s : Session) : ℤ := if s.owed then 1 else 0

theorem owed_of_plane {s s' : Session} (same : s'.plane = s.plane) : s'.owed = s.owed := by
  simp only [owed, resting, engine_of_plane same, state_of_plane same, decision_of_plane same]

theorem owed_resting {s : Session} (owes : s.owed = true) : s.resting = true := by
  simp only [owed, Bool.and_eq_true] at owes
  exact owes.1.1

theorem due_of_awake {s : Session} (awake : s.resting = false) : s.due = 0 := by
  simp [due, owed, awake]

theorem due_of_idle {s : Session} (idle : s.state = .live .idle) : s.due = 0 := by
  simp [due, owed, idle]

/-- An operation that answers what it may answer: the rest of the engine is left alone. -/
structure Answers (s s' : Session) : Prop where
  rests : s.engine.Rests → s'.engine.Rests
  control : s'.resting = s.resting
  state : s'.state = s.state ∨ s'.state = .live .busy
  quiet : s.currentId = none → s'.plane = s.plane

theorem Answers.of_plane {s s' : Session} (same : s'.plane = s.plane) : Answers s s' where
  rests rests := (engine_of_plane same).symm ▸ rests
  control := by rw [resting, resting, engine_of_plane same]
  state := .inl (state_of_plane same)
  quiet _ := same

theorem Answers.completed {s s' : Session} (answers : Answers s s') : completed s s' = [] := by
  simp only [Session.completed, answers.control]
  cases s.resting <;> simp

theorem Answers.edge {s s' : Session} {followed : Option Unit} (inv : EdgeInv s followed)
    (answers : Answers s s') : EdgeInv s' followed ∧ s'.due = s.due := by
  cases rested : s.resting with
  | true =>
    have same := answers.quiet (inv.unasked rested)
    have current : s'.currentId = s.currentId := by
      simp only [currentId, decision_of_plane same]
    refine ⟨⟨answers.rests inv.rests, fun idle => ?_, fun _ => ?_, fun owes => ?_⟩, ?_⟩
    · exact answers.control.trans rested
    · exact current.trans (inv.unasked rested)
    · exact inv.closed (owed_of_plane same ▸ owes)
    · simp only [due, owed_of_plane same]
  | false =>
    have awake : s'.resting = false := answers.control.trans rested
    refine ⟨⟨answers.rests inv.rests, fun idle => ?_, fun rested' => ?_, fun owes => ?_⟩, ?_⟩
    · rcases answers.state with kept | busy
      · have woke := inv.agrees (kept.symm.trans idle)
        simp [rested] at woke
      · rw [busy] at idle
        simp at idle
    · simp [awake] at rested'
    · simp [owed_resting owes] at awake
    · rw [due_of_awake awake, due_of_awake rested]

/-! ### Answers -/

theorem currentId_of_decision {s s' : Session} (same : s'.decision = s.decision) :
    s'.currentId = s.currentId := by
  simp only [currentId, same]

theorem recordSubmit_answers (s s' : Session) (clean : String) (now : Time)
    (rests : s.engine.Rests → s'.engine.Rests) (control : s'.resting = s.resting)
    (asked : s.currentId ≠ none) : Answers s (s'.recordSubmit cfg clean now) where
  rests inv := ((rests inv).submit cfg now).notes
  control := control
  state := .inr rfl
  quiet none := absurd none asked

theorem awaitConfirm_plane (s : Session) (call : ℕ) (seq : Option EventId) :
    (s.awaitConfirm call seq).plane = s.plane := by
  simp only [awaitConfirm]
  split
  · split <;> rfl
  · rfl

theorem submitOnce_answers (s : Session) (obs : Observation) (written late : Bool) (now : Time) :
    Answers s (s.submitOnce cfg obs written late now) := by
  have effect := drainSubmit_effect s obs late
  simp only [submitOnce]
  generalize s.drainSubmit obs late = r at effect ⊢
  cases effect with
  | empty free => exact .of_plane rfl
  | write ps slot queued current =>
    have asked : s.currentId ≠ none := by simp [current]
    have taken (t : Session) (engine : t.engine = s.engine) (state : t.state = s.state) :
        Answers s t :=
      { rests := fun inv => engine.symm ▸ inv
        control := by rw [resting, resting, engine]
        state := .inl state
        quiet := fun none => absurd none asked }
    cases written with
    | true =>
      have recorded := recordSubmit_answers cfg s
        ((s.setDecision none).resolve ps.decisionId .answered).1 ps.clean now
        (fun inv => inv) rfl asked
      have same := awaitConfirm_plane
        (((s.setDecision none).resolve ps.decisionId .answered).1.recordSubmit cfg ps.clean now)
        ps.call ((s.setDecision none).resolve ps.decisionId .answered).2
      exact
        { rests := fun inv => (engine_of_plane same).symm ▸ recorded.rests inv
          control := by
            rw [← recorded.control]
            simp only [resting, if_true, engine_of_plane same]
          state := .inr (state_of_plane same)
          quiet := fun none => absurd none asked }
    | false => exact taken _ rfl rfl
  | abort ps slot queued => exact .of_plane rfl
  | wait ps echo slot done => exact .of_plane rfl
  | settle ps echo verdict slot done ends => rcases ends with rfl | rfl <;> exact .of_plane rfl

theorem answerDirect_answers (s : Session) (id : DecisionId) (clean : String) (written : Bool)
    (now : Time) : Answers s (s.answerDirect cfg id clean written now) := by
  simp only [answerDirect, claimDirect]
  by_cases current : s.currentId = some id
  · have asked : s.currentId ≠ none := by simp [current]
    rw [if_pos current]
    cases written with
    | true => exact recordSubmit_answers cfg s _ clean now (fun inv => inv) rfl asked
    | false =>
      exact
        { rests := fun inv => inv
          control := rfl
          state := .inl rfl
          quiet := fun none => absurd none asked }
  · rw [if_neg current]
    exact .of_plane rfl

theorem route_answers (s : Session) (call : ℕ) (ask : Ask) (clean : String) (written : Bool)
    (now : Time) : Answers s (s.route cfg call ask clean written now) := by
  simp only [route]
  split
  · exact .of_plane rfl
  · split
    · cases enqueued : s.enqueueAnswer call ask.decisionId clean with
      | refused status => exact .of_plane rfl
      | alreadyDelivered => exact .of_plane rfl
      | waiting s' =>
        obtain ⟨-, -, -, -, rfl⟩ := enqueueAnswer_waiting enqueued
        exact .of_plane rfl
    · split
      · cases enqueued : s.enqueueSubmit call ask.decisionId clean with
        | refused status => exact .of_plane rfl
        | alreadyDelivered => exact .of_plane rfl
        | waiting s' =>
          obtain ⟨-, -, -, rfl⟩ := enqueueSubmit_waiting enqueued
          exact .of_plane rfl
      · exact answerDirect_answers cfg s ask.decisionId clean written now

theorem respondOnce_answers (s : Session) (call : ℕ) (clean : Option String)
    (id : Option DecisionId) (written : Bool) (now : Time) :
    Answers s (s.respondOnce cfg call clean id written now) := by
  simp only [respondOnce]
  split
  next id' clean bound =>
    have same := hydrateRespondOptions_plane s id'
    split
    next ask found =>
      have routed := route_answers cfg (s.hydrateRespondOptions id') call ask clean written now
      exact
        { rests := fun inv => routed.rests (engine_of_plane same ▸ inv)
          control := routed.control.trans (by rw [resting, resting, engine_of_plane same])
          state := routed.state.imp_left fun kept => kept.trans (state_of_plane same)
          quiet := fun none => by
            have unasked : (s.hydrateRespondOptions id').currentId = Option.none := by
              rw [currentId_of_decision (decision_of_plane same), none]
            exact (routed.quiet unasked).trans same }
    next => exact .of_plane same
  next => exact .of_plane rfl

theorem giveUp_answers (s : Session) (call : ℕ) : Answers s (s.giveUp call) := by
  simp only [giveUp]
  split
  · split <;> exact .of_plane rfl
  · exact .of_plane rfl

/-! ### The steps of a run -/

/-- What an operation adds to the books, from a state that keeps the edge. -/
structure EdgeStep (s : Session) (followed : Option Unit) (r : Session × List TurnEvent) :
    Prop where
  level : callbacks.LevelAt s.due r.2
  silent : followUp.EmptyAt (· == .idleFired) followed r.2
  due : r.1.due = s.due + callbacks.balance r.2
  edge : EdgeInv r.1 (followUp.held followed r.2)

theorem Answers.step {s s' : Session} {followed : Option Unit} (inv : EdgeInv s followed)
    (answers : Answers s s') : EdgeStep s followed (s', []) := by
  obtain ⟨edge, due⟩ := answers.edge inv
  exact ⟨trivial, trivial, by simpa using due, edge⟩

/-- The state of a synced session is the engine's, or what it was before a terminal verdict. -/
theorem state_of_sync {s : Session} (idle : s.mirrorControl.state = .live .idle) :
    s.resting = true ∨
      (s.engine.state.controlState = .terminal ∧ s.state = .live .idle) := by
  simp only [mirrorControl] at idle
  split at idle
  next terminal => exact .inr ⟨terminal, idle⟩
  next => exact .inl (by simpa [setState, resting] using idle)

theorem mirrorControl_idle {s : Session} (rested : s.resting = true) :
    s.mirrorControl.state = .live .idle := by
  have control : s.engine.state.controlState = .idle := by simpa [resting] using rested
  simp [mirrorControl, control, setState]

/-- Everything a closing hook emits before its idle is a withdraw, that of the pending gate and
that of a leftover screen decision included. -/
theorem closing_withdraws (e : BeliefEngine) (now : Time) :
    (∀ a ∈ (BeliefEngine.takeOver cfg e now).2 ++ (e.dropPending .superseded).2,
        ∃ k r, a = .withdraw k r) ∧
      ∀ key, (e.hookPendingKey = some key ∨
          (e.hookMode ≠ .active ∧ e.publishedKey = some key)) →
        .withdraw key .superseded ∈
          (BeliefEngine.takeOver cfg e now).2 ++ (e.dropPending .superseded).2 := by
  simp only [BeliefEngine.takeOver, BeliefEngine.withdraw, BeliefEngine.activate,
    BeliefEngine.dropPending]
  constructor
  · intro a member
    rcases List.mem_append.mp member with screen | gate
    · split at screen
      · simp at screen
      · split at screen <;> simp at screen
        exact ⟨_, _, screen⟩
    · split at gate <;> simp at gate
      exact ⟨_, _, gate⟩
  · rintro key (pending | ⟨hookless, published⟩)
    · simp [pending]
    · simp [hookless, published]

theorem takesDown_iff (s : Session) :
    s.takesDown = true ↔ ∃ key, s.currentKey = some (.engine key) ∧
      (s.engine.hookPendingKey = some key ∨
        (s.engine.hookMode ≠ .active ∧ s.engine.publishedKey = some key)) := by
  simp only [takesDown]
  split
  next key current => simp [current]
  next other =>
    simp only [Bool.false_eq_true, false_iff, not_exists, not_and]
    intro key current
    exact absurd current (other key)

theorem hook_step {s : Session} {followed : Option Unit} (inv : EdgeInv s followed)
    (hobs : HookObservation) (now : Time) (view : View)
    (kept : s.KeepsEdge (.hook hobs now view)) :
    EdgeStep s followed ((turns cfg).step s (.hook hobs now view)) := by
  obtain ⟨unowed, takes⟩ := kept
  have level : s.due = 0 := by simp [due, unowed]
  let t : Session := { s with engine := (s.engine.onHook cfg hobs now).1.drainNotes.1 }
  obtain ⟨engine, state, currentId, asks⟩ := syncControlState_frame t
  obtain ⟨engine', state'⟩ :=
    applyActions_frame t.syncControlState (s.engine.onHook cfg hobs now).2 view
  have after : (s.hookOnce cfg hobs now view) =
      t.syncControlState.applyActions (s.engine.onHook cfg hobs now).2 view := rfl
  have engineAfter : (s.hookOnce cfg hobs now view).engine = t.engine := engine'.trans engine
  have rests : (s.hookOnce cfg hobs now view).engine.Rests := by
    rw [engineAfter]
    exact (BeliefEngine.onHook_rests cfg inv.rests hobs now).notes
  have resting : (s.hookOnce cfg hobs now view).resting = t.resting := by
    rw [Session.resting, engineAfter, Session.resting]
  have same : s.resting = (s.engine.state.controlState == .idle) := rfl
  rcases BeliefEngine.onHook_rest cfg inv.rests hobs now with
    ⟨idle, idle', none⟩ | ⟨awake, idle', ends, actions⟩ | ⟨awake', wakes⟩
  · -- a straggler of a closed epoch: the state follows the engine back to idle
    have rested : t.resting = true := by simp [t, Session.resting, BeliefEngine.drainNotes, idle']
    have stateAfter : (s.hookOnce cfg hobs now view).state = .live .idle := by
      rw [after, none]
      exact state.trans (mirrorControl_idle rested)
    have silent : completed s (s.hookOnce cfg hobs now view) = [] := by
      simp [completed, same, idle]
    have unowed' : (s.hookOnce cfg hobs now view).owed = false := by simp [owed, stateAfter]
    have currentAfter : (s.hookOnce cfg hobs now view).currentId = s.currentId := by
      rw [after, none]
      exact currentId
    simp only [turns, silent]
    refine ⟨trivial, trivial, by simp [due, unowed, unowed'], rests, fun _ => resting.trans rested,
      fun _ => currentAfter.trans (inv.unasked (by simp [same, idle])), fun owes => ?_⟩
    simp [unowed'] at owes
  · -- the turn is completed: its withdraw puts the state back to busy, so the loop sees the edge
    have rested : t.resting = true := by simp [t, Session.resting, BeliefEngine.drainNotes, idle']
    obtain ⟨key, current, pends⟩ := (takesDown_iff s).mp (takes ends)
    obtain ⟨withdraws, taken⟩ := closing_withdraws cfg s.engine now
    have current : t.syncControlState.currentKey = some (.engine key) := by
      rw [← current]
      simp only [currentKey, currentAsk, currentId, asks]
      rfl
    have busy := applyActions_busy view current withdraws (taken key pends)
    have last : (s.hookOnce cfg hobs now view) =
        (t.syncControlState.applyActions ((BeliefEngine.takeOver cfg s.engine now).2 ++
          (s.engine.dropPending .superseded).2) view).applyPublish
            { kind := .idle, respondable := false, decisionKey := .idle s.engine.turnEpoch
              payload := { interrupted := some hobs.interrupted, reconciled := none } } view := by
      rw [after, actions]
      simp only [applyActions, List.foldl_append, List.foldl_cons, List.foldl_nil]
      rfl
    have stateAfter : (s.hookOnce cfg hobs now view).state = .live .busy := by
      rw [last]
      exact (applyPublish_frame _ _ _).2.trans busy
    obtain ⟨frozen, decision⟩ : ∃ frozen,
        (s.hookOnce cfg hobs now view).decision = some (.idle frozen) := by
      rw [last]
      exact publish_idle _ view rfl
    have completes : completed s (s.hookOnce cfg hobs now view) = [.turnCompleted] := by
      simp [completed, same, awake, resting, rested]
    have owes : (s.hookOnce cfg hobs now view).owed = true := by
      simp [owed, resting, rested, stateAfter, decision]
    simp only [turns, completes]
    refine ⟨by simp [callbacks], by simp [followUp], by simp [due, unowed, owes, callbacks], rests,
      fun idle => ?_, fun _ => by simp [Session.currentId, decision], fun _ => ?_⟩
    · simp [stateAfter] at idle
    · cases followed <;> simp [followUp, Core.Slot.next]
  · -- the engine is awake, and so is the session
    have rested : t.resting = false := by simpa [t, Session.resting, BeliefEngine.drainNotes]
    have asleep : (s.hookOnce cfg hobs now view).state ≠ .live .idle := by
      intro idle
      rcases state' with kept | busy
      · rcases state_of_sync (state.symm.trans (kept.symm.trans idle)) with wrong | ⟨concluded, before⟩
        · simp [rested] at wrong
        · have control : s.engine.state.controlState = .idle := by
            simpa [same] using inv.agrees before
          have terminal : (s.engine.onHook cfg hobs now).1.state.controlState = .terminal := concluded
          simp [wakes control] at terminal
      · rw [after, busy] at idle
        simp at idle
    have silent : completed s (s.hookOnce cfg hobs now view) = [] := by
      simp [completed, resting, rested]
    have unowed' : (s.hookOnce cfg hobs now view).owed = false := by
      simp [owed, resting, rested]
    simp only [turns, silent]
    refine ⟨trivial, trivial, by simp [due, unowed, unowed'], rests,
      fun idle => absurd idle asleep, fun idle => ?_, fun owes => ?_⟩
    · simp [resting, rested] at idle
    · simp [unowed'] at owes

theorem loop_step {s : Session} {followed : Option Unit} (inv : EdgeInv s followed)
    (obs : Observation)
    (living : BeliefEngine.terminalTick obs { childAlive := true } = false) (now : Time)
    (view : View) (written late : Bool)
    (kept : s.KeepsEdge (.loop obs living now view written late)) :
    EdgeStep s followed ((turns cfg).step s (.loop obs living now view written late)) := by
  let s₁ := s.cacheLastModalOptions obs
  have cached : s₁.plane = s.plane := cacheLastModalOptions_plane s obs
  have engine₁ : s₁.engine = s.engine := engine_of_plane cached
  let t : Session :=
    { s₁ with
      engine := (s₁.engine.tick cfg obs { childAlive := true } now).1.drainNotes.1 }
  let acts := (s₁.engine.tick cfg obs { childAlive := true } now).2
  let u := (t.syncControlState.applyActions acts view).enrichHookModalOptions obs
  obtain ⟨engine, state, currentId, -⟩ := syncControlState_frame t
  obtain ⟨engine', state'⟩ := applyActions_frame t.syncControlState acts view
  have enriched : u.plane = (t.syncControlState.applyActions acts view).plane :=
    enrichHookModalOptions_plane _ obs
  have engineU : u.engine = t.engine :=
    (engine_of_plane enriched).trans (engine'.trans engine)
  have stateU : u.state = (t.syncControlState.applyActions acts view).state :=
    state_of_plane enriched
  have restingU : u.resting = t.resting := by rw [Session.resting, engineU, Session.resting]
  have rests : u.engine.Rests := by
    rw [engineU]
    exact (BeliefEngine.tick_rests cfg (engine₁.symm ▸ inv.rests) obs _ now).notes
  have answers := submitOnce_answers cfg u obs written late now
  have after : (s.loopOnce cfg obs now view written late).1 =
      u.submitOnce cfg obs written late now := rfl
  have fires : (s.loopOnce cfg obs now view written late).2 =
      decide (s₁.state ≠ .live .idle ∧ t.syncControlState.state = .live .idle) := rfl
  have before : s₁.state = s.state := state_of_plane cached
  have same : s.resting = (s₁.engine.state.controlState == .idle) := by rw [engine₁]; rfl
  have finish : ∀ followed', EdgeInv u followed' →
      EdgeInv (s.loopOnce cfg obs now view written late).1 followed' ∧
        (s.loopOnce cfg obs now view written late).1.due = u.due :=
    fun followed' edge => answers.edge edge
  have completes : completed s (s.loopOnce cfg obs now view written late).1 = completed s u := by
    simp only [completed, after, answers.control]
  rcases BeliefEngine.tick_rest cfg (engine₁.symm ▸ inv.rests) obs now living with
    ⟨idle, idle', none⟩ | ⟨awake, idle', actions⟩ | ⟨awake, awake'⟩
  · -- the engine rests on: the callback fires if it was owed
    have rested : t.resting = true := by simp [t, Session.resting, BeliefEngine.drainNotes, idle']
    have synced : t.syncControlState.state = .live .idle :=
      state.trans (mirrorControl_idle rested)
    have stateU' : u.state = .live .idle := by
      rw [stateU, show acts = [] from none]
      exact synced
    have was : s.resting = true := by simp [same, idle]
    have currentU : u.currentId = Option.none := by
      rw [currentId_of_decision (decision_of_plane enriched), show acts = [] from none]
      refine currentId.trans ?_
      have here : t.currentId = s.currentId := by
        simp only [Session.currentId]
        rw [show t.decision = s₁.decision from rfl, decision_of_plane cached]
      exact here.trans (inv.unasked was)
    have quiet : completed s u = [] := by simp [completed, was]
    have unowed : u.owed = false := by simp [owed, stateU']
    have edge : ∀ followed', EdgeInv u followed' := fun followed' =>
      ⟨rests, fun _ => restingU.trans rested, fun _ => currentU,
        fun owes => by simp [unowed] at owes⟩
    obtain ⟨edge', due'⟩ := finish followed (edge followed)
    have level : u.due = 0 := by simp [due, unowed]
    by_cases settled : s.state = .live .idle
    · have unfired : (s.loopOnce cfg obs now view written late).2 = false := by
        rw [fires, before]
        simp [settled]
      have even : s.due = 0 := due_of_idle settled
      simp only [turns, completes, quiet, unfired]
      exact ⟨by simp [even], by simp, by simp [due', level, even, callbacks],
        (finish _ (edge _)).1⟩
    · have fired : (s.loopOnce cfg obs now view written late).2 = true := by
        rw [fires, before]
        simp [settled, synced]
      have owes : s.owed = true := kept was settled
      have one : s.due = 1 := by simp [due, owes]
      have closed : followed = Option.none := inv.closed owes
      simp only [turns, completes, quiet, fired]
      exact ⟨by simp [one, callbacks], by simp [closed], by simp [due', level, one, callbacks],
        (finish _ (edge _)).1⟩
  · -- the tick itself reconciled a lost stop: it completes the turn and reports it
    have rested : t.resting = true := by simp [t, Session.resting, BeliefEngine.drainNotes, idle']
    have synced : t.syncControlState.state = .live .idle :=
      state.trans (mirrorControl_idle rested)
    have was : s.resting = false := by simpa [same] using awake
    have last : t.syncControlState.applyActions acts view = t.syncControlState.applyPublish
        { kind := .idle, respondable := false, decisionKey := .idle s₁.engine.turnEpoch
          payload := { interrupted := some false, reconciled := some true } } view := by
      rw [show acts = _ from actions]
      rfl
    have stateU' : u.state = .live .idle := by
      rw [stateU, last]
      exact (applyPublish_frame _ _ _).2.trans synced
    obtain ⟨frozen, decision⟩ : ∃ frozen, u.decision = some (.idle frozen) := by
      rw [decision_of_plane enriched, last]
      exact publish_idle _ view rfl
    have completed' : completed s u = [.turnCompleted] := by
      simp [completed, was, restingU, rested]
    have unsettled : s.state ≠ .live .idle := by
      intro settled
      simp [inv.agrees settled] at was
    have fired : (s.loopOnce cfg obs now view written late).2 = true := by
      rw [fires, before]
      simp [unsettled, synced]
    have even : s.due = 0 := due_of_awake was
    have unowed : u.owed = false := by simp [owed, stateU']
    have level : u.due = 0 := by simp [due, unowed]
    have edge : ∀ followed', EdgeInv u followed' := fun followed' =>
      ⟨rests, fun _ => restingU.trans rested, fun _ => by simp [Session.currentId, decision],
        fun owes => by simp [unowed] at owes⟩
    obtain ⟨edge', due'⟩ := finish followed (edge followed)
    simp only [turns, completes, completed', fired]
    refine ⟨by simp [even, callbacks], ?_, by simp [due', level, even, callbacks], ?_⟩
    · cases followed <;> simp [followUp, Core.Slot.next]
    · exact (finish _ (edge _)).1
  · -- the engine is awake, and so is the session
    have rested : t.resting = false := by
      simpa [t, Session.resting, BeliefEngine.drainNotes] using awake'
    have was : s.resting = false := by simpa [same] using awake
    have unsettled : s.state ≠ .live .idle := by
      intro settled
      simp [inv.agrees settled] at was
    have synced : t.syncControlState.state ≠ .live .idle := by
      intro idle
      rcases state_of_sync (state.symm.trans idle) with wrong | ⟨-, early⟩
      · simp [rested] at wrong
      · exact unsettled (before.symm.trans early)
    have asleep : u.state ≠ .live .idle := by
      intro idle
      rcases state' with kept' | busy
      · exact synced (kept'.symm.trans (stateU.symm.trans idle))
      · rw [stateU, busy] at idle
        simp at idle
    have unfired : (s.loopOnce cfg obs now view written late).2 = false := by
      rw [fires]
      simp [synced]
    have quiet : completed s u = [] := by simp [completed, restingU, rested]
    have even : s.due = 0 := due_of_awake was
    have level : u.due = 0 := due_of_awake (restingU.trans rested)
    have edge : ∀ followed', EdgeInv u followed' := fun followed' =>
      ⟨rests, fun idle => absurd idle asleep, fun idle => by simp [restingU, rested] at idle,
        fun owes => by simp [restingU.symm.trans (owed_resting owes)] at rested⟩
    obtain ⟨edge', due'⟩ := finish followed (edge followed)
    simp only [turns, completes, quiet, unfired]
    exact ⟨by simp [even], by simp, by simp [due', level, even, callbacks],
      (finish _ (edge _)).1⟩

theorem sendTurn_step {s : Session} {followed : Option Unit} (inv : EdgeInv s followed)
    (clean : Option String) (written : Bool) (now : Time) :
    EdgeStep s followed ((turns cfg).step s (.sendTurn clean written now)) := by
  have unchanged : EdgeStep s followed (s, []) := ⟨trivial, trivial, by simp, inv⟩
  simp only [turns, sendTurn]
  split
  next => exact unchanged
  next idle =>
    have idle : s.state = .live .idle := not_not.mp (not_or.mp idle).2
    split
    next => exact unchanged
    next text =>
      split
      next =>
        -- the follow-up is submitted while the engine still rests on the closed turn
        have unowed : (s.reopenTurn cfg text now).owed = false := by
          simp [owed, reopenTurn, setDecision]
        have even : s.due = 0 := due_of_idle idle
        refine ⟨by simp [callbacks], by simp [followUp], ?_, ?_⟩
        · have level : (s.reopenTurn cfg text now).due = 0 := by simp [due, unowed]
          simp [level, even, callbacks]
        · exact
            { rests := (inv.rests.submit cfg now).notes
              agrees := fun busy => by simp [reopenTurn, setDecision, recordSubmit] at busy
              unasked := fun _ => rfl
              closed := fun owes => by simp [unowed] at owes }
      next => exact unchanged

theorem step_edge {s : Session} {followed : Option Unit} (inv : EdgeInv s followed) (op : TurnOp)
    (kept : s.KeepsEdge op) : EdgeStep s followed ((turns cfg).step s op) := by
  cases op with
  | hook hobs now view => exact hook_step cfg inv hobs now view kept
  | loop obs living now view written late =>
    exact loop_step cfg inv obs living now view written late kept
  | sendTurn clean written now => exact sendTurn_step cfg inv clean written now
  | respond call clean id written now =>
    exact (respondOnce_answers cfg s call clean id written now).step inv
  | giveUp call => exact (giveUp_answers s call).step inv

theorem run_edge {s : Session} {followed : Option Unit} (inv : EdgeInv s followed)
    {ops : List TurnOp} (kept : (turns cfg).Along KeepsEdge s ops) :
    callbacks.LevelAt s.due ((turns cfg).outputs s ops) ∧
      followUp.EmptyAt (· == .idleFired) followed ((turns cfg).outputs s ops) := by
  induction ops generalizing s followed with
  | nil => exact ⟨trivial, trivial⟩
  | cons op rest ih =>
    have step := step_edge cfg inv op kept.1
    obtain ⟨level, silent⟩ := ih step.edge kept.2
    rw [Core.Machine.outputs_cons, callbacks.levelAt_append, followUp.emptyAt_append]
    exact ⟨⟨step.level, step.due ▸ level⟩, step.silent, silent⟩

/-- A hook-capable session once its task was delivered. -/
def delivered (id : SessionId) (events : EventQueue) (task : String) (now : Time) : Session where
  id := id
  events := events
  engine := ((({} : BeliefEngine).onSubmit cfg now).expectHooks now).drainNotes.1
  lastSubmitted := some task
  taskDelivery := .delivered

theorem delivered_edge (id : SessionId) (events : EventQueue) (task : String) (now : Time) :
    EdgeInv (delivered cfg id events task now) none where
  rests := by
    have submitted := BeliefEngine.rests_fresh.submit cfg now
    have expected : ((({} : BeliefEngine).onSubmit cfg now).expectHooks now).Rests := by
      simp only [BeliefEngine.expectHooks]
      split
      · exact ⟨⟨submitted.epochs.active, submitted.epochs.shut, submitted.epochs.rests,
          submitted.epochs.past⟩, submitted.closed⟩
      · exact submitted
    exact expected.notes
  agrees idle := by simp [delivered] at idle
  unasked _ := rfl
  closed _ := rfl

/-- After each loop iteration the callback has fired exactly as often as turns were completed,
and it never fires between a resumed follow-up and the end of its turn. -/
def FiresOncePerTurn (os : List TurnEvent) : Prop :=
  (∀ pre post, os = pre ++ .ticked :: post →
      pre.count .idleFired = pre.count .turnCompleted) ∧
    followUp.Released (· == .idleFired) os

/-- From any session that meets the invariant and owes no callback, whatever brought it there. -/
theorem EdgeInv.fires_once {s : Session} (inv : EdgeInv s none) (even : s.due = 0) {ops : List TurnOp}
    (kept : (turns cfg).Along KeepsEdge s ops) : FiresOncePerTurn ((turns cfg).outputs s ops) := by
  obtain ⟨level, silent⟩ := run_edge cfg inv kept
  constructor
  · intro pre post split
    have balanced := (callbacks.levelAt_iff _ _).mp level pre .ticked post split rfl
    rw [even, callbacks_balance] at balanced
    omega
  · exact (followUp.released_iff _ _).mpr silent

/-- Where every step keeps the edge, the callback fires once for each turn. -/
theorem fires_once_of_keepsEdge (id : SessionId) (events : EventQueue) (task : String)
    (now : Time) (ops : List TurnOp)
    (kept : (turns cfg).Along KeepsEdge (delivered cfg id events task now) ops) :
    FiresOncePerTurn ((turns cfg).outputs (delivered cfg id events task now) ops) :=
  (delivered_edge cfg id events task now).fires_once cfg rfl kept

/-! ### Two runs -/

/-- A turn that stops with a gate pending, its callback, and a follow-up. -/
def gatedStop : List TurnOp :=
  [.hook { kind := .working, opensTurn := true } 0 {},
    .hook { kind := .waitingForUser, promptKind := some .permissionChoice, gateFp := some "a" } 1 {},
    .loop { promptKind := .none } rfl 2 {} true false,
    .hook { kind := .idle, closesTurn := true } 3 {},
    .loop { promptKind := .none } rfl 4 {} true false,
    .sendTurn (some "more") true 5,
    .hook { kind := .working, opensTurn := true } 6 {},
    .loop { promptKind := .none } rfl 7 {} true false]

theorem fires_once_gatedStop :
    FiresOncePerTurn ((turns {}).outputs (delivered {} "s" {} "task" 0) gatedStop) :=
  fires_once_of_keepsEdge {} "s" {} "task" 0 gatedStop (by decide +kernel)

/-- A turn that simply stops: the hook moves the state to idle before the loop reads it. -/
def plainStop : List TurnOp :=
  [.hook { kind := .working, opensTurn := true } 0 {},
    .loop { promptKind := .none } rfl 1 {} true false,
    .hook { kind := .idle, closesTurn := true } 2 {},
    .loop { promptKind := .none } rfl 3 {} true false]

theorem plainStop_unreported :
    ¬ FiresOncePerTurn ((turns {}).outputs (delivered {} "s" {} "task" 0) plainStop) := by
  have shown : (turns {}).outputs (delivered {} "s" {} "task" 0) plainStop =
      [.ticked, .turnCompleted] ++ .ticked :: [] := by decide +kernel
  rw [shown]
  intro once
  have even := once.1 _ _ rfl
  simp at even

end Session

end Nelix.Daemon
