import Nelix.Core.Handover
import Nelix.Core.Machine
import Nelix.Daemon.Session

/-!
# The threads of a session

One monitor thread and any number of calls of `respond`, stepping in any order. A step is one lock
section, one operation of the event queue, one write to the terminal or one reply that wakes a
caller. The monitor runs one operation at a time, and `todo` is what is left of it; what the engine
decides is left open, so it may announce and withdraw anything its phase allows. Other publishers
of the queue step in between. A wait may expire at any step.
-/
namespace Nelix.Daemon

/-- A write of an answer's keystrokes to the terminal, by a call of `respond` or for it; one that
timed out did not land. -/
abbrev Write := Core.Written ℕ DecisionId

/-- Which slot an answer is handed over in. -/
inductive Via
  | blocked | freeText
  deriving DecidableEq, Repr

/-- What a caller reports whose answer was taken back. -/
def Via.giveUp : Via → RespondStatus
  | .blocked => .writeTimeout
  | .freeText => .respondFailed

/-- Where a call of `respond` stands. -/
inductive CallAt
  | entering | bound | choosing | routing
  | claiming | resolving | typing | recording
  | enqueueing (via : Via) | refusing | waiting (via : Via) | reclaiming (via : Via)
  | releasing (via : Via) | lastWait (via : Via)
  | done (outcome : RespondOutcome) | raised

/-- A call of `respond`: `clean` is what `prepare_pty_input` makes of the answer, where it accepts
it; `held` is the decision the call bound to; `reply` is what the monitor left for it. -/
structure Call where
  clean : String
  accepted : Bool
  named : Option DecisionId
  held : Option DecisionId := none
  seq : Option EventId := none
  reply : Option (RespondStatus × Option EventId) := none
  stage : CallAt := .entering

/-- How `_finish` ends a session; a failed delivery has published its end already. -/
inductive Ending
  | done | crashed | crashedEarly | stopped
  deriving DecidableEq, Repr

def Ending.state : Ending → SessionState
  | .done => .exited
  | .crashed | .crashedEarly => .crashed
  | .stopped => .stopped

def Ending.kind : Ending → EventKind
  | .done => .done
  | .crashed | .crashedEarly => .crashed
  | .stopped => .stopped

/-- One step of the monitor. -/
inductive Chore
  | build (a : Announcement) (view : View)
  | commit (b : Built) (owner : Option String)
  | freeze (b : Built)
  | resolve (id : DecisionId) (reason : ResolvedReason)
  | typeAnswer (pa : PendingAnswer)
  | typeSubmit (ps : PendingSubmit)
  | record (clean : String)
  | await (call : ℕ)
  | dropSubmit
  | signal (call : ℕ) (status : RespondStatus)
  | abortAnswer
  | abortSubmit
  | settle (state : SessionState)

/-- An operation of the monitor, begun when it is free. -/
inductive MonitorOp
  | announce (a : Announcement) (view : View)
  | withdraw (key : DecisionKey) (reason : WithdrawReason)
  | hook (hobs : HookObservation) (now : Time)
  | tick (obs : Observation) (ctx : ObservationCtx) (now : Time)
  | cache (obs : Observation)
  | enrich (obs : Observation)
  | drainAnswer (obs : Observation) (bodyFp : Option String)
  | drainSubmit (obs : Observation) (late : Bool)
  | deliver (task : String) (hookCapable : Bool) (now : Time)
  | failDelivery
  | finish (ending : Option Ending) (view : View)

/-- A step of some thread. -/
inductive Step
  | call (clean : String) (accepted : Bool) (named : Option DecisionId)
  | advance (c : ℕ) (expired written : Bool) (now : Time)
  | begin (op : MonitorOp)
  | chore (written : Bool) (now : Time)
  | publishElsewhere (n : Notice) (owner : Option String)
  | resolveElsewhere (id : DecisionId) (reason : ResolvedReason)

structure Threads where
  session : Session
  todo : List Chore := []
  seq : Option EventId := none
  calls : List Call := []
  writes : List Write := []

namespace Threads

variable (cfg : BeliefConfig)

def setSession (t : Threads) (s : Session) : Threads := { t with session := s }

def setTodo (t : Threads) (todo : List Chore) : Threads := { t with todo := todo }

def setCall (t : Threads) (c : ℕ) (call : Call) : Threads :=
  { t with calls := t.calls.set c call }

def logWrite (t : Threads) (w : Write) : Threads := { t with writes := t.writes ++ [w] }

/-- A call moves on. -/
def goto (t : Threads) (c : ℕ) (call : Call) (stage : CallAt) : Threads :=
  t.setCall c { call with stage := stage }

/-- A call returns. -/
def finish (t : Threads) (c : ℕ) (call : Call) (outcome : RespondOutcome) : Threads :=
  t.goto c call (.done outcome)

/-! ### Calls of `respond` -/

/-- The outcome of a wait: the monitor's reply, or `stale` where there is none. -/
def waitOutcome (call : Call) : RespondOutcome :=
  match call.reply with
  | some (status, seq) => { status := status, seq := seq, decisionId := call.held }
  | none => { status := .stale, decisionId := call.held }

/-- Take the answer back, if it still stands in its slot. -/
def reclaim (s : Session) (c : ℕ) : Via → Option Session
  | .blocked =>
    match s.pendingAnswer with
    | some pa => if pa.call = c then some { s with pendingAnswer := none } else none
    | none => none
  | .freeText =>
    match s.pendingSubmit with
    | some ps => if ps.call = c then some { s with pendingSubmit := none } else none
    | none => none

def enqueue (s : Session) (c : ℕ) (id : DecisionId) (clean : String) : Via → Enqueued
  | .blocked => s.enqueueAnswer c id clean
  | .freeText => s.enqueueSubmit c id clean

/-- A call that is bound to the decision `id`. -/
def advanceBound (t : Threads) (c : ℕ) (call : Call) (id : DecisionId) (expired written : Bool)
    (now : Time) : Threads :=
  match call.stage with
  | .bound =>
    if call.accepted then (t.setSession (t.session.hydrateRespondOptions id)).goto c call .choosing
    else t.goto c call .raised
  | .choosing =>
    match t.session.asks.lookup id with
    | some ask =>
      if Session.acceptsOption ask call.clean then t.goto c call .routing
      else t.finish c call { status := .invalidOption, pending := some ask }
    | none => t
  | .routing =>
    match t.session.asks.lookup id with
    | some ask =>
      if ask.kind = .blocked then t.goto c call (.enqueueing .blocked)
      else if ask.promptKind = some .freeText then t.goto c call (.enqueueing .freeText)
      else t.goto c call .claiming
    | none => t
  | .claiming =>
    match t.session.claimDirect id with
    | some s => (t.setSession s).goto c call .resolving
    | none => t.finish c call { status := .noPending }
  | .resolving =>
    let r := t.session.resolve id .answered
    let seq := r.2.orElse fun _ => (t.session.asks.lookup id).map (·.eventId)
    (t.setSession r.1).goto c { call with seq := seq } .typing
  | .typing =>
    let t := t.logWrite { caller := c, ticket := id, landed := written }
    if written then t.goto c call .recording
    else t.finish c call { status := .writeTimeout, decisionId := some id }
  | .recording =>
    (t.setSession (t.session.recordSubmit cfg call.clean now)).finish c call
      { status := .resumed, seq := call.seq, decisionId := some id }
  | .enqueueing via =>
    match enqueue t.session c id call.clean via with
    | .waiting s => (t.setSession s).goto c call (.waiting via)
    | .alreadyDelivered => t.goto c call .refusing
    | .refused status => t.finish c call { status := status }
  | .refusing =>
    (t.setSession (t.session.resolve id .superseded).1).finish c call
      { status := .stale, decisionId := some id }
  | .waiting via =>
    if call.reply.isSome then t.finish c call (waitOutcome call)
    else if expired then t.goto c call (.reclaiming via) else t
  | .reclaiming via =>
    match reclaim t.session c via with
    | some s => (t.setSession s).goto c call (.releasing via)
    | none => t.goto c call (.lastWait via)
  | .releasing via =>
    (t.setSession (t.session.resolve id .superseded).1).finish c call
      { status := via.giveUp, decisionId := some id }
  | .lastWait _ =>
    if call.reply.isSome ∨ expired then t.finish c call (waitOutcome call) else t
  | .entering | .done _ | .raised => t

/-- The next step of a call: it binds to a decision first. -/
def advance (t : Threads) (c : ℕ) (expired written : Bool) (now : Time) : Threads :=
  match t.calls[c]? with
  | none => t
  | some call =>
    match call.stage, call.held with
    | .entering, _ =>
      match t.session.bindRespond call.named with
      | .error outcome => t.finish c call outcome
      | .ok id => t.goto c { call with held := some id } .bound
    | _, some id => t.advanceBound cfg c call id expired written now
    | _, none => t

/-! ### The monitor -/

/-- The monitor leaves a reply, and wakes the caller. -/
def signal (t : Threads) (c : ℕ) (status : RespondStatus) : Threads :=
  match t.calls[c]? with
  | some call => t.setCall c { call with reply := some (status, t.seq) }
  | none => t

/-- Run the first chore. -/
def runChore (t : Threads) (written : Bool) (now : Time) : Threads :=
  match t.todo with
  | [] => t
  | chore :: rest =>
    let t := t.setTodo rest
    match chore with
    | .build a view =>
      let r := t.session.build a view
      (t.setSession r.1).setTodo (.commit r.2 view.owner :: .freeze r.2 :: rest)
    | .commit b owner => t.setSession (t.session.commit b owner)
    | .freeze b => t.setSession (t.session.freezeIdle b)
    | .resolve id reason =>
      let r := t.session.resolve id reason
      { t.setSession r.1 with seq := r.2 }
    | .typeAnswer pa =>
      (t.logWrite { caller := pa.call, ticket := pa.decisionId, landed := written }).setTodo
        (if written then
          .resolve pa.decisionId .answered :: .record pa.clean :: .signal pa.call .resumed :: rest
        else .resolve pa.decisionId .superseded :: .signal pa.call .writeTimeout :: rest)
    | .typeSubmit ps =>
      (t.logWrite { caller := ps.call, ticket := ps.decisionId, landed := written }).setTodo
        (if written then
          .resolve ps.decisionId .answered :: .record ps.clean :: .await ps.call :: rest
        else
          .dropSubmit :: .resolve ps.decisionId .superseded ::
            .signal ps.call .writeTimeout :: rest)
    | .record clean => t.setSession (t.session.recordSubmit cfg clean now)
    | .await c => t.setSession (t.session.awaitConfirm c t.seq)
    | .dropSubmit => t.setSession { t.session with pendingSubmit := none }
    | .signal c status => t.signal c status
    | .abortAnswer =>
      match t.session.pendingAnswer with
      | some pa =>
        (t.setSession { t.session with pendingAnswer := none }).setTodo
          (.resolve pa.decisionId .superseded :: .signal pa.call .terminal :: rest)
      | none => t
    | .abortSubmit =>
      match t.session.pendingSubmit with
      | some ps =>
        (t.setSession { t.session with pendingSubmit := none }).setTodo
          (.resolve ps.decisionId .superseded :: .signal ps.call .terminal :: rest)
      | none => t
    | .settle state => t.setSession (t.session.setState state)

/-- What the monitor's loops do before, and after, the task was delivered. -/
def allows (s : Session) : MonitorOp → Bool
  | .announce a _ =>
    match a.kind with
    | .blocked => s.taskDelivery == .pending
    | .waitingForUser | .idle | .interventionRequired => s.taskDelivery == .delivered
    | .deliveryFailed => s.taskDelivery == .failed
    | _ => false
  | .withdraw .. | .hook .. | .tick .. | .cache _ | .enrich _ | .drainSubmit .. =>
    s.taskDelivery == .delivered
  | .drainAnswer .. | .deliver .. | .failDelivery => s.taskDelivery == .pending
  | .finish .. => true

/-- Begin an operation: its first section, and what is left of it. -/
def beginOp (t : Threads) : MonitorOp → Threads
  | .announce a view => t.setTodo [.build a view]
  | .withdraw key reason =>
    match t.session.takeDown key with
    | (s, some id) => (t.setSession s).setTodo [.resolve id reason.resolved]
    | (s, none) => t.setSession s
  | .hook hobs now => t.setSession (t.session.drainHook cfg hobs now).1
  | .tick obs ctx now => t.setSession (t.session.tick cfg obs ctx now).1
  | .cache obs => t.setSession (t.session.cacheLastModalOptions obs)
  | .enrich obs => t.setSession (t.session.enrichHookModalOptions obs)
  | .drainAnswer obs bodyFp =>
    match t.session.claimAnswer obs bodyFp with
    | (s, some (pa, true)) => (t.setSession s).setTodo [.typeAnswer pa]
    | (s, some (pa, false)) =>
      (t.setSession s).setTodo [.resolve pa.decisionId .superseded, .signal pa.call .stale]
    | (s, none) => t.setSession s
  | .drainSubmit obs late =>
    match t.session.drainSubmit obs late with
    | (s, some (ps, .write)) => (t.setSession s).setTodo [.typeSubmit ps]
    | (s, some (ps, .abort)) =>
      (t.setSession s).setTodo [.resolve ps.decisionId .superseded, .signal ps.call .stale]
    | (s, some (ps, .confirm)) =>
      { (t.setSession s).setTodo [.signal ps.call .resumed] with seq := ps.seq }
    | (s, some (ps, .unconfirmed)) =>
      { (t.setSession s).setTodo [.signal ps.call .respondFailed] with seq := ps.seq }
    | (s, some (_, .nothing)) | (s, none) => t.setSession s
  | .deliver task hookCapable now =>
    let r := t.session.confirmDelivery cfg task hookCapable now
    (t.setSession r.1).setTodo
      ((match r.2.1 with
        | some orphan => [.resolve orphan .superseded]
        | none => []) ++
        match r.2.2 with
        | some pa => [.resolve pa.decisionId .superseded, .signal pa.call .stale]
        | none => [])
  | .failDelivery => t.setSession { t.session with taskDelivery := .failed }
  | .finish ending view =>
    (t.setSession { t.session with finalized := true, closing := true }).setTodo
      (.abortAnswer :: .abortSubmit ::
        match ending with
        | some ending =>
          [.settle ending.state,
            .build { kind := ending.kind, requiresResponse := some false } view]
        | none => [])

/-- Another session's id, or that of an async question: nothing this session answers. -/
def foreign (s : Session) : DecisionId → Bool
  | .dec session _ => session != s.id
  | .question _ => true

/-- Another session's event, or one that nobody answers and that names no decision of ours. -/
def foreignNotice (s : Session) (n : Notice) : Bool :=
  (n.decisionId.all (foreign s)) && (n.sessionId != s.id || !n.kind.respondable)

/-- The threads as a machine. A step that its thread cannot take changes nothing. -/
def machine : Core.Machine Threads Step Empty where
  step t
    | .call clean accepted named =>
      ({ t with calls := t.calls ++ [{ clean := clean, accepted := accepted, named := named }] },
        [])
    | .advance c expired written now => (t.advance cfg c expired written now, [])
    | .begin op =>
      if t.todo.isEmpty ∧ t.session.finalized = false ∧ allows t.session op then
        (t.beginOp cfg op, [])
      else (t, [])
    | .chore written now => (t.runChore cfg written now, [])
    | .publishElsewhere n owner =>
      if foreignNotice t.session n then
        (t.setSession (t.session.setEvents
          (t.session.events.publish n owner fun q _ => (q, ())).1), [])
      else (t, [])
    | .resolveElsewhere id reason =>
      if foreign t.session id then (t.setSession (t.session.resolve id reason).1, []) else (t, [])

/-- A session that was started, on a queue that others use too. -/
def started (id : SessionId) (events : EventQueue) : Threads where
  session := { id := id, events := events }

end Threads

end Nelix.Daemon
