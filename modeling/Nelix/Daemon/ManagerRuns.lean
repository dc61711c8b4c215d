import Nelix.Core.Machine
import Nelix.Daemon.Manager

/-!
# Runs of the session manager

Starts, restarts and the terminal paths of sessions take the manager's lock and the store one
section at a time, so they overlap; so do `begin_quiescence`, `quiescence_status` and
`certify_epoch`, which are one section each. A run keeps which sessions were admitted and
launched, and whether the manager has said that it takes no more.
-/
namespace Nelix.Daemon

open Contracts Core Store

/-- Why an access to the store fails by itself: the classes of `classify_sqlite_error`. -/
inductive StoreFailure
  | unavailable | unsupported | corrupt | internal
  deriving DecidableEq

/-- What it raises, without the text of the exception. -/
def StoreFailure.raised : StoreFailure → Raised
  | .unavailable => .nelix ⟨.storeUnavailable, "database unavailable"⟩
  | .unsupported => .nelix ⟨.storeUnsupported, "database not writable here"⟩
  | .corrupt => .nelix ⟨.storeCorrupt, "database corrupt"⟩
  | .internal => .nelix ⟨.internalError, "internal database error"⟩

/-- The fault of an access. -/
def faultOf (failure : Option StoreFailure) : Option Raised := failure.map StoreFailure.raised

/-- What an acquire comes to: the errors the client has names for, with the handshake that follows
one of them, and whatever else it raises. -/
inductive Lease
  | granted (tokens : Tokens)
  | unavailable
  | refused (handshakes : Bool)
  | raised
  deriving DecidableEq

/-- Where a call of `start` or `restart` stands. -/
inductive SpawnAt
  | checking | marking | retrying | takingOver | acquiring
  | entering | installing | givingBack
  | creating | launching | collecting | withdrawing
  | returning
  | done
  deriving DecidableEq

/-- A call of `start` or `restart`: the id it starts, and the session it replaces. It holds the
marker of an acquire, or the slot it took over. -/
structure Spawn where
  sessionId : String
  replaces : Option String := none
  marked : Bool := false
  reserve : Bool := false
  tokens : Option Tokens := none
  stage : SpawnAt

/-- What a section of it finds outside the manager. -/
structure SpawnInput where
  unread : Option StoreFailure := none
  accepted : Bool := true
  room : Bool := true
  /-- The outbox is retried without an exception. -/
  retried : Bool := true
  lease : Lease := .raised
  spec : SessionSpec :=
    { state := "starting", executor := "", task := "", cwd := "", model := none,
      createdAt := .finite 0 }
  unwritten : Option StoreFailure := none
  spawned : Bool := true

/-- Where a call of `send_turn` stands. -/
inductive ResumeAt
  | checking | reserving
  | marking | retrying | acquiring | revalidating
  | typing | returning
  | done
  deriving DecidableEq

/-- A call of `send_turn`. It holds a slot, or the marker of an acquire. -/
structure Resume where
  sessionId : String
  marked : Bool := false
  reserve : Bool := false
  active : Option String := none
  stage : ResumeAt

structure ResumeInput where
  unread : Option StoreFailure := none
  room : Bool := true
  /-- The session is idle. -/
  idle : Bool := true
  retried : Bool := true
  lease : Lease := .raised
  /-- The session's own `send_turn` raises. -/
  raises : Bool := false

/-- Where a terminal path stands; `broken` when the receipt could not be persisted. -/
inductive TerminalAt
  | checking | putting | discharging (terminalKind : String) | freeing | broken | done
  deriving DecidableEq

/-- The terminal path of a session: its monitor's, or that of the orphan reaper. -/
structure TerminalPath where
  sessionId : String
  byReaper : Bool := false
  stage : TerminalAt := .checking

structure TerminalInput where
  terminalKind : String := "done"
  screenExcerpt : String := ""
  endedAt : Reading := .finite 0
  clock : Reading := .finite 0
  unread : Option StoreFailure := none
  unput : Option StoreFailure := none
  again : Bool := false

structure Managed where
  manager : Manager
  spawns : List Spawn := []
  resumes : List Resume := []
  endings : List TerminalPath := []
  /-- The sessions that were put on the table, those whose agent was spawned, and those whose
  terminal path has run to its end. -/
  admitted : Finset String := ∅
  launched : Finset String := ∅
  ended : Finset String := ∅
  /-- `begin_quiescence` has returned, and the number `certify_epoch` has written last. -/
  quiesced : Bool := false
  certified : Option ℕ := none
  /-- The sessions for which a second, different result was put to the store. -/
  conflicts : List String := []

inductive ManagedStep
  | start (sessionId : String)
  | restart (sessionId newSessionId : String)
  | spawn (c : ℕ) (input : SpawnInput)
  | sendTurn (sessionId : String)
  | resume (c : ℕ) (input : ResumeInput)
  | monitorEnds (sessionId : String)
  | reap (sessionId : String)
  | ending (c : ℕ) (input : TerminalInput)
  | idle (sessionId : String)
  | confirm (seq : ℤ)
  | beginQuiescence (failure : Option StoreFailure)
  | quiescenceStatus (failures : String → Option StoreFailure)
  | certifyEpoch (expectedEpoch certificate : String) (unread unwritten : Option StoreFailure)

/-- The call has its session on the table, and has not launched it. -/
def Spawn.installed (run : Spawn) : Bool :=
  match run.stage with
  | .creating | .launching | .collecting | .withdrawing => true
  | _ => false

namespace Managed

-- whether the manager has a lease client
variable (leased : Bool)

def setSpawn (w : Managed) (c : ℕ) (run : Spawn) : Managed :=
  { w with spawns := w.spawns.set c run }

def setResume (w : Managed) (c : ℕ) (call : Resume) : Managed :=
  { w with resumes := w.resumes.set c call }

def setEnding (w : Managed) (c : ℕ) (path : TerminalPath) : Managed :=
  { w with endings := w.endings.set c path }

def setManager (w : Managed) (m : Manager) : Managed := { w with manager := m }

/-- `start` and `restart`, one section. -/
def advanceSpawn (w : Managed) (c : ℕ) (run : Spawn) (input : SpawnInput) : Managed :=
  let m := w.manager
  match run.stage with
  | .checking =>
    let (refuses, m) := m.checkQuiescent (faultOf input.unread)
    let w := w.setManager m
    if refuses then w.setSpawn c { run with stage := .done }
    else if run.replaces.isSome then w.setSpawn c { run with stage := .takingOver }
    else w.setSpawn c { run with stage := .marking }
  | .marking =>
    if run.sessionId ∈ m.pendingAcquire then w.setSpawn c { run with stage := .done }
    else
      (w.setManager (m.mark run.sessionId)).setSpawn c
        { run with marked := true, stage := .retrying }
  | .retrying =>
    w.setSpawn c { run with stage := if input.retried then .acquiring else .done }
  | .takingOver =>
    -- the budget of restarts is spent
    if ¬ input.accepted then w.setSpawn c { run with stage := .done }
    else
      let (taken, m) := m.takeOver (run.replaces.getD "")
      (w.setManager m).setSpawn c
        { run with reserve := taken, stage := if leased then .acquiring else .entering }
  | .acquiring =>
    match input.lease with
    | .granted tokens => w.setSpawn c { run with tokens := some tokens, stage := .entering }
    | .unavailable => w.setSpawn c { run with stage := .givingBack }
    | .refused handshakes =>
      -- `start` takes its marker down before the handshake, `restart` gives its slot back after
      if run.marked ∨ handshakes then w.setSpawn c { run with stage := .givingBack }
      else w.setSpawn c { run with stage := .done }
    | .raised =>
      if run.marked then w.setSpawn c { run with stage := .givingBack }
      else w.setSpawn c { run with stage := .done }
  | .entering =>
    let (refuses, m) := m.checkQuiescent (faultOf input.unread)
    let w := w.setManager m
    -- raised before the block that gives the reservation back
    if refuses then w.setSpawn c { run with stage := if run.marked then .returning else .done }
    else if ¬ input.accepted then w.setSpawn c { run with stage := .givingBack }
    else w.setSpawn c { run with stage := .installing }
  | .installing =>
    match m.install run.sessionId run.reserve run.tokens input.room (faultOf input.unread) with
    | (false, m) => (w.setManager m).setSpawn c { run with stage := .givingBack }
    | (true, m) =>
      { w.setManager m with admitted := insert run.sessionId w.admitted }.setSpawn c
        { run with reserve := false, stage := .creating }
  | .givingBack =>
    (w.setManager (m.releaseReservation run.reserve)).setSpawn c
      { run with reserve := false, stage := .returning }
  | .creating =>
    match reached (faultOf input.unwritten) (m.db.createSession run.sessionId input.spec) with
    | .ok db => (w.setManager { m with db := db }).setSpawn c { run with stage := .launching }
    | .error _ => w.setSpawn c { run with stage := .collecting }
  | .launching =>
    if input.spawned then
      { w with launched := insert run.sessionId w.launched }.setSpawn c
        { run with stage := .returning }
    else w.setSpawn c { run with stage := .collecting }
  | .collecting =>
    match input.unwritten with
    | some _ => w.setSpawn c { run with stage := .returning }
    | none =>
      (w.setManager (m.deleteRows run.sessionId)).setSpawn c { run with stage := .withdrawing }
  | .withdrawing =>
    (w.setManager (m.withdraw run.sessionId)).setSpawn c { run with stage := .returning }
  | .returning =>
    (w.setManager (m.unmark run.sessionId run.marked)).setSpawn c
      { run with marked := false, stage := .done }
  | .done => w

/-- `send_turn`, one section. -/
def advanceResume (w : Managed) (c : ℕ) (call : Resume) (input : ResumeInput) : Managed :=
  let m := w.manager
  match call.stage with
  | .checking =>
    let (refuses, m) := m.checkQuiescent (faultOf input.unread)
    (w.setManager m).setResume c { call with stage := if refuses then .done else .reserving }
  | .reserving =>
    if call.sessionId ∉ m.sessions ∨ m.quiescent = true ∨ input.room = false then
      w.setResume c { call with stage := .done }
    else
      (w.setManager { m with reserved := m.reserved + 1 }).setResume c
        { call with reserve := true, stage := .typing }
  | .marking =>
    if call.sessionId ∉ m.sessions ∨ call.sessionId ∈ m.pendingAcquire then
      w.setResume c { call with stage := .done }
    else
      let (refuses, m) := m.checkQuiescent (faultOf input.unread)
      if refuses ∨ ¬ input.idle then (w.setManager m).setResume c { call with stage := .done }
      else
        (w.setManager (m.mark call.sessionId)).setResume c
          { call with marked := true, stage := .retrying }
  | .retrying =>
    w.setResume c { call with stage := if input.retried then .acquiring else .done }
  | .acquiring =>
    match input.lease with
    | .granted tokens =>
      w.setResume c { call with active := tokens.active, stage := .revalidating }
    | .unavailable | .refused _ => w.setResume c { call with stage := .returning }
    | .raised => w.setResume c { call with stage := .done }
  | .revalidating =>
    let quiescent := m.quiescent || (m.checkQuiescent (faultOf input.unread)).1
    let m := { m with quiescent := quiescent }
    if quiescent ∨ call.sessionId ∉ m.sessions ∨ ¬ input.idle then
      (w.setManager (m.unmark call.sessionId call.marked)).setResume c
        { call with marked := false, stage := .done }
    else
      (w.setManager (m.setTokens call.sessionId ⟨call.active, none⟩)).setResume c
        { call with stage := .typing }
  | .typing =>
    let m := if input.raises ∧ call.active.isSome then m.onIdle call.sessionId else m
    (w.setManager m).setResume c { call with stage := .returning }
  | .returning =>
    (w.setManager
        ((m.releaseReservation call.reserve).unmark call.sessionId call.marked)).setResume c
      { call with reserve := false, marked := false, stage := .done }
  | .done => w

/-- Another result than the stored one was put. -/
def conflicting {α : Type} (fault : Option StoreFailure) (answer : Outcome α) : Bool :=
  match fault, answer with
  | none, .error (.nelix e) => e.code = .idempotencyConflict
  | _, _ => false

/-- `_persist_terminal_for_publish` and `_free_slot`, or the sections of `_reap_orphan`. -/
def advanceEnding (w : Managed) (c : ℕ) (path : TerminalPath) (input : TerminalInput) : Managed :=
  let m := w.manager
  match path.stage with
  | .checking =>
    if m.storeEpochIsCertified (faultOf input.unread) then w.setEnding c { path with stage := .broken }
    else w.setEnding c { path with stage := .putting }
  | .putting =>
    let result : TerminalResult := ⟨input.terminalKind, input.screenExcerpt, input.endedAt⟩
    match m.putReceipt path.sessionId result input.clock (faultOf input.unput) with
    | .ok m =>
      (w.setManager m).setEnding c
        { path with stage := .discharging input.terminalKind }
    | .error _ =>
      { w with
        conflicts := w.conflicts ++
          if conflicting input.unput (m.db.putTerminal path.sessionId result input.clock) then
            [path.sessionId] else []
      }.setEnding c { path with stage := .broken }
  | .discharging kind =>
    { w with manager := m.discharge path.sessionId kind (faultOf input.unread) }.setEnding c
      { path with stage := .freeing }
  | .broken =>
    -- the reaper gives up, the monitor tries once more or frees the slot
    if path.byReaper then w.setEnding c { path with stage := .done }
    else w.setEnding c { path with stage := if input.again then .checking else .freeing }
  | .freeing =>
    let w := { w with ended := insert path.sessionId w.ended }
    if path.byReaper then
      { w with manager := m.removeOrphan path.sessionId }.setEnding c { path with stage := .done }
    else
      let ending : SessionEnd := ⟨some input.terminalKind, input.screenExcerpt⟩
      let (outcome, m') := m.freeSlot path.sessionId ending input.endedAt input.clock
        (faultOf input.unread) (faultOf input.unput)
      { w with
        manager := m'
        conflicts := w.conflicts ++
          if conflicting input.unput outcome then [path.sessionId] else []
      }.setEnding c { path with stage := .done }
  | .done => w

/-- A monitor runs once its agent is spawned, and ends once. -/
def monitored (w : Managed) (sessionId : String) : Bool :=
  decide (sessionId ∈ w.launched) &&
    w.endings.all fun path => path.byReaper || path.sessionId ≠ sessionId

def machine : Machine Managed ManagedStep Empty where
  step w
    | .start sessionId =>
      ({ w with
          spawns := w.spawns ++
            [{ sessionId := sessionId, stage := if leased then .checking else .entering }] }, [])
    | .restart sessionId newSessionId =>
      ({ w with
          spawns := w.spawns ++
            [{ sessionId := newSessionId, replaces := some sessionId, stage := .checking }] }, [])
    | .sendTurn sessionId =>
      ({ w with
          resumes := w.resumes ++
            [{ sessionId := sessionId, stage := if leased then .marking else .checking }] }, [])
    | .resume c input =>
      match w.resumes[c]? with
      | some call => (w.advanceResume c call input, [])
      | none => (w, [])
    | .spawn c input =>
      match w.spawns[c]? with
      | some run => (w.advanceSpawn leased c run input, [])
      | none => (w, [])
    | .monitorEnds sessionId =>
      if w.monitored sessionId then
        ({ w with endings := w.endings ++ [{ sessionId := sessionId }] }, [])
      else (w, [])
    | .reap sessionId =>
      if sessionId ∈ w.manager.sessions then
        ({ w with endings := w.endings ++ [{ sessionId := sessionId, byReaper := true }] }, [])
      else (w, [])
    | .ending c input =>
      match w.endings[c]? with
      | some path => (w.advanceEnding c path input, [])
      | none => (w, [])
    | .idle sessionId => ({ w with manager := w.manager.onIdle sessionId }, [])
    | .confirm seq =>
      ({ w with
          manager := { w.manager with
            db := settled w.manager.db
              (w.manager.db.setGenerationConfirmedHighWater w.manager.genEpoch seq) } }, [])
    | .beginQuiescence failure =>
      match w.manager.beginQuiescence (faultOf failure) with
      | (.ok (), m) => ({ w with manager := m, quiesced := true }, [])
      | (.error _, m) => ({ w with manager := m }, [])
    | .quiescenceStatus failures =>
      ({ w with manager := (w.manager.quiescenceStatus fun sid => faultOf (failures sid)).2 }, [])
    | .certifyEpoch expected certificate unread unwritten =>
      match w.manager.certifyEpoch expected certificate (faultOf unread) (faultOf unwritten) with
      | (.ok finalHw, m) => ({ w with manager := m, certified := some finalHw }, [])
      | (.error _, m) => ({ w with manager := m }, [])

/-- A daemon that has just come up on a store. -/
def opened (genEpoch : String) (db : Db) : Managed := { manager := { genEpoch := genEpoch, db := db } }

end Managed

end Nelix.Daemon
