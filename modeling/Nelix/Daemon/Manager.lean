import Nelix.Store.ReceiptRuns
import Mathlib.Data.Finset.Card

/-!
# The session manager

`SessionManager` of one daemon, as far as sessions begin and end: the table of the sessions, the
obligation of each to leave a receipt, the receipts the router has not confirmed yet, and the
tokens they hold. Each definition is one section under the manager's lock, or one access to the
store outside it. An access may fail by itself; what it raises then is a parameter.
-/
namespace Nelix.Daemon

open Contracts Core Store

/-- The answer of an access to the store, unless the access fails by itself. -/
def reached {α : Type} (fault : Option Raised) (answer : Outcome α) : Outcome α :=
  match fault with
  | some raised => .error raised
  | none => answer

/-- An entry of `_terminal_pending`. -/
structure PendingEntry where
  sessionId : String
  terminalKind : String
  terminalSeq : Option ℕ
  ownerId : String
  epoch : String
  deriving DecidableEq

/-- The tokens of an acquire, where the router gave one. -/
structure Tokens where
  active : Option String
  live : Option String
  deriving DecidableEq

/-- What `Session.terminal_snapshot` says of the end of a session. -/
structure SessionEnd where
  terminalKind : Option String := none
  screenExcerpt : String := ""
  deriving DecidableEq

structure Manager where
  genEpoch : String
  db : Db := {}
  /-- The keys of `_sessions`. -/
  sessions : Finset String := ∅
  terminalObligations : Finset String := ∅
  terminalPending : List PendingEntry := []
  pendingAcquire : Finset String := ∅
  reserved : ℤ := 0
  quiescent : Bool := false
  activeLeaseTokens : String → Option String := fun _ => none
  liveLeaseTokens : String → Option String := fun _ => none

namespace Manager

/-! ### Admission -/

/-- What the row of the epoch says of admission; an epoch without a row takes no sessions. -/
def closed (m : Manager) : Bool :=
  match m.db.findEpoch m.genEpoch with
  | none => true
  | some ep => ep.processState = .dead || ep.retirementState ≠ .opened

/-- Whether the epoch takes no sessions any more; what cannot be read takes none. -/
def checkQuiescent (m : Manager) (fault : Option Raised) : Bool × Manager :=
  let refuses := decide (m.genEpoch ≠ "") && (fault.isSome || m.closed)
  (refuses, { m with quiescent := refuses })

def setTokens (m : Manager) (sessionId : String) (tokens : Tokens) : Manager :=
  { m with
    activeLeaseTokens :=
      Function.update m.activeLeaseTokens sessionId
        (tokens.active.orElse fun _ => m.activeLeaseTokens sessionId)
    liveLeaseTokens :=
      Function.update m.liveLeaseTokens sessionId
        (tokens.live.orElse fun _ => m.liveLeaseTokens sessionId) }

/-- Takes both tokens off their maps; the releases follow outside the lock. -/
def dropTokens (m : Manager) (sessionId : String) : Manager :=
  { m with
    activeLeaseTokens := Function.update m.activeLeaseTokens sessionId none
    liveLeaseTokens := Function.update m.liveLeaseTokens sessionId none }

/-- A slot that `restart` took over is given back. -/
def releaseReservation (m : Manager) (reserve : Bool) : Manager :=
  { m with reserved := if reserve then m.reserved - 1 else m.reserved }

/-- The marker of an acquire that is under way. -/
def mark (m : Manager) (sessionId : String) : Manager :=
  { m with pendingAcquire := insert sessionId m.pendingAcquire }

/-- Takes the marker down, where the call put it up. -/
def unmark (m : Manager) (sessionId : String) (marked : Bool) : Manager :=
  { m with
    pendingAcquire := if marked then m.pendingAcquire.erase sessionId else m.pendingAcquire }

/-- The section of `_spawn` that puts a session on the table. Without tokens of the router, and
unless a slot was taken over, the local caps need room. -/
def install (m : Manager) (sessionId : String) (reserve : Bool) (tokens : Option Tokens) (room : Bool)
    (fault : Option Raised) : Bool × Manager :=
  if reserve = false ∧ tokens = none ∧ room = false then (false, m)
  else if sessionId ∈ m.sessions then (false, m)
  else
    match m.checkQuiescent fault with
    | (true, m) => (false, m)
    | (false, m) =>
      let m := match tokens with
        | some tokens => m.setTokens sessionId tokens
        | none => m
      (true, { m with
        terminalObligations := insert sessionId m.terminalObligations
        sessions := insert sessionId m.sessions }.releaseReservation reserve)

/-- The section of `restart` that takes over the slot of a session that is still on the table. -/
def takeOver (m : Manager) (sessionId : String) : Bool × Manager :=
  if sessionId ∈ m.sessions then
    (true, { m with sessions := m.sessions.erase sessionId, reserved := m.reserved + 1 })
  else (false, m)

/-- The transaction of `_spawn` that takes back the rows of a session that did not start. -/
def deleteRows (m : Manager) (sessionId : String) : Manager :=
  { m with db := m.db.collectSession sessionId false }

/-- The section of `_spawn` that takes a session off the table that did not start. -/
def withdraw (m : Manager) (sessionId : String) : Manager :=
  { m.dropTokens sessionId with
    sessions := m.sessions.erase sessionId
    terminalObligations := m.terminalObligations.erase sessionId }

/-! ### Receipts -/

/-- The store says that the epoch is certified, or does not say anything. -/
def storeEpochIsCertified (m : Manager) (fault : Option Raised) : Bool :=
  if m.genEpoch = "" then false
  else
    match reached fault (m.db.getEpochRetirementState m.genEpoch) with
    | .ok state => state = .certified
    | .error _ => true

/-- `str(getattr(e, "code", "")) == "unknown_session"` -/
def isUnknownSession : Raised → Bool
  | .nelix e => e.code = .unknownSession
  | _ => false

/-- Publishes a receipt; a session that the store does not know is passed over. -/
def putReceipt (m : Manager) (sessionId : String) (result : TerminalResult) (clock : Reading)
    (fault : Option Raised) : Outcome Manager :=
  match reached fault (m.db.putTerminal sessionId result clock) with
  | .ok db => .ok { m with db := db }
  | .error raised => if isUnknownSession raised then .ok m else .error raised

/-- The entry that waits for the router; its number and owner are read where they can be. -/
def pendingEntry (m : Manager) (sessionId terminalKind : String) (fault : Option Raised) :
    PendingEntry :=
  let row := if fault.isSome then none else
    (m.db.terminal.find? sessionId).bind fun row =>
      (m.db.findStart sessionId).map fun start => (row.terminalSeq, start.ownerId)
  { sessionId := sessionId, terminalKind := terminalKind, terminalSeq := row.map Prod.fst,
    ownerId := (row.map Prod.snd).getD "", epoch := m.genEpoch }

/-- The section that ends `_persist_terminal_for_publish`. -/
def discharge (m : Manager) (sessionId terminalKind : String) (fault : Option Raised) : Manager :=
  { m.dropTokens sessionId with
    terminalObligations := m.terminalObligations.erase sessionId
    terminalPending := m.terminalPending.filter (fun entry => entry.sessionId ≠ sessionId) ++
      [m.pendingEntry sessionId terminalKind fault] }

def isPending (m : Manager) (sessionId : String) : Bool :=
  m.terminalPending.any fun entry => entry.sessionId = sessionId

/-- The session's own word on its end is published where nothing waits to be confirmed for it. -/
def republish (m : Manager) (sessionId : String) (ending : SessionEnd) (endedAt clock : Reading)
    (unread unput : Option Raised) : Outcome Manager :=
  if m.isPending sessionId ∨ m.storeEpochIsCertified unread then .ok m
  else
    match ending.terminalKind with
    | some kind => m.putReceipt sessionId ⟨kind, ending.screenExcerpt, endedAt⟩ clock unput
    | none => refuse .invalidRequest "terminal_kind must be a string: None"

/-- `_free_slot`. What it raises leaves the session on the table, and the tokens off their maps. -/
def freeSlot (m : Manager) (sessionId : String) (ending : SessionEnd) (endedAt clock : Reading)
    (unread unput : Option Raised) : Outcome Unit × Manager :=
  let m := if (m.activeLeaseTokens sessionId).isSome then m.dropTokens sessionId else m
  if sessionId ∈ m.sessions then
    match m.republish sessionId ending endedAt clock unread unput with
    | .ok m => (.ok (), { m with sessions := m.sessions.erase sessionId })
    | .error raised => (.error raised, m)
  else (.ok (), m)

/-- The callback of a session that falls idle. -/
def onIdle (m : Manager) (sessionId : String) : Manager :=
  { m with activeLeaseTokens := Function.update m.activeLeaseTokens sessionId none }

/-- The last section of `_reap_orphan`. -/
def removeOrphan (m : Manager) (sessionId : String) : Manager :=
  { m with sessions := m.sessions.erase sessionId }

/-! ### Quiescence -/

/-- Closes the epoch, with the manager's own flag. -/
def beginQuiescence (m : Manager) (fault : Option Raised) : Outcome Unit × Manager :=
  match reached fault (m.db.setEpochRetirement m.genEpoch .quiescing .none none) with
  | .ok db => (.ok (), { m with db := db, quiescent := true })
  | .error raised => (.error raised, m)

/-- The router has confirmed the entry's receipt. -/
def confirmed (m : Manager) (entry : PendingEntry) (fault : Option Raised) : Bool :=
  match entry.terminalSeq with
  | none => false
  | some seq =>
    if entry.epoch = "" then true
    else
      match reached fault (m.db.getGenerationConfirmedHighWater entry.epoch) with
      | .ok high => seq ≤ high
      | .error _ => false

/-- Drops the entries that the router has confirmed. -/
def dropConfirmedPending (m : Manager) (faults : String → Option Raised) : Manager :=
  { m with
    terminalPending := m.terminalPending.filter fun entry =>
      m.confirmed entry (faults entry.sessionId) = false }

structure QuiescenceStatus where
  liveSessions : ℕ
  outstandingObligations : ℕ
  terminalPending : ℕ
  inFlightAdmissions : ℤ
  quiescent : Bool
  deriving DecidableEq

/-- Drops what is confirmed, and counts the rest. -/
def quiescenceStatus (m : Manager) (faults : String → Option Raised) : QuiescenceStatus × Manager :=
  let m := m.dropConfirmedPending faults
  ({ liveSessions := m.sessions.card
     outstandingObligations := m.terminalObligations.card
     terminalPending := m.terminalPending.length
     inFlightAdmissions := m.pendingAcquire.card + m.reserved
     quiescent := m.quiescent && !(decide (0 < m.pendingAcquire.card) || decide (0 < m.reserved)) },
    m)

/-- Certifies the epoch behind the barrier, with the last number it finds. -/
def certifyEpoch (m : Manager) (expectedEpoch certificate : String)
    (unread unwritten : Option Raised) : Outcome ℕ × Manager :=
  if expectedEpoch ≠ m.genEpoch then
    (.error (.runtimeError s!"expected epoch {pyRepr expectedEpoch} does not match manager epoch {pyRepr m.genEpoch}"),
      m)
  else if m.terminalObligations ≠ ∅ then
    (.error (.runtimeError s!"cannot certify: {m.terminalObligations.card} outstanding terminal obligations"),
      m)
  else if m.sessions ≠ ∅ then
    (.error (.runtimeError s!"cannot certify: {m.sessions.card} live sessions"), m)
  else if m.pendingAcquire ≠ ∅ then
    (.error (.runtimeError s!"cannot certify: {m.pendingAcquire.card} in-flight pending acquires"),
      m)
  else if m.reserved ≠ 0 then
    (.error (.runtimeError s!"cannot certify: {m.reserved} reserved slots"), m)
  else
    match reached unread (.ok (m.db.getGenerationPersistedHighWater m.genEpoch)) with
    | .error raised => (.error raised, m)
    | .ok finalHw =>
      match reached unwritten (m.db.setEpochRetirement m.genEpoch .certified (.text certificate)
          (some (finalHw : ℤ))) with
      | .error raised => (.error raised, m)
      | .ok db => (.ok finalHw, { m with db := db, quiescent := true })

end Manager

end Nelix.Daemon
