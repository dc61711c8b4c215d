import Mathlib.Data.List.Sort
import Nelix.Store.Rows

/-!
# The start ledger

The operations of the router's start ledger, each one BEGIN IMMEDIATE transaction: what raises
leaves the database as it was.
-/
namespace Nelix.Store

open Contracts Core

def maxIdempotencyKeyBytes : ℕ := 256

def maxRequestFingerprintBytes : ℕ := 1024

/-- Bounded in bytes of UTF-8, not in characters. -/
def boundedText (value name : String) (limit : ℕ) : Outcome Unit := do
  requireText value name
  require (value.utf8ByteSize ≤ limit) .invalidRequest
    s!"{name} must be at most {limit} bytes, got {value.utf8ByteSize}"

def checkOwner (value : String) : Outcome Unit :=
  require (validOwnerId value = true) .invalidRequest s!"invalid owner_id: {pyRepr value}"

def checkOrchestration (value : String) : Outcome Unit :=
  require (validOrchestrationId value = true) .invalidRequest
    s!"invalid orchestration_id: {pyRepr value}"

def checkGeneration (value : String) : Outcome Unit :=
  require (validGenerationId value = true) .invalidRequest
    s!"invalid generation_id: {pyRepr value}"

structure Reservation where
  sessionId : String
  state : StartState
  generationId : Option String
  reason : Option String
  replay : Bool
  deriving DecidableEq

/-- What a caller asks the ledger to reserve. -/
structure Request where
  idempotencyKey : String
  ownerId : String
  orchestrationId : String
  requestFingerprint : String
  deriving DecidableEq

/-- The request a row was reserved for. -/
def StartRow.request (row : StartRow) : Request where
  idempotencyKey := row.idempotencyKey
  ownerId := row.ownerId
  orchestrationId := row.orchestrationId
  requestFingerprint := row.requestFingerprint

/-- The reservation a replay returns for a row. -/
def StartRow.reservation (row : StartRow) : Reservation where
  sessionId := row.sessionId
  state := row.state
  generationId := row.generationId
  reason := row.reason
  replay := true

/-- Validated on the way out of storage. -/
def toReservation (row : StartRow) : Outcome Reservation := do
  require (validSessionId row.sessionId = true) .storeCorrupt
    s!"stored reservation is unreadable: invalid session_id: {pyRepr row.sessionId}"
  require (∀ g ∈ row.generationId, validGenerationId g = true) .storeCorrupt
    s!"stored reservation is unreadable: invalid generation_id: {pyRepr (row.generationId.getD row.sessionId)}"
  return row.reservation

namespace Db

def findStart (db : Db) (sessionId : String) : Option StartRow := db.starts.find? sessionId

/-- The row under `UNIQUE (owner_id, idempotency_key)`. -/
def startOf (db : Db) (ownerId idempotencyKey : String) : Option StartRow :=
  db.starts.rows.find? fun row => row.ownerId = ownerId ∧ row.idempotencyKey = idempotencyKey

def requireStart (db : Db) (sessionId : String) : Outcome StartRow :=
  demand (db.findStart sessionId) .unknownSession s!"no reservation for {sessionId}"

def checkRequest (request : Request) : Outcome Unit := do
  checkOwner request.ownerId
  checkOrchestration request.orchestrationId
  boundedText request.idempotencyKey "idempotency_key" maxIdempotencyKeyBytes
  boundedText request.requestFingerprint "request_fingerprint" maxRequestFingerprintBytes

/-- The row a reservation writes. -/
def freshStart (request : Request) (minted : SessionId) (now : ℚ) : StartRow where
  sessionId := minted.value
  ownerId := request.ownerId
  orchestrationId := request.orchestrationId
  idempotencyKey := request.idempotencyKey
  requestFingerprint := request.requestFingerprint
  state := .starting
  generationId := none
  generationEpoch := none
  reason := none
  createdAt := now

/-- The INSERT of a reservation; none when either unique constraint fires. -/
def insertStart (db : Db) (row : StartRow) : Option (Table StartRow) :=
  match db.startOf row.ownerId row.idempotencyKey with
  | some _ => none
  | none => db.starts.insert row

/-- The reply to a key that is taken: the original operation, or a conflict. -/
def replay (row : StartRow) (request : Request) : Outcome Reservation := do
  require (row.requestFingerprint = request.requestFingerprint ∧
      row.orchestrationId = request.orchestrationId) .idempotencyConflict
    "idempotency key was used for a different request"
  toReservation row

def reserve (db : Db) (request : Request) (minted : SessionId) (clock : Reading) :
    Outcome (Reservation × Db) := do
  checkRequest request
  let now ← timestamp clock "clock"
  match db.insertStart (freshStart request minted now) with
  | some starts =>
    return ({ sessionId := minted.value, state := .starting, generationId := none,
              reason := none, replay := false }, { db with starts := starts })
  | none =>
    let row ← demand (db.startOf request.ownerId request.idempotencyKey) .storeCorrupt
      "reservation insert failed on an unexpected constraint"
    return (← replay row request, db)

/-- Records the chosen generation and epoch before the request reaches it. -/
def assignGeneration (db : Db) (sessionId generationId generationEpoch : String) :
    Outcome Db := do
  checkGeneration generationId
  checkGeneration generationEpoch
  let row ← db.requireStart sessionId
  require (row.state = .starting) .idempotencyConflict
    s!"cannot assign a generation in state {row.state.spelling}"
  require (row.generationId = none ∨ row.generationId = some generationId) .idempotencyConflict
    "reservation is already assigned to another generation"
  -- Only the generation is compared: the epoch is written whatever it was.
  return { db with
    starts := db.starts.update { row with
      generationId := some generationId
      generationEpoch := some generationEpoch } }

/-- Marks the start succeeded on the generation and epoch it was assigned to. -/
def commit (db : Db) (sessionId generationId generationEpoch : String) : Outcome Db := do
  checkGeneration generationId
  checkGeneration generationEpoch
  let row ← db.requireStart sessionId
  require (row.state ≠ .failed) .idempotencyConflict "cannot commit a failed start"
  require (row.generationId = some generationId) .idempotencyConflict
    (if row.generationId = none then "cannot commit a start that was never assigned a generation"
      else "start was assigned to a different generation")
  require (row.generationEpoch = some generationEpoch) .idempotencyConflict
    "start was assigned to a different generation epoch"
  return { db with starts := db.starts.update { row with state := .started } }

/-- Records a failed start, once and for one reason. -/
def fail (db : Db) (sessionId reason : String) : Outcome Db := do
  requireText reason "reason"
  let row ← db.requireStart sessionId
  require (row.state ≠ .started) .idempotencyConflict "cannot fail an already-started start"
  if row.state = .failed then do
    require (row.reason = some reason) .idempotencyConflict
      "start already failed for a different reason"
    return db
  else do
    -- The mirror of `createSession`'s guard: a start that acquired a session cannot be failed.
    require (db.sessions.find? sessionId = none) .idempotencyConflict
      s!"start {sessionId} already acquired a session; it cannot be failed"
    return { db with
      starts := db.starts.update { row with state := .failed, reason := some reason } }

/-- The pair a session is bound to. -/
def getSessionGeneration (db : Db) (sessionId : String) : Outcome (String × Option String) := do
  require (validSessionId sessionId = true) .invalidRequest
    s!"invalid session_id: {pyRepr sessionId}"
  let row ← db.requireStart sessionId
  let generationId ← demand row.generationId .unknownSession
    s!"session {sessionId} has no generation assigned"
  return (generationId, row.generationEpoch)

/-- The sessions of an owner's orchestration that can be waited on, oldest first. -/
def sessionsForOrchestration (db : Db) (ownerId orchestrationId : String) :
    Outcome (List String) := do
  require (validOwnerId ownerId = true) .invalidRequest s!"invalid owner_id: {pyRepr ownerId}"
  checkOrchestration orchestrationId
  let rows := (db.starts.rows.filter fun row =>
    row.ownerId = ownerId ∧ row.orchestrationId = orchestrationId ∧ row.state ≠ .failed).insertionSort
      fun a b => a.createdAt < b.createdAt ∨
        (a.createdAt = b.createdAt ∧ a.sessionId ≤ b.sessionId)
  rows.mapM fun row => do
    require (validSessionId row.sessionId = true) .storeCorrupt
      s!"stored session_id is unreadable: invalid session_id: {pyRepr row.sessionId}"
    return row.sessionId

end Db

end Nelix.Store
