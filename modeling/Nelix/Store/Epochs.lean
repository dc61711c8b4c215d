import Mathlib.Algebra.Group.Int.Defs
import Nelix.Store.Sessions

/-!
# Generations and epochs

The identity API of the store. An epoch belongs to one generation and passes through two states of
its own: its process (starting, serving, dead) and its retirement (open, quiescing, certified). A
write that one of the schema's constraints refuses surfaces as a damaged store.
-/
namespace Nelix.Store

open Contracts Core

/-- The certificate a caller passes. A number is bound as its text; what the adapter cannot bind
is `unsupported`. -/
inductive CertificateArg
  | none
  | text (value : String)
  | bytes (value : List UInt8)
  | unsupported
  deriving DecidableEq

def CertificateArg.bind : CertificateArg → Outcome TextCell
  | none => .ok .null
  | text value => .ok (.text value)
  | bytes value => .ok (.blob value)
  | unsupported => refuse .internalError "internal database error: type is not supported"

namespace Db

/-- The text `classify_sqlite_error` gives a constraint it has no name for. -/
def constraintFailed : String := "database error"

def findEpoch (db : Db) (generationEpoch : String) : Option EpochRow :=
  db.epochs.find? generationEpoch

def findGeneration (db : Db) (generationId : String) : Option GenerationRow :=
  db.generations.find? generationId

/-- The foreign key `(generation_id, current_epoch)`. -/
def ownsEpoch (db : Db) (generationId generationEpoch : String) : Bool :=
  (db.findEpoch generationEpoch).any (·.generationId = generationId)

/-- The partial unique index: another epoch of the generation is serving. -/
def servingElsewhere (db : Db) (row : EpochRow) : Bool :=
  db.epochs.rows.any fun other =>
    other.generationId = row.generationId && other.processState = .serving &&
      other.generationEpoch ≠ row.generationEpoch

def requireGeneration (db : Db) (generationId : String) : Outcome GenerationRow :=
  demand (db.findGeneration generationId) .unknownSession
    s!"no such generation: {generationId}"

def requireEpoch (db : Db) (generationEpoch : String) : Outcome EpochRow :=
  demand (db.findEpoch generationEpoch) .unknownSession s!"no such epoch: {generationEpoch}"

/-- The epoch, when it belongs to the generation. -/
def requireOwned (db : Db) (generationId generationEpoch : String) : Outcome EpochRow :=
  demand ((db.findEpoch generationEpoch).filter (·.generationId = generationId))
    .idempotencyConflict
    s!"epoch {pyRepr generationEpoch} does not belong to generation {pyRepr generationId}"

def setEpochRow (db : Db) (row : EpochRow) : Db := { db with epochs := db.epochs.update row }

def setGenerationRow (db : Db) (row : GenerationRow) : Db :=
  { db with generations := db.generations.update row }

def createGeneration (db : Db) (generationId : String) (buildId : Option String)
    (lifecycleState : Lifecycle) (capabilitySnapshot : Option String) (createdAt : Reading) :
    Outcome Db := do
  requireText generationId "generation_id"
  requireTextOrNone buildId "build_id"
  requireTextOrNone capabilitySnapshot "capability_snapshot"
  let created ← timestamp createdAt "created_at"
  let generations ← demand
    (db.generations.insert
      { generationId := generationId, buildId := buildId, lifecycleState := lifecycleState,
        currentEpoch := none, capabilitySnapshot := capabilitySnapshot, createdAt := created })
    .duplicateStart s!"generation already exists: {generationId}"
  return { db with generations := generations }

/-- Inserts a starting, open epoch. -/
def insertEpoch (db : Db) (generationEpoch generationId : String)
    (incarnationMeta : Option String) (createdAt : Reading) : Outcome Db := do
  requireText generationEpoch "generation_epoch"
  requireText generationId "generation_id"
  requireTextOrNone incarnationMeta "incarnation_meta"
  let created ← timestamp createdAt "created_at"
  let epochs ← demand
    (db.epochs.insert
      { generationEpoch := generationEpoch, generationId := generationId,
        processState := .starting, retirementState := .opened, certificate := .null,
        finalHighWater := none, incarnationMeta := incarnationMeta, createdAt := created })
    .duplicateStart s!"epoch already exists: {generationEpoch}"
  require (db.findGeneration generationId ≠ none) .unknownSession
    s!"generation not found: {generationId}"
  return { db with epochs := epochs }

/-- Promotes an epoch from starting to serving and points the generation at it, all or nothing. -/
def casEpochServing (db : Db) (generationId generationEpoch : String)
    (expectedCurrentEpoch incarnationMeta : Option String) : Outcome Db := do
  requireText generationId "generation_id"
  requireText generationEpoch "generation_epoch"
  requireTextOrNone incarnationMeta "incarnation_meta"
  let generation ← db.requireGeneration generationId
  require (generation.currentEpoch = expectedCurrentEpoch) .idempotencyConflict
    s!"current_epoch {reprOrNone generation.currentEpoch} does not match expected {reprOrNone expectedCurrentEpoch}"
  let epoch ← db.requireOwned generationId generationEpoch
  require (epoch.processState = .starting) .idempotencyConflict
    s!"epoch {pyRepr generationEpoch} is not starting (actual: {pyRepr epoch.processState.spelling})"
  require (db.servingElsewhere epoch = false) .storeCorrupt constraintFailed
  return (db.setGenerationRow { generation with currentEpoch := some generationEpoch }).setEpochRow
    { epoch with
      processState := .serving
      incarnationMeta := incarnationMeta.orElse fun _ => epoch.incarnationMeta }

def setEpochProcessState (db : Db) (generationEpoch : String) (state : ProcessState) :
    Outcome Db := do
  requireText generationEpoch "generation_epoch"
  let epoch ← db.requireEpoch generationEpoch
  require (¬ (state = .serving ∧ db.servingElsewhere epoch = true)) .storeCorrupt constraintFailed
  return db.setEpochRow { epoch with processState := state }

def getEpochRetirementState (db : Db) (generationEpoch : String) : Outcome RetirementState := do
  requireText generationEpoch "generation_epoch"
  let epoch ← db.requireEpoch generationEpoch
  return epoch.retirementState

/-- A high water that a caller passes: NULL, or an integer the column takes. -/
def checkHighWater (finalHighWater : Option ℤ) : Outcome (Option ℕ) :=
  match finalHighWater with
  | none => .ok none
  | some seq => do
    require (0 ≤ seq) .invalidRequest s!"final_high_water must be a non-negative int: {seq}"
    return some seq.toNat

/-- The certificate is bound only where the statement has a place for it. -/
def boundCertificate (state : RetirementState) (certificate : CertificateArg) :
    Outcome TextCell :=
  if state = .certified then certificate.bind else .ok .null

/-- The epoch's new retirement columns: only a certification writes the certificate. -/
def retired (epoch : EpochRow) (state : RetirementState) (certificate : TextCell)
    (finalHighWater : Option ℕ) : EpochRow :=
  match state with
  | .certified =>
    { epoch with
      retirementState := .certified
      certificate := certificate
      finalHighWater := finalHighWater }
  | state => { epoch with retirementState := state }

/-- Updates the retirement state, whatever it was. -/
def setEpochRetirement (db : Db) (generationEpoch : String) (state : RetirementState)
    (certificate : CertificateArg) (finalHighWater : Option ℤ) : Outcome Db := do
  requireText generationEpoch "generation_epoch"
  let high ← checkHighWater finalHighWater
  let cell ← boundCertificate state certificate
  -- The adapter refuses an integer beyond 64 bits before the statement runs.
  if state = .certified ∧ maxInteger < finalHighWater.getD 0 then .error .overflowError
  else do
    let epoch ← db.requireEpoch generationEpoch
    return db.setEpochRow (retired epoch state cell high)

/-- The rows of a generation by the moment they were created. -/
def epochRows (db : Db) (generationId : String) : List EpochRow :=
  (db.epochs.rows.filter (·.generationId = generationId)).insertionSort
    fun a b => a.createdAt ≤ b.createdAt

/-- Lists the epochs that can be read and skips the rest. -/
def listEpochs (db : Db) (generationId : String) : Outcome (List EpochRecord) := do
  requireText generationId "generation_id"
  return (db.epochRows generationId).filterMap EpochRow.decode

/-- Lists the epochs and fails on one that cannot be read. -/
def listEpochsStrict (db : Db) (generationId : String) : Outcome (List EpochRecord) := do
  requireText generationId "generation_id"
  demand ((db.epochRows generationId).mapM EpochRow.decode) .storeCorrupt
    "stored record is unreadable"

def getGeneration (db : Db) (generationId : String) : Outcome GenerationRow := do
  requireText generationId "generation_id"
  let row ← db.requireGeneration generationId
  require (row.readable = true) .storeCorrupt "stored record is unreadable"
  return row

def listGenerations (db : Db) : Outcome (List GenerationRow) := do
  require (∀ row ∈ db.generations.rows, row.readable = true) .storeCorrupt
    "stored record is unreadable"
  return db.generations.rows.insertionSort fun a b =>
    a.createdAt < b.createdAt ∨ (a.createdAt = b.createdAt ∧ a.generationId ≤ b.generationId)

def setGenerationLifecycleState (db : Db) (generationId : String) (state : Lifecycle) :
    Outcome Db := do
  requireText generationId "generation_id"
  let row ← db.requireGeneration generationId
  return db.setGenerationRow { row with lifecycleState := state }

def clearCurrentEpoch (db : Db) (generationId : String) : Outcome Db := do
  requireText generationId "generation_id"
  let row ← db.requireGeneration generationId
  return db.setGenerationRow { row with currentEpoch := none }

/-- The direct repair of a dangling pointer; no compare-and-set. -/
def setCurrentEpoch (db : Db) (generationId generationEpoch : String) : Outcome Db := do
  requireText generationId "generation_id"
  requireText generationEpoch "generation_epoch"
  let row ← db.requireGeneration generationId
  require (db.ownsEpoch generationId generationEpoch = true) .storeCorrupt constraintFailed
  return db.setGenerationRow { row with currentEpoch := some generationEpoch }

/-- Advances the confirmed high water; it never falls. The number is one of the store's own, so it is
within the 64 bits SQLite binds: a caller that made up a larger one would get an `OverflowError`. -/
def setGenerationConfirmedHighWater (db : Db) (generationEpoch : String) (seq : ℤ) :
    Outcome Db := do
  requireText generationEpoch "generation_epoch"
  require (0 ≤ seq) .invalidRequest s!"seq must be a non-negative int: {seq}"
  let row := db.progressOf generationEpoch
  return db.setProgress { row with confirmedHighWater := max row.confirmedHighWater seq.toNat }

def getGenerationConfirmedHighWater (db : Db) (generationEpoch : String) : Outcome ℕ := do
  requireText generationEpoch "generation_epoch"
  return (db.progressOf generationEpoch).confirmedHighWater

/-- Moves the old generation on and makes the new one active, both or neither. -/
def setGenerationLifecycleStateAtomic (db : Db) (oldId newId : String)
    (newStateOld expectedOldState expectedNewState : Lifecycle) : Outcome Db := do
  requireText oldId "generation_id"
  requireText newId "generation_id"
  let oldRow ← demand (db.findGeneration oldId) .idempotencyConflict
    s!"no such generation: {oldId}"
  require (oldRow.lifecycleState = expectedOldState) .idempotencyConflict
    s!"generation {oldId} expected {pyRepr expectedOldState.spelling}, actual {pyRepr oldRow.lifecycleState.spelling}"
  let newRow ← demand (db.findGeneration newId) .idempotencyConflict
    s!"no such generation: {newId}"
  require (newRow.lifecycleState = expectedNewState) .idempotencyConflict
    s!"generation {newId} expected {pyRepr expectedNewState.spelling}, actual {pyRepr newRow.lifecycleState.spelling}"
  -- The second UPDATE writes over the first where both name one generation.
  return (db.setGenerationRow { oldRow with lifecycleState := newStateOld }).setGenerationRow
    { newRow with lifecycleState := .active }

/-- Clears the pointer of a generation where it names this epoch. -/
def clearPointer (db : Db) (generationId generationEpoch : String) : Db :=
  match db.findGeneration generationId with
  | none => db
  | some row =>
    if row.currentEpoch = some generationEpoch then
      db.setGenerationRow { row with currentEpoch := none }
    else db

/-- Marks the epoch dead and clears the pointer only when it still names this epoch. -/
def reconcileEpochDead (db : Db) (generationId generationEpoch : String) : Outcome Db := do
  requireText generationId "generation_id"
  requireText generationEpoch "generation_epoch"
  let epoch ← db.requireOwned generationId generationEpoch
  return (db.setEpochRow { epoch with processState := .dead }).clearPointer generationId
    generationEpoch

end Db

end Nelix.Store
