import Nelix.Store.Ledger
import Mathlib.Data.List.Sort

/-!
# Sessions and receipts

A session is created for an assigned start that has not failed, and its end is published once: the
receipt takes the next number of its epoch in the transaction that writes it. Acknowledging and
pruning take a receipt off its owner's board; only the collector of retired generations deletes.
-/
namespace Nelix.Store

open Contracts Core

/-- What a daemon says about a session it creates. -/
structure SessionSpec where
  state : String
  executor : String
  task : String
  cwd : String
  model : Option String
  createdAt : Reading
  deriving DecidableEq

/-- The result a session ended with. -/
structure TerminalResult where
  terminalKind : String
  summary : String
  endedAt : Reading
  deriving DecidableEq

/-- A receipt with the identity of its start. -/
structure TerminalRecord where
  row : TerminalRow
  start : StartRow
  deriving DecidableEq

/-! ### What the adapter binds -/

/-- The largest INTEGER a column takes, one below the 63rd power of two. -/
def maxInteger : ℤ := 9223372036854775807

/-- The adapter refuses an integer beyond 64 bits before the statement runs. -/
def bindInteger (n : ℤ) : Outcome Unit :=
  if maxInteger < n then .error .overflowError else .ok ()

@[simp] theorem bindInteger_ok {n : ℤ} {u : Unit} : bindInteger n = .ok u ↔ n ≤ maxInteger := by
  unfold bindInteger
  split
  next beyond => simpa using beyond
  next within => simpa using within

/-- `SQLITE_MAX_VARIABLE_NUMBER`, the variables a statement may have, as SQLite is built by
default. -/
def variableLimit : ℕ := 32766

/-- The least integer that is too large for a float. -/
def floatBound : ℕ := Nat.pow 2 1024 - Nat.pow 2 970

/-- A limit of age as a caller passes it; `shown` is Python's rendering of what is no integer. -/
inductive AgeLimit
  | int (n : ℤ)
  | float (seconds : ℚ) (shown : String)
  /-- an infinity, NaN or no number -/
  | other (shown : String)
  deriving DecidableEq

namespace AgeLimit

def seconds? : AgeLimit → Option ℚ
  | int n => some n
  | float seconds _ => some seconds
  | other _ => none

def shown : AgeLimit → String
  | int n => toString n
  | float _ shown => shown
  | other shown => shown

/-- `math.isfinite` takes a float, and there is none for the integer. -/
def exceedsFloat : AgeLimit → Bool
  | int n => floatBound ≤ n.natAbs
  | _ => false

/-- The check of `max_age_seconds`. -/
def check (maxAge : AgeLimit) : Outcome ℚ :=
  let message := s!"max_age_seconds must be a finite, non-negative number: {maxAge.shown}"
  if maxAge.exceedsFloat then .error .overflowError
  else do
    let age ← demand maxAge.seconds? .invalidRequest message
    require (0 ≤ age) .invalidRequest message
    return age

/-- A float is bound as it is. -/
def bind : AgeLimit → Outcome Unit
  | int n => bindInteger n
  | _ => .ok ()

/-- The integer, where the limit is one, is within 64 bits. -/
def Fits : AgeLimit → Prop
  | int n => n ≤ maxInteger
  | _ => True

instance (maxAge : AgeLimit) : Decidable maxAge.Fits := by
  cases maxAge <;> unfold Fits <;> infer_instance

theorem bind_ok {maxAge : AgeLimit} {u : Unit} : maxAge.bind = .ok u ↔ maxAge.Fits := by
  cases maxAge <;> simp [bind, Fits]

end AgeLimit

namespace Db

/-- A generation id that may be NULL: only one that is there can pass. -/
def checkAssigned (value : Option String) : Outcome Unit :=
  match value with
  | some generation => checkGeneration generation
  | none => refuse .invalidRequest "invalid generation_id: None"

/-- `_ids` and the epoch of a record that is about to be written. -/
def checkIdentity (start : StartRow) : Outcome Unit := do
  require (validSessionId start.sessionId = true) .invalidRequest
    s!"invalid session_id: {pyRepr start.sessionId}"
  checkOwner start.ownerId
  checkOrchestration start.orchestrationId
  checkAssigned start.generationId
  checkAssigned start.generationEpoch

/-- Creates the runtime row for an assigned start that has not failed. -/
def createSession (db : Db) (sessionId : String) (spec : SessionSpec) : Outcome Db := do
  let start ← demand (db.findStart sessionId) .unknownSession
    s!"no start for session {sessionId}"
  require (start.generationId ≠ none) .idempotencyConflict
    s!"start {sessionId} has no assigned generation yet"
  require (start.state ≠ .failed) .idempotencyConflict
    s!"start {sessionId} already failed; it may not acquire a session"
  checkIdentity start
  let createdAt ← timestamp spec.createdAt "created_at"
  let sessions ← demand
    (db.sessions.insert
      { sessionId := sessionId, state := spec.state, executor := spec.executor, task := spec.task,
        cwd := spec.cwd, model := spec.model, createdAt := createdAt,
        schemaVersion := currentSchema })
    .duplicateStart s!"session already exists: {sessionId}"
  return { db with sessions := sessions }

/-- The start of a session that has its row: `sessions s JOIN starts st`. -/
def joined (db : Db) (sessionId : String) : Option StartRow :=
  match db.sessions.find? sessionId with
  | none => none
  | some _ => db.findStart sessionId

/-- Moves only the state, and only for the owner. -/
def transitionSession (db : Db) (sessionId ownerId state : String)
    (expectedState : Option String) : Outcome Db := do
  requireText state "state"
  let row ← demand (db.sessions.find? sessionId) .unknownSession s!"no such session: {sessionId}"
  let start ← demand (db.findStart sessionId) .unknownSession s!"no such session: {sessionId}"
  require (start.ownerId = ownerId) .ownerMismatch "session belongs to another owner"
  require (∀ expected ∈ expectedState, row.state = expected) .idempotencyConflict
    s!"{sessionId} is not in the expected state {pyRepr (expectedState.getD state)}"
  return { db with sessions := db.sessions.update { row with state := state } }

/-! ### Counters -/

def progressOf (db : Db) (generationEpoch : String) : ProgressRow :=
  (db.progress.find? generationEpoch).getD { generationEpoch := generationEpoch }

/-- Writes the counters of an epoch, creating their row on demand. -/
def setProgress (db : Db) (row : ProgressRow) : Db :=
  { db with progress := (db.progress.insert row).getD (db.progress.update row) }

def boardSeqOf (db : Db) (ownerId : String) : ℕ :=
  ((db.boardSeq.find? ownerId).map BoardSeqRow.seq).getD 0

def bumpBoardSeq (db : Db) (ownerId : String) : Db :=
  let row : BoardSeqRow := { ownerId := ownerId, seq := db.boardSeqOf ownerId + 1 }
  { db with boardSeq := (db.boardSeq.insert row).getD (db.boardSeq.update row) }

/-! ### Receipts -/

/-- The stored result is the one that is published again. -/
def sameResult (row : TerminalRow) (result : TerminalResult) (endedAt : ℚ) : Prop :=
  row.terminalKind = result.terminalKind ∧ row.summary = result.summary ∧ row.endedAt = endedAt

instance (row : TerminalRow) (result : TerminalResult) (endedAt : ℚ) :
    Decidable (sameResult row result endedAt) := by unfold sameResult; infer_instance

/-- Publishes a terminal result: idempotent for the same result, a conflict for another. -/
def putTerminal (db : Db) (sessionId : String) (result : TerminalResult) (clock : Reading) :
    Outcome Db := do
  let start ← demand (db.joined sessionId) .unknownSession s!"no such session: {sessionId}"
  let publishedAt ← timestamp clock "clock"
  checkIdentity start
  let endedAt ← timestamp result.endedAt "ended_at"
  match db.terminal.find? sessionId with
  | some existing =>
    require (sameResult existing result endedAt) .idempotencyConflict
      s!"{sessionId} already ended as {pyRepr existing.terminalKind}"
    return db
  | none =>
    let counters := db.progressOf (start.generationEpoch.getD start.sessionId)
    let terminal ← demand
      (db.terminal.insert
        { sessionId := sessionId, terminalKind := result.terminalKind, summary := result.summary,
          endedAt := endedAt, publishedAt := publishedAt,
          terminalSeq := counters.nextTerminalSeq, standing := .onBoard,
          schemaVersion := currentSchema })
      .storeCorrupt "database error"
    return ({ db with terminal := terminal }.setProgress
      { counters with nextTerminalSeq := counters.nextTerminalSeq + 1 }).bumpBoardSeq
        start.ownerId

/-- The receipts that are read with their start; rows that cannot be read are skipped. -/
def readTerminals (db : Db) (wanted : TerminalRow → StartRow → Bool) : List TerminalRecord :=
  db.terminal.rows.filterMap fun row =>
    (db.findStart row.sessionId).bind fun start =>
      if wanted row start && row.readable start then some ⟨row, start⟩ else none

/-- Every receipt of an epoch, whatever its standing, by number. -/
def listTerminalForEpoch (db : Db) (generationEpoch : String) : List TerminalRecord :=
  (db.readTerminals fun _ start => start.generationEpoch = some generationEpoch).insertionSort
    fun a b => a.row.terminalSeq ≤ b.row.terminalSeq

/-- The highest number persisted for an epoch, 0 when there is none. -/
def getGenerationPersistedHighWater (db : Db) (generationEpoch : String) : ℕ :=
  (db.terminal.rows.filter fun row =>
    (db.findStart row.sessionId).any (·.generationEpoch = some generationEpoch)).foldr
      (fun row high => max row.terminalSeq high) 0

/-- Sessions of an epoch that have their row and no receipt. -/
def listStartsForEpoch (db : Db) (generationEpoch : String) : List StartRow :=
  db.starts.rows.filter fun start =>
    start.generationEpoch = some generationEpoch &&
      (db.sessions.find? start.sessionId).isSome && (db.terminal.find? start.sessionId).isNone

/-- The receipt of a session, for its owner. -/
def getTerminal (db : Db) (sessionId ownerId : String) : Outcome TerminalRecord := do
  let row ← demand (db.terminal.find? sessionId) .unknownSession
    s!"no terminal record: {sessionId}"
  let start ← demand (db.findStart sessionId) .unknownSession s!"no terminal record: {sessionId}"
  require (start.ownerId = ownerId) .ownerMismatch "session belongs to another owner"
  require (row.readable start = true) .storeCorrupt s!"stored record is unreadable: {sessionId}"
  return ⟨row, start⟩

/-- Dismisses a result; a repeated acknowledgement keeps the first moment. -/
def ackTerminal (db : Db) (sessionId ownerId : String) (clock : Reading) : Outcome Db := do
  let record ← db.getTerminal sessionId ownerId
  match record.row.standing with
  | .acknowledged _ => return db
  | .expired _ reason =>
    refuse .terminalExpired
      s!"{sessionId} expired ({reason.spelling}) before it was acknowledged"
  | .onBoard =>
    let now ← timestamp clock "clock"
    return { db with
      terminal := db.terminal.update { record.row with standing := .acknowledged now }
    }.bumpBoardSeq ownerId

/-! ### Reclaiming -/

/-- Stands before the row on its owner's board: newer, or as new under a higher id. -/
def ahead (other row : TerminalRow) : Bool :=
  row.publishedAt < other.publishedAt ||
    (row.publishedAt = other.publishedAt && row.sessionId < other.sessionId)

/-- The place of a receipt among those its owner still sees. -/
def boardRank (db : Db) (row : TerminalRow) : ℕ :=
  (db.terminal.rows.filter fun other =>
    other.standing = .onBoard && ahead other row &&
      ((db.findStart other.sessionId).map StartRow.ownerId =
        (db.findStart row.sessionId).map StartRow.ownerId)).length + 1

/-- Expires the receipts on the board that a condition picks. -/
def expireWhere (db : Db) (picked : TerminalRow → Bool) (now : ℚ) (reason : ExpireReason) : Db :=
  { db with
    terminal := db.terminal.amend
      (fun row =>
        if row.standing = .onBoard ∧ picked row = true then
          { row with standing := .expired now reason }
        else row)
      fun row => by split <;> rfl }

/-- The sessions whose receipts such a statement expires: what its RETURNING lists. -/
def returning (db : Db) (picked : TerminalRow → Bool) : List String :=
  (db.terminal.rows.filter fun row => row.standing = .onBoard && picked row).map
    TerminalRow.sessionId

/-- The distinct owners of the receipts of these sessions. -/
def affectedOwners (db : Db) (sessionIds : List String) : List String :=
  ((db.terminal.rows.filter fun row => row.sessionId ∈ sessionIds).filterMap fun row =>
    (db.findStart row.sessionId).map StartRow.ownerId).dedup

/-- The age pass picks the receipt. -/
def outdated (age now : ℚ) (row : TerminalRow) : Bool := age < now - row.publishedAt

/-- The count pass picks the receipt: the join leaves out one without its start. -/
def surplus (db : Db) (maxCount : ℤ) (row : TerminalRow) : Bool :=
  (db.findStart row.sessionId).isSome && maxCount < db.boardRank row

/-- Bounds the board by age and by count per owner; returns how many results were retired. A limit
that the adapter does not bind, and a board that loses more results than a statement has variables,
make it raise, and the transaction is rolled back. -/
def pruneTerminal (db : Db) (maxAge : AgeLimit) (maxCount : ℤ) (clock : Reading) :
    Outcome (ℕ × Db) := do
  let age ← maxAge.check
  require (0 ≤ maxCount) .invalidRequest "max_count must be a non-negative int"
  let now ← timestamp clock "clock"
  maxAge.bind
  let aged := db.expireWhere (outdated age now) now .age
  bindInteger maxCount
  -- reads what the age pass wrote
  let counted := aged.expireWhere (aged.surplus maxCount) now .count
  let expired := db.returning (outdated age now) ++ aged.returning (aged.surplus maxCount)
  -- one variable for each session that was returned
  require (expired.length ≤ variableLimit) .internalError
    "internal database error: too many SQL variables"
  return (expired.length, (counted.affectedOwners expired).foldl bumpBoardSeq counted)

/-- What two passes leave of the database, and the counters of the owners they hit. -/
def expireTwice (db : Db) (old surplus : TerminalRow → Bool) (now : ℚ) : Db :=
  let aged := db.expireWhere old now .age
  let counted := aged.expireWhere surplus now .count
  (counted.affectedOwners (db.returning old ++ aged.returning surplus)).foldl bumpBoardSeq counted

/-- The sessions whose receipts a prune expires. -/
def returned (db : Db) (age now : ℚ) (maxCount : ℤ) : List String :=
  let aged := db.expireWhere (outdated age now) now .age
  db.returning (outdated age now) ++ aged.returning (aged.surplus maxCount)

/-- What a prune leaves that does not raise. -/
def pruned (db : Db) (age now : ℚ) (maxCount : ℤ) : Db :=
  db.expireTwice (outdated age now) ((db.expireWhere (outdated age now) now .age).surplus maxCount)
    now

/-- When a prune does not raise, and what it does then. -/
theorem pruneTerminal_ok {db db' : Db} {maxAge : AgeLimit} {maxCount : ℤ} {clock : Reading}
    {n : ℕ} : db.pruneTerminal maxAge maxCount clock = .ok (n, db') ↔
      ∃ age now, maxAge.check = .ok age ∧ 0 ≤ maxCount ∧ clock = .finite now ∧ maxAge.Fits ∧
        maxCount ≤ maxInteger ∧ (db.returned age now maxCount).length ≤ variableLimit ∧
        n = (db.returned age now maxCount).length ∧ db' = db.pruned age now maxCount := by
  simp only [pruneTerminal, Contracts.bind_ok, require_ok, timestamp_ok, AgeLimit.bind_ok,
    bindInteger_ok, pure, Except.pure, Except.ok.injEq, Prod.mk.injEq]
  constructor
  · rintro ⟨age, checked, -, count, now, ticks, -, fits, -, bound, -, room, rfl, rfl⟩
    exact ⟨age, now, checked, count, ticks, fits, bound, room, rfl, rfl⟩
  · rintro ⟨age, now, checked, count, ticks, fits, bound, room, rfl, rfl⟩
    exact ⟨age, checked, (), count, now, ticks, (), fits, (), bound, (), room, rfl, rfl⟩

/-- The transaction of the collector for one session of a retired generation. -/
def collectSession (db : Db) (sessionId : String) (pastHorizon : Bool) : Db :=
  { db with
    terminal := db.terminal.erase sessionId
    sessions := db.sessions.erase sessionId
    starts := if pastHorizon then db.starts.erase sessionId else db.starts }

end Db

end Nelix.Store
