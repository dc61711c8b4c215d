import Nelix.Contracts.Ids
import Nelix.Core.Table
import Mathlib.Data.Rat.Defs

/-!
# The store's tables

The rows as the schema declares them and the records that are read back. Identity lives in `starts`
alone: a session and its receipt carry a session id and are joined. What the schema's constraints
exclude cannot be written down here: keys are distinct in a `Table`, the state columns are
enumerations, and a receipt is on the board, acknowledged or expired.
-/
namespace Nelix.Store

open Contracts Core

/-! ### Values from outside -/

/-- A moment as a caller passes it; `shown` is Python's rendering of what is no number. -/
inductive Reading
  | finite (t : ℚ)
  | notFinite (shown : String)
  | notNumber (shown : String)
  | missing
  deriving DecidableEq

def Reading.toFinite? : Reading → Option ℚ
  | finite t => some t
  | _ => none

/-- The one rule for a moment in time. -/
def timestamp (value : Reading) (name : String) : Outcome ℚ :=
  match value with
  | .missing => refuse .invalidRequest s!"{name} is required"
  | .notNumber shown => refuse .invalidRequest s!"{name} must be a number: {shown}"
  | .notFinite shown => refuse .invalidRequest s!"{name} must be finite: {shown}"
  | .finite t => .ok t

@[simp] theorem timestamp_ok (value : Reading) (name : String) (t : ℚ) :
    timestamp value name = .ok t ↔ value = .finite t := by
  cases value <;> simp [timestamp]

/-- Python's `repr` of a string of printable characters. -/
def pyRepr (value : String) : String :=
  let quote := if '\'' ∈ value.toList ∧ '"' ∉ value.toList then '"' else '\''
  let escaped := value.toList.flatMap fun c =>
    if c = '\\' ∨ c = quote then ['\\', c]
    else if c = '\n' then ['\\', 'n']
    else if c = '\r' then ['\\', 'r']
    else if c = '\t' then ['\\', 't']
    else [c]
  String.ofList (quote :: escaped ++ [quote])

def reprOrNone (value : Option String) : String := value.elim "None" pyRepr

def requireText (value name : String) : Outcome Unit :=
  require (value ≠ "") .invalidRequest s!"{name} must be a non-empty string: {pyRepr value}"

/-- A column that may be NULL: an empty text is refused. -/
def requireTextOrNone (value : Option String) (name : String) : Outcome Unit :=
  require (value ≠ some "") .invalidRequest
    s!"{name} must be a non-empty string or None: ''"

/-! ### Rows -/

inductive StartState
  | starting | started | failed
  deriving DecidableEq, Repr

def StartState.spelling : StartState → String
  | starting => "starting"
  | started => "started"
  | failed => "failed"

/-- The one authoritative row for a session's identity. -/
structure StartRow where
  sessionId : String
  ownerId : String
  orchestrationId : String
  idempotencyKey : String
  requestFingerprint : String
  state : StartState
  generationId : Option String
  generationEpoch : Option String
  reason : Option String
  createdAt : ℚ
  deriving DecidableEq

instance : Keyed StartRow String := ⟨StartRow.sessionId⟩

structure SessionRow where
  sessionId : String
  state : String
  executor : String
  task : String
  cwd : String
  model : Option String
  createdAt : ℚ
  schemaVersion : ℕ
  deriving DecidableEq

instance : Keyed SessionRow String := ⟨SessionRow.sessionId⟩

inductive ExpireReason
  | age | count
  deriving DecidableEq, Repr

def ExpireReason.spelling : ExpireReason → String
  | age => "age"
  | count => "count"

/-- Dismissal and expiry exclude each other, and an expiry has its reason: the row's CHECKs. -/
inductive Standing
  | onBoard
  | acknowledged (at_ : ℚ)
  | expired (at_ : ℚ) (reason : ExpireReason)
  deriving DecidableEq

/-- A permanent receipt. -/
structure TerminalRow where
  sessionId : String
  terminalKind : String
  summary : String
  endedAt : ℚ
  publishedAt : ℚ
  terminalSeq : ℕ
  standing : Standing
  schemaVersion : ℕ
  deriving DecidableEq

instance : Keyed TerminalRow String := ⟨TerminalRow.sessionId⟩

/-- The counters of an epoch; the column is called `generation_id`. -/
structure ProgressRow where
  generationEpoch : String
  nextTerminalSeq : ℕ := 1
  confirmedHighWater : ℕ := 0
  deriving DecidableEq

instance : Keyed ProgressRow String := ⟨ProgressRow.generationEpoch⟩

inductive ProcessState
  | starting | serving | dead
  deriving DecidableEq, Repr

def ProcessState.spelling : ProcessState → String
  | starting => "starting"
  | serving => "serving"
  | dead => "dead"

inductive RetirementState
  | opened | quiescing | certified
  deriving DecidableEq, Repr

/-- What a column of TEXT affinity holds: a number was turned into its text, bytes stay bytes. -/
inductive TextCell
  | null
  | text (value : String)
  | blob (bytes : List UInt8)
  deriving DecidableEq

structure EpochRow where
  generationEpoch : String
  generationId : String
  processState : ProcessState
  retirementState : RetirementState
  certificate : TextCell
  finalHighWater : Option ℕ
  incarnationMeta : Option String
  createdAt : ℚ
  deriving DecidableEq

instance : Keyed EpochRow String := ⟨EpochRow.generationEpoch⟩

inductive Lifecycle
  | ready | active | draining | retiring | retired
  deriving DecidableEq, Repr

def Lifecycle.spelling : Lifecycle → String
  | ready => "ready"
  | active => "active"
  | draining => "draining"
  | retiring => "retiring"
  | retired => "retired"

structure GenerationRow where
  generationId : String
  buildId : Option String
  lifecycleState : Lifecycle
  currentEpoch : Option String
  capabilitySnapshot : Option String
  createdAt : ℚ
  deriving DecidableEq

instance : Keyed GenerationRow String := ⟨GenerationRow.generationId⟩

/-- The change counter of an owner's board. -/
structure BoardSeqRow where
  ownerId : String
  seq : ℕ
  deriving DecidableEq

instance : Keyed BoardSeqRow String := ⟨BoardSeqRow.ownerId⟩

/-- The database. -/
structure Db where
  starts : Table StartRow := ∅
  sessions : Table SessionRow := ∅
  terminal : Table TerminalRow := ∅
  progress : Table ProgressRow := ∅
  epochs : Table EpochRow := ∅
  generations : Table GenerationRow := ∅
  boardSeq : Table BoardSeqRow := ∅
  deriving DecidableEq

/-! ### Records -/

/-- The version this build writes. -/
def currentSchema : ℕ := 4

/-- An epoch row that could be read. -/
structure EpochRecord where
  generationEpoch : String
  generationId : String
  processState : ProcessState
  retirementState : RetirementState
  certificate : Option String
  finalHighWater : Option ℕ
  incarnationMeta : Option String
  createdAt : ℚ
  deriving DecidableEq

/-- `_id_or_empty` on a stored cell: a text has to be there and not be empty. -/
def TextCell.read : TextCell → Option (Option String)
  | null => some none
  | text value => if value = "" then none else some (some value)
  | blob _ => none

/-- `EpochRecord.from_dict`; none where it raises. -/
def EpochRow.decode (row : EpochRow) : Option EpochRecord :=
  if row.incarnationMeta = some "" then none
  else
    row.certificate.read.map fun certificate =>
      { generationEpoch := row.generationEpoch
        generationId := row.generationId
        processState := row.processState
        retirementState := row.retirementState
        certificate := certificate
        finalHighWater := row.finalHighWater
        incarnationMeta := row.incarnationMeta
        createdAt := row.createdAt }

/-- `GenerationRecord.from_dict` accepts the row. -/
def GenerationRow.readable (row : GenerationRow) : Bool :=
  row.generationId ≠ "" && row.buildId ≠ some "" && row.currentEpoch ≠ some "" &&
    row.capabilitySnapshot ≠ some ""

/-- The identity columns of a start satisfy the record's shape. -/
def StartRow.identified (start : StartRow) : Bool :=
  validSessionId start.sessionId && validOwnerId start.ownerId &&
    validOrchestrationId start.orchestrationId &&
    start.generationId.any validGenerationId && start.generationEpoch.any validGenerationId

/-- `TerminalRecord.from_dict` accepts the joined row. -/
def TerminalRow.readable (row : TerminalRow) (start : StartRow) : Bool :=
  1 ≤ row.schemaVersion && row.schemaVersion ≤ currentSchema && start.identified

end Nelix.Store
