import Mathlib.Data.List.Infix
import Nelix.Contracts.Json
import Nelix.Store.Retirement

/-!
# The operator's retire

`OperatorRoutes.retire` with its helpers, as a program over the effects it performs: transactions
of the store, the registry's handles, calls to a daemon, signals to processes, the lease service
and the clock. Each effect carries the part of the routine that performs it.
-/
namespace Nelix.Router

open Contracts Core Store

/-! ### Effects -/

/-- The part of the routine an effect belongs to. -/
inductive Site
  | reading
  | retiring
  | certifying
  | reconciling
  | reaping (generationEpoch : String)
  | confirming
  | judging
  deriving DecidableEq, Repr

inductive Signal
  | probe | term | kill
  deriving DecidableEq, Repr

/-- What `os.killpg` does. -/
inductive KillResult
  | delivered
  | permissionError
  | processLookupError
  | osError (message : String)
  | raised (exception : Raised)

/-- What `read_child_raw` returns. -/
inductive ChildFile
  | missing
  | malformed
  /-- The text is not UTF-8, and reading it raises. -/
  | undecodable
  | record (fields : Json)

/-- A generation as the registry holds it. -/
structure GenerationHandle where
  generationId : String
  epoch : String
  transport : Option String
  buildId : Option String
  incarnation : Json

/-- The daemon's operator routes. -/
inductive DaemonRequest
  | quiesce
  | quiesceStatus
  | certifyEpoch (certificate generationEpoch : String)
  deriving DecidableEq

inductive Effect
  | ask (query : Query)
  | write (call : Call)
  | generations
  | forward (transport : String) (request : DaemonRequest)
  | lock
  | unlock
  | reapHolder (generationId : String) (buildId : Option String) (incarnation : Json)
  | releaseEpoch (generationId generationEpoch : String)
  | pidAlive (pid : ℤ)
  | readChild (sessionId : String)
  | startFingerprint (pid : ℤ)
  | killpg (pgid : ℤ) (signal : Signal)
  | time

abbrev Effect.Answer : Effect → Type
  | ask query => query.Answer
  | write _ => Outcome Unit
  | generations => List GenerationHandle
  | forward .. => Outcome (ℕ × Json)
  | lock => Outcome Unit
  | unlock => Unit
  | reapHolder .. => Outcome Bool
  | releaseEpoch .. => Outcome Unit
  | pidAlive _ => Outcome Bool
  | readChild _ => ChildFile
  | startFingerprint _ => Option String
  | killpg .. => KillResult
  | time => ℚ

/-- An effect at its place. -/
structure Act where
  site : Site
  effect : Effect

abbrev Act.Answer (a : Act) : Type := a.effect.Answer

abbrev Routine (α : Type) := Prog Act Act.Answer Raised α

namespace Routine

def ask (site : Site) (query : Query) : Routine query.Value :=
  .perform ⟨site, .ask query⟩ fun answer => .done answer

def write (site : Site) (call : Call) : Routine Unit :=
  .perform ⟨site, .write call⟩ fun answer => .done answer

def generations (site : Site) : Routine (List GenerationHandle) :=
  .perform ⟨site, .generations⟩ fun handles => .done (.ok handles)

def forward (site : Site) (transport : String) (request : DaemonRequest) : Routine (ℕ × Json) :=
  .perform ⟨site, .forward transport request⟩ fun answer => .done answer

def lock : Routine Unit := .perform ⟨.retiring, .lock⟩ fun answer => .done answer

def unlock : Routine Unit := .perform ⟨.retiring, .unlock⟩ fun _ => .done (.ok ())

def reapHolder (epoch generationId : String) (buildId : Option String) (incarnation : Json) :
    Routine Bool :=
  .perform ⟨.reaping epoch, .reapHolder generationId buildId incarnation⟩ fun answer => .done answer

def releaseEpoch (generationId generationEpoch : String) : Routine Unit :=
  .perform ⟨.retiring, .releaseEpoch generationId generationEpoch⟩ fun answer => .done answer

def pidAlive (pid : ℤ) : Routine Bool :=
  .perform ⟨.reconciling, .pidAlive pid⟩ fun answer => .done answer

def readChild (sessionId : String) : Routine ChildFile :=
  .perform ⟨.reconciling, .readChild sessionId⟩ fun file => .done (.ok file)

def startFingerprint (pid : ℤ) : Routine (Option String) :=
  .perform ⟨.reconciling, .startFingerprint pid⟩ fun shown => .done (.ok shown)

def killpg (pgid : ℤ) (signal : Signal) : Routine KillResult :=
  .perform ⟨.reconciling, .killpg pgid signal⟩ fun result => .done (.ok result)

def time : Routine ℚ := .perform ⟨.reconciling, .time⟩ fun now => .done (.ok now)

def refused {α : Type} (code : ErrorCode) (message : String) : Routine α :=
  .raise (.nelix ⟨code, message⟩)

end Routine

open Routine

/-- What the routine is configured with and what the standard library gives it. -/
structure Surroundings where
  /-- `json.loads`; none where it raises JSONDecodeError. -/
  loads : String → Option Json
  /-- The logger lets warnings through. -/
  warns : Bool
  /-- A lease service is configured. -/
  leases : Bool

/-! ### Helpers -/

/-- `_log.warning("operator", event, **fields)`: the standard logger takes no such keywords, and
looks at them only when the level is enabled. -/
def warnWithFields (at_ : Surroundings) : Routine Unit :=
  if at_.warns then .raise .typeError else pure ()

/-- Calls the daemon through the handle the registry holds; none on a transport failure. -/
def daemonRpc (site : Site) (generationId : String) (request : DaemonRequest) :
    Routine (Option (ℕ × Json)) := do
  let gens ← generations site
  match gens.find? (·.generationId = generationId) with
  | none => pure none
  | some gen =>
    match gen.transport with
    | none => pure none
    | some transport =>
      Prog.rescue (do
        let reply ← forward site transport request
        pure (some reply))
        fun raised => match raised with
          | .nelix e => if e.code = .generationUnavailable then pure none else .raise raised
          | _ => .raise raised

/-- The highest number up to which all numbers are there, going on from `hw`. -/
def contiguousFrom (existing : List ℕ) (hw : ℕ) : ℕ → ℕ
  | 0 => hw
  | fuel + 1 => if hw + 1 ∈ existing then contiguousFrom existing (hw + 1) fuel else hw

/-- Every number is met at most once on the way up, so the list is fuel enough. -/
def contiguous (existing : List ℕ) : ℕ := contiguousFrom existing 0 existing.length

/-- Advances the confirmed high water over the receipts that are there without a gap. -/
def resolveConfirmed (at_ : Surroundings) (site : Site) (epoch : String) : Routine Bool :=
  Prog.rescue (do
    let terminals ← ask site (.listTerminalForEpoch epoch)
    let hw := contiguous (terminals.map fun tr => tr.row.terminalSeq)
    if 0 < hw then do
      write site (.setGenerationConfirmedHighWater epoch hw)
      pure true
    else pure true)
    fun _ => do
      warnWithFields at_
      pure false

/-- The incarnation that the listing records for an epoch, decoded. -/
def recordedIncarnation (at_ : Surroundings) (epoch : String) (epochs : List EpochRecord) :
    Outcome (Option Json) :=
  match epochs.find? fun ep => ep.generationEpoch = epoch ∧ ep.incarnationMeta ≠ none with
  | none => .ok none
  | some ep =>
    match at_.loads (ep.incarnationMeta.getD epoch) with
    | none => .error .valueError
    | some incarnation => .ok (some incarnation)

/-- Stops the recorded incarnation of an epoch; false when that was refused or failed. -/
def reapGeneration (at_ : Surroundings) (generationId epoch : String) : Routine Bool :=
  Prog.rescue (do
    let gen ← ask (.reaping epoch) (.getGeneration generationId)
    let epochs ← ask (.reaping epoch) (.listEpochsStrict generationId)
    let recorded ← .done (recordedIncarnation at_ epoch epochs)
    match recorded with
    | none => pure false
    | some incarnation => reapHolder epoch generationId gen.buildId incarnation)
    fun _ => do
      warnWithFields at_
      pure false

/-! ### Crash reconciliation -/

/-- Why an epoch could not be reconciled. -/
inductive Obstacle
  | epochNotFound
  | epochNotDead
  | missingIncarnationMeta
  | malformedIncarnationMeta
  | invalidIncarnationPid
  | daemonStillAlive
  | listStartsFailed (raised : Raised)
  | childRecordMissing (sessionId : String)
  | childRecordMalformed (sessionId : String)
  | childSidMismatch (sessionId : String)
  | incompleteChildRecord (sessionId : String)
  | childMissingPgid (sessionId : String)
  | childNullFingerprint (sessionId : String)
  | invalidChildPid (sessionId : String)
  | invalidChildPgid (sessionId : String)
  | childFingerprintMismatch (sessionId : String)
  | childGroupStillAlive
  | killpgSigtermFailed (pgid : ℤ) (message : String)
  | killpgSigkillFailed (pgid : ℤ) (message : String)
  | childGroupVerifyFailed (message : String)
  | generationLostFailed (sessionId : String) (raised : Raised)
  deriving DecidableEq

/-- Signals a group on the way to its end: gone already is as good. -/
def signalGroup (pgid : ℤ) (signal : Signal) (failed : String → Obstacle) :
    Routine (Option Obstacle) := do
  match ← killpg pgid signal with
  | .delivered => pure none
  | .processLookupError => pure none
  | .permissionError => pure (some .childGroupStillAlive)
  | .osError message => pure (some (failed message))
  | .raised exception => .raise exception

/-- Proves that the whole group is gone. -/
def verifyGone (pgid : ℤ) : Routine (Option Obstacle) := do
  match ← killpg pgid .probe with
  | .processLookupError => pure none
  | .delivered => pure (some .childGroupStillAlive)
  | .permissionError => pure (some .childGroupStillAlive)
  | .osError message => pure (some (.childGroupVerifyFailed message))
  | .raised exception => .raise exception

/-- What the record of a child says, or what is wrong with it. -/
def childIdentity (sessionId : String) (record : Json) : Except Obstacle (ℤ × ℤ × Json) :=
  let field (name : String) : Json := (record.get? name).getD .null
  match record.get? "sid" with
  | some (.text named) =>
    if named ≠ sessionId then .error (.childSidMismatch sessionId)
    else if (field "pid").truthy = false then .error (.incompleteChildRecord sessionId)
    else if (field "pgid").truthy = false then .error (.childMissingPgid sessionId)
    else if (field "child_fingerprint").truthy = false then
      .error (.childNullFingerprint sessionId)
    else
      match (field "pid").positive?, (field "pgid").positive? with
      | none, _ => .error (.invalidChildPid sessionId)
      | some _, none => .error (.invalidChildPgid sessionId)
      | some pid, some pgid => .ok (pid, pgid, field "child_fingerprint")
  | _ => .error (.childSidMismatch sessionId)

/-- The process that runs under the recorded pid is another one. -/
def staleFingerprint (actual : Option String) (recorded : Json) : Bool :=
  match actual, recorded with
  | none, _ => false
  | some shown, .text value => shown ≠ value
  | some _, _ => true

/-- Ends the process group of one outstanding session. -/
def reapChildGroup (sessionId : String) : Routine (Option Obstacle) := do
  match ← readChild sessionId with
  | .missing => pure (some (.childRecordMissing sessionId))
  | .malformed => pure (some (.childRecordMalformed sessionId))
  | .undecodable => .raise .valueError
  | .record record =>
    match childIdentity sessionId record with
    | .error obstacle => pure (some obstacle)
    | .ok (pid, pgid, fingerprint) => do
      let actual ← startFingerprint pid
      if staleFingerprint actual fingerprint then
        pure (some (.childFingerprintMismatch sessionId))
      else do
        match ← signalGroup pgid .term (.killpgSigtermFailed pgid) with
        | some obstacle => pure (some obstacle)
        | none =>
          match ← signalGroup pgid .kill (.killpgSigkillFailed pgid) with
          | some obstacle => pure (some obstacle)
          | none => verifyGone pgid

/-- The outstanding sessions of an epoch, or the obstacle that they cannot be listed. -/
def outstandingOf (epoch : String) : Routine (Except Obstacle (List StartRow)) :=
  Prog.rescue (do
    let outstanding ← ask .reconciling (.listStartsForEpoch epoch)
    pure (.ok outstanding))
    fun raised => pure (.error (.listStartsFailed raised))

/-- Ends the process groups of every session that has no receipt yet. -/
def reapChildGroups (epoch : String) : Routine (Option Obstacle) := do
  match ← outstandingOf epoch with
  | .error obstacle => pure (some obstacle)
  | .ok outstanding => Prog.visit (fun row => reapChildGroup row.sessionId) outstanding

/-- Publishes that a session was lost with its generation. -/
def publishLost (row : StartRow) : Routine (Option Obstacle) :=
  Prog.rescue (do
    let endedAt ← time
    let clock ← time
    write .reconciling (.putTerminal row.sessionId
      { terminalKind := "generation_lost", summary := "generation lost (daemon crashed)",
        endedAt := .finite endedAt } (.finite clock))
    pure none)
    fun raised => pure (some (.generationLostFailed row.sessionId raised))

/-- The daemon of the epoch is proved dead by its recorded incarnation. -/
def incarnationPid (at_ : Surroundings) (ep : EpochRecord) : Except Obstacle ℤ :=
  match ep.incarnationMeta with
  | none => .error .missingIncarnationMeta
  | some recorded =>
    match at_.loads recorded with
    | some (.object fields) =>
      match (Json.object fields).get? "pid" with
      | some pid =>
        match pid.positive? with
        | some pid => .ok pid
        | none => .error .invalidIncarnationPid
      | none => .error .invalidIncarnationPid
    | _ => .error .malformedIncarnationMeta

/-- Closes admission where the listing shows it open. -/
def closeAdmission (site : Site) (ep : EpochRecord) : Routine Unit :=
  if ep.retirementState = .opened then
    write site (.setEpochRetirement ep.generationEpoch .quiescing .none none)
  else pure ()

/-- Closes admission, ends the children and publishes what was lost, then certifies. -/
def reconcileDead (generationId : String) (ep : EpochRecord) : Routine (Option Obstacle) := do
  closeAdmission .reconciling ep
  match ← reapChildGroups ep.generationEpoch with
  | some obstacle => pure (some obstacle)
  | none =>
    match ← outstandingOf ep.generationEpoch with
    | .error obstacle => pure (some obstacle)
    | .ok outstanding =>
      match ← Prog.visit publishLost outstanding with
      | some obstacle => pure (some obstacle)
      | none => do
        let finalHw ← ask .reconciling (.getGenerationPersistedHighWater ep.generationEpoch)
        write .reconciling (.setEpochRetirement ep.generationEpoch .certified
          (.text s!"crash-reconcile:{generationId}:{ep.generationEpoch}") (some (finalHw : ℤ)))
        pure none

/-- Reconciles a dead epoch; none when it was certified. -/
def crashReconcileEpoch (at_ : Surroundings) (generationId epoch : String) :
    Routine (Option Obstacle) := do
  let epochs ← ask .reconciling (.listEpochsStrict generationId)
  match epochs.find? (·.generationEpoch = epoch) with
  | none => pure (some .epochNotFound)
  | some ep =>
    if ep.processState ≠ .dead then pure (some .epochNotDead)
    else
      match incarnationPid at_ ep with
      | .error obstacle => pure (some obstacle)
      | .ok pid => do
        let alive ← pidAlive pid
        if alive then pure (some .daemonStillAlive)
        else reconcileDead generationId ep

/-! ### Retire -/

/-- Why a generation stays where it is. -/
inductive Hold
  | crashReconcileFailed (generationEpoch : String) (obstacle : Obstacle)
  | resolveFailed
  | notQuiesced
  | certifyFailed
  | confirmedBelowFinal
  | reapRefusedOrFailed
  | leaseReleaseFailed (generationEpoch : String) (raised : Raised)
  | leaseServiceRequired
  | oracle (blockers : List Blocker)
  deriving DecidableEq

/-- The answer of `retire`. -/
inductive RetireReply
  | ok (lifecycleState : Lifecycle) (idempotent : Bool)
  | blocked (lifecycleState : Lifecycle) (hold : Hold)
  deriving DecidableEq

/-- All four counters of the daemon's answer are zero. -/
def isQuiesced (reply : Option (ℕ × Json)) : Outcome Bool :=
  match reply with
  | some (200, .object fields) =>
    match ((Json.object fields).get? "status").getD (.object []) with
    | .object counters =>
      let counter (name : String) : Json := ((Json.object counters).get? name).getD (.int 1)
      .ok ((counter "live_sessions").isZero && (counter "outstanding_obligations").isZero &&
        (counter "terminal_pending").isZero && (counter "in_flight_admissions").isZero)
    | _ => .error .attributeError
  | _ => .ok false

/-- The epoch's certified number, as the router has confirmed it. -/
def confirmedReaches (generationId epoch : String) : Routine Bool := do
  let fresh ← ask .retiring (.listEpochs generationId)
  let final := ((fresh.find? (·.generationEpoch = epoch)).bind (·.finalHighWater)).getD 0
  let confirmed ← ask .retiring (.getGenerationConfirmedHighWater epoch)
  pure (decide (¬ confirmed < final))

/-- Certifies the epoch whose daemon serves: quiesce, drain, certify, confirm. -/
def certifyServing (at_ : Surroundings) (generationId : String) (ep : EpochRecord) :
    Routine (Option Hold) := do
  closeAdmission .retiring ep
  let _ ← daemonRpc .retiring generationId .quiesce
  if (← resolveConfirmed at_ .certifying ep.generationEpoch) = false then pure (some .resolveFailed)
  else do
    let status ← daemonRpc .retiring generationId .quiesceStatus
    let quiesced ← .done (isQuiesced status)
    if quiesced = false then pure (some .notQuiesced)
    else do
      let _ ← daemonRpc .retiring generationId
        (.certifyEpoch s!"retire:{generationId}:{ep.generationEpoch}" ep.generationEpoch)
      let refreshed ← ask .retiring (.getEpochRetirementState ep.generationEpoch)
      if refreshed ≠ .certified then pure (some .certifyFailed)
      else do
        if (← resolveConfirmed at_ .certifying ep.generationEpoch) = false then
          pure (some .confirmedBelowFinal)
        else if (← confirmedReaches generationId ep.generationEpoch) = false then
          pure (some .confirmedBelowFinal)
        else pure none

/-- Phase 1 for one listed epoch. -/
def certifyListed (at_ : Surroundings) (generationId : String) (currentEpoch : Option String)
    (ep : EpochRecord) : Routine (Option Hold) := do
  if ep.retirementState = .certified then pure none
  else if ep.processState = .dead then do
    match ← crashReconcileEpoch at_ generationId ep.generationEpoch with
    | some obstacle => pure (some (.crashReconcileFailed ep.generationEpoch obstacle))
    | none => pure none
  else if currentEpoch = some ep.generationEpoch then certifyServing at_ generationId ep
  -- An uncertified epoch that is neither dead nor current is passed over.
  else pure none

/-- Phase 2a for one listed epoch. -/
def reapListed (at_ : Surroundings) (generationId : String) (ep : EpochRecord) :
    Routine (Option Hold) := do
  if ep.incarnationMeta = none ∨ ep.processState = .dead then pure none
  else if (← reapGeneration at_ generationId ep.generationEpoch) = false then
    pure (some .reapRefusedOrFailed)
  else pure none

/-- Phase 2b for one listed epoch. -/
def releaseListed (at_ : Surroundings) (generationId : String) (ep : EpochRecord) :
    Routine (Option Hold) :=
  if at_.leases then
    Prog.rescue (do
      releaseEpoch generationId ep.generationEpoch
      pure none)
      fun raised => pure (some (.leaseReleaseFailed ep.generationEpoch raised))
  else if ep.incarnationMeta ≠ none ∨ ep.retirementState = .certified then
    pure (some .leaseServiceRequired)
  else pure none

/-- Phase 2c for one listed epoch: whether it worked is not looked at. -/
def confirmListed (at_ : Surroundings) (ep : EpochRecord) : Routine (Option Hold) := do
  let _ ← resolveConfirmed at_ .confirming ep.generationEpoch
  pure none

/-- `"has_current_epoch" in blocker` -/
def Blocker.mentionsCurrentEpoch (b : Blocker) : Bool :=
  decide ("has_current_epoch".toList <:+: b.spelling.toList)

/-- Only the pointer stands in the way, and it is about to be cleared. -/
def tolerated (blockers : List Blocker) : Bool := blockers.all Blocker.mentionsCurrentEpoch

/-- Phase 2d. -/
def judge (generationId : String) : Routine (Option Hold) := do
  let blockers ← generationRetirementOracleBlockers (ask .judging) generationId
  if tolerated blockers then pure none else pure (some (.oracle blockers))

/-- Phase 2a: stops every incarnation that is recorded and not dead. -/
def reapAll (at_ : Surroundings) (generationId : String) : Routine (Option Hold) := do
  let epochs ← ask .retiring (.listEpochs generationId)
  Prog.visit (reapListed at_ generationId) epochs

/-- Phase 2b: releases the leases of every epoch. -/
def releaseAll (at_ : Surroundings) (generationId : String) : Routine (Option Hold) := do
  let epochs ← ask .retiring (.listEpochs generationId)
  Prog.visit (releaseListed at_ generationId) epochs

/-- Phase 2c: resolves the confirmed high water of every epoch. -/
def confirmAll (at_ : Surroundings) (generationId : String) : Routine (Option Hold) := do
  let epochs ← ask .retiring (.listEpochs generationId)
  Prog.visit (confirmListed at_) epochs

/-- Phase 2: reap, release, confirm, and ask the oracle, whatever phase 1 did. -/
def gates (at_ : Surroundings) (generationId : String) : Routine (Option Hold) :=
  (reapAll at_ generationId).otherwise <|
    (releaseAll at_ generationId).otherwise <|
      (confirmAll at_ generationId).otherwise (judge generationId)

/-- Moves the generation on when it is in the state `source`. -/
def advanceLifecycle (generationId : String) (source target : Lifecycle) : Routine Unit := do
  let gen ← ask .retiring (.getGeneration generationId)
  if gen.lifecycleState = source then
    write .retiring (.setGenerationLifecycleState generationId target)
  else pure ()

def dropPointer (generationId : String) : Routine Unit := do
  let gen ← ask .retiring (.getGeneration generationId)
  if gen.currentEpoch ≠ none then write .retiring (.clearCurrentEpoch generationId) else pure ()

/-- Phase 3: clears the pointer and walks the lifecycle to its end. -/
def finalize (generationId : String) : Routine RetireReply := do
  dropPointer generationId
  advanceLifecycle generationId .active .draining
  advanceLifecycle generationId .draining .retiring
  advanceLifecycle generationId .retiring .retired
  let final ← ask .retiring (.getGeneration generationId)
  pure (.ok final.lifecycleState false)

/-- What runs under the generations lock. -/
def retireLocked (at_ : Surroundings) (generationId : String) (gen : GenerationRow)
    (allEpochs : List EpochRecord) : Routine RetireReply := do
  match ← (Prog.visit (certifyListed at_ generationId gen.currentEpoch) allEpochs).otherwise
      (gates at_ generationId) with
  | some hold => pure (.blocked gen.lifecycleState hold)
  | none => finalize generationId

/-- Reads the generation; an unknown one is a bad request. -/
def readGeneration (generationId : String) : Routine GenerationRow :=
  Prog.rescue (ask .reading (.getGeneration generationId)) fun raised => match raised with
    | .nelix e =>
      if e.code = .unknownSession then
        refused .invalidRequest s!"no such generation: {generationId}"
      else .raise raised
    | _ => .raise raised

/-- What follows the two reads. -/
def retireListed (at_ : Surroundings) (generationId : String) (gen : GenerationRow)
    (allEpochs : List EpochRecord) : Routine RetireReply := do
  if allEpochs = [] then refused .invalidRequest s!"generation {generationId} has no epochs"
  else do
    lock
    (retireLocked at_ generationId gen allEpochs).ensure unlock

/-- Retires a generation. What it lists, and the pointer, are read before the lock is taken. -/
def retire (at_ : Surroundings) (generationId : String) : Routine RetireReply := do
  if generationId = "" then
    refused .invalidRequest s!"generation_id must be a non-empty string: {pyRepr generationId}"
  else do
    let gen ← readGeneration generationId
    if gen.lifecycleState = .retired then pure (.ok .retired true)
    else if gen.lifecycleState = .ready then
      refused .invalidRequest
        s!"generation {generationId} is {pyRepr gen.lifecycleState.spelling}, must be draining or active to retire"
    else do
      let allEpochs ← ask .reading (.listEpochs generationId)
      retireListed at_ generationId gen allEpochs

end Nelix.Router
