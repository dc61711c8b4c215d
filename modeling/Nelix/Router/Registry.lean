import Nelix.Contracts.Ids
import Nelix.Contracts.Json
import Nelix.Store.Retirement

/-!
# The generation registry

`GenerationRegistry` and the operator's `activate`, as programs over the store, the registry's own
cell, two locks and the supervisor of a generation's daemon. Every effect that can raise answers
with an outcome; what a supervisor reports is whatever the daemon and the system make of it.
-/
namespace Nelix.Router

open Contracts Core Store

/-! ### Effects -/

/-- `{"pid": .., "start_fingerprint": ..}` -/
structure Incarnation where
  pid : ℤ
  startFingerprint : Option String
  deriving DecidableEq

/-- The metadata of a live lock holder; the transport is none where it is not a unix one. -/
structure Holder where
  incarnation : Incarnation
  transport : Option String
  deriving DecidableEq

/-- The three keys that `/health` has to carry. -/
structure Identity where
  generationId : Json
  generationEpoch : Json
  buildId : Json

/-- `value == expected` for a str or None. -/
def Json.equals (value : Json) (expected : Option String) : Bool :=
  match value, expected with
  | .null, none => true
  | .text given, some expected => given = expected
  | _, _ => false

/-- The identity triple is exactly this one. -/
def Identity.isExactly (identity : Identity) (generationId generationEpoch : String)
    (buildId : Option String) : Bool :=
  Json.equals identity.generationId (some generationId) &&
    Json.equals identity.generationEpoch (some generationEpoch) &&
    Json.equals identity.buildId buildId

/-- What the registry holds of the generation it has adopted. -/
structure Adopted where
  incarnation : Incarnation
  epoch : String
  generationId : String
  transport : String
  buildId : Option String
  deriving DecidableEq

/-- The registry's cell. -/
structure Cell where
  active : Option Adopted := none
  generationId : Option String := none
  topologyRevision : ℕ := 1
  deriving DecidableEq

/-- Which path a step belongs to. -/
inductive Path
  | readopt
  | mint
  | activate
  deriving DecidableEq

inductive GenEffect
  | listGenerations (path : Path)
  | ask (query : Query)
  | write (call : Call)
  | newGenerationId
  | time
  | lockRegistry
  | unlockRegistry
  | lockOperator
  | unlockOperator
  | readCell
  | remember (generationId : String)
  /-- `self._active["transport"] = ..` and the incarnation. -/
  | refresh (transport : String) (incarnation : Incarnation)
  /-- `self._active = {..}`; the revision is bumped where the code bumps it. -/
  | install (adopted : Adopted) (bump : Bool)
  | generationDirs
  | isInstalled (buildId : String)
  /-- `runtime.active()`, or None where there is no module `runtime`. -/
  | runtimeActive
  | runtimeActivate (buildId : String)
  | ensureDirs (generationId : String)
  | ensureRunning (generationId : String) (buildId : Option String) (generationEpoch : String)
  | liveLockHolder (generationId : String)
  | endpoint (generationId : String) (buildId : Option String) (expectedEpoch : String)
  | checkHealth (generationId transport : String)
  | healthIdentity (generationId transport : String)
  | checkHealthStrict (generationId transport generationEpoch : String) (buildId : Option String)
  | reapHolder (generationId : String) (incarnation : Option Incarnation)
  | sleep

abbrev GenEffect.Answer : GenEffect → Type
  | listGenerations _ => Outcome (List GenerationRow)
  | ask query => query.Answer
  | write _ => Outcome Unit
  | newGenerationId => String
  | time => Reading
  | lockRegistry => Unit
  | unlockRegistry => Unit
  | lockOperator => Outcome Unit
  | unlockOperator => Unit
  | readCell => Cell
  | remember _ => Unit
  | refresh .. => Unit
  | install .. => Unit
  | generationDirs => Option (List String)
  | isInstalled _ => Outcome Bool
  | runtimeActive => Outcome (Option String)
  | runtimeActivate _ => Outcome Unit
  | ensureDirs _ => Outcome Unit
  | ensureRunning .. => Outcome (Option Incarnation × String)
  | liveLockHolder _ => Outcome (Option Holder)
  | endpoint .. => Outcome (Option String)
  | checkHealth .. => Outcome Bool
  | healthIdentity .. => Outcome (Option Identity)
  | checkHealthStrict .. => Outcome Bool
  | reapHolder .. => Outcome Bool
  | sleep => Unit

/-- The effects whose answers come from outside the router. -/
def GenEffect.outside : GenEffect → Bool
  | newGenerationId | time | generationDirs | isInstalled _ | runtimeActive | runtimeActivate _
  | ensureDirs _ | ensureRunning .. | liveLockHolder _ | endpoint .. | checkHealth ..
  | healthIdentity .. | checkHealthStrict .. | reapHolder .. | sleep => true
  | _ => false

abbrev GenRoutine (α : Type) := Prog GenEffect GenEffect.Answer Raised α

namespace GenRoutine

def refused {α : Type} (code : ErrorCode) (message : String) : GenRoutine α :=
  .raise (.nelix ⟨code, message⟩)

def listGenerations (path : Path) : GenRoutine (List GenerationRow) :=
  .perform (.listGenerations path) fun answer => .done answer

def ask (query : Query) : GenRoutine query.Value := .perform (.ask query) fun answer => .done answer

def write (call : Call) : GenRoutine Unit := .perform (.write call) fun answer => .done answer

def newGenerationId : GenRoutine String := .perform .newGenerationId fun id => .done (.ok id)

def time : GenRoutine Reading := .perform .time fun now => .done (.ok now)

def lockRegistry : GenRoutine Unit := .perform .lockRegistry fun _ => .done (.ok ())

def unlockRegistry : GenRoutine Unit := .perform .unlockRegistry fun _ => .done (.ok ())

def lockOperator : GenRoutine Unit := .perform .lockOperator fun answer => .done answer

def unlockOperator : GenRoutine Unit := .perform .unlockOperator fun _ => .done (.ok ())

def readCell : GenRoutine Cell := .perform .readCell fun cell => .done (.ok cell)

def remember (generationId : String) : GenRoutine Unit :=
  .perform (.remember generationId) fun _ => .done (.ok ())

def refresh (transport : String) (incarnation : Incarnation) : GenRoutine Unit :=
  .perform (.refresh transport incarnation) fun _ => .done (.ok ())

def install (adopted : Adopted) (bump : Bool) : GenRoutine Unit :=
  .perform (.install adopted bump) fun _ => .done (.ok ())

def generationDirs : GenRoutine (Option (List String)) :=
  .perform .generationDirs fun names => .done (.ok names)

def isInstalled (buildId : String) : GenRoutine Bool :=
  .perform (.isInstalled buildId) fun answer => .done answer

def runtimeActive : GenRoutine (Option String) :=
  .perform .runtimeActive fun answer => .done answer

def runtimeActivate (buildId : String) : GenRoutine Unit :=
  .perform (.runtimeActivate buildId) fun answer => .done answer

def ensureDirs (generationId : String) : GenRoutine Unit :=
  .perform (.ensureDirs generationId) fun answer => .done answer

def ensureRunning (generationId : String) (buildId : Option String) (generationEpoch : String) :
    GenRoutine (Option Incarnation × String) :=
  .perform (.ensureRunning generationId buildId generationEpoch) fun answer => .done answer

def liveLockHolder (generationId : String) : GenRoutine (Option Holder) :=
  .perform (.liveLockHolder generationId) fun answer => .done answer

def endpoint (generationId : String) (buildId : Option String) (expectedEpoch : String) :
    GenRoutine (Option String) :=
  .perform (.endpoint generationId buildId expectedEpoch) fun answer => .done answer

def checkHealth (generationId transport : String) : GenRoutine Bool :=
  .perform (.checkHealth generationId transport) fun answer => .done answer

def healthIdentity (generationId transport : String) : GenRoutine (Option Identity) :=
  .perform (.healthIdentity generationId transport) fun answer => .done answer

def checkHealthStrict (generationId transport generationEpoch : String)
    (buildId : Option String) : GenRoutine Bool :=
  .perform (.checkHealthStrict generationId transport generationEpoch buildId)
    fun answer => .done answer

def reapHolder (generationId : String) (incarnation : Option Incarnation) : GenRoutine Bool :=
  .perform (.reapHolder generationId incarnation) fun answer => .done answer

def sleep : GenRoutine Unit := .perform .sleep fun _ => .done (.ok ())

end GenRoutine

open GenRoutine

/-- How the router is set up, and the texts Python gives its values. -/
structure Deployment where
  /-- `self._build_id` -/
  buildId : Option String
  healthRetries : ℕ
  /-- `json.dumps(inc, sort_keys=True)` -/
  incarnationMeta : Incarnation → String
  incarnationMeta_ne : ∀ inc, incarnationMeta inc ≠ ""
  /-- `str(e)` -/
  shown : Raised → String

/-- `except NelixError` -/
def exceptNelix {α : Type} (body : GenRoutine α) (handler : NelixError → GenRoutine α) :
    GenRoutine α :=
  body.rescue fun raised =>
    match raised with
    | .nelix e => handler e
    | raised => .raise raised

/-- `GenerationSupervisor(generation_id, build_id)`: refuses an id of another shape. -/
def supervise (generationId : String) : GenRoutine Unit :=
  if validGenerationId generationId then pure () else .raise .valueError

theorem only_exceptNelix {α : Type} {body : GenRoutine α} {handler : NelixError → GenRoutine α}
    {allowed : GenEffect → Prop} (bodyOnly : body.Only allowed)
    (handled : ∀ n, (handler n).Only allowed) : (exceptNelix body handler).Only allowed := by
  refine .rescue bodyOnly fun raised => ?_
  cases raised with
  | nelix e => exact handled e
  | _ => exact .raise

theorem only_supervise {allowed : GenEffect → Prop} (generationId : String) :
    (supervise generationId).Only allowed := by
  unfold supervise
  split
  · exact .pure
  · exact .raise

/-- The holder is there and is this incarnation. -/
def stillHeld (holder : Option Holder) (incarnation : Incarnation) : Bool :=
  holder.any fun h => h.incarnation = incarnation

namespace Registry

/-! ### The eager reconcile -/

/-- Stops the holder of a directory that has no row; whatever goes wrong is passed over. -/
def reapOrphan (known : List String) (name : String) : GenRoutine (Option Unit) :=
  if name ∈ known then pure none
  else
    Prog.rescue (do
      supervise name
      match ← liveLockHolder name with
      | some holder => do
        let _ ← reapHolder name (some holder.incarnation)
        pure none
      | none => pure none)
      fun _ => pure none

def reapOrphans (gens : List GenerationRow) : GenRoutine Unit := do
  match ← generationDirs with
  | none => pure ()
  | some names => do
    let _ ← Prog.visit (reapOrphan (gens.map GenerationRow.generationId)) names
    pure ()

/-- The transport of a holder; that of another kind of holder is asked for. -/
def transportOf (gid : String) (buildId : Option String) (epoch : String) (holder : Holder) :
    GenRoutine (Option String) :=
  match holder.transport with
  | some transport => pure (some transport)
  | none => endpoint gid buildId epoch

/-- What a probe of one epoch's daemon comes to. -/
inductive Probe
  | absent
  | changed
  | confirmed (incarnation : Incarnation) (transport : String)

/-- The holder answers as this epoch and is the same one after the answer. -/
def probe (gid : String) (buildId : Option String) (epoch : String) : GenRoutine Probe := do
  match ← liveLockHolder gid with
  | none => pure .absent
  | some holder =>
    match ← transportOf gid buildId epoch holder with
    | none => pure .absent
    | some transport =>
      match ← healthIdentity gid transport with
      | none => pure .absent
      | some identity =>
        if identity.isExactly gid epoch buildId then do
          let reRead ← liveLockHolder gid
          if stillHeld reRead holder.incarnation then
            pure (.confirmed holder.incarnation transport)
          else pure .changed
        else pure .absent

/-- How one epoch of the repair ends: the next one, no more of them, or the whole repair. -/
inductive Repair
  | adopted
  | aborted
  deriving DecidableEq

/-- A serving epoch whose pointer is gone: the pointer is set again. -/
def repairServing (gid : String) (buildId : Option String) (se : EpochRecord) :
    GenRoutine (Option Repair) := do
  match ← probe gid buildId se.generationEpoch with
  | .absent => pure none
  | .changed => pure (some .aborted)
  | .confirmed incarnation transport => do
    write (.setCurrentEpoch gid se.generationEpoch)
    install ⟨incarnation, se.generationEpoch, gid, transport, buildId⟩ false
    pure (some .adopted)

/-- A starting epoch under a NULL pointer: promoted, or dead where the promotion is refused. -/
def repairStarting (at_ : Deployment) (gid : String) (buildId : Option String)
    (se : EpochRecord) : GenRoutine (Option Repair) := do
  match ← probe gid buildId se.generationEpoch with
  | .absent => pure none
  | .changed => pure (some .aborted)
  | .confirmed incarnation transport => do
    let promoted ← exceptNelix (do
      write (.casEpochServing gid se.generationEpoch none (some (at_.incarnationMeta incarnation)))
      pure true)
      fun _ => do
        write (.reconcileEpochDead gid se.generationEpoch)
        pure false
    if promoted then do
      install ⟨incarnation, se.generationEpoch, gid, transport, buildId⟩ false
      pure (some .adopted)
    else pure none

/-- A contract error of the reconciliation is passed over. -/
def bury (gid : String) (se : EpochRecord) : GenRoutine (Option Unit) :=
  exceptNelix (do
    write (.reconcileEpochDead gid se.generationEpoch)
    pure none)
    fun _ => pure none

def buryAll (gid : String) (epochs : List EpochRecord) : GenRoutine Unit := do
  let _ ← Prog.visit (bury gid) epochs
  pure ()

/-- The repair of a generation whose pointer is NULL. -/
def reconcileNull (at_ : Deployment) (gid : String) (buildId : Option String)
    (allEpochs : List EpochRecord) : GenRoutine Unit := do
  let serving := allEpochs.filter (·.processState = .serving)
  let starting := allEpochs.filter (·.processState = .starting)
  match ← Prog.visit (repairServing gid buildId) serving with
  | some .aborted => pure ()
  | _ =>
    match ← Prog.visit (repairStarting at_ gid buildId) starting with
    | some .aborted => pure ()
    | _ =>
      match (← readCell).active with
      | some adopted => buryAll gid (starting.filter (·.generationEpoch ≠ adopted.epoch))
      | none => buryAll gid (serving ++ starting)

/-- Asks for the daemon's identity, a number of times where it may still be starting. -/
def identityOf (gid transport : String) : ℕ → GenRoutine (Option Identity)
  | 0 => pure none
  | attempts + 1 => do
    let retry : GenRoutine (Option Identity) :=
      if attempts = 0 then pure none
      else do
        sleep
        identityOf gid transport attempts
    if ← checkHealth gid transport then
      match ← healthIdentity gid transport with
      | some identity => pure (some identity)
      | none => retry
    else retry

/-- What the inspection of the current epoch comes to. -/
inductive Inspection
  | settled
  | unconfirmed
  deriving DecidableEq

/-- Adopts the serving epoch, unless the holder changed during the probe. -/
def adoptServing (gid : String) (buildId : Option String) (currentEpoch : String)
    (holder : Holder) (transport : String) : GenRoutine Inspection := do
  let reRead ← liveLockHolder gid
  if stillHeld reRead holder.incarnation then do
    install ⟨holder.incarnation, currentEpoch, gid, transport, buildId⟩ false
    pure .settled
  else pure .settled

/-- Promotes the starting epoch, with the holder read again before and after. -/
def adoptStarting (at_ : Deployment) (gid : String) (buildId : Option String)
    (currentEpoch : String) (holder : Holder) (transport : String) : GenRoutine Inspection := do
  let reRead ← liveLockHolder gid
  if stillHeld reRead holder.incarnation = false then pure .settled
  else do
    let promoted ← exceptNelix (do
      write (.casEpochServing gid currentEpoch (some currentEpoch)
        (some (at_.incarnationMeta holder.incarnation)))
      pure true)
      fun _ => do
        write (.reconcileEpochDead gid currentEpoch)
        pure false
    if promoted = false then pure .settled
    else do
      let reRead ← liveLockHolder gid
      if stillHeld reRead holder.incarnation = false then do
        write (.reconcileEpochDead gid currentEpoch)
        pure .settled
      else do
        install ⟨holder.incarnation, currentEpoch, gid, transport, buildId⟩ false
        pure .settled

/-- Inspects the holder behind the current epoch. -/
def inspectCurrent (at_ : Deployment) (gid : String) (buildId : Option String)
    (currentEpoch : String) (processState : Option ProcessState) : GenRoutine Inspection := do
  match ← liveLockHolder gid with
  | none => pure .unconfirmed
  | some holder =>
    match holder.transport with
    | some transport => do
      let attempts := if processState = some .starting then 1 + at_.healthRetries else 1
      match ← identityOf gid transport attempts with
      | none => pure .unconfirmed
      | some identity =>
        if identity.isExactly gid currentEpoch buildId then
          match processState with
          | some .serving => adoptServing gid buildId currentEpoch holder transport
          | some .starting => adoptStarting at_ gid buildId currentEpoch holder transport
          | _ => pure .unconfirmed
        else pure .unconfirmed
    | none => do
      match ← endpoint gid buildId currentEpoch with
      | some ep =>
        if processState = some .serving then adoptServing gid buildId currentEpoch holder ep
        else pure .unconfirmed
      | none => pure .unconfirmed

/-- Buries a starting epoch other than the current one; an error is not passed over. -/
def buryOther (gid currentEpoch : String) (ep : EpochRecord) : GenRoutine (Option Unit) := do
  if ep.generationEpoch = currentEpoch then pure none
  else if ep.processState = .starting then do
    write (.reconcileEpochDead gid ep.generationEpoch)
    pure none
  else pure none

/-- The inspection of a generation whose pointer names an epoch. -/
def reconcilePointed (at_ : Deployment) (gid : String) (buildId : Option String)
    (currentEpoch : String) (allEpochs : List EpochRecord) : GenRoutine Unit := do
  let epochRec := allEpochs.find? (·.generationEpoch = currentEpoch)
  match ← inspectCurrent at_ gid buildId currentEpoch (epochRec.map (·.processState)) with
  | .settled => pure ()
  | .unconfirmed => do
    if currentEpoch ≠ "" then write (.reconcileEpochDead gid currentEpoch)
    let _ ← Prog.visit (buryOther gid currentEpoch) allEpochs
    pure ()

/-- Inspects the active generation and brings its rows to a consistent state. -/
def reconcileActive (at_ : Deployment) (genRec : GenerationRow) : GenRoutine Unit := do
  let gid := genRec.generationId
  remember gid
  supervise gid
  let allEpochs ← Prog.rescue (ask (.listEpochsStrict gid)) fun _ =>
    refused .generationUnavailable
      "failed to read epoch list during re-adoption; store may be corrupted"
  match genRec.currentEpoch with
  | none => reconcileNull at_ gid genRec.buildId allEpochs
  | some currentEpoch => reconcilePointed at_ gid genRec.buildId currentEpoch allEpochs

def activeRows (gens : List GenerationRow) : List GenerationRow :=
  gens.filter (·.lifecycleState = .active)

/-- `_eager_reconcile` -/
def eagerReconcile (at_ : Deployment) : GenRoutine Unit := do
  let gens ← Prog.rescue (listGenerations .readopt) fun _ =>
    refused .generationUnavailable
      "failed to read generation list during re-adoption; store may be corrupted"
  match activeRows gens with
  | [] => reapOrphans gens
  | [genRec] => do
    reapOrphans gens
    reconcileActive at_ genRec
  | rows =>
    refused .idempotencyConflict
      s!"multiple ({rows.length}) active generation rows found; store is corrupted"

/-! ### active() -/

def unavailable {α : Type} (message : String) : GenRoutine α :=
  refused .generationUnavailable message

/-- The durable pointer agrees with the adopted epoch, or is repaired where it is NULL. -/
def verifyPointer (gid epoch : String) : GenRoutine Unit := do
  let genRec ← ask (.getGeneration gid)
  let epochList ← ask (.listEpochsStrict gid)
  match genRec.currentEpoch with
  | none =>
    if epochList.any fun e => e.generationEpoch = epoch && e.processState = .serving then
      write (.setCurrentEpoch gid epoch)
    else
      unavailable s!"generation {gid} current_epoch is NULL and epoch {epoch} is not serving"
  | some current =>
    if current ≠ epoch then
      match epochList.find? (·.generationEpoch = current) with
      | some pointed =>
        if pointed.processState ≠ .serving then
          unavailable s!"generation {gid} current_epoch {pyRepr current} is not serving (actual: {pointed.processState.spelling})"
        else
          unavailable s!"generation {gid} current_epoch changed to {pyRepr current}, expected {pyRepr epoch}"
      | none =>
        unavailable s!"generation {gid} current_epoch changed to {pyRepr current}, expected {pyRepr epoch}"
    else
      match epochList.find? (·.generationEpoch = epoch) with
      | none =>
        unavailable s!"generation {gid} current_epoch {pyRepr epoch} has no matching epoch row"
      | some matched =>
        if matched.processState ≠ .serving then
          unavailable s!"generation {gid} current_epoch {pyRepr epoch} is not serving (actual: {matched.processState.spelling})"
        else pure ()

/-- `_refresh_active_locked` -/
def refreshActiveLocked (a : Adopted) : GenRoutine Adopted := do
  supervise a.generationId
  match ← liveLockHolder a.generationId with
  | none => unavailable s!"generation {a.generationId} has no live lock holder"
  | some holder =>
    match ← transportOf a.generationId a.buildId a.epoch holder with
    | none => unavailable s!"generation {a.generationId} has unreachable holder"
    | some transport =>
      if (← checkHealthStrict a.generationId transport a.epoch a.buildId) = false then
        unavailable s!"generation {a.generationId} identity mismatch on refresh"
      else if holder.incarnation ≠ a.incarnation then
        unavailable s!"generation {a.generationId} incarnation changed on refresh"
      else do
        verifyPointer a.generationId a.epoch
        let reRead ← liveLockHolder a.generationId
        if stillHeld reRead holder.incarnation = false then
          unavailable s!"generation {a.generationId} holder changed during refresh; aborting without adopting replacement"
        else do
          refresh transport holder.incarnation
          pure { a with transport := transport, incarnation := holder.incarnation }

/-- Marks the epoch dead, whatever goes wrong. -/
def tryBury (gid epoch : String) : GenRoutine Unit :=
  (write (.reconcileEpochDead gid epoch)).rescue fun _ => pure ()

/-- `_mint_install_unlocked` -/
def mintInstallUnlocked (at_ : Deployment) (gid : String) (buildId : Option String) :
    GenRoutine Adopted := do
  let clock ← time
  exceptNelix (write (.createGeneration gid buildId .active none clock)) fun e =>
    if e.code ≠ .duplicateStart then unavailable s!"failed to persist generation: {e.message}"
    else pure ()
  let epoch ← newGenerationId
  exceptNelix (write (.insertEpoch epoch gid none clock)) fun e =>
    unavailable s!"failed to persist starting epoch: {e.message}"
  supervise gid
  let (incarnation, transport) ← (ensureRunning gid buildId epoch).rescue fun raised => do
    tryBury gid epoch
    unavailable s!"failed to spawn generation daemon: {at_.shown raised}"
  if (← checkHealthStrict gid transport epoch buildId) = false then do
    if incarnation.isSome then
      let _ ← reapHolder gid incarnation
    tryBury gid epoch
    unavailable "generation daemon health check failed (strict identity mismatch)"
  else
    match ← liveLockHolder gid with
    | none => do
      if incarnation.isSome then
        let _ ← reapHolder gid incarnation
      tryBury gid epoch
      unavailable "generation daemon vanished before installation"
    | some holder =>
      match incarnation with
      -- `incarnation["pid"]` on None
      | none => .raise .typeError
      | some spawned =>
        if holder.incarnation ≠ spawned then
          unavailable "generation daemon holder replaced during health check"
        else do
          exceptNelix (write (.casEpochServing gid epoch none
              (some (at_.incarnationMeta holder.incarnation)))) fun _ => do
            let _ ← reapHolder gid (some holder.incarnation)
            tryBury gid epoch
            unavailable "epoch promotion failed (CAS conflict)"
          let reRead ← liveLockHolder gid
          if stillHeld reRead holder.incarnation = false then do
            tryBury gid epoch
            unavailable "generation daemon replaced after promotion"
          else do
            let adopted : Adopted := ⟨holder.incarnation, epoch, gid, transport, buildId⟩
            install adopted true
            pure adopted

/-- The build a first generation is pinned to. -/
def bootstrapBuild (at_ : Deployment) : GenRoutine (Option String) :=
  match at_.buildId with
  | some build => pure (some build)
  | none => runtimeActive

/-- `_find_or_create_locked` -/
def findOrCreateLocked (at_ : Deployment) : GenRoutine Adopted := do
  let gens ← Prog.rescue (listGenerations .mint) fun _ =>
    unavailable "failed to read generation list; store may be corrupted"
  match activeRows gens with
  | [] => do
    let buildId ← bootstrapBuild at_
    let gid ← newGenerationId
    remember gid
    mintInstallUnlocked at_ gid buildId
  | [gr] => do
    remember gr.generationId
    mintInstallUnlocked at_ gr.generationId gr.buildId
  | _ => refused .idempotencyConflict "multiple active generation rows found"

def activeLocked (at_ : Deployment) : GenRoutine Adopted := do
  match (← readCell).active with
  | some a => refreshActiveLocked a
  | none => findOrCreateLocked at_

/-- `active()` of a registry without an injected supervisor. -/
def active (at_ : Deployment) : GenRoutine Adopted := do
  lockRegistry
  (activeLocked at_).ensure unlockRegistry

/-- `adopt_generation` with the incarnation given. -/
def adoptGeneration (adopted : Adopted) : GenRoutine Unit := do
  lockRegistry
  (do
    remember adopted.generationId
    install adopted true).ensure unlockRegistry

end Registry

/-! ### The operator's activate -/

namespace Operator

/-- The answer of `activate`. -/
inductive ActivateReply
  | idempotent (generationId buildId : String)
  | activated (generationId buildId epoch : String) (currentUpdated : Bool)
  deriving DecidableEq

def healthTries : ℕ := 3

/-- `_health_check` -/
def healthCheck (gid transport epoch buildId : String) : ℕ → GenRoutine Bool
  | 0 => pure false
  | tries + 1 => do
    if ← checkHealthStrict gid transport epoch (some buildId) then pure true
    else if tries = 0 then pure false
    else do
      sleep
      healthCheck gid transport epoch buildId tries

/-- The first active generation; a read that fails is passed over. -/
def findOld : GenRoutine (Option GenerationRow) :=
  exceptNelix (do
    let existing ← listGenerations .activate
    pure (Registry.activeRows existing).head?)
    fun _ => pure none

/-- Marks the epoch dead and refuses. -/
def buried {α : Type} (gid epoch message : String) : GenRoutine α := do
  write (.reconcileEpochDead gid epoch)
  refused .generationUnavailable message

/-- The atomic flip: the old generation drains, the new one is active. -/
def flip (oldGen : Option GenerationRow) (newGid : String) : GenRoutine Unit :=
  match oldGen with
  | some old =>
    write (.setGenerationLifecycleStateAtomic old.generationId newGid .draining .active .ready)
  | none => write (.setGenerationLifecycleStateAtomic newGid newGid .active .ready .ready)

/-- From the promoted epoch on: flip, cache, adoption. -/
def flipAndAdopt (oldGen : Option GenerationRow) (buildId newGid newEpoch transport : String)
    (currentInc : Incarnation) : GenRoutine ActivateReply := do
  flip oldGen newGid
  let currentUpdated ← Prog.rescue (do
    runtimeActivate buildId
    pure true)
    fun _ => pure false
  Registry.adoptGeneration ⟨currentInc, newEpoch, newGid, transport, some buildId⟩
  pure (.activated newGid buildId newEpoch currentUpdated)

/-- From the running daemon on: health, holder, promotion. -/
def promote (at_ : Deployment) (oldGen : Option GenerationRow)
    (buildId newGid newEpoch transport : String) (incarnation : Option Incarnation) :
    GenRoutine ActivateReply := do
  if (← healthCheck newGid transport newEpoch buildId healthTries) = false then do
    if incarnation.isSome then
      let _ ← reapHolder newGid incarnation
    buried newGid newEpoch "generation health check failed (identity triple)"
  else
    match ← liveLockHolder newGid with
    | none => do
      let _ ← reapHolder newGid incarnation
      buried newGid newEpoch "generation daemon vanished before promotion"
    | some holder => do
      exceptNelix (write (.casEpochServing newGid newEpoch none
          (some (at_.incarnationMeta holder.incarnation)))) fun e => do
        let _ ← reapHolder newGid (some holder.incarnation)
        write (.reconcileEpochDead newGid newEpoch)
        .raise (.nelix e)
      flipAndAdopt oldGen buildId newGid newEpoch transport holder.incarnation

/-- `_activate_locked` after its probe of the registry. -/
def activateProbed (at_ : Deployment) (buildId : String) : GenRoutine ActivateReply := do
  let clock ← time
  let oldGen ← findOld
  let newGid ← newGenerationId
  write (.createGeneration newGid (some buildId) .ready none clock)
  let newEpoch ← newGenerationId
  write (.insertEpoch newEpoch newGid none clock)
  supervise newGid
  ensureDirs newGid
  let (incarnation, transport) ← (ensureRunning newGid (some buildId) newEpoch).rescue fun raised =>
    buried newGid newEpoch s!"failed to spawn generation daemon: {at_.shown raised}"
  promote at_ oldGen buildId newGid newEpoch transport incarnation

/-- `_activate_locked` -/
def activateLocked (at_ : Deployment) (buildId : String) : GenRoutine ActivateReply := do
  if (← isInstalled buildId) = false then
    refused .invalidRequest s!"build {buildId} is not installed"
  else do
    let current ← exceptNelix (do
      let a ← Registry.active at_
      pure (some a))
      fun _ => pure none
    match current.filter (·.buildId = some buildId) with
    | some a => pure (.idempotent a.generationId buildId)
    | none => activateProbed at_ buildId

/-- `activate` with a store configured. -/
def activate (at_ : Deployment) (buildId : String) : GenRoutine ActivateReply := do
  if buildId = "" then
    refused .invalidRequest s!"build_id must be a non-empty string: {pyRepr buildId}"
  else do
    lockOperator
    (activateLocked at_ buildId).ensure unlockOperator

end Operator

/-! ### A deployment -/

/-- A generation that is active and serving. -/
def servedStore : Db :=
  machine.after {}
    [.createGeneration sampleGeneration (some "build-1") .active none (.finite 1),
      .insertEpoch firstEpoch sampleGeneration none (.finite 1),
      .casEpochServing sampleGeneration firstEpoch none none]

def sampleDeployment : Deployment where
  buildId := none
  healthRetries := 3
  incarnationMeta _ := "\x7b\x7d"
  incarnationMeta_ne _ := by decide
  shown _ := "error"

end Nelix.Router
