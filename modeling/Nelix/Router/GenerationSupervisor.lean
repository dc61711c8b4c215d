import Nelix.Core.Traces
import Nelix.Router.Registry

/-!
# The supervisor of a generation's daemon

`GenerationSupervisor`: it finds the daemon that holds a generation's lock, adopts it where it says
what is expected of it, kills it where it does not, and spawns another one. Processes die and are
replaced between any two looks, so every look is an effect of its own. Any effect may raise: the
system refuses it, the data it reads are not what they should be, or an interrupt cuts it short, and
then it is open whether it was carried out.
-/
namespace Nelix.Router

open Contracts Core

/-! ### What the supervisor sees -/

/-- An endpoint of a daemon. -/
inductive Transport
  | unix (path : String)
  | tcp (host : String) (port : ℤ) (token : String)
  deriving DecidableEq

/-- The metadata in the lock file; its last writer may be dead. -/
structure LockMeta where
  pid : Option ℤ
  startFingerprint : Option String
  transport : Option String
  path : Option String

/-- The fields of `.active.json`; reading raises where they are of other types. -/
structure StateFile where
  pid : Option ℤ
  transport : Option String
  path : Option String := none
  host : Option String := none
  port : Option ℤ := none
  token : Option String := none

/-- The answer of `/health`; a key may be missing. -/
structure HealthReport where
  generationId : Option Json
  generationEpoch : Option Json
  buildId : Option Json

/-- What `os.kill` and `os.waitpid` raise. -/
inductive ProcessFault
  | processLookupError
  | childProcessError
  | permissionError
  | otherOSError
  deriving DecidableEq

/-- What a supervisor's method raises. -/
inductive SupervisorFault
  | valueError
  | keyError
  /-- a value that is no object is asked for a key -/
  | attributeError
  /-- a pid that is no number -/
  | typeError
  /-- a pid beyond a C int -/
  | overflowError
  | keyboardInterrupt
  | runtimeError (message : String)
  | fileNotFoundError
  | osError (message : String)
  | process (fault : ProcessFault)
  deriving DecidableEq

inductive SupervisorEffect
  | readHolder
  | isAlive (pid : ℤ)
  | startFingerprint (pid : ℤ)
  /-- `os.kill(pid, 0)` -/
  | probe (pid : ℤ)
  | sigterm (pid : ℤ)
  | sigkill (pid : ℤ)
  /-- `os.waitpid(pid, WNOHANG)[0] == pid`, or `os.waitpid(pid, 0)` -/
  | waitpid (pid : ℤ) (hang : Bool)
  | sleep
  | readState
  | health (transport : Transport)
  /-- `/status` answers with a compatible protocol. -/
  | checkHealth (transport : Transport)
  | writeState (pid : ℤ) (startFingerprint : Option String) (transport : Transport)
  | unlinkState
  | ensureGenerationDirs
  | chooseTransport
  | openDaemonLog
  | popen (generationEpoch : String) (transport : Transport)
  | closeLog
  | poll (pid : ℤ)
  /-- `proc.terminate()` -/
  | terminate (pid : ℤ)

namespace SupervisorEffect

/-- What an effect comes to. -/
abbrev Value : SupervisorEffect → Type
  | readHolder => Option LockMeta
  | isAlive _ | checkHealth _ | waitpid _ _ => Bool
  | startFingerprint _ => Option String
  | readState => Option StateFile
  | health _ => Option HealthReport
  | chooseTransport => Transport
  | popen _ _ => ℤ
  | poll _ => Option ℤ
  | _ => Unit

/-- Any effect may raise instead. -/
abbrev Answer (e : SupervisorEffect) : Type := Except SupervisorFault e.Value

end SupervisorEffect

abbrev SupervisorRoutine (α : Type) :=
  Prog SupervisorEffect SupervisorEffect.Answer SupervisorFault α

structure GenerationSupervisor where
  generationId : String
  buildId : Option String
  sockPath : String

/-! ### Transports -/

namespace Transport

def fromState (st : StateFile) : Except SupervisorFault Transport :=
  match st.transport with
  | some "unix" =>
    match st.path with
    | some path => .ok (unix path)
    | none => .error .keyError
  | some "tcp" =>
    match st.host, st.port, st.token with
    | some host, some port, some token => .ok (tcp host port token)
    | _, _, _ => .error .keyError
  | _ => .error .valueError

end Transport

/-- `not value` for a pid. -/
def truePid (pid : Option ℤ) : Option ℤ := pid.filter (· ≠ 0)

/-- Every key has to be there. -/
def HealthReport.identity (report : HealthReport) : Option Identity :=
  match report.generationId, report.generationEpoch, report.buildId with
  | some generationId, some generationEpoch, some buildId =>
    some ⟨generationId, generationEpoch, buildId⟩
  | _, _, _ => none

namespace GenerationSupervisor

/-- Performs an effect and goes on with what it comes to, or raises what it raises. -/
def ask (e : SupervisorEffect) : SupervisorRoutine e.Value := .perform e .done

/-- A body, and what stands for it where the system answers with this fault. -/
def catching (fault : ProcessFault) (value : Bool) (body : SupervisorRoutine Bool) :
    SupervisorRoutine Bool :=
  body.rescue fun x => if x = .process fault then pure value else Prog.raise x

/-! ### Processes -/

def pidAlive (pid : ℤ) : SupervisorRoutine Bool :=
  (ask (.probe pid) >>= fun _ => pure true).rescue fun x =>
    match x with
    | .process .processLookupError => pure false
    | .process _ => pure true
    | x => Prog.raise x

/-- One round of the wait after SIGTERM. -/
def waitRound (pid : ℤ) : SupervisorRoutine (Option Unit) := do
  let reaped ← catching .childProcessError false (ask (.waitpid pid false))
  if reaped then pure (some ())
  else
    let alive ← pidAlive pid
    if ¬ alive then pure (some ())
    else
      let _ ← ask .sleep
      pure none

def gracefulWait (pid : ℤ) : SupervisorRoutine Unit := do
  let sent ← catching .processLookupError false (ask (.sigterm pid) >>= fun _ => pure true)
  if sent then
    let _ ← Prog.visit (fun _ => waitRound pid) (List.range 20)
    pure ()
  else pure ()

/-- What `_force_kill` does between its two looks; it suppresses an interrupt as well. -/
def killOnce (pid : ℤ) : SupervisorRoutine Unit :=
  Prog.rescue
    (do
      let _ ← ask (.sigkill pid)
      let _ ← ask (.waitpid pid true)
      pure ())
    fun _ => pure ()

def forceKill (pid : ℤ) : SupervisorRoutine Bool := do
  let alive ← pidAlive pid
  if ¬ alive then pure true
  else
    killOnce pid
    let alive ← pidAlive pid
    pure !alive

/-- SIGTERM, then SIGKILL; an interrupt cuts the wait short. -/
def reapDaemon (pid : ℤ) : SupervisorRoutine Unit := do
  (gracefulWait pid).rescue fun x =>
    match x with
    | .keyboardInterrupt => pure ()
    | x => Prog.raise x
  let _ ← forceKill pid
  pure ()

/-! ### Looks -/

/-- The metadata of the lock, where it names a live process with its fingerprint. -/
def liveLockHolder : SupervisorRoutine (Option (ℤ × LockMeta)) := do
  let holder : Option LockMeta ← ask .readHolder
  match holder.bind fun holder => (truePid holder.pid).map fun pid => (pid, holder) with
  | none => pure none
  | some (pid, holder) =>
    let alive : Bool ← ask (.isAlive pid)
    if ¬ alive then pure none
    else
      let shown : Option String ← ask (.startFingerprint pid)
      if shown ≠ holder.startFingerprint then pure none else pure (some (pid, holder))

def captureIncarnation : SupervisorRoutine (Option Incarnation) := do
  let holder ← liveLockHolder
  pure (holder.map fun held => ⟨held.1, held.2.startFingerprint⟩)

def captureIncarnationFrom (pid : ℤ) : SupervisorRoutine Incarnation := do
  let shown : Option String ← ask (.startFingerprint pid)
  pure ⟨pid, shown⟩

def ownsLock (pid : ℤ) : SupervisorRoutine Bool := do
  let holder ← liveLockHolder
  pure (holder.any fun held => held.1 = pid)

def healthIdentity (transport : Transport) : SupervisorRoutine (Option Identity) := do
  let report : Option HealthReport ← ask (.health transport)
  pure (report.bind HealthReport.identity)

variable (s : GenerationSupervisor)

/-- The daemon says that it is this generation's, and of the epoch if one is expected. -/
def matchesIdentity (expectedEpoch : Option String) (identity : Identity) : Bool :=
  Json.equals identity.generationId (some s.generationId) &&
    Json.equals identity.buildId s.buildId &&
    expectedEpoch.all fun epoch => Json.equals identity.generationEpoch (some epoch)

def endpoint (expectedEpoch : Option String) : SupervisorRoutine (Option Transport) := do
  let holder ← liveLockHolder
  match holder with
  | none => pure none
  | some (holderPid, _) =>
    let st : Option StateFile ← ask .readState
    match st.bind fun st => (truePid st.pid).map fun pid => (pid, st) with
    | none => pure none
    | some (pid, st) =>
      if holderPid ≠ pid then pure none
      else
        match Transport.fromState st with
        | .error .valueError => pure none
        | .error x => Prog.raise x
        | .ok transport =>
          let identity ← healthIdentity transport
          match identity with
          | none => pure none
          | some identity =>
            if s.matchesIdentity expectedEpoch identity then pure (some transport) else pure none

/-- Kills the lock's holder where it is the expected one, and tells whether that one is gone. -/
def reapHolder (expected : Option Incarnation) : SupervisorRoutine Bool := do
  match expected.bind fun inc =>
    (truePid (some inc.pid)).bind fun pid =>
      (inc.startFingerprint.filter (· ≠ "")).map fun shown => (pid, shown) with
  | none => pure false
  | some (expectedPid, expectedFp) =>
    let holder ← liveLockHolder
    match holder with
    | none =>
      let alive ← pidAlive expectedPid
      pure !alive
    | some (pid, holder) =>
      if pid ≠ expectedPid ∨ holder.startFingerprint ≠ some expectedFp then pure false
      else
        reapDaemon expectedPid
        let alive ← pidAlive expectedPid
        pure !alive

def writeState (pid : ℤ) (transport : Transport) : SupervisorRoutine Unit := do
  let shown : Option String ← ask (.startFingerprint pid)
  ask (.writeState pid shown transport)

/-! ### Adoption and spawning -/

/-- The unix endpoint that the metadata names. -/
def holderTransport (holder : LockMeta) : Option Transport :=
  if holder.transport = some "unix" then
    some (.unix ((holder.path.filter (· ≠ "")).getD s.sockPath))
  else none

/-- `self.reap_holder(inc)`, whatever comes of it. -/
def discard (pid : ℤ) (holder : LockMeta) : SupervisorRoutine (Option Transport) := do
  let _ ← reapHolder (some ⟨pid, holder.startFingerprint⟩)
  pure none

def adopt (pid : ℤ) (transport : Transport) : SupervisorRoutine (Option Transport) := do
  writeState pid transport
  pure (some transport)

def reconcileLockHolder (expectedEpoch : Option String) : SupervisorRoutine (Option Transport) := do
  let found ← liveLockHolder
  match found with
  | none => pure none
  | some (pid, holder) =>
    match s.holderTransport holder with
    | none =>
      let ep ← s.endpoint expectedEpoch
      match ep with
      | none => discard pid holder
      | some ep =>
        let identity ← healthIdentity ep
        if identity.any (s.matchesIdentity expectedEpoch) then adopt pid ep else discard pid holder
    | some transport =>
      let compatible : Bool ← ask (.checkHealth transport)
      if compatible then
        let identity ← healthIdentity transport
        if identity.any (s.matchesIdentity expectedEpoch) then adopt pid transport
        else discard pid holder
      else discard pid holder

/-- `self._check_health(transport) and self._owns_lock(proc.pid)`, its second half. -/
def isMine (pid : ℤ) (compatible : Bool) : SupervisorRoutine Bool :=
  if compatible then ownsLock pid else pure false

/-- What the daemon has come to by the end of a round: it is up, or another one is. -/
def healthRound (pid : ℤ) (incarnation : Incarnation) (transport : Transport) :
    SupervisorRoutine (Option (Option Incarnation × Transport)) := do
  let compatible : Bool ← ask (.checkHealth transport)
  let mine ← isMine pid compatible
  if mine then
    writeState pid transport
    pure (some (some incarnation, transport))
  else
    let exited : Option ℤ ← ask (.poll pid)
    if exited.isSome then
      let existing ← s.endpoint none
      match existing with
      | some existing =>
        -- another daemon won the race for the lock
        let incarnation ← captureIncarnation
        pure (some (incarnation, existing))
      | none => Prog.raise (.runtimeError "generation daemon exited early")
    else
      let _ ← ask .sleep
      pure none

/-- Spawns a daemon and waits for it, a number of rounds. -/
def spawn (rounds : ℕ) (generationEpoch : String) :
    SupervisorRoutine (Option Incarnation × Transport) := do
  let _ ← ask .ensureGenerationDirs
  let transport : Transport ← ask .chooseTransport
  let _ ← ask .openDaemonLog
  let pid : ℤ ← (ask (.popen generationEpoch transport)).ensure (ask .closeLog)
  let incarnation ← captureIncarnationFrom pid
  let up ← Prog.visit (fun _ => s.healthRound pid incarnation transport) (List.range rounds)
  match up with
  | some up => pure up
  | none =>
    let _ ← ask (.terminate pid)
    Prog.raise (.runtimeError "generation daemon did not become healthy")

/-- Where an endpoint is there and its daemon says that it is of this epoch. -/
def existing (generationEpoch : String) :
    SupervisorRoutine (Option (Option Incarnation × Transport)) := do
  let found ← s.endpoint none
  match found with
  | none => pure none
  | some transport =>
    let identity ← healthIdentity transport
    if identity.any fun identity => Json.equals identity.generationEpoch (some generationEpoch) then
      let incarnation ← captureIncarnation
      pure (some (incarnation, transport))
    else pure none

def ensureRunning (rounds : ℕ) (generationEpoch : String) :
    SupervisorRoutine (Option Incarnation × Transport) := do
  if generationEpoch = "" then Prog.raise .valueError
  else
    let found ← s.existing generationEpoch
    match found with
    | some found => pure found
    | none =>
      let adopted ← s.reconcileLockHolder (some generationEpoch)
      match adopted with
      | some adopted =>
        let incarnation ← captureIncarnation
        pure (incarnation, adopted)
      | none =>
        let lingering ← liveLockHolder
        match lingering with
        | some _ =>
          Prog.raise (.runtimeError "a live lock holder exists but could not be reconciled or reaped; cannot spawn a new daemon")
        | none => s.spawn rounds generationEpoch

/-! ### Teardown -/

/-- The method `_pid_alive`: any error of the system is taken for death. -/
def pidRuns (pid : ℤ) : SupervisorRoutine Bool :=
  (ask (.probe pid) >>= fun _ => pure true).rescue fun x =>
    match x with
    | .process _ => pure false
    | x => Prog.raise x

/-- The process that the state file names, if it runs. -/
def statePids : SupervisorRoutine (List ℤ) := do
  let st : Option StateFile ← ask .readState
  match st.bind fun st => truePid st.pid with
  | none => pure []
  | some pid =>
    let runs ← pidRuns pid
    pure (if runs then [pid] else [])

/-- Waits for the process unless an interrupt has come, and tells whether one has. -/
def waitUnless (interrupted : Bool) (pid : ℤ) : SupervisorRoutine Bool :=
  if interrupted then pure true
  else
    (gracefulWait pid >>= fun _ => pure false).rescue fun x =>
      match x with
      | .keyboardInterrupt => pure true
      | x => Prog.raise x

def killAll : Bool → List ℤ → SupervisorRoutine Unit
  | _, [] => pure ()
  | interrupted, pid :: rest => do
    let interrupted ← waitUnless interrupted pid
    let _ ← forceKill pid
    killAll interrupted rest

/-- Removes the state file; only an interrupt gets out. -/
def clearState : SupervisorRoutine Unit :=
  (ask .unlinkState).rescue fun x =>
    match x with
    | .keyboardInterrupt => Prog.raise .keyboardInterrupt
    | _ => pure ()

/-- Kills the daemon and clears its state; it raises nothing. -/
def teardown : SupervisorRoutine Unit :=
  Prog.rescue
    (do
      let pids ← statePids
      let holder ← liveLockHolder
      let pids := pids ++ (holder.map (·.1)).toList.filter (· ∉ pids)
      killAll false pids
      clearState)
    fun _ => pure ()

end GenerationSupervisor

end Nelix.Router
