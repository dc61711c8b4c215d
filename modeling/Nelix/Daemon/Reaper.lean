import Nelix.Router.Operator

/-!
# The records of the agents

A daemon records the process group of every agent it spawns in the session's directory, and any
daemon that starts up on the same home looks through these records for orphans.
-/
namespace Nelix.Daemon

open Contracts Router

/-- What the inspector shows of the process table; none where the question raises. -/
structure Inspector where
  isAlive : ℤ → Option Bool
  startFingerprint : ℤ → Option String
  pgid : ℤ → Option ℤ

/-- A daemon, told apart from others under its pid by the moment it started. -/
structure DaemonIdentity where
  pid : ℤ
  fingerprint : Option String

/-- `record.get(name)` -/
def field (record : Json) (name : String) : Json := (record.get? name).getD .null

/-- `value == n`: Python compares numbers by their value. -/
def sameInt (value : Json) (n : Option ℤ) : Bool :=
  match value, n with
  | .null, none => true
  | .int v, some n => v = n
  | .bool b, some n => (if b then 1 else 0) = n
  | .number q, some n => q = n
  | _, _ => false

/-- `value == shown` -/
def sameText (value : Json) (shown : Option String) : Bool :=
  match value, shown with
  | .null, none => true
  | .text v, some shown => v = shown
  | _, _ => false

/-- What a question about a process accepts; the others raise. -/
def asPid : Json → Option ℤ
  | .int v => some v
  | .bool b => some (if b then 1 else 0)
  | _ => none

/-- The record that `_record_child` publishes: the child leads its own group. -/
def childRecord (sessionId : String) (daemon : DaemonIdentity) (pid : ℤ)
    (fingerprint : Option String) (argv : Json) : Json :=
  let shown (value : Option String) : Json := (value.map Json.text).getD .null
  .object
    [("sid", .text sessionId), ("daemon_pid", .int daemon.pid),
      ("daemon_fingerprint", shown daemon.fingerprint), ("pid", .int pid),
      ("child_fingerprint", shown fingerprint), ("pgid", .int pid), ("argv", argv)]

/-- The daemon that wrote the record is gone, or another process has its pid. -/
def isOwnerDead (view : Inspector) (record : Json) : Option Bool :=
  match field record "daemon_pid" with
  | .null => some true
  | recorded => do
    let pid ← asPid recorded
    let alive ← view.isAlive pid
    pure (!alive || !sameText (field record "daemon_fingerprint") (view.startFingerprint pid))

/-- The group is an orphan that is safe to end. -/
def shouldReap (view : Inspector) (self : DaemonIdentity) (record : Json) : Option Bool :=
  if sameInt (field record "daemon_pid") (some self.pid) &&
      sameText (field record "daemon_fingerprint") self.fingerprint then some false
  else do
    let dead ← isOwnerDead view record
    if dead = false then pure false
    else
      match field record "pid" with
      | .null => pure false
      | recorded => do
        let pid ← asPid recorded
        let alive ← view.isAlive pid
        pure (alive && sameText (field record "child_fingerprint") (view.startFingerprint pid) &&
          sameInt (field record "pgid") (view.pgid pid))

/-- The recorded process is gone. -/
def isStale (view : Inspector) (record : Json) : Option Bool :=
  match field record "pid" with
  | .null => some false
  | recorded => do
    let pid ← asPid recorded
    let alive ← view.isAlive pid
    pure !alive

/-- The record is forgotten: its orphan was ended, or its process is gone. -/
def forgets (view : Inspector) (self : DaemonIdentity) (record : Json) : Option Bool := do
  let reaps ← shouldReap view self record
  if reaps then pure true else isStale view record

/-- What a pass of `reconcile_orphans` leaves in one session's directory; `moves` says whether the
record can be renamed or unlinked there. What raises leaves the record. -/
def reconcileOrphan (view : Inspector) (self : DaemonIdentity) (name : String) (moves : Bool) :
    ChildFile → ChildFile
  | .missing => .missing
  -- A record that does not parse is quarantined; one that is no dict raises.
  | .malformed => if moves then .missing else .malformed
  | .undecodable => .undecodable
  | .record record =>
    if moves && (!sameText (field record "sid") (some name) ||
        decide (forgets view self record = some true)) then .missing
    else .record record

/-- What the operator reads back from a record: it can be used when the child could be told apart by
the moment it started. -/
theorem childIdentity_childRecord {sessionId : String} {daemon : DaemonIdentity} {pid : ℤ}
    {fingerprint : Option String} {argv : Json} (positive : 0 < pid) :
    childIdentity sessionId (childRecord sessionId daemon pid fingerprint argv) =
      match fingerprint with
      | none => .error (.childNullFingerprint sessionId)
      | some shown =>
        if shown = "" then .error (.childNullFingerprint sessionId)
        else .ok (pid, pid, .text shown) := by
  have nonzero : pid ≠ 0 := by omega
  cases fingerprint with
  | none =>
    simp [childIdentity, childRecord, Json.get?, List.lookup_cons, Json.truthy, nonzero]
  | some shown =>
    by_cases blank : shown = "" <;>
      simp [childIdentity, childRecord, Json.get?, List.lookup_cons, Json.truthy, Json.positive?,
        nonzero, positive, blank]

end Nelix.Daemon
