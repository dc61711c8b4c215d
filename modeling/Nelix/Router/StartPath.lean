import Nelix.Contracts.Ids
import Nelix.Router.Operator

/-!
# The start and restart paths

`StartPath` and `RestartPath` with the phase-split forward they share, as programs over the
transactions of the start ledger, the registry and one connection to a daemon. A failed start is
recorded only where the forward failed before it was delivered, or where the reply says no.
-/
namespace Nelix.Router

open Contracts Core Store

/-! ### Effects -/

/-- The body of a forwarded request. -/
inductive Payload
  | start (executor task cwd ownerId : String) (model : Option String) (sessionId : String)
  | restart (sessionId : String) (force : Bool) (newSessionId ownerId : String)

/-- The session id the router assigned. -/
def Payload.assigned : Payload → String
  | start _ _ _ _ _ sessionId => sessionId
  | restart _ _ newSessionId _ => newSessionId

inductive StartEffect
  | reserve (request : Request)
  | active
  | assignGeneration (sessionId generationId generationEpoch : String)
  | commit (sessionId generationId generationEpoch : String)
  | fail (sessionId reason : String)
  /-- `connect()` and `conn.request(..)`; an exception of either as its text. -/
  | request (transport : Option String) (payload : Payload)
  /-- `conn.getresponse()` and `resp.read()`; an exception of either as its text. -/
  | response

abbrev StartEffect.Answer : StartEffect → Type
  | reserve _ => Outcome Reservation
  | active => Outcome GenerationHandle
  | assignGeneration .. => Outcome Unit
  | commit .. => Outcome Unit
  | fail .. => Outcome Unit
  | request .. => Except String Unit
  | response => Except String (ℕ × List UInt8)

abbrev StartRoutine (α : Type) := Prog StartEffect StartEffect.Answer Raised α

/-- What the standard library gives the two paths. -/
structure Library where
  /-- `json.loads`, with the text of its exception. -/
  loads : List UInt8 → Except String Json
  /-- `json.dumps(value, sort_keys=True, separators=(",", ":"))` -/
  dumps : Json → String
  /-- `hashlib.sha256(text.encode()).hexdigest()` -/
  sha256 : String → String
  repr : Json → String
  /-- `str(value)` of a value that is no str. -/
  str : Json → String

def Library.shown (lib : Library) : Json → String
  | .text value => value
  | value => lib.str value

namespace StartRoutine

def refused {α : Type} (code : ErrorCode) (message : String) : StartRoutine α :=
  .raise (.nelix ⟨code, message⟩)

def reserve (request : Request) : StartRoutine Reservation :=
  .perform (.reserve request) fun answer => .done answer

def active : StartRoutine GenerationHandle := .perform .active fun answer => .done answer

def assignGeneration (sessionId : String) (gen : GenerationHandle) : StartRoutine Unit :=
  .perform (.assignGeneration sessionId gen.generationId gen.epoch) fun answer => .done answer

def commit (sessionId : String) (gen : GenerationHandle) : StartRoutine Unit :=
  .perform (.commit sessionId gen.generationId gen.epoch) fun answer => .done answer

def recordFailed (sessionId reason : String) : StartRoutine Unit :=
  .perform (.fail sessionId reason) fun answer => .done answer

def request (transport : Option String) (payload : Payload) : StartRoutine (Except String Unit) :=
  .perform (.request transport payload) fun answer => .done (.ok answer)

def response : StartRoutine (Except String (ℕ × List UInt8)) :=
  .perform .response fun answer => .done (.ok answer)

end StartRoutine

open StartRoutine

/-! ### The phase-split forward -/

/-- In which phase a forward failed. -/
inductive ForwardError
  | connect (message : String)
  | response (message : String)

/-- `b"{}"` -/
def emptyBody : List UInt8 := [123, 125]

/-- `resp.read() or b"{}"` -/
def readOr (body : List UInt8) : List UInt8 := if body.isEmpty then emptyBody else body

/-- Connecting and sending is the definite phase, awaiting and reading the reply the ambiguous
one. -/
def phaseSplit (lib : Library) (transport : Option String) (payload : Payload) :
    StartRoutine (Except ForwardError (ℕ × Json)) := do
  match ← request transport payload with
  | .error message => pure (.error (.connect message))
  | .ok () =>
    match ← response with
    | .error message => pure (.error (.response message))
    | .ok (status, body) =>
      match lib.loads (readOr body) with
      | .error message => pure (.error (.response message))
      | .ok reply => pure (.ok (status, reply))

/-! ### What the two paths share -/

def maxReason : ℕ := 500

/-- `reason[:_MAX_REASON] or fallback` -/
def clip (reason fallback : String) : String :=
  let cut := String.ofList (reason.toList.take maxReason)
  if cut = "" then fallback else cut

def toEnvelope (e : NelixError) : Json :=
  .object [("error", .object [("code", .text e.code.spelling), ("message", .text e.message),
    ("retryable", .bool e.code.retryable)])]

/-- The member of a body; None where it is missing. -/
def member (body : Json) (name : String) : Json := (body.get? name).getD .null

/-- `validate_<kind>`, with its exception turned into a refusal. -/
def validated (lib : Library) (valid : String → Bool) (kind : String) (value : Json) :
    Outcome String :=
  match value with
  | .text given =>
    if valid given then .ok given
    else refuse .invalidRequest s!"invalid {kind}: {lib.repr value}"
  | _ => refuse .invalidRequest s!"invalid {kind}: {lib.repr value}"

def requireStr (value : Json) (name : String) : Outcome String :=
  match value with
  | .text given =>
    if given ≠ "" then .ok given
    else refuse .invalidRequest s!"{name} is required and must be a non-empty string"
  | _ => refuse .invalidRequest s!"{name} is required and must be a non-empty string"

/-- Records a failed start, best effort. -/
def failStart (sessionId reason fallback : String) : StartRoutine Unit :=
  (recordFailed sessionId (clip reason fallback)).rescue fun raised =>
    match raised with
    | .nelix _ => pure ()
    | raised => .raise raised

/-- Runs the body; a contract error fails the start for the reason and goes on. -/
def failingStart {α : Type} (sessionId fallback : String) (reason : NelixError → String)
    (body : StartRoutine α) : StartRoutine α :=
  body.rescue fun raised =>
    match raised with
    | .nelix e => do
      failStart sessionId (reason e) fallback
      .raise raised
    | raised => .raise raised

/-- A contract error becomes an envelope. -/
def enveloped (httpStatus : ErrorCode → ℕ) (body : StartRoutine (ℕ × Json)) :
    StartRoutine (ℕ × Json) :=
  body.rescue fun raised =>
    match raised with
    | .nelix e => pure (httpStatus e.code, toEnvelope e)
    | raised => .raise raised

/-- `for k in names: if k in reply: out[k] = reply[k]` -/
def copied (reply : Json) (names : List String) : List (String × Json) :=
  names.filterMap fun name => (reply.get? name).map fun value => (name, value)

/-- Picks the active generation, binds the start to it, and only then forwards. -/
def driveFresh {α : Type} (sessionId fallback : String)
    (forward : GenerationHandle → StartRoutine α) : StartRoutine α := do
  let gen ← failingStart sessionId fallback (fun e => s!"{e.code.spelling}: {e.message}") active
  failingStart sessionId fallback (fun e => s!"could not bind generation: {e.message}")
    (assignGeneration sessionId gen)
  forward gen

def generationOrNull (generationId : Option String) : Json :=
  generationId.elim .null .text

/-- The original outcome of a start that is there already; nothing is forwarded. -/
def replayed (operation started fallback : String) (res : Reservation) :
    StartRoutine (ℕ × Json) :=
  let answer (status : String) : StartRoutine (ℕ × Json) :=
    pure (200, .object [("operation", .text operation), ("status", .text status),
      ("session_id", .text res.sessionId), ("generation_id", generationOrNull res.generationId),
      ("replay", .bool true)])
  match res.state with
  | .started => answer started
  | .starting => answer "starting"
  | .failed =>
    let reason := res.reason.getD ""
    refused .generationUnavailable (if reason = "" then fallback else reason)

/-! ### The start path -/

namespace StartPath

def httpStatus : ErrorCode → ℕ
  | .invalidRequest => 400
  | .idempotencyConflict => 409
  | .concurrencyLimit => 429
  | .admissionUnavailable | .rebuilding | .staleReconciliationId | .generationUnavailable
  | .storeUnavailable => 503
  | _ => 500

def requestFingerprint (lib : Library) (executor task cwd : String) (model : Option String)
    (orchestrationId : String) : String :=
  lib.sha256 (lib.dumps (.object [("executor", .text executor), ("task", .text task),
    ("cwd", .text cwd), ("model", model.elim .null .text),
    ("orchestration_id", .text orchestrationId)]))

/-- Derived from owner and key, so that a retry derives the same one. -/
def deriveOrchestrationId (lib : Library) (ownerId idempotencyKey : String) : String :=
  let digest := lib.sha256 (ownerId ++ "\x00" ++ idempotencyKey)
  "o-" ++ String.ofList (digest.toList.take 32)

/-- The reason in a generation's failure reply. -/
def reasonFromReply (lib : Library) (reply : Json) : String :=
  let unexpected := s!"unexpected start reply: {lib.repr reply}"
  match reply.get? "error" with
  | some (.object fields) =>
    let named (key : String) : Option Json := ((Json.object fields).get? key).filter Json.truthy
    ((named "message").or (named "code")).elim "generation error" lib.shown
  | some err => if err.truthy then lib.shown err else unexpected
  | none => unexpected

def forward (lib : Library) (sid ownerId executor task cwd : String) (model : Option String)
    (gen : GenerationHandle) : StartRoutine (ℕ × Json) := do
  match ← phaseSplit lib gen.transport (.start executor task cwd ownerId model sid) with
  | .error (.connect message) => do
    -- The request was never fully delivered: no worker was created.
    let reason := s!"forward to generation failed before delivery: {message}"
    failStart sid reason "start failed"
    refused .generationUnavailable reason
  | .error (.response message) =>
    -- The daemon may have created the worker: the reservation stays starting.
    refused .generationUnavailable
      s!"forward to generation was ambiguous (reservation left starting): {message}"
  | .ok (_, reply) =>
    if reply.hasText "status" "started" && reply.hasText "session_id" sid then do
      commit sid gen
      pure (200, .object ([("operation", .text "start"), ("status", .text "started"),
        ("session_id", .text sid), ("generation_id", .text gen.generationId)] ++
        copied reply ["snapshot", "next_after_seq", "next_action"]))
    else do
      let reason := reasonFromReply lib reply
      failStart sid reason "start failed"
      refused .generationUnavailable s!"generation rejected the start: {reason}"

/-- The checked fields of a body. -/
structure Fields where
  ownerId : String
  idem : String
  executor : String
  task : String
  cwd : String
  model : Option String
  orchestrationId : String

def fields (lib : Library) (body : Json) : Outcome Fields := do
  require (body.isObject = true) .invalidRequest "start body must be a JSON object"
  let ownerId ← validated lib validOwnerId "owner_id" (member body "owner_id")
  let idem ← requireStr (member body "idempotency_key") "idempotency_key"
  let executor ← requireStr (member body "executor") "executor"
  let task ← requireStr (member body "task") "task"
  let cwd ← requireStr (member body "cwd") "cwd"
  let model ← match member body "model" with
    | .null => .ok none
    | .text given => .ok (some given)
    | _ => refuse .invalidRequest "model must be a string when provided"
  let orchestrationId ← match member body "orchestration_id" with
    | .null => .ok (deriveOrchestrationId lib ownerId idem)
    | given => validated lib validOrchestrationId "orchestration_id" given
  return ⟨ownerId, idem, executor, task, cwd, model, orchestrationId⟩

def handleBody (lib : Library) (body : Json) : StartRoutine (ℕ × Json) := do
  let f ← .done (fields lib body)
  let fingerprint := requestFingerprint lib f.executor f.task f.cwd f.model f.orchestrationId
  let res ← reserve ⟨f.idem, f.ownerId, f.orchestrationId, fingerprint⟩
  if res.replay then replayed "start" "started" "start previously failed" res
  else
    driveFresh res.sessionId "start failed"
      (forward lib res.sessionId f.ownerId f.executor f.task f.cwd f.model)

def handle (lib : Library) (body : Json) : StartRoutine (ℕ × Json) :=
  enveloped httpStatus (handleBody lib body)

end StartPath

/-! ### The restart path -/

namespace RestartPath

def httpStatus : ErrorCode → ℕ
  | .invalidRequest => 400
  | .idempotencyConflict => 409
  | .concurrencyLimit => 429
  | .admissionUnavailable | .rebuilding | .staleReconciliationId | .generationUnavailable => 503
  | _ => 500

def boolText (value : Bool) : String := if value then "True" else "False"

def requestFingerprint (lib : Library) (ownerId oldSessionId : String) (force : Bool) : String :=
  let digest := lib.sha256
    (ownerId ++ "\x00" ++ oldSessionId ++ "\x00restart\x00force:" ++ boolText force)
  String.ofList (digest.toList.take 64)

/-- In another hash domain than the start's. -/
def deriveOrchestrationId (lib : Library) (ownerId oldSessionId : String) : String :=
  let digest := lib.sha256 (ownerId ++ "\x00" ++ oldSessionId ++ "\x00restart")
  "o-" ++ String.ofList (digest.toList.take 32)

/-- The reason as it is, and as it is shown. -/
def reasonOf (lib : Library) (reply : Json) : String :=
  if reply.isObject then
    lib.shown ((reply.get? "error").getD (.text "generation rejected the restart"))
  else s!"unexpected restart reply: {lib.repr reply}"

def forward (lib : Library) (newSid ownerId oldSid : String) (force : Bool)
    (gen : GenerationHandle) : StartRoutine (ℕ × Json) := do
  match ← phaseSplit lib gen.transport (.restart oldSid force newSid ownerId) with
  | .error (.connect message) => do
    let reason := s!"forward to generation failed before delivery: {message}"
    failStart newSid reason "restart failed"
    refused .generationUnavailable reason
  | .error (.response message) =>
    refused .generationUnavailable
      s!"forward to generation was ambiguous (reservation left starting): {message}"
  | .ok (_, reply) =>
    if reply.hasText "status" "restarted" && reply.hasText "session_id" newSid then do
      commit newSid gen
      pure (200, .object ([("operation", .text "restart"), ("status", .text "restarted"),
        ("session_id", .text newSid), ("generation_id", .text gen.generationId)] ++
        copied reply ["snapshot", "next_after_seq", "next_action", "lineage_id", "restart_count",
          "restarted_from"]))
    else do
      let reason := reasonOf lib reply
      failStart newSid (clip reason "restart failed") "restart failed"
      refused .generationUnavailable s!"generation rejected the restart: {reason}"

/-- The checked fields of a body. -/
structure Fields where
  ownerId : String
  oldSid : String
  force : Bool

def fields (lib : Library) (body : Json) : Outcome Fields := do
  require (body.isObject = true) .invalidRequest "restart body must be a JSON object"
  let ownerId ← validated lib validOwnerId "owner_id" (member body "owner_id")
  let oldSid ← validated lib validSessionId "session_id" (member body "session_id")
  return ⟨ownerId, oldSid, (member body "force").truthy⟩

def handleBody (lib : Library) (body : Json) : StartRoutine (ℕ × Json) := do
  let f ← .done (fields lib body)
  let idemKey := s!"restart:{f.oldSid}:force:{boolText f.force}"
  let res ← reserve ⟨idemKey, f.ownerId, deriveOrchestrationId lib f.ownerId f.oldSid,
    requestFingerprint lib f.ownerId f.oldSid f.force⟩
  if res.replay then replayed "restart" "restarted" "restart previously failed" res
  else
    driveFresh res.sessionId "restart failed"
      (forward lib res.sessionId f.ownerId f.oldSid f.force)

def handle (lib : Library) (body : Json) : StartRoutine (ℕ × Json) :=
  enveloped httpStatus (handleBody lib body)

end RestartPath

end Nelix.Router
