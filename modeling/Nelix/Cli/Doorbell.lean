import Nelix.Router.WaitFollowing

/-!
# The doorbell

What `nelix wait` makes of a reply of the router's wait, and the block that it prints. The block ends with
the command that waits again.

## Main results

`classify_body`: of the replies that the router sends, an event, a resync marker and an empty orchestration
are told apart; the marker of sessions that no one can wait for passes as a quiet window.

`reply_of_waitOn`: what the router's wait answers is a reply of these.
-/
namespace Nelix.Cli
open Contracts Router

/-- A token that `encode` made. -/
structure Token where
  text : String
  filled : text ≠ ""
  deriving DecidableEq

/-- What the router sends back to a wait. -/
inductive Reply
  | emptyOrchestration
  | cursorExpired
  | boardChanged
  | unownable
  | event (fields : List (String × Json)) (cursor : Token)
  | quiet (cursor : Token)
  | refused (error : NelixError)

namespace Reply

/-- `NelixError.to_envelope` -/
def envelope (error : NelixError) : Json :=
  .object [("error", .object [("code", .text error.code.spelling), ("message", .text error.message),
    ("retryable", .bool error.code.retryable)])]

def body : Reply → Json
  | emptyOrchestration => .object [("event", .null), ("empty_orchestration", .bool true)]
  | cursorExpired => .object [("event", .null), ("cursor_expired", .bool true)]
  | boardChanged => .object [("event", .null), ("board_changed", .bool true)]
  | unownable => .object [("event", .null), ("unownable", .bool true)]
  | event fields cursor => .object [("event", .object fields), ("cursor", .text cursor.text)]
  | quiet cursor => .object [("event", .null), ("cursor", .text cursor.text)]
  | refused error => envelope error

/-- The cursor it brings. -/
def cursor : Reply → Option String
  | event _ cursor | quiet cursor => some cursor.text
  | _ => none

/-- The cursor that was sent is of no use. -/
def isResync : Reply → Bool
  | cursorExpired | boardChanged => true
  | _ => false

/-- The event it delivers. -/
def delivered : Reply → Option (List (String × Json))
  | event fields _ => some fields
  | _ => none

/-- It is something to wake for: no plain timeout, and no refusal either. -/
def rings : Reply → Bool
  | emptyOrchestration | cursorExpired | boardChanged | unownable | event .. => true
  | quiet _ | refused _ => false

/-- The reply of an answer. -/
def ofAnswer (encode : Cursor → Token) : WaitAnswer → Option Reply
  | .emptyOrchestration => some emptyOrchestration
  | .cursorExpired => some cursorExpired
  | .boardChanged => some boardChanged
  | .unownable => some unownable
  | .archive cursor => some (event [("kind", .text "archive")] (encode cursor))
  | .event (.object fields) cursor => some (event fields (encode cursor))
  | .event _ _ => none
  | .quiet cursor => some (quiet (encode cursor))

end Reply

theorem reply_of_waitOn {f : WaitForward} {gen : Adopted} {sessions : List String} {cursor : Cursor}
    {reads : WaitReads} {answer : WaitAnswer} (encode : Cursor → Token)
    (answered : (f.waitOn gen sessions cursor reads).outcome = .ok (some answer)) :
    ∃ reply, Reply.ofAnswer encode answer = some reply := by
  have leads := waitOn_leads answered
  cases answer with
  | event evt next =>
    -- What has a seq is a dict.
    obtain ⟨-, -, seq, -, -, -, -, counted, -⟩ := leads
    cases evt with
    | object fields => exact ⟨_, rfl⟩
    | null | bool _ | int _ | number _ | text _ | list _ => cases counted
  | emptyOrchestration | cursorExpired | boardChanged | unownable | archive _ | quiet _ =>
    exact ⟨_, rfl⟩

/-! ### Telling the replies apart -/

inductive Reason
  | event
  | resync
  | empty
  | none
  deriving DecidableEq

structure Classified where
  reason : Reason
  events : List (List (String × Json))
  cursor : Json

def doorbellFields : List String := ["session_id", "seq", "kind", "requires_response", "hung"]

/-- `value.get(key)` -/
def field (value : Json) (key : String) : Json := (value.get? key).getD .null

/-- `{k: event.get(k) for k in DOORBELL_FIELDS}` -/
def triage (event : List (String × Json)) : List (String × Json) :=
  doorbellFields.map fun k => (k, field (.object event) k)

def classify (body : Json) : Classified :=
  let cursor := field body "cursor"
  if (field body "cursor_expired").truthy || (field body "board_changed").truthy then
    ⟨.resync, [], cursor⟩
  else if (field body "empty_orchestration").truthy then ⟨.empty, [], cursor⟩
  else
    match field body "event" with
    | .object event => ⟨.event, [triage event], cursor⟩
    | _ => ⟨.none, [], cursor⟩

/-- What a reply passes as. -/
def Reply.reason : Reply → Reason
  | emptyOrchestration => .empty
  | cursorExpired | boardChanged => .resync
  | event .. => .event
  | unownable | quiet _ | refused _ => .none

theorem classify_body (reply : Reply) :
    classify reply.body = ⟨reply.reason, (reply.delivered.map triage).toList,
      (reply.cursor.map Json.text).getD .null⟩ := by
  cases reply <;> rfl

/-! ### The block -/

section Block
variable (shown : Json → String)

/-- `str(value)`, where `shown` is for what is no text. -/
def str : Json → String
  | .text s => s
  | value => shown value

/-- The cursor that is sent and printed: none where it is not truthy. -/
def sent (cursor : Json) : Option String := if cursor.truthy then some (str shown cursor) else none

theorem sent_text {token : String} (filled : token ≠ "") : sent shown (.text token) = some token := by
  rw [sent, Json.truthy, decide_eq_true filled]
  rfl

end Block

end Nelix.Cli
