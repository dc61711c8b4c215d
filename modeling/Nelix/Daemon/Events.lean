import Mathlib.Data.Finset.Lattice.Fold
import Mathlib.Data.List.AList
import Mathlib.Data.List.Sort
import Mathlib.Order.Lattice.Nat
import Nelix.Daemon.Belief

/-!
# The event queue

One ordered log of the events of all sessions. The log is a bounded ring; an unresolved
respondable decision is pinned and never evicted, and each owner keeps a floor of recent events.
An event's id is `evt-` and eight hex digits of a `uuid4`; its sequence number stands for it, that
is, no two ids of one queue are taken to collide. The indexes hold ids, and the log holds the mutable
event itself.
-/
namespace Nelix.Daemon

/-- What an event reports. -/
inductive EventKind
  | waitingForUser | blocked | idle | interventionRequired | deliveryFailed
  | crashed | stopped | done | asyncQuestion
  deriving DecidableEq, Repr

/-- `RESPONDABLE_KINDS`. -/
def EventKind.respondable : EventKind → Bool
  | .waitingForUser | .blocked => true
  | _ => false

inductive ResolvedReason
  | answered | turnResumed | promptLeft | superseded | promptChanged
  deriving DecidableEq, Repr

/-- A withdrawn decision's events are resolved with the reason of the withdraw. -/
def WithdrawReason.resolved : WithdrawReason → ResolvedReason
  | .turnResumed => .turnResumed
  | .promptLeft => .promptLeft
  | .superseded => .superseded
  | .promptChanged => .promptChanged

abbrev SessionId := String

abbrev EventId := ℕ

/-- `dec-` ids, of eight hex digits as well, are numbered by the session that minted them; `q_<n>`
names an async question, and is unique only within its session. -/
inductive DecisionId
  | dec (session : SessionId) (n : ℕ)
  | question (n : ℕ)
  deriving DecidableEq, Repr

inductive TaskDelivery
  | pending | delivered | failed
  deriving DecidableEq, Repr

/-- The control state of a living session, or how it ended. -/
inductive SessionState
  | live (control : ControlState)
  | crashed | stopped | exited
  deriving DecidableEq, Repr

/-- What a decision or an event hints at. -/
inductive EventHint
  | belief (hint : Hint)
  | taskNotDelivered | startupNoOutput | writeUnconfirmed | deliveryUnconfirmed
  deriving DecidableEq, Repr

/-- The arguments of `publish`. -/
structure Notice where
  sessionId : SessionId
  executor : String := ""
  kind : EventKind
  summary : String := ""
  state : SessionState := .live .busy
  decisionId : Option DecisionId := none
  hint : Option EventHint := none
  hung : Bool := false
  taskDelivery : TaskDelivery := .delivered
  requiresResponse : Bool := false
  screenExcerpt : String := ""
  deriving DecidableEq

/-- A published event; the owner was resolved when it was published. -/
structure Event extends Notice where
  seq : EventId
  resolvedReason : Option ResolvedReason := none
  owner : Option String := none
  deriving DecidableEq

/-- `_is_pinned`: an unresolved respondable decision. -/
def Event.isOpen (e : Event) : Bool := e.kind.respondable && e.resolvedReason.isNone

structure EventQueue where
  bound : ℕ := 2048
  ownerFloor : ℕ := 64
  nextSeq : ℕ := 1
  events : List Event := []
  pinned : Finset EventId := ∅
  byDecision : AList fun _ : DecisionId => List EventId := ∅
  ownerHist : AList fun _ : Option String => List EventId := ∅
  evictableCount : ℕ := 0
  ownerCache : AList fun _ : SessionId => String := ∅
  lastSeq : ℕ := 0
  lastSeqBySession : AList fun _ : SessionId => ℕ := ∅
  evictedHigh : ℕ := 0
  evictedHighBySession : AList fun _ : SessionId => ℕ := ∅

/-- The ids an index keeps under a key. -/
def listAt {κ : Type*} [DecidableEq κ] (index : AList fun _ : κ => List EventId) (key : κ) :
    List EventId :=
  (index.lookup key).getD []

/-- A key with no id left is dropped from its index. -/
def putList {κ : Type*} [DecidableEq κ] (index : AList fun _ : κ => List EventId) (key : κ)
    (ids : List EventId) : AList fun _ : κ => List EventId :=
  if ids = [] then index.erase key else index.insert key ids

theorem listAt_putList {κ : Type*} [DecidableEq κ] (index : AList fun _ : κ => List EventId)
    (key other : κ) (ids : List EventId) :
    listAt (putList index key ids) other = if other = key then ids else listAt index other := by
  simp only [listAt, putList]
  by_cases none : ids = []
  · rw [if_pos none]
    split
    next same =>
      subst same
      rw [AList.lookup_erase, none, Option.getD_none]
    next differ => rw [AList.lookup_erase_ne differ]
  · rw [if_neg none]
    split
    next same =>
      subst same
      rw [AList.lookup_insert, Option.getD_some]
    next differ => rw [AList.lookup_insert_ne differ]

namespace EventQueue

def find (q : EventQueue) (id : EventId) : Option Event := q.events.find? (·.seq == id)

/-- The pinned events of a decision. -/
def idsOf (q : EventQueue) (decision : DecisionId) : List EventId := listAt q.byDecision decision

/-- The evictable events of an owner, oldest first. -/
def histOf (q : EventQueue) (owner : Option String) : List EventId := listAt q.ownerHist owner

/-! ### Indexes -/

/-- A new event is appended; one that was pinned may be older than the recent history. -/
def insertSeq (hist : List EventId) (id : EventId) : List EventId :=
  match hist.getLast? with
  | some last => if last < id then hist ++ [id] else hist.orderedInsert (· ≤ ·) id
  | none => hist.orderedInsert (· ≤ ·) id

def indexEvictable (q : EventQueue) (e : Event) : EventQueue :=
  { q with
    ownerHist := putList q.ownerHist e.owner (insertSeq (q.histOf e.owner) e.seq)
    evictableCount := q.evictableCount + 1 }

/-- `_by_decision.setdefault(did, {})[event_id] = e` -/
def indexDecision (q : EventQueue) (e : Event) : EventQueue :=
  match e.decisionId with
  | some decision =>
    { q with byDecision := putList q.byDecision decision (q.idsOf decision ++ [e.seq]) }
  | none => q

/-- Classify a published event, after its hook has run. -/
def indexNew (q : EventQueue) (e : Event) : EventQueue :=
  if e.isOpen then ({ q with pinned := insert e.seq q.pinned }).indexDecision e
  else q.indexEvictable e

def unindexDecision (q : EventQueue) (e : Event) : EventQueue :=
  match e.decisionId with
  | some decision =>
    { q with byDecision := putList q.byDecision decision ((q.idsOf decision).filter (· ≠ e.seq)) }
  | none => q

/-- A resolved decision becomes evictable. -/
def unpin (q : EventQueue) (e : Event) : EventQueue :=
  (({ q with pinned := q.pinned.erase e.seq }).unindexDecision e).indexEvictable e

/-! ### Eviction -/

/-- The oldest evictable event whose owner is above the floor. An event that is still being
published is in no history yet. -/
def pickVictim (q : EventQueue) : Option Event :=
  q.events.find? fun e =>
    decide (e.seq ∉ q.pinned ∧ q.ownerFloor < (q.histOf e.owner).length ∧ e.seq ∈ q.histOf e.owner)

def dropHist (q : EventQueue) (e : Event) : EventQueue :=
  { q with ownerHist := putList q.ownerHist e.owner ((q.histOf e.owner).erase e.seq) }

def drop (q : EventQueue) (victim : Event) : EventQueue :=
  { q.dropHist victim with
    events := q.events.filter (·.seq ≠ victim.seq)
    evictableCount := q.evictableCount - 1
    evictedHigh := max q.evictedHigh victim.seq
    evictedHighBySession :=
      q.evictedHighBySession.insert victim.sessionId
        (max ((q.evictedHighBySession.lookup victim.sessionId).getD 0) victim.seq) }

/-- The eviction loop. Each round drops a retained event, so as many rounds as there are events
are enough (`evict_done`). -/
def evictLoop : ℕ → EventQueue → EventQueue
  | 0, q => q
  | rounds + 1, q =>
    if q.evictableCount ≤ q.bound then q
    else match q.pickVictim with
      | some victim => evictLoop rounds (q.drop victim)
      | none => q

def evictIfNeeded (q : EventQueue) : EventQueue := evictLoop q.events.length q

/-! ### Publishing and resolving -/

/-- The cached owner of a session, or what the resolver answers now; only a real owner is
cached. -/
def ownerOf (q : EventQueue) (session : SessionId) (resolved : Option String) :
    EventQueue × Option String :=
  match q.ownerCache.lookup session with
  | some owner => (q, some owner)
  | none =>
    match resolved with
    | some owner => ({ q with ownerCache := q.ownerCache.insert session owner }, some owner)
    | none => (q, none)

/-- The event enters the log, not yet indexed. -/
def reserve (q : EventQueue) (n : Notice) (owner : Option String) : EventQueue × Event :=
  let e : Event := { n with seq := q.nextSeq, owner := owner }
  ({ q with
      nextSeq := q.nextSeq + 1
      events := q.events ++ [e]
      lastSeq := e.seq
      lastSeqBySession := q.lastSeqBySession.insert n.sessionId e.seq }, e)

/-- Index the event as its hook left it, and evict. -/
def settle (q : EventQueue) (id : EventId) : EventQueue :=
  match q.find id with
  | some e => (q.indexNew e).evictIfNeeded
  | none => q.evictIfNeeded

/-- `publish`: `onPublish` runs between the reservation and the indexing, and may resolve the
event itself. `σ` is what the hook installs into. -/
def publish {σ : Type*} (q : EventQueue) (n : Notice) (resolved : Option String)
    (onPublish : EventQueue → Event → EventQueue × σ) : EventQueue × Event × σ :=
  let owned := q.ownerOf n.sessionId resolved
  let reserved := owned.1.reserve n owned.2
  let hooked := onPublish reserved.1 reserved.2
  (hooked.1.settle reserved.2.seq, reserved.2, hooked.2)

/-- Set the resolution of one event. -/
def mark (q : EventQueue) (id : EventId) (reason : ResolvedReason) : EventQueue :=
  { q with
    events := q.events.map fun e =>
      if e.seq = id then { e with resolvedReason := some reason } else e }

def resolveOne (reason : ResolvedReason) (q : EventQueue) (id : EventId) : EventQueue :=
  match q.find id with
  | some e => (q.mark id reason).unpin e
  | none => q

/-- Resolve every unresolved event of a decision; the answer is the highest of their numbers. -/
def resolveDecision (q : EventQueue) (decision : DecisionId) (reason : ResolvedReason) :
    EventQueue × Option EventId :=
  let ids := q.idsOf decision
  if ids = [] then (q, none)
  else ((ids.foldl (resolveOne reason) q).evictIfNeeded, ids.max?)

/-- Answer one event by its id. -/
def markAnswered (q : EventQueue) (id : EventId) : EventQueue × Option EventId :=
  match q.find id with
  | none => (q, none)
  | some e =>
    if id ∈ q.pinned then ((resolveOne .answered q id).evictIfNeeded, some e.seq)
    else (q.mark id .answered, some e.seq)

def later (best : Option Event) (e : Event) : Option Event :=
  match best with
  | some b => if b.seq < e.seq then some e else some b
  | none => some e

/-- The highest pinned event, of a session or of all. -/
def pending (q : EventQueue) (session : Option SessionId) : Option Event :=
  (q.events.filter fun e =>
    decide (e.seq ∈ q.pinned ∧ (session = none ∨ session = some e.sessionId))).foldl later none

/-! ### Forgetting -/

/-- One round of the loop of `forget_session`. -/
def forgetOne (q : EventQueue) (e : Event) : EventQueue :=
  if e.seq ∈ q.pinned then ({ q with pinned := q.pinned.erase e.seq }).unindexDecision e
  else if e.seq ∈ q.histOf e.owner then
    { q.dropHist e with evictableCount := q.evictableCount - 1 }
  else q

def forgetSession (q : EventQueue) (session : SessionId) : EventQueue :=
  let swept := (q.events.filter (·.sessionId = session)).foldl forgetOne q
  { swept with
    events := swept.events.filter (·.sessionId ≠ session)
    ownerCache := swept.ownerCache.erase session
    lastSeqBySession := swept.lastSeqBySession.erase session
    evictedHighBySession := swept.evictedHighBySession.erase session }

end EventQueue

/-! ### Delivery -/

/-- What a cursor is read for: every session, one session, or the sessions of a set. -/
inductive Scope
  | all
  | session (id : SessionId)
  | sessions (ids : Finset SessionId)

/-- `_in_scope` -/
def Event.inScope (e : Event) : Scope → Prop
  | .all => True
  | .session id => e.sessionId = id
  | .sessions ids => e.sessionId ∈ ids

instance (e : Event) : ∀ scope, Decidable (e.inScope scope)
  | .all => inferInstanceAs (Decidable True)
  | .session id => inferInstanceAs (Decidable (e.sessionId = id))
  | .sessions ids => inferInstanceAs (Decidable (e.sessionId ∈ ids))

/-- `CURSOR_EXPIRED`, an event, or nothing newer. -/
inductive Delivery
  | cursorExpired
  | event (e : Event)
  | nothing
  deriving DecidableEq

namespace EventQueue

/-- `latest_seq`; for a set, the highest of `latest_seqs`. -/
def latestSeq (q : EventQueue) : Scope → ℕ
  | .all => q.lastSeq
  | .session id => (q.lastSeqBySession.lookup id).getD 0
  | .sessions ids => ids.sup fun id => (q.lastSeqBySession.lookup id).getD 0

def firstAfter (q : EventQueue) (after : ℕ) (scope : Scope) : Option Event :=
  q.events.find? fun e => decide (after < e.seq ∧ e.inScope scope)

/-- The highest evicted number of the scope. -/
def evictedIn (q : EventQueue) : Scope → ℕ
  | .all => q.evictedHigh
  | .session id => (q.evictedHighBySession.lookup id).getD 0
  | .sessions ids => ids.sup fun id => (q.evictedHighBySession.lookup id).getD 0

/-- `_expired` -/
def expired (q : EventQueue) (after : ℕ) (scope : Scope) : Bool :=
  decide (after < q.evictedIn scope)

/-- `latest_after`: expiry is checked before delivery. -/
def latestAfter (q : EventQueue) (after : ℕ) (scope : Scope) : Delivery :=
  if q.expired after scope then .cursorExpired
  else match q.firstAfter after scope with
    | some e => .event e
    | none => .nothing

end EventQueue

end Nelix.Daemon
