import Nelix.Core.Machine
import Nelix.Core.Tally
import Nelix.Daemon.AsyncDesk

/-!
# The delivery of async replies

A reply is typed as a fresh turn of an idle session. `Manager.respond` tries at once where the
session is idle, and the monitor tries with the reply that was queued while it was busy; any other
follow-up takes the same way. An attempt runs without a lock in between its sections, so attempts
overlap. A run keeps what became of every reply: `issued` holds each reply that was not refused,
`typed` those whose block was written to the terminal, and `lost` those that nothing holds any
more.
-/
namespace Nelix.Daemon

open Core

/-- What `send_turn` returns, or that it raised. -/
inductive TurnStatus
  | resumed | noPending | atCapacity | admissionUnavailable | unknownSession | terminal
  | writeTimeout | raised
  deriving DecidableEq, Repr

/-- An attempt that was declined has typed nothing. -/
def TurnStatus.declines : TurnStatus → Bool
  | .noPending | .atCapacity | .admissionUnavailable => true
  | _ => false

/-- Where a call of the manager's `send_turn` stands; `returned` is back at its caller. -/
inductive TurnAt
  | entering | reserving | acquiring | revalidating
  | binding | preparing | typing | pressing | recording
  | returned (status : TurnStatus)
  | done (status : TurnStatus)
  deriving DecidableEq, Repr

/-- A call of `send_turn`, with an async reply or with any other text. -/
structure Turn where
  reply : Option AsyncReply
  byMonitor : Bool := false
  stage : TurnAt := .entering

/-- What the lease service answers. -/
inductive Grant
  | granted | concurrencyLimit | refused | raised
  deriving DecidableEq, Repr

/-- What a section of an attempt finds outside the session. -/
structure TurnInput where
  quiescing : Bool := false
  room : Bool := true
  grant : Grant := .granted
  accepted : Bool := true
  attached : Bool := true
  written : Bool := true

/-- Why no one holds a reply that was not typed. -/
inductive Loss
  /-- its attempt ended so, and is not repeated -/
  | ended (status : TurnStatus)
  /-- the monitor's attempt was refused admission -/
  | refused
  /-- another reply has the slot -/
  | displaced
  /-- the session is ending and takes nothing back -/
  | closed
  deriving DecidableEq, Repr

structure Replies where
  desk : AsyncDesk := {}
  state : SessionState := .live .busy
  closing : Bool := false
  terminal : Bool := false
  registered : Bool := true
  quiescent : Bool := false
  pendingAcquire : Bool := false
  askings : List (ℕ × AsyncQuestion) := []
  turns : List Turn := []
  issued : List AsyncReply := []
  typed : List AsyncReply := []
  lost : List (AsyncReply × Loss) := []

inductive ReplyStep
  | mintQuestion (q : AsyncQuestion)
  | storeQuestion (c : ℕ) (event : EventId)
  | respond (id : ℕ) (answer : String)
  | followUp
  | drain
  | advance (c : ℕ) (input : TurnInput)
  | setState (state : SessionState)
  | setQuiescent (quiescent : Bool)
  | close
  | finish
  | unregister

namespace Turn

/-- The reply of an attempt that has not typed it, and may hand it back. -/
def carried (t : Turn) : Option AsyncReply :=
  match t.stage with
  | .pressing | .recording | .done _ => none
  | .returned status => if status.declines then t.reply else none
  | _ => t.reply

theorem carried_returned (t : Turn) (status : TurnStatus) :
    ({ t with stage := .returned status } : Turn).carried =
      if status.declines then t.reply else none := rfl

end Turn

namespace Replies

-- whether the manager has a lease client, and the session a way to its manager
variable (leased wired : Bool)

def ending (w : Replies) : Bool := w.closing || w.terminal

def setTurn (w : Replies) (c : ℕ) (t : Turn) : Replies := { w with turns := w.turns.set c t }

def goto (w : Replies) (c : ℕ) (t : Turn) (stage : TurnAt) : Replies :=
  w.setTurn c { t with stage := stage }

/-- Nobody has the reply any more. -/
def lose (w : Replies) (reply : Option AsyncReply) (loss : Loss) : Replies :=
  { w with lost := w.lost ++ reply.toList.map fun reply => (reply, loss) }

/-- An attempt that has typed nothing returns; a reply that was not declined is given up. -/
def refuse (w : Replies) (c : ℕ) (t : Turn) (status : TurnStatus) : Replies :=
  (if status.declines then w else w.lose t.reply (.ended status)).goto c t (.returned status)

/-- The marker of a leased attempt is taken down when it ends. -/
def release (w : Replies) : Replies :=
  if leased then { w with pendingAcquire := false } else w

/-- `send_turn` of the manager and of the session, one section. -/
def attempt (w : Replies) (c : ℕ) (t : Turn) (input : TurnInput) : Replies :=
  match t.stage with
  | .entering =>
    if leased then
      if ¬ w.registered then w.refuse c t .unknownSession
      else if w.pendingAcquire then w.refuse c t .atCapacity
      else
        let w := { w with quiescent := input.quiescing }
        if w.quiescent then w.refuse c t .noPending
        else if w.state ≠ .live .idle then w.refuse c t .noPending
        else { w with pendingAcquire := true }.goto c t .acquiring
    else
      let w := { w with quiescent := input.quiescing }
      if w.quiescent then w.refuse c t .noPending else w.goto c t .reserving
  | .reserving =>
    if ¬ w.registered then w.refuse c t .unknownSession
    else if w.quiescent then w.refuse c t .noPending
    else if ¬ input.room then w.refuse c t .atCapacity
    else w.goto c t .binding
  | .acquiring =>
    match input.grant with
    | .granted => w.goto c t .revalidating
    | .concurrencyLimit => { w with pendingAcquire := false }.refuse c t .atCapacity
    | .refused => { w with pendingAcquire := false }.refuse c t .admissionUnavailable
    | .raised => w.refuse c t .raised
  | .revalidating =>
    let w := { w with quiescent := w.quiescent || input.quiescing }
    if w.quiescent ∨ ¬ w.registered ∨ w.state ≠ .live .idle then
      { w with pendingAcquire := false }.refuse c t .noPending
    else w.goto c t .binding
  | .binding =>
    if w.closing then (w.release leased).refuse c t .terminal
    else if w.state ≠ .live .idle then (w.release leased).refuse c t .noPending
    else w.goto c t .preparing
  | .preparing =>
    if ¬ input.accepted then (w.release leased).refuse c t .raised
    else if ¬ input.attached then (w.release leased).refuse c t .terminal
    else w.goto c t .typing
  | .typing =>
    if input.written then
      { w with typed := w.typed ++ t.reply.toList }.goto c t .pressing
    else (w.release leased).refuse c t .writeTimeout
  | .pressing =>
    if input.written then w.goto c t .recording
    else (w.release leased).goto c t (.returned .writeTimeout)
  | .recording =>
    ({ w with state := .live .busy }.release leased).goto c t (.returned .resumed)
  | .returned _ | .done _ => w

/-- Which outcomes are queued again: `drain_async_reply` and `Manager.respond` differ in one. -/
def requeues (byMonitor : Bool) : TurnStatus → Bool
  | .atCapacity | .noPending => true
  | .admissionUnavailable => !byMonitor
  | _ => false

/-- `requeue_async_reply` -/
def requeue (w : Replies) (reply : AsyncReply) : Replies :=
  let w' := { w with desk := w.desk.requeueAsyncReply reply w.ending }
  if w.desk.replyPending.isSome then w'.lose (some reply) .displaced
  else if w.ending then w'.lose (some reply) .closed
  else w'

/-- What the caller of `send_turn` does with its outcome. -/
def settle (w : Replies) (c : ℕ) (t : Turn) (status : TurnStatus) : Replies :=
  let settled := w.goto c t (.done status)
  match t.reply with
  | none => settled
  | some reply =>
    if requeues t.byMonitor status then settled.requeue reply
    else if status.declines then settled.lose (some reply) .refused
    else settled

def advance (w : Replies) (c : ℕ) (input : TurnInput) : Replies :=
  match w.turns[c]? with
  | none => w
  | some t =>
    match t.stage with
    | .returned status => w.settle c t status
    | .done _ => w
    | _ => w.attempt leased c t input

/-- The answer to a question, as `Manager.respond` hands it to the session. -/
def respond (w : Replies) (id : ℕ) (answer : String) : Replies :=
  let r := w.desk.resolveAsyncQuestion id answer w.ending (w.state == .live .idle)
  match r.2.1 with
  | .deliverNow reply =>
    { w with
      desk := r.1
      issued := w.issued ++ [reply]
      turns := w.turns ++ [{ reply := some reply }] }
  | .queuedBusy =>
    -- the slot is written whatever it holds
    { w.lose w.desk.replyPending .displaced with
      desk := r.1
      issued := w.issued ++ r.1.replyPending.toList }
  | .notDelivered => { w with desk := r.1 }

/-- `drain_async_reply`, up to the outcome. -/
def drain (w : Replies) : Replies :=
  match w.desk.claimReply (w.state == .live .idle) w.closing with
  | none => w
  | some (desk, reply) =>
    { w with
      desk := desk
      turns := w.turns ++
        [{ reply := some reply, byMonitor := true
           stage := if wired then .entering else .returned .noPending }] }

/-- The monitor is in no attempt. -/
def monitorFree (w : Replies) : Bool :=
  w.turns.all fun t => !t.byMonitor || match t.stage with
    | .done _ => true
    | _ => false

def machine : Machine Replies ReplyStep Empty where
  step w
    | .mintQuestion q =>
      match w.desk.mintQuestion with
      | .ok (desk, id) => ({ w with desk := desk, askings := w.askings ++ [(id, q)] }, [])
      | .error _ => (w, [])
    | .storeQuestion c event =>
      match w.askings[c]? with
      | some (id, q) =>
        ({ w with
            desk := w.desk.storeQuestion q id event
            askings := w.askings.eraseIdx c }, [])
      | none => (w, [])
    | .respond id answer => (w.respond id answer, [])
    | .followUp => ({ w with turns := w.turns ++ [{ reply := none }] }, [])
    | .drain => if w.monitorFree then (w.drain wired, []) else (w, [])
    | .advance c input => (w.advance leased c input, [])
    | .setState state => ({ w with state := state }, [])
    | .setQuiescent quiescent => ({ w with quiescent := quiescent }, [])
    | .close => ({ w with closing := true }, [])
    | .finish => ({ w with terminal := true }, [])
    | .unregister => ({ w with registered := false }, [])

/-- The reply is queued, or an attempt that has not typed it carries it. -/
def Holds (w : Replies) (r : AsyncReply) : Prop :=
  w.desk.replyPending = some r ∨ ∃ t ∈ w.turns, t.carried = some r

/-! ### Why a reply is lost -/

/-- What a section finds where an attempt that has typed nothing is not declined and yet ends. -/
inductive Ends (w : Replies) (input : TurnInput) : TurnAt → TurnStatus → Prop
  | unwritten (failed : input.written = false) : Ends w input .typing .writeTimeout
  | acquireRaised (raised : input.grant = .raised) : Ends w input .acquiring .raised
  | unaccepted (raised : input.accepted = false) : Ends w input .preparing .raised
  | detached (gone : input.attached = false) : Ends w input .preparing .terminal
  | closing (closing : w.closing = true) : Ends w input .binding .terminal
  | unleased (gone : w.registered = false) : Ends w input .reserving .unknownSession
  | leased (on : leased = true) (gone : w.registered = false) :
      Ends w input .entering .unknownSession

/-- An attempt is back at its caller with the reply, which it has not typed. -/
structure Back (w : Replies) (c : ℕ) (t : Turn) (r : AsyncReply) (status : TurnStatus) : Prop where
  found : w.turns[c]? = some t
  stage : t.stage = .returned status
  reply : t.reply = some r

/-- The state before a step, where the step loses a reply: why it does. -/
inductive Caused (w : Replies) (r : AsyncReply) : ReplyStep → Loss → Prop
  /-- the attempt under way with the reply is not declined and ends -/
  | ended {c t input status} (found : w.turns[c]? = some t) (reply : t.reply = some r)
      (ends : Ends leased w input t.stage status) : Caused w r (.advance c input) (.ended status)
  /-- the monitor's attempt comes back and was refused admission -/
  | refused {c t input} (back : Back w c t r .admissionUnavailable) (monitor : t.byMonitor = true) :
      Caused w r (.advance c input) .refused
  /-- a declined reply comes back and the slot is taken -/
  | displaced {c t input status} (back : Back w c t r status)
      (declined : requeues t.byMonitor status = true) (taken : w.desk.replyPending ≠ none) :
      Caused w r (.advance c input) .displaced
  /-- a declined reply comes back and the session is ending -/
  | closed {c t input status} (back : Back w c t r status)
      (declined : requeues t.byMonitor status = true) (ends : w.ending = true) :
      Caused w r (.advance c input) .closed
  /-- the answer to another question takes the slot of a session that goes on and is busy -/
  | overwritten {id answer q} (slot : w.desk.replyPending = some r)
      (asked : w.desk.asyncQuestion = some q) (same : q.id = id) (goes : w.ending = false)
      (works : w.state ≠ .live .idle) : Caused w r (.respond id answer) .displaced

/-- A step of the run lost the reply, and the state before it says why. -/
def LostBy (steps : List ReplyStep) (r : AsyncReply) (loss : Loss) : Prop :=
  ∃ before step rest, steps = before ++ step :: rest ∧
    Caused leased ((machine leased wired).after {} before) r step loss

/-! ### Where a reply is -/

/-- How often a reply is queued, under delivery, typed or lost. -/
def places (w : Replies) (r : AsyncReply) : ℕ :=
  w.desk.replyPending.toList.count r + (w.turns.map fun t => t.carried.toList.count r).sum +
    w.typed.count r + (w.lost.map Prod.fst).count r

/-- How often a question's number is minted, asked or answered. -/
def named (w : Replies) (n : ℕ) : ℕ :=
  (w.askings.map Prod.fst).count n + (w.desk.asyncQuestion.toList.map (·.id)).count n +
    (w.issued.map (·.question)).count n

/-- Every reply is in one place, every question has a number of its own, and a reply is the framed
block of an answer. -/
structure Kept (w : Replies) : Prop where
  law : ∀ r, w.places r = w.issued.count r
  single : ∀ n, w.named n ≤ 1
  fresh : ∀ n, w.desk.nextQseq < n → w.named n = 0
  framed : ∀ r ∈ w.issued, ∃ q answer, r.text = formatAsyncReply q answer

/-- The replies and the questions are where they were. -/
structure Untouched (w w' : Replies) : Prop where
  desk : w'.desk = w.desk
  askings : w'.askings = w.askings
  turns : w'.turns = w.turns
  issued : w'.issued = w.issued
  typed : w'.typed = w.typed
  lost : w'.lost = w.lost

variable {w w' : Replies} {c : ℕ} {t : Turn}

theorem Untouched.refl (w : Replies) : Untouched w w := ⟨rfl, rfl, rfl, rfl, rfl, rfl⟩

theorem release_untouched : Untouched w (w.release leased) := by
  rw [release]
  split <;> exact ⟨rfl, rfl, rfl, rfl, rfl, rfl⟩

theorem Ends.carried {input : TurnInput} {status : TurnStatus}
    (ends : Ends leased w input t.stage status) : t.carried = t.reply := by
  unfold Turn.carried
  generalize t.stage = stage at ends
  cases ends <;> rfl

theorem Ends.final {input : TurnInput} {stage : TurnAt} {status : TurnStatus}
    (ends : Ends leased w input stage status) : status.declines = false := by
  cases ends <;> rfl

/-- What a section of an attempt does to its reply: it keeps it, types it or gives it up. -/
inductive Attempted (w : Replies) (c : ℕ) (t : Turn) (input : TurnInput) (w' : Replies) : Prop
  | moves (t' : Turn) (carried : t'.carried = t.carried) (desk : w'.desk = w.desk)
      (askings : w'.askings = w.askings) (turns : w'.turns = w.turns.set c t')
      (issued : w'.issued = w.issued) (typed : w'.typed = w.typed) (lost : w'.lost = w.lost)
  | types (t' : Turn) (before : t.carried = t.reply) (after : t'.carried = none)
      (desk : w'.desk = w.desk) (askings : w'.askings = w.askings)
      (turns : w'.turns = w.turns.set c t') (issued : w'.issued = w.issued)
      (typed : w'.typed = w.typed ++ t.reply.toList) (lost : w'.lost = w.lost)
  | loses (t' : Turn) (status : TurnStatus) (ends : Ends leased w input t.stage status)
      (after : t'.carried = none) (desk : w'.desk = w.desk) (askings : w'.askings = w.askings)
      (turns : w'.turns = w.turns.set c t') (issued : w'.issued = w.issued)
      (typed : w'.typed = w.typed)
      (lost : w'.lost = w.lost ++ t.reply.toList.map fun reply => (reply, .ended status))

variable {leased} {input : TurnInput}

theorem Untouched.moves (untouched : Untouched w w') {stage : TurnAt}
    (carried : ({ t with stage := stage } : Turn).carried = t.carried) :
    Attempted leased w c t input (w'.goto c t stage) :=
  .moves { t with stage := stage } carried untouched.desk untouched.askings
    (by rw [goto, setTurn, untouched.turns]) untouched.issued untouched.typed untouched.lost

/-- A declined attempt has its reply still. -/
theorem Untouched.declined (untouched : Untouched w w') (before : t.carried = t.reply)
    {status : TurnStatus} (declines : status.declines = true) :
    Attempted leased w c t input (w'.refuse c t status) := by
  rw [refuse, if_pos declines]
  refine untouched.moves ?_
  rw [before, Turn.carried_returned, if_pos declines]

/-- One that ends otherwise gives it up. -/
theorem Untouched.ended (untouched : Untouched w w') {status : TurnStatus}
    (ends : Ends leased w input t.stage status) :
    Attempted leased w c t input (w'.refuse c t status) := by
  have final : ¬ status.declines = true := by rw [ends.final]; exact Bool.false_ne_true
  rw [refuse, if_neg final]
  refine .loses { t with stage := .returned status } status ends ?_ untouched.desk
    untouched.askings ?_ untouched.issued untouched.typed ?_
  · rw [Turn.carried_returned, if_neg final]
  · change w'.turns.set c _ = _
    rw [untouched.turns]
  · change w'.lost ++ _ = _
    rw [untouched.lost]

variable (leased)

theorem attempt_attempted (input : TurnInput) (running : ∀ status,
    t.stage ≠ .returned status ∧ t.stage ≠ .done status) :
    Attempted leased w c t input (w.attempt leased c t input) := by
  have same := Untouched.refl w
  cases stage : t.stage with
  | returned status => exact absurd stage (running status).1
  | done status => exact absurd stage (running status).2
  | entering =>
    have before : t.carried = t.reply := by rw [Turn.carried, stage]
    simp only [attempt, stage]
    cases on : leased with
    | true =>
      rw [if_pos rfl]
      by_cases known : w.registered = true
      · rw [if_neg (not_not_intro known)]
        by_cases busy : w.pendingAcquire = true
        · rw [if_pos busy]
          exact same.declined before rfl
        · rw [if_neg busy]
          -- what the store says of the epoch is kept in the flag, whatever comes of it
          have told : Untouched w { w with quiescent := input.quiescing } :=
            ⟨rfl, rfl, rfl, rfl, rfl, rfl⟩
          split
          · exact told.declined before rfl
          · split
            · exact told.declined before rfl
            · have marked : Untouched w
                  { w with quiescent := input.quiescing, pendingAcquire := true } :=
                ⟨rfl, rfl, rfl, rfl, rfl, rfl⟩
              exact marked.moves (by rw [Turn.carried, before])
      · rw [if_pos known]
        exact same.ended (stage ▸ .leased rfl (Bool.eq_false_iff.mpr known))
    | false =>
      rw [if_neg Bool.false_ne_true]
      have told : Untouched w { w with quiescent := input.quiescing } :=
        ⟨rfl, rfl, rfl, rfl, rfl, rfl⟩
      split
      · exact told.declined before rfl
      · exact told.moves (by rw [Turn.carried, before])
  | reserving =>
    have before : t.carried = t.reply := by rw [Turn.carried, stage]
    simp only [attempt, stage]
    split
    next gone => exact same.ended (stage ▸ .unleased (Bool.eq_false_iff.mpr gone))
    · split
      · exact same.declined before rfl
      · split
        · exact same.declined before rfl
        · exact same.moves (by rw [Turn.carried, before])
  | acquiring =>
    have before : t.carried = t.reply := by rw [Turn.carried, stage]
    have dropped : Untouched w { w with pendingAcquire := false } :=
      ⟨rfl, rfl, rfl, rfl, rfl, rfl⟩
    simp only [attempt, stage]
    cases grant : input.grant with
    | granted => exact same.moves (by rw [Turn.carried, before])
    | concurrencyLimit | refused => exact dropped.declined before rfl
    | raised => exact same.ended (stage ▸ .acquireRaised grant)
  | revalidating =>
    have before : t.carried = t.reply := by rw [Turn.carried, stage]
    simp only [attempt, stage]
    split
    · have dropped : Untouched w
          { w with quiescent := w.quiescent || input.quiescing, pendingAcquire := false } :=
        ⟨rfl, rfl, rfl, rfl, rfl, rfl⟩
      exact dropped.declined before rfl
    · have told : Untouched w { w with quiescent := w.quiescent || input.quiescing } :=
        ⟨rfl, rfl, rfl, rfl, rfl, rfl⟩
      exact told.moves (by rw [Turn.carried, before])
  | binding =>
    have before : t.carried = t.reply := by rw [Turn.carried, stage]
    simp only [attempt, stage]
    split
    next closing => exact (release_untouched leased).ended (stage ▸ .closing closing)
    · split
      · exact (release_untouched leased).declined before rfl
      · exact same.moves (by rw [Turn.carried, before])
  | preparing =>
    have before : t.carried = t.reply := by rw [Turn.carried, stage]
    simp only [attempt, stage]
    split
    next raised =>
      exact (release_untouched leased).ended (stage ▸ .unaccepted (Bool.eq_false_iff.mpr raised))
    · split
      next gone =>
        exact (release_untouched leased).ended (stage ▸ .detached (Bool.eq_false_iff.mpr gone))
      · exact same.moves (by rw [Turn.carried, before])
  | typing =>
    have before : t.carried = t.reply := by rw [Turn.carried, stage]
    simp only [attempt, stage]
    split
    · exact .types { t with stage := .pressing } before rfl rfl rfl rfl rfl rfl rfl
    next failed =>
      exact (release_untouched leased).ended (stage ▸ .unwritten (Bool.eq_false_iff.mpr failed))
  | pressing =>
    -- it is typed, so the attempt carries nothing any more
    have before : t.carried = none := by rw [Turn.carried, stage]
    simp only [attempt, stage]
    split
    · exact same.moves (by rw [Turn.carried, before])
    · exact (release_untouched leased).moves (by rw [before]; rfl)
  | recording =>
    have before : t.carried = none := by rw [Turn.carried, stage]
    have worked : Untouched w ({ w with state := .live .busy }.release leased) := by
      rw [release]
      split <;> exact ⟨rfl, rfl, rfl, rfl, rfl, rfl⟩
    simp only [attempt, stage]
    exact worked.moves (by rw [before]; rfl)

/-- A step that asks and answers no question. -/
theorem Kept.onward (kept : Kept w) (asked : w'.desk.asyncQuestion = w.desk.asyncQuestion)
    (next : w'.desk.nextQseq = w.desk.nextQseq) (askings : w'.askings = w.askings)
    (issued : w'.issued = w.issued) (law : ∀ r, w'.places r = w.issued.count r) : Kept w' := by
  have named : ∀ n, w'.named n = w.named n := by
    intro n
    rw [named, named, asked, askings, issued]
  refine ⟨fun r => ?_, fun n => ?_, fun n => ?_, ?_⟩
  · rw [issued]
    exact law r
  · rw [named]
    exact kept.single n
  · rw [named, next]
    exact kept.fresh n
  · rw [issued]
    exact kept.framed

/-- An attempt moves its reply from one place to another at most. -/
theorem Kept.attempted (kept : Kept w) (found : w.turns[c]? = some t)
    (attempted : Attempted leased w c t input w') : Kept w' := by
  cases attempted with
  | moves t' carried desk askings turns issued typed lost =>
    refine kept.onward (by rw [desk]) (by rw [desk]) askings issued fun r => ?_
    have moved := sum_set (fun t => t.carried.toList.count r) found t'
    have law := kept.law r
    simp only [places, desk, turns, typed, lost, carried] at law moved ⊢
    omega
  | types t' before after desk askings turns issued typed lost =>
    refine kept.onward (by rw [desk]) (by rw [desk]) askings issued fun r => ?_
    have moved := sum_set (fun t => t.carried.toList.count r) found t'
    have law := kept.law r
    simp only [places, desk, turns, typed, lost, before, after, List.count_append,
      Option.toList_none, List.count_nil] at law moved ⊢
    omega
  | loses t' status ends after desk askings turns issued typed lost =>
    refine kept.onward (by rw [desk]) (by rw [desk]) askings issued fun r => ?_
    have moved := sum_set (fun t => t.carried.toList.count r) found t'
    have law := kept.law r
    simp only [places, desk, turns, typed, lost, ends.carried, after, List.map_append, List.map_map,
      List.count_append, Option.toList_none, List.count_nil, Function.comp_def,
      List.map_id'] at law moved ⊢
    omega

theorem declines_of_requeues {byMonitor : Bool} {status : TurnStatus}
    (again : requeues byMonitor status = true) : status.declines = true := by
  cases status <;> first | rfl | cases again

/-- A declined reply comes back to its slot, or nobody has it any more. -/
inductive Requeued (w : Replies) (reply : AsyncReply) : Replies → Prop
  | queued (free : w.desk.replyPending = none) (goes : w.ending = false) :
      Requeued w reply { w with desk := { w.desk with replyPending := some reply } }
  | displaced (taken : w.desk.replyPending ≠ none) :
      Requeued w reply (w.lose (some reply) .displaced)
  | closed (free : w.desk.replyPending = none) (ends : w.ending = true) :
      Requeued w reply (w.lose (some reply) .closed)

theorem requeued_requeue (w : Replies) (reply : AsyncReply) :
    Requeued w reply (w.requeue reply) := by
  simp only [requeue, AsyncDesk.requeueAsyncReply]
  cases slot : w.desk.replyPending with
  | some newer => exact .displaced (by rw [slot]; nofun)
  | none =>
    cases ends : w.ending with
    | true => exact .closed slot ends
    | false => exact .queued slot ends

/-- A reply that an attempt had is among the lost. -/
theorem Kept.given {w₁ : Replies} {reply : AsyncReply} (kept : Kept w) (desk : w₁.desk = w.desk)
    (askings : w₁.askings = w.askings) (issued : w₁.issued = w.issued)
    (owed : ∀ r, w₁.places r + [reply].count r = w.issued.count r) (loss : Loss) :
    Kept (w₁.lose (some reply) loss) := by
  refine kept.onward (congrArg AsyncDesk.asyncQuestion desk) (congrArg AsyncDesk.nextQseq desk)
    askings issued fun r => ?_
  have owed := owed r
  simp only [places, lose, Option.toList_some, List.map_append, List.map_cons, List.map_nil,
    List.count_append] at owed ⊢
  omega

/-- What is written down when a reply finds a place, in the slot or among the lost. -/
theorem Requeued.onward {w₁ : Replies} {reply : AsyncReply} (requeued : Requeued w₁ reply w')
    (kept : Kept w) (desk : w₁.desk = w.desk) (askings : w₁.askings = w.askings)
    (issued : w₁.issued = w.issued)
    (owed : ∀ r, w₁.places r + [reply].count r = w.issued.count r) : Kept w' := by
  cases requeued with
  | queued free goes =>
    have asked : w₁.desk.asyncQuestion = w.desk.asyncQuestion := by rw [desk]
    have next : w₁.desk.nextQseq = w.desk.nextQseq := by rw [desk]
    refine kept.onward asked next askings issued fun r => ?_
    have owed := owed r
    simp only [places, free, Option.toList_none, Option.toList_some, List.count_nil] at owed ⊢
    omega
  | displaced taken => exact kept.given desk askings issued owed .displaced
  | closed free ends => exact kept.given desk askings issued owed .closed

/-- The two callers differ in one outcome: the monitor gives a reply up that is refused admission. -/
theorem refused_of_declines {byMonitor : Bool} {status : TurnStatus}
    (declines : status.declines = true) (ended : ¬ requeues byMonitor status = true) :
    status = .admissionUnavailable ∧ byMonitor = true := by
  cases status with
  | admissionUnavailable => exact ⟨rfl, by simpa [requeues] using ended⟩
  | noPending | atCapacity => exact absurd rfl ended
  | resumed | unknownSession | terminal | writeTimeout | raised => cases declines

/-- The caller of an attempt puts a declined reply back, where it can. -/
theorem Kept.settle (kept : Kept w) {status : TurnStatus} (found : w.turns[c]? = some t)
    (back : t.stage = .returned status) : Kept (w.settle c t status) := by
  have carried : t.carried = if status.declines then t.reply else none := by
    rw [Turn.carried, back]
  -- what the attempt carried is in no turn any more
  have owed : ∀ r, (w.goto c t (.done status)).places r +
      (if status.declines then t.reply else none).toList.count r = w.issued.count r := by
    intro r
    have moved := sum_set (fun t => t.carried.toList.count r) found
      { t with stage := .done status }
    have law := kept.law r
    rw [carried] at moved
    change _ = _ + 0 at moved
    simp only [places, goto, setTurn] at law ⊢
    omega
  simp only [Replies.settle]
  cases reply : t.reply with
  | none =>
    refine kept.onward rfl rfl rfl rfl fun r => ?_
    have owed := owed r
    rw [reply, ite_self] at owed
    exact owed
  | some reply' =>
    rw [reply] at owed
    dsimp only
    by_cases again : requeues t.byMonitor status = true
    · rw [if_pos again]
      rw [if_pos (declines_of_requeues again)] at owed
      exact (requeued_requeue _ reply').onward kept rfl rfl rfl owed
    · rw [if_neg again]
      by_cases declines : status.declines = true
      · rw [if_pos declines]
        rw [if_pos declines] at owed
        refine kept.given ?_ ?_ ?_ owed .refused
        all_goals rfl
      · rw [if_neg declines]
        rw [if_neg declines] at owed
        exact kept.onward rfl rfl rfl rfl owed

/-! ### Questions and answers -/

theorem Kept.advance (kept : Kept w) (c : ℕ) (input : TurnInput) :
    Kept (w.advance leased c input) := by
  rw [Replies.advance]
  cases found : w.turns[c]? with
  | none => exact kept
  | some t =>
    dsimp only
    cases stage : t.stage with
    | returned status => exact kept.settle found stage
    | done status => exact kept
    | _ =>
      refine kept.attempted leased found (attempt_attempted leased input fun status => ?_)
      rw [stage]
      exact ⟨nofun, nofun⟩

/-- A new attempt carries its reply. -/
theorem places_append (w : Replies) (t : Turn) (r : AsyncReply) :
    ({ w with turns := w.turns ++ [t] } : Replies).places r =
      w.places r + t.carried.toList.count r := by
  simp only [places, List.map_append, List.map_cons, List.map_nil, List.sum_append,
    List.sum_singleton]
  omega

theorem Kept.minted (kept : Kept w) {desk : AsyncDesk} {id : ℕ}
    (minted : w.desk.mintQuestion = .ok (desk, id)) (q : AsyncQuestion) :
    Kept { w with desk := desk, askings := w.askings ++ [(id, q)] } := by
  obtain ⟨free, idle, rfl, rfl⟩ := AsyncDesk.mintQuestion_ok minted
  -- the new number is above every number there is
  have unused := kept.fresh (w.desk.nextQseq + 1) (Nat.lt_succ_self _)
  have named : ∀ n, Replies.named
      { w with
        desk := { w.desk with nextQseq := w.desk.nextQseq + 1 }
        askings := w.askings ++ [(w.desk.nextQseq + 1, q)] } n =
        w.named n + if n = w.desk.nextQseq + 1 then 1 else 0 := by
    intro n
    simp only [Replies.named, List.map_append, List.map_cons, List.map_nil, List.count_append,
      List.count_singleton, beq_iff_eq, eq_comm (a := n)]
    omega
  refine ⟨kept.law, fun n => ?_, fun n above => ?_, kept.framed⟩
  · rw [named]
    split
    next same =>
      subst same
      omega
    · exact kept.single n
  · have above : w.desk.nextQseq + 1 < n := above
    rw [named, if_neg (by omega), kept.fresh n (by omega)]

theorem Kept.stored (kept : Kept w) {c id : ℕ} {q : AsyncQuestion}
    (found : w.askings[c]? = some (id, q)) (event : EventId) :
    Kept { w with
      desk := w.desk.storeQuestion q id event
      askings := w.askings.eraseIdx c } := by
  obtain ⟨inside, at_c⟩ := List.getElem?_eq_some_iff.mp found
  -- the number moves from the call to the slot, where it replaces the one that is there
  have moved : ∀ n, Replies.named
      { w with
        desk := w.desk.storeQuestion q id event
        askings := w.askings.eraseIdx c } n ≤ w.named n := by
    intro n
    have taken := ((List.getElem_cons_eraseIdx_perm inside).map Prod.fst).count_eq n
    rw [at_c, List.map_cons, List.count_cons] at taken
    simp only [Replies.named, AsyncDesk.storeQuestion, Option.toList_some, List.map_cons,
      List.map_nil, List.count_singleton] at taken ⊢
    omega
  refine ⟨kept.law, fun n => ?_, fun n above => ?_, kept.framed⟩
  · exact le_trans (moved n) (kept.single n)
  · have old := kept.fresh n above
    have still := moved n
    omega

/-- An answered question gives its number to the reply. -/
theorem Kept.answered (kept : Kept w) {q : OpenQuestion} {answer : String}
    (asked : w.desk.asyncQuestion = some q) (slot : w'.desk.asyncQuestion = none)
    (next : w'.desk.nextQseq = w.desk.nextQseq) (askings : w'.askings = w.askings)
    (issued : w'.issued = w.issued ++ [⟨q.id, formatAsyncReply q.toAsyncQuestion answer⟩])
    (law : ∀ r, w'.places r = w.places r +
      [(⟨q.id, formatAsyncReply q.toAsyncQuestion answer⟩ : AsyncReply)].count r) : Kept w' := by
  have named : ∀ n, w'.named n = w.named n := by
    intro n
    simp only [Replies.named, asked, slot, askings, issued, Option.toList_none, Option.toList_some,
      List.map_nil, List.map_cons, List.map_append, List.count_nil, List.count_append]
    omega
  refine ⟨fun r => ?_, fun n => ?_, fun n above => ?_, fun r member => ?_⟩
  · rw [law, issued, List.count_append, kept.law]
  · rw [named]
    exact kept.single n
  · rw [named]
    exact kept.fresh n (next ▸ above)
  · rw [issued] at member
    rcases List.mem_append.mp member with old | new
    · exact kept.framed r old
    · refine ⟨q.toAsyncQuestion, answer, ?_⟩
      rw [List.mem_singleton.mp new]

/-- A question that leaves its slot unanswered is no one's any more. -/
theorem Kept.dismissed (kept : Kept w) :
    Kept { w with desk := { w.desk with asyncQuestion := none } } := by
  have fewer : ∀ n, Replies.named { w with desk := { w.desk with asyncQuestion := none } } n ≤
      w.named n := by
    intro n
    simp only [Replies.named, Option.toList_none, List.map_nil, List.count_nil]
    omega
  refine ⟨kept.law, fun n => ?_, fun n above => ?_, kept.framed⟩
  · exact le_trans (fewer n) (kept.single n)
  · have old := kept.fresh n above
    have still := fewer n
    omega

theorem Kept.respond (kept : Kept w) (id : ℕ) (answer : String) :
    Kept (w.respond id answer) := by
  have resolves := AsyncDesk.resolves_resolveAsyncQuestion w.desk id answer w.ending
    (w.state == .live .idle)
  rw [Replies.respond]
  generalize w.desk.resolveAsyncQuestion id answer w.ending (w.state == .live .idle) = result
    at resolves
  cases resolves with
  | unknown other => exact kept
  | ended q asked same ends => exact kept.dismissed
  | now q asked same goes rests =>
    subst same
    refine kept.answered asked rfl rfl rfl rfl fun r => ?_
    exact places_append { w with desk := { w.desk with asyncQuestion := none } } _ r
  | queued q asked same goes works =>
    subst same
    refine kept.answered asked rfl rfl rfl rfl fun r => ?_
    -- what was in the slot is among the lost now
    simp only [places, lose, Option.toList_some, List.map_append, List.map_map, List.count_append,
      Function.comp_def, List.map_id']
    omega

theorem Kept.drain (kept : Kept w) : Kept (w.drain wired) := by
  rw [Replies.drain, AsyncDesk.claimReply]
  cases slot : w.desk.replyPending with
  | none => exact kept
  | some reply =>
    dsimp only
    by_cases now : (w.state == .live .idle) = true ∧ ¬ w.closing = true
    · rw [if_pos now]
      refine kept.onward rfl rfl rfl rfl fun r => ?_
      have law := kept.law r
      have appended := places_append { w with desk := { w.desk with replyPending := none } }
        { reply := some reply, byMonitor := true
          stage := if wired then .entering else .returned .noPending } r
      refine appended.trans ?_
      have carried : Turn.carried { reply := some reply, byMonitor := true
                                    stage := if wired then .entering else .returned .noPending } =
          some reply := by
        cases wired <;> rfl
      rw [carried]
      simp only [places, slot, Option.toList_none, Option.toList_some, List.count_nil] at law ⊢
      omega
    · rw [if_neg now]
      exact kept

/-- No step loses count of a reply. -/
theorem kept_step (kept : Kept w) (step : ReplyStep) :
    Kept ((machine leased wired).step w step).1 := by
  cases step with
  | mintQuestion q =>
    simp only [machine]
    cases minted : w.desk.mintQuestion with
    | error pending => exact kept
    | ok r => exact kept.minted minted q
  | storeQuestion c event =>
    simp only [machine]
    cases found : w.askings[c]? with
    | none => exact kept
    | some asking => exact kept.stored found event
  | respond id answer => exact kept.respond id answer
  | followUp =>
    exact kept.onward rfl rfl rfl rfl
      fun r => (places_append w { reply := none } r).trans (kept.law r)
  | drain =>
    simp only [machine]
    split
    · exact kept.drain wired
    · exact kept
  | advance c input => exact kept.advance leased c input
  | setState _ | setQuiescent _ | close | finish | unregister =>
    exact kept.onward rfl rfl rfl rfl kept.law

theorem kept_started : Kept {} := by
  refine ⟨fun r => ?_, fun n => ?_, fun n above => ?_, nofun⟩
  · simp [places]
  · simp [named]
  · simp [named]

/-- A held reply has a place outside the terminal and the lost. -/
theorem holds_iff (w : Replies) (r : AsyncReply) :
    w.Holds r ↔ 0 < w.desk.replyPending.toList.count r +
      (w.turns.map fun t => t.carried.toList.count r).sum := by
  have counts : ∀ o : Option AsyncReply, 0 < o.toList.count r ↔ o = some r := by
    intro o
    rw [List.count_pos_iff, Option.mem_toList]
  rw [Nat.add_pos_iff_pos_or_pos, counts, Holds, List.sum_pos_iff_exists_pos_nat]
  simp only [List.mem_map]
  refine or_congr Iff.rfl ⟨?_, ?_⟩
  · rintro ⟨t, member, carried⟩
    exact ⟨t.carried.toList.count r, ⟨t, member, rfl⟩, (counts _).mpr carried⟩
  · rintro ⟨_, member, positive⟩
    obtain ⟨t, member, rfl⟩ := member
    exact ⟨t, member, (counts _).mp positive⟩

/-! ### What is typed or lost stays so -/

structure Grows (w w' : Replies) : Prop where
  typed : w.typed <+: w'.typed
  lost : w.lost <+: w'.lost

theorem Grows.refl (w : Replies) : Grows w w := ⟨List.prefix_rfl, List.prefix_rfl⟩

theorem Requeued.grows {reply : AsyncReply} (requeued : Requeued w reply w') : Grows w w' := by
  cases requeued with
  | queued free goes => exact ⟨List.prefix_rfl, List.prefix_rfl⟩
  | displaced taken => exact ⟨List.prefix_rfl, List.prefix_append _ _⟩
  | closed free ends => exact ⟨List.prefix_rfl, List.prefix_append _ _⟩

theorem Attempted.grows (attempted : Attempted leased w c t input w') : Grows w w' := by
  cases attempted with
  | moves t' carried desk askings turns issued typed lost =>
    exact ⟨by rw [typed], by rw [lost]⟩
  | types t' before after desk askings turns issued typed lost =>
    exact ⟨by rw [typed]; exact List.prefix_append _ _, by rw [lost]⟩
  | loses t' status ends after desk askings turns issued typed lost =>
    exact ⟨by rw [typed], by rw [lost]; exact List.prefix_append _ _⟩

theorem grows_settle (w : Replies) (c : ℕ) (t : Turn) (status : TurnStatus) :
    Grows w (w.settle c t status) := by
  rw [Replies.settle]
  cases t.reply with
  | none => exact ⟨List.prefix_rfl, List.prefix_rfl⟩
  | some reply =>
    dsimp only
    split
    · have requeued := requeued_requeue (w.goto c t (.done status)) reply
      exact ⟨requeued.grows.typed, requeued.grows.lost⟩
    · split
      · exact ⟨List.prefix_rfl, List.prefix_append _ _⟩
      · exact ⟨List.prefix_rfl, List.prefix_rfl⟩

theorem grows_advance (w : Replies) (c : ℕ) (input : TurnInput) :
    Grows w (w.advance leased c input) := by
  rw [Replies.advance]
  cases w.turns[c]? with
  | none => exact .refl w
  | some t =>
    dsimp only
    cases stage : t.stage with
    | returned status => exact grows_settle w c t status
    | done status => exact .refl w
    | _ =>
      have attempted := attempt_attempted (w := w) (c := c) (t := t) leased input fun status => ?_
      · exact attempted.grows leased
      rw [stage]
      exact ⟨nofun, nofun⟩

theorem grows_step (w : Replies) (step : ReplyStep) :
    Grows w ((machine leased wired).step w step).1 := by
  have same : ∀ {w' : Replies}, w'.typed = w.typed → w'.lost = w.lost → Grows w w' :=
    fun typed lost => ⟨by rw [typed], by rw [lost]⟩
  cases step with
  | mintQuestion q =>
    simp only [machine]
    split <;> exact same rfl rfl
  | storeQuestion c event =>
    simp only [machine]
    split <;> exact same rfl rfl
  | respond id answer =>
    simp only [machine, Replies.respond]
    split
    · exact same rfl rfl
    · exact ⟨List.prefix_rfl, List.prefix_append _ _⟩
    · exact same rfl rfl
  | drain =>
    simp only [machine, Replies.drain]
    split
    · split <;> exact same rfl rfl
    · exact same rfl rfl
  | advance c input => exact grows_advance leased w c input
  | followUp | setState _ | setQuiescent _ | close | finish | unregister => exact same rfl rfl

theorem grows_after (w : Replies) (steps : List ReplyStep) :
    Grows w ((machine leased wired).after w steps) := by
  induction steps generalizing w with
  | nil => exact .refl w
  | cons step rest ih =>
    have first := grows_step leased wired w step
    have later := ih ((machine leased wired).step w step).1
    exact ⟨first.typed.trans later.typed, first.lost.trans later.lost⟩

theorem kept_after (kept : Kept w) (steps : List ReplyStep) :
    Kept ((machine leased wired).after w steps) := by
  induction steps generalizing w with
  | nil => exact kept
  | cons step rest ih => exact ih (kept_step leased wired kept step)

/-- A reply is issued once, so it has one place at most. -/
theorem Kept.places_le (kept : Kept w) (r : AsyncReply) : w.places r ≤ 1 := by
  have numbered : w.issued.count r ≤ (w.issued.map (·.question)).count r.question :=
    List.count_le_count_map
  have single := kept.single r.question
  rw [kept.law]
  simp only [named] at single
  omega

/-- What was typed stays typed once, and nobody has it. -/
theorem Kept.typed_stays (kept : Kept w) {r : AsyncReply} (typed : r ∈ w.typed)
    (more : List ReplyStep) :
    ((machine leased wired).after w more).typed.count r = 1 ∧
      ¬ ((machine leased wired).after w more).Holds r := by
  have one := (kept_after leased wired kept more).places_le r
  have counted := (grows_after leased wired w more).typed.sublist.count_le r
  have positive := List.count_pos_iff.mpr typed
  rw [holds_iff]
  simp only [places] at one
  omega

/-- What was lost is never typed, and nobody has it. -/
theorem Kept.lost_stays (kept : Kept w) {r : AsyncReply} {loss : Loss}
    (lost : (r, loss) ∈ w.lost) (more : List ReplyStep) :
    ((machine leased wired).after w more).typed.count r = 0 ∧
      ¬ ((machine leased wired).after w more).Holds r := by
  have one := (kept_after leased wired kept more).places_le r
  have still := (grows_after leased wired w more).lost.subset lost
  have counted : 0 < (((machine leased wired).after w more).lost.map Prod.fst).count r :=
    List.count_pos_iff.mpr (List.mem_map.mpr ⟨(r, loss), still, rfl⟩)
  rw [holds_iff]
  simp only [places] at one
  omega

/-! ### What loses a reply -/

variable {r : AsyncReply} {loss : Loss}

/-- An entry that is new among the lost is the reply that was given up. -/
theorem lost_append {reply : Option AsyncReply} {cause : Loss}
    (lost : (r, loss) ∈ w.lost ++ reply.toList.map fun reply => (reply, cause)) :
    (r, loss) ∈ w.lost ∨ reply = some r ∧ loss = cause := by
  rcases List.mem_append.mp lost with old | new
  · exact .inl old
  · obtain ⟨_, held, is⟩ := List.mem_map.mp new
    cases is
    exact .inr ⟨Option.mem_toList.mp held, rfl⟩

/-- A reply that comes back is lost to the slot, to the end of the session or to the monitor. -/
theorem lost_settle {status : TurnStatus} (found : w.turns[c]? = some t)
    (stage : t.stage = .returned status) (input : TurnInput)
    (lost : (r, loss) ∈ (w.settle c t status).lost) :
    (r, loss) ∈ w.lost ∨ Caused leased w r (.advance c input) loss := by
  rw [Replies.settle] at lost
  cases reply : t.reply with
  | none =>
    rw [reply] at lost
    exact .inl lost
  | some reply' =>
    rw [reply] at lost
    dsimp only at lost
    -- the reply that may be lost here is the one that is back
    have back : reply' = r → Back w c t r status := fun is => ⟨found, stage, is ▸ reply⟩
    split at lost
    next again =>
      have requeued := requeued_requeue (w.goto c t (.done status)) reply'
      generalize (w.goto c t (.done status)).requeue reply' = w' at requeued lost
      cases requeued with
      | queued free goes => exact .inl lost
      | displaced taken =>
        refine (lost_append (w := w) lost).imp_right fun ⟨is, cause⟩ => ?_
        exact cause ▸ .displaced (back (Option.some.inj is)) again taken
      | closed free ends =>
        refine (lost_append (w := w) lost).imp_right fun ⟨is, cause⟩ => ?_
        exact cause ▸ .closed (back (Option.some.inj is)) again ends
    next ended =>
      split at lost
      next declines =>
        obtain ⟨rfl, monitor⟩ := refused_of_declines declines ended
        refine (lost_append (w := w) lost).imp_right fun ⟨is, cause⟩ => ?_
        exact cause ▸ .refused (back (Option.some.inj is)) monitor
      next => exact .inl lost

theorem lost_advance (input : TurnInput) (lost : (r, loss) ∈ (w.advance leased c input).lost) :
    (r, loss) ∈ w.lost ∨ Caused leased w r (.advance c input) loss := by
  rw [Replies.advance] at lost
  cases found : w.turns[c]? with
  | none =>
    rw [found] at lost
    exact .inl lost
  | some t =>
    rw [found] at lost
    dsimp only at lost
    by_cases running : ∀ status, t.stage ≠ .returned status ∧ t.stage ≠ .done status
    · have attempted := attempt_attempted (w := w) (c := c) leased input running
      have same : (match t.stage with
          | .returned status => w.settle c t status
          | .done _ => w
          | _ => w.attempt leased c t input) = w.attempt leased c t input := by
        split
        next status stage => exact absurd stage (running status).1
        next status stage => exact absurd stage (running status).2
        next => rfl
      rw [same] at lost
      -- an attempt loses its reply only where it ends with it
      generalize w.attempt leased c t input = w' at attempted lost
      cases attempted with
      | moves t' carried desk askings turns issued typed still => exact .inl (still ▸ lost)
      | types t' before after desk askings turns issued typed still => exact .inl (still ▸ lost)
      | loses t' status ends after desk askings turns issued typed more =>
        rw [more] at lost
        refine (lost_append lost).imp_right fun ⟨is, cause⟩ => ?_
        exact cause ▸ .ended found is ends
    · cases stage : t.stage with
      | returned status =>
        rw [stage] at lost
        exact lost_settle leased found stage input lost
      | done status =>
        rw [stage] at lost
        exact .inl lost
      | _ =>
        refine absurd (fun status => ?_) running
        rw [stage]
        exact ⟨nofun, nofun⟩

/-- The answer to another question takes the slot while the session is busy. -/
theorem lost_respond {id : ℕ} {answer : String}
    (lost : (r, loss) ∈ (w.respond id answer).lost) :
    (r, loss) ∈ w.lost ∨ Caused leased w r (.respond id answer) loss := by
  have resolves := AsyncDesk.resolves_resolveAsyncQuestion w.desk id answer w.ending
    (w.state == .live .idle)
  rw [Replies.respond] at lost
  generalize w.desk.resolveAsyncQuestion id answer w.ending (w.state == .live .idle) = result
    at resolves lost
  cases resolves with
  | unknown other => exact .inl lost
  | ended q asked same ends => exact .inl lost
  | now q asked same goes rests => exact .inl lost
  | queued q asked same goes works =>
    refine (lost_append lost).imp_right fun ⟨is, cause⟩ => ?_
    exact cause ▸ .overwritten is asked same goes (by simpa using works)

/-- Whatever a step adds to the lost has its cause in the state before it. -/
theorem lost_step {step : ReplyStep}
    (lost : (r, loss) ∈ ((machine leased wired).step w step).1.lost) :
    (r, loss) ∈ w.lost ∨ Caused leased w r step loss := by
  cases step with
  | mintQuestion q =>
    simp only [machine] at lost
    split at lost <;> exact .inl lost
  | storeQuestion c event =>
    simp only [machine] at lost
    split at lost <;> exact .inl lost
  | respond id answer => exact lost_respond leased lost
  | drain =>
    simp only [machine, Replies.drain] at lost
    split at lost
    · split at lost <;> exact .inl lost
    · exact .inl lost
  | advance c input => exact lost_advance leased input lost
  | followUp | setState _ | setQuiescent _ | close | finish | unregister => exact .inl lost

/-- Whatever was lost in a run was lost by one of its steps. -/
theorem lost_by (steps : List ReplyStep)
    (lost : (r, loss) ∈ ((machine leased wired).after {} steps).lost) :
    LostBy leased wired steps r loss := by
  induction steps using List.reverseRecOn with
  | nil => cases lost
  | append_singleton steps step ih =>
    rw [Machine.after_append] at lost
    rcases lost_step leased wired lost with before | cause
    · obtain ⟨first, step', rest, rfl, cause⟩ := ih before
      exact ⟨first, step', rest ++ [step], by simp, cause⟩
    · exact ⟨steps, step, [], rfl, cause⟩

/-- A declined reply that comes back to a free slot of a session that goes on is queued again. -/
theorem advance_requeues {status : TurnStatus} (back : Back w c t r status)
    (again : requeues t.byMonitor status = true) (free : w.desk.replyPending = none)
    (goes : w.ending = false) (input : TurnInput) :
    (w.advance leased c input).desk.replyPending = some r := by
  have settled : w.advance leased c input = (w.goto c t (.done status)).requeue r := by
    simp only [Replies.advance, back.found, back.stage, Replies.settle, back.reply, if_pos again]
  have requeued := requeued_requeue (w.goto c t (.done status)) r
  rw [← settled] at requeued
  generalize w.advance leased c input = w' at requeued
  cases requeued with
  | queued _ _ => rfl
  | displaced taken => exact absurd free taken
  | closed _ ends => cases goes.symm.trans ends

/-- What becomes of a reply: it is typed once and for all, or the slot or an attempt that has not
typed it holds it, or it is never typed and a step of the run lost it. -/
structure Delivered (steps : List ReplyStep) (r : AsyncReply) : Prop where
  framed : ∃ q answer, r.text = formatAsyncReply q answer
  placed : (((machine leased wired).after {} steps).typed.count r = 0 ∧
      ((machine leased wired).after {} steps).Holds r) ∨
    (∀ more, ((machine leased wired).after {} (steps ++ more)).typed.count r = 1 ∧
      ¬ ((machine leased wired).after {} (steps ++ more)).Holds r) ∨
    ((∃ loss, LostBy leased wired steps r loss) ∧
      ∀ more, ((machine leased wired).after {} (steps ++ more)).typed.count r = 0 ∧
        ¬ ((machine leased wired).after {} (steps ++ more)).Holds r)
  requeued : ∀ c t status, ((machine leased wired).after {} steps).Back c t r status →
    status = .noPending ∨ status = .atCapacity ∨
      status = .admissionUnavailable ∧ t.byMonitor = false →
    ((machine leased wired).after {} steps).desk.replyPending = none →
    ((machine leased wired).after {} steps).ending = false →
    ∀ input, ((machine leased wired).after {} (steps ++ [.advance c input])).desk.replyPending =
      some r

/-- A reply is the framed block of an answer; it is typed once and for all, or held, or lost for a
reason that the run shows, and one whose attempt was declined is queued again where it can be. -/
theorem typed_or_held (steps : List ReplyStep) (r : AsyncReply)
    (issued : r ∈ ((machine leased wired).after {} steps).issued) :
    Delivered leased wired steps r := by
  have kept := kept_after leased wired kept_started steps
  refine ⟨kept.framed r issued, ?_, fun c t status back declined free goes input => ?_⟩
  · simp only [Machine.after_append]
    have placed := kept.law r
    have one := kept.places_le r
    have positive := List.count_pos_iff.mpr issued
    by_cases typed : r ∈ ((machine leased wired).after {} steps).typed
    · exact .inr (.inl (kept.typed_stays leased wired typed))
    · by_cases lost : r ∈ (((machine leased wired).after {} steps).lost).map Prod.fst
      · obtain ⟨⟨_, loss⟩, member, rfl⟩ := List.mem_map.mp lost
        exact .inr (.inr ⟨⟨loss, lost_by leased wired steps member⟩,
          kept.lost_stays leased wired member⟩)
      · -- neither typed nor lost, so its place is with somebody
        have untyped := List.count_eq_zero.mpr typed
        have unlost := List.count_eq_zero.mpr lost
        refine .inl ⟨untyped, ?_⟩
        rw [holds_iff]
        simp only [places] at placed
        omega
  · have again : requeues t.byMonitor status = true := by
      rcases declined with rfl | rfl | ⟨rfl, responder⟩
      · rfl
      · rfl
      · rw [responder]
        rfl
    rw [Machine.after_append]
    exact advance_requeues leased back again free goes input

def portQuestion : AsyncQuestion :=
  { question := "Which port?", continuationPlan := "use 8080" }

def portReply : AsyncReply := ⟨1, formatAsyncReply portQuestion "9090"⟩

/-- A question is answered while its executor is busy, and the executor comes to rest. -/
def answeredBusy : List ReplyStep :=
  [.mintQuestion portQuestion, .storeQuestion 0 1, .respond 1 "9090", .setState (.live .idle)]

/-- There is no room for the first attempt of the monitor, and for the second there is. -/
def typedAtSecond : List ReplyStep :=
  answeredBusy ++ [.drain, .advance 0 {}, .advance 0 { room := false }, .advance 0 {}, .drain] ++
    List.replicate 8 (.advance 1 {})

theorem typedAtSecond_typed :
    portReply ∈ ((machine false true).after {} typedAtSecond).issued ∧
      Delivered false true typedAtSecond portReply ∧
      ((machine false true).after {} typedAtSecond).typed = [portReply] := by
  have issued : portReply ∈ ((machine false true).after {} typedAtSecond).issued := by
    decide +kernel
  exact ⟨issued, typed_or_held false true typedAtSecond portReply issued, by decide +kernel⟩

/-- The write of the reply times out. -/
def writeTimesOut : List ReplyStep :=
  answeredBusy ++ [.drain, .advance 0 {}, .advance 0 {}, .advance 0 {}, .advance 0 {},
    .advance 0 { written := false }, .advance 0 {}]

/-- The session goes on, and the reply is never typed. -/
theorem writeTimesOut_gone :
    portReply ∈ ((machine false true).after {} writeTimesOut).issued ∧
      ((machine false true).after {} writeTimesOut).ending = false ∧
      ((machine false true).after {} writeTimesOut).registered = true ∧
      ∀ more, ((machine false true).after {} (writeTimesOut ++ more)).typed.count portReply = 0 ∧
        ¬ ((machine false true).after {} (writeTimesOut ++ more)).Holds portReply := by
  have lost : (portReply, .ended .writeTimeout) ∈
      ((machine false true).after {} writeTimesOut).lost := by
    decide +kernel
  have kept := kept_after false true kept_started writeTimesOut
  refine ⟨by decide +kernel, by decide +kernel, by decide +kernel, fun more => ?_⟩
  rw [Machine.after_append]
  exact kept.lost_stays false true lost more

end Replies

end Nelix.Daemon
