import Nelix.Daemon.Events

/-!
# The async slots of a session

An executor may ask a question and go on working. The question has a slot of its own beside the
decision, and so has the answer to it while the executor is busy. What follows is what the lock
sections of the session do to the two slots; the publish between the two sections of
`record_async_question`, and the turn that delivers a reply, run without the lock.
-/
namespace Nelix.Daemon

/-- What an executor posts, without the field that nothing reads. -/
structure AsyncQuestion where
  question : String
  continuationPlan : String
  assumption : Option String := none
  deriving DecidableEq, Repr

/-- The question in the slot: `q_<id>`, and the event that announced it. -/
structure OpenQuestion extends AsyncQuestion where
  id : ℕ
  eventId : EventId
  deriving DecidableEq, Repr

/-- A reply block. The slot of the source holds the text alone; `question` names the question it
answers. -/
structure AsyncReply where
  question : ℕ
  text : String
  deriving DecidableEq, Repr

/-- `format_async_reply` -/
def formatAsyncReply (q : AsyncQuestion) (answer : String) : String :=
  let assumed := match q.assumption with
    | some assumption =>
      if assumption = "" then [] else [s!"You said you would proceed assuming: {assumption}"]
    | none => []
  "\n".intercalate
    (["[nelix] Answer to a question you asked earlier and kept working past — reconcile it with " ++
        "whatever you have done since:",
      s!"You asked: {q.question}"] ++ assumed ++
      [s!"Hermes: {answer}",
        "If this answer differs from that assumption, revise the affected work before " ++
          "continuing; otherwise carry on."])

/-- The async slots. -/
structure AsyncDesk where
  asyncQuestion : Option OpenQuestion := none
  replyPending : Option AsyncReply := none
  nextQseq : ℕ := 0

/-- Why a question is turned away: the id and the first characters of what is pending. -/
structure AlreadyPending where
  id : Option ℕ
  question : String
  deriving DecidableEq, Repr

/-- What becomes of an answer. -/
inductive Disposition
  | deliverNow (reply : AsyncReply)
  | queuedBusy
  | notDelivered
  deriving DecidableEq, Repr

namespace AsyncDesk

/-- The first section of `record_async_question`: a number for the question. -/
def mintQuestion (d : AsyncDesk) : Except AlreadyPending (AsyncDesk × ℕ) :=
  match d.asyncQuestion with
  | some q => .error { id := some q.id, question := (q.question.take 200).toString }
  | none =>
    match d.replyPending with
    | some reply => .error { id := none, question := (reply.text.take 200).toString }
    | none => .ok ({ d with nextQseq := d.nextQseq + 1 }, d.nextQseq + 1)

/-- The second one, after the publish. -/
def storeQuestion (d : AsyncDesk) (q : AsyncQuestion) (id : ℕ) (eventId : EventId) : AsyncDesk :=
  { d with asyncQuestion := some { q with id := id, eventId := eventId } }

/-- The section of `resolve_async_question`, and the event to be marked answered. -/
def resolveAsyncQuestion (d : AsyncDesk) (id : ℕ) (answer : String) (closing idle : Bool) :
    AsyncDesk × Disposition × Option EventId :=
  match d.asyncQuestion with
  | none => (d, .notDelivered, none)
  | some q =>
    if q.id ≠ id then (d, .notDelivered, none)
    else
      let reply : AsyncReply := ⟨id, formatAsyncReply q.toAsyncQuestion answer⟩
      let cleared := { d with asyncQuestion := none }
      if closing then (cleared, .notDelivered, some q.eventId)
      else if idle then (cleared, .deliverNow reply, some q.eventId)
      else ({ cleared with replyPending := some reply }, .queuedBusy, some q.eventId)

/-- The claim of `drain_async_reply`. -/
def claimReply (d : AsyncDesk) (idle closing : Bool) : Option (AsyncDesk × AsyncReply) :=
  match d.replyPending with
  | none => none
  | some reply =>
    if idle ∧ ¬ closing then some ({ d with replyPending := none }, reply) else none

/-- `requeue_async_reply`: a newer reply stays, and a session that ends takes nothing back. -/
def requeueAsyncReply (d : AsyncDesk) (reply : AsyncReply) (closing : Bool) : AsyncDesk :=
  if d.replyPending.isNone ∧ ¬ closing then { d with replyPending := some reply } else d

variable {d d' : AsyncDesk} {q : OpenQuestion} {id : ℕ}

/-- A question gets a number while neither slot is taken. -/
theorem mintQuestion_ok (minted : d.mintQuestion = .ok (d', id)) :
    d.asyncQuestion = none ∧ d.replyPending = none ∧ id = d.nextQseq + 1 ∧
      d' = { d with nextQseq := d.nextQseq + 1 } := by
  simp only [mintQuestion] at minted
  split at minted
  · cases minted
  next free =>
    split at minted
    · cases minted
    next idle =>
      cases minted
      exact ⟨free, idle, rfl, rfl⟩

/-- What becomes of an answer: nothing is asked under its id, or the question leaves its slot. -/
inductive Resolves (d : AsyncDesk) (id : ℕ) (answer : String) (closing idle : Bool) :
    AsyncDesk × Disposition × Option EventId → Prop
  | unknown (other : ∀ q, d.asyncQuestion = some q → q.id ≠ id) :
      Resolves d id answer closing idle (d, .notDelivered, none)
  | ended (q : OpenQuestion) (asked : d.asyncQuestion = some q) (same : q.id = id)
      (ends : closing = true) :
      Resolves d id answer closing idle
        ({ d with asyncQuestion := none }, .notDelivered, some q.eventId)
  | now (q : OpenQuestion) (asked : d.asyncQuestion = some q) (same : q.id = id)
      (goes : closing = false) (rests : idle = true) :
      Resolves d id answer closing idle
        ({ d with asyncQuestion := none },
          .deliverNow ⟨id, formatAsyncReply q.toAsyncQuestion answer⟩, some q.eventId)
  | queued (q : OpenQuestion) (asked : d.asyncQuestion = some q) (same : q.id = id)
      (goes : closing = false) (works : idle = false) :
      Resolves d id answer closing idle
        ({ d with
            asyncQuestion := none
            replyPending := some ⟨id, formatAsyncReply q.toAsyncQuestion answer⟩ },
          .queuedBusy, some q.eventId)

theorem resolves_resolveAsyncQuestion (d : AsyncDesk) (id : ℕ) (answer : String)
    (closing idle : Bool) :
    Resolves d id answer closing idle (d.resolveAsyncQuestion id answer closing idle) := by
  simp only [resolveAsyncQuestion]
  cases asked : d.asyncQuestion with
  | none => exact .unknown fun q is => by rw [asked] at is; cases is
  | some q =>
    dsimp only
    by_cases same : q.id = id
    · rw [if_neg (not_not_intro same)]
      cases closing with
      | true => exact .ended q asked same rfl
      | false =>
        cases idle with
        | true => exact .now q asked same rfl rfl
        | false => exact .queued q asked same rfl rfl
    · rw [if_pos same]
      refine .unknown fun q' is => ?_
      obtain rfl := Option.some.inj (asked.symm.trans is)
      exact same

end AsyncDesk

end Nelix.Daemon
