import Nelix.Daemon.AsyncDesk
import Nelix.Daemon.SessionSteady

/-!
# Status reads

A status read takes its cursor from the event queue, then the snapshot of the session, and returns
both. A respondable decision is installed while its event is in its publish, so no read can come
between the two; an idle result and an async question are stored after their publish, and a read
can. Beside the slots a run keeps which event they were filled for: `idleEvent` is that of the idle
decision.
-/
namespace Nelix.Daemon

open Core

/-- The decision as a snapshot shows it; the event of an idle is not part of what it shows. -/
inductive ShownDecision
  | idle (frozen : Frozen) (event : EventId)
  | ask (id : DecisionId) (shown : Ask)

def ShownDecision.requiresResponse : ShownDecision → Bool
  | .idle frozen _ => frozen.requiresResponse
  | .ask _ shown => shown.requiresResponse

/-- What `snapshot` shows of the slots. -/
structure Snapshot where
  decision : Option ShownDecision
  asyncQuestion : Option OpenQuestion
  pending : Bool

/-- A status read: the cursor is taken first. -/
structure StatusRead where
  cursor : ℕ
  snapshot : Option Snapshot := none
  returned : Bool := false

/-- A call of `record_async_question` between its two sections. -/
structure Asking where
  question : AsyncQuestion
  id : ℕ
  state : SessionState
  event : Option EventId := none

structure StatusDesk where
  threads : Threads
  desk : AsyncDesk := {}
  askings : List Asking := []
  reads : List StatusRead := []
  lastPublished : EventId := 0
  idleEvent : EventId := 0

/-- A step of the session's threads, of a question's poster, of an answer to it, or of a read.
Other sessions may be forgotten, and the reply slot is the business of its delivery. -/
inductive StatusStep
  | thread (step : Step)
  | sendTurn (clean : String) (now : Time)
  | mintQuestion (q : AsyncQuestion)
  | publishQuestion (c : ℕ) (owner : Option String)
  | storeQuestion (c : ℕ)
  | resolveQuestion (id : ℕ) (answer : String) (terminal : Bool)
  | markAnswered (id : EventId)
  | setReply (reply : Option AsyncReply)
  | forget (session : SessionId)
  | readCursor (board : Bool)
  | readSnapshot (r : ℕ)
  | readReturn (r : ℕ)

/-- Something the orchestrator is to act on. -/
inductive Item
  | ask (id : DecisionId)
  | idle (event : EventId)
  | question (id : ℕ)
  deriving DecidableEq

/-- `self._async_question`, `self._decision`: what a read returns has it. -/
def Snapshot.Carries (snap : Snapshot) : Item → Prop
  | .ask id => ∃ ask, snap.decision = some (.ask id ask)
  | .idle event => ∃ frozen, snap.decision = some (.idle frozen event)
  | .question id => ∃ q, snap.asyncQuestion = some q ∧ q.id = id

namespace StatusDesk

variable (cfg : BeliefConfig)

def setThreads (w : StatusDesk) (t : Threads) : StatusDesk := { w with threads := t }

def setEvents (w : StatusDesk) (events : EventQueue) : StatusDesk :=
  w.setThreads (w.threads.setSession (w.threads.session.setEvents events))

/-- The current decision as `snapshot` copies it. -/
def shownDecision (w : StatusDesk) : Option ShownDecision :=
  match w.threads.session.decision with
  | some (.idle frozen) => some (.idle frozen w.idleEvent)
  | some (.ask id) => (w.threads.session.asks.lookup id).map (.ask id)
  | none => none

/-- `snapshot` -/
def snapshot (w : StatusDesk) : Snapshot where
  decision := w.shownDecision
  asyncQuestion := w.desk.asyncQuestion
  pending := w.shownDecision.any ShownDecision.requiresResponse

/-- The event of what the slots hold now. -/
def current (w : StatusDesk) : Item → Option EventId
  | .ask id =>
    if w.threads.session.currentId = some id then (w.threads.session.stamp id).map Prod.fst
    else none
  | .idle event =>
    match w.threads.session.decision with
    | some (.idle _) => if w.idleEvent = event then some event else none
    | _ => none
  | .question id =>
    (w.desk.asyncQuestion.filter fun q => q.id = id).map (·.eventId)

/-- The arguments of the publish of `record_async_question`. -/
def questionNotice (w : StatusDesk) (asking : Asking) : Notice where
  sessionId := w.threads.session.id
  executor := w.threads.session.executor
  kind := .asyncQuestion
  summary := (asking.question.question.take 200).toString
  state := asking.state
  decisionId := some (.question asking.id)
  requiresResponse := true

/-- The section of the monitor that is next, where it publishes an event or freezes an idle. -/
def noted (w : StatusDesk) (t : Threads) : Step → StatusDesk
  | .chore .. =>
    match w.threads.todo with
    | .commit .. :: _ =>
      { w.setThreads t with lastPublished := w.threads.session.events.nextSeq }
    | .freeze b :: _ =>
      { w.setThreads t with
        idleEvent := if b.notice.kind = .idle then w.lastPublished else w.idleEvent }
    | _ => w.setThreads t
  | _ => w.setThreads t

/-- The publish of `record_async_question`. -/
def publishQuestion (w : StatusDesk) (c : ℕ) (owner : Option String) : StatusDesk :=
  match w.askings[c]? with
  | some asking =>
    let r := w.threads.session.events.publish (w.questionNotice asking) owner fun q _ => (q, ())
    { w.setEvents r.1 with askings := w.askings.set c { asking with event := some r.2.1.seq } }
  | none => w

/-- Its second section. -/
def storeQuestion (w : StatusDesk) (c : ℕ) : StatusDesk :=
  match w.askings[c]? with
  | some asking =>
    match asking.event with
    | some event =>
      { w with
        desk := w.desk.storeQuestion asking.question asking.id event
        askings := w.askings.eraseIdx c }
    | none => w
  | none => w

/-- `latest_seq` of the session, or of the whole board. -/
def readCursor (w : StatusDesk) (board : Bool) : StatusRead where
  cursor := w.threads.session.events.latestSeq
    (if board then .all else .session w.threads.session.id)

def readSnapshot (w : StatusDesk) (r : ℕ) : StatusDesk :=
  match w.reads[r]? with
  | some read =>
    if read.snapshot.isNone then
      { w with reads := w.reads.set r { read with snapshot := some w.snapshot } }
    else w
  | none => w

def readReturn (w : StatusDesk) (r : ℕ) : StatusDesk :=
  match w.reads[r]? with
  | some read => { w with reads := w.reads.set r { read with returned := true } }
  | none => w

def machine : Machine StatusDesk StatusStep Empty where
  step w
    | .thread step => (w.noted ((Threads.machine cfg).step w.threads step).1 step, [])
    | .sendTurn clean now =>
      (w.setThreads (w.threads.setSession (w.threads.session.reopenTurn cfg clean now)), [])
    | .mintQuestion q =>
      match w.desk.mintQuestion with
      | .ok (desk, id) =>
        ({ w with
            desk := desk
            askings := w.askings ++
              [{ question := q, id := id, state := w.threads.session.state }] }, [])
      | .error _ => (w, [])
    | .publishQuestion c owner => (w.publishQuestion c owner, [])
    | .storeQuestion c => (w.storeQuestion c, [])
    | .resolveQuestion id answer terminal =>
      ({ w with
          desk := (w.desk.resolveAsyncQuestion id answer (w.threads.session.closing || terminal)
            (w.threads.session.state == .live .idle)).1 }, [])
    | .markAnswered id => (w.setEvents (w.threads.session.events.markAnswered id).1, [])
    | .setReply reply => ({ w with desk := { w.desk with replyPending := reply } }, [])
    | .forget session =>
      if session = w.threads.session.id then (w, [])
      else (w.setEvents (w.threads.session.events.forgetSession session), [])
    | .readCursor board => ({ w with reads := w.reads ++ [w.readCursor board] }, [])
    | .readSnapshot r => (w.readSnapshot r, [])
    | .readReturn r => (w.readReturn r, [])

/-- A session that was started, on an empty queue; the events of other sessions are published in
the run. -/
def started (id : SessionId) (bound ownerFloor : ℕ) : StatusDesk where
  threads := .started id { bound := bound, ownerFloor := ownerFloor }

/-- What a read returned whose cursor is not before the event of a decision, an idle result or a
question that the slots hold now: its snapshot carries it. -/
def CoversCurrent (w : StatusDesk) : Prop :=
  ∀ read ∈ w.reads, read.returned = true → ∀ snap, read.snapshot = some snap →
    ∀ item event, w.current item = some event → event ≤ read.cursor → snap.Carries item

/-- The event whose idle result or question the step puts in its slot. -/
def filling (w : StatusDesk) : StatusStep → Option EventId
  | .thread (.chore ..) =>
    match w.threads.todo with
    | .freeze b :: _ => if b.notice.kind = .idle then some w.lastPublished else none
    | _ => none
  | .storeQuestion c => w.askings[c]?.bind Asking.event
  | _ => none

/-- No read took its cursor after the publish of what the step stores, and its snapshot before
this step. -/
def Unread (w : StatusDesk) (step : StatusStep) : Prop :=
  ∀ event ∈ w.filling step, ∀ read ∈ w.reads, read.snapshot.isSome = true → read.cursor < event

instance (w : StatusDesk) (step : StatusStep) : Decidable (w.Unread step) :=
  inferInstanceAs (Decidable (∀ event ∈ w.filling step, ∀ read ∈ w.reads, _))

/-- The slots and the reads against the queue: of the items in `p`, the ones that a snapshot misses
are newer than its cursor. -/
structure Covered (p : Item → Prop) (w : StatusDesk) : Prop where
  ahead : w.threads.session.events.Ahead
  behind : ∀ read ∈ w.reads, read.cursor < w.threads.session.events.nextSeq
  covers : ∀ read ∈ w.reads, ∀ snap, read.snapshot = some snap → ∀ item event, p item →
    w.current item = some event → event ≤ read.cursor → snap.Carries item

variable {p : Item → Prop} {w : StatusDesk}

/-- A step that takes the queue on, and after which the slots hold nothing older than before. -/
theorem Covered.later (covered : Covered p w) {w' : StatusDesk} (reads : w'.reads = w.reads)
    (events : w.threads.session.events.Later w'.threads.session.events)
    (current : ∀ item event, p item → w'.current item = some event →
      w.current item = some event ∨ ∀ read ∈ w.reads, read.snapshot.isSome = true →
        read.cursor < event) :
    Covered p w' where
  ahead := events.ahead covered.ahead
  behind := by
    rw [reads]
    exact fun read member => lt_of_lt_of_le (covered.behind read member) events.next
  covers := by
    rw [reads]
    intro read member snap taken item event chosen is notAfter
    rcases current item event chosen is with old | newer
    · exact covered.covers read member snap taken item event chosen old notAfter
    · exact absurd notAfter (Nat.not_le.mpr (newer read member (by rw [taken]; rfl)))

/-- The slots may lose what they hold. -/
theorem current_of_kept {w' : StatusDesk}
    (decision : ∀ d, w'.threads.session.decision = some d → w.threads.session.decision = some d)
    (stamp : ∀ id, w'.threads.session.stamp id = w.threads.session.stamp id)
    (idleEvent : w'.idleEvent = w.idleEvent)
    (asked : ∀ q, w'.desk.asyncQuestion = some q → w.desk.asyncQuestion = some q)
    {item : Item} {event : EventId} (is : w'.current item = some event) :
    w.current item = some event := by
  cases item with
  | ask id =>
    simp only [current, Option.ite_none_right_eq_some, Session.currentId_iff] at is ⊢
    exact ⟨decision _ is.1, by rw [← stamp]; exact is.2⟩
  | idle e =>
    simp only [current] at is ⊢
    split at is
    next frozen idle =>
      rw [decision _ idle, ← idleEvent]
      exact is
    next => cases is
  | question id =>
    simp only [current, Option.map_eq_some_iff, Option.filter_eq_some_iff] at is ⊢
    obtain ⟨q, ⟨kept, same⟩, number⟩ := is
    exact ⟨q, ⟨asked q kept, same⟩, number⟩

theorem snapshot_carries {item : Item} {event : EventId} (is : w.current item = some event) :
    w.snapshot.Carries item := by
  cases item with
  | ask id =>
    simp only [current, Option.ite_none_right_eq_some, Session.currentId_iff, Session.stamp,
      Option.map_map, Option.map_eq_some_iff] at is
    obtain ⟨decision, ask, found, -⟩ := is
    exact ⟨ask, by simp only [snapshot, shownDecision, decision, found, Option.map_some]⟩
  | idle e =>
    simp only [current] at is
    split at is
    next frozen decision =>
      obtain ⟨rfl, -⟩ := Option.ite_none_right_eq_some.mp is
      exact ⟨frozen, by simp only [snapshot, shownDecision, decision]⟩
    next => cases is
  | question id =>
    simp only [current, Option.map_eq_some_iff, Option.filter_eq_some_iff] at is
    obtain ⟨q, ⟨kept, same⟩, -⟩ := is
    exact ⟨q, kept, by simpa using same⟩

/-- A step that neither publishes nor fills a slot. -/
theorem Covered.keep (covered : Covered p w) {w' : StatusDesk} (reads : w'.reads = w.reads)
    (events : w.threads.session.events.Later w'.threads.session.events)
    (decision : ∀ d, w'.threads.session.decision = some d → w.threads.session.decision = some d)
    (stamp : ∀ id, w'.threads.session.stamp id = w.threads.session.stamp id)
    (idleEvent : w'.idleEvent = w.idleEvent)
    (asked : ∀ q, w'.desk.asyncQuestion = some q → w.desk.asyncQuestion = some q) :
    Covered p w' :=
  covered.later reads events fun _ _ _ is =>
    .inl (current_of_kept decision stamp idleEvent asked is)

/-- Where the monitor neither publishes nor freezes, the numbers stand. -/
theorem noted_eq {t : Threads} {step : Step}
    (other : ∀ written now, step = .chore written now →
      (∀ b owner rest, w.threads.todo ≠ .commit b owner :: rest) ∧
        ∀ b rest, w.threads.todo ≠ .freeze b :: rest) :
    w.noted t step = w.setThreads t := by
  cases step with
  | chore written now =>
    obtain ⟨commits, freezes⟩ := other written now rfl
    cases todo : w.threads.todo with
    | nil => simp only [noted, todo]
    | cons chore rest =>
      cases chore with
      | commit b owner => exact absurd todo (commits b owner rest)
      | freeze b => exact absurd todo (freezes b rest)
      | _ => simp only [noted, todo]
  | _ => rfl

theorem covered_thread (covered : Covered p w) (step : Step)
    (fills : (∀ item, p item → ∃ id, item = .ask id) ∨ w.Unread (.thread step)) :
    Covered p (w.noted ((Threads.machine cfg).step w.threads step).1 step) := by
  have slots := Threads.step_section cfg (t := w.threads) step
  generalize ((Threads.machine cfg).step w.threads step).1 = t at slots ⊢
  generalize session : t.session = s at slots
  cases slots with
  | steady _ _ passive steady =>
    subst session
    rw [noted_eq (fun written now is => ?_)]
    · exact covered.keep rfl steady.events steady.decision steady.stamp rfl fun _ is => is
    · subst is
      refine ⟨fun b owner rest todo => ?_, fun b rest todo => ?_⟩
      · rw [Threads.acts, todo] at passive
        cases passive
      · rw [Threads.acts, todo] at passive
        cases passive
  | caches obs begins =>
    have still : t.session.decision = w.threads.session.decision ∧
        t.session.asks = w.threads.session.asks ∧
        t.session.events = w.threads.session.events := by
      rw [session, Session.cacheLastModalOptions]
      split <;> exact ⟨rfl, rfl, rfl⟩
    rw [noted_eq (fun _ _ is => by cases is)]
    refine covered.keep rfl ?_ (fun d is => ?_) (fun id => ?_) rfl fun _ is => is
    · exact still.2.2 ▸ .refl _
    · exact still.1 ▸ is
    · rw [Session.stamp, Session.stamp, ← still.2.1]
      rfl
  | builds a view rest written now todo =>
    have builds := Session.build_buildsOn (s := w.threads.session) a view
    rw [← session] at builds
    rw [noted_eq (fun _ _ _ => ⟨fun _ _ _ other => ?_, fun _ _ other => ?_⟩)]
    · refine covered.keep rfl ?_ (fun d is => ?_) (fun id => ?_) rfl fun _ is => is
      · exact builds.events ▸ .refl _
      · exact builds.decision ▸ is
      · rw [Session.stamp, Session.stamp, ← builds.asks]
        rfl
    · rw [todo] at other
      cases other
    · rw [todo] at other
      cases other
  | commits b owner rest written now todo =>
    have effect := Session.commit_commitsOn (s := w.threads.session) b owner
    rw [← session] at effect
    have noted : w.noted t (.chore written now) =
        { w.setThreads t with lastPublished := w.threads.session.events.nextSeq } := by
      simp only [StatusDesk.noted, todo]
    rw [noted]
    refine covered.later rfl effect.later fun item event _ is => ?_
    have newer : event = w.threads.session.events.nextSeq →
        ∀ read ∈ w.reads, read.snapshot.isSome = true → read.cursor < event := by
      rintro rfl read member _
      exact covered.behind read member
    cases item with
    | ask id =>
      simp only [current, Option.ite_none_right_eq_some, Session.currentId_iff,
        Option.map_eq_some_iff] at is ⊢
      obtain ⟨isCurrent, ⟨number, g⟩, stamped, rfl⟩ := is
      rcases effect.stamp id with same | ⟨g', fresh⟩
      · rcases effect.decision with old | ⟨ask, -, installed, g', fresh⟩
        · exact .inl ⟨old ▸ isCurrent, (number, g), same ▸ stamped, rfl⟩
        · -- the decision that is installed has this event
          cases installed.symm.trans isCurrent
          cases fresh.symm.trans stamped
          exact .inr (newer rfl)
      · cases fresh.symm.trans stamped
        exact .inr (newer rfl)
    | idle e =>
      refine .inl ?_
      simp only [current] at is ⊢
      rcases effect.decision with old | ⟨ask, -, installed, -⟩
      · rw [← old]
        exact is
      · have isAsk : (w.setThreads t).threads.session.decision = some (.ask ask.decisionId) :=
          installed
        rw [isAsk] at is
        cases is
    | question id => exact .inl is
  | freezes b rest written now todo =>
    have noted : w.noted t (.chore written now) =
        { w.setThreads t with
          idleEvent := if b.notice.kind = .idle then w.lastPublished else w.idleEvent } := by
      simp only [StatusDesk.noted, todo]
    rw [noted]
    by_cases idle : b.notice.kind = .idle
    · have frozen : t.session = w.threads.session.setDecision (some (.idle b.frozen)) := by
        rw [session, Session.freezeIdle, if_pos idle]
      have events : w.threads.session.events.Later t.session.events := by
        rw [frozen]
        exact .refl _
      refine covered.later rfl events fun item event chosen is => ?_
      cases item with
      | ask id =>
        simp only [current, Option.ite_none_right_eq_some, Session.currentId_iff] at is
        have isCurrent : t.session.decision = some (.ask id) := is.1
        rw [frozen] at isCurrent
        cases isCurrent
      | idle e =>
        have number : event = w.lastPublished := by
          simp only [current, if_pos idle] at is
          split at is
          · obtain ⟨rfl, same⟩ := Option.ite_none_right_eq_some.mp is
            exact (Option.some.inj same).symm
          · cases is
        -- the idle's own event: no read is to have seen it
        rcases fills with asks | unread
        · obtain ⟨id, isAsk⟩ := asks _ chosen
          cases isAsk
        · refine .inr (unread event ?_)
          rw [filling, todo, number]
          exact if_pos idle
      | question id => exact .inl is
    · have same : t.session = w.threads.session := by
        rw [session, Session.freezeIdle, if_neg idle]
      have steady : Session.Steady w.threads.session t.session := by
        rw [same]
        exact .refl _
      exact covered.keep rfl steady.events steady.decision steady.stamp (if_neg idle)
        fun _ is => is

theorem Covered.setEvents (covered : Covered p w) {events : EventQueue}
    (later : w.threads.session.events.Later events) : Covered p (w.setEvents events) :=
  covered.keep rfl later (fun _ is => is) (fun _ => rfl) rfl fun _ is => is

theorem covered_publishQuestion (covered : Covered p w) (c : ℕ) (owner : Option String) :
    Covered p (w.publishQuestion c owner) := by
  simp only [publishQuestion]
  split
  next asking found =>
    exact covered.keep rfl (EventQueue.publish_later _ _ fun q _ => .refl q).1 (fun _ is => is)
      (fun _ => rfl) rfl fun _ is => is
  next => exact covered

theorem covered_storeQuestion (covered : Covered p w) (c : ℕ)
    (fills : (∀ item, p item → ∃ id, item = .ask id) ∨ w.Unread (.storeQuestion c)) :
    Covered p (w.storeQuestion c) := by
  simp only [storeQuestion]
  cases found : w.askings[c]? with
  | none => exact covered
  | some asking =>
    cases published : asking.event with
    | none =>
      simp only [published]
      exact covered
    | some event =>
      simp only [published]
      refine covered.later rfl (.refl _) fun item number chosen is => ?_
      cases item with
      | ask | idle => exact .inl is
      | question id =>
        rcases fills with asks | unread
        · obtain ⟨other, isAsk⟩ := asks _ chosen
          cases isAsk
        · simp only [current, AsyncDesk.storeQuestion, Option.map_eq_some_iff,
            Option.filter_eq_some_iff] at is
          obtain ⟨q, ⟨kept, -⟩, rfl⟩ := is
          cases kept
          refine .inr (unread event ?_)
          rw [filling, found, Option.bind_some, published]
          rfl

theorem covered_readCursor (covered : Covered p w) (board : Bool) :
    Covered p { w with reads := w.reads ++ [w.readCursor board] } where
  ahead := covered.ahead
  behind read member := by
    rcases List.mem_append.mp member with old | new
    · exact covered.behind read old
    · rw [List.mem_singleton.mp new]
      exact covered.ahead.latestSeq_lt _
  covers read member snap taken := by
    rcases List.mem_append.mp member with old | new
    · exact covered.covers read old snap taken
    · rw [List.mem_singleton.mp new] at taken
      cases taken

/-- What the slots hold is in the snapshot when it is taken. -/
theorem covered_readSnapshot (covered : Covered p w) (r : ℕ) : Covered p (w.readSnapshot r) := by
  simp only [readSnapshot]
  split
  next read found =>
    split
    · have known := List.mem_of_getElem? found
      refine ⟨covered.ahead, fun other member => ?_, fun other member snap taken item event _ is _ => ?_⟩
      · rcases List.mem_or_eq_of_mem_set member with old | rfl
        · exact covered.behind other old
        · exact covered.behind read known
      · rcases List.mem_or_eq_of_mem_set member with old | rfl
        · exact covered.covers other old snap taken item event ‹_› is ‹_›
        · cases taken
          exact snapshot_carries is
    · exact covered
  next => exact covered

theorem covered_readReturn (covered : Covered p w) (r : ℕ) : Covered p (w.readReturn r) := by
  simp only [readReturn]
  split
  next read found =>
    have known := List.mem_of_getElem? found
    refine ⟨covered.ahead, fun other member => ?_, fun other member => ?_⟩
    · rcases List.mem_or_eq_of_mem_set member with old | rfl
      · exact covered.behind other old
      · exact covered.behind read known
    · rcases List.mem_or_eq_of_mem_set member with old | rfl
      · exact covered.covers other old
      · exact covered.covers read known
  next => exact covered

/-- A step keeps the reads covered, where it fills no slot with what a read has passed over. -/
theorem covered_step {step : StatusStep} (covered : Covered p w)
    (fills : (∀ item, p item → ∃ id, item = .ask id) ∨ w.Unread step) :
    Covered p ((machine cfg).step w step).1 := by
  cases step with
  | thread step => exact covered_thread cfg covered step fills
  | sendTurn clean now =>
    exact covered.keep rfl (.refl _) (fun d is => by cases is) (fun _ => rfl) rfl fun _ is => is
  | mintQuestion q =>
    simp only [machine]
    split
    next desk id minted =>
      obtain ⟨-, -, -, rfl⟩ := AsyncDesk.mintQuestion_ok minted
      exact covered.keep rfl (.refl _) (fun _ is => is) (fun _ => rfl) rfl fun _ is => is
    next => exact covered
  | publishQuestion c owner => exact covered_publishQuestion covered c owner
  | storeQuestion c => exact covered_storeQuestion covered c fills
  | resolveQuestion id answer terminal =>
    have resolves := w.desk.resolves_resolveAsyncQuestion id answer
      (w.threads.session.closing || terminal) (w.threads.session.state == .live .idle)
    simp only [machine]
    generalize w.desk.resolveAsyncQuestion id answer (w.threads.session.closing || terminal)
      (w.threads.session.state == .live .idle) = r at resolves ⊢
    refine covered.keep rfl (.refl _) (fun _ is => is) (fun _ => rfl) rfl fun q is => ?_
    cases resolves with
    | unknown => exact is
    | ended | now | queued => cases is
  | markAnswered id => exact covered.setEvents (EventQueue.markAnswered_framed id).later
  | setReply reply =>
    exact covered.keep rfl (.refl _) (fun _ is => is) (fun _ => rfl) rfl fun _ is => is
  | forget session =>
    simp only [machine]
    split
    · exact covered
    · exact covered.setEvents (EventQueue.forgetSession_later session)
  | readCursor board => exact covered_readCursor covered board
  | readSnapshot r => exact covered_readSnapshot covered r
  | readReturn r => exact covered_readReturn covered r

theorem covered_started (id : SessionId) (bound ownerFloor : ℕ) :
    Covered p (started id bound ownerFloor) where
  ahead := { all := Nat.zero_lt_one, session := fun _ _ found => by cases found }
  behind _ member := by cases member
  covers _ member := by cases member

/-- A respondable decision is never missed, whatever the order of the steps. -/
theorem decisions_covered (id : SessionId) (bound ownerFloor : ℕ) (run : List StatusStep) :
    Covered (fun item => ∃ d, item = .ask d)
      ((machine cfg).after (started id bound ownerFloor) run) :=
  (machine cfg).invariant_after (Covered fun item => ∃ d, item = .ask d)
    (fun _ _ covered => covered_step cfg covered (.inl fun _ is => is))
    (covered_started id bound ownerFloor) run

/-- Nor is an idle result or a question, in a run that stores none of them behind a read that has
passed over its event. -/
theorem reads_cover (id : SessionId) (bound ownerFloor : ℕ) (run : List StatusStep)
    (unread : (machine cfg).Along Unread (started id bound ownerFloor) run) :
    CoversCurrent ((machine cfg).after (started id bound ownerFloor) run) := by
  have covered := (machine cfg).invariant_along (Covered fun _ => True)
    (fun _ _ covered unread => covered_step cfg covered (.inr unread))
    (covered_started id bound ownerFloor) unread
  intro read member _ snap taken item event is notAfter
  exact covered.covers read member snap taken item event trivial is notAfter

/-- A question is asked, and its event is published. -/
def questionAsked : List StatusStep :=
  [.mintQuestion { question := "Which port?", continuationPlan := "use 8080" },
    .publishQuestion 0 none]

/-- A read comes once the question is stored. -/
def readAfterwards : List StatusStep :=
  questionAsked ++ [.storeQuestion 0, .readCursor false, .readSnapshot 0, .readReturn 0]

/-- It comes between the publish and the store. -/
def readBetween : List StatusStep :=
  questionAsked ++ [.readCursor false, .readSnapshot 0, .storeQuestion 0, .readReturn 0]

theorem readAfterwards_covers :
    CoversCurrent ((machine {}).after (started "s" 2048 64) readAfterwards) ∧
      ((machine {}).after (started "s" 2048 64) readAfterwards).current (.question 1) = some 1 :=
  ⟨reads_cover {} "s" 2048 64 readAfterwards (by decide +kernel), by decide +kernel⟩

/-- The question is missed, and no event after the cursor will tell of it. -/
theorem readBetween_misses :
    ¬ CoversCurrent ((machine {}).after (started "s" 2048 64) readBetween) ∧
      ((machine {}).after (started "s" 2048 64) readBetween).threads.session.events.latestAfter 1
        (.session "s") = .nothing := by
  refine ⟨fun covers => ?_, by decide +kernel⟩
  have asked : ((machine {}).after (started "s" 2048 64) readBetween).current (.question 1) =
      some 1 := by decide +kernel
  have read : ((machine {}).after (started "s" 2048 64) readBetween).reads.map
      (fun read => (read.cursor, read.returned, read.snapshot.map (·.asyncQuestion))) =
        [(1, true, some none)] := by decide +kernel
  have listed : (1, true, some none) ∈ ((machine {}).after (started "s" 2048 64)
      readBetween).reads.map
        (fun read => (read.cursor, read.returned, read.snapshot.map (·.asyncQuestion))) := by
    rw [read]
    exact List.mem_singleton_self _
  obtain ⟨first, member, is⟩ := List.mem_map.mp listed
  simp only [Prod.mk.injEq, Option.map_eq_some_iff] at is
  obtain ⟨cursor, returned, snap, taken, shows⟩ := is
  obtain ⟨q, shown, -⟩ := covers first member returned snap taken (.question 1) 1 asked cursor.ge
  rw [shows] at shown
  cases shown

end StatusDesk

end Nelix.Daemon
