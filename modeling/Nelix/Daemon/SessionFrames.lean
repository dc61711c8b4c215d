import Nelix.Daemon.SessionThreads

/-!
# What the steps of a session's threads touch

Most sections of a session leave the current decision, the answer slots and the identities of all
decisions as they were (`Alike`). What the others do is said once for each: the drains of the two
slots, the delivery of the task, the two sections of a publish, and the next step of a call
(`advance_effect`).
-/
namespace Nelix.Daemon

namespace Session

/-- A decision keeps its id and its kind for good. -/
def nature (s : Session) (id : DecisionId) : Option (DecisionId × EventKind) :=
  (s.asks.lookup id).map fun ask => (ask.decisionId, ask.kind)

/-- Neither the current decision nor an answer slot has changed. -/
structure Alike (s s' : Session) : Prop where
  id : s'.id = s.id
  current : s'.currentId = s.currentId
  answer : s'.pendingAnswer = s.pendingAnswer
  submit : s'.pendingSubmit = s.pendingSubmit
  minted : s'.nextDecision = s.nextDecision
  delivery : s'.taskDelivery = s.taskDelivery
  nature : ∀ id, s'.nature id = s.nature id

theorem Alike.refl (s : Session) : Alike s s :=
  ⟨rfl, rfl, rfl, rfl, rfl, rfl, fun _ => rfl⟩

theorem Alike.trans {s s' s'' : Session} (first : Alike s s') (second : Alike s' s'') :
    Alike s s'' where
  id := second.id.trans first.id
  current := second.current.trans first.current
  answer := second.answer.trans first.answer
  submit := second.submit.trans first.submit
  minted := second.minted.trans first.minted
  delivery := second.delivery.trans first.delivery
  nature id := (second.nature id).trans (first.nature id)

theorem nature_insert {s : Session} {id other : DecisionId} {ask : Ask} :
    ({ s with asks := s.asks.insert id ask } : Session).nature other =
      if other = id then some (ask.decisionId, ask.kind) else s.nature other := by
  simp only [nature]
  split
  next same =>
    subst same
    rw [AList.lookup_insert, Option.map_some]
  next differ => rw [AList.lookup_insert_ne differ]

theorem updateAsk_alike (s : Session) (id : DecisionId) {f : Ask → Ask}
    (keepsId : ∀ ask, (f ask).decisionId = ask.decisionId)
    (keepsKind : ∀ ask, (f ask).kind = ask.kind) :
    Alike s (s.updateAsk id f) ∧ (s.updateAsk id f).events = s.events := by
  simp only [updateAsk]
  split
  next ask found =>
    refine ⟨⟨rfl, rfl, rfl, rfl, rfl, rfl, ?_⟩, rfl⟩
    intro other
    rw [nature_insert]
    split
    next same => rw [same, nature, found, keepsId, keepsKind, Option.map_some]
    next => rfl
  next => exact ⟨.refl s, rfl⟩

theorem fillOptions_alike (s : Session) (id : DecisionId) (options : List MenuOption) :
    Alike s (s.updateAsk id (fillOptions options)) ∧
      (s.updateAsk id (fillOptions options)).events = s.events := by
  refine updateAsk_alike s id (fun ask => ?_) (fun ask => ?_) <;> rw [fillOptions] <;> split <;> rfl

theorem enrichHookModalOptions_alike (s : Session) (obs : Observation) :
    Alike s (s.enrichHookModalOptions obs) ∧ (s.enrichHookModalOptions obs).events = s.events := by
  simp only [enrichHookModalOptions]
  split
  · split
    · exact fillOptions_alike ..
    · exact ⟨.refl s, rfl⟩
  · exact ⟨.refl s, rfl⟩

theorem hydrateRespondOptions_alike (s : Session) (id : DecisionId) :
    Alike s (s.hydrateRespondOptions id) ∧ (s.hydrateRespondOptions id).events = s.events := by
  simp only [hydrateRespondOptions]
  split
  · split
    · exact fillOptions_alike ..
    · exact ⟨.refl s, rfl⟩
  · exact ⟨.refl s, rfl⟩

theorem cacheLastModalOptions_alike (s : Session) (obs : Observation) :
    Alike s (s.cacheLastModalOptions obs) ∧ (s.cacheLastModalOptions obs).events = s.events := by
  simp only [cacheLastModalOptions]
  split <;> exact ⟨⟨rfl, rfl, rfl, rfl, rfl, rfl, fun _ => rfl⟩, rfl⟩

theorem recordSubmit_alike (cfg : BeliefConfig) (s : Session) (clean : String) (now : Time) :
    Alike s (s.recordSubmit cfg clean now) ∧ (s.recordSubmit cfg clean now).events = s.events :=
  ⟨⟨rfl, rfl, rfl, rfl, rfl, rfl, fun _ => rfl⟩, rfl⟩

theorem resolve_alike (s : Session) (id : DecisionId) (reason : ResolvedReason) :
    Alike s (s.resolve id reason).1 :=
  ⟨rfl, rfl, rfl, rfl, rfl, rfl, fun _ => rfl⟩

theorem mirrorControl_alike (s : Session) :
    Alike s s.mirrorControl ∧ s.mirrorControl.events = s.events := by
  simp only [mirrorControl]
  split
  · exact ⟨.refl s, rfl⟩
  · exact ⟨⟨rfl, rfl, rfl, rfl, rfl, rfl, fun _ => rfl⟩, rfl⟩

/-- An idle decision is dropped at most, which nobody can answer. -/
theorem dropStaleIdle_alike (s : Session) :
    Alike s s.dropStaleIdle ∧ s.dropStaleIdle.events = s.events := by
  simp only [dropStaleIdle]
  split
  next idle =>
    split
    · refine ⟨⟨rfl, ?_, rfl, rfl, rfl, rfl, fun _ => rfl⟩, rfl⟩
      simp only [currentId, setDecision, idle]
    · exact ⟨.refl s, rfl⟩
  next => exact ⟨.refl s, rfl⟩

theorem syncControlState_alike (s : Session) (engine : BeliefEngine) :
    Alike s ({ s with engine := engine } : Session).syncControlState ∧
      ({ s with engine := engine } : Session).syncControlState.events = s.events := by
  have mirrored := mirrorControl_alike { s with engine := engine }
  have dropped := dropStaleIdle_alike ({ s with engine := engine } : Session).mirrorControl
  have told : Alike s { s with engine := engine } :=
    ⟨rfl, rfl, rfl, rfl, rfl, rfl, fun _ => rfl⟩
  exact ⟨(told.trans mirrored.1).trans dropped.1, dropped.2.trans mirrored.2⟩

theorem drainHook_alike (cfg : BeliefConfig) (s : Session) (hobs : HookObservation) (now : Time) :
    Alike s (s.drainHook cfg hobs now).1 ∧ (s.drainHook cfg hobs now).1.events = s.events :=
  syncControlState_alike s _

theorem tick_alike (cfg : BeliefConfig) (s : Session) (obs : Observation) (ctx : ObservationCtx)
    (now : Time) :
    Alike s (s.tick cfg obs ctx now).1 ∧ (s.tick cfg obs ctx now).1.events = s.events :=
  syncControlState_alike s _

/-! ### The operations of the monitor -/

/-- What is taken down is the current decision. -/
theorem takeDown_cases (s : Session) (key : DecisionKey) :
    (∃ id, s.currentId = some id ∧
      s.takeDown key = ((s.setDecision none).setState (.live .busy), some id)) ∨
      s.takeDown key = (s, none) := by
  simp only [takeDown]
  by_cases owns : s.currentKey = some (.engine key)
  · rw [if_pos owns]
    cases current : s.currentId with
    | none =>
      rw [currentKey, currentAsk, current] at owns
      cases owns
    | some id => exact .inl ⟨id, rfl, rfl⟩
  · rw [if_neg owns]
    exact .inr rfl

/-- What a drain of the answer slot can do. -/
inductive AnswerEffect (s : Session) (obs : Observation) (bodyFp : Option String) :
    Session × Option (PendingAnswer × Bool) → Prop
  | empty (free : s.pendingAnswer = none) : AnswerEffect s obs bodyFp (s, none)
  | write (pa : PendingAnswer) (slot : s.pendingAnswer = some pa)
      (blocked : s.blockedOn pa.decisionId = true) :
      AnswerEffect s obs bodyFp
        (({ s with pendingAnswer := none } : Session).setDecision none, some (pa, true))
  | abort (pa : PendingAnswer) (slot : s.pendingAnswer = some pa)
      (misfits : ¬ (s.blockedOn pa.decisionId = true ∧ answersFrame pa obs bodyFp = true)) :
      AnswerEffect s obs bodyFp ({ s with pendingAnswer := none }, some (pa, false))

theorem claimAnswer_effect (s : Session) (obs : Observation) (bodyFp : Option String) :
    AnswerEffect s obs bodyFp (s.claimAnswer obs bodyFp) := by
  simp only [claimAnswer]
  split
  next free => exact .empty free
  next pa slot =>
    split
    next fits => exact .write pa slot fits.1
    next misfits => exact .abort pa slot misfits

/-- What the delivery of the task does to a prompt that is still pending. -/
inductive DeliveryEffect (s : Session) :
    Session × Option DecisionId × Option PendingAnswer → Prop
  | retires (id n : DecisionId) (task : Option String) (engine : BeliefEngine)
      (current : s.currentId = some id) (blocked : s.nature id = some (n, .blocked)) :
      DeliveryEffect s
        ({ s with
            taskDelivery := .delivered, lastSubmitted := task, engine := engine
            decision := none, pendingAnswer := none },
          some id, s.pendingAnswer)
  | keeps (task : Option String) (engine : BeliefEngine)
      (other : ∀ id n, s.currentId = some id → s.nature id ≠ some (n, .blocked)) :
      DeliveryEffect s
        ({ s with
            taskDelivery := .delivered, lastSubmitted := task, engine := engine
            pendingAnswer := none },
          none, s.pendingAnswer)

theorem confirmDelivery_effect (s : Session) (cfg : BeliefConfig) (task : String)
    (hookCapable : Bool) (now : Time) :
    DeliveryEffect s (s.confirmDelivery cfg task hookCapable now) := by
  have retired : ∀ id ask, s.currentId = some id → s.asks.lookup id = some ask →
      s.currentAsk = some ask := by
    intro id ask current found
    rw [currentAsk, current, Option.bind_some, found]
  simp only [confirmDelivery]
  cases is : s.currentAsk with
  | none =>
    refine .keeps _ _ fun id n current blocked => ?_
    rw [nature, Option.map_eq_some_iff] at blocked
    obtain ⟨ask, found, -⟩ := blocked
    rw [retired id ask current found] at is
    cases is
  | some ask =>
    rw [currentAsk, Option.bind_eq_some_iff] at is
    obtain ⟨id, current, found⟩ := is
    by_cases blocked : ask.kind = .blocked
    · simp only [blocked, if_true, current, Option.isSome_some]
      exact .retires id ask.decisionId _ _ current (by rw [nature, found, Option.map_some, blocked])
    · simp only [if_neg blocked, Option.isSome_none, Bool.false_eq_true, if_false]
      refine .keeps _ _ fun id' n current' is => blocked ?_
      obtain rfl : id = id' := Option.some.inj (current.symm.trans current')
      rw [nature, found, Option.map_some, Option.some.injEq, Prod.mk.injEq] at is
      exact is.2

/-! ### Publishing -/

/-- Which id a decision is built under. -/
inductive BuildEffect (s : Session) : Session × Built → Prop
  | plain (s' : Session) (b : Built) (alike : Alike s s') (events : s'.events = s.events)
      (ask : b.ask = none) : BuildEffect s (s', b)
  | again (s' : Session) (b : Built) (ask : Ask) (id : DecisionId) (alike : Alike s s')
      (events : s'.events = s.events) (is : b.ask = some ask) (reemit : b.isReemit = true)
      (current : s.currentId = some id) (filed : ∃ kind, s.nature id = some (ask.decisionId, kind)) :
      BuildEffect s (s', b)
  | first (s' : Session) (b : Built) (ask : Ask)
      (alike : Alike s { s' with nextDecision := s.nextDecision })
      (events : s'.events = s.events) (minted : s'.nextDecision = s.nextDecision + 1)
      (is : b.ask = some ask) (fresh : ask.decisionId = .dec s.id s.nextDecision) :
      BuildEffect s (s', b)

theorem build_effect (s : Session) (a : Announcement) (view : View) :
    BuildEffect s (s.build a view) := by
  simp only [build]
  have excerpt : Alike s { s with lastScreenExcerpt := view.screen } :=
    ⟨rfl, rfl, rfl, rfl, rfl, rfl, fun _ => rfl⟩
  split
  · have fresh : ∀ notice reemit, BuildEffect s
        ((({ s with lastScreenExcerpt := view.screen } : Session).mint a (s.freeze a view)).1,
          ⟨notice, s.freeze a view,
            some (({ s with lastScreenExcerpt := view.screen } : Session).mint a
              (s.freeze a view)).2, reemit⟩) :=
      fun _ _ => .first _ _ _ ⟨rfl, rfl, rfl, rfl, rfl, rfl, fun _ => rfl⟩ rfl rfl rfl rfl
    simp only [identify, isReemit]
    cases is : currentAsk { s with lastScreenExcerpt := view.screen } with
    | none => exact fresh _ _
    | some ask =>
      by_cases same : ask.decisionKey = a.decisionKey
      · simp only [same, beq_self_eq_true]
        have filed := is
        rw [currentAsk, Option.bind_eq_some_iff] at filed
        obtain ⟨id, current, found⟩ := filed
        refine .again _ _ _ id excerpt rfl rfl rfl current ⟨ask.kind, ?_⟩
        change (s.asks.lookup id).map _ = _
        rw [show s.asks.lookup id = some ask from found]
        rfl
      · simp only [if_neg same]
        exact fresh _ _
  · exact .plain _ _ excerpt rfl rfl

/-- Building a decision changes no more than the supply of ids. -/
theorem build_alike (s : Session) (a : Announcement) (view : View) :
    Alike s { (s.build a view).1 with nextDecision := s.nextDecision } ∧
      s.nextDecision ≤ (s.build a view).1.nextDecision ∧
      (s.build a view).1.events = s.events := by
  have effect := Session.build_effect s a view
  generalize s.build a view = r at effect ⊢
  cases effect with
  | plain _ _ alike events | again _ _ _ _ alike events =>
    exact ⟨⟨alike.id, alike.current, alike.answer, alike.submit, rfl, alike.delivery,
      alike.nature⟩, alike.minted.ge, events⟩
  | first _ _ _ alike events next => exact ⟨alike, by rw [next]; exact Nat.le_succ _, events⟩

/-- What the publish of a built decision installs. -/
inductive CommitEffect (s : Session) (b : Built) (owner : Option String) : Session → Prop
  | plain (s' : Session) (passive : b.ask = none) (alike : Alike s s')
      (events : s'.events =
        (s.events.publish { b.notice with state := s.state } owner fun q _ => (q, ())).1) :
      CommitEffect s b owner s'
  | refreshed (s' : Session) (ask : Ask) (is : b.ask = some ask)
      (current : s.currentId = some ask.decisionId) (alike : Alike s s')
      (events : s'.events =
        (s.events.publish { b.notice with state := s.state } owner fun q _ => (q, ())).1) :
      CommitEffect s b owner s'
  | obsolete (s' : Session) (ask : Ask) (is : b.ask = some ask) (reemit : b.isReemit = true)
      (other : s.currentId ≠ some ask.decisionId) (alike : Alike s s')
      (events : s'.events =
        (s.events.publish { b.notice with state := s.state } owner
          fun q e => (q.mark e.seq .superseded, ())).1) :
      CommitEffect s b owner s'
  | installed (s' : Session) (ask : Ask) (is : b.ask = some ask) (first : b.isReemit = false)
      (current : s'.currentId = some ask.decisionId)
      (nature : ∀ id, s'.nature id =
        if id = ask.decisionId then some (ask.decisionId, ask.kind) else s.nature id)
      (fields : s'.id = s.id ∧ s'.pendingAnswer = s.pendingAnswer ∧
        s'.pendingSubmit = s.pendingSubmit ∧ s'.nextDecision = s.nextDecision ∧
        s'.taskDelivery = s.taskDelivery)
      (events : s'.events =
        (s.events.publish { b.notice with state := s.state } owner
          fun q _ => (supersede q s.currentId ask.decisionId, ())).1) :
      CommitEffect s b owner s'

theorem refresh_alike (s : Session) (ask : Ask) (e : Event) (id : DecisionId) :
    Alike s (s.updateAsk id (refresh ask e)) := by
  refine (updateAsk_alike s id (fun current => ?_) (fun current => ?_)).1 <;>
    simp only [refresh] <;> split <;> rfl

theorem commit_effect (s : Session) (b : Built) (owner : Option String) :
    CommitEffect s b owner (s.commit b owner) := by
  simp only [commit]
  cases is : b.ask with
  | none => exact .plain _ is ⟨rfl, rfl, rfl, rfl, rfl, rfl, fun _ => rfl⟩ rfl
  | some ask =>
    dsimp only
    by_cases current : s.currentId = some ask.decisionId
    · refine .refreshed _ ask is current ?_ ?_
      · simp only [EventQueue.publish, install, if_pos current]
        have renewed := refresh_alike s ask
          ((s.events.ownerOf b.notice.sessionId owner).1.reserve
            { b.notice with state := s.state }
            (s.events.ownerOf b.notice.sessionId owner).2).2 ask.decisionId
        exact ⟨renewed.id, renewed.current, renewed.answer, renewed.submit, renewed.minted,
          renewed.delivery, renewed.nature⟩
      · simp only [EventQueue.publish, install, if_pos current, setEvents]
    · by_cases reemit : b.isReemit = true
      · refine .obsolete _ ask is reemit current ?_ ?_
        · simp only [EventQueue.publish, install, if_neg current, if_pos reemit]
          exact ⟨rfl, rfl, rfl, rfl, rfl, rfl, fun _ => rfl⟩
        · simp only [EventQueue.publish, install, if_neg current, if_pos reemit, setEvents]
      · refine .installed _ ask is (by simpa using reemit) ?_ (fun id => ?_) ?_ ?_
        · simp only [EventQueue.publish, install, if_neg current, if_neg reemit]
          rfl
        · simp only [EventQueue.publish, install, if_neg current, if_neg reemit]
          exact nature_insert
        · simp only [EventQueue.publish, install, if_neg current, if_neg reemit]
          exact ⟨rfl, rfl, rfl, rfl, rfl⟩
        · simp only [EventQueue.publish, install, if_neg current, if_neg reemit, setEvents]

end Session

/-- The answer has not left its call yet, and no operation on its decision is owed. -/
def CallAt.early : CallAt → Bool
  | .entering | .bound | .choosing | .routing | .claiming | .enqueueing _ | .raised => true
  | _ => false

namespace Threads

variable (cfg : BeliefConfig)

/-! ### The next step of a call -/

/-- What the next step of the call `c` can be. -/
inductive Advanced (t : Threads) (c : ℕ) (call : Call) (expired : Bool) : Threads → Prop
  | stays : Advanced t c call expired t
  | binds (id : DecisionId) (stage : call.stage = .entering)
      (current : t.session.currentId = some id) (named : call.named = some id) :
      Advanced t c call expired (t.goto c { call with held := some id } .bound)
  | turnedAway (outcome : RespondOutcome) (stage : call.stage.early = true)
      (status : outcome.status ≠ .resumed) :
      Advanced t c call expired (t.finish c call outcome)
  | moves (s : Session) (stage' : CallAt) (stage : call.stage.early = true)
      (early : stage'.early = true) (alike : Session.Alike t.session s)
      (events : s.events = t.session.events)
      (blocked : stage' = .enqueueing .blocked → ∃ id n, call.held = some id ∧
        t.session.nature id = some (n, .blocked)) :
      Advanced t c call expired ((t.setSession s).goto c call stage')
  | claims (id : DecisionId) (stage : call.stage = .claiming) (held : call.held = some id)
      (current : t.session.currentId = some id) :
      Advanced t c call expired
        ((t.setSession (t.session.setDecision none)).goto c call .resolving)
  | resolves (id : DecisionId) (seq : Option EventId) (stage : call.stage = .resolving)
      (held : call.held = some id) :
      Advanced t c call expired
        ((t.setSession (t.session.resolve id .answered).1).goto c { call with seq := seq } .typing)
  | types (id : DecisionId) (written : Bool) (stage' : CallAt) (stage : call.stage = .typing)
      (held : call.held = some id)
      (next : stage' = if written then .recording
        else .done { status := .writeTimeout, decisionId := some id }) :
      Advanced t c call expired
        ((t.logWrite { caller := c, ticket := id, landed := written }).goto c call stage')
  | records (id : DecisionId) (s : Session) (outcome : RespondOutcome)
      (stage : call.stage = .recording) (held : call.held = some id)
      (alike : Session.Alike t.session s) (events : s.events = t.session.events)
      (status : outcome.status = .resumed) :
      Advanced t c call expired ((t.setSession s).finish c call outcome)
  | enqueues (via : Via) (id : DecisionId) (s : Session) (stage : call.stage = .enqueueing via)
      (held : call.held = some id)
      (waiting : enqueue t.session c id call.clean via = .waiting s) :
      Advanced t c call expired ((t.setSession s).goto c call (.waiting via))
  | refuses (id : DecisionId) (stage : call.stage = .enqueueing .blocked)
      (held : call.held = some id) (current : t.session.currentId = some id)
      (late : t.session.taskDelivery ≠ .pending) :
      Advanced t c call expired (t.goto c call .refusing)
  | supersedes (id : DecisionId) (outcome : RespondOutcome)
      (stage : call.stage = .refusing ∧ outcome.status = .stale ∨
        ∃ via, call.stage = .releasing via ∧ outcome.status = via.giveUp)
      (held : call.held = some id) :
      Advanced t c call expired
        ((t.setSession (t.session.resolve id .superseded).1).finish c call outcome)
  | replied (via : Via) (status : RespondStatus) (seq : Option EventId)
      (stage : call.stage = .waiting via ∨ call.stage = .lastWait via)
      (reply : call.reply = some (status, seq)) :
      Advanced t c call expired
        (t.finish c call { status := status, seq := seq, decisionId := call.held })
  | tires (via : Via) (stage : call.stage = .waiting via) (reply : call.reply = none) :
      Advanced t c call expired (t.goto c call (.reclaiming via))
  | reclaims (via : Via) (s : Session) (stage : call.stage = .reclaiming via)
      (slot : reclaim t.session c via = some s) :
      Advanced t c call expired ((t.setSession s).goto c call (.releasing via))
  | misses (via : Via) (stage : call.stage = .reclaiming via)
      (slot : reclaim t.session c via = none) :
      Advanced t c call expired (t.goto c call (.lastWait via))
  | expires (via : Via) (stage : call.stage = .lastWait via) (reply : call.reply = none)
      (late : expired = true) :
      Advanced t c call expired (t.finish c call { status := .stale, decisionId := call.held })

theorem bindRespond_ok {s : Session} {given : Option DecisionId} {id : DecisionId}
    (bound : s.bindRespond given = .ok id) : s.currentId = some id ∧ given = some id := by
  simp only [Session.bindRespond] at bound
  split at bound
  · cases bound
  · split at bound
    · cases bound
    next current =>
      split at bound
      · cases bound
      · split at bound
        · cases bound
        next same =>
          cases bound
          exact ⟨current, by rw [not_not.mp same]⟩

theorem bindRespond_error {s : Session} {given : Option DecisionId} {outcome : RespondOutcome}
    (refused : s.bindRespond given = .error outcome) : outcome.status ≠ .resumed := by
  simp only [Session.bindRespond] at refused
  split at refused
  · cases refused
    simp
  · split at refused
    · cases refused
      simp
    · split at refused
      · cases refused
        simp
      · split at refused
        · cases refused
          simp
        · cases refused

/-- An answer is refused for a decision that is gone, or that was delivered in the meantime. -/
theorem enqueue_refused {s : Session} {c : ℕ} {id : DecisionId} {clean : String} {via : Via}
    {status : RespondStatus} (refused : enqueue s c id clean via = .refused status) :
    status ≠ .resumed := by
  cases via with
  | blocked =>
    simp only [enqueue, Session.enqueueAnswer] at refused
    split_ifs at refused <;> cases refused <;> simp
  | freeText =>
    simp only [enqueue, Session.enqueueSubmit] at refused
    split_ifs at refused <;> cases refused <;> simp

theorem enqueue_delivered {s : Session} {c : ℕ} {id : DecisionId} {clean : String} {via : Via}
    (refused : enqueue s c id clean via = .alreadyDelivered) :
    via = .blocked ∧ s.currentId = some id ∧ s.taskDelivery ≠ .pending := by
  cases via with
  | blocked =>
    simp only [enqueue, Session.enqueueAnswer] at refused
    split at refused
    · cases refused
    · split at refused
      · cases refused
      next current =>
        split at refused
        · cases refused
        · split at refused
          next late => exact ⟨rfl, not_not.mp current, late⟩
          · cases refused
  | freeText =>
    simp only [enqueue, Session.enqueueSubmit] at refused
    split_ifs at refused

theorem advanceBound_effect (t : Threads) (c : ℕ) {call : Call} {id : DecisionId}
    (held : call.held = some id) (expired written : Bool) (now : Time) :
    Advanced t c call expired (t.advanceBound cfg c call id expired written now) := by
  have steps : ∀ stage', call.stage.early = true → stage'.early = true →
      stage' ≠ .enqueueing .blocked → Advanced t c call expired (t.goto c call stage') := by
    intro stage' early early' other
    exact .moves t.session stage' early early' (.refl _) rfl fun same => absurd same other
  cases stage : call.stage with
  | entering | done | raised =>
    simp only [advanceBound, stage]
    exact .stays
  | bound =>
    simp only [advanceBound, stage]
    have early : call.stage.early = true := by rw [stage]; rfl
    split
    · obtain ⟨alike, events⟩ := Session.hydrateRespondOptions_alike t.session id
      exact .moves _ .choosing early rfl alike events (fun same => by cases same)
    · exact steps .raised early rfl (by simp)
  | choosing =>
    simp only [advanceBound, stage]
    have early : call.stage.early = true := by rw [stage]; rfl
    split
    · split
      · exact steps .routing early rfl (by simp)
      · exact .turnedAway _ early (by simp)
    · exact .stays
  | routing =>
    simp only [advanceBound, stage]
    have early : call.stage.early = true := by rw [stage]; rfl
    split
    next ask found =>
      split
      next blocked =>
        refine .moves t.session _ early rfl (.refl _) rfl fun _ => ⟨id, ask.decisionId, held, ?_⟩
        rw [Session.nature, found, Option.map_some, blocked]
      · split
        · exact steps (.enqueueing .freeText) early rfl (by simp)
        · exact steps .claiming early rfl (by simp)
    · exact .stays
  | claiming =>
    simp only [advanceBound, stage, Session.claimDirect]
    have early : call.stage.early = true := by rw [stage]; rfl
    by_cases current : t.session.currentId = some id
    · rw [if_pos current]
      exact .claims id stage held current
    · rw [if_neg current]
      exact .turnedAway _ early (by simp)
  | resolving =>
    simp only [advanceBound, stage]
    exact .resolves id _ stage held
  | typing =>
    simp only [advanceBound, stage]
    cases written with
    | true => exact .types id true .recording stage held rfl
    | false => exact .types id false _ stage held rfl
  | recording =>
    simp only [advanceBound, stage]
    obtain ⟨alike, events⟩ := Session.recordSubmit_alike cfg t.session call.clean now
    exact .records id _ _ stage held alike events rfl
  | enqueueing via =>
    simp only [advanceBound, stage]
    have early : call.stage.early = true := by rw [stage]; rfl
    split
    next s waiting => exact .enqueues via id s stage held waiting
    next delivered =>
      obtain ⟨rfl, current, late⟩ := enqueue_delivered delivered
      exact .refuses id stage held current late
    next status refused => exact .turnedAway _ early (enqueue_refused refused)
  | refusing =>
    simp only [advanceBound, stage]
    exact .supersedes id _ (.inl ⟨stage, rfl⟩) held
  | waiting via =>
    simp only [advanceBound, stage]
    cases reply : call.reply with
    | some r =>
      obtain ⟨status, seq⟩ := r
      simp only [Option.isSome_some, if_true, waitOutcome, reply]
      exact .replied via status seq (.inl stage) reply
    | none =>
      simp only [Option.isSome_none, Bool.false_eq_true, if_false]
      split
      · exact .tires via stage reply
      · exact .stays
  | reclaiming via =>
    simp only [advanceBound, stage]
    split
    next s slot => exact .reclaims via s stage slot
    next slot => exact .misses via stage slot
  | releasing via =>
    simp only [advanceBound, stage]
    exact .supersedes id _ (.inr ⟨via, stage, rfl⟩) held
  | lastWait via =>
    simp only [advanceBound, stage]
    cases reply : call.reply with
    | some r =>
      obtain ⟨status, seq⟩ := r
      simp only [Option.isSome_some, true_or, if_true, waitOutcome, reply]
      exact .replied via status seq (.inr stage) reply
    | none =>
      simp only [Option.isSome_none, Bool.false_eq_true, false_or]
      split
      next late =>
        simp only [waitOutcome, reply]
        exact .expires via stage reply late
      · exact .stays

theorem advance_effect (t : Threads) {c : ℕ} {call : Call} (found : t.calls[c]? = some call)
    (expired written : Bool) (now : Time) :
    Advanced t c call expired (t.advance cfg c expired written now) := by
  simp only [advance, found]
  split
  next stage =>
    split
    next outcome refused =>
      exact .turnedAway outcome (by rw [stage]; rfl) (bindRespond_error refused)
    next id bound => exact .binds id stage (bindRespond_ok bound).1 (bindRespond_ok bound).2
  next id held _ => exact advanceBound_effect cfg t c held expired written now
  next => exact .stays

/-- A step of a call that was never made changes nothing. -/
theorem advance_absent (t : Threads) {c : ℕ} (absent : t.calls[c]? = none)
    (expired written : Bool) (now : Time) : t.advance cfg c expired written now = t := by
  simp only [advance, absent]

/-- What the delivery of the task leaves to do: for the prompt it retires, and for the answer to it. -/
theorem beginOp_deliver (t : Threads) (task : String) (hookCapable : Bool) (now : Time) :
    t.beginOp cfg (.deliver task hookCapable now) =
      (t.setSession (t.session.confirmDelivery cfg task hookCapable now).1).setTodo
        ((t.session.confirmDelivery cfg task hookCapable now).2.1.elim []
            (fun orphan => [.resolve orphan .superseded]) ++
          (t.session.confirmDelivery cfg task hookCapable now).2.2.elim []
            fun pa => [.resolve pa.decisionId .superseded, .signal pa.call .stale]) := by
  simp only [beginOp]
  generalize t.session.confirmDelivery cfg task hookCapable now = r
  obtain ⟨s, orphan, pa⟩ := r
  cases orphan <;> cases pa <;> rfl

theorem signal_calls (t : Threads) (c : ℕ) (status : RespondStatus) :
    ∀ call ∈ (t.signal c status).calls, ∃ old ∈ t.calls, call.held = old.held := by
  simp only [signal]
  split
  next call found =>
    intro other member
    rcases List.mem_or_eq_of_mem_set member with old | rfl
    · exact ⟨other, old, rfl⟩
    · exact ⟨call, List.mem_of_getElem? found, rfl⟩
  next => exact fun call member => ⟨call, member, rfl⟩

theorem signal_session (t : Threads) (c : ℕ) (status : RespondStatus) :
    (t.signal c status).session = t.session := by
  simp only [signal]
  split <;> rfl

theorem signal_todo (t : Threads) (c : ℕ) (status : RespondStatus) :
    (t.signal c status).todo = t.todo := by
  simp only [signal]
  split <;> rfl

end Threads

end Nelix.Daemon
