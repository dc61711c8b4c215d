import Nelix.Daemon.EventRuns
import Nelix.Daemon.SessionIdentities

/-!
# What stays current in a session

Only the two sections of a publish make a decision current, and only `_cache_last_modal_options`
writes the cached options. Every other section of a session leaves the current decision or clears
it, and leaves the cache and the event and the generation of every decision (`Steady`).
`step_section` sorts the steps of a session's threads accordingly.
-/
namespace Nelix.Daemon

/-- The event of a decision and its modal generation. -/
def Session.stamp (s : Session) (id : DecisionId) : Option (EventId × Option ℕ) :=
  (s.asks.lookup id).map fun ask => (ask.eventId, ask.modalEpoch)

/-- The options that a decision carries. -/
def Session.optionsOf (s : Session) (id : DecisionId) : Option (List MenuOption) :=
  (s.asks.lookup id).map (·.options)

theorem Session.currentId_iff {s : Session} {id : DecisionId} :
    s.currentId = some id ↔ s.decision = some (.ask id) := by
  simp only [Session.currentId]
  split
  next decision => rw [decision, Option.some.injEq, Option.some.injEq, Decision.ask.injEq]
  next other => exact ⟨by rintro ⟨⟩, fun is => absurd is (other id)⟩

/-- The queue numbers past everything it ever published. -/
structure EventQueue.Ahead (q : EventQueue) : Prop where
  all : q.lastSeq < q.nextSeq
  session : ∀ id seq, q.lastSeqBySession.lookup id = some seq → seq < q.nextSeq

/-- The queue has only moved on. -/
structure EventQueue.Later (q q' : EventQueue) : Prop where
  next : q.nextSeq ≤ q'.nextSeq
  ahead : q.Ahead → q'.Ahead

namespace EventQueue

variable {q q' : EventQueue}

theorem Later.refl (q : EventQueue) : Later q q := ⟨le_rfl, id⟩

theorem Later.trans {q'' : EventQueue} (first : Later q q') (second : Later q' q'') : Later q q'' :=
  ⟨first.next.trans second.next, second.ahead ∘ first.ahead⟩

theorem Framed.later (framed : Framed q q') : Later q q' where
  next := framed.nextSeq.ge
  ahead ahead :=
    { all := by rw [framed.lastSeq, framed.nextSeq]; exact ahead.all
      session := by rw [framed.lastSeqBySession, framed.nextSeq]; exact ahead.session }

theorem Ahead.latestSeq_lt (ahead : q.Ahead) (scope : Scope) : q.latestSeq scope < q.nextSeq := by
  have one : ∀ id, (q.lastSeqBySession.lookup id).getD 0 < q.nextSeq := by
    intro id
    cases found : q.lastSeqBySession.lookup id with
    | none => exact lt_of_le_of_lt (Nat.zero_le _) ahead.all
    | some seq => exact ahead.session id seq found
  cases scope with
  | all => exact ahead.all
  | session id => exact one id
  | sessions ids =>
    refine (Finset.sup_lt_iff ?_).mpr fun id _ => one id
    exact lt_of_le_of_lt (Nat.zero_le _) ahead.all

theorem resolveDecision_framed (id : DecisionId) (reason : ResolvedReason) :
    Framed q (q.resolveDecision id reason).1 := by
  simp only [resolveDecision]
  split
  · exact .refl q
  · exact (resolveAll_marked reason _).toFramed.trans (evictLoop_framed _)

theorem markAnswered_framed (id : EventId) : Framed q (q.markAnswered id).1 := by
  simp only [markAnswered]
  split
  · exact .refl q
  · split
    · exact (resolveOne_marked .answered id).toFramed.trans (evictLoop_framed _)
    · exact (mark_marked id .answered).toFramed

theorem settle_framed (id : EventId) : Framed q (q.settle id) := by
  rw [settle_eq]
  exact (classify_marked id).toFramed.trans (evictLoop_framed _)

theorem supersede_framed (prior : Option DecisionId) (id : DecisionId) :
    Framed q (Session.supersede q prior id) := by
  simp only [Session.supersede]
  split
  · split
    · exact resolveDecision_framed ..
    · exact .refl q
  · exact .refl q

theorem ownerOf_framed (session : SessionId) (resolved : Option String) :
    Framed q (q.ownerOf session resolved).1 := by
  simp only [ownerOf]
  split
  · exact .refl q
  · split
    · exact ⟨rfl, rfl, rfl, rfl, rfl⟩
    · exact .refl q

theorem reserve_later (n : Notice) (owner : Option String) : Later q (q.reserve n owner).1 where
  next := Nat.le_succ _
  ahead ahead :=
    { all := Nat.lt_succ_self _
      session := by
        intro id seq found
        simp only [reserve] at found ⊢
        by_cases same : id = n.sessionId
        · rw [same, AList.lookup_insert, Option.some.injEq] at found
          rw [← found]
          exact Nat.lt_succ_self _
        · rw [AList.lookup_insert_ne same] at found
          exact Nat.lt_succ_of_lt (ahead.session id seq found) }

theorem forgetSession_later (session : SessionId) : Later q (q.forgetSession session) where
  next := (forgetAll_marked _).nextSeq.ge
  ahead ahead :=
    { all := by
        simp only [forgetSession]
        rw [(forgetAll_marked _).lastSeq, (forgetAll_marked _).nextSeq]
        exact ahead.all
      session := by
        intro id seq found
        simp only [forgetSession] at found ⊢
        rw [(forgetAll_marked _).nextSeq]
        by_cases same : id = session
        · rw [same, AList.lookup_erase] at found
          cases found
        · rw [AList.lookup_erase_ne same, (forgetAll_marked _).lastSeqBySession] at found
          exact ahead.session id seq found }

/-- A publish takes the next number, where its hook publishes nothing. -/
theorem publish_later {σ : Type*} (n : Notice) (resolved : Option String)
    {onPublish : EventQueue → Event → EventQueue × σ}
    (hook : ∀ q e, Framed q (onPublish q e).1) :
    Later q (q.publish n resolved onPublish).1 ∧
      (q.publish n resolved onPublish).1.nextSeq = q.nextSeq + 1 := by
  have owned := ownerOf_framed (q := q) n.sessionId resolved
  have reserved := reserve_later (q := (q.ownerOf n.sessionId resolved).1) n
    (q.ownerOf n.sessionId resolved).2
  simp only [publish]
  refine ⟨(owned.later.trans reserved).trans ((hook _ _).later.trans (settle_framed _).later), ?_⟩
  rw [(settle_framed _).nextSeq, (hook _ _).nextSeq, reserve, owned.nextSeq]

/-- The number that a publish gives its event. -/
theorem reserve_seq (n : Notice) (resolved : Option String) :
    ((q.ownerOf n.sessionId resolved).1.reserve n
      (q.ownerOf n.sessionId resolved).2).2.seq = q.nextSeq :=
  (ownerOf_framed n.sessionId resolved).nextSeq

end EventQueue

namespace Session

/-- Nothing new is current, no decision has a new event or generation or loses its options, and
the cached options stand. -/
structure Steady (s s' : Session) : Prop where
  id : s'.id = s.id
  decision : ∀ d, s'.decision = some d → s.decision = some d
  stamp : ∀ id, s'.stamp id = s.stamp id
  bare : ∀ id, s'.optionsOf id = some [] → s.optionsOf id = some []
  modalEpoch : s'.modalEpoch = s.modalEpoch
  cached : s'.lastModalOptions = s.lastModalOptions
  cachedEpoch : s'.lastModalEpoch = s.lastModalEpoch
  events : EventQueue.Later s.events s'.events

variable {s s' : Session}

theorem Steady.refl (s : Session) : Steady s s :=
  ⟨rfl, fun _ is => is, fun _ => rfl, fun _ is => is, rfl, rfl, rfl, .refl _⟩

theorem Steady.trans {s'' : Session} (first : Steady s s') (second : Steady s' s'') :
    Steady s s'' where
  id := second.id.trans first.id
  decision d is := first.decision d (second.decision d is)
  stamp id := (second.stamp id).trans (first.stamp id)
  bare id is := first.bare id (second.bare id is)
  modalEpoch := second.modalEpoch.trans first.modalEpoch
  cached := second.cached.trans first.cached
  cachedEpoch := second.cachedEpoch.trans first.cachedEpoch
  events := first.events.trans second.events

/-- The decision is cleared at most, and the rest of the section touches none of the others. -/
theorem Steady.of_cleared (id : s'.id = s.id) (asks : s'.asks = s.asks)
    (decision : s'.decision = none ∨ s'.decision = s.decision)
    (modalEpoch : s'.modalEpoch = s.modalEpoch) (cached : s'.lastModalOptions = s.lastModalOptions)
    (cachedEpoch : s'.lastModalEpoch = s.lastModalEpoch) (events : s'.events = s.events) :
    Steady s s' where
  id := id
  decision d is := by
    rcases decision with cleared | same
    · rw [cleared] at is
      cases is
    · rwa [same] at is
  stamp other := by rw [Session.stamp, Session.stamp, asks]
  bare other is := by rwa [optionsOf, asks] at is
  modalEpoch := modalEpoch
  cached := cached
  cachedEpoch := cachedEpoch
  events := by rw [events]; exact .refl _

theorem stamp_insert {id other : DecisionId} {ask : Ask} :
    ({ s with asks := s.asks.insert id ask } : Session).stamp other =
      if other = id then some (ask.eventId, ask.modalEpoch) else s.stamp other := by
  simp only [stamp]
  split
  next same =>
    subst same
    rw [AList.lookup_insert, Option.map_some]
  next differ => rw [AList.lookup_insert_ne differ]

theorem fillOptions_steady (id : DecisionId) (options : List MenuOption) :
    Steady s (s.updateAsk id (fillOptions options)) := by
  simp only [updateAsk]
  split
  next ask found =>
    refine ⟨rfl, fun _ is => is, fun other => ?_, fun other is => ?_, rfl, rfl, rfl, .refl _⟩
    · rw [stamp_insert]
      split
      next same =>
        rw [same, stamp, found, Option.map_some, fillOptions]
        split <;> rfl
      next => rfl
    · by_cases same : other = id
      · rw [same, optionsOf, AList.lookup_insert, fillOptions] at is
        rw [same, optionsOf, found]
        split at is
        next empty => rw [Option.map_some, empty]
        next => exact is
      · rwa [optionsOf, AList.lookup_insert_ne same] at is
  next => exact .refl s

theorem enrichHookModalOptions_steady (obs : Observation) :
    Steady s (s.enrichHookModalOptions obs) := by
  simp only [enrichHookModalOptions]
  split
  · split
    · exact fillOptions_steady ..
    · exact .refl s
  · exact .refl s

theorem hydrateRespondOptions_steady (id : DecisionId) :
    Steady s (s.hydrateRespondOptions id) := by
  simp only [hydrateRespondOptions]
  split
  · split
    · exact fillOptions_steady ..
    · exact .refl s
  · exact .refl s

theorem recordSubmit_steady (cfg : BeliefConfig) (clean : String) (now : Time) :
    Steady s (s.recordSubmit cfg clean now) :=
  .of_cleared rfl rfl (.inr rfl) rfl rfl rfl rfl

theorem resolve_steady (id : DecisionId) (reason : ResolvedReason) :
    Steady s (s.resolve id reason).1 :=
  ⟨rfl, fun _ is => is, fun _ => rfl, fun _ is => is, rfl, rfl, rfl,
    (EventQueue.resolveDecision_framed id reason).later⟩

theorem syncControlState_steady (engine : BeliefEngine) :
    Steady s ({ s with engine := engine } : Session).syncControlState := by
  have mirrored : Steady s ({ s with engine := engine } : Session).mirrorControl := by
    simp only [mirrorControl]
    split <;> exact .of_cleared rfl rfl (.inr rfl) rfl rfl rfl rfl
  refine mirrored.trans ?_
  simp only [syncControlState, dropStaleIdle]
  split
  · split
    · exact .of_cleared rfl rfl (.inl rfl) rfl rfl rfl rfl
    · exact .refl _
  · exact .refl _

theorem takeDown_steady (key : DecisionKey) : Steady s (s.takeDown key).1 := by
  rcases takeDown_cases s key with ⟨id, -, down⟩ | down
  · rw [down]
    exact .of_cleared rfl rfl (.inl rfl) rfl rfl rfl rfl
  · rw [down]
    exact .refl s

theorem claimAnswer_steady (obs : Observation) (bodyFp : Option String) :
    Steady s (s.claimAnswer obs bodyFp).1 := by
  have effect := claimAnswer_effect s obs bodyFp
  generalize s.claimAnswer obs bodyFp = r at effect ⊢
  cases effect with
  | empty => exact .refl s
  | write => exact .of_cleared rfl rfl (.inl rfl) rfl rfl rfl rfl
  | abort => exact .of_cleared rfl rfl (.inr rfl) rfl rfl rfl rfl

theorem drainSubmit_steady (obs : Observation) (late : Bool) :
    Steady s (s.drainSubmit obs late).1 := by
  have effect := drainSubmit_effect s obs late
  generalize s.drainSubmit obs late = r at effect ⊢
  cases effect with
  | empty => exact .refl s
  | write => exact .of_cleared rfl rfl (.inl rfl) rfl rfl rfl rfl
  | abort | wait | settle => exact .of_cleared rfl rfl (.inr rfl) rfl rfl rfl rfl

theorem confirmDelivery_steady (cfg : BeliefConfig) (task : String) (hookCapable : Bool)
    (now : Time) : Steady s (s.confirmDelivery cfg task hookCapable now).1 := by
  refine .of_cleared rfl rfl ?_ rfl rfl rfl rfl
  simp only [confirmDelivery]
  exact ite_eq_or_eq ..

theorem awaitConfirm_steady (call : ℕ) (seq : Option EventId) :
    Steady s (s.awaitConfirm call seq) := by
  simp only [awaitConfirm]
  split
  · split
    · exact .of_cleared rfl rfl (.inr rfl) rfl rfl rfl rfl
    · exact .refl s
  · exact .refl s

/-! ### The sections of a publish -/

/-- The generation of a decision, where it is a modal's. -/
def generation (s : Session) (id : DecisionId) : Option ℕ := (s.stamp id).bind (·.2)

/-- Whether a publish opens a generation: it is a modal's first. -/
def opensGeneration (s : Session) (a : Announcement) : Bool :=
  a.kind.respondable && isChoice a.promptKind && !s.isReemit a.decisionKey

/-- The first section counts a generation at most. -/
structure BuildsOn (s : Session) (a : Announcement) (s' : Session) (b : Built) : Prop where
  id : s'.id = s.id
  decision : s'.decision = s.decision
  asks : s'.asks = s.asks
  cached : s'.lastModalOptions = s.lastModalOptions
  cachedEpoch : s'.lastModalEpoch = s.lastModalEpoch
  events : s'.events = s.events
  modalEpoch : s'.modalEpoch = if s.opensGeneration a then s.modalEpoch + 1 else s.modalEpoch
  generation : b.isReemit = false → ∀ ask, b.ask = some ask → ∀ g, ask.modalEpoch = some g →
    s.opensGeneration a = true ∧ g = s.modalEpoch ∧ ask.options = a.options

theorem build_buildsOn (a : Announcement) (view : View) :
    BuildsOn s a (s.build a view).1 (s.build a view).2 := by
  simp only [build]
  split
  next respondable =>
    have minted : s.isReemit a.decisionKey = false → ∀ notice reemit,
        BuildsOn s a (({ s with lastScreenExcerpt := view.screen } : Session).mint a
          (s.freeze a view)).1
          ⟨notice, s.freeze a view,
            some (({ s with lastScreenExcerpt := view.screen } : Session).mint a
              (s.freeze a view)).2, reemit⟩ := by
      intro first notice reemit
      have opens : s.opensGeneration a = isChoice a.promptKind := by
        simp [opensGeneration, respondable, first]
      refine ⟨rfl, rfl, rfl, rfl, rfl, rfl, by rw [opens]; rfl, fun _ ask is g taken => ?_⟩
      cases is
      simp only [mint] at taken
      by_cases choice : isChoice a.promptKind = true
      · rw [if_pos choice, Option.some.injEq] at taken
        exact ⟨opens.trans choice, taken.symm, rfl⟩
      · rw [if_neg choice] at taken
        cases taken
    simp only [identify]
    cases is : currentAsk { s with lastScreenExcerpt := view.screen } with
    | none =>
      have current : s.currentAsk = none := is
      exact minted (by rw [isReemit, current]) _ _
    | some ask =>
      have current : s.currentAsk = some ask := is
      by_cases same : ask.decisionKey = a.decisionKey
      · simp only [if_pos same]
        have again : s.opensGeneration a = false := by
          simp [opensGeneration, isReemit, current, same]
        refine ⟨rfl, rfl, rfl, rfl, rfl, rfl, by rw [again]; rfl, fun first => ?_⟩
        simp [isReemit, is, same] at first
      · simp only [if_neg same]
        exact minted (by simpa [isReemit, current] using same) _ _
  next passive =>
    have quiet : s.opensGeneration a = false := by
      rw [opensGeneration, Bool.eq_false_iff.mpr passive]
      rfl
    exact ⟨rfl, rfl, rfl, rfl, rfl, rfl, by rw [quiet]; rfl, fun _ ask is => by cases is⟩

/-- The second section stamps the built decision with the event it publishes, at most. -/
structure CommitsOn (s : Session) (b : Built) (s' : Session) : Prop where
  id : s'.id = s.id
  modalEpoch : s'.modalEpoch = s.modalEpoch
  cached : s'.lastModalOptions = s.lastModalOptions
  cachedEpoch : s'.lastModalEpoch = s.lastModalEpoch
  later : EventQueue.Later s.events s'.events
  next : s'.events.nextSeq = s.events.nextSeq + 1
  generation : ∀ id, s'.generation id = s.generation id ∧
      (s'.optionsOf id = some [] → s.optionsOf id = some []) ∨
    b.isReemit = false ∧ ∃ ask, b.ask = some ask ∧ id = ask.decisionId ∧
      s'.generation id = ask.modalEpoch ∧ s'.optionsOf id = some ask.options
  decision : s'.decision = s.decision ∨ ∃ ask, b.ask = some ask ∧
    s'.decision = some (.ask ask.decisionId) ∧
      ∃ g, s'.stamp ask.decisionId = some (s.events.nextSeq, g)
  stamp : ∀ id, s'.stamp id = s.stamp id ∨ ∃ g, s'.stamp id = some (s.events.nextSeq, g)

theorem install_framed (ask : Ask) (isReemit : Bool) (q : EventQueue) (e : Event) :
    EventQueue.Framed q (s.install ask isReemit q e).1 := by
  simp only [install]
  split
  · exact .refl q
  · split
    · exact (EventQueue.mark_marked e.seq .superseded).toFramed
    · exact EventQueue.supersede_framed _ _

theorem refresh_keeps (ask current : Ask) (e : Event) :
    (refresh ask e current).eventId = e.seq ∧
      (refresh ask e current).modalEpoch = current.modalEpoch ∧
      (refresh ask e current).options = current.options := by
  simp only [refresh]
  split <;> exact ⟨rfl, rfl, rfl⟩

theorem commit_commitsOn (b : Built) (owner : Option String) :
    CommitsOn s b (s.commit b owner) := by
  simp only [commit]
  cases is : b.ask with
  | none =>
    have published : EventQueue.Later s.events
          (s.events.publish { b.notice with state := s.state } owner fun q _ => (q, ())).1 ∧
        (s.events.publish { b.notice with state := s.state } owner
          fun q _ => (q, ())).1.nextSeq = s.events.nextSeq + 1 :=
      EventQueue.publish_later _ _ fun q _ => .refl q
    exact ⟨rfl, rfl, rfl, rfl, published.1, published.2, fun _ => .inl ⟨rfl, fun is => is⟩,
      .inl rfl, fun _ => .inl rfl⟩
  | some ask =>
    dsimp only
    have published : EventQueue.Later s.events
          (s.events.publish { b.notice with state := s.state } owner
            (s.install ask b.isReemit)).1 ∧
        (s.events.publish { b.notice with state := s.state } owner
          (s.install ask b.isReemit)).1.nextSeq = s.events.nextSeq + 1 :=
      EventQueue.publish_later _ _ (install_framed ask b.isReemit)
    obtain ⟨later, next⟩ := published
    have number := EventQueue.reserve_seq (q := s.events) { b.notice with state := s.state } owner
    simp only [EventQueue.publish] at later next ⊢
    generalize (s.events.ownerOf b.notice.sessionId owner).1.reserve
      { b.notice with state := s.state }
      (s.events.ownerOf b.notice.sessionId owner).2 = reserved at later next number ⊢
    obtain ⟨q, e⟩ := reserved
    have stamped : ∀ (asks : AList fun _ : DecisionId => Ask) (current : Ask),
        current.eventId = e.seq → ∀ id,
        ({ s with asks := asks.insert ask.decisionId current } : Session).stamp id =
          ({ s with asks := asks } : Session).stamp id ∨
        ∃ g, ({ s with asks := asks.insert ask.decisionId current } : Session).stamp id =
          some (s.events.nextSeq, g) := by
      intro asks current stamps id
      by_cases same : id = ask.decisionId
      · refine .inr ⟨current.modalEpoch, ?_⟩
        rw [same, stamp, AList.lookup_insert, Option.map_some, stamps, number]
      · refine .inl ?_
        rw [stamp, AList.lookup_insert_ne same]
        rfl
    by_cases current : s.currentId = some ask.decisionId
    · simp only [install, if_pos current] at later next ⊢
      simp only [updateAsk]
      cases found : s.asks.lookup ask.decisionId with
      | none => exact ⟨rfl, rfl, rfl, rfl, later, next, fun _ => .inl ⟨rfl, fun is => is⟩,
          .inl rfl, fun _ => .inl rfl⟩
      | some known =>
        dsimp only
        obtain ⟨event, epoch, options⟩ := refresh_keeps ask known e
        refine ⟨rfl, rfl, rfl, rfl, later, next, fun id => .inl ?_, .inl rfl,
          stamped s.asks _ event⟩
        by_cases same : id = ask.decisionId
        · rw [same, generation, generation, stamp, stamp, optionsOf, optionsOf, setEvents,
            AList.lookup_insert, found, Option.map_some, Option.map_some, Option.map_some,
            Option.map_some, epoch, options]
          exact ⟨rfl, fun is => is⟩
        · rw [generation, generation, stamp, stamp, optionsOf, optionsOf, setEvents,
            AList.lookup_insert_ne same]
          exact ⟨rfl, fun is => is⟩
    · by_cases reemit : b.isReemit = true
      · simp only [install, if_neg current, if_pos reemit] at later next ⊢
        exact ⟨rfl, rfl, rfl, rfl, later, next, fun _ => .inl ⟨rfl, fun is => is⟩, .inl rfl,
          fun _ => .inl rfl⟩
      · simp only [install, if_neg current, if_neg reemit] at later next ⊢
        refine ⟨rfl, rfl, rfl, rfl, later, next, fun id => ?_, .inr ⟨ask, is, rfl, ?_⟩,
          stamped s.asks _ rfl⟩
        · by_cases same : id = ask.decisionId
          · refine .inr ⟨Bool.eq_false_iff.mpr reemit, ask, is, same, ?_⟩
            rw [same, generation, stamp, optionsOf, setEvents, AList.lookup_insert]
            exact ⟨rfl, rfl⟩
          · refine .inl ?_
            rw [generation, generation, stamp, stamp, optionsOf, optionsOf, setEvents,
              AList.lookup_insert_ne same]
            exact ⟨rfl, fun is => is⟩
        · refine ⟨ask.modalEpoch, ?_⟩
          rw [stamp, setEvents, AList.lookup_insert, Option.map_some, number]

end Session

/-- The sections of a publish. -/
def Chore.announces : Chore → Bool
  | .build .. | .commit .. | .freeze _ => true
  | _ => false

namespace Threads

variable (cfg : BeliefConfig) {t : Threads}

theorem enqueue_steady {s s' : Session} {c : ℕ} {id : DecisionId} {clean : String} {via : Via}
    (waiting : enqueue s c id clean via = .waiting s') :
    Session.Steady s s' ∧ s'.asks = s.asks := by
  cases via with
  | blocked =>
    obtain ⟨-, -, -, -, rfl⟩ := Session.enqueueAnswer_waiting waiting
    exact ⟨.of_cleared rfl rfl (.inr rfl) rfl rfl rfl rfl, rfl⟩
  | freeText =>
    obtain ⟨-, -, -, rfl⟩ := Session.enqueueSubmit_waiting waiting
    exact ⟨.of_cleared rfl rfl (.inr rfl) rfl rfl rfl rfl, rfl⟩

theorem reclaim_steady {s s' : Session} {c : ℕ} {via : Via} (slot : reclaim s c via = some s') :
    Session.Steady s s' ∧ s'.asks = s.asks := by
  cases via with
  | blocked | freeText =>
    simp only [reclaim] at slot
    split at slot
    · split at slot
      · cases slot
        exact ⟨.of_cleared rfl rfl (.inr rfl) rfl rfl rfl rfl, rfl⟩
      · cases slot
    · cases slot

/-- A bound call hydrates its decision once, and changes no decision elsewhere. -/
theorem advanceBound_slots (c : ℕ) (call : Call) (id : DecisionId) (expired written : Bool)
    (now : Time) :
    (t.advanceBound cfg c call id expired written now).session =
        t.session.hydrateRespondOptions id ∨
      Session.Steady t.session (t.advanceBound cfg c call id expired written now).session ∧
        (t.advanceBound cfg c call id expired written now).session.asks = t.session.asks := by
  have still : Session.Steady t.session t.session ∧ t.session.asks = t.session.asks :=
    ⟨.refl _, rfl⟩
  have resolved : ∀ reason, Session.Steady t.session (t.session.resolve id reason).1 ∧
      (t.session.resolve id reason).1.asks = t.session.asks :=
    fun reason => ⟨Session.resolve_steady id reason, rfl⟩
  cases stage : call.stage with
  | entering | done | raised =>
    simp only [advanceBound, stage]
    exact .inr ⟨.refl _, trivial⟩
  | bound =>
    simp only [advanceBound, stage]
    split
    · exact .inl rfl
    · exact .inr still
  | choosing =>
    simp only [advanceBound, stage]
    split
    · split <;> exact .inr still
    · exact .inr still
  | routing =>
    simp only [advanceBound, stage]
    split
    · split
      · exact .inr still
      · split <;> exact .inr still
    · exact .inr still
  | claiming =>
    simp only [advanceBound, stage, Session.claimDirect]
    by_cases current : t.session.currentId = some id
    · rw [if_pos current]
      exact .inr ⟨.of_cleared rfl rfl (.inl rfl) rfl rfl rfl rfl, rfl⟩
    · rw [if_neg current]
      exact .inr still
  | resolving =>
    simp only [advanceBound, stage]
    exact .inr (resolved .answered)
  | typing =>
    simp only [advanceBound, stage]
    split <;> exact .inr still
  | recording =>
    simp only [advanceBound, stage]
    exact .inr ⟨Session.recordSubmit_steady cfg call.clean now, rfl⟩
  | enqueueing via =>
    simp only [advanceBound, stage]
    split
    next s waiting => exact .inr (enqueue_steady waiting)
    · exact .inr still
    · exact .inr still
  | refusing | releasing =>
    simp only [advanceBound, stage]
    exact .inr (resolved .superseded)
  | waiting via =>
    simp only [advanceBound, stage]
    split
    · exact .inr still
    · split <;> exact .inr still
  | reclaiming via =>
    simp only [advanceBound, stage]
    split
    next s slot => exact .inr (reclaim_steady slot)
    · exact .inr still
  | lastWait via =>
    simp only [advanceBound, stage]
    split <;> exact .inr still

theorem advance_slots (c : ℕ) (expired written : Bool) (now : Time) :
    (∃ id, (t.advance cfg c expired written now).session =
        t.session.hydrateRespondOptions id) ∨
      Session.Steady t.session (t.advance cfg c expired written now).session ∧
        (t.advance cfg c expired written now).session.asks = t.session.asks := by
  simp only [advance]
  split
  · exact .inr ⟨.refl _, rfl⟩
  next call _ =>
    split
    · split <;> exact .inr ⟨.refl _, rfl⟩
    next id _ _ =>
      exact (advanceBound_slots cfg c call id expired written now).imp_left fun same => ⟨id, same⟩
    · exact .inr ⟨.refl _, rfl⟩

/-- A step of a call makes nothing current. -/
theorem advance_steady (c : ℕ) (expired written : Bool) (now : Time) :
    Session.Steady t.session (t.advance cfg c expired written now).session := by
  rcases advance_slots cfg c expired written now with ⟨id, same⟩ | ⟨steady, -⟩
  · rw [same]
    exact Session.hydrateRespondOptions_steady id
  · exact steady

/-- The first section of an operation, where it does not cache a frame. -/
theorem beginOp_steady (op : MonitorOp) (other : ∀ obs, op ≠ .cache obs) :
    Session.Steady t.session (t.beginOp cfg op).session := by
  cases op with
  | announce => exact .refl _
  | cache obs => exact absurd rfl (other obs)
  | withdraw key reason =>
    have down := Session.takeDown_steady (s := t.session) key
    simp only [beginOp]
    generalize t.session.takeDown key = r at down ⊢
    obtain ⟨s, _ | id⟩ := r <;> exact down
  | hook hobs now => exact Session.syncControlState_steady _
  | tick obs ctx now => exact Session.syncControlState_steady _
  | enrich obs => exact Session.enrichHookModalOptions_steady obs
  | drainAnswer obs bodyFp =>
    have claimed := Session.claimAnswer_steady (s := t.session) obs bodyFp
    simp only [beginOp]
    generalize t.session.claimAnswer obs bodyFp = r at claimed ⊢
    obtain ⟨s, _ | ⟨pa, _ | _⟩⟩ := r <;> exact claimed
  | drainSubmit obs late =>
    have drained := Session.drainSubmit_steady (s := t.session) obs late
    simp only [beginOp]
    generalize t.session.drainSubmit obs late = r at drained ⊢
    obtain ⟨s, _ | ⟨ps, _ | _ | _ | _ | _⟩⟩ := r <;> exact drained
  | deliver task hookCapable now => exact Session.confirmDelivery_steady ..
  | failDelivery => exact .of_cleared rfl rfl (.inr rfl) rfl rfl rfl rfl
  | finish ending view => exact .of_cleared rfl rfl (.inr rfl) rfl rfl rfl rfl

/-- A chore that is no part of a publish. -/
theorem runChore_steady {chore : Chore} {rest : List Chore} (todo : t.todo = chore :: rest)
    (passive : chore.announces = false) (written : Bool) (now : Time) :
    Session.Steady t.session (t.runChore cfg written now).session := by
  have cleared : ∀ {s : Session}, s = { t.session with pendingAnswer := none } ∨
      s = { t.session with pendingSubmit := none } → Session.Steady t.session s := by
    rintro s (rfl | rfl) <;> exact .of_cleared rfl rfl (.inr rfl) rfl rfl rfl rfl
  cases chore with
  | build | commit | freeze => cases passive
  | resolve id reason =>
    simp only [runChore, todo]
    exact Session.resolve_steady id reason
  | typeAnswer | typeSubmit =>
    simp only [runChore, todo]
    exact .refl _
  | record clean =>
    simp only [runChore, todo]
    exact Session.recordSubmit_steady cfg clean now
  | await c =>
    simp only [runChore, todo]
    exact Session.awaitConfirm_steady c t.seq
  | dropSubmit =>
    simp only [runChore, todo]
    exact cleared (.inr rfl)
  | signal c status =>
    simp only [runChore, todo, signal_session]
    exact .refl _
  | abortAnswer =>
    simp only [runChore, todo]
    split
    · exact cleared (.inl rfl)
    · exact .refl _
  | abortSubmit =>
    simp only [runChore, todo]
    split
    · exact cleared (.inr rfl)
    · exact .refl _
  | settle state =>
    simp only [runChore, todo]
    exact .of_cleared rfl rfl (.inr rfl) rfl rfl rfl rfl

/-- Whether the monitor begins the operation now. -/
def begins (t : Threads) (op : MonitorOp) : Bool :=
  t.todo.isEmpty && !t.session.finalized && allows t.session op

/-- Whether the step caches a frame, or is a section of a publish. -/
def acts (t : Threads) : Step → Bool
  | .begin (.cache obs) => t.begins (.cache obs)
  | .chore .. => t.todo.head?.any Chore.announces
  | _ => false

/-- What a step of a thread can do to the slots of its session. -/
inductive Section (t : Threads) : Step → Session → Prop
  | steady (step : Step) (s : Session) (passive : t.acts step = false)
      (steady : Session.Steady t.session s) : Section t step s
  | caches (obs : Observation) (begins : t.begins (.cache obs) = true) :
      Section t (.begin (.cache obs)) (t.session.cacheLastModalOptions obs)
  | builds (a : Announcement) (view : View) (rest : List Chore) (written : Bool) (now : Time)
      (todo : t.todo = .build a view :: rest) :
      Section t (.chore written now) (t.session.build a view).1
  | commits (b : Built) (owner : Option String) (rest : List Chore) (written : Bool) (now : Time)
      (todo : t.todo = .commit b owner :: rest) :
      Section t (.chore written now) (t.session.commit b owner)
  | freezes (b : Built) (rest : List Chore) (written : Bool) (now : Time)
      (todo : t.todo = .freeze b :: rest) :
      Section t (.chore written now) (t.session.freezeIdle b)

theorem step_section (step : Step) : Section t step ((machine cfg).step t step).1.session := by
  cases step with
  | call clean accepted named => exact .steady _ _ rfl (.refl _)
  | advance c expired written now =>
    exact .steady _ _ rfl (advance_steady cfg c expired written now)
  | «begin» op =>
    by_cases free : t.todo.isEmpty = true ∧ t.session.finalized = false ∧ allows t.session op = true
    · simp only [machine, free, and_self, if_true]
      by_cases caching : ∃ obs, op = .cache obs
      · obtain ⟨obs, rfl⟩ := caching
        exact .caches obs (by simp [begins, free])
      · refine .steady _ _ ?_ (beginOp_steady cfg op fun obs is => caching ⟨obs, is⟩)
        cases op with
        | cache obs => exact absurd ⟨obs, rfl⟩ caching
        | _ => rfl
    · simp only [machine, if_neg free]
      refine .steady _ _ ?_ (.refl _)
      cases op with
      | cache obs =>
        exact Bool.eq_false_iff.mpr fun does => free (by simpa [acts, begins, and_assoc] using does)
      | _ => rfl
  | chore written now =>
    simp only [machine]
    cases todo : t.todo with
    | nil =>
      simp only [runChore, todo]
      exact .steady _ _ (by rw [acts, todo]; rfl) (.refl _)
    | cons chore rest =>
      by_cases passive : chore.announces = false
      · exact .steady _ _ (by rw [acts, todo]; exact passive)
          (runChore_steady cfg todo passive written now)
      · cases chore with
        | build a view =>
          simp only [runChore, todo]
          exact .builds a view rest written now todo
        | commit b owner =>
          simp only [runChore, todo]
          exact .commits b owner rest written now todo
        | freeze b =>
          simp only [runChore, todo]
          exact .freezes b rest written now todo
        | _ => exact absurd rfl passive
  | publishElsewhere n owner =>
    refine .steady _ _ rfl ?_
    simp only [machine]
    split
    · exact ⟨rfl, fun _ is => is, fun _ => rfl, fun _ is => is, rfl, rfl, rfl,
        (EventQueue.publish_later n owner fun _ _ => .refl _).1⟩
    · exact .refl _
  | resolveElsewhere id reason =>
    refine .steady _ _ rfl ?_
    simp only [machine]
    split
    · exact Session.resolve_steady id reason
    · exact .refl _

/-- A publish is under way that was under way, or that the step has built. -/
theorem commit_mem_step (step : Step) {b : Built} {owner : Option String}
    (member : .commit b owner ∈ ((machine cfg).step t step).1.todo) :
    .commit b owner ∈ t.todo ∨ t.acts step = true ∧
      ∃ a view rest, t.todo = .build a view :: rest ∧ b = (t.session.build a view).2 := by
  cases step with
  | call clean accepted named => exact .inl member
  | advance c expired written now =>
    cases found : t.calls[c]? with
    | none =>
      simp only [machine, advance_absent cfg t found] at member
      exact .inl member
    | some call =>
      have advanced := advance_effect cfg t found expired written now
      exact .inl ((advance_within found advanced).commits b owner member)
  | «begin» op =>
    simp only [machine] at member
    split at member
    · exact .inl ((beginOp_within cfg op).commits b owner member)
    · exact .inl member
  | chore written now =>
    simp only [machine] at member
    cases todo : t.todo with
    | nil =>
      simp only [runChore, todo] at member
      cases member
    | cons chore rest =>
      cases passive : chore.publishes with
      | false =>
        have within := runChore_within cfg todo passive written now
        exact .inl (todo ▸ within.commits b owner member)
      | true =>
        cases chore with
        | build a view =>
          simp only [runChore, todo] at member
          rcases List.mem_cons.mp member with same | later
          · injection same with same
            exact .inr ⟨by rw [acts, todo]; rfl, a, view, rest, rfl, same⟩
          · exact .inl (List.mem_cons_of_mem _ ((List.mem_cons.mp later).resolve_left (by rintro ⟨⟩)))
        | commit b' owner' =>
          simp only [runChore, todo] at member
          exact .inl (List.mem_cons_of_mem _ member)
        | _ => cases passive
  | publishElsewhere n owner' =>
    simp only [machine] at member
    split at member <;> exact .inl member
  | resolveElsewhere id reason =>
    simp only [machine] at member
    split at member <;> exact .inl member

end Threads

end Nelix.Daemon
