import Nelix.Daemon.SessionFrames

/-!
# The ids a session mints

An id is minted once: whatever the threads refer to is an id this session has minted, and a
decision that is built and not yet published is referred to by nobody (`Minted`). Every step but
the two of a publish refers to nothing new (`Within`).
-/
namespace Nelix.Daemon

/-- An id that this session has minted. -/
def Session.Known (s : Session) (id : DecisionId) : Prop := ∃ n < s.nextDecision, id = .dec s.id n

theorem Session.Known.mono {s s' : Session} {other : DecisionId} (known : s.Known other)
    (id : s'.id = s.id) (grows : s.nextDecision ≤ s'.nextDecision) : s'.Known other := by
  obtain ⟨n, minted, rfl⟩ := known
  exact ⟨n, lt_of_lt_of_le minted grows, by rw [id]⟩

/-- The current decision has this id, or an answer waits in a slot for it. -/
def Session.Mentions (s : Session) (id : DecisionId) : Prop :=
  s.currentId = some id ∨ (∃ pa, s.pendingAnswer = some pa ∧ pa.decisionId = id) ∨
    ∃ ps, s.pendingSubmit = some ps ∧ ps.decisionId = id

/-- The decision that a chore resolves, or writes an answer for. -/
def Chore.decisionId : Chore → Option DecisionId
  | .resolve id _ => some id
  | .typeAnswer pa => some pa.decisionId
  | .typeSubmit ps => some ps.decisionId
  | _ => none

/-- The chores of a publish. -/
def Chore.publishes : Chore → Bool
  | .build .. | .commit .. => true
  | _ => false

/-- A session that keeps its decisions, and refers to no further ones. -/
structure Session.Below (s s' : Session) : Prop where
  id : s'.id = s.id
  minted : s'.nextDecision = s.nextDecision
  nature : ∀ id, s'.nature id = s.nature id
  current : ∀ id, s'.currentId = some id → s.currentId = some id
  mentions : ∀ id, s'.Mentions id → s.Mentions id

theorem Session.Alike.below {s s' : Session} (alike : Session.Alike s s') : Session.Below s s' where
  id := alike.id
  minted := alike.minted
  nature := alike.nature
  current id current := alike.current ▸ current
  mentions id := by
    simp only [Session.Mentions, alike.current, alike.answer, alike.submit]
    exact fun mentions => mentions

theorem Session.Below.refl (s : Session) : Session.Below s s := (Session.Alike.refl s).below

/-- The decision and the slots are cleared at most. -/
theorem Session.Below.of_cleared {s s' : Session} (id : s'.id = s.id)
    (minted : s'.nextDecision = s.nextDecision) (asks : s'.asks = s.asks)
    (current : s'.currentId = none ∨ s'.currentId = s.currentId)
    (answer : s'.pendingAnswer = none ∨ s'.pendingAnswer = s.pendingAnswer)
    (submit : s'.pendingSubmit = none ∨ s'.pendingSubmit = s.pendingSubmit) :
    Session.Below s s' where
  id := id
  minted := minted
  nature other := by rw [Session.nature, Session.nature, asks]
  current other is := by
    rcases current with cleared | same
    · rw [cleared] at is
      cases is
    · exact same ▸ is
  mentions other := by
    rintro (is | ⟨pa, slot, names⟩ | ⟨ps, slot, names⟩)
    · rcases current with cleared | same
      · rw [cleared] at is
        cases is
      · exact .inl (same ▸ is)
    · rcases answer with cleared | same
      · rw [cleared] at slot
        cases slot
      · exact .inr (.inl ⟨pa, same ▸ slot, names⟩)
    · rcases submit with cleared | same
      · rw [cleared] at slot
        cases slot
      · exact .inr (.inr ⟨ps, same ▸ slot, names⟩)

/-- A slot is filled again for a decision that was referred to before. -/
theorem Session.Below.fill {s : Session} {ps : PendingSubmit} (mentioned : s.Mentions ps.decisionId) :
    Session.Below s { s with pendingSubmit := some ps } where
  id := rfl
  minted := rfl
  nature _ := rfl
  current _ is := is
  mentions other := by
    rintro (is | slot | ⟨ps', slot, names⟩)
    · exact .inl is
    · exact .inr (.inl slot)
    · cases slot
      exact names ▸ mentioned

namespace Session

theorem freezeIdle_below (s : Session) (b : Built) : Below s (s.freezeIdle b) := by
  simp only [freezeIdle]
  split
  · exact .of_cleared rfl rfl rfl (.inl rfl) (.inr rfl) (.inr rfl)
  · exact .refl s

theorem awaitConfirm_below (s : Session) (call : ℕ) (seq : Option EventId) :
    Below s (s.awaitConfirm call seq) := by
  simp only [awaitConfirm]
  split
  next ps slot =>
    split
    · exact .fill (.inr (.inr ⟨ps, slot, rfl⟩))
    · exact .refl s
  next => exact .refl s

end Session

namespace Threads

/-- Some thread refers to this id. -/
def Mentions (t : Threads) (id : DecisionId) : Prop :=
  t.session.Mentions id ∨ (∃ call ∈ t.calls, call.held = some id) ∨
    ∃ chore ∈ t.todo, chore.decisionId = some id

/-- Every id in use was minted here, and one that is yet to be published is not in use. -/
structure Minted (t : Threads) : Prop where
  known : ∀ id, t.Mentions id → t.session.Known id
  filed : ∀ id n kind, t.session.nature id = some (n, kind) → n = id
  kept : ∀ id, t.session.currentId = some id → t.session.nature id ≠ none
  built : ∀ b owner, .commit b owner ∈ t.todo → ∀ ask, b.ask = some ask →
    t.session.Known ask.decisionId ∧ (b.isReemit = false → ¬ t.Mentions ask.decisionId)
  single : t.todo.countP Chore.publishes ≤ 1

/-- Nothing new is referred to. -/
structure Within (t t' : Threads) : Prop where
  session : Session.Below t.session t'.session
  calls : ∀ call ∈ t'.calls, ∀ id, call.held = some id → t.Mentions id
  todo : ∀ chore ∈ t'.todo, ∀ id, chore.decisionId = some id → t.Mentions id
  commits : ∀ b owner, .commit b owner ∈ t'.todo → .commit b owner ∈ t.todo
  single : t'.todo.countP Chore.publishes ≤ max 1 (t.todo.countP Chore.publishes)

variable (cfg : BeliefConfig) {t t' : Threads} {chore : Chore} {rest : List Chore}

theorem Within.mentions (within : Within t t') {id : DecisionId} (mentions : t'.Mentions id) :
    t.Mentions id := by
  rcases mentions with own | ⟨call, member, held⟩ | ⟨chore, member, names⟩
  · exact .inl (within.session.mentions id own)
  · exact within.calls call member id held
  · exact within.todo chore member id names

theorem Within.known (within : Within t t') {id : DecisionId} :
    t'.session.Known id ↔ t.session.Known id := by
  simp only [Session.Known, within.session.id, within.session.minted]

theorem Minted.within (minted : Minted t) (within : Within t t') : Minted t' where
  known id mentions := within.known.mpr (minted.known id (within.mentions mentions))
  filed id n kind filed := minted.filed id n kind (by rwa [within.session.nature] at filed)
  kept id current := by
    rw [within.session.nature]
    exact minted.kept id (within.session.current id current)
  built b owner member ask is := by
    obtain ⟨known, fresh⟩ := minted.built b owner (within.commits b owner member) ask is
    exact ⟨within.known.mpr known, fun first mentions => fresh first (within.mentions mentions)⟩
  single := within.single.trans (max_le le_rfl minted.single)

/-- A section of the session, with no call and no chore of the monitor involved. -/
theorem Within.section (below : Session.Below t.session t'.session) (calls : t'.calls = t.calls)
    (todo : t'.todo = t.todo) : Within t t' where
  session := below
  calls call member _ held := .inr (.inl ⟨call, calls ▸ member, held⟩)
  todo chore member _ names := .inr (.inr ⟨chore, todo ▸ member, names⟩)
  commits _ _ member := todo ▸ member
  single := by rw [todo]; exact le_max_right ..

/-- A step of the call `c`, which keeps its decision, or binds to the current one. -/
theorem Within.call {s : Session} {c : ℕ} {call call' : Call} (found : t.calls[c]? = some call)
    (below : Session.Below t.session s)
    (held : ∀ id, call'.held = some id → call.held = some id ∨ t.session.currentId = some id) :
    Within t ((t.setSession s).setCall c call') where
  session := below
  calls other member id isHeld := by
    rcases List.mem_or_eq_of_mem_set member with old | rfl
    · exact .inr (.inl ⟨other, old, isHeld⟩)
    · rcases held id isHeld with before | current
      · exact .inr (.inl ⟨call, List.mem_of_getElem? found, before⟩)
      · exact .inl (.inl current)
  todo chore member _ names := .inr (.inr ⟨chore, member, names⟩)
  commits _ _ member := member
  single := le_max_right ..

/-- A step of the monitor, which puts `next` before what it leaves of `todo`. -/
theorem Within.monitor (next rest : List Chore) (below : Session.Below t.session t'.session)
    (calls : ∀ call ∈ t'.calls, ∃ old ∈ t.calls, call.held = old.held)
    (todo : t'.todo = next ++ rest) (kept : ∀ chore ∈ rest, chore ∈ t.todo)
    (names : ∀ chore ∈ next, ∀ id, chore.decisionId = some id → t.Mentions id)
    (commits : ∀ b owner, .commit b owner ∉ next)
    (single : (next ++ rest).countP Chore.publishes ≤ max 1 (t.todo.countP Chore.publishes)) :
    Within t t' where
  session := below
  calls call member id held := by
    obtain ⟨old, before, same⟩ := calls call member
    exact .inr (.inl ⟨old, before, same ▸ held⟩)
  todo chore member id isNamed := by
    rcases List.mem_append.mp (todo ▸ member) with new | old
    · exact names chore new id isNamed
    · exact .inr (.inr ⟨chore, kept chore old, isNamed⟩)
  commits b owner member := by
    rcases List.mem_append.mp (todo ▸ member) with new | old
    · exact absurd new (commits b owner)
    · exact kept _ old
  single := todo ▸ single

theorem reclaim_below {s s' : Session} {c : ℕ} {via : Via} (slot : reclaim s c via = some s') :
    Session.Below s s' := by
  cases via with
  | blocked =>
    simp only [reclaim] at slot
    split at slot
    · split at slot
      · cases slot
        exact .of_cleared rfl rfl rfl (.inr rfl) (.inl rfl) (.inr rfl)
      · cases slot
    · cases slot
  | freeText =>
    simp only [reclaim] at slot
    split at slot
    · split at slot
      · cases slot
        exact .of_cleared rfl rfl rfl (.inr rfl) (.inr rfl) (.inl rfl)
      · cases slot
    · cases slot

theorem enqueue_below {s s' : Session} {c : ℕ} {id : DecisionId} {clean : String} {via : Via}
    (waiting : enqueue s c id clean via = .waiting s') : Session.Below s s' := by
  cases via with
  | blocked =>
    obtain ⟨-, current, free, -, rfl⟩ := Session.enqueueAnswer_waiting waiting
    refine ⟨rfl, rfl, fun _ => rfl, fun _ is => is, ?_⟩
    rintro other (is | ⟨pa, slot, names⟩ | slot)
    · exact .inl is
    · cases slot
      exact .inl (names ▸ current)
    · exact .inr (.inr slot)
  | freeText =>
    obtain ⟨-, current, free, rfl⟩ := Session.enqueueSubmit_waiting waiting
    exact .fill (.inl current)

/-- A call refers to no decision that was not current when it came. -/
theorem advance_within {c : ℕ} {call : Call} {expired : Bool} (found : t.calls[c]? = some call)
    (advanced : Advanced t c call expired t') : Within t t' := by
  have keeps : ∀ (stage' : CallAt) {s : Session}, Session.Below t.session s →
      Within t ((t.setSession s).goto c call stage') :=
    fun stage' s below => .call found below fun _ held => .inl held
  cases advanced with
  | stays => exact .section (.refl _) rfl rfl
  | binds id _ current =>
    refine .call (s := t.session) found (.refl _) fun other held => .inr ?_
    cases held
    exact current
  | turnedAway | refuses | replied | tires | misses | expires => exact keeps _ (.refl _)
  | moves s stage' _ _ alike => exact keeps stage' alike.below
  | claims => exact keeps _ (.of_cleared rfl rfl rfl (.inl rfl) (.inr rfl) (.inr rfl))
  | resolves id seq =>
    exact .call found (Session.resolve_alike ..).below fun _ held => .inl held
  | types id written stage' =>
    have within := keeps stage' (.refl _)
    exact ⟨within.session, within.calls, within.todo, within.commits, within.single⟩
  | records _ s _ _ _ alike => exact keeps _ alike.below
  | enqueues via id s stage held waiting => exact keeps _ (enqueue_below waiting)
  | supersedes => exact keeps _ (Session.resolve_alike ..).below
  | reclaims via s stage slot => exact keeps _ (reclaim_below slot)

/-- The decision an answer is typed for is the current one. -/
theorem Minted.current_of_blockedOn (minted : Minted t) {id : DecisionId}
    (blocked : t.session.blockedOn id = true) : t.session.currentId = some id := by
  simp only [Session.blockedOn] at blocked
  split at blocked
  next ask is =>
    simp only [Bool.and_eq_true, beq_iff_eq] at blocked
    rw [Session.currentAsk, Option.bind_eq_some_iff] at is
    obtain ⟨current, isCurrent, found⟩ := is
    have filed := minted.filed current ask.decisionId ask.kind (by rw [Session.nature, found]; rfl)
    rw [isCurrent, ← filed, blocked.1.1]
  next => cases blocked

theorem beginOp_within (op : MonitorOp) : Within t (t.beginOp cfg op) := by
  have quiet : ∀ {s : Session}, Session.Below t.session s → Within t (t.setSession s) :=
    fun below => .section below rfl rfl
  have starts : ∀ {s : Session} (next : List Chore), Session.Below t.session s →
      (∀ chore ∈ next, ∀ id, chore.decisionId = some id → t.Mentions id) →
      next.countP Chore.publishes ≤ 1 → (∀ b owner, .commit b owner ∉ next) →
        Within t ((t.setSession s).setTodo next) := by
    intro s next below names single commits
    refine .monitor next [] below (fun call member => ⟨call, member, rfl⟩) ?_ (by simp) names
      commits ?_
    · rw [List.append_nil]
      rfl
    · rw [List.append_nil]
      exact single.trans (le_max_left ..)
  cases op with
  | announce a view => exact starts [_] (.refl _) (by simp [Chore.decisionId]) (by simp [Chore.publishes]) (by simp)
  | withdraw key reason =>
    simp only [beginOp]
    rcases Session.takeDown_cases t.session key with ⟨id, current, down⟩ | down
    · rw [down]
      refine starts _ (.of_cleared rfl rfl rfl (.inl rfl) (.inr rfl) (.inr rfl)) ?_ (by simp [Chore.publishes])
        (by simp)
      simp only [List.mem_singleton, forall_eq, Chore.decisionId, Option.some.injEq]
      rintro _ rfl
      exact .inl (.inl current)
    · rw [down]
      exact quiet (.refl _)
  | hook hobs now => exact quiet (Session.drainHook_alike cfg t.session hobs now).1.below
  | tick obs ctx now => exact quiet (Session.tick_alike cfg t.session obs ctx now).1.below
  | cache obs => exact quiet (Session.cacheLastModalOptions_alike t.session obs).1.below
  | enrich obs => exact quiet (Session.enrichHookModalOptions_alike t.session obs).1.below
  | drainAnswer obs bodyFp =>
    simp only [beginOp]
    have effect := Session.claimAnswer_effect t.session obs bodyFp
    generalize t.session.claimAnswer obs bodyFp = r at effect ⊢
    cases effect with
    | empty => exact quiet (.refl _)
    | write pa slot =>
      refine starts _ (.of_cleared rfl rfl rfl (.inl rfl) (.inl rfl) (.inr rfl)) ?_ (by simp [Chore.publishes])
        (by simp)
      simp only [List.mem_singleton, forall_eq, Chore.decisionId, Option.some.injEq]
      exact fun _ names => .inl (.inr (.inl ⟨pa, slot, names⟩))
    | abort pa slot =>
      refine starts _ (.of_cleared rfl rfl rfl (.inr rfl) (.inl rfl) (.inr rfl)) ?_ (by simp [Chore.publishes])
        (by simp)
      simp only [List.mem_cons, List.not_mem_nil, or_false, forall_eq_or_imp, forall_eq,
        Chore.decisionId, Option.some.injEq]
      exact ⟨fun _ names => .inl (.inr (.inl ⟨pa, slot, names⟩)), by simp⟩
  | drainSubmit obs late =>
    simp only [beginOp]
    have effect := Session.drainSubmit_effect t.session obs late
    generalize t.session.drainSubmit obs late = r at effect ⊢
    cases effect with
    | empty => exact quiet (.refl _)
    | write ps slot =>
      refine starts _ (.of_cleared rfl rfl rfl (.inl rfl) (.inr rfl) (.inr rfl)) ?_ (by simp [Chore.publishes])
        (by simp)
      simp only [List.mem_singleton, forall_eq, Chore.decisionId, Option.some.injEq]
      exact fun _ names => .inl (.inr (.inr ⟨ps, slot, names⟩))
    | abort ps slot =>
      refine starts _ (.of_cleared rfl rfl rfl (.inr rfl) (.inr rfl) (.inl rfl)) ?_ (by simp [Chore.publishes])
        (by simp)
      simp only [List.mem_cons, List.not_mem_nil, or_false, forall_eq_or_imp, forall_eq,
        Chore.decisionId, Option.some.injEq]
      exact ⟨fun _ names => .inl (.inr (.inr ⟨ps, slot, names⟩)), by simp⟩
    | wait ps echo slot => exact quiet (.fill (.inr (.inr ⟨ps, slot, rfl⟩)))
    | settle ps echo verdict slot done ends =>
      have cleared : Session.Below t.session { t.session with pendingSubmit := none } :=
        .of_cleared rfl rfl rfl (.inr rfl) (.inr rfl) (.inl rfl)
      have said : ∀ status, Within t
          ((t.setSession { t.session with pendingSubmit := none }).setTodo
            [.signal ps.call status]) :=
        fun status => starts _ cleared (by simp [Chore.decisionId]) (by simp [Chore.publishes]) (by simp)
      rcases ends with rfl | rfl
      · have within := said .resumed
        exact ⟨within.session, within.calls, within.todo, within.commits, within.single⟩
      · have within := said .respondFailed
        exact ⟨within.session, within.calls, within.todo, within.commits, within.single⟩
  | deliver task hookCapable now =>
    rw [beginOp_deliver]
    have effect := Session.confirmDelivery_effect t.session cfg task hookCapable now
    generalize t.session.confirmDelivery cfg task hookCapable now = r at effect ⊢
    have answer : ∀ chore ∈ t.session.pendingAnswer.elim []
        (fun pa => [Chore.resolve pa.decisionId .superseded, .signal pa.call .stale]),
        ∀ id, chore.decisionId = some id → t.Mentions id := by
      cases slot : t.session.pendingAnswer with
      | none => simp
      | some pa =>
        simp only [Option.elim_some, List.mem_cons, List.not_mem_nil, or_false, forall_eq_or_imp,
          forall_eq, Chore.decisionId, Option.some.injEq]
        exact ⟨fun _ names => .inl (.inr (.inl ⟨pa, slot, names⟩)), by simp⟩
    cases effect with
    | retires id n _ _ current =>
      refine starts _ (.of_cleared rfl rfl rfl (.inl rfl) (.inl rfl) (.inr rfl)) ?_ ?_ ?_
      · simp only [Option.elim_some, List.singleton_append, List.mem_cons, forall_eq_or_imp]
        refine ⟨fun _ names => ?_, answer⟩
        cases names
        exact .inl (.inl current)
      · cases t.session.pendingAnswer <;> simp [Chore.publishes]
      · cases t.session.pendingAnswer <;> simp
    | keeps =>
      refine starts _ (.of_cleared rfl rfl rfl (.inr rfl) (.inl rfl) (.inr rfl)) answer ?_ ?_
      · cases t.session.pendingAnswer <;> simp [Chore.publishes]
      · cases t.session.pendingAnswer <;> simp
  | failDelivery => exact quiet (.of_cleared rfl rfl rfl (.inr rfl) (.inr rfl) (.inr rfl))
  | finish ending view =>
    have flagged : Session.Below t.session { t.session with finalized := true, closing := true } :=
      .of_cleared rfl rfl rfl (.inr rfl) (.inr rfl) (.inr rfl)
    cases ending with
    | none => exact starts _ flagged (by simp [Chore.decisionId]) (by simp [Chore.publishes]) (by simp)
    | some ending => exact starts _ flagged (by simp [Chore.decisionId]) (by simp [Chore.publishes]) (by simp)

/-- A chore that publishes nothing refers to nothing new. -/
theorem runChore_within (todo : t.todo = chore :: rest) (passive : chore.publishes = false)
    (written : Bool) (now : Time) : Within t (t.runChore cfg written now) := by
  have kept : ∀ other ∈ rest, other ∈ t.todo := fun other member => by
    rw [todo]
    exact List.mem_cons_of_mem _ member
  have count : t.todo.countP Chore.publishes = rest.countP Chore.publishes := by
    rw [todo, List.countP_cons_of_neg (by simp [passive])]
  -- `next` is what the chore leaves to be done before the rest
  have runs : ∀ {u : Threads} (next : List Chore), Session.Below t.session u.session →
      u.calls = t.calls → u.todo = next ++ rest →
      (∀ other ∈ next, ∀ id, other.decisionId = some id → t.Mentions id) →
      next.countP Chore.publishes = 0 → Within t u := by
    intro u next below calls todo' names none
    refine .monitor next rest below (fun call member => ⟨call, calls ▸ member, rfl⟩) todo' kept names ?_ ?_
    · intro b owner member
      exact absurd rfl (List.countP_eq_zero.mp none _ member)
    · rw [List.countP_append, none, Nat.zero_add, count]
      exact le_max_right ..
  have named : ∀ id, chore.decisionId = some id → t.Mentions id := fun id names =>
    .inr (.inr ⟨chore, todo ▸ List.mem_cons_self, names⟩)
  cases chore with
  | build | commit => cases passive
  | freeze b =>
    simp only [runChore, todo]
    exact runs [] (Session.freezeIdle_below ..) rfl rfl (by simp) rfl
  | resolve id reason =>
    simp only [runChore, todo]
    exact runs [] (Session.resolve_alike ..).below rfl rfl (by simp) rfl
  | typeAnswer pa =>
    have own := named pa.decisionId rfl
    simp only [runChore, todo]
    cases written with
    | true => exact runs [_, _, _] (.refl _) rfl rfl (by simpa [Chore.decisionId] using own) rfl
    | false => exact runs [_, _] (.refl _) rfl rfl (by simpa [Chore.decisionId] using own) rfl
  | typeSubmit ps =>
    have own := named ps.decisionId rfl
    simp only [runChore, todo]
    cases written with
    | true => exact runs [_, _, _] (.refl _) rfl rfl (by simpa [Chore.decisionId] using own) rfl
    | false => exact runs [_, _, _] (.refl _) rfl rfl (by simpa [Chore.decisionId] using own) rfl
  | record clean =>
    simp only [runChore, todo]
    exact runs [] (Session.recordSubmit_alike ..).1.below rfl rfl (by simp) rfl
  | await c =>
    simp only [runChore, todo]
    exact runs [] (Session.awaitConfirm_below ..) rfl rfl (by simp) rfl
  | dropSubmit =>
    simp only [runChore, todo]
    exact runs [] (.of_cleared rfl rfl rfl (.inr rfl) (.inr rfl) (.inl rfl)) rfl rfl (by simp) rfl
  | signal c status =>
    simp only [runChore, todo]
    refine .monitor [] rest ?_ (signal_calls (t.setTodo rest) c status)
      (signal_todo (t.setTodo rest) c status) kept (by simp) (by simp) ?_
    · rw [signal_session]
      exact .refl _
    · rw [List.nil_append, count]
      exact le_max_right ..
  | abortAnswer =>
    simp only [runChore, todo]
    split
    next pa slot =>
      refine runs [_, _] (.of_cleared rfl rfl rfl (.inr rfl) (.inl rfl) (.inr rfl)) rfl rfl ?_ rfl
      simp only [List.mem_cons, List.not_mem_nil, or_false, forall_eq_or_imp, forall_eq,
        Chore.decisionId, Option.some.injEq]
      exact ⟨fun _ names => .inl (.inr (.inl ⟨pa, slot, names⟩)), by simp⟩
    next => exact runs [] (.refl _) rfl rfl (by simp) rfl
  | abortSubmit =>
    simp only [runChore, todo]
    split
    next ps slot =>
      refine runs [_, _] (.of_cleared rfl rfl rfl (.inr rfl) (.inr rfl) (.inl rfl)) rfl rfl ?_ rfl
      simp only [List.mem_cons, List.not_mem_nil, or_false, forall_eq_or_imp, forall_eq,
        Chore.decisionId, Option.some.injEq]
      exact ⟨fun _ names => .inl (.inr (.inr ⟨ps, slot, names⟩)), by simp⟩
    next => exact runs [] (.refl _) rfl rfl (by simp) rfl
  | settle state =>
    simp only [runChore, todo]
    exact runs [] (.of_cleared rfl rfl rfl (.inr rfl) (.inr rfl) (.inr rfl)) rfl rfl (by simp) rfl

theorem not_known_next (s : Session) : ¬ s.Known (.dec s.id s.nextDecision) := by
  rintro ⟨n, minted, same⟩
  injection same with _ next
  exact absurd (next ▸ minted) (Nat.lt_irrefl _)

/-- A decision that was built has an id of its own, or repeats the current one. -/
theorem Minted.build_known {a : Announcement} {view : View} (minted : Minted t) {ask : Ask}
    (is : (t.session.build a view).2.ask = some ask) :
    (t.session.build a view).1.Known ask.decisionId ∧
      ((t.session.build a view).2.isReemit = false → ¬ t.Mentions ask.decisionId) := by
  have effect := Session.build_effect t.session a view
  generalize t.session.build a view = r at effect is ⊢
  cases effect with
  | plain _ _ _ _ none =>
    rw [none] at is
    cases is
  | again _ _ ask' id alike _ is' reemit current filed =>
    obtain rfl : ask' = ask := Option.some.inj (is'.symm.trans is)
    obtain ⟨kind, filed⟩ := filed
    rw [minted.filed id _ kind filed]
    refine ⟨(minted.known id (.inl (.inl current))).mono alike.id alike.minted.ge, fun first => ?_⟩
    rw [reemit] at first
    cases first
  | first _ _ ask' alike _ next is' fresh =>
    obtain rfl : ask' = ask := Option.some.inj (is'.symm.trans is)
    rw [fresh]
    refine ⟨⟨t.session.nextDecision, ?_, by rw [← alike.id]⟩, fun _ mention => ?_⟩
    · rw [next]
      exact Nat.lt_succ_self _
    · exact not_known_next t.session (minted.known _ mention)

/-- The first section of a publish may mint an id, which nothing refers to yet. -/
theorem Minted.build {a : Announcement} {view : View} (minted : Minted t)
    (todo : t.todo = .build a view :: rest) :
    Minted
      ((t.setSession (t.session.build a view).1).setTodo
        (.commit (t.session.build a view).2 view.owner ::
          .freeze (t.session.build a view).2 :: rest)) := by
  have single := minted.single
  rw [todo, List.countP_cons_of_pos (by rfl)] at single
  have none : rest.countP Chore.publishes = 0 := by omega
  obtain ⟨alike, grows, -⟩ := Session.build_alike t.session a view
  have built : ∀ ask, (t.session.build a view).2.ask = some ask → _ :=
    fun ask is => minted.build_known is
  generalize t.session.build a view = r at alike grows built ⊢
  obtain ⟨s', b⟩ := r
  have mentions : ∀ id,
      Mentions ((t.setSession s').setTodo (.commit b view.owner :: .freeze b :: rest)) id →
      t.Mentions id := by
    rintro id (own | held | ⟨chore, member, isNamed⟩)
    · exact .inl (alike.below.mentions id own)
    · exact .inr (.inl held)
    · rcases List.mem_cons.mp member with rfl | member
      · cases isNamed
      rcases List.mem_cons.mp member with rfl | member
      · cases isNamed
      · exact .inr (.inr ⟨chore, todo ▸ List.mem_cons_of_mem _ member, isNamed⟩)
  refine ⟨fun id mention => ?_, fun id n kind filed => ?_, fun id current => ?_, ?_, ?_⟩
  · exact (minted.known id (mentions id mention)).mono alike.id grows
  · exact minted.filed id n kind ((alike.nature id).symm.trans filed)
  · have kept := minted.kept id (alike.current.symm.trans current)
    rwa [← alike.nature] at kept
  · intro b' owner member ask is
    rcases List.mem_cons.mp member with same | member
    · injection same with same
      rw [same] at is ⊢
      exact ⟨(built ask is).1, fun first mention => (built ask is).2 first (mentions _ mention)⟩
    rcases List.mem_cons.mp member with same | member
    · cases same
    · exact absurd rfl (List.countP_eq_zero.mp none _ member)
  · change (Chore.commit b view.owner :: .freeze b :: rest).countP Chore.publishes ≤ 1
    rw [List.countP_cons_of_pos (by rfl), List.countP_cons_of_neg (by simp [Chore.publishes]), none]

/-- Publishing the event installs the built decision at most. -/
theorem Minted.commit {b : Built} {owner : Option String} (minted : Minted t)
    (todo : t.todo = .commit b owner :: rest) :
    Minted ((t.setTodo rest).setSession (t.session.commit b owner)) := by
  have single := minted.single
  rw [todo, List.countP_cons_of_pos (by rfl)] at single
  have none : rest.countP Chore.publishes = 0 := by omega
  have onlyOne : ∀ b owner, Chore.commit b owner ∉ rest := fun b owner member =>
    absurd rfl (List.countP_eq_zero.mp none _ member)
  have popped : ∀ {s : Session}, Session.Below t.session s →
      Within t ((t.setTodo rest).setSession s) := by
    intro s below
    refine .monitor [] rest below (fun call member => ⟨call, member, rfl⟩) rfl ?_ (by simp)
      (by simp) ?_
    · intro chore member
      rw [todo]
      exact List.mem_cons_of_mem _ member
    · rw [List.nil_append, none]
      exact Nat.zero_le _
  have effect := Session.commit_effect t.session b owner
  generalize t.session.commit b owner = s' at effect ⊢
  cases effect with
  | plain _ alike | refreshed _ _ _ alike | obsolete _ _ _ _ alike =>
    exact minted.within (popped alike.below)
  | installed ask is first current nature fields =>
    obtain ⟨known, -⟩ := minted.built b owner (by rw [todo]; exact List.mem_cons_self) ask is
    obtain ⟨sameId, answer, submit, next, -⟩ := fields
    have knows : ∀ id, t.session.Known id → s'.Known id :=
      fun id known => known.mono sameId next.ge
    refine ⟨?_, fun id n kind filed => ?_, fun id is' => ?_, ?_, ?_⟩
    · rintro id ((is' | slot | slot) | held | ⟨chore, member, names⟩)
      · obtain rfl : ask.decisionId = id := Option.some.inj (current.symm.trans is')
        exact knows _ known
      · exact knows id (minted.known id (.inl (.inr (.inl (answer ▸ slot)))))
      · exact knows id (minted.known id (.inl (.inr (.inr (submit ▸ slot)))))
      · exact knows id (minted.known id (.inr (.inl held)))
      · exact knows id (minted.known id (.inr (.inr ⟨chore,
          by rw [todo]; exact List.mem_cons_of_mem _ member, names⟩)))
    · have filed : s'.nature id = some (n, kind) := filed
      rw [nature] at filed
      split at filed
      next same =>
        rw [Option.some.injEq, Prod.mk.injEq] at filed
        rw [same, filed.1]
      next => exact minted.filed id n kind filed
    · obtain rfl : ask.decisionId = id := Option.some.inj (current.symm.trans is')
      change s'.nature _ ≠ _
      rw [nature, if_pos rfl]
      simp
    · exact fun b' owner' member => absurd member (onlyOne b' owner')
    · exact none.le.trans (Nat.zero_le 1)

theorem minted_step (minted : Minted t) (i : Step) : Minted ((machine cfg).step t i).1 := by
  cases i with
  | call clean accepted named =>
    refine minted.within ⟨.refl _, ?_, ?_, fun b owner member => member, le_max_right ..⟩
    · intro call member id held
      rcases List.mem_append.mp member with old | new
      · exact .inr (.inl ⟨call, old, held⟩)
      · rw [List.mem_singleton] at new
        rw [new] at held
        cases held
    · exact fun chore member id names => .inr (.inr ⟨chore, member, names⟩)
  | advance c expired written now =>
    cases found : t.calls[c]? with
    | none =>
      simp only [machine, advance_absent cfg t found]
      exact minted
    | some call =>
      exact minted.within (advance_within found (advance_effect cfg t found expired written now))
  | begin op =>
    simp only [machine]
    split
    · exact minted.within (beginOp_within cfg op)
    · exact minted
  | chore written now =>
    simp only [machine]
    cases todo : t.todo with
    | nil =>
      simp only [runChore, todo]
      exact minted
    | cons chore rest =>
      cases passive : chore.publishes with
      | false => exact minted.within (runChore_within cfg todo passive written now)
      | true =>
        cases chore with
        | build a view =>
          simp only [runChore, todo]
          exact minted.build todo
        | commit b owner =>
          simp only [runChore, todo]
          exact minted.commit todo
        | _ => cases passive
  | publishElsewhere n owner =>
    simp only [machine]
    split
    · exact minted.within (.section ⟨rfl, rfl, fun _ => rfl, fun _ is => is, fun _ is => is⟩ rfl rfl)
    · exact minted
  | resolveElsewhere id reason =>
    simp only [machine]
    split
    · exact minted.within (.section (Session.resolve_alike ..).below rfl rfl)
    · exact minted

theorem minted_started (id : SessionId) (events : EventQueue) : Minted (started id events) where
  known other := by
    rintro ((is | ⟨pa, slot, -⟩ | ⟨ps, slot, -⟩) | ⟨call, member, -⟩ | ⟨chore, member, -⟩)
    · cases is
    · cases slot
    · cases slot
    · cases member
    · cases member
  filed other n kind filed := by cases filed
  kept other is := by cases is
  built b owner member := by cases member
  single := Nat.zero_le _

end Threads

end Nelix.Daemon
