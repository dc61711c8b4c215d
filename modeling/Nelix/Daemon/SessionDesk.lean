import Nelix.Daemon.SessionIdentities

/-!
# The desk of a session

The threads of a session are followed at a desk: the current decision is the open ticket, and the
fate of a call's answer is read off the call's stage, the slots and what the monitor has left to
do (`Agrees`). Each kind of step is a move at the desk.
-/
namespace Nelix.Daemon

/-- The fate of a call's answer. -/
abbrev Fate := Core.Fate Via DecisionId

/-- The current decision, how far each call is, and what was typed. -/
abbrev Desk := Core.Desk ℕ Via DecisionId

/-- Nothing more happens to the answer. -/
def Fate.Over (f : Fate) : Prop := f = .returned ∨ ∃ id landed, f = .wrote id landed

/-- The monitor has the answer, or had it. -/
def Fate.Taken (f : Fate) : Prop := (∃ id, f = .typing id) ∨ Fate.Over f

/-- The outcomes that promise that nothing was typed. -/
def RespondStatus.blameless : RespondStatus → Bool
  | .stale | .noPending | .invalidOption | .missingDecisionId => true
  | _ => false

/-- What an outcome says of the fate of the answer. -/
structure RespondStatus.Fits (status : RespondStatus) (f : Fate) : Prop where
  resumed : status = .resumed → ∃ id, f = .wrote id true
  blameless : status.blameless = true → f = .unsent ∨ f = .returned
  settled : f = .unsent ∨ Fate.Taken f

/-- What the stage of a call says of the fate of its answer. -/
def CallAt.Fits (f : Fate) : CallAt → Prop
  | .resolving | .typing => ∃ id, f = .claimed id
  | .recording => ∃ id, f = .wrote id true
  | .waiting via | .reclaiming via => (∃ id, f = .handed via id) ∨ Fate.Taken f
  | .releasing _ | .lastWait _ => Fate.Taken f
  | .done outcome => outcome.status.Fits f
  | .entering | .bound | .choosing | .routing | .claiming | .enqueueing _ | .refusing | .raised =>
    f = .unsent

/-- What a call says of the fate of its answer. -/
structure Call.Fits (call : Call) (f : Fate) : Prop where
  stage : call.stage.Fits f
  reply : ∀ status seq, call.reply = some (status, seq) → Fate.Over f ∧ status.Fits f
  held : ∀ id, f.ticket = some id → call.held = some id
  bound : ∀ id, call.held = some id → call.named = some id

/-- The monitor is about to type the answer of the call `c`. -/
def Chore.types (c : ℕ) : Chore → Bool
  | .typeAnswer pa => pa.call == c
  | .typeSubmit ps => ps.call == c
  | _ => false

/-- The monitor has the answer of `c` that still stands in the submit slot. -/
def Chore.settles (c : ℕ) : Chore → Bool
  | .typeSubmit ps => ps.call == c
  | .await call => call == c
  | .dropSubmit => true
  | _ => false

/-- What a chore says of the fate of the answer of `c`. -/
def Chore.Fits (c : ℕ) (f : Fate) : Chore → Prop
  | .typeAnswer pa => pa.call = c → f = .typing pa.decisionId
  | .typeSubmit ps => ps.call = c → f = .typing ps.decisionId
  | .await call => call = c → ∃ id, f = .wrote id true
  | .signal call status => call = c → Fate.Over f ∧ status.Fits f
  | _ => True

/-- What the submit slot says of the fate of its answer, which the monitor may be settling. -/
structure PendingSubmit.Fits (ps : PendingSubmit) (settling : Bool) (f : Fate) : Prop where
  ticket : f.ticket = some ps.decisionId
  written : ps.written = true → f = .wrote ps.decisionId true
  queued : ps.written = false → settling = false → f = .handed .freeText ps.decisionId
  claimed : settling = true →
    f = .typing ps.decisionId ∨ ∃ landed, f = .wrote ps.decisionId landed

/-- A chore that is not about an answer the monitor has taken, and not yet settled. -/
def Chore.plain : Chore → Bool
  | .typeAnswer _ | .typeSubmit _ | .await _ | .dropSubmit => false
  | _ => true

theorem Chore.plain_types {chore : Chore} (plain : chore.plain = true) (c : ℕ) :
    chore.types c = false := by
  cases chore <;> first | rfl | cases plain

theorem Chore.plain_settles {chore : Chore} (plain : chore.plain = true) (c : ℕ) :
    chore.settles c = false := by
  cases chore <;> first | rfl | cases plain

/-! ### Fates -/

theorem Fate.not_over_handed {via : Via} {id : DecisionId} : ¬ Fate.Over (.handed via id) := by
  rintro (same | ⟨_, _, same⟩) <;> cases same

theorem Fate.not_over_typing {id : DecisionId} : ¬ Fate.Over (.typing id) := by
  rintro (same | ⟨_, _, same⟩) <;> cases same

theorem Fate.not_taken_handed {via : Via} {id : DecisionId} : ¬ Fate.Taken (.handed via id) := by
  rintro (⟨_, same⟩ | concluded)
  · cases same
  · exact not_over_handed concluded

theorem RespondStatus.fits_of_other {status : RespondStatus} {f : Fate}
    (resumed : status ≠ .resumed) (blameless : status.blameless = false)
    (settled : f = .unsent ∨ Fate.Taken f) : status.Fits f where
  resumed same := absurd same resumed
  blameless same := absurd same (by simp [blameless])
  settled := settled

theorem RespondStatus.fits_of_untouched {status : RespondStatus} {f : Fate}
    (resumed : status ≠ .resumed) (untouched : f = .unsent ∨ f = .returned) : status.Fits f where
  resumed same := absurd same resumed
  blameless _ := untouched
  settled := by
    rcases untouched with rfl | rfl
    · exact .inl rfl
    · exact .inr (.inr (.inl rfl))

/-- The monitor takes an answer that was handed to it, or gives it back. -/
theorem Call.Fits.taken {call : Call} {via : Via} {id : DecisionId} (fits : call.Fits (.handed via id))
    {f : Fate} (taken : Fate.Taken f) (ticket : ∀ other, f.ticket = some other → other = id) :
    call.Fits f where
  stage := by
    have stage := fits.stage
    cases at_ : call.stage with
    | waiting | reclaiming => exact .inr taken
    | releasing | lastWait =>
      rw [at_] at stage
      exact absurd stage Fate.not_taken_handed
    | done outcome =>
      rw [at_] at stage
      rcases stage.settled with same | other
      · cases same
      · exact absurd other Fate.not_taken_handed
    | resolving | typing | recording =>
      rw [at_] at stage
      simp only [CallAt.Fits] at stage
      obtain ⟨_, same⟩ := stage
      cases same
    | entering | bound | choosing | routing | claiming | enqueueing | refusing | raised =>
      rw [at_] at stage
      cases stage
  reply status seq reply := absurd (fits.reply status seq reply).1 Fate.not_over_handed
  held other names := by
    rw [ticket other names]
    exact fits.held id rfl
  bound := fits.bound

/-- The monitor types an answer that it has taken. -/
theorem Call.Fits.typed {call : Call} {id : DecisionId} (fits : call.Fits (.typing id))
    (landed : Bool) : call.Fits (.wrote id landed) where
  stage := by
    have stage := fits.stage
    have taken : Fate.Taken (.wrote id landed) := .inr (.inr ⟨id, landed, rfl⟩)
    cases at_ : call.stage with
    | waiting | reclaiming => exact .inr taken
    | releasing | lastWait => exact taken
    | done outcome =>
      rw [at_] at stage
      refine RespondStatus.fits_of_other (fun same => ?_) ?_ (.inr taken)
      · obtain ⟨_, other⟩ := stage.resumed same
        cases other
      · refine Bool.eq_false_iff.mpr fun same => ?_
        rcases stage.blameless same with other | other <;> cases other
    | resolving | typing | recording =>
      rw [at_] at stage
      simp only [CallAt.Fits] at stage
      obtain ⟨_, same⟩ := stage
      cases same
    | entering | bound | choosing | routing | claiming | enqueueing | refusing | raised =>
      rw [at_] at stage
      cases stage
  reply status seq reply := absurd (fits.reply status seq reply).1 Fate.not_over_typing
  held other names := by
    cases names
    exact fits.held id rfl
  bound := fits.bound

/-- No chore is about an answer that still waits in its slot. -/
theorem Chore.Fits.of_handed {chore : Chore} {c : ℕ} {via : Via} {id : DecisionId}
    (fits : chore.Fits c (.handed via id)) (f : Fate) : chore.Fits c f := by
  cases chore with
  | typeAnswer pa =>
    intro own
    cases fits own
  | typeSubmit ps =>
    intro own
    cases fits own
  | await call =>
    intro own
    obtain ⟨_, same⟩ := fits own
    cases same
  | signal call status =>
    intro own
    exact absurd (fits own).1 Fate.not_over_handed
  | _ => trivial

/-- A call has its answer in one slot only. -/
theorem PendingSubmit.not_fits_blocked {ps : PendingSubmit} {settling : Bool} {id : DecisionId} :
    ¬ ps.Fits settling (.handed .blocked id) := by
  intro fits
  cases settles : settling with
  | true => rcases fits.claimed settles with same | ⟨_, same⟩ <;> cases same
  | false =>
    cases written : ps.written with
    | true => cases fits.written written
    | false => cases fits.queued written settles

namespace Threads

/-- The monitor is at the answer of `c` that stands in the submit slot. -/
def settling (t : Threads) (c : ℕ) : Bool := t.todo.any (Chore.settles c)

/-- What the threads show of the answer of the call `c`. -/
structure Agrees (t : Threads) (c : ℕ) (f : Fate) : Prop where
  call : ∀ call, t.calls[c]? = some call → call.Fits f
  absent : t.calls[c]? = none → f = .unsent
  answer : ∀ pa, t.session.pendingAnswer = some pa → pa.call = c →
    f = .handed .blocked pa.decisionId
  answered : ∀ id, f = .handed .blocked id →
    ∃ pa, t.session.pendingAnswer = some pa ∧ pa.call = c
  submit : ∀ ps, t.session.pendingSubmit = some ps → ps.call = c → ps.Fits (t.settling c) f
  submitted : ∀ id, f = .handed .freeText id →
    ∃ ps, t.session.pendingSubmit = some ps ∧ ps.call = c
  todo : ∀ chore ∈ t.todo, chore.Fits c f
  typing : ∀ id, f = .typing id → ∃ chore ∈ t.todo, chore.types c = true

/-- The threads show the desk. -/
structure Shows (t : Threads) (d : Desk) : Prop where
  sound : d.Sound
  opened : d.opened = t.session.currentId
  written : d.written = t.writes
  agrees : ∀ c, Agrees t c (d.fate c)
  /-- While the monitor types, it has nothing else to do. -/
  lone : ∀ chore ∈ t.todo, ∀ c, chore.types c = true → t.todo = [chore]
  /-- Nobody can enqueue, and nothing is published, while a submit is taken out of its slot. -/
  closed : ∀ chore ∈ t.todo, (∃ c, chore.settles c = true) →
    t.session.currentId = none ∧ ∀ other ∈ t.todo, other.publishes = false
  owner : ∀ ps, .typeSubmit ps ∈ t.todo → ∀ ps', t.session.pendingSubmit = some ps' →
    ps'.call = ps.call

variable {t t' : Threads} {d : Desk} {c : ℕ} {f : Fate}

/-- A step that is none of a call's business. -/
theorem Agrees.frame (agrees : Agrees t c f) (calls : t'.calls[c]? = t.calls[c]?)
    (answer : ∀ pa, pa.call = c →
      (t'.session.pendingAnswer = some pa ↔ t.session.pendingAnswer = some pa))
    (submit : ∀ ps, ps.call = c →
      (t'.session.pendingSubmit = some ps ↔ t.session.pendingSubmit = some ps))
    (todo : ∀ chore ∈ t'.todo, chore.Fits c f)
    (types : ∀ chore ∈ t.todo, chore.types c = true → chore ∈ t'.todo)
    (settling : ∀ ps, t.session.pendingSubmit = some ps → ps.call = c →
      t'.settling c = t.settling c) : Agrees t' c f where
  call call found := agrees.call call (calls ▸ found)
  absent none := agrees.absent (calls ▸ none)
  answer pa slot own := agrees.answer pa ((answer pa own).mp slot) own
  answered id handed := by
    obtain ⟨pa, slot, own⟩ := agrees.answered id handed
    exact ⟨pa, (answer pa own).mpr slot, own⟩
  submit ps slot own := by
    have before := (submit ps own).mp slot
    rw [settling ps before own]
    exact agrees.submit ps before own
  submitted id handed := by
    obtain ⟨ps, slot, own⟩ := agrees.submitted id handed
    exact ⟨ps, (submit ps own).mpr slot, own⟩
  todo := todo
  typing id typing := by
    obtain ⟨chore, member, types'⟩ := agrees.typing id typing
    exact ⟨chore, types chore member types', types'⟩

/-- A section of the session that leaves the slots alone, and closes the decision at most. -/
theorem Shows.section {s : Session} (shows : Shows t d)
    (current : s.currentId = none ∨ s.currentId = t.session.currentId)
    (answer : s.pendingAnswer = t.session.pendingAnswer)
    (submit : s.pendingSubmit = t.session.pendingSubmit) :
    Shows (t.setSession s) { d with opened := s.currentId } where
  sound := by
    rcases current with none | same
    · rw [none]
      exact Core.Desk.Move.close.sound shows.sound
    · rw [same, ← shows.opened]
      exact shows.sound
  opened := rfl
  written := shows.written
  agrees c := (shows.agrees c).frame rfl (fun pa _ => by rw [← answer]; rfl)
    (fun ps _ => by rw [← submit]; rfl) (shows.agrees c).todo (fun _ member _ => member)
    fun _ _ _ => rfl
  lone := shows.lone
  closed chore member settles := by
    obtain ⟨closed, passive⟩ := shows.closed chore member settles
    refine ⟨?_, passive⟩
    rcases current with none | same
    · exact none
    · exact same.trans closed
  owner ps member ps' slot := shows.owner ps member ps' (submit ▸ slot)

theorem Shows.alike {s : Session} (shows : Shows t d) (alike : Session.Alike t.session s) :
    Shows (t.setSession s) d := by
  have shown := shows.section (.inr alike.current) alike.answer alike.submit
  rwa [alike.current, ← shows.opened] at shown

/-- A call moves on, and its answer stays where it is. -/
theorem Shows.setCall {call call' : Call} (shows : Shows t d) (found : t.calls[c]? = some call)
    (fits : call'.Fits (d.fate c)) : Shows (t.setCall c call') d where
  sound := shows.sound
  opened := shows.opened
  written := shows.written
  agrees other := by
    by_cases own : other = c
    · subst own
      have agrees := shows.agrees other
      have inside : other < t.calls.length := (List.getElem?_eq_some_iff.mp found).1
      exact
        { agrees with
          call := fun call'' found' => by
            have is : t.calls.set other call' = (t.setCall other call').calls := rfl
            rw [← is, List.getElem?_set_self inside, Option.some.injEq] at found'
            exact found' ▸ fits
          absent := fun none => by
            have is : t.calls.set other call' = (t.setCall other call').calls := rfl
            rw [← is, List.getElem?_set_self inside] at none
            cases none }
    · refine (shows.agrees other).frame ?_ (fun _ _ => .rfl) (fun _ _ => .rfl)
        (shows.agrees other).todo (fun _ member _ => member) fun _ _ _ => rfl
      exact List.getElem?_set_ne (Ne.symm own)
  lone := shows.lone
  closed := shows.closed
  owner := shows.owner

theorem settling_of_plain {next : List Chore} (plain : ∀ chore ∈ next, chore.plain = true)
    (rest : List Chore) (c : ℕ) :
    (t.setTodo (next ++ rest)).settling c = (t.setTodo rest).settling c := by
  have none : next.any (Chore.settles c) = false :=
    List.any_eq_false.mpr fun chore member => by
      rw [Chore.plain_settles (plain chore member)]
      exact Bool.false_ne_true
  simp only [settling, setTodo, List.any_append, none, Bool.false_or]

/-! ### Answers that are not typed -/

/-- Another call does not notice that a slot is emptied. -/
theorem slot_emptied {α : Type*} {slot : Option α} {x : α} {caller : α → ℕ} (is : slot = some x)
    {other : ℕ} (differ : other ≠ caller x) (y : α) (own : caller y = other) :
    none = some y ↔ slot = some y := by
  constructor
  · intro absurd
    cases absurd
  · intro same
    rw [is, Option.some.injEq] at same
    exact absurd (same ▸ own).symm differ

/-- The monitor, or its caller, takes an answer out of its slot that was not typed. -/
theorem Shows.returnAnswer {pa : PendingAnswer} (shows : Shows t d)
    (slot : t.session.pendingAnswer = some pa) :
    Shows (t.setSession { t.session with pendingAnswer := none }) (d.setFate pa.call .returned) := by
  have handed := (shows.agrees pa.call).answer pa slot rfl
  have move : Core.Desk.Move d (d.setFate pa.call .returned) := by
    refine .pass _ _ ?_ rfl
    rw [handed]
    rfl
  refine ⟨move.sound shows.sound, shows.opened, shows.written, fun c => ?_, shows.lone,
    shows.closed, shows.owner⟩
  by_cases own : c = pa.call
  · subst own
    rw [Core.Desk.setFate_self]
    have agrees := shows.agrees pa.call
    rw [handed] at agrees
    exact
      { call := fun call found =>
          (agrees.call call found).taken (.inr (.inl rfl)) fun _ names => by cases names
        absent := fun none => by cases agrees.absent none
        answer := fun _ emptied _ => by cases emptied
        answered := fun _ same => by cases same
        submit := fun ps slot own => absurd (agrees.submit ps slot own) ps.not_fits_blocked
        submitted := fun _ same => by cases same
        todo := fun chore member => (agrees.todo chore member).of_handed _
        typing := fun _ same => by cases same }
  · rw [Core.Desk.setFate_ne _ own]
    exact (shows.agrees c).frame rfl (slot_emptied slot own) (fun _ _ => .rfl)
      (shows.agrees c).todo (fun _ member _ => member) fun _ _ _ => rfl

/-- A submit is taken out of its slot: one that was not typed goes back to its caller. -/
theorem Shows.emptySubmit {ps : PendingSubmit} (shows : Shows t d)
    (slot : t.session.pendingSubmit = some ps) :
    ∃ d', Shows (t.setSession { t.session with pendingSubmit := none }) d' ∧
      d'.opened = d.opened ∧ Fate.Taken (d'.fate ps.call) ∧
      (ps.written = false → t.settling ps.call = false → d'.fate ps.call = .returned) ∧
      (ps.written = true → d'.fate ps.call = .wrote ps.decisionId true) := by
  have fits := (shows.agrees ps.call).submit ps slot rfl
  by_cases waits : d.fate ps.call = .handed .freeText ps.decisionId
  · have move : Core.Desk.Move d (d.setFate ps.call .returned) := by
      refine .pass _ _ ?_ rfl
      rw [waits]
      rfl
    refine ⟨d.setFate ps.call .returned, ⟨move.sound shows.sound, shows.opened, shows.written,
      fun c => ?_, shows.lone, shows.closed, fun _ _ _ emptied => by cases emptied⟩,
      rfl, ?_, ?_, ?_⟩
    · by_cases own : c = ps.call
      · subst own
        rw [Core.Desk.setFate_self]
        have agrees := shows.agrees ps.call
        rw [waits] at agrees
        exact
          { call := fun call found =>
              (agrees.call call found).taken (.inr (.inl rfl)) fun _ names => by cases names
            absent := fun none => by cases agrees.absent none
            answer := fun pa slot own => by cases agrees.answer pa slot own
            answered := fun _ same => by cases same
            submit := fun _ emptied _ => by cases emptied
            submitted := fun _ same => by cases same
            todo := fun chore member => (agrees.todo chore member).of_handed _
            typing := fun _ same => by cases same }
      · rw [Core.Desk.setFate_ne _ own]
        exact (shows.agrees c).frame rfl (fun _ _ => .rfl) (slot_emptied slot own)
          (shows.agrees c).todo (fun _ member _ => member) fun _ _ _ => rfl
    · rw [Core.Desk.setFate_self]
      exact .inr (.inl rfl)
    · intro _ _
      rw [Core.Desk.setFate_self]
    · intro written
      rw [fits.written written] at waits
      cases waits
  · -- the monitor is at it, or has typed it
    refine ⟨d, ⟨shows.sound, shows.opened, shows.written, fun c => ?_, shows.lone, shows.closed,
      fun _ _ _ emptied => by cases emptied⟩, rfl, ?_, ?_, fits.written⟩
    · by_cases own : c = ps.call
      · subst own
        have agrees := shows.agrees ps.call
        exact
          { agrees with
            submit := fun _ emptied _ => by cases emptied
            submitted := fun id handed => by
              have ticket := fits.ticket
              rw [handed] at ticket
              cases ticket
              exact absurd handed waits }
      · exact (shows.agrees c).frame rfl (fun _ _ => .rfl) (slot_emptied slot own)
          (shows.agrees c).todo (fun _ member _ => member) fun _ _ _ => rfl
    · cases written : ps.written with
      | true =>
        rw [fits.written written]
        exact .inr (.inr ⟨_, _, rfl⟩)
      | false =>
        cases settles : t.settling ps.call with
        | false => exact absurd (fits.queued written settles) waits
        | true =>
          rcases fits.claimed settles with typing | ⟨landed, wrote⟩
          · exact .inl ⟨_, typing⟩
          · exact .inr (.inr ⟨_, landed, wrote⟩)
    · exact fun written settles => absurd (fits.queued written settles) waits

/-! ### Answers that are typed -/

/-- The monitor claims the current decision for the answer it found in its slot. -/
theorem Shows.takeAnswer {pa : PendingAnswer} (shows : Shows t d) (free : t.todo = [])
    (slot : t.session.pendingAnswer = some pa)
    (current : t.session.currentId = some pa.decisionId) :
    Shows
      ((t.setSession
          (({ t.session with pendingAnswer := none } : Session).setDecision none)).setTodo
        [.typeAnswer pa])
      { d.setFate pa.call (.typing pa.decisionId) with opened := none } := by
  have handed := (shows.agrees pa.call).answer pa slot rfl
  have move : Core.Desk.Move d
      { d.setFate pa.call (.typing pa.decisionId) with opened := none } := by
    refine .claim _ pa.decisionId _ (shows.opened.trans current) ?_ (.inr rfl)
    rw [handed]
    rfl
  refine ⟨move.sound shows.sound, rfl, shows.written, fun c => ?_, ?_, ?_, ?_⟩
  · by_cases own : c = pa.call
    · subst own
      have agrees := shows.agrees pa.call
      rw [handed] at agrees
      change Agrees _ _ ((d.setFate pa.call (.typing pa.decisionId)).fate pa.call)
      rw [Core.Desk.setFate_self]
      exact
        { call := fun call found =>
            (agrees.call call found).taken (.inl ⟨_, rfl⟩) fun _ names => by cases names; rfl
          absent := fun none => by cases agrees.absent none
          answer := fun _ emptied _ => by cases emptied
          answered := fun _ same => by cases same
          submit := fun ps slot own => absurd (agrees.submit ps slot own) ps.not_fits_blocked
          submitted := fun _ same => by cases same
          todo := fun chore member => by
            rw [List.mem_singleton.mp member]
            exact fun _ => rfl
          typing := fun _ _ => ⟨_, List.mem_singleton_self _, by simp [Chore.types]⟩ }
    · change Agrees _ _ ((d.setFate pa.call (.typing pa.decisionId)).fate c)
      rw [Core.Desk.setFate_ne _ own]
      refine (shows.agrees c).frame rfl (slot_emptied slot own) (fun _ _ => .rfl) ?_ ?_ ?_
      · intro chore member
        rw [List.mem_singleton.mp member]
        exact fun same => absurd same.symm own
      · intro chore member
        rw [free] at member
        cases member
      · intro ps _ _
        simp [settling, setTodo, free, Chore.settles]
  · intro chore member c types
    rw [List.mem_singleton.mp member]
    rfl
  · rintro chore member ⟨c, settles⟩
    rw [List.mem_singleton.mp member] at settles
    cases settles
  · intro ps member
    cases List.mem_singleton.mp member

/-- Likewise a submit, which stays in its slot. -/
theorem Shows.takeSubmit {ps : PendingSubmit} (shows : Shows t d) (free : t.todo = [])
    (slot : t.session.pendingSubmit = some ps) (queued : ps.written = false)
    (current : t.session.currentId = some ps.decisionId) :
    Shows ((t.setSession (t.session.setDecision none)).setTodo [.typeSubmit ps])
      { d.setFate ps.call (.typing ps.decisionId) with opened := none } := by
  have unsettled : ∀ c, t.settling c = false := fun c => by simp [settling, free]
  have handed := ((shows.agrees ps.call).submit ps slot rfl).queued queued (unsettled _)
  have move : Core.Desk.Move d
      { d.setFate ps.call (.typing ps.decisionId) with opened := none } := by
    refine .claim _ ps.decisionId _ (shows.opened.trans current) ?_ (.inr rfl)
    rw [handed]
    rfl
  refine ⟨move.sound shows.sound, rfl, shows.written, fun c => ?_, ?_, ?_, ?_⟩
  · by_cases own : c = ps.call
    · subst own
      have agrees := shows.agrees ps.call
      rw [handed] at agrees
      change Agrees _ _ ((d.setFate ps.call (.typing ps.decisionId)).fate ps.call)
      rw [Core.Desk.setFate_self]
      exact
        { call := fun call found =>
            (agrees.call call found).taken (.inl ⟨_, rfl⟩) fun _ names => by cases names; rfl
          absent := fun none => by cases agrees.absent none
          answer := fun pa slot own => by cases agrees.answer pa slot own
          answered := fun _ same => by cases same
          submit := fun ps' slot' own => by
            obtain rfl : ps = ps' := Option.some.inj (slot.symm.trans slot')
            exact
              { ticket := rfl
                written := fun written => by rw [queued] at written; cases written
                queued := fun _ unsettled => by
                  simp [settling, setTodo, Chore.settles] at unsettled
                claimed := fun _ => .inl rfl }
          submitted := fun _ same => by cases same
          todo := fun chore member => by
            rw [List.mem_singleton.mp member]
            exact fun _ => rfl
          typing := fun _ _ => ⟨_, List.mem_singleton_self _, by simp [Chore.types]⟩ }
    · change Agrees _ _ ((d.setFate ps.call (.typing ps.decisionId)).fate c)
      rw [Core.Desk.setFate_ne _ own]
      refine (shows.agrees c).frame rfl (fun _ _ => .rfl) (fun _ _ => .rfl) ?_ ?_ ?_
      · intro chore member
        rw [List.mem_singleton.mp member]
        exact fun same => absurd same.symm own
      · intro chore member
        rw [free] at member
        cases member
      · -- the slot holds the answer of another call
        intro ps' slot' same
        obtain rfl : ps = ps' := Option.some.inj (slot.symm.trans slot')
        exact absurd same.symm own
  · intro chore member c types
    rw [List.mem_singleton.mp member]
    rfl
  · rintro chore member ⟨c, settles⟩
    refine ⟨rfl, fun other member => ?_⟩
    rw [List.mem_singleton.mp member]
    rfl
  · intro ps' member ps'' slot'
    cases List.mem_singleton.mp member
    obtain rfl : ps = ps'' := Option.some.inj (slot.symm.trans slot')
    rfl

/-- The monitor types an answer, and goes on to settle it. -/
theorem Shows.typed {chore : Chore} {next : List Chore} {id : DecisionId} (shows : Shows t d)
    (todo : t.todo = [chore]) (typing : d.fate c = .typing id) (own : chore.types c = true)
    (landed : Bool)
    (fits : ∀ other ∈ next, ∀ c', other.Fits c' ((d.setFate c (.wrote id landed)).fate c'))
    (types : ∀ other ∈ next, ∀ c', other.types c' = false)
    (passive : ∀ other ∈ next, other.publishes = false)
    (settles : ∀ ps, t.session.pendingSubmit = some ps →
      next.any (Chore.settles ps.call) = chore.settles ps.call)
    (closed : (∃ other ∈ next, ∃ c', other.settles c' = true) → ∃ c', chore.settles c' = true) :
    Shows ((t.logWrite ⟨c, id, landed⟩).setTodo next)
      { d.setFate c (.wrote id landed) with written := d.written ++ [⟨c, id, landed⟩] } := by
  have settling : ∀ ps, t.session.pendingSubmit = some ps →
      ((t.logWrite ⟨c, id, landed⟩).setTodo next).settling ps.call = t.settling ps.call := by
    intro ps slot
    simp only [Threads.settling, setTodo, todo, List.any_cons, List.any_nil, Bool.or_false]
    exact settles ps slot
  have move : Core.Desk.Move d
      { d.setFate c (.wrote id landed) with written := d.written ++ [⟨c, id, landed⟩] } :=
    .write c id landed (.inr typing)
  refine ⟨move.sound shows.sound, shows.opened, congrArg (· ++ _) shows.written, fun c' => ?_,
    ?_, ?_, ?_⟩
  · have agrees := shows.agrees c'
    change Agrees _ _ ((d.setFate c (.wrote id landed)).fate c')
    by_cases same : c' = c
    · subst same
      rw [typing] at agrees
      rw [Core.Desk.setFate_self]
      exact
        { call := fun call found => (agrees.call call found).typed landed
          absent := fun none => by cases agrees.absent none
          answer := fun pa slot own => by cases agrees.answer pa slot own
          answered := fun _ same => by cases same
          submit := fun ps slot own => by
            subst own
            rw [settling ps slot]
            have before := agrees.submit ps slot rfl
            obtain rfl : id = ps.decisionId := Option.some.inj before.ticket
            exact
              { ticket := rfl
                written := fun written => by cases before.written written
                queued := fun queued unsettled => by cases before.queued queued unsettled
                claimed := fun _ => .inr ⟨landed, rfl⟩ }
          submitted := fun _ same => by cases same
          todo := fun other member => by simpa using fits other member c'
          typing := fun _ same => by cases same }
    · rw [Core.Desk.setFate_ne _ same]
      refine agrees.frame rfl (fun _ _ => .rfl) (fun _ _ => .rfl) ?_ ?_ ?_
      · intro other member
        have fits' := fits other member c'
        rwa [Core.Desk.setFate_ne _ same] at fits'
      · -- the chore types for nobody else
        intro other member types'
        rw [todo, List.mem_singleton] at member
        subst member
        refine absurd ?_ same
        cases other with
        | typeAnswer pa => exact (beq_iff_eq.mp types').symm.trans (beq_iff_eq.mp own)
        | typeSubmit ps => exact (beq_iff_eq.mp types').symm.trans (beq_iff_eq.mp own)
        | _ => cases own
      · intro ps slot own
        rw [← own]
        exact settling ps slot
  · intro other member c' types'
    rw [types other member] at types'
    cases types'
  · rintro other member settles'
    obtain ⟨closed', -⟩ := shows.closed chore (todo ▸ List.mem_singleton_self _)
      (closed ⟨other, member, settles'⟩)
    exact ⟨closed', fun third member => passive third member⟩
  · intro ps member
    have none := types _ member ps.call
    simp [Chore.types] at none

/-- A submit that is known to be typed is noted in its slot. -/
theorem Shows.note {ps : PendingSubmit} (ps' : PendingSubmit) (shows : Shows t d)
    (slot : t.session.pendingSubmit = some ps) (call : ps'.call = ps.call)
    (decision : ps'.decisionId = ps.decisionId) (written : ps'.written = true)
    (wrote : d.fate ps.call = .wrote ps.decisionId true) :
    Shows (t.setSession { t.session with pendingSubmit := some ps' }) d := by
  refine ⟨shows.sound, shows.opened, shows.written, fun c => ?_, shows.lone, shows.closed,
    fun other member ps'' slot' => ?_⟩
  · by_cases own : c = ps.call
    · subst own
      have agrees := shows.agrees ps.call
      rw [wrote] at agrees ⊢
      exact
        { agrees with
          submit := fun ps'' slot' _ => by
            cases slot'
            rw [← decision]
            exact
              { ticket := rfl
                written := fun _ => rfl
                queued := fun queued _ => by rw [written] at queued; cases queued
                claimed := fun _ => .inr ⟨true, rfl⟩ }
          submitted := fun _ same => by cases same }
    · refine (shows.agrees c).frame rfl (fun _ _ => .rfl) (fun ps'' own' => ?_)
        (shows.agrees c).todo (fun _ member _ => member) fun _ _ _ => rfl
      constructor
      · intro slot'
        cases slot'
        exact absurd (call.symm.trans own').symm own
      · intro slot'
        obtain rfl : ps = ps'' := Option.some.inj (slot.symm.trans slot')
        exact absurd own'.symm own
  · cases slot'
    exact call.trans (shows.owner other member ps slot)

/-- Nothing is left to be typed behind another chore. -/
theorem Shows.untyped {chore : Chore} {rest : List Chore} (shows : Shows t d)
    (todo : t.todo = chore :: rest) : ∀ other ∈ rest, ∀ c, other.types c = false := by
  intro other member c
  refine Bool.eq_false_iff.mpr fun types => ?_
  have alone := shows.lone other (todo ▸ List.mem_cons_of_mem _ member) c types
  rw [todo] at alone
  injection alone with _ empty
  rw [empty] at member
  cases member

/-- The monitor has settled the submit in its slot. -/
theorem Shows.pop {chore : Chore} {rest : List Chore} (shows : Shows t d)
    (todo : t.todo = chore :: rest) (types : ∀ c, chore.types c = false)
    (settled : ∀ ps, t.session.pendingSubmit = some ps → chore.settles ps.call = true →
      ps.written = true) : Shows (t.setTodo rest) d := by
  have kept : ∀ {other}, other ∈ rest → other ∈ t.todo := fun member =>
    todo ▸ List.mem_cons_of_mem _ member
  refine ⟨shows.sound, shows.opened, shows.written, fun c => ?_, ?_, ?_, ?_⟩
  · have agrees := shows.agrees c
    exact
      { agrees with
        submit := fun ps slot own => by
          have fits := agrees.submit ps slot own
          refine ⟨fits.ticket, fits.written, fun queued unsettled => ?_, fun settles => ?_⟩
          · refine fits.queued queued ?_
            have quiet : chore.settles c = false := by
              refine Bool.eq_false_iff.mpr fun settles => ?_
              rw [settled ps slot (own ▸ settles)] at queued
              cases queued
            simp only [Threads.settling, setTodo] at unsettled
            simp only [Threads.settling, todo, List.any_cons, quiet, unsettled, Bool.or_false]
          · refine fits.claimed ?_
            simp only [Threads.settling, setTodo] at settles
            simp only [Threads.settling, todo, List.any_cons, settles, Bool.or_true]
        todo := fun other member => agrees.todo other (kept member)
        typing := fun id typing => by
          obtain ⟨other, member, types'⟩ := agrees.typing id typing
          rcases List.mem_cons.mp (todo ▸ member) with rfl | old
          · rw [types] at types'
            cases types'
          · exact ⟨other, old, types'⟩ }
  · intro other member c types'
    rw [shows.untyped todo other member] at types'
    cases types'
  · intro other member settles
    obtain ⟨closed, passive⟩ := shows.closed other (kept member) settles
    exact ⟨closed, fun third member => passive third (kept member)⟩
  · exact fun ps member => shows.owner ps (kept member)

/-- Putting chores before the rest, none of which is about a taken answer. -/
theorem Shows.push (next : List Chore) (shows : Shows t d)
    (types : ∀ other ∈ t.todo, ∀ c, other.types c = false)
    (plain : ∀ other ∈ next, other.plain = true)
    (fits : ∀ other ∈ next, ∀ c, other.Fits c (d.fate c))
    (publishes : ∀ other ∈ next, other.publishes = true →
      ∀ third ∈ t.todo, ∀ c, third.settles c = false) :
    Shows (t.setTodo (next ++ t.todo)) d where
  sound := shows.sound
  opened := shows.opened
  written := shows.written
  agrees c := by
    refine (shows.agrees c).frame rfl (fun _ _ => .rfl) (fun _ _ => .rfl) ?_ ?_ ?_
    · intro other member
      rcases List.mem_append.mp member with new | old
      · exact fits other new c
      · exact (shows.agrees c).todo other old
    · exact fun other member _ => List.mem_append_right _ member
    · exact fun ps _ _ => settling_of_plain plain t.todo c
  lone other member c types' := by
    rcases List.mem_append.mp member with new | old
    · rw [Chore.plain_types (plain other new)] at types'
      cases types'
    · rw [types other old] at types'
      cases types'
  closed other member settles := by
    rcases List.mem_append.mp member with new | old
    · obtain ⟨c, settles⟩ := settles
      rw [Chore.plain_settles (plain other new)] at settles
      cases settles
    · obtain ⟨closed, passive⟩ := shows.closed other old settles
      refine ⟨closed, fun third member => ?_⟩
      rcases List.mem_append.mp member with new | old'
      · refine Bool.eq_false_iff.mpr fun publishing => ?_
        obtain ⟨c, settles⟩ := settles
        rw [publishes third new publishing other old c] at settles
        cases settles
      · exact passive third old'
  owner ps member := by
    rcases List.mem_append.mp member with new | old
    · cases plain _ new
    · exact shows.owner ps old

/-! ### The steps of a call -/

theorem getElem?_setCall {call : Call} (call' : Call) (found : t.calls[c]? = some call) :
    (t.setCall c call').calls[c]? = some call' :=
  List.getElem?_set_self (List.getElem?_eq_some_iff.mp found).1

theorem getElem?_setCall_ne {call' : Call} {other : ℕ} (differ : other ≠ c) :
    (t.setCall c call').calls[other]? = t.calls[other]? :=
  List.getElem?_set_ne (Ne.symm differ)

/-- No slot, and no chore, is about an answer that its call has not handed over. -/
theorem Agrees.unheld (agrees : Agrees t c f)
    (own : f = .unsent ∨ ∃ id, f = .claimed id) :
    (∀ pa, t.session.pendingAnswer = some pa → pa.call ≠ c) ∧
      (∀ ps, t.session.pendingSubmit = some ps → ps.call ≠ c) ∧
        ∀ chore ∈ t.todo, ∀ g, chore.Fits c g := by
  refine ⟨fun pa slot same => ?_, fun ps slot same => ?_, fun chore member g => ?_⟩
  · have handed := agrees.answer pa slot same
    rcases own with rfl | ⟨_, rfl⟩ <;> cases handed
  · have fits := agrees.submit ps slot same
    cases settles : t.settling c with
    | true =>
      rcases fits.claimed settles with is | ⟨_, is⟩ <;> rcases own with rfl | ⟨_, rfl⟩ <;> cases is
    | false =>
      cases written : ps.written with
      | true =>
        have is := fits.written written
        rcases own with rfl | ⟨_, rfl⟩ <;> cases is
      | false =>
        have is := fits.queued written settles
        rcases own with rfl | ⟨_, rfl⟩ <;> cases is
  · have fits := agrees.todo chore member
    have overs : ¬ Fate.Over f := by
      rintro (is | ⟨_, _, is⟩) <;> rcases own with rfl | ⟨_, rfl⟩ <;> cases is
    cases chore with
    | typeAnswer pa =>
      intro same
      have is := fits same
      rcases own with rfl | ⟨_, rfl⟩ <;> cases is
    | typeSubmit ps =>
      intro same
      have is := fits same
      rcases own with rfl | ⟨_, rfl⟩ <;> cases is
    | await call =>
      intro same
      obtain ⟨_, is⟩ := fits same
      rcases own with rfl | ⟨_, rfl⟩ <;> cases is
    | signal call status => exact fun same => absurd (fits same).1 overs
    | _ => trivial

/-- A call deals with an answer that it has not handed over. -/
theorem Agrees.acts {call : Call} {g : Fate} (agrees : Agrees t c f)
    (own : f = .unsent ∨ ∃ id, f = .claimed id) (found : t'.calls[c]? = some call)
    (fits : call.Fits g) (answer : t'.session.pendingAnswer = t.session.pendingAnswer)
    (submit : t'.session.pendingSubmit = t.session.pendingSubmit) (todo : t'.todo = t.todo)
    (handed : ∀ via id, g ≠ .handed via id) (typing : ∀ id, g ≠ .typing id) : Agrees t' c g := by
  obtain ⟨noAnswer, noSubmit, noChore⟩ := agrees.unheld own
  exact
    { call := fun call' found' => by
        rw [found, Option.some.injEq] at found'
        exact found' ▸ fits
      absent := fun none => by
        rw [found] at none
        cases none
      answer := fun pa slot same => absurd same (noAnswer pa (answer ▸ slot))
      answered := fun id same => absurd same (handed _ id)
      submit := fun ps slot same => absurd same (noSubmit ps (submit ▸ slot))
      submitted := fun id same => absurd same (handed _ id)
      todo := fun chore member => noChore chore (todo ▸ member) g
      typing := fun id same => absurd same (typing id) }

/-- A call claims the current decision, to type the answer itself. -/
theorem Shows.claims {call call' : Call} {id : DecisionId} (shows : Shows t d)
    (found : t.calls[c]? = some call) (current : t.session.currentId = some id)
    (unsent : d.fate c = .unsent) (fits : call'.Fits (.claimed id)) :
    Shows ((t.setSession (t.session.setDecision none)).setCall c call')
      { d.setFate c (.claimed id) with opened := none } := by
  have move : Core.Desk.Move d { d.setFate c (.claimed id) with opened := none } :=
    .claim c id _ (shows.opened.trans current) (by rw [unsent]; rfl) (.inl rfl)
  refine ⟨move.sound shows.sound, rfl, shows.written, fun other => ?_, shows.lone, ?_, shows.owner⟩
  · have agrees := shows.agrees other
    change Agrees _ _ ((d.setFate c (.claimed id)).fate other)
    by_cases same : other = c
    · subst same
      rw [Core.Desk.setFate_self]
      exact agrees.acts (.inl unsent) (getElem?_setCall call' found) fits rfl rfl rfl
        (fun _ _ => by simp) fun _ => by simp
    · rw [Core.Desk.setFate_ne _ same]
      exact agrees.frame (getElem?_setCall_ne same) (fun _ _ => .rfl) (fun _ _ => .rfl) agrees.todo
        (fun _ member _ => member) fun _ _ _ => rfl
  · intro chore member settles
    exact ⟨rfl, (shows.closed chore member settles).2⟩

/-- A call types the answer that it claimed. -/
theorem Shows.types {call call' : Call} {id : DecisionId} (shows : Shows t d)
    (found : t.calls[c]? = some call) (claimed : d.fate c = .claimed id) (landed : Bool)
    (fits : call'.Fits (.wrote id landed)) :
    Shows ((t.logWrite ⟨c, id, landed⟩).setCall c call')
      { d.setFate c (.wrote id landed) with written := d.written ++ [⟨c, id, landed⟩] } := by
  have move : Core.Desk.Move d
      { d.setFate c (.wrote id landed) with written := d.written ++ [⟨c, id, landed⟩] } :=
    .write c id landed (.inl claimed)
  refine ⟨move.sound shows.sound, shows.opened, congrArg (· ++ _) shows.written, fun other => ?_,
    shows.lone, shows.closed, shows.owner⟩
  have agrees := shows.agrees other
  change Agrees _ _ ((d.setFate c (.wrote id landed)).fate other)
  by_cases same : other = c
  · subst same
    rw [Core.Desk.setFate_self]
    exact agrees.acts (.inr ⟨id, claimed⟩) (getElem?_setCall call' found) fits rfl rfl rfl
      (fun _ _ => by simp) fun _ => by simp
  · rw [Core.Desk.setFate_ne _ same]
    exact agrees.frame (getElem?_setCall_ne same) (fun _ _ => .rfl) (fun _ _ => .rfl) agrees.todo
      (fun _ member _ => member) fun _ _ _ => rfl

/-- A call hands its answer over in an empty slot. -/
theorem Shows.hands {call call' : Call} {via : Via} {id : DecisionId} {s : Session}
    (shows : Shows t d) (found : t.calls[c]? = some call) (unsent : d.fate c = .unsent)
    (waiting : enqueue t.session c id call.clean via = .waiting s)
    (fits : call'.Fits (.handed via id)) :
    Shows ((t.setSession s).setCall c call') (d.setFate c (.handed via id)) := by
  have move : Core.Desk.Move d (d.setFate c (.handed via id)) :=
    .pass c _ (by rw [unsent]; rfl) rfl
  have agrees := shows.agrees c
  obtain ⟨noAnswer, noSubmit, noChore⟩ := agrees.unheld (.inl unsent)
  have own : ∀ call'', ((t.setSession s).setCall c call').calls[c]? = some call'' →
      call''.Fits (.handed via id) := by
    intro call'' found''
    have is := (getElem?_setCall (t := t.setSession s) call' found).symm.trans found''
    exact Option.some.inj is ▸ fits
  have made : ((t.setSession s).setCall c call').calls[c]? ≠ none := by
    rw [getElem?_setCall (t := t.setSession s) call' found]
    simp
  cases via with
  | blocked =>
    obtain ⟨-, current, free, -, rfl⟩ := Session.enqueueAnswer_waiting waiting
    refine ⟨move.sound shows.sound, shows.opened, shows.written, fun other => ?_, shows.lone,
      shows.closed, shows.owner⟩
    by_cases same : other = c
    · subst same
      rw [Core.Desk.setFate_self]
      exact
        { call := own
          absent := fun none => absurd none made
          answer := fun pa slot _ => by cases slot; rfl
          answered := fun _ _ => ⟨_, rfl, rfl⟩
          submit := fun ps slot same => absurd same (noSubmit ps slot)
          submitted := fun _ same => by cases same
          todo := fun chore member => noChore chore member _
          typing := fun _ same => by cases same }
    · rw [Core.Desk.setFate_ne _ same]
      refine (shows.agrees other).frame (getElem?_setCall_ne same) (fun pa own' => ?_)
        (fun _ _ => .rfl) (shows.agrees other).todo (fun _ member _ => member) fun _ _ _ => rfl
      constructor
      · intro slot
        cases slot
        exact absurd own'.symm same
      · intro slot
        rw [free] at slot
        cases slot
  | freeText =>
    obtain ⟨-, current, free, rfl⟩ := Session.enqueueSubmit_waiting waiting
    have idle : ∀ chore ∈ t.todo, ∀ c', chore.settles c' = false := by
      intro chore member c'
      refine Bool.eq_false_iff.mpr fun settles => ?_
      have closed := (shows.closed chore member ⟨c', settles⟩).1
      rw [current] at closed
      cases closed
    refine ⟨move.sound shows.sound, shows.opened, shows.written, fun other => ?_, shows.lone,
      shows.closed, fun ps member => ?_⟩
    · by_cases same : other = c
      · subst same
        rw [Core.Desk.setFate_self]
        exact
          { call := own
            absent := fun none => absurd none made
            answer := fun pa slot same => absurd same (noAnswer pa slot)
            answered := fun _ same => by cases same
            submit := fun ps slot _ => by
              cases slot
              refine ⟨rfl, fun written => (by cases written), fun _ _ => rfl, fun settles => ?_⟩
              obtain ⟨chore, member, settles⟩ := List.any_eq_true.mp settles
              rw [idle chore member] at settles
              cases settles
            submitted := fun _ _ => ⟨_, rfl, rfl⟩
            todo := fun chore member => noChore chore member _
            typing := fun _ same => by cases same }
      · rw [Core.Desk.setFate_ne _ same]
        refine (shows.agrees other).frame (getElem?_setCall_ne same) (fun _ _ => .rfl)
          (fun ps own' => ?_) (shows.agrees other).todo (fun _ member _ => member)
          fun _ _ _ => rfl
        constructor
        · intro slot
          cases slot
          exact absurd own'.symm same
        · intro slot
          rw [free] at slot
          cases slot
    · have settles := idle _ member ps.call
      simp [Chore.settles] at settles

/-- A decision that nobody holds becomes current. -/
theorem Shows.install {s : Session} {id : DecisionId} (shows : Shows t d)
    (fresh : ∀ call ∈ t.calls, call.held ≠ some id) (current : s.currentId = some id)
    (answer : s.pendingAnswer = t.session.pendingAnswer)
    (submit : s.pendingSubmit = t.session.pendingSubmit)
    (idle : ∀ chore ∈ t.todo, ∀ c, chore.settles c = false) :
    Shows (t.setSession s) { d with opened := some id } := by
  have move : Core.Desk.Move d { d with opened := some id } := by
    refine .start id fun c stake => ?_
    have agrees := shows.agrees c
    cases found : t.calls[c]? with
    | none =>
      rw [agrees.absent found] at stake
      cases stake
    | some call =>
      refine fresh call (List.mem_of_getElem? found) ((agrees.call call found).held id ?_)
      cases fate : d.fate c <;> rw [fate] at stake <;> first | exact stake | cases stake
  refine ⟨move.sound shows.sound, current.symm, shows.written, fun c => ?_, shows.lone, ?_, ?_⟩
  · exact (shows.agrees c).frame rfl (fun pa _ => by rw [← answer]; rfl)
      (fun ps _ => by rw [← submit]; rfl) (shows.agrees c).todo (fun _ member _ => member)
      fun _ _ _ => rfl
  · rintro chore member ⟨c, settles⟩
    rw [idle chore member] at settles
    cases settles
  · exact fun ps member ps' slot => shows.owner ps member ps' (submit ▸ slot)

end Threads

end Nelix.Daemon
