import Nelix.Daemon.SessionDesk

/-!
# An answer is typed at most once

Every step of the threads is a move at the desk, so the laws of the desk hold of every run: a
decision is answered by one write, a call that resumed the session made it, and a call that was
turned away wrote nothing. A caller that stops waiting while the monitor types its answer is told
`stale` all the same; `InTime` excludes that step.
-/
namespace Nelix.Daemon

/-- The status a call has returned. -/
def Call.returned (call : Call) : Option RespondStatus :=
  match call.stage with
  | .done outcome => some outcome.status
  | _ => none

/-- The caller has missed the monitor once, and has no reply yet. -/
def Call.unanswered (call : Call) : Bool :=
  match call.stage with
  | .lastWait _ => call.reply.isNone
  | _ => false

theorem Call.Fits.goto {call : Call} {f : Fate} (fits : call.Fits f) {stage' : CallAt}
    (stage : stage'.Fits f) : ({ call with stage := stage' } : Call).Fits f :=
  ⟨stage, fits.reply, fits.held, fits.bound⟩

theorem CallAt.Fits.early {stage : CallAt} {f : Fate} (fits : stage.Fits f)
    (early : stage.early = true) : f = .unsent := by
  cases stage <;> first | exact fits | cases early

theorem CallAt.fits_of_early {stage : CallAt} (early : stage.early = true) :
    stage.Fits .unsent := by
  cases stage <;> first | rfl | cases early

/-- Nobody replies to a call before it handed its answer over. -/
theorem Call.Fits.unreplied {call : Call} {f : Fate} (fits : call.Fits f) (open_ : ¬ Fate.Over f)
    {g : Fate} : ∀ status seq, call.reply = some (status, seq) → Fate.Over g ∧ status.Fits g :=
  fun status seq reply => absurd (fits.reply status seq reply).1 open_

theorem Fate.not_over_unsent : ¬ Fate.Over .unsent := by
  rintro (same | ⟨_, _, same⟩) <;> cases same

theorem Via.giveUp_fits {via : Via} {f : Fate} (settled : f = .unsent ∨ Fate.Taken f) :
    via.giveUp.Fits f := by
  cases via <;> exact RespondStatus.fits_of_other (by simp [Via.giveUp]) rfl settled

namespace Threads

variable (cfg : BeliefConfig) {t : Threads} {d : Desk} {c : ℕ}

/-- The answer of the call `c` was typed, or is about to be. -/
def touched (t : Threads) (c : ℕ) : Bool :=
  t.writes.any (fun w => w.caller == c) || t.todo.any (Chore.types c)

/-- No caller gives up its second wait while the monitor types its answer. -/
def InTime (t : Threads) : Step → Prop
  | .advance c expired _ _ =>
    expired = true → (t.calls[c]?.any Call.unanswered) = true → t.touched c = false
  | _ => True

instance : DecidableRel InTime
  | _, .advance .. => inferInstanceAs (Decidable (_ → _ → _))
  | _, .call .. | _, .begin _ | _, .chore .. | _, .publishElsewhere .. | _, .resolveElsewhere .. =>
    isTrue trivial

/-! ### The steps of a call -/

/-- What the monitor has not typed, and will not type, was given back. -/
theorem Shows.returned_of_untouched (shows : Shows t d) (taken : Fate.Taken (d.fate c))
    (untouched : t.touched c = false) : d.fate c = .returned := by
  simp only [touched, Bool.or_eq_false_iff, List.any_eq_false] at untouched
  rcases taken with ⟨id, typing⟩ | same | ⟨id, landed, wrote⟩
  · obtain ⟨chore, member, types⟩ := (shows.agrees c).typing id typing
    exact absurd types (untouched.2 chore member)
  · exact same
  · have logged := (shows.sound.wrote ⟨c, id, landed⟩).mpr wrote
    rw [shows.written] at logged
    exact absurd (beq_self_eq_true c) (untouched.1 _ logged)

/-- Whoever finds its answer gone from the slot knows that the monitor has it. -/
theorem Shows.taken_of_missed {call : Call} {via : Via} (shows : Shows t d)
    (found : t.calls[c]? = some call) (stage : call.stage = .reclaiming via)
    (missed : reclaim t.session c via = none) : Fate.Taken (d.fate c) := by
  have fits := ((shows.agrees c).call call found).stage
  rw [stage] at fits
  rcases fits with ⟨id, handed⟩ | taken
  · cases via with
    | blocked =>
      obtain ⟨pa, slot, own⟩ := (shows.agrees c).answered id handed
      simp only [reclaim, slot, if_pos own] at missed
      cases missed
    | freeText =>
      obtain ⟨ps, slot, own⟩ := (shows.agrees c).submitted id handed
      simp only [reclaim, slot, if_pos own] at missed
      cases missed
  · exact taken

/-- An answer that its caller takes back is not typed any more, or was typed already. -/
theorem Shows.reclaims {call : Call} {via : Via} {s : Session} (shows : Shows t d)
    (found : t.calls[c]? = some call) (slot : reclaim t.session c via = some s) :
    ∃ d', Shows ((t.setSession s).goto c call (.releasing via)) d' := by
  cases via with
  | blocked =>
    simp only [reclaim] at slot
    split at slot
    next pa is =>
      split at slot
      next own =>
        cases slot
        subst own
        have back := shows.returnAnswer is
        refine ⟨_, back.setCall found (Call.Fits.goto ((back.agrees _).call call found) ?_)⟩
        rw [Core.Desk.setFate_self]
        exact .inr (.inl rfl)
      next => cases slot
    next => cases slot
  | freeText =>
    simp only [reclaim] at slot
    split at slot
    next ps is =>
      split at slot
      next own =>
        cases slot
        subst own
        obtain ⟨d', back, -, taken, -, -⟩ := shows.emptySubmit is
        exact ⟨d', back.setCall found (Call.Fits.goto ((back.agrees _).call call found) taken)⟩
      next => cases slot
    next => cases slot

theorem advance_shows {call : Call} {expired : Bool} {t' : Threads} (shows : Shows t d)
    (found : t.calls[c]? = some call) (advanced : Advanced t c call expired t')
    (inTime : expired = true → call.unanswered = true → t.touched c = false) :
    ∃ d', Shows t' d' := by
  have agrees := shows.agrees c
  have fits := agrees.call call found
  have early : call.stage.early = true → d.fate c = .unsent := CallAt.Fits.early fits.stage
  cases advanced with
  | stays => exact ⟨d, shows⟩
  | binds id stage current named =>
    have unsent := early (by rw [stage]; rfl)
    refine ⟨d, shows.setCall found ⟨?_, fits.reply, fun other ticket => ?_, fun other held => ?_⟩⟩
    · exact unsent
    · rw [unsent] at ticket
      cases ticket
    · cases held
      exact named
  | turnedAway outcome stage status =>
    exact ⟨d, shows.setCall found (Call.Fits.goto fits
      (RespondStatus.fits_of_untouched status (.inl (early stage))))⟩
  | moves s stage' stage early' alike =>
    have moved : stage'.Fits (d.fate c) := by
      rw [early stage]
      exact CallAt.fits_of_early early'
    exact ⟨d, (shows.alike alike).setCall found (Call.Fits.goto fits moved)⟩
  | claims id stage held current =>
    have unsent := early (by rw [stage]; rfl)
    refine ⟨_, shows.claims found current unsent ⟨⟨id, rfl⟩, ?_, ?_, fits.bound⟩⟩
    · exact fits.unreplied (by rw [unsent]; exact Fate.not_over_unsent)
    · intro other ticket
      cases ticket
      exact held
  | resolves id seq stage held =>
    have claimed := fits.stage
    rw [stage] at claimed
    exact ⟨d, (shows.alike (Session.resolve_alike ..)).setCall found
      ⟨claimed, fits.reply, fits.held, fits.bound⟩⟩
  | types id written stage' stage held next =>
    have claimed := fits.stage
    rw [stage] at claimed
    obtain ⟨other, claimed⟩ := claimed
    obtain rfl : id = other := by
      have same := fits.held other (by rw [claimed]; rfl)
      rw [held, Option.some.injEq] at same
      exact same
    refine ⟨_, shows.types found claimed written ⟨?_, ?_, ?_, fits.bound⟩⟩
    · rw [next]
      cases written with
      | true => exact ⟨id, rfl⟩
      | false => exact RespondStatus.fits_of_other (by simp) rfl (.inr (.inr (.inr ⟨_, _, rfl⟩)))
    · refine fits.unreplied ?_
      rw [claimed]
      rintro (same | ⟨_, _, same⟩) <;> cases same
    · intro other ticket
      cases ticket
      exact held
  | records id s outcome stage held alike _ status =>
    have wrote := fits.stage
    rw [stage] at wrote
    refine ⟨d, (shows.alike alike).setCall found (Call.Fits.goto fits ⟨fun _ => wrote, ?_, ?_⟩)⟩
    · rw [status]
      intro blameless
      cases blameless
    · obtain ⟨id, wrote⟩ := wrote
      exact .inr (.inr (.inr ⟨id, true, wrote⟩))
  | enqueues via id s stage held waiting =>
    have unsent := early (by rw [stage]; rfl)
    refine ⟨_, shows.hands found unsent waiting ⟨.inl ⟨id, rfl⟩, ?_, ?_, fits.bound⟩⟩
    · exact fits.unreplied (by rw [unsent]; exact Fate.not_over_unsent)
    · intro other ticket
      cases ticket
      exact held
  | refuses id stage =>
    exact ⟨d, shows.setCall found (Call.Fits.goto fits (early (by rw [stage]; rfl)))⟩
  | supersedes id outcome stage held =>
    refine ⟨d, (shows.alike (Session.resolve_alike ..)).setCall found (Call.Fits.goto fits ?_)⟩
    have at_ := fits.stage
    rcases stage with ⟨stage, status⟩ | ⟨via, stage, status⟩
    · rw [stage] at at_
      exact RespondStatus.fits_of_untouched (by rw [status]; simp) (.inl at_)
    · rw [stage] at at_
      change outcome.status.Fits _
      rw [status]
      exact Via.giveUp_fits (.inr at_)
  | replied via status seq stage reply =>
    exact ⟨d, shows.setCall found (Call.Fits.goto fits (fits.reply status seq reply).2)⟩
  | tires via stage =>
    have at_ := fits.stage
    rw [stage] at at_
    exact ⟨d, shows.setCall found (Call.Fits.goto fits at_)⟩
  | reclaims via s stage slot => exact shows.reclaims found slot
  | misses via stage missed =>
    exact ⟨d, shows.setCall found (Call.Fits.goto fits (shows.taken_of_missed found stage missed))⟩
  | expires via stage reply late =>
    have at_ := fits.stage
    rw [stage] at at_
    have back := shows.returned_of_untouched at_
      (inTime late (by simp only [Call.unanswered, stage, reply, Option.isNone_none]))
    exact ⟨d, shows.setCall found (Call.Fits.goto fits
      (RespondStatus.fits_of_untouched (by simp) (.inr back)))⟩

/-! ### The steps of the monitor -/

theorem Shows.setSeq (shows : Shows t d) (seq : Option EventId) : Shows { t with seq := seq } d :=
  ⟨shows.sound, shows.opened, shows.written,
    fun c => (shows.agrees c).frame rfl (fun _ _ => .rfl) (fun _ _ => .rfl) (shows.agrees c).todo
      (fun _ member _ => member) fun _ _ _ => rfl,
    shows.lone, shows.closed, shows.owner⟩

/-- The monitor begins an operation that types nothing. -/
theorem Shows.start (shows : Shows t d) (free : t.todo = []) (next : List Chore)
    (plain : ∀ other ∈ next, other.plain = true)
    (fits : ∀ other ∈ next, ∀ c, other.Fits c (d.fate c)) : Shows (t.setTodo next) d := by
  have pushed := shows.push next (by simp [free]) plain fits (by simp [free])
  rwa [free, List.append_nil] at pushed

/-- The chores that tell a caller its answer was not typed. -/
theorem Shows.startReturned (shows : Shows t d) (free : t.todo = [])
    (returned : d.fate c = .returned) {status : RespondStatus} (other : status ≠ .resumed)
    (id : DecisionId) (reason : ResolvedReason) :
    Shows (t.setTodo [.resolve id reason, .signal c status]) d := by
  refine shows.start free _ (by simp [Chore.plain]) ?_
  simp only [List.mem_cons, List.not_mem_nil, or_false, forall_eq_or_imp, forall_eq]
  refine ⟨fun _ => trivial, fun c' own => ?_⟩
  rw [← own, returned]
  exact ⟨.inl rfl, RespondStatus.fits_of_untouched other (.inr rfl)⟩

theorem beginOp_shows (minted : Minted t) (shows : Shows t d) (free : t.todo = [])
    (op : MonitorOp) : ∃ d', Shows (t.beginOp cfg op) d' := by
  have unsettled : ∀ c, t.settling c = false := fun c => by simp [settling, free]
  cases op with
  | announce a view =>
    exact ⟨d, shows.start free _ (by simp [Chore.plain]) (by simp [Chore.Fits])⟩
  | withdraw key reason =>
    simp only [beginOp]
    rcases Session.takeDown_cases t.session key with ⟨id, current, down⟩ | down
    · rw [down]
      have closed := shows.section (s := (t.session.setDecision none).setState (.live .busy))
        (.inl rfl) rfl rfl
      exact ⟨_, closed.start free [_] (by simp [Chore.plain]) (by simp [Chore.Fits])⟩
    · rw [down]
      exact ⟨d, shows⟩
  | hook hobs now => exact ⟨d, shows.alike (Session.drainHook_alike cfg t.session hobs now).1⟩
  | tick obs ctx now => exact ⟨d, shows.alike (Session.tick_alike cfg t.session obs ctx now).1⟩
  | cache obs => exact ⟨d, shows.alike (Session.cacheLastModalOptions_alike t.session obs).1⟩
  | enrich obs => exact ⟨d, shows.alike (Session.enrichHookModalOptions_alike t.session obs).1⟩
  | drainAnswer obs bodyFp =>
    simp only [beginOp]
    have effect := Session.claimAnswer_effect t.session obs bodyFp
    generalize t.session.claimAnswer obs bodyFp = r at effect ⊢
    cases effect with
    | empty => exact ⟨d, shows⟩
    | write pa slot blocked =>
      exact ⟨_, shows.takeAnswer free slot (minted.current_of_blockedOn blocked)⟩
    | abort pa slot =>
      have back := shows.returnAnswer slot
      exact ⟨_, back.startReturned free (Core.Desk.setFate_self ..) (by simp) _ _⟩
  | drainSubmit obs late =>
    simp only [beginOp]
    have effect := Session.drainSubmit_effect t.session obs late
    generalize t.session.drainSubmit obs late = r at effect ⊢
    cases effect with
    | empty => exact ⟨d, shows⟩
    | write ps slot queued current => exact ⟨_, shows.takeSubmit free slot queued current⟩
    | abort ps slot queued =>
      obtain ⟨d', back, -, -, returned, -⟩ := shows.emptySubmit slot
      exact ⟨d', back.startReturned free (returned queued (unsettled _)) (by simp) _ _⟩
    | wait ps echo slot written =>
      have wrote := ((shows.agrees ps.call).submit ps slot rfl).written written
      exact ⟨d, shows.note _ slot rfl rfl written wrote⟩
    | settle ps echo verdict slot written ends =>
      obtain ⟨d', back, -, -, -, wrote⟩ := shows.emptySubmit slot
      have told : ∀ status : RespondStatus, (status.blameless = false) →
          Shows ((t.setSession { t.session with pendingSubmit := none }).setTodo
            [.signal ps.call status]) d' := by
        intro status other
        refine back.start free _ (by simp [Chore.plain]) ?_
        simp only [List.mem_singleton, forall_eq]
        intro c own
        rw [← own, wrote written]
        refine ⟨.inr ⟨_, _, rfl⟩, fun _ => ⟨_, rfl⟩, fun same => ?_, .inr (.inr (.inr ⟨_, _, rfl⟩))⟩
        rw [other] at same
        cases same
      rcases ends with rfl | rfl
      · exact ⟨d', (told .resumed rfl).setSeq _⟩
      · exact ⟨d', (told .respondFailed rfl).setSeq _⟩
  | deliver task hookCapable now =>
    rw [beginOp_deliver]
    have effect := Session.confirmDelivery_effect t.session cfg task hookCapable now
    generalize t.session.confirmDelivery cfg task hookCapable now = r at effect ⊢
    -- the slot first, then the prompt
    have back : ∃ d', Shows (t.setSession { t.session with pendingAnswer := none }) d' ∧
        ∀ chore ∈ t.session.pendingAnswer.elim []
            (fun pa => [Chore.resolve pa.decisionId .superseded, .signal pa.call .stale]),
          chore.plain = true ∧ ∀ c, chore.Fits c (d'.fate c) := by
      cases slot : t.session.pendingAnswer with
      | none =>
        refine ⟨d, shows.alike ⟨rfl, rfl, slot.symm, rfl, rfl, rfl, fun _ => rfl⟩, by simp⟩
      | some pa =>
        refine ⟨_, shows.returnAnswer slot, ?_⟩
        simp only [Option.elim_some, List.mem_cons, List.not_mem_nil, or_false, forall_eq_or_imp,
          forall_eq]
        refine ⟨⟨rfl, fun _ => trivial⟩, rfl, fun c own => ?_⟩
        rw [← own, Core.Desk.setFate_self]
        exact ⟨.inl rfl, RespondStatus.fits_of_untouched (by simp) (.inr rfl)⟩
    obtain ⟨d', back, chores⟩ := back
    cases effect with
    | retires id n task' engine current blocked =>
      have closed := back.section
        (s := { t.session with
          taskDelivery := .delivered, lastSubmitted := task', engine := engine
          decision := none, pendingAnswer := none }) (.inl rfl) rfl rfl
      refine ⟨_, closed.start free _ ?_ ?_⟩
      · simp only [Option.elim_some, List.singleton_append, List.mem_cons, forall_eq_or_imp]
        exact ⟨rfl, fun chore member => (chores chore member).1⟩
      · simp only [Option.elim_some, List.singleton_append, List.mem_cons, forall_eq_or_imp]
        exact ⟨fun _ => trivial, fun chore member => (chores chore member).2⟩
    | keeps task' engine other =>
      have delivered := back.section
        (s := { t.session with
          taskDelivery := .delivered, lastSubmitted := task', engine := engine
          pendingAnswer := none }) (.inr rfl) rfl rfl
      exact ⟨_, delivered.start free _ (fun chore member => (chores chore member).1)
        fun chore member => (chores chore member).2⟩
  | failDelivery => exact ⟨_, shows.section (.inr rfl) rfl rfl⟩
  | finish ending view =>
    have flagged : Shows (t.setSession { t.session with finalized := true, closing := true }) d :=
      shows.alike ⟨rfl, rfl, rfl, rfl, rfl, rfl, fun _ => rfl⟩
    cases ending with
    | none => exact ⟨d, flagged.start free _ (by simp [Chore.plain]) (by simp [Chore.Fits])⟩
    | some ending => exact ⟨d, flagged.start free _ (by simp [Chore.plain]) (by simp [Chore.Fits])⟩

variable {chore : Chore} {rest : List Chore}

/-- What the next chore says of an answer. -/
theorem Shows.head (shows : Shows t d) (todo : t.todo = chore :: rest) (c : ℕ) :
    chore.Fits c (d.fate c) :=
  (shows.agrees c).todo chore (todo ▸ List.mem_cons_self)

/-- The monitor is done with a chore that is not about a taken answer. -/
theorem Shows.done (shows : Shows t d) (todo : t.todo = chore :: rest)
    (plain : chore.plain = true) : Shows (t.setTodo rest) d :=
  shows.pop todo (Chore.plain_types plain) fun ps _ settles => by
    rw [Chore.plain_settles plain] at settles
    cases settles

/-- Two chores in place of one that aborts: the caller is told. -/
theorem Shows.aborts (shows : Shows t d) (todo : t.todo = chore :: rest)
    (plain : chore.plain = true) (concluded : Fate.Over (d.fate c)) (id : DecisionId) :
    Shows (t.setTodo (.resolve id .superseded :: .signal c .terminal :: rest)) d := by
  have popped := shows.done todo plain
  refine popped.push [_, _] (shows.untyped todo) (by simp [Chore.plain]) ?_
    (by simp [Chore.publishes])
  simp only [List.mem_cons, List.not_mem_nil, or_false, forall_eq_or_imp, forall_eq]
  refine ⟨fun _ => trivial, fun c' own => ?_⟩
  rw [← own]
  exact ⟨concluded, RespondStatus.fits_of_other (by simp) rfl (.inr (.inr concluded))⟩

/-- A reply is left for the caller. -/
theorem Shows.signals {status : RespondStatus} (shows : Shows t d)
    (todo : t.todo = .signal c status :: rest) : Shows ((t.setTodo rest).signal c status) d := by
  have popped := shows.done todo rfl
  have told := shows.head todo c rfl
  simp only [signal]
  split
  next call found =>
    have fits := (popped.agrees c).call call found
    refine popped.setCall found ⟨fits.stage, ?_, fits.held, fits.bound⟩
    intro status' seq reply
    cases reply
    exact told
  next => exact popped

/-- After the write the submit waits in its slot for the confirmation. -/
theorem Shows.awaits (shows : Shows t d) (todo : t.todo = .await c :: rest) (seq : Option EventId) :
    Shows ((t.setTodo rest).setSession (t.session.awaitConfirm c seq)) d := by
  obtain ⟨id, wrote⟩ := shows.head todo c rfl
  have types : ∀ c', (Chore.await c).types c' = false := fun _ => rfl
  simp only [Session.awaitConfirm]
  split
  next ps slot =>
    split
    next own =>
      subst own
      obtain rfl : id = ps.decisionId := by
        have ticket := ((shows.agrees ps.call).submit ps slot rfl).ticket
        rw [wrote] at ticket
        exact Option.some.inj ticket
      have noted := shows.note { ps with written := true, sawEcho := false, seq := seq } slot rfl rfl
        rfl wrote
      exact noted.pop todo types fun ps' slot' _ => by cases slot'; rfl
    next other =>
      refine shows.pop todo types fun ps' slot' settles => ?_
      obtain rfl : ps = ps' := Option.some.inj (slot.symm.trans slot')
      exact absurd (beq_iff_eq.mp settles).symm other
  next empty =>
    exact shows.pop todo types fun ps slot => by rw [empty] at slot; cases slot

/-- A submit that was not typed in time leaves its slot. -/
theorem Shows.drops (shows : Shows t d) (todo : t.todo = .dropSubmit :: rest) :
    ∃ d', Shows ((t.setTodo rest).setSession { t.session with pendingSubmit := none }) d' := by
  have types : ∀ c', Chore.dropSubmit.types c' = false := fun _ => rfl
  cases slot : t.session.pendingSubmit with
  | none =>
    have popped := shows.pop todo types fun ps slot' => by rw [slot] at slot'; cases slot'
    exact ⟨d, popped.alike ⟨rfl, rfl, rfl, slot.symm, rfl, rfl, fun _ => rfl⟩⟩
  | some ps =>
    obtain ⟨d', back, -⟩ := shows.emptySubmit slot
    exact ⟨d', back.pop todo types fun ps emptied => by cases emptied⟩

/-- A submit that the session ends with is not typed any more, or was typed already. -/
theorem Shows.abortsSubmit (shows : Shows t d) (todo : t.todo = .abortSubmit :: rest)
    {ps : PendingSubmit} (slot : t.session.pendingSubmit = some ps) :
    ∃ d', Shows
      ((t.setSession { t.session with pendingSubmit := none }).setTodo
        (.resolve ps.decisionId .superseded :: .signal ps.call .terminal :: rest)) d' := by
  obtain ⟨d', back, -, taken, -, -⟩ := shows.emptySubmit slot
  have concluded : Fate.Over (d'.fate ps.call) := by
    rcases taken with ⟨id, typing⟩ | concluded
    · -- a chore that types would be the only one
      obtain ⟨other, member, types⟩ := (back.agrees ps.call).typing id typing
      have alone := back.lone other member _ types
      change t.todo = [other] at alone
      rw [todo] at alone
      injection alone with same
      rw [← same] at types
      cases types
    · exact concluded
  exact ⟨d', back.aborts todo rfl concluded _⟩

theorem Shows.builds (shows : Shows t d) {a : Announcement} {view : View}
    (todo : t.todo = .build a view :: rest) :
    ∃ d', Shows
      ((t.setSession (t.session.build a view).1).setTodo
        (.commit (t.session.build a view).2 view.owner ::
          .freeze (t.session.build a view).2 :: rest)) d' := by
  obtain ⟨alike, -, -⟩ := Session.build_alike t.session a view
  have built := (shows.section (s := (t.session.build a view).1) (.inr alike.current) alike.answer
    alike.submit).done todo rfl
  refine ⟨_, built.push [_, _] (shows.untyped todo) (by simp [Chore.plain])
    (by simp [Chore.Fits]) fun _ _ _ third member c => ?_⟩
  refine Bool.eq_false_iff.mpr fun settles => ?_
  have passive := (shows.closed third (todo ▸ List.mem_cons_of_mem _ member) ⟨c, settles⟩).2
  cases passive _ (todo ▸ List.mem_cons_self)

theorem Shows.commits (shows : Shows t d) (minted : Minted t) {b : Built} {owner : Option String}
    (todo : t.todo = .commit b owner :: rest) :
    ∃ d', Shows ((t.setTodo rest).setSession (t.session.commit b owner)) d' := by
  have popped := shows.done todo rfl
  have effect := Session.commit_effect t.session b owner
  generalize t.session.commit b owner = s' at effect ⊢
  cases effect with
  | plain _ alike | refreshed _ _ _ alike | obsolete _ _ _ _ alike =>
    exact ⟨d, popped.alike alike⟩
  | installed ask is first current nature fields =>
    obtain ⟨-, fresh⟩ := minted.built b owner (todo ▸ List.mem_cons_self) ask is
    refine ⟨_, popped.install (fun call member held => ?_) current fields.2.1 fields.2.2.1
      fun chore member c => ?_⟩
    · exact fresh first (.inr (.inl ⟨call, member, held⟩))
    · refine Bool.eq_false_iff.mpr fun settles => ?_
      have passive := (shows.closed chore (todo ▸ List.mem_cons_of_mem _ member) ⟨c, settles⟩).2
      cases passive _ (todo ▸ List.mem_cons_self)

/-- The monitor types the answer it claimed, and tells the caller. -/
theorem Shows.typesAnswer (shows : Shows t d) {pa : PendingAnswer}
    (todo : t.todo = .typeAnswer pa :: rest) (written : Bool) (now : Time) :
    ∃ d', Shows (t.runChore cfg written now) d' := by
  have types : (Chore.typeAnswer pa).types pa.call = true := beq_self_eq_true _
  have alone := shows.lone _ (todo ▸ List.mem_cons_self) _ types
  have empty : rest = [] := by
    rw [todo] at alone
    injection alone
  subst empty
  have typing := shows.head todo pa.call rfl
  simp only [runChore, todo]
  cases written with
  | true =>
    refine ⟨_, shows.typed alone typing types true ?_ ?_ ?_ (fun _ _ => rfl) ?_⟩
    · simp only [if_true, List.mem_cons, List.not_mem_nil, or_false, forall_eq_or_imp, forall_eq]
      refine ⟨fun _ => trivial, fun _ => trivial, fun c own => ?_⟩
      rw [← own, Core.Desk.setFate_self]
      exact ⟨.inr ⟨_, _, rfl⟩, fun _ => ⟨_, rfl⟩, fun same => (by cases same),
        .inr (.inr (.inr ⟨_, _, rfl⟩))⟩
    · simp [Chore.types]
    · simp [Chore.publishes]
    · simp [Chore.settles]
  | false =>
    refine ⟨_, shows.typed alone typing types false ?_ ?_ ?_ (fun _ _ => rfl) ?_⟩
    · simp only [Bool.false_eq_true, if_false, List.mem_cons, List.not_mem_nil, or_false,
        forall_eq_or_imp, forall_eq]
      refine ⟨fun _ => trivial, fun c own => ?_⟩
      rw [← own, Core.Desk.setFate_self]
      exact ⟨.inr ⟨_, _, rfl⟩,
        RespondStatus.fits_of_other (by simp) rfl (.inr (.inr (.inr ⟨_, _, rfl⟩)))⟩
    · simp [Chore.types]
    · simp [Chore.publishes]
    · simp [Chore.settles]

theorem Shows.typesSubmit (shows : Shows t d) {ps : PendingSubmit}
    (todo : t.todo = .typeSubmit ps :: rest) (written : Bool) (now : Time) :
    ∃ d', Shows (t.runChore cfg written now) d' := by
  have types : (Chore.typeSubmit ps).types ps.call = true := beq_self_eq_true _
  have alone := shows.lone _ (todo ▸ List.mem_cons_self) _ types
  have empty : rest = [] := by
    rw [todo] at alone
    injection alone
  subst empty
  have typing := shows.head todo ps.call rfl
  have settled : ∀ ps', t.session.pendingSubmit = some ps' →
      (Chore.typeSubmit ps).settles ps'.call = true :=
    fun ps' slot => beq_iff_eq.mpr (shows.owner ps (todo ▸ List.mem_cons_self) ps' slot).symm
  simp only [runChore, todo]
  cases written with
  | true =>
    refine ⟨_, shows.typed alone typing types true ?_ ?_ ?_ ?_ ?_⟩
    · simp only [if_true, List.mem_cons, List.not_mem_nil, or_false, forall_eq_or_imp, forall_eq]
      refine ⟨fun _ => trivial, fun _ => trivial, fun c own => ?_⟩
      rw [← own, Core.Desk.setFate_self]
      exact ⟨_, rfl⟩
    · simp [Chore.types]
    · simp [Chore.publishes]
    · intro ps' slot
      rw [settled ps' slot]
      simpa [Chore.settles] using settled ps' slot
    · exact fun _ => ⟨ps.call, beq_self_eq_true _⟩
  | false =>
    refine ⟨_, shows.typed alone typing types false ?_ ?_ ?_ ?_ ?_⟩
    · simp only [Bool.false_eq_true, if_false, List.mem_cons, List.not_mem_nil, or_false,
        forall_eq_or_imp, forall_eq]
      refine ⟨fun _ => trivial, fun _ => trivial, fun c own => ?_⟩
      rw [← own, Core.Desk.setFate_self]
      exact ⟨.inr ⟨_, _, rfl⟩,
        RespondStatus.fits_of_other (by simp) rfl (.inr (.inr (.inr ⟨_, _, rfl⟩)))⟩
    · simp [Chore.types]
    · simp [Chore.publishes]
    · intro ps' slot
      rw [settled ps' slot]
      simp [Chore.settles]
    · exact fun _ => ⟨ps.call, beq_self_eq_true _⟩

theorem runChore_shows (minted : Minted t) (shows : Shows t d) (written : Bool) (now : Time) :
    ∃ d', Shows (t.runChore cfg written now) d' := by
  cases todo : t.todo with
  | nil =>
    simp only [runChore, todo]
    exact ⟨d, shows⟩
  | cons chore rest =>
    cases chore with
    | build a view =>
      simp only [runChore, todo]
      exact shows.builds todo
    | commit b owner =>
      simp only [runChore, todo]
      exact shows.commits minted todo
    | freeze b =>
      simp only [runChore, todo]
      simp only [Session.freezeIdle]
      split
      · exact ⟨_, (shows.done todo rfl).section (s := t.session.setDecision _) (.inl rfl) rfl rfl⟩
      · exact ⟨d, (shows.done todo rfl).alike (.refl _)⟩
    | resolve id reason =>
      simp only [runChore, todo]
      exact ⟨d, ((shows.done todo rfl).alike (Session.resolve_alike ..)).setSeq _⟩
    | typeAnswer pa => exact shows.typesAnswer cfg todo written now
    | typeSubmit ps => exact shows.typesSubmit cfg todo written now
    | record clean =>
      simp only [runChore, todo]
      exact ⟨d, (shows.done todo rfl).alike (Session.recordSubmit_alike ..).1⟩
    | await c =>
      simp only [runChore, todo]
      exact ⟨d, shows.awaits todo _⟩
    | dropSubmit =>
      simp only [runChore, todo]
      exact shows.drops todo
    | signal c status =>
      simp only [runChore, todo]
      exact ⟨d, shows.signals todo⟩
    | abortAnswer =>
      simp only [runChore, todo]
      split
      next pa slot =>
        have back := shows.returnAnswer slot
        exact ⟨_, back.aborts todo rfl (.inl (Core.Desk.setFate_self ..)) _⟩
      next => exact ⟨d, shows.done todo rfl⟩
    | abortSubmit =>
      simp only [runChore, todo]
      split
      next ps slot => exact shows.abortsSubmit todo slot
      next => exact ⟨d, shows.done todo rfl⟩
    | settle state =>
      simp only [runChore, todo]
      exact ⟨d, (shows.done todo rfl).alike ⟨rfl, rfl, rfl, rfl, rfl, rfl, fun _ => rfl⟩⟩

/-! ### Runs -/

/-- A new call has handed nothing over. -/
theorem Shows.arrives (shows : Shows t d) (clean : String) (accepted : Bool)
    (named : Option DecisionId) :
    Shows { t with calls := t.calls ++ [{ clean := clean, accepted := accepted, named := named }] }
      d := by
  refine ⟨shows.sound, shows.opened, shows.written, fun c => ?_, shows.lone, shows.closed,
    shows.owner⟩
  have agrees := shows.agrees c
  exact
    { agrees with
      call := fun call found => by
        by_cases inside : c < t.calls.length
        · exact agrees.call call ((List.getElem?_append_left inside).symm.trans found)
        · -- the call that has just come
          have unsent := agrees.absent (List.getElem?_eq_none (not_lt.mp inside))
          have new : call ∈ [({ clean := clean, accepted := accepted, named := named } : Call)] :=
            List.mem_of_getElem?
              ((List.getElem?_append_right (not_lt.mp inside)).symm.trans found)
          rw [List.mem_singleton] at new
          rw [new, unsent]
          exact ⟨rfl, fun _ _ reply => (by cases reply), fun _ ticket => (by cases ticket),
            fun _ held => by cases held⟩
      absent := fun none => by
        have beyond := List.getElem?_eq_none_iff.mp none
        rw [List.length_append, List.length_singleton] at beyond
        exact agrees.absent (List.getElem?_eq_none (Nat.le_of_succ_le beyond)) }

theorem step_shows (minted : Minted t) (shows : Shows t d) (i : Step) (inTime : InTime t i) :
    ∃ d', Shows ((machine cfg).step t i).1 d' := by
  cases i with
  | call clean accepted named => exact ⟨d, shows.arrives clean accepted named⟩
  | advance c expired written now =>
    cases found : t.calls[c]? with
    | none =>
      simp only [machine, advance_absent cfg t found]
      exact ⟨d, shows⟩
    | some call =>
      refine advance_shows shows found (advance_effect cfg t found expired written now) ?_
      intro late unanswered
      exact inTime late (by rw [found]; exact unanswered)
  | begin op =>
    simp only [machine]
    split
    next free => exact beginOp_shows cfg minted shows (List.isEmpty_iff.mp free.1) op
    next => exact ⟨d, shows⟩
  | chore written now => exact runChore_shows cfg minted shows written now
  | publishElsewhere n owner =>
    simp only [machine]
    split
    · exact ⟨d, shows.alike ⟨rfl, rfl, rfl, rfl, rfl, rfl, fun _ => rfl⟩⟩
    · exact ⟨d, shows⟩
  | resolveElsewhere id reason =>
    simp only [machine]
    split
    · exact ⟨d, shows.alike (Session.resolve_alike ..)⟩
    · exact ⟨d, shows⟩

theorem shows_started (id : SessionId) (events : EventQueue) :
    Shows (started id events) { opened := none, fate := fun _ => .unsent, written := [] } where
  sound := Core.Desk.sound_start none
  opened := rfl
  written := rfl
  agrees c :=
    { call := fun _ found => by cases found
      absent := fun _ => rfl
      answer := fun _ slot => by cases slot
      answered := fun _ same => by cases same
      submit := fun _ slot => by cases slot
      submitted := fun _ same => by cases same
      todo := fun _ member => by cases member
      typing := fun _ same => by cases same }
  lone chore member := by cases member
  closed chore member := by cases member
  owner ps member := by cases member

/-- Every state of a run whose callers wait long enough is shown at a sound desk. -/
theorem shows_after (id : SessionId) (events : EventQueue) (steps : List Step)
    (inTime : (machine cfg).Along InTime (started id events) steps) :
    ∃ d, Shows ((machine cfg).after (started id events) steps) d := by
  refine ((machine cfg).invariant_along (fun t => Minted t ∧ ∃ d, Shows t d) ?_
    ⟨minted_started id events, _, shows_started id events⟩ inTime).2
  rintro t i ⟨minted, d, shows⟩ inTime
  exact ⟨minted_step cfg minted i, step_shows cfg minted shows i inTime⟩

/-- Every decision is answered by at most one write; a call that resumed the session made it, or
had it made; and a call that was turned away wrote nothing. -/
structure AnswersOnce (t : Threads) : Prop where
  once : ∀ id, (t.writes.filter (fun w => w.ticket = id)).length ≤ 1
  resumed : ∀ c call, t.calls[c]? = some call → call.returned = some .resumed →
    ∃ id, call.named = some id ∧ t.writes.filter (fun w => w.ticket = id) = [⟨c, id, true⟩]
  blameless : ∀ c call status, t.calls[c]? = some call → call.returned = some status →
    status.blameless = true → ∀ w ∈ t.writes, w.caller ≠ c

theorem Shows.answersOnce (shows : Shows t d) : AnswersOnce t := by
  have fits : ∀ (c : ℕ) (call : Call) (status : RespondStatus), t.calls[c]? = some call →
      call.returned = some status →
      status.Fits (d.fate c) ∧ call.Fits (d.fate c) := by
    intro c call status found returned
    have fits := (shows.agrees c).call call found
    refine ⟨?_, fits⟩
    have stage := fits.stage
    simp only [Call.returned] at returned
    split at returned
    next outcome is =>
      cases returned
      rw [is] at stage
      exact stage
    next => cases returned
  refine ⟨fun id => ?_, fun c call found returned => ?_, ?_⟩
  · rw [← shows.written]
    cases some : d.written.filter (fun w => w.ticket = id) with
    | nil => exact Nat.zero_le 1
    | cons w rest =>
      have member : w ∈ d.written.filter (fun w => w.ticket = id) := some ▸ List.mem_cons_self
      obtain ⟨logged, same⟩ := List.mem_filter.mp member
      rw [← some, ← decide_eq_true_eq.mp same, shows.sound.writes_of logged]
      exact le_rfl
  · obtain ⟨status, call'⟩ := fits c call .resumed found returned
    obtain ⟨id, wrote⟩ := status.resumed rfl
    have logged := (shows.sound.wrote ⟨c, id, true⟩).mpr wrote
    refine ⟨id, call'.bound id (call'.held id (by rw [wrote]; rfl)), ?_⟩
    rw [← shows.written]
    exact shows.sound.writes_of logged
  · intro c call status found returned innocent w logged own
    rw [← shows.written, shows.sound.wrote, own] at logged
    rcases (fits c call status found returned).1.blameless innocent with same | same <;>
      · rw [same] at logged
        cases logged

/-- Answers are typed at most once, and a caller's outcome tells whether its answer was typed, in
every run whose callers do not give up on the monitor while it types. -/
theorem answersOnce_of_inTime (id : SessionId) (events : EventQueue) (steps : List Step)
    (inTime : (machine cfg).Along InTime (started id events) steps) :
    AnswersOnce ((machine cfg).after (started id events) steps) := by
  obtain ⟨d, shows⟩ := shows_after cfg id events steps inTime
  exact shows.answersOnce

/-! ### Two runs -/

/-- A trust prompt before the task is delivered, and an answer to it that waits for the monitor. -/
def trustPrompt : List Step :=
  [.begin (.announce
      { kind := .blocked, requiresResponse := some true, decisionKey := some (.frame "trust")
        options := [⟨"1", "Yes"⟩], promptKind := some .modalChoice
        modalDedup := some ⟨.modalChoice, [⟨"1", "Yes"⟩], some "trust"⟩ } {}),
    .chore true 0, .chore true 0, .chore true 0,
    .call "1" true (some (.dec "s" 0)),
    .advance 0 false true 1, .advance 0 false true 1, .advance 0 false true 1,
    .advance 0 false true 1, .advance 0 false true 1]

/-- The monitor finds the prompt on the screen and claims the answer. -/
def claimTrust : Step :=
  .begin (.drainAnswer { promptKind := .modalChoice, options := [⟨"1", "Yes"⟩] } (some "trust"))

/-- The answer is typed, and its caller is told. -/
def answeredTrust : List Step :=
  trustPrompt ++ [claimTrust, .chore true 2, .chore true 2, .chore true 2, .chore true 2,
    .advance 0 false true 2]

/-- The caller's first wait ends after the claim, its second before the reply. -/
def hastyTrust : List Step :=
  trustPrompt ++ [claimTrust, .advance 0 true true 2, .advance 0 true true 2, .chore true 2,
    .advance 0 true true 3]

theorem answersOnce_answeredTrust :
    AnswersOnce ((machine {}).after (started "s" {}) answeredTrust) :=
  answersOnce_of_inTime {} "s" {} answeredTrust (by decide +kernel)

theorem hastyTrust_typed : ¬ AnswersOnce ((machine {}).after (started "s" {}) hastyTrust) := by
  intro answers
  have written : ((machine {}).after (started "s" {}) hastyTrust).writes =
      [⟨0, .dec "s" 0, true⟩] := by decide +kernel
  have told : ((machine {}).after (started "s" {}) hastyTrust).calls[0]?.bind Call.returned =
      some .stale := by decide +kernel
  obtain ⟨call, found, returned⟩ := Option.bind_eq_some_iff.mp told
  refine answers.blameless 0 call .stale found returned rfl ⟨0, .dec "s" 0, true⟩ ?_ rfl
  rw [written]
  exact List.mem_singleton_self _

end Threads

end Nelix.Daemon
